/-
Streaming and whole buffers (`util/cbcutil/cbc.go`): `EncryptStream` against `Encrypt`, `DecryptFile` against `Decrypt`.

`EncryptStream` works on 32 KiB at a time and `Encrypt` on one slice; `DecryptFile` works in place. For every key, every
vector and every content the two of a pair do the same: they refuse the same keys, panic on the same vectors, and otherwise
compute the same bytes.

Model: the vector is a slice that is there; without one `Encrypt` draws its own, which streaming has no counterpart of. The
reader returns its bytes in any chunks. A file with `WriteAt` may hold anything before; of each call a plain writer takes as
many bytes as it likes, but some. Of HMAC-SHA256 only the size of its sum is used.
-/
import Hypermeow.Util.CbcStream

namespace Hypermeow.Util

open Lib List

variable {σ : Type} {aes : Bytes → BlockCipher} {sha256 : Bytes → Bytes} {hmac : Bytes → Bytes → Bytes}
  {key iv macKey : Bytes}

/-- `EncryptStream` did what `Encrypt` does on the whole plaintext: `whole` is what `Encrypt` returned, `streamed` what
`EncryptStream` returned, and `Wrote out` says that the sink was written `out` -/
def StreamsAs (sha256 : Bytes → Bytes) (hmac : Bytes → Bytes → Bytes) (iv macKey plaintext : Bytes) (Wrote : Bytes → Prop)
    (streamed : Outcome StreamError Encrypted) : Outcome CbcError Bytes → Prop
  | .ok ciphertext =>
    let out := ciphertext ++ (hmac macKey (iv ++ ciphertext)).take 10
    streamed = .ok ⟨sha256 plaintext, sha256 out, plaintext.length, out.length⟩ ∧ Wrote out
  | .err _ => ∃ e, streamed = .err e
  | .panic => streamed = .panic

/-- from any source to any sink -/
theorem encryptStream_streamsAs {S : Streams σ} {Open : σ → Bytes → Bytes → Prop} {Closed : σ → Bytes → Prop}
    (hS : S.Law Open Closed) (hlen : ∀ k m, (hmac k m).length = 32) {plaintext : Bytes} {s : σ}
    (hopen : Open s plaintext []) :
    StreamsAs sha256 hmac iv macKey plaintext (Closed (encryptStream aes sha256 hmac S key iv macKey s).2)
      (encryptStream aes sha256 hmac S key iv macKey s).1 (encrypt aes none key (some iv) plaintext ()).1 := by
  by_cases hk : key.length ∈ aesKeySizes
  · by_cases hiv : iv.length = blockSize
    · obtain ⟨s', hrun, hclosed⟩ := encryptStream_run aes hS hk ⟨iv, hiv⟩ sha256 hmac macKey hopen
      have hsize : ∀ c : Bytes, c.length = (plaintext.length / blockSize + 1) * blockSize →
          (c ++ (hmac macKey (iv ++ c)).take 10).length =
            plaintext.length + (blockSize - plaintext.length % blockSize + 10) := by
        intro c hc
        rw [length_append, length_take, hlen, hc]
        simp only [blockSize]
        omega
      rw [hrun, (encrypt_cases aes hk ⟨iv, hiv⟩ plaintext ()).2 none]
      refine ⟨?_, hclosed⟩
      rw [hsize _ (length_cipherBlocks aes key ⟨iv, hiv⟩ plaintext)]
    · rw [encryptStream, encrypt_eq, if_neg (not_not.2 hk), if_pos hiv, if_neg (not_not.2 hk)]
      simp only [dif_neg hiv]
      rfl
  · rw [encryptStream, encrypt_eq, if_pos hk, if_pos hk]
    exact ⟨_, rfl⟩

/-- for every key and every vector: both fail, or the file holds what the other one returns -/
theorem decryptFile_both (content : Bytes) (hne : content ≠ []) :
    ((∀ f', decryptFile aes key iv ⟨content, 0⟩ ≠ (.ok (), f')) ∧ ∀ pt, decrypt aes key iv content () ≠ (.ok pt, ())) ∨
      ∃ f', decryptFile aes key iv ⟨content, 0⟩ = (.ok (), f') ∧ decrypt aes key iv content () = (.ok f'.content, ()) := by
  by_cases hk : key.length ∈ aesKeySizes
  · by_cases hiv : iv.length = blockSize
    · rcases decryptFile_cases aes hk hiv hne () with ⟨e, e', f', hfile, hwhole⟩ | ⟨pt, f', hfile, rfl, hwhole⟩
      · exact .inl ⟨by simp [hfile], by simp [hwhole]⟩
      · exact .inr ⟨f', hfile, hwhole⟩
    · refine .inl ⟨by simp [decryptFile, hk, hiv, Go.crash], fun pt h => ?_⟩
      rw [decrypt, if_neg (not_not.2 hk), if_pos hiv] at h
      split_ifs at h <;> cases h
  · exact .inl ⟨by simp [decryptFile, hk], by simp [decrypt, hk]⟩

theorem decryptFile_agrees (content : Bytes) (hne : content ≠ []) :
    ((∃ f', decryptFile aes key iv ⟨content, 0⟩ = (.ok (), f')) ↔ ∃ pt, decrypt aes key iv content () = (.ok pt, ())) ∧
      ∀ f' pt, decryptFile aes key iv ⟨content, 0⟩ = (.ok (), f') → decrypt aes key iv content () = (.ok pt, ()) →
        f'.content = pt := by
  rcases decryptFile_both content hne with ⟨hfile, hwhole⟩ | ⟨f, hfile, hwhole⟩
  · exact ⟨iff_of_false (not_exists.2 hfile) (not_exists.2 hwhole), fun f' _ h _ => absurd h (hfile f')⟩
  · refine ⟨iff_of_true ⟨f, hfile⟩ ⟨_, hwhole⟩, fun f' pt h h' => ?_⟩
    cases hfile.symm.trans h
    cases hwhole.symm.trans h'
    rfl

/-- **Streaming is encrypting the whole.** For every key, vector, MAC key and chunking, into a file with `WriteAt` that held
anything and into a writer whatever part of each call it takes; and decrypting a file in place is decrypting its content. -/
theorem streaming_agrees (aes : Bytes → BlockCipher) (sha256 : Bytes → Bytes) (hmac : Bytes → Bytes → Bytes)
    (hlen : ∀ k m, (hmac k m).length = 32) (key iv macKey : Bytes) :
    (∀ (chunks : List Bytes) (f : File),
      let r := encryptStream aes sha256 hmac .toFile key iv macKey (chunks, f)
      StreamsAs sha256 hmac iv macKey chunks.flatten (fun out => r.2.2.content = overwrite f.content 0 out) r.1
        (encrypt aes none key (some iv) chunks.flatten ()).1) ∧
    (∀ (chunks : List Bytes) (takes : ℕ → ℕ) (w : Writer), (∀ k, 0 < takes k) →
      let r := encryptStream aes sha256 hmac (.toWrites takes) key iv macKey (chunks, w)
      StreamsAs sha256 hmac iv macKey chunks.flatten (fun out => r.2.2.written = w.written ++ out) r.1
        (encrypt aes none key (some iv) chunks.flatten ()).1) ∧
    ∀ content : Bytes, content ≠ [] →
      ((∃ f', decryptFile aes key iv ⟨content, 0⟩ = (.ok (), f')) ↔ ∃ pt, decrypt aes key iv content () = (.ok pt, ())) ∧
      ∀ f' pt, decryptFile aes key iv ⟨content, 0⟩ = (.ok (), f') → decrypt aes key iv content () = (.ok pt, ()) →
        f'.content = pt := by
  refine ⟨fun chunks f => ?_, fun chunks takes w htakes => ?_, decryptFile_agrees⟩
  · exact encryptStream_streamsAs (Streams.law_toFile_over f.content) hlen ⟨rfl, rfl⟩
  · exact encryptStream_streamsAs (Streams.law_toWrites htakes w.written) hlen ⟨rfl, (append_nil _).symm⟩

theorem keptBlocks_length (b : Bytes) (h : b.length = blockSize) : (id b).length = blockSize := h

theorem keptBlocks_back (b : Bytes) (_ : b.length = blockSize) : id (id b) = b := rfl

/-- the block cipher that leaves blocks as they are -/
def keptBlocks (_ : Bytes) : BlockCipher := ⟨id, id, keptBlocks_length, keptBlocks_back⟩

def zeroMAC (_ _ : Bytes) : Bytes := List.replicate 32 0

/-- five bytes in two reads, to a writer that takes one byte of each call -/
theorem streaming_agrees_short :
    let r := encryptStream keptBlocks id zeroMAC (.toWrites fun _ => 1) (List.replicate 16 0) (List.replicate 16 0) []
      ([[1, 2], [3, 4, 5]], ⟨[9], 0⟩)
    r.2.2.calls = 26 ∧
      StreamsAs id zeroMAC (List.replicate 16 0) [] [1, 2, 3, 4, 5] (fun out => r.2.2.written = [9] ++ out) r.1
        (encrypt keptBlocks none (List.replicate 16 0) (some (List.replicate 16 0)) [1, 2, 3, 4, 5] ()).1 :=
  ⟨by decide +kernel, (streaming_agrees keptBlocks id zeroMAC (fun _ _ => rfl) (List.replicate 16 0)
    (List.replicate 16 0) []).2.1 [[1, 2], [3, 4, 5]] (fun _ => 1) ⟨[9], 0⟩ fun _ => Nat.one_pos⟩

end Hypermeow.Util
