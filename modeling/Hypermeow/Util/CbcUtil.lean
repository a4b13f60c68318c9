/-
AES-256-CBC with padding (`util/cbcutil/cbc.go`).

`Encrypt` pads the plaintext to whole blocks (the pad bytes hold the pad length, a full block when nothing is missing) and
encrypts the whole blocks and the last block in two calls of one chaining object. Without an initialisation vector it
draws one and puts it in front. `Decrypt` undoes the chaining and cuts off as many bytes as the last byte says.

Model: AES is a block cipher for each key; key sizes that `aes.NewCipher` refuses are errors, an initialisation vector of
the wrong size is the panic of `crypto/cipher`. The random source gives 16 bytes or fails.

Result: `decrypt_encrypt`, `Decrypt` on what `Encrypt` returned after the vector gives the plaintext.
-/
import Hypermeow.Lib.Cbc

namespace Hypermeow.Util

open Lib Go List Slice

inductive CbcError where
  | keySize (n : ℕ)
  | ciphertextSize (n : ℕ)
  | plaintextSize (n : ℕ)
  | lastBlockSize (n : ℕ)
  | padding (padLen length : ℕ)
  | random
deriving DecidableEq, Repr

abbrev IV := { bs : Bytes // bs.length = blockSize }

/-- the key sizes of `aes.NewCipher` -/
def aesKeySizes : List ℕ := [16, 24, 32]

variable {σ : Type} (aes : Bytes → BlockCipher)

def unpad (src : Bytes) : Go σ CbcError Bytes := do
  let last ← Slice.index src (src.length - 1)
  let padLen := last.toNat
  if padLen > src.length then Go.throw (.padding padLen src.length)
  else Slice.upTo src ((src.length : ℤ) - padLen)

def decrypt (key iv ciphertext : Bytes) : Go σ CbcError Bytes :=
  if key.length ∉ aesKeySizes then Go.throw (.keySize key.length)
  else if ciphertext.length = 0 ∨ ciphertext.length % blockSize ≠ 0 then Go.throw (.ciphertextSize ciphertext.length)
  else if iv.length ≠ blockSize then Go.crash
  else unpad (cbcDecrypt (aes key) (ciphertext.length / blockSize) iv ciphertext)

/-- `random` is what the random source gives when it is asked -/
def encrypt (random : Option IV) (key : Bytes) (iv : Option Bytes) (plaintext : Bytes) : Go σ CbcError Bytes := do
  let sizeOfLastBlock := plaintext.length % blockSize
  let paddingLen := blockSize - sizeOfLastBlock
  let plaintextStart ← Slice.upTo plaintext ((plaintext.length : ℤ) - sizeOfLastBlock)
  let rest ← Slice.since plaintext ((plaintext.length : ℤ) - sizeOfLastBlock)
  let lastBlock := rest ++ List.replicate paddingLen (UInt8.ofNat paddingLen)
  let crypt := fun iv : Bytes =>
    let n := plaintextStart.length / blockSize
    cbcEncrypt (aes key) n iv plaintextStart ++ cbcEncrypt (aes key) 1 (cbcChain (aes key) n iv plaintextStart) lastBlock
  if plaintextStart.length % blockSize ≠ 0 then Go.throw (.plaintextSize plaintextStart.length)
  else if lastBlock.length ≠ blockSize then Go.throw (.lastBlockSize lastBlock.length)
  else if key.length ∉ aesKeySizes then Go.throw (.keySize key.length)
  else match iv with
    | none => match random with
      | none => Go.throw .random
      | some iv => pure (iv.1 ++ crypt iv.1)
    | some iv => if iv.length ≠ blockSize then Go.crash else pure (crypt iv)

variable {τ : Type}

theorem decrypt_keeps {f : σ → τ} (key iv ciphertext : Bytes) :
    Go.Keeps f (decrypt aes key iv ciphertext : Go σ CbcError Bytes) :=
  .ite (.throw _) (.ite (.throw _) (.ite .crash
    (.bind (index_keeps _ _) fun _ => .ite (.throw _) (upTo_keeps _ _))))

theorem unpad_any {src data : Bytes} {s s' : σ} (h : (unpad src : Go σ CbcError Bytes) s = (.ok data, s'))
    (t : τ) : (unpad src : Go τ CbcError Bytes) t = (.ok data, t) := by
  rw [unpad] at h ⊢
  obtain ⟨last, s₁, hlast, hcut⟩ := bind_eq_ok.1 h
  rw [Slice.index] at hlast
  cases hb : src[src.length - 1]? with
  | none =>
    rw [hb] at hlast
    cases hlast
  | some b =>
    rw [hb] at hlast
    cases hlast
    have hindex : (Slice.index src (src.length - 1) : Go τ CbcError UInt8) t = (.ok last, t) := by
      rw [Slice.index, hb]
      rfl
    rw [bind_ok hindex]
    by_cases hpad : last.toNat > src.length
    · rw [if_pos hpad] at hcut
      cases hcut
    · rw [if_neg hpad, Slice.upTo] at hcut ⊢
      by_cases hle : 0 ≤ (src.length : ℤ) - last.toNat ∧ (src.length : ℤ) - last.toNat ≤ src.length
      · rw [if_pos hle] at hcut ⊢
        cases hcut
        rfl
      · rw [if_neg hle] at hcut
        cases hcut

variable {key : Bytes}

/-- what is decrypted does not depend on the receiver -/
theorem decrypt_any {iv ciphertext data : Bytes} {s s' : σ}
    (h : decrypt aes key iv ciphertext s = (.ok data, s')) (t : τ) :
    decrypt aes key iv ciphertext t = (.ok data, t) := by
  rw [decrypt] at h ⊢
  by_cases hk : key.length ∉ aesKeySizes
  · rw [if_pos hk] at h
    cases h
  by_cases hc : ciphertext.length = 0 ∨ ciphertext.length % blockSize ≠ 0
  · rw [if_neg hk, if_pos hc] at h
    cases h
  by_cases hiv : iv.length ≠ blockSize
  · rw [if_neg hk, if_neg hc, if_pos hiv] at h
    cases h
  rw [if_neg hk, if_neg hc, if_neg hiv] at h ⊢
  exact unpad_any h t

/-! ## Padding -/

/-- the plaintext with its padding -/
def padded (plaintext : Bytes) : Bytes :=
  let n := blockSize - plaintext.length % blockSize
  plaintext ++ List.replicate n (UInt8.ofNat n)

theorem length_padded (pt : Bytes) : (padded pt).length = (pt.length / blockSize + 1) * blockSize := by
  simp only [padded, length_append, length_replicate, blockSize]
  omega

theorem unpad_padded (pt : Bytes) (s : σ) : (unpad (padded pt) : Go σ CbcError Bytes) s = (.ok pt, s) := by
  set n := blockSize - pt.length % blockSize with hn
  have hn16 : 0 < n ∧ n < 256 := by simp only [hn, blockSize]; omega
  have hlen : (padded pt).length = pt.length + n := by simp [padded, hn]
  have hlast : (padded pt)[(padded pt).length - 1]? = some (UInt8.ofNat n) := by
    rw [hlen, padded, getElem?_append_right (by omega), getElem?_replicate, if_pos (by omega)]
  have hpad : (UInt8.ofNat n).toNat = n := by rw [UInt8.toNat_ofNat', Nat.mod_eq_of_lt hn16.2]
  have hcut : ((padded pt).length : ℤ) - (n : ℕ) = (pt.length : ℕ) := by rw [hlen]; push_cast; ring
  have hidx : (Slice.index (padded pt) ((padded pt).length - 1) : Go σ CbcError UInt8) s =
      (.ok (UInt8.ofNat n), s) := by
    simp only [Slice.index, hlast, pure_run]
  rw [unpad, bind_ok hidx, hpad, if_neg (by omega), hcut, upTo_run (by omega)]
  simp [padded]

/-! ## Encryption and decryption -/

/-- the ciphertext blocks for an initialisation vector -/
def cipherBlocks (key : Bytes) (iv : IV) (plaintext : Bytes) : Bytes :=
  cbcEncrypt (aes key) (plaintext.length / blockSize + 1) iv.1 (padded plaintext)

/-- `Encrypt` encrypts the padded plaintext; the two sizes it checks are always right -/
theorem encrypt_eq (random : Option IV) (key : Bytes) (iv : Option Bytes) (pt : Bytes) (s : σ) :
    encrypt aes random key iv pt s =
      if key.length ∉ aesKeySizes then (.err (.keySize key.length), s)
      else match iv with
        | none => match random with
          | none => (.err .random, s)
          | some iv => (.ok (iv.1 ++ cipherBlocks aes key iv pt), s)
        | some iv =>
          if h : iv.length = blockSize then (.ok (cipherBlocks aes key ⟨iv, h⟩ pt), s) else (.panic, s) := by
  have hmod := Nat.mod_lt pt.length (show 0 < blockSize by decide)
  have hdiv := Nat.div_add_mod pt.length blockSize
  have hle : pt.length - pt.length % blockSize ≤ pt.length := Nat.sub_le _ _
  have hcast : (pt.length : ℤ) - (pt.length % blockSize : ℕ) = ((pt.length - pt.length % blockSize : ℕ) : ℤ) := by
    omega
  set m := pt.length - pt.length % blockSize with hm
  have hstart : (pt.take m).length = pt.length / blockSize * blockSize := by
    rw [length_take, min_eq_left hle, hm, Nat.mul_comm]; omega
  have hblocks : (pt.take m).length / blockSize = pt.length / blockSize := by
    rw [hstart, Nat.mul_div_cancel _ (by decide)]
  have hjoin : pt.take m ++ (pt.drop m ++ List.replicate (blockSize - pt.length % blockSize)
      (UInt8.ofNat (blockSize - pt.length % blockSize))) = padded pt := by
    rw [← append_assoc, take_append_drop, padded]
  have hlast : (pt.drop m ++ List.replicate (blockSize - pt.length % blockSize)
      (UInt8.ofNat (blockSize - pt.length % blockSize))).length = blockSize := by
    rw [length_append, length_drop, length_replicate]; omega
  rw [encrypt]
  simp only [hcast]
  rw [bind_ok (upTo_run hle s), bind_ok (since_run hle s)]
  simp only [hblocks]
  rw [if_neg (by rw [hstart]; simp), if_neg (by rw [hlast]; simp)]
  by_cases hkey : key.length ∉ aesKeySizes
  · rw [if_pos hkey, if_pos hkey]
    rfl
  · rw [if_neg hkey, if_neg hkey]
    cases iv with
    | none =>
      cases random with
      | none => rfl
      | some iv =>
        simp only [cbcEncrypt_append hstart, hjoin]
        rfl
    | some iv =>
      simp only [cbcEncrypt_append hstart, hjoin]
      by_cases hiv : iv.length = blockSize
      · rw [if_neg (not_not.2 hiv), dif_pos hiv]
        rfl
      · rw [if_pos hiv, dif_neg hiv]
        rfl

/-- `Encrypt` with a vector of its own puts it in front of the encryption of the padded plaintext -/
theorem encrypt_cases (hk : key.length ∈ aesKeySizes) (iv : IV) (pt : Bytes) (s : σ) :
    encrypt aes (some iv) key none pt s = (.ok (iv.1 ++ cipherBlocks aes key iv pt), s) ∧
      ∀ random, encrypt aes random key (some iv.1) pt s = (.ok (cipherBlocks aes key iv pt), s) := by
  refine ⟨?_, fun random => ?_⟩
  · rw [encrypt_eq, if_neg (not_not.2 hk)]
  · rw [encrypt_eq, if_neg (not_not.2 hk)]
    exact dif_pos iv.2

theorem encrypt_run (hk : key.length ∈ aesKeySizes) (iv : IV) (pt : Bytes) (s : σ) :
    encrypt aes (some iv) key none pt s = (.ok (iv.1 ++ cipherBlocks aes key iv pt), s) :=
  (encrypt_cases aes hk iv pt s).1

/-- what `Encrypt` returns with a vector of its own: the vector it drew, then the blocks -/
theorem encrypt_ok {random : Option IV} {pt r : Bytes} {s t : σ} (h : encrypt aes random key none pt s = (.ok r, t)) :
    ∃ iv, random = some iv ∧ r = iv.1 ++ cipherBlocks aes key iv pt ∧ t = s := by
  rw [encrypt_eq] at h
  by_cases hkey : key.length ∉ aesKeySizes
  · rw [if_pos hkey] at h
    cases h
  · rw [if_neg hkey] at h
    cases random with
    | none => cases h
    | some iv =>
      cases h
      exact ⟨iv, rfl, rfl, rfl⟩

theorem length_cipherBlocks (key : Bytes) (iv : IV) (pt : Bytes) :
    (cipherBlocks aes key iv pt).length = (pt.length / blockSize + 1) * blockSize :=
  length_cbcEncrypt iv.2 (length_padded pt)

/-- **Decryption undoes encryption.** `Decrypt` with the vector that `Encrypt` drew gives the plaintext. -/
theorem decrypt_encrypt (hk : key.length ∈ aesKeySizes) (iv : IV) (pt : Bytes) (s : σ) :
    decrypt aes key iv.1 (cipherBlocks aes key iv pt) s = (.ok pt, s) := by
  have hlen := length_cipherBlocks aes key iv pt
  have hdiv : (cipherBlocks aes key iv pt).length / blockSize = pt.length / blockSize + 1 := by
    rw [hlen, Nat.mul_div_cancel _ (by decide)]
  rw [decrypt, if_neg (by simpa using hk), if_neg (by rw [hlen]; simp [blockSize]), if_neg (by simpa using iv.2), hdiv,
    cipherBlocks, cbcDecrypt_cbcEncrypt iv.2 (length_padded pt), unpad_padded]

end Hypermeow.Util
