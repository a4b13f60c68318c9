/-
AES-256-CBC over files and streams (`DecryptFile` and `EncryptStream` of `util/cbcutil/cbc.go`).

`DecryptFile` decrypts a file in place: it reads 32 KiB at the offset, decrypts them with one chaining object, writes them
back where they were and at the end cuts off as many bytes as the last byte says. `EncryptStream` reads 32 KiB of plaintext
at a time, pads what it read last, and writes the ciphertext and ten bytes of MAC; it hashes both sides on the way.

Model: files do not fail; a source and a sink are `Streams`. A hasher is the bytes that were written to it. The number of
rounds of a loop is bounded by the bytes there are to read; the results say that it is never reached.

Results:
- `encryptStream_run`: for every pair of source and sink, `EncryptStream` writes the ciphertext that `Encrypt` gives for
  the vector, followed by its MAC, and returns the hashes and sizes of both sides.
-/
import Hypermeow.Lib.File
import Hypermeow.Util.CbcUtil

namespace Hypermeow.Util

open Lib Go List Slice

inductive StreamError where
  | keySize (n : ℕ)
  | fileSize (n : ℕ)
  /-- the file ended before the buffer was full -/
  | read
  | padding (padLen length : ℕ)
  | write
deriving DecidableEq, Repr

def bufSize : ℕ := 32 * 1024

theorem bufSize_blocks : bufSize = 2048 * blockSize := by norm_num [bufSize, blockSize]

variable {σ : Type} (aes : Bytes → BlockCipher)

/-! ## DecryptFile -/

/-- the loop; it returns the last byte of the plaintext -/
def decryptFileLoop (C : BlockCipher) (fileSize : ℕ) : ℕ → Bytes → ℕ → UInt8 → Go File StreamError UInt8
  | 0, _, _, lastByte => pure lastByte
  | fuel + 1, iv, writePtr, lastByte =>
    if writePtr < fileSize then do
      let bufLen := min bufSize fileSize
      let n := if writePtr + bufLen > fileSize then fileSize - writePtr else bufLen
      let f ← Go.get
      let buf := (f.readFull n).1
      Go.modify fun f => (f.readFull n).2
      if buf.length ≠ n then Go.throw .read
      else if n % blockSize ≠ 0 then Go.crash
      else do
        let plain := cbcDecrypt C (n / blockSize) iv buf
        Go.modify fun f => f.writeAt plain writePtr
        let last ← Slice.index plain (plain.length - 1)
        decryptFileLoop C fileSize fuel (cbcLast (n / blockSize) iv buf) (writePtr + n) last
    else pure lastByte

def decryptFile (key iv : Bytes) : Go File StreamError Unit :=
  if key.length ∉ aesKeySizes then Go.throw (.keySize key.length)
  else if iv.length ≠ blockSize then Go.crash
  else do
    let f ← Go.get
    let fileSize := f.content.length
    if fileSize % blockSize ≠ 0 then Go.throw (.fileSize fileSize)
    else do
      let lastByte ← decryptFileLoop (aes key) fileSize fileSize iv 0 0
      if lastByte.toNat > fileSize then Go.throw (.padding lastByte.toNat fileSize)
      else Go.modify fun f => f.truncate (fileSize - lastByte.toNat)

/-- a buffer is the whole rest or 32 KiB of it -/
theorem chunk_cases {d t : ℕ} (ht : 0 < t) :
    (if d + min bufSize (d + t) > d + t then d + t - d else min bufSize (d + t)) = t ∨
      (if d + min bufSize (d + t) > d + t then d + t - d else min bufSize (d + t)) = bufSize ∧ bufSize ≤ t := by
  split_ifs <;> omega

variable {aes} {C : BlockCipher} {iv : Bytes}

/-- one round on the part of the file that is still encrypted -/
theorem decryptFileLoop_round (hiv : iv.length = blockSize) {done todo : Bytes} {k n : ℕ} (fuel : ℕ) (lastByte : UInt8)
    (ht : todo ≠ [])
    (hn : (if done.length + min bufSize (done.length + todo.length) > done.length + todo.length then
      done.length + todo.length - done.length else min bufSize (done.length + todo.length)) = n)
    (hk : n = (k + 1) * blockSize) (hle : n ≤ todo.length) :
    ∃ last, (cbcDecrypt C (k + 1) iv (todo.take n)).getLast? = some last ∧
      decryptFileLoop C (done.length + todo.length) (fuel + 1) iv done.length lastByte ⟨done ++ todo, done.length⟩ =
        decryptFileLoop C (done.length + todo.length) fuel (cbcLast (k + 1) iv (todo.take n)) (done.length + n) last
          ⟨(done ++ cbcDecrypt C (k + 1) iv (todo.take n)) ++ todo.drop n, done.length + n⟩ := by
  have hpos : 0 < todo.length := length_pos_iff.2 ht
  have htake : (todo.take n).length = n := by rw [length_take, min_eq_left hle]
  have hdiv : n / blockSize = k + 1 := by rw [hk, Nat.mul_div_cancel _ (by decide)]
  have hread : (File.mk (done ++ todo) done.length).readFull n =
      (todo.take n, ⟨done ++ todo, done.length + n⟩) := by
    simp [File.readFull, hle]
  have hlen : (cbcDecrypt C (k + 1) iv (todo.take n)).length = n := by
    rw [length_cbcDecrypt hiv (htake.trans hk), hk]
  have hwrite : (File.mk (done ++ todo) (done.length + n)).writeAt (cbcDecrypt C (k + 1) iv (todo.take n)) done.length =
      ⟨(done ++ cbcDecrypt C (k + 1) iv (todo.take n)) ++ todo.drop n, done.length + n⟩ := by
    rw [File.writeAt, overwrite_append, hlen, append_assoc]
  have hnpos : 0 < n := by rw [hk]; simp [blockSize]
  have hlast : (cbcDecrypt C (k + 1) iv (todo.take n)).length - 1 < (cbcDecrypt C (k + 1) iv (todo.take n)).length := by
    omega
  refine ⟨(cbcDecrypt C (k + 1) iv (todo.take n))[(cbcDecrypt C (k + 1) iv (todo.take n)).length - 1], ?_, ?_⟩
  · rw [getLast?_eq_getElem?, getElem?_eq_getElem hlast]
  · rw [decryptFileLoop, if_pos (by omega)]
    simp only [hn]
    rw [get_bind]
    simp only [hread]
    rw [modify_bind, if_neg (by rw [htake]; simp), if_neg (by rw [hk]; simp)]
    simp only [hdiv, hread]
    rw [modify_bind, hwrite, bind_ok (index_run hlast _)]

theorem decryptFileLoop_run {m fuel : ℕ} (done : Bytes) {todo : Bytes} (hiv : iv.length = blockSize)
    (htodo : todo.length = m * blockSize) (hfuel : todo.length ≤ fuel) (lastByte : UInt8) :
    decryptFileLoop C (done.length + todo.length) fuel iv done.length lastByte ⟨done ++ todo, done.length⟩ =
      (.ok ((cbcDecrypt C m iv todo).getLast?.getD lastByte),
        ⟨done ++ cbcDecrypt C m iv todo, done.length + todo.length⟩) := by
  induction fuel generalizing iv done todo m lastByte with
  | zero =>
    have hnil : todo = [] := eq_nil_of_length_eq_zero (Nat.le_zero.1 hfuel)
    have hm : m = 0 := by simpa [hnil, blockSize] using htodo.symm
    simp [decryptFileLoop, hnil, hm, cbcDecrypt]
  | succ fuel ih =>
    by_cases hnil : todo = []
    · have hm : m = 0 := by simpa [hnil, blockSize] using htodo.symm
      simp [decryptFileLoop, hnil, hm, cbcDecrypt]
    · have hpos : 0 < todo.length := length_pos_iff.2 hnil
      -- the buffer holds k + 1 blocks and k' follow
      obtain ⟨n, k, k', hn, hk, hle, hm⟩ : ∃ n k k',
          (if done.length + min bufSize (done.length + todo.length) > done.length + todo.length then
            done.length + todo.length - done.length else min bufSize (done.length + todo.length)) = n ∧
          n = (k + 1) * blockSize ∧ n ≤ todo.length ∧ m = (k + 1) + k' := by
        rcases chunk_cases (d := done.length) hpos with h | ⟨h, hbuf⟩
        · refine ⟨_, m - 1, 0, h, ?_, le_refl _, ?_⟩ <;> simp only [blockSize] at htodo ⊢ <;> omega
        · refine ⟨_, 2047, m - 2048, h, bufSize_blocks, hbuf, ?_⟩
          simp only [bufSize, blockSize] at htodo hbuf
          omega
      obtain ⟨last, hlast, hround⟩ := decryptFileLoop_round (C := C) hiv fuel lastByte hnil hn hk hle
      have htake : (todo.take n).length = (k + 1) * blockSize := by rw [length_take, min_eq_left hle, hk]
      have hdrop : (todo.drop n).length = k' * blockSize := by
        rw [length_drop, htodo, hm, hk, Nat.add_mul, Nat.add_sub_cancel_left]
      have hdec : cbcDecrypt C (k + 1) iv (todo.take n) ++
          cbcDecrypt C k' (cbcLast (k + 1) iv (todo.take n)) (todo.drop n) = cbcDecrypt C m iv todo := by
        rw [cbcDecrypt_append htake, take_append_drop, hm]
      have hdone : done.length + n = (done ++ cbcDecrypt C (k + 1) iv (todo.take n)).length := by
        rw [length_append, length_cbcDecrypt hiv htake, hk]
      have hsize : done.length + todo.length =
          (done ++ cbcDecrypt C (k + 1) iv (todo.take n)).length + (todo.drop n).length := by
        rw [← hdone, length_drop]
        omega
      have hfuel' : (todo.drop n).length ≤ fuel := by
        have : 0 < n := by rw [hk]; simp [blockSize]
        rw [length_drop]
        omega
      rw [hround, hdone, hsize, ih _ (length_cbcLast hiv htake) hdrop hfuel' last, append_assoc, hdec]
      congr 2
      rw [← hdec, getLast?_append, hlast]
      cases (cbcDecrypt C k' (cbcLast (k + 1) iv (todo.take n)) (todo.drop n)).getLast? <;> rfl

/-- **Decrypting a file is decrypting its content.** Either both fail, or the file holds what `Decrypt` returns. -/
theorem decryptFile_cases (aes : Bytes → BlockCipher) {key content : Bytes} (hk : key.length ∈ aesKeySizes)
    (hiv : iv.length = blockSize) (hne : content ≠ []) (s : σ) :
    (∃ e e' f', decryptFile aes key iv ⟨content, 0⟩ = (.err e, f') ∧ decrypt aes key iv content s = (.err e', s)) ∨
      ∃ pt f', decryptFile aes key iv ⟨content, 0⟩ = (.ok (), f') ∧ f'.content = pt ∧
        decrypt aes key iv content s = (.ok pt, s) := by
  have hpos : 0 < content.length := length_pos_iff.2 hne
  rw [decryptFile, decrypt, if_neg (by simpa using hk), if_neg (by simpa using hiv), if_neg (by simpa using hk),
    get_bind]
  simp only
  by_cases hsize : content.length % blockSize = 0
  · have hblocks : content.length = content.length / blockSize * blockSize :=
      (Nat.div_mul_cancel (Nat.dvd_of_mod_eq_zero hsize)).symm
    have hlen := length_cbcDecrypt (C := aes key) hiv hblocks
    rw [← hblocks] at hlen
    have hloop := decryptFileLoop_run (C := aes key) [] hiv hblocks (le_refl _) 0
    simp only [length_nil, Nat.zero_add, nil_append] at hloop
    rw [if_neg (by simpa using hsize), if_neg (by simp [hsize]; omega), if_neg (by simpa using hiv),
      bind_ok hloop, unpad]
    generalize cbcDecrypt (aes key) (content.length / blockSize) iv content = plain at hlen ⊢
    have hlast : plain.length - 1 < plain.length := by omega
    have hgetLast : plain.getLast?.getD 0 = plain[plain.length - 1] := by
      rw [getLast?_eq_getElem?, getElem?_eq_getElem hlast, Option.getD_some]
    rw [bind_ok (index_run hlast s), hgetLast]
    generalize plain[plain.length - 1] = last
    rw [hlen]
    by_cases hpad : last.toNat > content.length
    · left
      rw [if_pos hpad, if_pos hpad]
      exact ⟨_, _, _, rfl, rfl⟩
    · right
      have hcut : (content.length : ℤ) - (last.toNat : ℕ) = ((content.length - last.toNat : ℕ) : ℤ) := by omega
      rw [if_neg hpad, if_neg hpad, hcut, upTo_run (by omega)]
      refine ⟨_, _, rfl, ?_, rfl⟩
      have hle : content.length - last.toNat ≤ plain.length := by omega
      exact congrArg File.content (File.truncate_le ⟨plain, content.length⟩ hle)
  · left
    rw [if_pos hsize, if_pos (.inr hsize)]
    exact ⟨_, _, _, rfl, rfl⟩

/-! ## EncryptStream -/

/-- what the loop keeps: the bytes both hashers were given, the sizes and the chaining value -/
structure Progress where
  plain : Bytes
  cipher : Bytes
  size : ℕ
  extraSize : ℕ
  writePtr : ℕ
  iv : Bytes

def putBuffer (S : Streams σ) (buf : Bytes) (pos : ℕ) : Go σ StreamError Unit := fun s =>
  match S.put buf pos s with
  | some s' => (.ok (), s')
  | none => (.err .write, s)

def encryptStreamLoop (C : BlockCipher) (S : Streams σ) : ℕ → Progress → Go σ StreamError Progress
  | 0, _ => Go.crash
  | fuel + 1, p => do
    let s ← Go.get
    let bs := (S.readFull bufSize s).1
    Go.modify fun s => (S.readFull bufSize s).2
    let size := p.size + bs.length
    let hasMore := decide (bs.length = bufSize)
    let padding := blockSize - size % blockSize
    let buf := if hasMore then bs else bs ++ List.replicate padding (UInt8.ofNat padding)
    if buf.length % blockSize ≠ 0 then Go.crash
    else do
      let enc := cbcEncrypt C (buf.length / blockSize) p.iv buf
      putBuffer S enc p.writePtr
      let next : Progress :=
        { plain := p.plain ++ bs, cipher := p.cipher ++ enc, size := size,
          extraSize := if hasMore then p.extraSize else padding, writePtr := p.writePtr + enc.length,
          iv := cbcChain C (buf.length / blockSize) p.iv buf }
      if hasMore then encryptStreamLoop C S fuel next else pure next

/-- the hashes of both sides and their sizes -/
structure Encrypted where
  plainSHA256 : Bytes
  cipherSHA256 : Bytes
  size : ℕ
  cipherSize : ℕ
deriving DecidableEq, Repr

def encryptStream (aes : Bytes → BlockCipher) (sha256 : Bytes → Bytes) (hmac : Bytes → Bytes → Bytes) (S : Streams σ)
    (key iv macKey : Bytes) : Go σ StreamError Encrypted :=
  if key.length ∉ aesKeySizes then Go.throw (.keySize key.length)
  else if iv.length ≠ blockSize then Go.crash
  else do
    let s ← Go.get
    let p ← encryptStreamLoop (aes key) S (S.remaining s + 1) ⟨[], [], 0, 0, 0, iv⟩
    let mac := (hmac macKey (iv ++ p.cipher)).take 10
    putBuffer S mac p.writePtr
    pure ⟨sha256 p.plain, sha256 (p.cipher ++ mac), p.size, p.size + (p.extraSize + 10)⟩

theorem putBuffer_run {S : Streams σ} {buf : Bytes} {pos : ℕ} {s s' : σ} (h : S.put buf pos s = some s') :
    putBuffer S buf pos s = (.ok (), s') := by
  rw [putBuffer, h]

/-- whole blocks in front do not change the padding -/
theorem padded_append {a : Bytes} (b : Bytes) (ha : a.length % blockSize = 0) : padded (a ++ b) = a ++ padded b := by
  have hmod : (a ++ b).length % blockSize = b.length % blockSize := by
    rw [length_append, Nat.add_mod, ha, Nat.zero_add, Nat.mod_mod]
  simp only [padded, hmod, append_assoc]

section Loop

variable {S : Streams σ} {Open : σ → Bytes → Bytes → Prop} {Closed : σ → Bytes → Prop}

variable {p : Progress} {rest : Bytes}

/-- what was read last, with its padding -/
theorem encryptStreamLoop_last (hS : S.Law Open Closed) {s : σ}
    (hopen : Open s rest p.cipher) (hiv : p.iv.length = blockSize) (hptr : p.writePtr = p.cipher.length)
    (hsize : p.size % blockSize = 0) (hlt : rest.length < bufSize) (fuel : ℕ) :
    ∃ s' iv', encryptStreamLoop C S (fuel + 1) p s =
        (.ok ⟨p.plain ++ rest, p.cipher ++ cbcEncrypt C (rest.length / blockSize + 1) p.iv (padded rest),
          p.size + rest.length, blockSize - rest.length % blockSize,
          p.writePtr + (rest.length / blockSize + 1) * blockSize, iv'⟩, s') ∧
      Closed s' (p.cipher ++ cbcEncrypt C (rest.length / blockSize + 1) p.iv (padded rest)) := by
  have hread : (S.readFull bufSize s).1 = rest := by rw [hS.read hopen, take_of_length_le hlt.le]
  have hmore : decide (rest.length = bufSize) = false := decide_eq_false hlt.ne
  have hmod : (p.size + rest.length) % blockSize = rest.length % blockSize := by
    rw [Nat.add_mod, hsize, Nat.zero_add, Nat.mod_mod]
  have hpad : rest ++ List.replicate (blockSize - rest.length % blockSize)
      (UInt8.ofNat (blockSize - rest.length % blockSize)) = padded rest := rfl
  have hlen := length_padded rest
  have hdiv : (padded rest).length / blockSize = rest.length / blockSize + 1 := by
    rw [hlen, Nat.mul_div_cancel _ (by decide)]
  have henc : (cbcEncrypt C (rest.length / blockSize + 1) p.iv (padded rest)).length =
      (rest.length / blockSize + 1) * blockSize := length_cbcEncrypt hiv hlen
  have hle : rest.length ≤ (cbcEncrypt C (rest.length / blockSize + 1) p.iv (padded rest)).length := by
    rw [henc]
    simp only [blockSize]
    omega
  obtain ⟨s', hput, hclosed⟩ := hS.last hopen hlt hle
  refine ⟨s', cbcChain C (rest.length / blockSize + 1) p.iv (padded rest), ?_, hclosed⟩
  rw [encryptStreamLoop, get_bind]
  simp only [hread, hmore, hmod, hpad, Bool.false_eq_true, if_false]
  rw [modify_bind, if_neg (by rw [hlen]; simp), hdiv, hptr, bind_ok (putBuffer_run hput), henc]
  rfl

/-- a buffer of `k` blocks that was read in full -/
theorem encryptStreamLoop_full (hS : S.Law Open Closed) {s : σ} {k : ℕ}
    (hk : bufSize = k * blockSize) (hopen : Open s rest p.cipher) (hiv : p.iv.length = blockSize)
    (hptr : p.writePtr = p.cipher.length) (hle : bufSize ≤ rest.length) (fuel : ℕ) :
    ∃ s', encryptStreamLoop C S (fuel + 1) p s = encryptStreamLoop C S fuel
        ⟨p.plain ++ rest.take bufSize, p.cipher ++ cbcEncrypt C k p.iv (rest.take bufSize), p.size + bufSize,
          p.extraSize, p.writePtr + bufSize, cbcChain C k p.iv (rest.take bufSize)⟩ s' ∧
      Open s' (rest.drop bufSize) (p.cipher ++ cbcEncrypt C k p.iv (rest.take bufSize)) := by
  have hread : (S.readFull bufSize s).1 = rest.take bufSize := hS.read hopen _
  have hlen : (rest.take bufSize).length = bufSize := by rw [length_take, min_eq_left hle]
  have hdiv : bufSize / blockSize = k := by rw [hk, Nat.mul_div_cancel _ (by decide)]
  have hmod : bufSize % blockSize = 0 := by rw [hk, Nat.mul_mod_left]
  have henc : (cbcEncrypt C k p.iv (rest.take bufSize)).length = bufSize :=
    (length_cbcEncrypt hiv (hlen.trans hk)).trans hk.symm
  obtain ⟨s', hput, hopen'⟩ := hS.full hopen henc hle
  refine ⟨s', ?_, hopen'⟩
  rw [encryptStreamLoop, get_bind]
  simp only [hread, hlen, decide_true, if_true]
  rw [modify_bind, if_neg (by rw [hmod]; simp), hdiv, hptr, bind_ok (putBuffer_run hput), henc]

theorem encryptStreamLoop_run (hS : S.Law Open Closed) {s : σ} {fuel : ℕ}
    (hopen : Open s rest p.cipher) (hiv : p.iv.length = blockSize) (hptr : p.writePtr = p.cipher.length)
    (hsize : p.size % blockSize = 0) (hfuel : rest.length < fuel) :
    ∃ s' iv' ptr, encryptStreamLoop C S fuel p s =
        (.ok ⟨p.plain ++ rest, p.cipher ++ cbcEncrypt C (rest.length / blockSize + 1) p.iv (padded rest),
          p.size + rest.length, blockSize - rest.length % blockSize, ptr, iv'⟩, s') ∧
      ptr = (p.cipher ++ cbcEncrypt C (rest.length / blockSize + 1) p.iv (padded rest)).length ∧
      Closed s' (p.cipher ++ cbcEncrypt C (rest.length / blockSize + 1) p.iv (padded rest)) := by
  induction fuel generalizing p rest s with
  | zero => omega
  | succ fuel ih =>
    by_cases hlt : rest.length < bufSize
    · obtain ⟨s', iv', hrun, hclosed⟩ := encryptStreamLoop_last (C := C) hS hopen hiv hptr hsize hlt fuel
      refine ⟨s', iv', _, hrun, ?_, hclosed⟩
      rw [length_append, length_cbcEncrypt hiv (length_padded rest), hptr]
    · have hle : bufSize ≤ rest.length := not_lt.1 hlt
      obtain ⟨k, hk⟩ : ∃ k, bufSize = k * blockSize := ⟨2048, bufSize_blocks⟩
      have hpos : 0 < bufSize := by simp [bufSize]
      have hlen : (rest.take bufSize).length = k * blockSize := by rw [length_take, min_eq_left hle, hk]
      have hrest : rest.length = (rest.drop bufSize).length + k * blockSize := by
        rw [length_drop, ← hk, Nat.sub_add_cancel hle]
      obtain ⟨s₁, hround, hopen'⟩ := encryptStreamLoop_full (C := C) hS hk hopen hiv hptr hle fuel
      have hptr' : p.writePtr + bufSize = (p.cipher ++ cbcEncrypt C k p.iv (rest.take bufSize)).length := by
        rw [length_append, length_cbcEncrypt hiv hlen, hptr, ← hk]
      have hsize' : (p.size + bufSize) % blockSize = 0 := by rw [hk, Nat.add_mul_mod_self_right, hsize]
      obtain ⟨s', iv', ptr, hrun, hptr₂, hclosed⟩ := ih (p := ⟨p.plain ++ rest.take bufSize,
        p.cipher ++ cbcEncrypt C k p.iv (rest.take bufSize), p.size + bufSize, p.extraSize, p.writePtr + bufSize,
        cbcChain C k p.iv (rest.take bufSize)⟩) hopen' (length_cbcChain hiv hlen) hptr' hsize' (by omega)
      -- the padding is the one of the whole rest, and the chaining goes on
      have hdiv : rest.length / blockSize + 1 = k + ((rest.drop bufSize).length / blockSize + 1) := by
        rw [hrest, Nat.add_mul_div_right _ _ (by decide)]
        ring
      have hmod : (rest.drop bufSize).length % blockSize = rest.length % blockSize := by
        rw [hrest, Nat.add_mul_mod_self_right]
      have hpadded : padded rest = rest.take bufSize ++ padded (rest.drop bufSize) := by
        rw [← padded_append _ (by rw [hlen, Nat.mul_mod_left]), take_append_drop]
      have henc : p.cipher ++ cbcEncrypt C (rest.length / blockSize + 1) p.iv (padded rest) =
          (p.cipher ++ cbcEncrypt C k p.iv (rest.take bufSize)) ++
            cbcEncrypt C ((rest.drop bufSize).length / blockSize + 1) (cbcChain C k p.iv (rest.take bufSize))
              (padded (rest.drop bufSize)) := by
        rw [append_assoc, cbcEncrypt_append hlen, ← hpadded, hdiv]
      have hplain : (p.plain ++ rest.take bufSize) ++ rest.drop bufSize = p.plain ++ rest := by
        rw [append_assoc, take_append_drop]
      have hread : p.size + bufSize + (rest.drop bufSize).length = p.size + rest.length := by
        rw [hrest, hk]
        ring
      rw [henc]
      refine ⟨s', iv', ptr, ?_, hptr₂, hclosed⟩
      rw [hround, hrun, hplain, hread, hmod]

end Loop

variable {key : Bytes}

/-- **The stream is the ciphertext and its MAC.** From a source with the plaintext and an empty sink, whatever they are. -/
theorem encryptStream_run (aes : Bytes → BlockCipher) {S : Streams σ} {Open : σ → Bytes → Bytes → Prop}
    {Closed : σ → Bytes → Prop} (hS : S.Law Open Closed) (hk : key.length ∈ aesKeySizes) (iv : IV) (sha256 : Bytes → Bytes)
    (hmac : Bytes → Bytes → Bytes) (macKey : Bytes) {plaintext : Bytes} {s : σ} (hopen : Open s plaintext []) :
    ∃ s', encryptStream aes sha256 hmac S key iv.1 macKey s =
        (.ok ⟨sha256 plaintext, sha256 (cipherBlocks aes key iv plaintext ++
            (hmac macKey (iv.1 ++ cipherBlocks aes key iv plaintext)).take 10), plaintext.length,
          plaintext.length + (blockSize - plaintext.length % blockSize + 10)⟩, s') ∧
      Closed s' (cipherBlocks aes key iv plaintext ++
        (hmac macKey (iv.1 ++ cipherBlocks aes key iv plaintext)).take 10) := by
  have hfuel : plaintext.length < S.remaining s + 1 := by rw [hS.remaining hopen]; exact Nat.lt_succ_self _
  obtain ⟨s₁, iv', ptr, hrun, hptr, hclosed⟩ := encryptStreamLoop_run (C := aes key) hS (p := ⟨[], [], 0, 0, 0, iv.1⟩)
    hopen iv.2 rfl rfl hfuel
  have hct : cbcEncrypt (aes key) (plaintext.length / blockSize + 1) iv.1 (padded plaintext) =
      cipherBlocks aes key iv plaintext := rfl
  simp only [nil_append, Nat.zero_add, hct] at hrun hptr hclosed
  obtain ⟨s₂, hput, hclosed'⟩ := hS.append hclosed ((hmac macKey (iv.1 ++ cipherBlocks aes key iv plaintext)).take 10)
  refine ⟨s₂, ?_, hclosed'⟩
  rw [encryptStream, if_neg (by simpa using hk), if_neg (by simpa using iv.2), get_bind,
    bind_ok hrun]
  simp only [hptr]
  rw [bind_ok (putBuffer_run hput)]
  rfl

end Hypermeow.Util
