/-
Cipher block chaining over an arbitrary block cipher.

`cbcEncrypt` and `cbcDecrypt` work through whole 16-byte blocks from an initialisation vector. A chaining object keeps the
last ciphertext block between calls, so encrypting or decrypting in two calls is doing it once (`cbcEncrypt_append`,
`cbcDecrypt_append`). Decryption undoes encryption (`cbcDecrypt_cbcEncrypt`).
-/
import Hypermeow.Lib.Slice

namespace Hypermeow.Lib

open List

def blockSize : ℕ := 16

/-- a block cipher with its key -/
structure BlockCipher where
  encrypt : Bytes → Bytes
  decrypt : Bytes → Bytes
  length_encrypt : ∀ b, b.length = blockSize → (encrypt b).length = blockSize
  decrypt_encrypt : ∀ b, b.length = blockSize → decrypt (encrypt b) = b

def xorBytes (a b : Bytes) : Bytes := List.zipWith (· ^^^ ·) a b

variable {b : Bytes}

theorem length_xorBytes {a : Bytes} (h : a.length = b.length) : (xorBytes a b).length = a.length := by
  simp [xorBytes, h]

theorem xorBytes_xorBytes {a : Bytes} (h : a.length = b.length) : xorBytes (xorBytes a b) b = a := by
  induction a generalizing b with
  | nil => simp [xorBytes]
  | cons x a ih =>
    cases b with
    | nil => simp at h
    | cons y b =>
      have hxy : x ^^^ y ^^^ y = x := by rw [UInt8.xor_assoc, UInt8.xor_self, UInt8.xor_zero]
      simp only [xorBytes, zipWith_cons_cons, hxy]
      exact congrArg (x :: ·) (ih (by simpa using h))

variable (C : BlockCipher)

/-- encrypt the first `n` blocks of the data -/
def cbcEncrypt : ℕ → Bytes → Bytes → Bytes
  | 0, _, _ => []
  | n + 1, iv, data =>
    let c := C.encrypt (xorBytes (data.take blockSize) iv)
    c ++ cbcEncrypt n c (data.drop blockSize)

/-- the chaining value after `n` blocks -/
def cbcChain : ℕ → Bytes → Bytes → Bytes
  | 0, iv, _ => iv
  | n + 1, iv, data => cbcChain n (C.encrypt (xorBytes (data.take blockSize) iv)) (data.drop blockSize)

def cbcDecrypt : ℕ → Bytes → Bytes → Bytes
  | 0, _, _ => []
  | n + 1, iv, data =>
    xorBytes (C.decrypt (data.take blockSize)) iv ++ cbcDecrypt n (data.take blockSize) (data.drop blockSize)

/-- the chaining value of a decryption after `n` blocks -/
def cbcLast : ℕ → Bytes → Bytes → Bytes
  | 0, iv, _ => iv
  | n + 1, _, data => cbcLast n (data.take blockSize) (data.drop blockSize)

variable {C} {n : ℕ} {iv data : Bytes}

theorem length_take_block (hd : data.length = (n + 1) * blockSize) : (data.take blockSize).length = blockSize := by
  rw [length_take, hd]
  simp [blockSize]

theorem length_drop_block (hd : data.length = (n + 1) * blockSize) : (data.drop blockSize).length = n * blockSize := by
  rw [length_drop, hd, Nat.add_mul, Nat.one_mul, Nat.add_sub_cancel]

/-- the first ciphertext block -/
theorem length_firstBlock (hiv : iv.length = blockSize) (hd : data.length = (n + 1) * blockSize) :
    (xorBytes (data.take blockSize) iv).length = blockSize ∧
      (C.encrypt (xorBytes (data.take blockSize) iv)).length = blockSize := by
  have h := length_take_block hd
  have hx : (xorBytes (data.take blockSize) iv).length = blockSize := by
    rw [length_xorBytes (h.trans hiv.symm), h]
  exact ⟨hx, C.length_encrypt _ hx⟩

theorem length_cbcEncrypt (hiv : iv.length = blockSize) (hd : data.length = n * blockSize) :
    (cbcEncrypt C n iv data).length = n * blockSize := by
  induction n generalizing iv data with
  | zero => simp [cbcEncrypt]
  | succ n ih =>
    have hc := (length_firstBlock (C := C) hiv hd).2
    rw [cbcEncrypt, length_append, hc, ih hc (length_drop_block hd)]
    ring

/-- encryption is one to one on blocks, so every block is a ciphertext and decrypts to a block -/
theorem BlockCipher.length_decrypt (C : BlockCipher) (hb : b.length = blockSize) :
    (C.decrypt b).length = blockSize := by
  let encryptBlock : List.Vector UInt8 blockSize → List.Vector UInt8 blockSize := fun b =>
    ⟨C.encrypt b.1, C.length_encrypt b.1 b.2⟩
  have hinj : Function.Injective encryptBlock := by
    intro x y hxy
    have h : C.encrypt x.1 = C.encrypt y.1 := congrArg Subtype.val hxy
    apply Subtype.ext
    rw [← C.decrypt_encrypt x.1 x.2, h, C.decrypt_encrypt y.1 y.2]
  have : Finite UInt8 := Finite.of_injective UInt8.toFin fun _ _ => UInt8.toFin_inj.1
  have : Fintype UInt8 := Fintype.ofFinite _
  obtain ⟨x, hx⟩ := Finite.injective_iff_surjective.1 hinj ⟨b, hb⟩
  have h : C.encrypt x.1 = b := congrArg Subtype.val hx
  rw [← h, C.decrypt_encrypt x.1 x.2]
  exact x.2

theorem length_cbcDecrypt (hiv : iv.length = blockSize) (hd : data.length = n * blockSize) :
    (cbcDecrypt C n iv data).length = n * blockSize := by
  induction n generalizing iv data with
  | zero => simp [cbcDecrypt]
  | succ n ih =>
    have hb := length_take_block hd
    have hx : (C.decrypt (data.take blockSize)).length = iv.length := (C.length_decrypt hb).trans hiv.symm
    rw [cbcDecrypt, length_append, length_xorBytes hx, hx, hiv, ih hb (length_drop_block hd)]
    ring

/-- **Decryption undoes encryption.** -/
theorem cbcDecrypt_cbcEncrypt (hiv : iv.length = blockSize) (hd : data.length = n * blockSize) :
    cbcDecrypt C n iv (cbcEncrypt C n iv data) = data := by
  induction n generalizing iv data with
  | zero =>
    rw [cbcDecrypt]
    exact (eq_nil_of_length_eq_zero (by simpa using hd)).symm
  | succ n ih =>
    obtain ⟨hx, hc⟩ := length_firstBlock (C := C) hiv hd
    rw [cbcEncrypt, cbcDecrypt, take_left' hc, drop_left' hc, ih hc (length_drop_block hd),
      C.decrypt_encrypt _ hx, xorBytes_xorBytes ((length_take_block hd).trans hiv.symm), take_append_drop]

/-- a second call goes on where the first stopped -/
theorem cbcEncrypt_append {m : ℕ} {more : Bytes} (hd : data.length = n * blockSize) :
    cbcEncrypt C n iv data ++ cbcEncrypt C m (cbcChain C n iv data) more = cbcEncrypt C (n + m) iv (data ++ more) := by
  induction n generalizing iv data with
  | zero =>
    have : data = [] := eq_nil_of_length_eq_zero (by simpa using hd)
    simp [cbcEncrypt, cbcChain, this]
  | succ n ih =>
    have hle : blockSize ≤ data.length := by rw [hd]; exact Nat.le_mul_of_pos_left _ (Nat.succ_pos n)
    rw [Nat.add_right_comm, cbcEncrypt, cbcEncrypt, cbcChain, append_assoc, ih (length_drop_block hd),
      take_append_of_le_length hle, drop_append_of_le_length hle]

theorem length_cbcChain (hiv : iv.length = blockSize) (hd : data.length = n * blockSize) :
    (cbcChain C n iv data).length = blockSize := by
  induction n generalizing iv data with
  | zero => exact hiv
  | succ n ih => exact ih (length_firstBlock (C := C) hiv hd).2 (length_drop_block hd)

theorem length_cbcLast (hiv : iv.length = blockSize) (hd : data.length = n * blockSize) :
    (cbcLast n iv data).length = blockSize := by
  induction n generalizing iv data with
  | zero => exact hiv
  | succ n ih => exact ih (length_take_block hd) (length_drop_block hd)

theorem cbcDecrypt_append {m : ℕ} {more : Bytes} (hd : data.length = n * blockSize) :
    cbcDecrypt C n iv data ++ cbcDecrypt C m (cbcLast n iv data) more = cbcDecrypt C (n + m) iv (data ++ more) := by
  induction n generalizing iv data with
  | zero =>
    have : data = [] := eq_nil_of_length_eq_zero (by simpa using hd)
    simp [cbcDecrypt, cbcLast, this]
  | succ n ih =>
    have hle : blockSize ≤ data.length := by rw [hd]; exact Nat.le_mul_of_pos_left _ (Nat.succ_pos n)
    rw [Nat.add_right_comm, cbcDecrypt, cbcDecrypt, cbcLast, append_assoc, ih (length_drop_block hd),
      take_append_of_le_length hle, drop_append_of_le_length hle]

end Hypermeow.Lib
