/-
What encrypting does to the memory of the caller (`Encrypt` of `util/cbcutil/cbc.go`, `Upload` of `upload.go`).

`Encrypt` appends the padding to the last part of the plaintext slice. When the slice has room behind its end for the whole
padding, `append` does not copy: the padding lands in the array of the caller, behind the plaintext. That happens before the
key is looked at, so also when `Encrypt` fails.

Model: the receiver is the array behind the plaintext; keys, vectors and the ciphertext are other memory. `encryptIn` is
`encrypt` with the slices of the array, read when they are read.

Results:
- `encryptIn_run`: the result is the one of `encrypt` on the bytes of the slice, and the array is overwritten behind the slice
  exactly when there is room for the padding.
-/
import Hypermeow.Lib.View
import Hypermeow.Client.Upload

namespace Hypermeow.Client.Media

open Lib Util Go List

/-! ## Encrypt -/

variable {n : ℕ}

def paddingLen (v : View n) : ℕ := blockSize - v.len % blockSize

def paddingOf (v : View n) : Bytes := List.replicate (paddingLen v) (UInt8.ofNat (paddingLen v))

theorem start_le (v : View n) : v.len - v.len % blockSize ≤ v.len := Nat.sub_le _ _

def encryptIn (aes : Bytes → BlockCipher) (random : Option IV) (key : Bytes) (iv : Option Bytes) (plaintext : View n) :
    Go Bytes CbcError Bytes := do
  let sizeOfLastBlock := plaintext.len % blockSize
  let plaintextStart := plaintext.upTo (plaintext.len - sizeOfLastBlock) (start_le plaintext)
  let lastBlock ← (plaintext.since (plaintext.len - sizeOfLastBlock) (start_le plaintext)).appendTo (paddingOf plaintext)
  let array ← Go.get
  let start := plaintextStart.bytes array
  let last := lastBlock.bytes array
  let crypt := fun iv : Bytes =>
    let n := start.length / blockSize
    cbcEncrypt (aes key) n iv start ++ cbcEncrypt (aes key) 1 (cbcChain (aes key) n iv start) last
  if start.length % blockSize ≠ 0 then Go.throw (.plaintextSize start.length)
  else if last.length ≠ blockSize then Go.throw (.lastBlockSize last.length)
  else if key.length ∉ aesKeySizes then Go.throw (.keySize key.length)
  else match iv with
    | none => match random with
      | none => Go.throw .random
      | some iv => pure (iv.1 ++ crypt iv.1)
    | some iv => if iv.length ≠ blockSize then Go.crash else pure (crypt iv)

/-- is there room for the padding behind the slice? -/
def HasRoom (v : View n) : Prop := v.len + paddingLen v ≤ v.cap

instance (v : View n) : Decidable (HasRoom v) := inferInstanceAs (Decidable (_ ≤ _))

/-- the array after the padding was appended -/
def padArray (array : Bytes) (v : View n) : Bytes :=
  if HasRoom v then overwrite array (v.off + v.len) (paddingOf v) else array

theorem length_paddingOf (v : View n) : (paddingOf v).length = paddingLen v := length_replicate

/-- the last part of the slice has as much room as the slice -/
theorem hasRoom_last (v : View n) :
    (v.since (v.len - v.len % blockSize) (start_le v)).len + (paddingOf v).length ≤
      (v.since (v.len - v.len % blockSize) (start_le v)).cap ↔ HasRoom v := by
  have hlen := v.len_le
  rw [length_paddingOf, HasRoom, View.since]
  simp only
  omega

theorem off_last (v : View n) :
    (v.since (v.len - v.len % blockSize) (start_le v)).off + (v.since (v.len - v.len % blockSize) (start_le v)).len =
      v.off + v.len := by
  have hle := start_le v
  simp only [View.since]
  omega

variable {array : Bytes}

/-- the whole blocks are not touched -/
theorem start_padArray (v : View array.length) :
    (v.upTo (v.len - v.len % blockSize) (start_le v)).bytes (padArray array v) =
      (v.bytes array).take (v.len - v.len % blockSize) := by
  have hcap := v.cap_le
  have hle := start_le v
  have hbytes : (v.bytes array).take (v.len - v.len % blockSize) =
      (array.drop v.off).take (v.len - v.len % blockSize) := by
    rw [View.bytes, take_take, min_eq_left hle]
  rw [hbytes, View.bytes, padArray]
  by_cases hroom : HasRoom v
  · have hfits : v.off + v.len + (paddingOf v).length ≤ array.length := by
      rw [length_paddingOf]
      have hr : v.len + paddingLen v ≤ v.cap := hroom
      omega
    rw [if_pos hroom]
    exact take_drop_overwrite hfits (by simp only [View.upTo]; omega)
  · rw [if_neg hroom]
    rfl

theorem length_bytes (v : View array.length) : (v.bytes array).length = v.len := by
  have hlen := v.len_le
  have hcap := v.cap_le
  rw [View.bytes, length_take, length_drop]
  omega

/-- **`Encrypt` on a slice of an array.** It returns what it returns for the bytes of the slice, and the padding stays in the
array when there is room. -/
theorem encryptIn_run (aes : Bytes → BlockCipher) (random : Option IV) (key : Bytes) (iv : Option Bytes)
    (v : View array.length) :
    encryptIn aes random key iv v array = ((encrypt aes random key iv (v.bytes array) ()).1, padArray array v) := by
  obtain ⟨r, happend, hread⟩ := (v.since (v.len - v.len % blockSize) (start_le v)).appendTo_run (ε := CbcError)
    (paddingOf v)
  rw [off_last] at happend hread
  simp only [hasRoom_last] at happend hread
  change _ = (_, padArray array v) at happend
  change r.bytes (padArray array v) = _ at hread
  have hle : v.len - v.len % blockSize ≤ (v.bytes array).length := by
    rw [length_bytes]
    exact start_le v
  have hrest : (v.since (v.len - v.len % blockSize) (start_le v)).bytes array =
      (v.bytes array).drop (v.len - v.len % blockSize) := by
    rw [View.bytes, View.bytes, drop_take, drop_drop]
    rfl
  have hcast : ((v.bytes array).length : ℤ) - ((v.bytes array).length % blockSize : ℕ) =
      ((v.len - v.len % blockSize : ℕ) : ℤ) := by
    have := Nat.mod_le v.len blockSize
    rw [length_bytes]
    omega
  rw [encryptIn, bind_ok happend, get_bind, encrypt]
  simp only [hcast]
  rw [bind_ok (Slice.upTo_run hle ()), bind_ok (Slice.since_run hle ())]
  simp only [hread, start_padArray, hrest, length_bytes, paddingOf, paddingLen]
  -- from here on both do the same
  split_ifs with hstart hlast hkey
  · rfl
  · rfl
  · cases iv with
    | none =>
      cases random with
      | none => rfl
      | some iv => rfl
    | some iv =>
      simp only
      split_ifs <;> rfl
  · rfl

/-! ## Upload -/

/-- `Upload` of a slice of an array -/
def uploadIn (E : Env) (mediaKey : Bytes) (plaintext : View n) (appInfo : Bytes) : Go Bytes UploadError RawUpload := do
  let array ← Go.get
  let fileSHA256 := E.sha256 (plaintext.bytes array)
  let keys := getMediaKeys E (some mediaKey) appInfo
  let ciphertext ← Go.mapErr .encrypt (encryptIn E.aes none keys.cipherKey (some keys.iv) plaintext)
  let dataToUpload := ciphertext ++ mediaHMAC E keys ciphertext
  pure
    { dataToUpload := dataToUpload
      uploadSize := dataToUpload.length
      resp :=
        { mediaKey := mediaKey
          fileEncSHA256 := E.sha256 dataToUpload
          fileSHA256 := fileSHA256
          fileLength := plaintext.len } }

theorem uploadIn_run (E : Env) (mediaKey appInfo : Bytes) (v : View array.length) :
    uploadIn E mediaKey v appInfo array = (.ok (rawUploadOf E mediaKey appInfo (v.bytes array)), padArray array v) := by
  have hkey := (length_getMediaKeys (E := E) (some mediaKey) appInfo).2
  have hrun := encryptIn_run E.aes none (getMediaKeys E (some mediaKey) appInfo).cipherKey
    (some (mediaIV E (some mediaKey) appInfo).1) v
  rw [(encrypt_cases E.aes hkey (mediaIV E (some mediaKey) appInfo) (v.bytes array) ()).2 none, mediaIV_val] at hrun
  rw [uploadIn, get_bind]
  simp only
  rw [bind_ok (mapErr_ok hrun), rawUploadOf, length_bytes]
  rfl

/-! ## The array of the caller -/

/-- there is no room for the padding behind the slice, or the padding is what is there -/
def Undisturbed (array : Bytes) (v : View n) : Prop :=
  v.cap < v.len + paddingLen v ∨ (array.drop (v.off + v.len)).take (paddingLen v) = paddingOf v

theorem padArray_eq_self (v : View array.length) : padArray array v = array ↔ Undisturbed array v := by
  have hcap := v.cap_le
  rw [padArray, Undisturbed]
  by_cases hroom : HasRoom v
  · have hle : v.len + paddingLen v ≤ v.cap := hroom
    have hfits : v.off + v.len + (paddingOf v).length ≤ array.length := by
      rw [length_paddingOf]
      omega
    rw [if_pos hroom, overwrite_eq_self hfits, length_paddingOf]
    exact (or_iff_right (not_lt.2 hle)).symm
  · rw [if_neg hroom]
    exact iff_of_true rfl (.inl (not_le.1 hroom))

/-- **The array of the caller.** For every array and every slice of it: neither `Encrypt`, with any key and vector, nor
`Upload` changes a byte of the array exactly when there is no room for the padding behind the slice, or it is already there. -/
theorem keeps_array_iff (E : Env) (array : Bytes) (v : View array.length) (aes : Bytes → BlockCipher) (random : Option IV)
    (key : Bytes) (iv : Option Bytes) (mediaKey appInfo : Bytes) :
    ((encryptIn aes random key iv v array).2 = array ↔ Undisturbed array v) ∧
      ((uploadIn E mediaKey v appInfo array).2 = array ↔ Undisturbed array v) := by
  rw [encryptIn_run, uploadIn_run]
  exact ⟨padArray_eq_self v, padArray_eq_self v⟩

theorem firstFive_le : 5 ≤ 20 ∧ 0 + 20 ≤ (List.replicate 20 (7 : UInt8)).length := by decide

/-- the first five bytes of an array of twenty -/
def firstFive : View (List.replicate 20 (7 : UInt8)).length := ⟨0, 5, 20, firstFive_le.1, firstFive_le.2⟩

/-- **Overwritten.** The first five of twenty bytes are encrypted and uploaded: the next eleven now hold the padding, also when
the key is refused. -/
theorem array_overwritten :
    (∀ key ∈ [[], List.replicate 16 0], (encryptIn plainEnv.aes none key (some (List.replicate 16 0)) firstFive
      (List.replicate 20 7)).2 = List.replicate 5 7 ++ (List.replicate 11 11 ++ List.replicate 4 7)) ∧
    (uploadIn plainEnv [3] firstFive [] (List.replicate 20 7)).2 =
      List.replicate 5 7 ++ (List.replicate 11 11 ++ List.replicate 4 7) := by
  decide +kernel

end Hypermeow.Client.Media
