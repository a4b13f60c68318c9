/-
Slices with the array behind them.

A slice is a window of an array: where it begins, how long it is and how far it may grow. Slicing again keeps the array.
`append` writes into the array when what is appended fits into the rest of the window, and copies to new memory otherwise; so
whether it changes bytes that the slice does not show depends on the capacity.

- `View n`: a slice of an array of `n` bytes; its bounds are fields.
- `appendTo`: `append` to a slice of the array that is the receiver.
- `appendTo_run`: what it returns reads as the old bytes and the new ones, and the array is overwritten behind the slice exactly
  when there is room.
- `overwrite_eq_self`: an overwritten array is the same exactly when it held those bytes.
-/
import Hypermeow.Lib.File

namespace Hypermeow.Lib

open List

/-- `array[off : off+len : off+cap]` -/
structure View (n : ℕ) where
  off : ℕ
  len : ℕ
  cap : ℕ
  len_le : len ≤ cap
  cap_le : off + cap ≤ n

variable {n : ℕ}

/-- the bytes that the slice shows -/
def View.bytes (v : View n) (array : Bytes) : Bytes := (array.drop v.off).take v.len

/-- `v[:k]` -/
def View.upTo (v : View n) (k : ℕ) (h : k ≤ v.len) : View n := ⟨v.off, k, v.cap, h.trans v.len_le, v.cap_le⟩

theorem View.since_le (v : View n) {k : ℕ} (h : k ≤ v.len) : v.len - k ≤ v.cap - k ∧ v.off + k + (v.cap - k) ≤ n := by
  have hlen := v.len_le
  have hcap := v.cap_le
  omega

/-- `v[k:]` -/
def View.since (v : View n) (k : ℕ) (h : k ≤ v.len) : View n :=
  ⟨v.off + k, v.len - k, v.cap - k, (v.since_le h).1, (v.since_le h).2⟩

/-- what `append` returns: a longer slice of the same array, or new memory -/
inductive Appended where
  | shared (off len : ℕ)
  | fresh (bs : Bytes)

def Appended.bytes (array : Bytes) : Appended → Bytes
  | .shared off len => (array.drop off).take len
  | .fresh bs => bs

/-- `append(v, data...)` -/
def View.appendTo {ε : Type} (v : View n) (data : Bytes) : Go Bytes ε Appended := do
  let array ← Go.get
  if v.len + data.length ≤ v.cap then do
    Go.modify fun array => overwrite array (v.off + v.len) data
    pure (.shared v.off (v.len + data.length))
  else pure (.fresh (v.bytes array ++ data))

theorem overwrite_of_le {array data : Bytes} {pos : ℕ} (h : pos + data.length ≤ array.length) :
    overwrite array pos data = array.take pos ++ (data ++ array.drop (pos + data.length)) := by
  have happ := overwrite_append (array.take pos) (array.drop pos) data
  rw [take_append_drop, length_take, min_eq_left (by omega), drop_drop] at happ
  exact happ

theorem overwrite_eq_self {array data : Bytes} {pos : ℕ} (h : pos + data.length ≤ array.length) :
    overwrite array pos data = array ↔ (array.drop pos).take data.length = data := by
  have hsplit : array = array.take pos ++ ((array.drop pos).take data.length ++ array.drop (pos + data.length)) := by
    rw [← drop_drop, take_append_drop, take_append_drop]
  rw [overwrite_of_le h]
  constructor
  · intro heq
    have htail := append_cancel_left (heq.trans hsplit)
    exact (append_cancel_right htail).symm
  · intro heq
    nth_rewrite 3 [hsplit]
    rw [heq]

/-- what lies before the overwritten bytes reads as before -/
theorem take_drop_overwrite {array data : Bytes} {pos off len : ℕ} (h : pos + data.length ≤ array.length)
    (hlen : off + len ≤ pos) : ((overwrite array pos data).drop off).take len = (array.drop off).take len := by
  have hpos : (array.take pos).length = pos := by rw [length_take, min_eq_left (by omega)]
  rw [overwrite_of_le h, drop_append_of_le_length (by omega), take_append_of_le_length (by
    rw [length_drop]; omega), drop_take, take_take, min_eq_left (by omega)]

theorem View.appendTo_run {ε : Type} {array : Bytes} (v : View array.length) (data : Bytes) :
    ∃ r, (v.appendTo data : Go Bytes ε Appended) array =
        (.ok r, if v.len + data.length ≤ v.cap then overwrite array (v.off + v.len) data else array) ∧
      r.bytes (if v.len + data.length ≤ v.cap then overwrite array (v.off + v.len) data else array) =
        v.bytes array ++ data := by
  have hcap := v.cap_le
  rw [View.appendTo, Go.get_bind]
  by_cases hroom : v.len + data.length ≤ v.cap
  · refine ⟨.shared v.off (v.len + data.length), ?_, ?_⟩
    · rw [if_pos hroom, if_pos hroom, Go.modify_bind]
      rfl
    · have hfits : v.off + v.len + data.length ≤ array.length := by omega
      have htake : (array.take (v.off + v.len)).drop v.off = v.bytes array := by
        rw [drop_take, Nat.add_sub_cancel_left, View.bytes]
      have hbytes : (v.bytes array).length = v.len := by
        rw [View.bytes, length_take, length_drop]
        omega
      have hoff : v.off ≤ (array.take (v.off + v.len)).length := by
        rw [length_take]
        omega
      rw [if_pos hroom, Appended.bytes, overwrite_of_le hfits, drop_append_of_le_length hoff, htake,
        take_append, take_of_length_le (by omega), hbytes, Nat.add_sub_cancel_left, take_left]
  · refine ⟨.fresh (v.bytes array ++ data), ?_, ?_⟩
    · rw [if_neg hroom, if_neg hroom]
      rfl
    · rfl

end Hypermeow.Lib
