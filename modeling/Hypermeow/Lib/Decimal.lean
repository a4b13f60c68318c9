/-
Byte strings of program text: ASCII literals and decimal numbers.

`formatUint` and `formatInt` write a number in base 10, as `strconv` does. What a codec needs to know of them is which
bytes they use and how long they get: `mem_formatInt` and `length_formatInt_le`. `parseInt` and `parseBool` read texts,
with the ranges and spellings that `strconv` accepts. `append_sep_inj` takes a text apart at its last separator, `cut` at the
first one.
-/
import Hypermeow.Lib.Slice
import Mathlib.Data.Nat.Digits.Lemmas

namespace Hypermeow.Lib

open List

/-- the bytes of an ASCII literal -/
def ascii (s : String) : Bytes := s.toList.map fun c => UInt8.ofNat c.toNat

/-- the character of a decimal digit -/
def digit (d : ℕ) : UInt8 := UInt8.ofNat (48 + d)

def formatUint (n : ℕ) : Bytes :=
  if n = 0 then ascii "0" else ((Nat.digits 10 n).map digit).reverse

def formatInt (i : ℤ) : Bytes :=
  if i < 0 then ascii "-" ++ formatUint i.natAbs else formatUint i.natAbs

/-- `'0' ≤ b ≤ '9'` -/
def isDigit (b : UInt8) : Bool := 48 ≤ b && b ≤ 57

/-- a nonempty string of digits; no sign, no underscores -/
def parseUint (s : Bytes) : Option ℕ :=
  if s ≠ [] ∧ s.all isDigit then some (s.foldl (fun n b => 10 * n + (b.toNat - 48)) 0) else none

/-- `strconv.ParseInt(s, 10, 64)`: an optional sign, and a value that fits into 64 bits -/
def parseInt (s : Bytes) : Option ℤ :=
  match s with
  | 43 :: s => (parseUint s).bind fun n => if n < 2 ^ 63 then some n else none
  | 45 :: s => (parseUint s).bind fun n => if n ≤ 2 ^ 63 then some (-n) else none
  | s => (parseUint s).bind fun n => if n < 2 ^ 63 then some n else none

/-- `strconv.ParseBool` -/
def parseBool (s : Bytes) : Option Bool :=
  if s ∈ [ascii "1", ascii "t", ascii "T", ascii "TRUE", ascii "true", ascii "True"] then some true
  else if s ∈ [ascii "0", ascii "f", ascii "F", ascii "FALSE", ascii "false", ascii "False"] then some false
  else none

theorem isDigit_digit {d : ℕ} (h : d < 10) : isDigit (digit d) = true := by
  interval_cases d <;> rfl

variable {n : ℕ} {b : UInt8}

theorem mem_formatUint (h : b ∈ formatUint n) : isDigit b = true := by
  unfold formatUint at h
  split_ifs at h
  · have : b = 48 := by simpa [ascii] using h
    rw [this]
    rfl
  · rw [mem_reverse, mem_map] at h
    obtain ⟨d, hd, rfl⟩ := h
    exact isDigit_digit (Nat.digits_lt_base (by norm_num) hd)

variable {k : ℕ}

theorem length_formatUint_le (hk : 0 < k) (h : n < 10 ^ k) : (formatUint n).length ≤ k := by
  unfold formatUint
  split_ifs
  · exact hk
  · rw [length_reverse, length_map]
    exact (Nat.digits_length_le_iff (by norm_num) n).2 h

theorem mem_formatInt {i : ℤ} (h : b ∈ formatInt i) : isDigit b = true ∨ b = 45 := by
  unfold formatInt at h
  split_ifs at h
  · rw [mem_append] at h
    rcases h with h | h
    · exact .inr (by simpa [ascii] using h)
    · exact .inl (mem_formatUint h)
  · exact .inl (mem_formatUint h)

theorem length_formatInt_le {i : ℤ} (hk : 0 < k) (h : i.natAbs < 10 ^ k) : (formatInt i).length ≤ k + 1 := by
  have := length_formatUint_le hk h
  unfold formatInt
  split_ifs
  · rw [length_append]
    change 1 + _ ≤ _
    omega
  · omega

/-! ## Reading back -/

theorem toNat_digit {d : ℕ} (h : d < 10) : (digit d).toNat - 48 = d := by
  interval_cases d <;> rfl

theorem formatUint_ne_nil (n : ℕ) : formatUint n ≠ [] := by
  unfold formatUint
  split_ifs with hn
  · decide
  · rw [Ne, reverse_eq_nil_iff, map_eq_nil_iff, Nat.digits_eq_nil_iff_eq_zero]
    exact hn

/-- a number that was written is read back -/
theorem parseUint_formatUint (n : ℕ) : parseUint (formatUint n) = some n := by
  unfold parseUint
  rw [if_pos ⟨formatUint_ne_nil n, all_eq_true.2 fun b hb => mem_formatUint hb⟩]
  unfold formatUint
  split_ifs with hn
  · rw [hn]
    rfl
  · have hdigits : ∀ ds : List ℕ, (∀ d ∈ ds, d < 10) →
        (ds.map digit).reverse.foldl (fun n b => 10 * n + (b.toNat - 48)) 0 = Nat.ofDigits 10 ds := by
      intro ds hds
      induction ds with
      | nil => rfl
      | cons d ds ih =>
        rw [map_cons, reverse_cons, foldl_append, ih fun x hx => hds x (mem_cons_of_mem d hx),
          Nat.ofDigits_cons]
        simp only [foldl_cons, foldl_nil, toNat_digit (hds d mem_cons_self)]
        exact Nat.add_comm _ _
    rw [hdigits _ fun d hd => Nat.digits_lt_base (by norm_num) hd, Nat.ofDigits_digits]

theorem formatUint_injective : Function.Injective formatUint := by
  intro n k h
  have hn := parseUint_formatUint n
  rw [h, parseUint_formatUint] at hn
  exact (Option.some.inj hn).symm

theorem notMem_formatUint (h : isDigit b = false) (n : ℕ) : b ∉ formatUint n := by
  intro hb
  rw [mem_formatUint hb] at h
  cases h

theorem notMem_of_parseUint {s : Bytes} (h : parseUint s = some n) (hb : isDigit b = false) : b ∉ s := by
  unfold parseUint at h
  split_ifs at h with hs
  intro hmem
  rw [all_eq_true.1 hs.2 b hmem] at hb
  cases hb

/-- a number without a sign is read as it is -/
theorem parseInt_of_parseUint {s : Bytes} (h : parseUint s = some n) (hn : n < 2 ^ 63) : parseInt s = some (n : ℤ) := by
  unfold parseInt
  split
  · exact absurd mem_cons_self (notMem_of_parseUint h rfl)
  · exact absurd mem_cons_self (notMem_of_parseUint h rfl)
  · rw [h, Option.bind_some, if_pos hn]

/-! ## Padding and separators -/

/-- `%0kd`: the number with zeros before it, at least `k` digits -/
def padded (k n : ℕ) : Bytes := List.replicate (k - (formatUint n).length) 48 ++ formatUint n

theorem length_padded (hk : 0 < k) (h : n < 10 ^ k) : (padded k n).length = k := by
  have := length_formatUint_le hk h
  rw [padded, length_append, length_replicate]
  omega

/-- a text splits at the last separator -/
theorem append_sep_inj {sep : UInt8} {a b x y : Bytes} (hx : sep ∉ x) (hy : sep ∉ y)
    (h : a ++ sep :: x = b ++ sep :: y) : a = b ∧ x = y := by
  have htail : ∀ {c z : Bytes}, sep ∉ z → ((c ++ sep :: z).reverse.takeWhile fun w => w ≠ sep) = z.reverse := by
    intro c z hz
    rw [reverse_append, reverse_cons, append_assoc, takeWhile_append_of_pos]
    · simp
    · intro w hw
      exact decide_eq_true fun he => hz (he ▸ mem_reverse.1 hw)
  have hxy : x = y := by
    have := htail (c := a) hx
    rw [h, htail hy] at this
    exact (reverse_injective this).symm
  subst hxy
  exact ⟨append_cancel_right h, rfl⟩

/-! ## Optional parts -/

section Parts

variable {α : Type} {sep : α} {s : List α} {text : Option (List α)}

/-- an optional part after its separator -/
def part (sep : α) : Option (List α) → List α
  | none => []
  | some text => sep :: text

theorem append_part_none (sep : α) (s : List α) : s ++ part sep none = s := append_nil s

theorem append_part_some (s text t : List α) : s ++ part sep (some text) ++ t = s ++ part sep (some (text ++ t)) :=
  append_assoc ..

variable [DecidableEq α]

/-- what is before the first separator, and the part after it -/
def cut (sep : α) : List α → List α × Option (List α)
  | [] => ([], none)
  | a :: s => if a = sep then ([], some s) else (a :: (cut sep s).1, (cut sep s).2)

theorem splitOn_part (h : sep ∉ s) (ht : ∀ t ∈ text, sep ∉ t) : (s ++ part sep text).splitOn sep = s :: text.toList := by
  cases text with
  | none => rw [append_part_none, splitOn_eq_singleton h, Option.toList]
  | some t => rw [part, splitOn_append_cons_self_of_not_mem h, splitOn_eq_singleton (ht t rfl), Option.toList]

end Parts

end Hypermeow.Lib
