/-
Texts in SQL: patterns, replacement and ranges.

- `like pattern text`: `LIKE` without an escape character. `%` matches any text, `_` any one byte. A literal followed by
  `%` matches the texts that start with it (`like_literal`); a wildcard matches more than itself (`like_wild`).
- `replace text old new`: every occurrence of `old`, from the left and without overlap. An empty `old` changes nothing.
  Behind a first occurrence the rest is replaced on its own (`replace_append`); a text that contains `old` never stays as
  it is (`replace_ne`), one that does not contain it does (`replace_of_not_infix`).
- `inRange lower upper text`: bytewise comparison. The texts between `user:` and `user;` are those that start with `user:`
  (`inRange_iff`).
-/
import Hypermeow.Lib.Slice

namespace Hypermeow.Lib.Sql

open List

/-! ## Patterns -/

def percent : UInt8 := 37
def underscore : UInt8 := 95

def like : Bytes → Bytes → Bool
  | [], text => text.isEmpty
  | p :: ps, text =>
    if p = percent then text.tails.any (like ps)
    else match text with
      | [] => false
      | c :: cs => (p = underscore || p = c) && like ps cs

variable {p q text text' : Bytes} {c w : UInt8}

theorem like_percent_cons (ps text : Bytes) : like (percent :: ps) text = true ↔ ∃ t, t <:+ text ∧ like ps t = true := by
  rw [like.eq_def]
  simp [any_eq_true]

theorem like_cons_cons (hw : w ≠ percent) :
    like (w :: q) (c :: text) = true ↔ (w = underscore ∨ w = c) ∧ like q text = true := by
  rw [like.eq_def]
  simp [hw]

theorem like_cons_nil (hw : w ≠ percent) : ¬like (w :: q) [] = true := by
  rw [like.eq_def]
  simp [hw]

/-- a wildcard matches any byte -/
theorem like_wild (hw : w = underscore ∨ w = percent) (h : like q text = true) : like (w :: q) (c :: text) = true := by
  rcases hw with rfl | rfl
  · exact (like_cons_cons (by decide)).2 ⟨.inl rfl, h⟩
  · exact (like_percent_cons q _).2 ⟨text, suffix_cons c text, h⟩

/-- a pattern matches itself -/
theorem like_append (p : Bytes) (h : like q text = true) : like (p ++ q) (p ++ text) = true := by
  induction p with
  | nil => exact h
  | cons w p ih =>
    by_cases hw : w = percent
    · exact like_wild (.inr hw) ih
    · exact (like_cons_cons hw).2 ⟨.inr rfl, ih⟩

theorem like_percent (text : Bytes) : like [percent] text = true :=
  (like_percent_cons [] text).2 ⟨[], nil_suffix, rfl⟩

/-- a literal and `%`: the texts that start with the literal -/
theorem like_literal (hp : ∀ w ∈ p, w ≠ underscore ∧ w ≠ percent) : like (p ++ [percent]) text = true ↔ p <+: text := by
  induction p generalizing text with
  | nil => exact iff_of_true (like_percent text) nil_prefix
  | cons w p ih =>
    obtain ⟨hu, hw⟩ := hp w mem_cons_self
    cases text with
    | nil => exact iff_of_false (like_cons_nil hw) (by simp)
    | cons c text =>
      rw [cons_append, like_cons_cons hw, ih fun x hx => hp x (mem_cons_of_mem w hx), cons_prefix_cons,
        or_iff_right hu]

/-- a byte that is no wildcard must occur in the text as often as in the pattern -/
theorem count_le_of_like (hu : c ≠ underscore) (hw : c ≠ percent) (h : like p text = true) :
    p.count c ≤ text.count c := by
  induction p generalizing text with
  | nil => exact Nat.zero_le _
  | cons w p ih =>
    by_cases hpct : w = percent
    · subst hpct
      obtain ⟨t, ht, hlike⟩ := (like_percent_cons p text).1 h
      rw [count_cons_of_ne (Ne.symm hw)]
      exact (ih hlike).trans (ht.sublist.count_le c)
    · cases text with
      | nil => exact absurd h (like_cons_nil hpct)
      | cons x text =>
        obtain ⟨hx, hlike⟩ := (like_cons_cons hpct).1 h
        by_cases hc : w = c
        · subst hc
          rw [count_cons_self, ← hx.resolve_left hu, count_cons_self]
          exact Nat.succ_le_succ (ih hlike)
        · rw [count_cons_of_ne hc]
          exact (ih hlike).trans count_le_count_cons

/-! ## Replacement -/

variable {old new : Bytes}

/-- the replacement, after `skip` bytes that belong to an occurrence -/
def replaceFrom (old new : Bytes) : ℕ → Bytes → Bytes
  | _, [] => []
  | 0, c :: cs =>
    if old <+: c :: cs then new ++ replaceFrom old new (old.length - 1) cs else c :: replaceFrom old new 0 cs
  | skip + 1, _ :: cs => replaceFrom old new skip cs

def replace (text old new : Bytes) : Bytes := if old = [] then text else replaceFrom old new 0 text

theorem replaceFrom_skip (skip : ℕ) (text : Bytes) :
    replaceFrom old new skip text = replaceFrom old new 0 (text.drop skip) := by
  induction text generalizing skip with
  | nil => cases skip <;> rfl
  | cons c cs ih =>
    cases skip with
    | zero => rfl
    | succ skip => exact ih skip

theorem replaceFrom_of_occurs (hold : old ≠ []) (h : old <+: text) :
    replaceFrom old new 0 text = new ++ replaceFrom old new 0 (text.drop old.length) := by
  cases text with
  | nil => exact absurd (prefix_nil.1 h) hold
  | cons c cs =>
    obtain ⟨n, hn⟩ := Nat.exists_eq_succ_of_ne_zero (mt length_eq_zero_iff.1 hold)
    rw [replaceFrom, if_pos h, replaceFrom_skip, hn]
    rfl

theorem replaceFrom_cons (h : ¬old <+: c :: text) : replaceFrom old new 0 (c :: text) = c :: replaceFrom old new 0 text := by
  rw [replaceFrom, if_neg h]

theorem replace_append (hold : old ≠ []) (text : Bytes) : replace (old ++ text) old new = new ++ replace text old new := by
  rw [replace, replace, if_neg hold, if_neg hold, replaceFrom_of_occurs hold (prefix_append old text),
    drop_left]

theorem replace_cons (h : ¬old <+: c :: text) : replace (c :: text) old new = c :: replace text old new := by
  unfold replace
  split_ifs
  · rfl
  · exact replaceFrom_cons h

theorem replace_of_not_infix (h : ¬old <:+: text) : replace text old new = text := by
  induction text with
  | nil => simp [replace, replaceFrom]
  | cons c text ih =>
    rw [replace_cons fun hc => h hc.isInfix, ih fun hc => h (hc.trans (suffix_cons c text).isInfix)]

/-- a replacement by something longer does not shrink a text, one by something shorter does not extend it -/
theorem length_replaceFrom (new : Bytes) (hold : old ≠ []) (n : ℕ) (text : Bytes) (hn : text.length = n) :
    (old.length ≤ new.length → text.length ≤ (replaceFrom old new 0 text).length) ∧
      (new.length ≤ old.length → (replaceFrom old new 0 text).length ≤ text.length) := by
  induction n using Nat.strong_induction_on generalizing text with
  | _ n ih =>
    cases text with
    | nil => exact ⟨fun _ => le_rfl, fun _ => le_rfl⟩
    | cons c cs =>
      have hpos : 0 < old.length := length_pos_iff.2 hold
      by_cases h : old <+: c :: cs
      · have hle := h.length_le
        obtain ⟨hgrow, hshrink⟩ := ih ((c :: cs).drop old.length).length
          (by rw [length_drop, ← hn]; omega) _ rfl
        rw [replaceFrom_of_occurs hold h, length_append]
        rw [length_drop] at hgrow hshrink
        constructor
        · intro hlen
          have := hgrow hlen
          omega
        · intro hlen
          have := hshrink hlen
          omega
      · obtain ⟨hgrow, hshrink⟩ := ih cs.length (by rw [← hn, length_cons]; omega) cs rfl
        rw [replaceFrom_cons h, length_cons, length_cons]
        exact ⟨fun hlen => Nat.succ_le_succ (hgrow hlen), fun hlen => Nat.succ_le_succ (hshrink hlen)⟩

/-- a text with an occurrence changes -/
theorem replace_ne (hold : old ≠ []) (hne : old ≠ new) (h : old <:+: text) : replace text old new ≠ text := by
  rw [replace, if_neg hold]
  induction text with
  | nil => exact absurd (infix_nil.1 h) hold
  | cons c cs ih =>
    by_cases hp : old <+: c :: cs
    · intro heq
      obtain ⟨rest, hrest⟩ := hp
      have hdrop : (c :: cs).drop old.length = rest := by rw [← hrest, drop_left]
      rw [replaceFrom_of_occurs hold ⟨rest, hrest⟩, hdrop, ← hrest] at heq
      obtain ⟨hgrow, hshrink⟩ := length_replaceFrom new hold rest.length rest rfl
      have hlen := congrArg List.length heq
      rw [length_append, length_append] at hlen
      rcases Nat.lt_trichotomy old.length new.length with hlt | hlt | hlt
      · have := hgrow hlt.le
        omega
      · exact hne (append_inj_left heq hlt.symm).symm
      · have := hshrink hlt.le
        omega
    · rw [replaceFrom_cons hp]
      intro heq
      rcases infix_cons_iff.1 h with hpre | hin
      · exact hp hpre
      · exact ih hin (cons.inj heq).2

/-! ## Ranges -/

/-- bytewise order -/
def before : Bytes → Bytes → Bool
  | _, [] => false
  | [], _ :: _ => true
  | a :: as, b :: bs => a < b || (a = b && before as bs)

/-- `lower <= text AND text < upper` -/
def inRange (lower upper text : Bytes) : Bool := !before text lower && before text upper

/-- the texts from `user:` up to `user;` -/
theorem inRange_iff (user text : Bytes) : inRange (user ++ [58]) (user ++ [59]) text = true ↔ user ++ [58] <+: text := by
  induction user generalizing text with
  | nil =>
    cases text with
    | nil => simp [inRange, before]
    | cons c cs =>
      have hc : (¬c < 58 ∧ c < 59) ↔ 58 = c := by
        constructor
        · rintro ⟨hge, hlt⟩
          apply UInt8.toNat_inj.1
          have h1 : ¬c.toNat < 58 := hge
          have h2 : c.toNat < 59 := hlt
          change 58 = c.toNat
          omega
        · rintro rfl
          decide
      simpa [inRange, before] using hc
  | cons u user ih =>
    cases text with
    | nil => simp [inRange, before]
    | cons c cs =>
      rw [cons_append, cons_append, cons_prefix_cons, ← ih cs]
      by_cases hc : u = c
      · subst hc
        simp [inRange, before]
      · have hc' : ¬c = u := fun h => hc h.symm
        simp [inRange, before, hc, hc']

end Hypermeow.Lib.Sql
