/-
Runs of a state machine whose steps are chosen by a scheduler.

`step` is total: an action that is not enabled leaves the state alone. A run is a list of actions. `Along` says that every
action of a run meets a condition in the state it is taken in. `run_inv` is the induction that every safety result uses:
an invariant of the steps that meet the condition is an invariant of the runs that do.

`Throughout` is about histories, lists of events: every event is permitted by what was observed of the events before it.

`lastWrite` is what a list of writes leaves at a key. `run_lastWrite`: if every action writes one key, and the invariant that
makes it do so is kept, then a run leaves the last write of each key.
-/
import Mathlib.Tactic

namespace Hypermeow.Lib

open List

variable {σ α : Type} (step : σ → α → σ)

/-- the state after a list of actions -/
def run (s : σ) (as : List α) : σ := as.foldl step s

@[simp] theorem run_nil (s : σ) : run step s [] = s := rfl

@[simp] theorem run_cons (s : σ) (a : α) (as : List α) : run step s (a :: as) = run step (step s a) as := rfl

theorem run_append (s : σ) (as bs : List α) : run step s (as ++ bs) = run step (run step s as) bs :=
  foldl_append

/-- every action of the run meets `ok` in the state before it -/
def Along (ok : σ → α → Prop) : σ → List α → Prop
  | _, [] => True
  | s, a :: as => ok s a ∧ Along ok (step s a) as

instance decidableAlong {ok : σ → α → Prop} [∀ s a, Decidable (ok s a)] :
    (s : σ) → (as : List α) → Decidable (Along step ok s as)
  | _, [] => .isTrue trivial
  | s, a :: as =>
    have : Decidable (Along step ok (step s a) as) := decidableAlong (step s a) as
    inferInstanceAs (Decidable (ok s a ∧ Along step ok (step s a) as))

variable {step} {ok : σ → α → Prop} {I : σ → Prop}

theorem Along.take {s : σ} {as : List α} (h : Along step ok s as) (n : ℕ) : Along step ok s (as.take n) := by
  induction as generalizing s n with
  | nil => simpa using h
  | cons a as ih =>
    cases n with
    | zero => exact trivial
    | succ n => exact ⟨h.1, ih h.2 n⟩

/-- each action meets the condition in the state in which it is taken -/
theorem Along.get {s : σ} {as : List α} (h : Along step ok s as) {n : ℕ} {a : α} (ha : as[n]? = some a) :
    ok (run step s (as.take n)) a := by
  induction as generalizing s n with
  | nil => cases ha
  | cons b as ih =>
    cases n with
    | zero =>
      cases ha
      exact h.1
    | succ n => exact ih h.2 ha

theorem along_of_get {s : σ} {as : List α} (h : ∀ n a, as[n]? = some a → ok (run step s (as.take n)) a) :
    Along step ok s as := by
  induction as generalizing s with
  | nil => exact trivial
  | cons a as ih => exact ⟨h 0 a rfl, ih fun n b hb => h (n + 1) b hb⟩

/-- an invariant of the steps that meet the condition holds after every run that does -/
theorem run_inv (hstep : ∀ s a, ok s a → I s → I (step s a)) {s : σ} {as : List α} (hs : I s)
    (hal : Along step ok s as) : I (run step s as) := by
  induction as generalizing s with
  | nil => exact hs
  | cons a as ih => exact ih (hstep s a hal.1 hs) hal.2

/-- and in every state on the way -/
theorem run_inv_take (hstep : ∀ s a, ok s a → I s → I (step s a)) {s : σ} {as : List α} (hs : I s)
    (hal : Along step ok s as) (n : ℕ) : I (run step s (as.take n)) :=
  run_inv hstep hs (hal.take n)

/-- an invariant of every step holds after every run -/
theorem run_inv_all (hstep : ∀ s a, I s → I (step s a)) {s : σ} (hs : I s) (as : List α) : I (run step s as) := by
  induction as generalizing s with
  | nil => exact hs
  | cons a as ih => exact ih (hstep s a hs)

theorem Along.and {ok' : σ → α → Prop} {s : σ} {as : List α} (h : Along step ok s as) (h' : Along step ok' s as) :
    Along step (fun s a => ok s a ∧ ok' s a) s as := by
  induction as generalizing s with
  | nil => exact trivial
  | cons a as ih => exact ⟨⟨h.1, h'.1⟩, ih h.2 h'.2⟩

/-- from one state of a run to a later one, step by step -/
theorem run_between {P : σ → Prop} {s : σ} {as : List α} {m n : ℕ} (hmn : m ≤ n) (hm : P (run step s (as.take m)))
    (hstep : ∀ j a, m ≤ j → j < n → as[j]? = some a → P (run step s (as.take j)) →
      P (step (run step s (as.take j)) a)) : P (run step s (as.take n)) := by
  induction n, hmn using Nat.le_induction with
  | base => exact hm
  | succ n hmn ih =>
    have hn := ih fun j a hj hjn => hstep j a hj (Nat.lt_succ_of_lt hjn)
    rw [take_add_one, run_append]
    cases ha : as[n]? with
    | none => exact hn
    | some a => exact hstep n a hmn (Nat.lt_succ_self n) ha hn

/-- a run in which each action stands for several -/
theorem run_flatMap {β : Type} (f : β → List α) (s : σ) (bs : List β) :
    run step s (bs.flatMap f) = run (fun s b => run step s (f b)) s bs := by
  induction bs generalizing s with
  | nil => rfl
  | cons b bs ih => rw [flatMap_cons, run_append, run_cons, ih]

/-! ## Last writes -/

section LastWrites

variable {κ ν : Type} [DecidableEq κ]

/-- the value of the last action with this key -/
def lastWrite (key : α → Option κ) (value : α → ν) (as : List α) (k : κ) : Option ν :=
  (as.reverse.find? fun a => key a = some k).map value

theorem lastWrite_concat (key : α → Option κ) (value : α → ν) (as : List α) (a : α) (k : κ) :
    lastWrite key value (as ++ [a]) k = if key a = some k then some (value a) else lastWrite key value as k := by
  unfold lastWrite
  rw [reverse_append, reverse_singleton, singleton_append, find?_cons]
  by_cases h : key a = some k <;> simp [h]

/-- **Last writes.** What a run leaves at a key is its last write to it, or what was there. -/
theorem run_lastWrite (step : σ → α → σ) (key : α → Option κ) (value : α → ν) (observe : σ → κ → ν) (I : σ → Prop) {s : σ}
    {as : List α}
    (hstep : ∀ s, ∀ a ∈ as, I s →
      I (step s a) ∧ ∀ k, observe (step s a) k = if key a = some k then value a else observe s k) (hs : I s) :
    I (run step s as) ∧ ∀ k, observe (run step s as) k = (lastWrite key value as k).getD (observe s k) := by
  induction as using List.reverseRecOn with
  | nil => exact ⟨hs, fun _ => rfl⟩
  | append_singleton as a ih =>
    obtain ⟨hI, hobserve⟩ := ih fun s b hb => hstep s b (mem_append_left [a] hb)
    obtain ⟨hI', hlast⟩ := hstep _ a (mem_append_right as (mem_singleton_self a)) hI
    rw [run_append]
    refine ⟨hI', fun k => ?_⟩
    rw [lastWrite_concat, run_cons, run_nil, hlast, hobserve]
    split_ifs <;> rfl

end LastWrites

/-! ## Histories -/

section Histories

variable {ω ε : Type} (observe : ω → ε → ω) (permits : ω → ε → Prop) (start : ω)

/-- every event of the history is permitted after the events before it -/
def Throughout (history : List ε) : Prop :=
  ∀ before e after, history = before ++ e :: after → permits (run observe start before) e

variable {observe permits start}

theorem throughout_nil : Throughout observe permits start [] := by
  intro before e after h
  cases before <;> cases h

/-- one more event -/
theorem Throughout.concat {history : List ε} {e : ε} (h : Throughout observe permits start history)
    (he : permits (run observe start history) e) : Throughout observe permits start (history ++ [e]) := by
  intro before e' after heq
  rcases eq_nil_or_concat after with rfl | ⟨after, last, rfl⟩
  · obtain ⟨rfl, hlast⟩ := append_inj' heq rfl
    cases hlast
    exact he
  · rw [concat_eq_append, ← cons_append, ← append_assoc] at heq
    exact h before e' after (append_inj' heq rfl).1

end Histories

end Hypermeow.Lib
