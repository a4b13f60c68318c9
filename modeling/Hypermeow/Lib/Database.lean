/-
A component with a memory of its own and a database behind it.

`Session γ τ` is the memory `γ`, the tables `τ`, and what the environment decides in the order in which it is asked:
which calls of the database fail, and the picks that are left to it (where an iteration starts, in which order rows
come). Both are lists that run out into success and 0, so all behaviours of finitely many calls are covered.

- `call`, `exec`, `query`: a call that may fail, a statement that changes the tables or violates a constraint, a query that
  returns its rows in any order (`shuffle`; every order is possible, `shuffle_perm` says that nothing else is).
- `NextFails`, `called`: whether the next call fails, and the session after it.
- `transaction`: what the body did to the tables is undone when begin, body or commit fail; what it did to the memory
  stays. `transaction_eq_ok`, `transaction_eq_err` say what each outcome means.
- `KeepsMemory I x`: whatever the database does, `x` leaves `I` of the memory true; closed under the code's constructs.
- `OnTables x`: `x` returns a value or an error and does not touch the memory; closed under the same constructs.
- `exec_cases`, `upholds_call`, `exec_update_keeps`: a call or statement that fails leaves memory and tables as they are.
- `Quiet`: no further call fails. Then `call`, `exec`, `query` and `transaction` return.
-/
import Hypermeow.Lib.Go

namespace Hypermeow.Lib

/-- a component with memory `γ` and tables `τ`, and the decisions of its environment -/
structure Session (γ τ : Type) where
  memory : γ
  tables : τ
  /-- which of the next calls of the database fail -/
  faults : List Bool
  /-- what is picked next -/
  picks : List ℕ

namespace Session

variable {γ τ ε α : Type}

def pick : Go (Session γ τ) ε ℕ := fun s => (.ok (s.picks.headD 0), { s with picks := s.picks.tail })

/-- a change of the memory -/
def update (f : γ → γ) : Go (Session γ τ) ε Unit := Go.modify fun s => { s with memory := f s.memory }

/-- the next call fails -/
def NextFails (s : Session γ τ) : Prop := s.faults.headD false = true

instance (s : Session γ τ) : Decidable s.NextFails := inferInstanceAs (Decidable (_ = _))

/-- the session after a call -/
def called (s : Session γ τ) : Session γ τ := { s with faults := s.faults.tail }

/-- a call of the database; `e` is its error -/
def call (e : ε) : Go (Session γ τ) ε Unit := fun s => (if s.NextFails then .err e else .ok (), s.called)

/-- the new contents of the tables; `none` is a violated constraint -/
def replaceTables (e : ε) : Option τ → Go (Session γ τ) ε Unit
  | some tables => Go.modify fun s => { s with tables := tables }
  | none => Go.throw e

/-- a statement -/
def exec (e : ε) (f : τ → Option τ) : Go (Session γ τ) ε Unit := do
  call e
  let s ← Go.get
  replaceTables e (f s.tables)

/-- the elements in an order that the environment picks -/
def shuffle : List α → Go (Session γ τ) ε (List α)
  | [] => pure []
  | x :: xs => do
    let ys ← shuffle xs
    let n ← pick
    pure (ys.insertIdx (n % (ys.length + 1)) x)

/-- a query for many rows -/
def query (e : ε) (f : τ → List α) : Go (Session γ τ) ε (List α) := do
  call e
  let s ← Go.get
  shuffle (f s.tables)

/-- begin, the body, commit -/
def committed (e : ε) (body : Go (Session γ τ) ε α) : Go (Session γ τ) ε α := do
  call e
  let a ← body
  call e
  pure a

/-- a transaction: a failure undoes the changes of the tables -/
def transaction (e : ε) (body : Go (Session γ τ) ε α) : Go (Session γ τ) ε α := fun s =>
  ((committed e body s).1,
    if (committed e body s).1.isOk then (committed e body s).2
    else { (committed e body s).2 with tables := s.tables })

@[simp] theorem pick_run (s : Session γ τ) :
    (pick : Go (Session γ τ) ε ℕ) s = (.ok (s.picks.headD 0), { s with picks := s.picks.tail }) := rfl

@[simp] theorem update_run (f : γ → γ) (s : Session γ τ) :
    (update f : Go (Session γ τ) ε Unit) s = (.ok (), { s with memory := f s.memory }) := rfl

/-! ## Transactions -/

variable {e e' : ε} {body : Go (Session γ τ) ε α} {s t : Session γ τ} {a : α}

theorem call_of_fails (h : s.NextFails) : call e s = (.err e, s.called) := by
  rw [call, if_pos h]

theorem call_of_not_fails (h : ¬s.NextFails) : call e s = (.ok (), s.called) := by
  rw [call, if_neg h]

theorem exec_of_fails {f : τ → Option τ} (h : s.NextFails) : exec e f s = (.err e, s.called) := by
  unfold exec
  rw [Go.bind_err (call_of_fails h)]

theorem exec_of_not_fails {f : τ → Option τ} {tables : τ} (h : ¬s.NextFails) (hf : f s.tables = some tables) :
    exec e f s = (.ok (), { s.called with tables := tables }) := by
  unfold exec
  rw [Go.bind_ok (call_of_not_fails h)]
  change replaceTables e (f s.tables) s.called = _
  rw [hf]
  rfl

/-- a statement that violates no constraint -/
theorem exec_update (g : τ → τ) (h : ¬s.NextFails) :
    exec e (fun t => some (g t)) s = (.ok (), { s.called with tables := g s.tables }) := exec_of_not_fails h rfl

theorem call_eq_ok {u : Unit} (h : call e s = (.ok u, t)) : t = s.called := ((Prod.mk.inj h).2).symm

/-- a statement that fails changes nothing -/
theorem exec_cases (e : ε) (f : τ → Option τ) (s : Session γ τ) :
    exec e f s = (.err e, s.called) ∨
      ∃ tables, f s.tables = some tables ∧ exec e f s = (.ok (), { s.called with tables := tables }) := by
  by_cases hf : s.NextFails
  · exact .inl (exec_of_fails hf)
  · cases hs : f s.tables with
    | none =>
      refine .inl ?_
      unfold exec
      rw [Go.bind_ok (call_of_not_fails hf)]
      change replaceTables e (f s.tables) s.called = _
      rw [hs]
      rfl
    | some tables => exact .inr ⟨tables, rfl, exec_of_not_fails hf hs⟩

theorem exec_eq_ok {f : τ → Option τ} {u : Unit} (h : exec e f s = (.ok u, t)) :
    ∃ tables, f s.tables = some tables ∧ t = { s.called with tables := tables } := by
  rcases exec_cases e f s with herr | ⟨tables, hf, hok⟩
  · rw [herr] at h
    cases h
  · rw [hok] at h
    cases h
    exact ⟨tables, hf, rfl⟩

theorem committed_eq_ok (h : committed e body s = (.ok a, t)) : ∃ u, body s.called = (.ok a, u) ∧ t = u.called := by
  unfold committed at h
  obtain ⟨_, s₁, hbegin, h⟩ := Go.bind_eq_ok.1 h
  obtain ⟨b, u, hbody, h⟩ := Go.bind_eq_ok.1 h
  obtain ⟨_, u₁, hcommit, h⟩ := Go.bind_eq_ok.1 h
  cases h
  rw [call_eq_ok hbegin] at hbody
  exact ⟨u, hbody, call_eq_ok hcommit⟩

theorem transaction_eq_ok (h : transaction e body s = (.ok a, t)) : ∃ u, body s.called = (.ok a, u) ∧ t = u.called := by
  obtain ⟨ho, ht⟩ := Prod.mk.inj h
  rw [ho] at ht
  exact committed_eq_ok (Prod.ext ho ht)

/-- a failed transaction leaves the tables as they were -/
theorem transaction_eq_err (h : transaction e body s = (.err e', t)) :
    ∃ u, committed e body s = (.err e', u) ∧ t = { u with tables := s.tables } := by
  obtain ⟨ho, ht⟩ := Prod.mk.inj h
  rw [ho] at ht
  exact ⟨_, Prod.ext ho rfl, ht.symm⟩

/-! ## Without failures -/

/-- no further call of the database fails -/
def Quiet (s : Session γ τ) : Prop := s.faults = []

theorem Quiet.not_fails (h : s.Quiet) : ¬s.NextFails := by
  rw [NextFails, h]
  exact Bool.false_ne_true

theorem Quiet.called_eq (h : s.Quiet) : s.called = s := by
  rcases s with ⟨memory, tables, faults, picks⟩
  cases (h : faults = [])
  rfl

theorem call_ok (h : s.Quiet) : call e s = (.ok (), s) := by
  rw [call_of_not_fails h.not_fails, h.called_eq]

theorem transaction_ok (h : s.Quiet) (hbody : body s = (.ok a, t)) (ht : t.Quiet) :
    transaction e body s = (.ok a, t) := by
  have hrun : committed e body s = (.ok a, t) := by
    unfold committed
    rw [Go.bind_ok (call_ok h), Go.bind_ok hbody, Go.bind_ok (call_ok ht)]
    rfl
  unfold transaction
  rw [hrun]
  rfl

/-- a shuffled list has the same elements -/
theorem shuffle_perm (xs : List α) (s : Session γ τ) :
    ∃ ys picks, (shuffle xs : Go (Session γ τ) ε (List α)) s = (.ok ys, { s with picks := picks }) ∧ ys.Perm xs := by
  induction xs generalizing s with
  | nil => exact ⟨[], s.picks, rfl, .refl []⟩
  | cons x xs ih =>
    obtain ⟨ys, picks, hrun, hperm⟩ := ih s
    refine ⟨ys.insertIdx (picks.headD 0 % (ys.length + 1)) x, picks.tail, ?_, ?_⟩
    · unfold shuffle
      rw [Go.bind_ok hrun]
      rfl
    · have hle : picks.headD 0 % (ys.length + 1) ≤ ys.length := Nat.lt_succ_iff.1 (Nat.mod_lt _ (Nat.succ_pos _))
      exact (List.perm_insertIdx x ys hle).trans (hperm.cons x)

theorem query_ok {f : τ → List α} (h : s.Quiet) :
    ∃ rows picks, query e f s = (.ok rows, { s with picks := picks }) ∧ rows.Perm (f s.tables) := by
  obtain ⟨rows, picks, hrun, hperm⟩ := shuffle_perm (ε := ε) (f s.tables) s
  refine ⟨rows, picks, ?_, hperm⟩
  unfold query
  rw [Go.bind_ok (call_ok h)]
  exact hrun

theorem exec_ok {f : τ → Option τ} {tables : τ} (h : s.Quiet) (hf : f s.tables = some tables) :
    exec e f s = (.ok (), { s with tables := tables }) := by
  rw [exec_of_not_fails h.not_fails hf, h.called_eq]

theorem exec_update_ok (g : τ → τ) (h : s.Quiet) :
    exec e (fun t => some (g t)) s = (.ok (), { s with tables := g s.tables }) := exec_ok h rfl

/-! ## Invariants of the memory -/

/-- whatever the call returns and whatever the database does, the memory keeps `I` -/
def KeepsMemory (I : γ → Prop) (x : Go (Session γ τ) ε α) : Prop := ∀ s, I s.memory → I (x s).2.memory

namespace KeepsMemory

variable {β : Type} {I : γ → Prop} {x y : Go (Session γ τ) ε α}

theorem pure (a : α) : KeepsMemory I (Pure.pure a : Go (Session γ τ) ε α) := fun _ h => h

theorem throw (e : ε) : KeepsMemory I (Go.throw e : Go (Session γ τ) ε α) := fun _ h => h

theorem get : KeepsMemory I (Go.get : Go (Session γ τ) ε (Session γ τ)) := fun _ h => h

theorem pick : KeepsMemory I (Session.pick : Go (Session γ τ) ε ℕ) := fun _ h => h

theorem update {f : γ → γ} (hf : ∀ m, I m → I (f m)) : KeepsMemory I (Session.update f : Go (Session γ τ) ε Unit) :=
  fun s h => hf s.memory h

theorem call (e : ε) : KeepsMemory I (Session.call e : Go (Session γ τ) ε Unit) := fun _ h => h

theorem bind {k : α → Go (Session γ τ) ε β} (hx : KeepsMemory I x) (hk : ∀ a, KeepsMemory I (k a)) :
    KeepsMemory I (x >>= k) := by
  intro s hs
  have h := hx s hs
  rw [Go.bind_run]
  rcases hr : x s with ⟨a | e | _, t⟩ <;> rw [hr] at h
  · exact hk a t h
  · exact h
  · exact h

theorem ite {c : Prop} [Decidable c] (hx : KeepsMemory I x) (hy : KeepsMemory I y) :
    KeepsMemory I (if c then x else y) := by
  split_ifs
  · exact hx
  · exact hy

theorem attempt {ε' : Type} (hx : KeepsMemory I x) :
    KeepsMemory I (Go.attempt x : Go (Session γ τ) ε' (Except ε α)) := by
  intro s hs
  have h := hx s hs
  rw [Go.attempt]
  rcases hr : x s with ⟨a | e | _, t⟩ <;> rw [hr] at h <;> exact h

theorem exec (e : ε) (f : τ → Option τ) : KeepsMemory I (Session.exec e f : Go (Session γ τ) ε Unit) := by
  refine (call e).bind fun _ => get.bind fun s => ?_
  cases f s.tables with
  | none => exact throw e
  | some t => exact fun _ h => h

theorem query (e : ε) (f : τ → List α) : KeepsMemory I (Session.query e f : Go (Session γ τ) ε (List α)) := by
  refine (call e).bind fun _ => get.bind fun s => ?_
  intro t ht
  obtain ⟨ys, picks, hrun, -⟩ := shuffle_perm (ε := ε) (f s.tables) t
  rw [hrun]
  exact ht

theorem transaction (e : ε) (hx : KeepsMemory I x) : KeepsMemory I (Session.transaction e x) := by
  intro s hs
  have h : I (committed e x s).2.memory := (call e).bind (fun _ => hx.bind fun _ => (call e).bind fun _ => pure _) s hs
  unfold Session.transaction
  dsimp only
  split_ifs
  · exact h
  · exact h

end KeepsMemory

/-! ## Conditions on memory and tables -/

section Conditions

variable {I P : γ → τ → Prop}

/-- a failed call leaves memory and tables as they are -/
theorem upholds_call (e : ε) (hI : ∀ m t, P m t → I m t) :
    Go.Upholds (fun s => I s.memory s.tables) (fun s => P s.memory s.tables) (call e : Go (Session γ τ) ε Unit)
      fun _ s => P s.memory s.tables := by
  intro s hs
  by_cases hf : s.NextFails
  · rw [call_of_fails hf]
    exact hI _ _ hs
  · rw [call_of_not_fails hf]
    exact hs

/-- what a statement keeps that violates no constraint -/
theorem exec_update_keeps (e : ε) {g : τ → τ} (hg : ∀ m t, I m t → I m (g t)) (hs : I s.memory s.tables) :
    I (exec e (fun t => some (g t)) s).2.memory (exec e (fun t => some (g t)) s).2.tables := by
  rcases exec_cases e (fun t => some (g t)) s with herr | ⟨tables, htables, hok⟩
  · rw [herr]
    exact hs
  · rw [hok]
    cases htables
    exact hg _ _ hs

end Conditions

/-! ## Work on the tables -/

/-- whatever the database does, the call returns a value or an error and leaves the memory alone -/
def OnTables (x : Go (Session γ τ) ε α) : Prop := ∀ s, ∃ s', s'.memory = s.memory ∧
  ((∃ a, x s = (.ok a, s')) ∨ ∃ e, x s = (.err e, s'))

namespace OnTables

variable {β : Type} {x : Go (Session γ τ) ε α}

theorem pure (a : α) : OnTables (Pure.pure a : Go (Session γ τ) ε α) := fun s => ⟨s, rfl, .inl ⟨a, rfl⟩⟩

theorem get : OnTables (Go.get : Go (Session γ τ) ε (Session γ τ)) := fun s => ⟨s, rfl, .inl ⟨s, rfl⟩⟩

theorem call (e : ε) : OnTables (Session.call e : Go (Session γ τ) ε Unit) := by
  intro s
  refine ⟨s.called, rfl, ?_⟩
  by_cases h : s.NextFails
  · exact .inr ⟨e, call_of_fails h⟩
  · exact .inl ⟨(), call_of_not_fails h⟩

theorem bind {k : α → Go (Session γ τ) ε β} (hx : OnTables x) (hk : ∀ a, OnTables (k a)) : OnTables (x >>= k) := by
  intro s
  obtain ⟨t, ht, ⟨a, hrun⟩ | ⟨e, hrun⟩⟩ := hx s
  · obtain ⟨u, hu, h⟩ := hk a t
    rw [Go.bind_ok hrun]
    exact ⟨u, hu.trans ht, h⟩
  · exact ⟨t, ht, .inr ⟨e, Go.bind_err hrun⟩⟩

theorem exec (e : ε) (g : τ → τ) : OnTables (Session.exec e (fun t => some (g t)) : Go (Session γ τ) ε Unit) := by
  intro s
  by_cases h : s.NextFails
  · exact ⟨s.called, rfl, .inr ⟨e, exec_of_fails h⟩⟩
  · exact ⟨{ s.called with tables := g s.tables }, rfl, .inl ⟨(), exec_update g h⟩⟩

theorem transaction (e : ε) (hx : OnTables x) : OnTables (Session.transaction e x) := by
  intro s
  have hcommitted : OnTables (committed e x) := (call e).bind fun _ => hx.bind fun a => (call e).bind fun _ => pure a
  obtain ⟨t, ht, ⟨a, hrun⟩ | ⟨e', hrun⟩⟩ := hcommitted s
  · refine ⟨t, ht, .inl ⟨a, ?_⟩⟩
    unfold Session.transaction
    rw [hrun]
    rfl
  · refine ⟨{ t with tables := s.tables }, ht, .inr ⟨e', ?_⟩⟩
    unfold Session.transaction
    rw [hrun]
    rfl

end OnTables

end Session

end Hypermeow.Lib
