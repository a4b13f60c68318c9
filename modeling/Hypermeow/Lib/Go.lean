/-
A shallow embedding of methods with a mutable receiver, in the style of Go.

A call on a receiver of type `σ` returns a value, returns an error, or panics (an index or a slice bound out of range, a
send on a closed channel). Writes made before an error or a panic stay: the receiver is part of the outcome in every
case, so `Go` is not the usual error monad, which forgets the state.

- `Outcome`: what a call ends with.
- `Go σ ε α`: a method; `pure`, `bind`, `throw`, `crash`, `mapErr`, the accessors `get`, `modify`, and `zoom` for a method
  of a part of the receiver.
- `bind_eq_ok`: a sequence returns a value exactly when both parts do. The monad laws hold.
- `Keeps f x`: whatever `x` returns, it leaves `f` of the receiver alone; closed under sequences and branches.
- `Grows f x`: whatever `x` returns, it does not decrease `f` of the receiver.
- `Le x y`: whenever `x` returns a value, `y` does the same. `Extends x y`: whenever `x` does not panic.
- `Triple P x Q E`: from every receiver in `P`, `x` does not panic, ends in `Q` when it returns a value and in `E` when
  it returns an error. `Triple.bind` and `Triple.conseq` compose such facts along the code.
- `Upholds I P x Q`: from every receiver in `P`, a value ends in `Q` and everything else, a panic included, in `I`.
- `Raises I x Q`: from every receiver in `I`, `x` stays in `I` and returns only errors in `Q`.
- `NoPanic x s`: started at `s`, `x` returns. `noPanic_bind` splits a sequence into its parts.
- `exists_of_mapM_ok`, `mem_of_mapM_ok`, `mapM_returns`: loops that stop at the first error.
-/
import Mathlib.Tactic

namespace Hypermeow.Lib

/-- the outcome of a call: a value, a returned error, or a panic -/
inductive Outcome (ε α : Type) where
  | ok (a : α)
  | err (e : ε)
  | panic
deriving DecidableEq, Repr

/-- did the call return a value? -/
def Outcome.isOk {ε α : Type} : Outcome ε α → Bool
  | .ok _ => true
  | _ => false

/-- a result that cannot panic -/
def Outcome.ofExcept {ε α : Type} : Except ε α → Outcome ε α
  | .ok a => .ok a
  | .error e => .err e

/-- a method on a mutable receiver `σ`; the receiver is kept also when the call fails -/
def Go (σ ε α : Type) : Type := σ → Outcome ε α × σ

namespace Go

variable {σ ε α β : Type}

protected def pure (a : α) : Go σ ε α := fun s => (.ok a, s)

protected def bind (x : Go σ ε α) (f : α → Go σ ε β) : Go σ ε β := fun s =>
  match x s with
  | (.ok a, t) => f a t
  | (.err e, t) => (.err e, t)
  | (.panic, t) => (.panic, t)

instance : Monad (Go σ ε) where
  pure := Go.pure
  bind := Go.bind

/-- return the error `e` -/
def throw (e : ε) : Go σ ε α := fun s => (.err e, s)

/-- a run-time panic -/
def crash : Go σ ε α := fun s => (.panic, s)

def get : Go σ ε σ := fun s => (.ok s, s)

def modify (f : σ → σ) : Go σ ε Unit := fun s => (.ok (), f s)

/-- the error that `x` returns, wrapped -/
def mapErr {ε' : Type} (f : ε → ε') (x : Go σ ε α) : Go σ ε' α := fun s =>
  match x s with
  | (.ok a, t) => (.ok a, t)
  | (.err e, t) => (.err (f e), t)
  | (.panic, t) => (.panic, t)

/-- the error of `x` as a value -/
def attempt {ε' : Type} (x : Go σ ε α) : Go σ ε' (Except ε α) := fun s =>
  match x s with
  | (.ok a, t) => (.ok (.ok a), t)
  | (.err e, t) => (.ok (.error e), t)
  | (.panic, t) => (.panic, t)

/-- a method of a part of the receiver -/
def zoom {τ : Type} (part : τ → σ) (put : σ → τ → τ) (x : Go σ ε α) : Go τ ε α := fun t =>
  ((x (part t)).1, put (x (part t)).2 t)

@[simp] theorem pure_run (a : α) (s : σ) : (pure a : Go σ ε α) s = (.ok a, s) := rfl

@[simp] theorem throw_run (e : ε) (s : σ) : (throw e : Go σ ε α) s = (.err e, s) := rfl

@[simp] theorem get_run (s : σ) : (get : Go σ ε σ) s = (.ok s, s) := rfl

@[simp] theorem modify_run (f : σ → σ) (s : σ) : (modify f : Go σ ε Unit) s = (.ok (), f s) := rfl

theorem get_bind (f : σ → Go σ ε β) (s : σ) : (get >>= f) s = f s s := rfl

theorem modify_bind (g : σ → σ) (f : Unit → Go σ ε β) (s : σ) : (modify g >>= f) s = f () (g s) := rfl

theorem bind_run (x : Go σ ε α) (f : α → Go σ ε β) (s : σ) :
    (x >>= f) s = match x s with
      | (.ok a, t) => f a t
      | (.err e, t) => (.err e, t)
      | (.panic, t) => (.panic, t) := rfl

section

variable {ε' : Type} {x : Go σ ε α} {f : α → Go σ ε β} {s t u : σ} {a : α} {b : β} {e : ε}

theorem bind_ok (h : x s = (.ok a, t)) : (x >>= f) s = f a t := by
  rw [bind_run, h]

theorem bind_err (h : x s = (.err e, t)) : (x >>= f) s = (.err e, t) := by
  rw [bind_run, h]

theorem err_ne_ok : ((.err e : Outcome ε α), s) ≠ (.ok a, t) := by simp

theorem panic_ne_ok : ((.panic : Outcome ε α), s) ≠ (.ok a, t) := by simp

/-- when the first part returns no value, the second does not run -/
theorem bind_of_not_ok (h : ∀ a t, x s ≠ (.ok a, t)) :
    ((x >>= f) s).2 = (x s).2 ∧ ∀ b t, (x >>= f) s ≠ (.ok b, t) := by
  rw [bind_run]
  rcases hx : x s with ⟨a | e | _, t⟩
  · exact absurd hx (h a t)
  · exact ⟨rfl, fun _ _ => err_ne_ok⟩
  · exact ⟨rfl, fun _ _ => panic_ne_ok⟩

/-- only what is done after a value matters -/
theorem bind_congr {g : α → Go σ ε β} (h : ∀ a t, x s = (.ok a, t) → f a t = g a t) : (x >>= f) s = (x >>= g) s := by
  rw [bind_run, bind_run]
  rcases hx : x s with ⟨a | e | _, t⟩
  · exact h a t hx
  · rfl
  · rfl

/-- a sequence returns a value exactly when both of its parts do -/
theorem bind_eq_ok : (x >>= f) s = (.ok b, u) ↔ ∃ a t, x s = (.ok a, t) ∧ f a t = (.ok b, u) := by
  rw [bind_run]
  rcases x s with ⟨_ | _ | _, t⟩ <;> simp

theorem exists_of_isOk (h : (x s).1.isOk = true) : ∃ a t, x s = (.ok a, t) := by
  rcases hx : x s with ⟨a | e | _, t⟩ <;> rw [hx] at h
  · exact ⟨a, t, rfl⟩
  · cases h
  · cases h

theorem mapErr_ok {f : ε → ε'} (h : x s = (.ok a, t)) : mapErr f x s = (.ok a, t) := by
  rw [mapErr, h]

theorem mapErr_err {f : ε → ε'} (h : x s = (.err e, t)) : mapErr f x s = (.err (f e), t) := by
  rw [mapErr, h]

theorem mapErr_eq_ok {f : ε → ε'} : mapErr f x s = (.ok a, t) ↔ x s = (.ok a, t) := by
  rw [mapErr]
  rcases x s with ⟨_ | _ | _, u⟩ <;> simp

theorem attempt_eq_ok : (attempt x : Go σ ε' (Except ε α)) s = (.ok (.ok a), t) ↔ x s = (.ok a, t) := by
  rw [attempt]
  rcases x s with ⟨_ | _ | _, u⟩ <;> simp

theorem attempt_eq_error : (attempt x : Go σ ε' (Except ε α)) s = (.ok (.error e), t) ↔ x s = (.err e, t) := by
  rw [attempt]
  rcases x s with ⟨_ | _ | _, u⟩ <;> simp

end

theorem zoom_run {τ : Type} {part : τ → σ} {put : σ → τ → τ} {x : Go σ ε α} {t : τ} {o : Outcome ε α} {s : σ}
    (h : x (part t) = (o, s)) : zoom part put x t = (o, put s t) := by
  rw [zoom, h]

instance : LawfulMonad (Go σ ε) :=
  LawfulMonad.mk' (Go σ ε)
    (by
      intro α x
      funext s
      change (x >>= fun a => pure (id a)) s = x s
      rw [bind_run]
      rcases x s with ⟨_ | _ | _, t⟩ <;> rfl)
    (fun _ _ => rfl)
    (by
      intro α β γ x f g
      funext s
      simp only [bind_run]
      rcases x s with ⟨_ | _ | _, t⟩ <;> rfl)

/-! ## What a call leaves alone -/

/-- the call does not change `f` of the receiver, whatever it returns -/
def Keeps {τ : Type} (f : σ → τ) (x : Go σ ε α) : Prop := ∀ s, f (x s).2 = f s

namespace Keeps

variable {τ : Type} {f : σ → τ} {x : Go σ ε α}

theorem pure (a : α) : Keeps f (Pure.pure a : Go σ ε α) := fun _ => rfl

theorem throw (e : ε) : Keeps f (Go.throw e : Go σ ε α) := fun _ => rfl

theorem crash : Keeps f (Go.crash : Go σ ε α) := fun _ => rfl

theorem get : Keeps f (Go.get : Go σ ε σ) := fun _ => rfl

theorem modify {g : σ → σ} (h : ∀ s, f (g s) = f s) : Keeps f (Go.modify g : Go σ ε Unit) := h

theorem bind {k : α → Go σ ε β} (hx : Keeps f x) (hk : ∀ a, Keeps f (k a)) : Keeps f (x >>= k) := by
  intro s
  have h := hx s
  rw [bind_run]
  rcases hr : x s with ⟨a | e | _, t⟩ <;> rw [hr] at h
  · exact (hk a t).trans h
  · exact h
  · exact h

theorem mapErr {ε' : Type} {g : ε → ε'} (hx : Keeps f x) : Keeps f (Go.mapErr g x) := by
  intro s
  have h := hx s
  rw [Go.mapErr]
  rcases hr : x s with ⟨a | e | _, t⟩ <;> rw [hr] at h <;> exact h

theorem ite {c : Prop} [Decidable c] {y : Go σ ε α} (hx : Keeps f x) (hy : Keeps f y) :
    Keeps f (if c then x else y) := by
  split_ifs
  · exact hx
  · exact hy

theorem run {s t : σ} {o : Outcome ε α} (hx : Keeps f x) (h : x s = (o, t)) : f t = f s := by
  have := hx s
  rwa [h] at this

end Keeps

/-! ## What only grows -/

/-- the call does not decrease `f` of the receiver, whatever it returns -/
def Grows {τ : Type} [Preorder τ] (f : σ → τ) (x : Go σ ε α) : Prop := ∀ s, f s ≤ f (x s).2

namespace Grows

variable {τ : Type} [Preorder τ] {f : σ → τ} {x : Go σ ε α}

theorem of_keeps (hx : Keeps f x) : Grows f x := fun s => (hx s).ge

theorem bind {k : α → Go σ ε β} (hx : Grows f x) (hk : ∀ a, Grows f (k a)) : Grows f (x >>= k) := by
  intro s
  have h := hx s
  rw [bind_run]
  rcases hr : x s with ⟨a | e | _, t⟩ <;> rw [hr] at h
  · exact h.trans (hk a t)
  · exact h
  · exact h

theorem attempt {ε' : Type} (hx : Grows f x) : Grows f (Go.attempt x : Go σ ε' (Except ε α)) := by
  intro s
  have h := hx s
  rw [Go.attempt]
  rcases hr : x s with ⟨a | e | _, t⟩ <;> rw [hr] at h <;> exact h

theorem ite {c : Prop} [Decidable c] {y : Go σ ε α} (hx : Grows f x) (hy : Grows f y) :
    Grows f (if c then x else y) := by
  split_ifs
  · exact hx
  · exact hy

theorem run {s t : σ} {o : Outcome ε α} (hx : Grows f x) (h : x s = (o, t)) : f s ≤ f t := by
  have := hx s
  rwa [h] at this

end Grows

/-! ## Success carried over -/

/-- whenever `x` returns a value, `y` does the same -/
def Le (x y : Go σ ε α) : Prop := ∀ s a t, x s = (.ok a, t) → y s = (.ok a, t)

namespace Le

variable {x y : Go σ ε α}

theorem refl (x : Go σ ε α) : Le x x := fun _ _ _ h => h

theorem throw (e : ε) (y : Go σ ε α) : Le (Go.throw e) y := fun _ _ _ h => nomatch h

theorem bind {k l : α → Go σ ε β} (hxy : Le x y) (hkl : ∀ a, Le (k a) (l a)) : Le (x >>= k) (y >>= l) := by
  intro s b u h
  obtain ⟨a, t, hx, hk⟩ := bind_eq_ok.1 h
  exact bind_eq_ok.2 ⟨a, t, hxy s a t hx, hkl a t b u hk⟩

theorem mapErr {ε' : Type} {f : ε → ε'} (hxy : Le x y) : Le (Go.mapErr f x) (Go.mapErr f y) :=
  fun s a t h => mapErr_eq_ok.2 (hxy s a t (mapErr_eq_ok.1 h))

end Le

/-- whenever `x` does not panic, `y` does the same -/
def Extends (x y : Go σ ε α) : Prop := ∀ s, (x s).1 ≠ .panic → y s = x s

namespace Extends

variable {x y : Go σ ε α}

theorem refl (x : Go σ ε α) : Extends x x := fun _ _ => rfl

theorem crash (y : Go σ ε α) : Extends Go.crash y := fun _ h => absurd rfl h

theorem bind {k l : α → Go σ ε β} (hxy : Extends x y) (hkl : ∀ a, Extends (k a) (l a)) :
    Extends (x >>= k) (y >>= l) := by
  intro s h
  have hx := hxy s
  rw [bind_run] at h ⊢
  rcases hr : x s with ⟨a | e | _, t⟩ <;> rw [hr] at h hx
  · rw [hx (by simp)]
    rw [bind_run, hr]
    exact hkl a t h
  · rw [hx (by simp), bind_run, hr]
  · exact absurd rfl h

theorem ite {c : Prop} [Decidable c] {x' y' : Go σ ε α} (hxy : Extends x y) (hxy' : Extends x' y') :
    Extends (if c then x else x') (if c then y else y') := by
  split_ifs
  · exact hxy
  · exact hxy'

theorem map (f : α → β) (hxy : Extends x y) : Extends (f <$> x) (f <$> y) := hxy.bind fun _ => refl _

end Extends

/-! ## Pre- and postconditions -/

/-- from every receiver in `P`, the call does not panic, a value ends in `Q` and an error in `E` -/
def Triple (P : σ → Prop) (x : Go σ ε α) (Q : α → σ → Prop) (E : σ → Prop) : Prop :=
  ∀ s, P s → match x s with
    | (.ok a, t) => Q a t
    | (.err _, t) => E t
    | (.panic, _) => False

namespace Triple

variable {P P' : σ → Prop} {Q Q' : α → σ → Prop} {E E' : σ → Prop} {R : β → σ → Prop} {x : Go σ ε α}

theorem pure (a : α) : Triple (Q a) (Pure.pure a : Go σ ε α) Q E := fun _ h => h

theorem bind {f : α → Go σ ε β} (hx : Triple P x Q E) (hf : ∀ a, Triple (Q a) (f a) R E) : Triple P (x >>= f) R E := by
  intro s hs
  have h := hx s hs
  rw [bind_run]
  rcases hr : x s with ⟨a | e | _, t⟩ <;> rw [hr] at h
  · exact hf a t h
  · exact h
  · exact h

theorem conseq (hx : Triple P x Q E) (hP : ∀ s, P' s → P s) (hQ : ∀ a s, Q a s → Q' a s) (hE : ∀ s, E s → E' s) :
    Triple P' x Q' E' := by
  intro s hs
  have h := hx s (hP s hs)
  rcases hr : x s with ⟨a | e | _, t⟩ <;> rw [hr] at h
  · exact hQ a t h
  · exact hE t h
  · exact h

/-- without an error case the call returns a value -/
theorem exists_ok {s : σ} (hx : Triple P x Q fun _ => False) (hs : P s) : ∃ a t, x s = (.ok a, t) ∧ Q a t := by
  have h := hx s hs
  rcases hr : x s with ⟨a | e | _, t⟩ <;> rw [hr] at h
  · exact ⟨a, t, rfl, h⟩
  · exact h.elim
  · exact h.elim

end Triple

/-- from every receiver in `P`, a value ends in `Q`; whatever else happens, a crash included, ends in `I` -/
def Upholds (I P : σ → Prop) (x : Go σ ε α) (Q : α → σ → Prop) : Prop :=
  ∀ s, P s → match x s with
    | (.ok a, t) => Q a t
    | (.err _, t) => I t
    | (.panic, t) => I t

namespace Upholds

variable {I P P' : σ → Prop} {Q Q' : α → σ → Prop} {R : β → σ → Prop} {x : Go σ ε α}

theorem pure (a : α) : Upholds I (Q a) (Pure.pure a : Go σ ε α) Q := fun _ h => h

theorem throw (e : ε) : Upholds I I (Go.throw e : Go σ ε α) Q := fun _ h => h

/-- a call that leaves `f` alone keeps its value -/
theorem of_keeps {τ : Type} {f : σ → τ} {x : Go σ ε α} (hx : Keeps f x) (v : τ) :
    Upholds (fun s => f s = v) (fun s => f s = v) x fun _ s => f s = v := by
  intro s hs
  have h := (hx s).trans hs
  rcases hr : x s with ⟨a | e | _, t⟩ <;> rw [hr] at h <;> exact h

theorem crash : Upholds I I (Go.crash : Go σ ε α) Q := fun _ h => h

section

variable (hx : Upholds I P x Q)
include hx

theorem bind {f : α → Go σ ε β} (hf : ∀ a, Upholds I (Q a) (f a) R) : Upholds I P (x >>= f) R := by
  intro s hs
  have h := hx s hs
  rw [bind_run]
  rcases hr : x s with ⟨a | e | _, t⟩ <;> rw [hr] at h
  · exact hf a t h
  · exact h
  · exact h

theorem conseq (hP : ∀ s, P' s → P s) (hQ : ∀ a s, Q a s → Q' a s) : Upholds I P' x Q' := by
  intro s hs
  have h := hx s (hP s hs)
  rcases hr : x s with ⟨a | e | _, t⟩ <;> rw [hr] at h
  · exact hQ a t h
  · exact h
  · exact h

theorem attempt {ε' : Type} :
    Upholds I P (Go.attempt x : Go σ ε' (Except ε α)) fun r s =>
      match r with
      | .ok a => Q a s
      | .error _ => I s := by
  intro s hs
  have h := hx s hs
  rw [Go.attempt]
  rcases hr : x s with ⟨a | e | _, t⟩ <;> rw [hr] at h <;> exact h

theorem mapErr {ε' : Type} {f : ε → ε'} : Upholds I P (Go.mapErr f x) Q := by
  intro s hs
  have h := hx s hs
  rw [Go.mapErr]
  rcases hr : x s with ⟨a | e | _, t⟩ <;> rw [hr] at h <;> exact h

/-- the state after the call, when a value leaves the invariant intact too -/
theorem inv {s : σ} (hQ : ∀ a s, Q a s → I s) (hs : P s) : I (x s).2 := by
  have h := hx s hs
  rcases hr : x s with ⟨a | e | _, t⟩ <;> rw [hr] at h
  · exact hQ a t h
  · exact h
  · exact h

end

end Upholds

/-- from every receiver in `I`, the call stays in `I`, and an error that it returns is in `Q` -/
def Raises (I : σ → Prop) (x : Go σ ε α) (Q : ε → Prop) : Prop :=
  ∀ s, I s → I (x s).2 ∧ ∀ e, (x s).1 = .err e → Q e

namespace Raises

variable {I : σ → Prop} {Q : ε → Prop} {x : Go σ ε α}

theorem pure (a : α) : Raises I (Pure.pure a : Go σ ε α) Q := fun _ h => ⟨h, fun _ he => by cases he⟩

theorem throw {e : ε} (he : Q e) : Raises I (Go.throw e : Go σ ε α) Q := by
  intro s hs
  refine ⟨hs, fun e' h => ?_⟩
  cases h
  exact he

theorem crash : Raises I (Go.crash : Go σ ε α) Q := fun _ h => ⟨h, fun _ he => by cases he⟩

theorem get : Raises I (Go.get : Go σ ε σ) Q := fun _ h => ⟨h, fun _ he => by cases he⟩

theorem bind {f : α → Go σ ε β} (hx : Raises I x Q) (hf : ∀ a, Raises I (f a) Q) : Raises I (x >>= f) Q := by
  intro s hs
  have h := hx s hs
  rw [bind_run]
  rcases hr : x s with ⟨a | e | _, t⟩ <;> rw [hr] at h
  · exact hf a t h.1
  · refine ⟨h.1, fun e' he => ?_⟩
    cases he
    exact h.2 e rfl
  · exact ⟨h.1, fun _ he => by cases he⟩

theorem mapErr {ε' : Type} {f : ε → ε'} {P : ε' → Prop} (hx : Raises I x Q) (hf : ∀ e, Q e → P (f e)) :
    Raises I (Go.mapErr f x) P := by
  intro s hs
  have h := hx s hs
  rw [Go.mapErr]
  rcases hr : x s with ⟨a | e | _, t⟩ <;> rw [hr] at h
  · exact ⟨h.1, fun _ he => by cases he⟩
  · refine ⟨h.1, fun e' he => ?_⟩
    cases he
    exact hf e (h.2 e rfl)
  · exact ⟨h.1, fun _ he => by cases he⟩

theorem ite {c : Prop} [Decidable c] {y : Go σ ε α} (hx : Raises I x Q) (hy : Raises I y Q) :
    Raises I (if c then x else y) Q := by
  split_ifs
  · exact hx
  · exact hy

end Raises

/-! ## Panics -/

/-- started at `s`, the call returns: with a value or with an error -/
def NoPanic (x : Go σ ε α) (s : σ) : Prop := (x s).1 ≠ .panic

section NoPanic

variable {x : Go σ ε α} {s : σ}

@[simp] theorem noPanic_pure (a : α) (s : σ) : NoPanic (pure a : Go σ ε α) s := by simp [NoPanic]

@[simp] theorem noPanic_throw (e : ε) (s : σ) : NoPanic (throw e : Go σ ε α) s := by simp [NoPanic]

@[simp] theorem noPanic_crash (s : σ) : ¬ NoPanic (crash : Go σ ε α) s := fun h => h rfl

@[simp] theorem noPanic_get (s : σ) : NoPanic (get : Go σ ε σ) s := by simp [NoPanic]

@[simp] theorem noPanic_modify (f : σ → σ) (s : σ) : NoPanic (modify f : Go σ ε Unit) s := by simp [NoPanic]

/-- a sequence panics in its first part, or after it in its second -/
theorem noPanic_bind {f : α → Go σ ε β} :
    NoPanic (x >>= f) s ↔ NoPanic x s ∧ ∀ a t, x s = (.ok a, t) → NoPanic (f a) t := by
  rw [NoPanic, NoPanic, bind_run]
  rcases hx : x s with ⟨a | e | _, t⟩
  · refine ⟨fun h => ⟨by simp, ?_⟩, fun h => h.2 a t rfl⟩
    intro a' t' heq
    cases heq
    exact h
  · exact iff_of_true (by simp) ⟨by simp, fun _ _ h => absurd h err_ne_ok⟩
  · exact iff_of_false (by simp) (by simp)

theorem noPanic_bind_of_ok {f : α → Go σ ε β} {t : σ} {a : α} (h : x s = (.ok a, t)) :
    NoPanic (x >>= f) s ↔ NoPanic (f a) t := by
  rw [NoPanic, bind_ok h, NoPanic]

@[simp] theorem noPanic_mapErr {ε' : Type} {f : ε → ε'} : NoPanic (mapErr f x) s ↔ NoPanic x s := by
  rw [NoPanic, NoPanic, mapErr]
  rcases x s with ⟨_ | _ | _, t⟩ <;> simp

/-- a method without errors returns unless it panics -/
theorem returns_of_noPanic {x : Go σ Empty α} (h : NoPanic x s) : ∃ a t, x s = (.ok a, t) := by
  rcases hx : x s with ⟨a | e | _, t⟩
  · exact ⟨a, t, rfl⟩
  · exact e.elim
  · exact absurd (congrArg Prod.fst hx) h

end NoPanic

end Go

/-! ## Loops that stop at the first error -/

section mapM

variable {ε α β : Type} {f : α → Except ε β} {l : List α} {ys : List β}

theorem mapM_cons_eq_ok {x : α} :
    (x :: l).mapM f = .ok ys ↔ ∃ y ys', f x = .ok y ∧ l.mapM f = .ok ys' ∧ ys = y :: ys' := by
  rw [List.mapM_cons]
  rcases f x with e | y
  · simp [bind, Except.bind]
  · rcases l.mapM f with e | ys'
    · simp [bind, Except.bind]
    · simp [bind, Except.bind, pure, Except.pure, eq_comm]

/-- what comes out of the loop comes from an element -/
theorem exists_of_mapM_ok (h : l.mapM f = .ok ys) {y : β} (hy : y ∈ ys) : ∃ x ∈ l, f x = .ok y := by
  induction l generalizing ys with
  | nil =>
    cases h
    cases hy
  | cons x l ih =>
    obtain ⟨y', ys', hx, hl, rfl⟩ := mapM_cons_eq_ok.1 h
    rcases List.mem_cons.1 hy with rfl | hy
    · exact ⟨x, List.mem_cons_self, hx⟩
    · obtain ⟨x', hx', hf⟩ := ih hl hy
      exact ⟨x', List.mem_cons_of_mem x hx', hf⟩

/-- a loop whose rounds all give `g` gives all of them -/
theorem eq_map_of_mapM_ok {g : α → β} (h : l.mapM f = .ok ys) (hf : ∀ x y, f x = .ok y → y = g x) : ys = l.map g := by
  induction l generalizing ys with
  | nil =>
    cases h
    rfl
  | cons x l ih =>
    obtain ⟨y, ys', hx, hl, rfl⟩ := mapM_cons_eq_ok.1 h
    rw [List.map_cons, hf x y hx, ih hl]

theorem mapM_returns (h : ∀ x ∈ l, ∃ y, f x = .ok y) : ∃ ys, l.mapM f = .ok ys := by
  induction l with
  | nil => exact ⟨[], rfl⟩
  | cons x l ih =>
    obtain ⟨y, hy⟩ := h x List.mem_cons_self
    obtain ⟨ys, hys⟩ := ih fun x' hx' => h x' (List.mem_cons_of_mem x hx')
    exact ⟨y :: ys, mapM_cons_eq_ok.2 ⟨y, ys, hy, hys, rfl⟩⟩

/-- every element has its result among those of the loop -/
theorem mem_of_mapM_ok (h : l.mapM f = .ok ys) {x : α} (hx : x ∈ l) : ∃ y ∈ ys, f x = .ok y := by
  induction l generalizing ys with
  | nil => cases hx
  | cons x' l ih =>
    obtain ⟨y, ys', hx', hl, rfl⟩ := mapM_cons_eq_ok.1 h
    rcases List.mem_cons.1 hx with rfl | hx
    · exact ⟨y, List.mem_cons_self, hx'⟩
    · obtain ⟨y', hy', hf⟩ := ih hl hx
      exact ⟨y', List.mem_cons_of_mem y hy', hf⟩

end mapM

end Hypermeow.Lib
