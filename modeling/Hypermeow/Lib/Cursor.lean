/-
Writers that append to a byte string and readers that move a position along one.

A reader's receiver is a `Cursor`: the data and the index of the next unread element. Readers that call each other
recursively are given fuel, a bound on how deep the calls nest.

- `Reads x e a`: standing before `e`, whatever comes before and after it, `x` returns `a` and stops right behind `e`.
- `Writes x e`: `x` appends `e`.
- `RoundTrip w r a`: `w` writes some `e` and `r`, with fuel for the length of `e`, reads `a` from it. `RoundTrip.bind`
  follows the sequence in both programs, so that a codec is verified along its text.
- `Robust n cost x`: from every position with at most `n` unread elements, `x` does not panic, stays inside the data,
  never moves back, and a value `a` that it returns was paid for with at least `cost a` elements.
-/
import Hypermeow.Lib.Slice

namespace Hypermeow.Lib

open List

/-- a position in a list: the elements before `index` were read -/
structure Cursor (α : Type) where
  data : List α
  index : ℕ
deriving DecidableEq, Repr

variable {α β γ ε ε' : Type}

/-! ## Reading back what was written -/

def Reads (x : Go (Cursor α) ε β) (e : List α) (a : β) : Prop :=
  ∀ before after, x ⟨before ++ (e ++ after), before.length⟩ =
    (.ok a, ⟨before ++ (e ++ after), before.length + e.length⟩)

theorem Reads.pure (a : β) : Reads (Pure.pure a : Go (Cursor α) ε β) [] a := fun _ _ => rfl

theorem Reads.bind {x : Go (Cursor α) ε β} {k : β → Go (Cursor α) ε γ} {e e' : List α} {a : β} {b : γ}
    (hx : Reads x e a) (hk : Reads (k a) e' b) : Reads (x >>= k) (e ++ e') b := by
  intro before after
  have h₁ := hx before (e' ++ after)
  have h₂ := hk (before ++ e) after
  rw [append_assoc, length_append] at h₂
  rw [append_assoc, Go.bind_ok h₁, h₂, length_append, Nat.add_assoc]

theorem Reads.map {x : Go (Cursor α) ε β} {e : List α} {a : β} (f : β → γ) (h : Reads x e a) :
    Reads (f <$> x) e (f a) := by
  have hf : Reads (x >>= fun b => Pure.pure (f b)) (e ++ []) (f a) := h.bind (Reads.pure (f a))
  rwa [append_nil] at hf

def Writes (x : Go (List α) ε Unit) (e : List α) : Prop := ∀ w, x w = (.ok (), w ++ e)

theorem Writes.pure : Writes (Pure.pure () : Go (List α) ε Unit) [] := by
  intro w
  rw [append_nil]
  rfl

theorem Writes.bind {x y : Go (List α) ε Unit} {e e' : List α} (hx : Writes x e) (hy : Writes y e') :
    Writes (x >>= fun _ => y) (e ++ e') := by
  intro w
  rw [Go.bind_ok (hx w), hy, append_assoc]

/-- `r` reads `a` from what `w` writes, when its fuel covers the length of that -/
def RoundTrip (w : Go (List α) ε Unit) (r : ℕ → Go (Cursor α) ε' β) (a : β) : Prop :=
  ∃ e, Writes w e ∧ ∀ fuel, e.length ≤ fuel → Reads (r fuel) e a

namespace RoundTrip

variable {w w' : Go (List α) ε Unit} {r : ℕ → Go (Cursor α) ε' β} {a : β}

theorem of_reads {r : Go (Cursor α) ε' β} {e : List α} (hw : Writes w e) (hr : Reads r e a) :
    RoundTrip w (fun _ => r) a :=
  ⟨e, hw, fun _ _ => hr⟩

theorem pure (a : β) : RoundTrip (Pure.pure () : Go (List α) ε Unit) (fun _ => (Pure.pure a : Go (Cursor α) ε' β)) a :=
  of_reads Writes.pure (Reads.pure a)

theorem bind {k : ℕ → β → Go (Cursor α) ε' γ} {b : γ} (h : RoundTrip w r a) (h' : RoundTrip w' (fun fuel => k fuel a) b) :
    RoundTrip (w >>= fun _ => w') (fun fuel => r fuel >>= k fuel) b := by
  obtain ⟨e, hw, hr⟩ := h
  obtain ⟨e', hw', hr'⟩ := h'
  refine ⟨e ++ e', hw.bind hw', ?_⟩
  intro fuel hf
  rw [length_append] at hf
  exact (hr fuel (by omega)).bind (hr' fuel (by omega))

/-- nothing more is read: what is left is computed from the value -/
theorem bind_pure {k : ℕ → β → Go (Cursor α) ε' γ} {b : γ} (h : RoundTrip w r a)
    (hk : ∀ fuel, k fuel a = Pure.pure b) : RoundTrip w (fun fuel => r fuel >>= k fuel) b := by
  obtain ⟨e, hw, hr⟩ := h
  refine ⟨e, hw, ?_⟩
  intro fuel hf
  have hb : Reads (k fuel a) [] b := hk fuel ▸ Reads.pure b
  have := (hr fuel hf).bind hb
  rwa [append_nil] at this

theorem map (f : β → γ) (h : RoundTrip w r a) : RoundTrip w (fun fuel => f <$> r fuel) (f a) := by
  obtain ⟨e, hw, hr⟩ := h
  exact ⟨e, hw, fun fuel hf => (hr fuel hf).map f⟩

/-- one value is read back -/
theorem unique {b : β} (h : RoundTrip w r a) (h' : RoundTrip w r b) : a = b := by
  obtain ⟨e, hw, hr⟩ := h
  obtain ⟨e', hw', hr'⟩ := h'
  have he : e = e' := by
    have := (hw []).symm.trans (hw' [])
    simpa using this
  subst he
  have := (hr e.length le_rfl [] []).symm.trans (hr' e.length le_rfl [] [])
  simpa using this

end RoundTrip

/-! ## Readers on arbitrary input -/

/-- the position is inside the data -/
def Cursor.Inside (s : Cursor α) : Prop := s.index ≤ s.data.length

/-- the elements that are still to be read -/
def Cursor.unread (s : Cursor α) : ℕ := s.data.length - s.index

/-- how a robust reader ends that started in `s` -/
structure Ends (cost : β → ℕ) (s : Cursor α) (r : Outcome ε β × Cursor α) : Prop where
  no_panic : r.1 ≠ .panic
  data : r.2.data = s.data
  le_index : s.index ≤ r.2.index
  index_le : r.2.index ≤ s.data.length
  paid : ∀ a, r.1 = .ok a → s.index + cost a ≤ r.2.index

def Robust (n : ℕ) (cost : β → ℕ) (x : Go (Cursor α) ε β) : Prop :=
  ∀ s : Cursor α, s.Inside → s.unread ≤ n → Ends cost s (x s)

namespace Robust

variable {n m : ℕ} {cost : β → ℕ} {x : Go (Cursor α) ε β}

theorem pure {a : β} (h : cost a = 0) : Robust n cost (Pure.pure a : Go (Cursor α) ε β) := by
  intro s hs _
  refine ⟨by simp, rfl, le_refl _, hs, ?_⟩
  intro b hb
  cases hb
  simp [h]

theorem throw (e : ε) : Robust n cost (Go.throw e : Go (Cursor α) ε β) := by
  intro s hs _
  exact ⟨by simp, rfl, le_refl _, hs, fun _ h => by simp at h⟩

theorem get : Robust n (fun _ => 0) (Go.get : Go (Cursor α) ε (Cursor α)) := by
  intro s hs _
  exact ⟨by simp, rfl, le_refl _, hs, fun _ _ => le_refl _⟩

theorem mono (h : Robust n cost x) (hm : m ≤ n) {cost' : β → ℕ} (hc : ∀ a, cost' a ≤ cost a) : Robust m cost' x := by
  intro s hs hu
  have he := h s hs (hu.trans hm)
  exact { he with paid := fun a ha => (Nat.add_le_add_left (hc a) _).trans (he.paid a ha) }

/-- a sequence: the second part starts with fewer unread elements and owes what the first has not paid -/
theorem bind {k : β → Go (Cursor α) ε γ} {total : γ → ℕ} (hx : Robust n cost x)
    (hk : ∀ a, cost a ≤ n → Robust (n - cost a) (fun b => total b - cost a) (k a)) : Robust n total (x >>= k) := by
  intro s hs hu
  have hsx := hx s hs hu
  rw [Go.bind_run]
  rcases hr : x s with ⟨a | e | _, t⟩ <;> rw [hr] at hsx
  · have hpaid : s.index + cost a ≤ t.index := hsx.paid a rfl
    have hdata : t.data = s.data := hsx.data
    have hle : t.index ≤ s.data.length := hsx.index_le
    have hin : t.Inside := by
      unfold Cursor.Inside
      rw [hdata]
      exact hle
    have hunread : t.unread ≤ n - cost a := by
      unfold Cursor.unread at hu ⊢
      rw [hdata]
      omega
    have hcost : cost a ≤ n := by
      unfold Cursor.unread at hu
      omega
    have hst := hk a hcost t hin hunread
    refine ⟨hst.no_panic, hst.data.trans hdata, hsx.le_index.trans hst.le_index, hdata ▸ hst.index_le, ?_⟩
    intro b hb
    have hpaid' := hst.paid b hb
    have hle' := hst.le_index
    change s.index + total b ≤ (k a t).2.index
    omega
  · exact ⟨by simp, hsx.data, hsx.le_index, hsx.index_le, fun _ h => by simp at h⟩
  · exact absurd rfl hsx.no_panic

theorem map {total : γ → ℕ} (f : β → γ) (hx : Robust n cost x) (hc : ∀ a, total (f a) ≤ cost a) :
    Robust n total (f <$> x) :=
  hx.bind fun a _ => .pure (Nat.sub_eq_zero_of_le (hc a))

theorem ite {c : Prop} [Decidable c] {y : Go (Cursor α) ε β} (hx : c → Robust n cost x) (hy : ¬ c → Robust n cost y) :
    Robust n cost (if c then x else y) := by
  split_ifs with h
  · exact hx h
  · exact hy h

end Robust

end Hypermeow.Lib
