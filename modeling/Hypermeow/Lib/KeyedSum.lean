/-
Keys that hold optional values, a list of assignments to them, and the sum of the values they hold.

`total g f S` adds up `g v` over the keys of `S` that hold a value under `f`, in any commutative group. An assignment of
a key changes the total by what it replaces and what it puts there (`total_update`), so a list of assignments changes it
by everything replaced and everything put (`total_assign`). What an assignment replaces is the value of the last earlier
assignment to the same key, else the value held at the start (`assign_eq_find`, `replaced_eq`). With distinct keys these
are the values held at the start (`replacesHeld_of_nodup`).
-/
import Mathlib.Tactic
import Mathlib.Algebra.BigOperators.Group.Finset.Basic

namespace Hypermeow.Lib

open List

variable {K V M : Type} [DecidableEq K] [AddCommGroup M] (g : V → M)

/-- what an optional value counts -/
def weight (o : Option V) : M := o.elim 0 g

@[simp] theorem weight_none : weight g none = 0 := rfl

@[simp] theorem weight_some (v : V) : weight g (some v) = g v := rfl

/-- the sum over the values that the keys of `S` hold -/
def total (f : K → Option V) (S : Finset K) : M := ∑ k ∈ S, weight g (f k)

variable {f : K → Option V} {S : Finset K}

/-- the total does not depend on the set of keys, as long as it has all that hold a value -/
theorem total_eq_of_held {T : Finset K} (hS : ∀ k, f k ≠ none → k ∈ S)
    (hT : ∀ k, f k ≠ none → k ∈ T) : total g f S = total g f T := by
  have key : ∀ {A B : Finset K}, (∀ k, f k ≠ none → k ∈ A) → total g f (A ∪ B) = total g f A := by
    intro A B hA
    refine (Finset.sum_subset Finset.subset_union_left fun k _ hk => ?_).symm
    rw [not_not.1 (mt (hA k) hk), weight_none]
  rw [← key hS (B := T), Finset.union_comm, key hT]

theorem total_update {k : K} (hk : k ∈ S) (v : Option V) :
    total g (Function.update f k v) S = total g f S - weight g (f k) + weight g v := by
  have hrest : ∑ j ∈ S.erase k, weight g (Function.update f k v j) = ∑ j ∈ S.erase k, weight g (f j) :=
    Finset.sum_congr rfl fun j hj => by rw [Function.update_of_ne (Finset.ne_of_mem_erase hj)]
  rw [total, total, ← Finset.add_sum_erase S _ hk, ← Finset.add_sum_erase S (fun j => weight g (f j)) hk, hrest,
    Function.update_self]
  abel

/-- carry out the assignments in order -/
def assign (f : K → Option V) (ops : List (K × Option V)) : K → Option V :=
  ops.foldl (fun f o => Function.update f o.1 o.2) f

@[simp] theorem assign_nil (f : K → Option V) : assign f [] = f := rfl

@[simp] theorem assign_cons (f : K → Option V) (o : K × Option V) (ops : List (K × Option V)) :
    assign f (o :: ops) = assign (Function.update f o.1 o.2) ops := rfl

theorem assign_snoc (f : K → Option V) (ops : List (K × Option V)) (o : K × Option V) :
    assign f (ops ++ [o]) = Function.update (assign f ops) o.1 o.2 := by
  simp [assign, foldl_append]

theorem assign_append (f : K → Option V) (ops ops' : List (K × Option V)) :
    assign f (ops ++ ops') = assign (assign f ops) ops' := foldl_append

variable {ops : List (K × Option V)}

/-- a key that no assignment names keeps its value -/
theorem assign_of_notMem {k : K} (h : k ∉ ops.map Prod.fst) : assign f ops k = f k := by
  induction ops generalizing f with
  | nil => rfl
  | cons o ops ih =>
    obtain ⟨hk, hrest⟩ := not_or.1 (mt mem_cons.2 h)
    rw [assign_cons, ih hrest, Function.update_of_ne hk]

/-- two lists of assignments do the same if they agree on the keys they name -/
theorem assign_eq_iff {ops' : List (K × Option V)} :
    (∀ k ∈ ops.map Prod.fst ++ ops'.map Prod.fst, assign f ops k = assign f ops' k) ↔ assign f ops = assign f ops' := by
  refine ⟨fun h => funext fun k => ?_, fun h k _ => congrFun h k⟩
  by_cases hk : k ∈ ops.map Prod.fst ++ ops'.map Prod.fst
  · exact h k hk
  · obtain ⟨hops, hops'⟩ := not_or.1 (mt mem_append.2 hk)
    rw [assign_of_notMem hops, assign_of_notMem hops']

instance [DecidableEq V] (f : K → Option V) (ops ops' : List (K × Option V)) :
    Decidable (assign f ops = assign f ops') :=
  decidable_of_iff _ assign_eq_iff

/-- what each assignment replaces -/
def replaced (f : K → Option V) : List (K × Option V) → List (Option V)
  | [] => []
  | o :: ops => f o.1 :: replaced (Function.update f o.1 o.2) ops

theorem length_replaced (f : K → Option V) (ops : List (K × Option V)) : (replaced f ops).length = ops.length := by
  induction ops generalizing f with
  | nil => rfl
  | cons o ops ih => rw [replaced, length_cons, ih, length_cons]

/-- an assignment replaces what the ones before it have left -/
theorem getElem?_replaced (f : K → Option V) (ops : List (K × Option V)) (i : ℕ) :
    (replaced f ops)[i]? = ops[i]?.map fun o => assign f (ops.take i) o.1 := by
  induction ops generalizing f i with
  | nil => rfl
  | cons o ops ih =>
    cases i with
    | zero => rfl
    | succ i => exact ih _ i

/-- a list of assignments changes the total by everything replaced and everything put -/
theorem total_assign (ops : List (K × Option V)) (f : K → Option V) (hS : ∀ o ∈ ops, o.1 ∈ S) :
    total g (assign f ops) S =
      total g f S - ((replaced f ops).map (weight g)).sum + (ops.map fun o => weight g o.2).sum := by
  induction ops generalizing f with
  | nil => simp [replaced]
  | cons o ops ih =>
    rw [assign_cons, ih _ fun o' ho' => hS o' (mem_cons_of_mem _ ho'), total_update g (hS o mem_cons_self)]
    simp only [replaced, map_cons, sum_cons]
    abel

/-- the value of the last assignment to `k`, else the value at the start -/
theorem assign_eq_find (f : K → Option V) (ops : List (K × Option V)) (k : K) :
    assign f ops k = ((ops.reverse.find? fun o => o.1 = k).map Prod.snd).getD (f k) := by
  induction ops using List.reverseRecOn with
  | nil => rfl
  | append_singleton ops o ih =>
    rw [assign_snoc, reverse_append, reverse_singleton, singleton_append, find?_cons]
    by_cases hk : o.1 = k
    · subst hk; simp
    · simp [hk, Function.update_of_ne (Ne.symm hk), ih]

/-- after `pre`, the assignments of `ops` replace what `pre` has left -/
theorem replaced_assign_cons (f : K → Option V) (pre : List (K × Option V)) (o : K × Option V)
    (ops : List (K × Option V)) :
    replaced (assign f pre) (o :: ops) = assign f pre o.1 :: replaced (assign f (pre ++ [o])) ops := by
  rw [replaced, assign_snoc]

/-- with distinct keys, what is replaced is what the keys held at the start -/
theorem replaced_of_nodup (h : (ops.map Prod.fst).Nodup) : replaced f ops = ops.map fun o => f o.1 := by
  induction ops generalizing f with
  | nil => rfl
  | cons o ops ih =>
    obtain ⟨hnew, hrest⟩ := nodup_cons.1 h
    rw [replaced, ih hrest, map_cons]
    refine congrArg _ (map_congr_left fun o' ho' => Function.update_of_ne ?_ _ _)
    rintro heq
    exact hnew (heq ▸ mem_map_of_mem ho')

/-- what the assignments replace one after the other counts as much as what their keys held at the start -/
def ReplacesHeld (f : K → Option V) (ops : List (K × Option V)) : Prop :=
  ((replaced f ops).map (weight g)).sum = (ops.map fun o => weight g (f o.1)).sum

theorem replacesHeld_of_nodup (h : (ops.map Prod.fst).Nodup) : ReplacesHeld g f ops := by
  rw [ReplacesHeld, replaced_of_nodup h, map_map]
  rfl

/-- absent values count nothing -/
theorem sum_map_filterMap_id (l : List (Option V)) : ((l.filterMap id).map g).sum = (l.map (weight g)).sum := by
  induction l with
  | nil => rfl
  | cons o l ih =>
    cases o with
    | none => exact ih.trans (by simp)
    | some v => exact (congrArg (g v + ·) ih).trans (by simp)

end Hypermeow.Lib
