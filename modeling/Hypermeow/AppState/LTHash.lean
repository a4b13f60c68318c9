/-
The summation hash of app state collections (`appstate/lthash/lthash.go`).

A hash is 128 bytes, read as 64 little-endian 16-bit lanes. Adding or subtracting an item adds or subtracts its HKDF
expansion lane by lane, with overflow.

Model: the byte loop of `performPointwiseWithOverflow` on 128-byte values. `lanes` reads a hash as a function into the
integers modulo 2^16, where the operations are those of a commutative group. HKDF is a parameter.

Results:
- `lanes_subtractThenAdd`: the lanes after `SubtractThenAdd` are the lanes before, minus the sum of what was subtracted,
  plus the sum of what was added.
-/
import Hypermeow.Lib.Slice
import Mathlib.Data.ZMod.Basic
import Mathlib.Algebra.BigOperators.Group.List.Basic

namespace Hypermeow.AppState

open Lib List

/-- 128 bytes -/
abbrev Hash := { bs : Bytes // bs.length = 128 }

/-- the hash of the empty collection -/
def Hash.zero : Hash := ⟨List.replicate 128 0, by simp⟩

/-- `binary.LittleEndian.Uint16` -/
def leUint16 (b0 b1 : UInt8) : UInt16 := UInt16.ofNat (b0.toNat + 256 * b1.toNat)

/-- `binary.LittleEndian.PutUint16` -/
def putUint16 (v : UInt16) : Bytes := [UInt8.ofNat v.toNat, UInt8.ofNat (v.toNat / 256)]

/-- the loop over the bytes of `base`, two at a time -/
def pointwise (subtract : Bool) : Bytes → Bytes → Bytes
  | x0 :: x1 :: base, y0 :: y1 :: input =>
    let x := leUint16 x0 x1
    let y := leUint16 y0 y1
    putUint16 (if subtract then x - y else x + y) ++ pointwise subtract base input
  | base, _ => base

theorem length_pointwise (subtract : Bool) (base input : Bytes) :
    (pointwise subtract base input).length = base.length := by
  fun_induction pointwise subtract base input with
  | case1 x0 x1 base y0 y1 input x y ih => simp [putUint16, ih]
  | case2 => rfl

def performPointwiseWithOverflow (base input : Hash) (subtract : Bool) : Hash :=
  ⟨pointwise subtract base.1 input.1, by rw [length_pointwise, base.2]⟩

variable (hkdf : Bytes → Hash)

def multipleOp (base : Hash) (input : List Bytes) (subtract : Bool) : Hash :=
  input.foldl (fun base item => performPointwiseWithOverflow base (hkdf item) subtract) base

def subtractThenAdd (base : Hash) (subtract add : List Bytes) : Hash :=
  multipleOp hkdf (multipleOp hkdf base subtract true) add false

/-! ## Lanes -/

/-- lane `i` of a byte string -/
def laneAt (bs : Bytes) (i : ℕ) : ZMod 65536 :=
  (((bs.getD (2 * i) 0).toNat + 256 * (bs.getD (2 * i + 1) 0).toNat : ℕ) : ZMod 65536)

/-- the 64 lanes of a hash -/
def lanes (h : Hash) : Fin 64 → ZMod 65536 := fun i => laneAt h.1 i

theorem lanes_zero : lanes Hash.zero = 0 := by decide

/-- the value of a 16-bit lane -/
theorem laneAt_cons_zero (b0 b1 : UInt8) (bs : Bytes) :
    laneAt (b0 :: b1 :: bs) 0 = ((leUint16 b0 b1).toNat : ZMod 65536) := by
  have h0 := b0.toNat_lt
  have h1 := b1.toNat_lt
  have : (leUint16 b0 b1).toNat = b0.toNat + 256 * b1.toNat := by
    rw [leUint16, UInt16.toNat_ofNat', Nat.mod_eq_of_lt (by omega)]
  rw [this]
  rfl

theorem leUint16_putUint16 (v : UInt16) : leUint16 (UInt8.ofNat v.toNat) (UInt8.ofNat (v.toNat / 256)) = v := by
  have hv := v.toNat_lt
  refine UInt16.toNat_inj.1 ?_
  simp only [leUint16, UInt16.toNat_ofNat', UInt8.toNat_ofNat']
  omega

/-- 16-bit arithmetic with overflow is arithmetic modulo 2^16 -/
theorem natCast_toNat_op (subtract : Bool) (x y : UInt16) :
    (((if subtract then x - y else x + y).toNat : ℕ) : ZMod 65536) =
      if subtract then (x.toNat : ZMod 65536) - (y.toNat : ZMod 65536)
      else (x.toNat : ZMod 65536) + (y.toNat : ZMod 65536) := by
  have hy := y.toNat_lt
  cases subtract with
  | false => simp [UInt16.toNat_add, ← Nat.cast_add, ZMod.natCast_mod]
  | true =>
    simp only [if_true, UInt16.toNat_sub]
    rw [ZMod.natCast_mod, Nat.cast_add, Nat.cast_sub hy.le]
    have : ((2 ^ 16 : ℕ) : ZMod 65536) = 0 := by decide
    rw [this]
    ring

theorem laneAt_pointwise (subtract : Bool) (base input : Bytes) (h : base.length = input.length) (i : ℕ)
    (hi : 2 * i + 1 < base.length) :
    laneAt (pointwise subtract base input) i =
      if subtract then laneAt base i - laneAt input i else laneAt base i + laneAt input i := by
  fun_induction pointwise subtract base input generalizing i with
  | case1 x0 x1 base y0 y1 input x y ih =>
    cases i with
    | zero =>
      rw [putUint16, cons_append, cons_append, laneAt_cons_zero, laneAt_cons_zero, laneAt_cons_zero,
        leUint16_putUint16, natCast_toNat_op]
    | succ i =>
      simp only [length_cons] at h hi
      exact ih (by omega) i (by omega)
  | case2 base input hne =>
    -- two more bytes of one are two more bytes of the other
    match base, input with
    | [], _ | [_], _ => simp at hi
    | _ :: _ :: _, [] | _ :: _ :: _, [_] => simp at h
    | _ :: _ :: _, _ :: _ :: _ => exact absurd rfl (hne _ _ _ _ _ _ rfl)

theorem lanes_performPointwise (base input : Hash) (subtract : Bool) :
    lanes (performPointwiseWithOverflow base input subtract) =
      if subtract then lanes base - lanes input else lanes base + lanes input := by
  funext i
  have := laneAt_pointwise subtract base.1 input.1 (base.2.trans input.2.symm) i (by rw [base.2]; omega)
  cases subtract <;> exact this

theorem lanes_multipleOp (input : List Bytes) (base : Hash) (subtract : Bool) :
    lanes (multipleOp hkdf base input subtract) =
      if subtract then lanes base - (input.map fun item => lanes (hkdf item)).sum
      else lanes base + (input.map fun item => lanes (hkdf item)).sum := by
  induction input generalizing base with
  | nil => cases subtract <;> simp [multipleOp]
  | cons item input ih =>
    have hcons : multipleOp hkdf base (item :: input) subtract =
        multipleOp hkdf (performPointwiseWithOverflow base (hkdf item) subtract) input subtract := rfl
    rw [hcons, ih, lanes_performPointwise, map_cons, sum_cons]
    cases subtract
    · simp [add_assoc]
    · simp [sub_sub]

/-- **Lanes.** Subtracting and adding items subtracts and adds their expansions in every lane, modulo 2^16. -/
theorem lanes_subtractThenAdd (base : Hash) (subtract add : List Bytes) :
    lanes (subtractThenAdd hkdf base subtract add) =
      lanes base - (subtract.map fun item => lanes (hkdf item)).sum + (add.map fun item => lanes (hkdf item)).sum := by
  rw [subtractThenAdd, lanes_multipleOp, lanes_multipleOp]
  rfl

/-! ## Laws of the hash -/

/-- a lane determines its two bytes -/
theorem bytes_of_laneAt {bs bs' : Bytes} {i : ℕ} (h : laneAt bs i = laneAt bs' i) :
    bs.getD (2 * i) 0 = bs'.getD (2 * i) 0 ∧ bs.getD (2 * i + 1) 0 = bs'.getD (2 * i + 1) 0 := by
  have h0 := (bs.getD (2 * i) 0).toNat_lt
  have h1 := (bs.getD (2 * i + 1) 0).toNat_lt
  have h0' := (bs'.getD (2 * i) 0).toNat_lt
  have h1' := (bs'.getD (2 * i + 1) 0).toNat_lt
  rw [laneAt, laneAt, ZMod.natCast_eq_natCast_iff', Nat.mod_eq_of_lt (by omega), Nat.mod_eq_of_lt (by omega)] at h
  exact ⟨UInt8.toNat_inj.1 (by omega), UInt8.toNat_inj.1 (by omega)⟩

/-- a hash is determined by its lanes -/
theorem lanes_injective : Function.Injective lanes := by
  rintro ⟨bs, hbs⟩ ⟨bs', hbs'⟩ h
  refine Subtype.ext (ext_getElem (hbs.trans hbs'.symm) fun j hj hj' => ?_)
  obtain ⟨heven, hodd⟩ := bytes_of_laneAt (congrFun h ⟨j / 2, by simp only at hj; omega⟩)
  rw [getElem_eq_getD 0, getElem_eq_getD 0]
  rcases Nat.mod_two_eq_zero_or_one j with hpar | hpar
  · rwa [show 2 * (j / 2) = j by omega] at heven
  · rwa [show 2 * (j / 2) + 1 = j by omega] at hodd

/-- one lane of the lanes of all items -/
theorem sum_lanes_apply (items : List Bytes) (i : Fin 64) :
    (items.map fun item => lanes (hkdf item)).sum i = (items.map fun item => lanes (hkdf item) i).sum := by
  induction items with
  | nil => rfl
  | cons item items ih => rw [map_cons, sum_cons, Pi.add_apply, ih, map_cons, sum_cons]

/-- **Group laws.** What `SubtractThenAdd` returns depends on the multisets of the items only; items on both sides cancel;
two calls are one call with the items of both; and each 16-bit lane changes by the sums of that lane alone. -/
theorem subtractThenAdd_laws (base : Hash) (subtract add : List Bytes) :
    (∀ subtract' add', subtract'.Perm subtract → add'.Perm add →
      subtractThenAdd hkdf base subtract' add' = subtractThenAdd hkdf base subtract add) ∧
    (∀ both, subtractThenAdd hkdf base (both ++ subtract) (both ++ add) = subtractThenAdd hkdf base subtract add) ∧
    (∀ subtract₂ add₂, subtractThenAdd hkdf (subtractThenAdd hkdf base subtract add) subtract₂ add₂ =
      subtractThenAdd hkdf base (subtract ++ subtract₂) (add ++ add₂)) ∧
    ∀ i, lanes (subtractThenAdd hkdf base subtract add) i =
      lanes base i - (subtract.map fun item => lanes (hkdf item) i).sum +
        (add.map fun item => lanes (hkdf item) i).sum := by
  refine ⟨fun subtract' add' hs ha => lanes_injective ?_, fun both => lanes_injective ?_,
    fun subtract₂ add₂ => lanes_injective ?_, fun i => ?_⟩
  · rw [lanes_subtractThenAdd, lanes_subtractThenAdd, (hs.map _).sum_eq, (ha.map _).sum_eq]
  · simp only [lanes_subtractThenAdd, map_append, sum_append]
    abel
  · simp only [lanes_subtractThenAdd, map_append, sum_append]
    abel
  · rw [lanes_subtractThenAdd, Pi.add_apply, Pi.sub_apply, sum_lanes_apply, sum_lanes_apply]

/-- an expansion that counts the length of the item in every byte -/
def lengthHash (item : Bytes) : Hash := ⟨List.replicate 128 (UInt8.ofNat item.length), length_replicate⟩

theorem subtractThenAdd_laws_swapped :
    subtractThenAdd lengthHash Hash.zero [[1], [2, 3]] [[4]] =
      subtractThenAdd lengthHash Hash.zero [[2, 3], [1]] [[4]] :=
  (subtractThenAdd_laws lengthHash Hash.zero [[2, 3], [1]] [[4]]).1 [[1], [2, 3]] [[4]] (.swap _ _ _) (.refl _)

end Hypermeow.AppState
