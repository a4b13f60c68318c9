/-
Byte slices with the bounds checks of the language.

`Bytes` is a byte string. Indexing and slicing are operations of `Go`: an index or a bound that is out of range panics.
Bounds are integers, so that a negative bound (a difference that went below zero) panics too and is not cut off at 0.

The big-endian conversions `beBytes` and `beNat` are inverse to each other on the numbers that fit.
-/
import Hypermeow.Lib.Go

namespace Hypermeow.Lib

abbrev Bytes := List UInt8

instance lawfulBEqBytes : LawfulBEq Bytes := inferInstance

namespace Slice

variable {σ ε : Type}

/-- `bs[i]` -/
def index (bs : Bytes) (i : ℕ) : Go σ ε UInt8 :=
  match bs[i]? with
  | some b => pure b
  | none => Go.crash

/-- `bs[:n]` -/
def upTo (bs : Bytes) (n : ℤ) : Go σ ε Bytes :=
  if 0 ≤ n ∧ n ≤ bs.length then pure (bs.take n.toNat) else Go.crash

/-- `bs[n:]` -/
def since (bs : Bytes) (n : ℤ) : Go σ ε Bytes :=
  if 0 ≤ n ∧ n ≤ bs.length then pure (bs.drop n.toNat) else Go.crash

/-- `copy(dst[n:], src)`: the bytes of `dst` from `n` on are overwritten, as far as both slices reach -/
def copyAt (dst : Bytes) (n : ℤ) (src : Bytes) : Go σ ε Bytes :=
  if 0 ≤ n ∧ n ≤ dst.length then
    pure (dst.take n.toNat ++ (src.take (dst.length - n.toNat) ++ dst.drop (n.toNat + src.length)))
  else Go.crash

variable {bs : Bytes}

theorem index_run {i : ℕ} (h : i < bs.length) (s : σ) : (index bs i : Go σ ε UInt8) s = (.ok bs[i], s) := by
  simp [index, h]

variable {n : ℕ}

theorem upTo_run (h : n ≤ bs.length) (s : σ) : (upTo bs n : Go σ ε Bytes) s = (.ok (bs.take n), s) := by
  simp [upTo, h]

theorem since_run (h : n ≤ bs.length) (s : σ) : (since bs n : Go σ ε Bytes) s = (.ok (bs.drop n), s) := by
  simp [since, h]

theorem copyAt_run {dst src : Bytes} (h : n ≤ dst.length) (s : σ) :
    (copyAt dst n src : Go σ ε Bytes) s =
      (.ok (dst.take n ++ (src.take (dst.length - n) ++ dst.drop (n + src.length))), s) := by
  simp [copyAt, h]

variable {τ : Type} {f : σ → τ}

theorem index_keeps (bs : Bytes) (i : ℕ) : Go.Keeps f (index bs i : Go σ ε UInt8) := by
  rw [index]
  split
  · exact .pure _
  · exact .crash

theorem upTo_keeps (bs : Bytes) (n : ℤ) : Go.Keeps f (upTo bs n : Go σ ε Bytes) := .ite (.pure _) .crash

theorem since_keeps (bs : Bytes) (n : ℤ) : Go.Keeps f (since bs n : Go σ ε Bytes) := .ite (.pure _) .crash

/-- a slice that is taken without a panic -/
theorem since_eq_ok {r : Bytes} {n : ℤ} {s t : σ} (h : (since bs n : Go σ ε Bytes) s = (.ok r, t)) :
    r = bs.drop n.toNat ∧ t = s := by
  rw [since] at h
  split_ifs at h
  · cases h; exact ⟨rfl, rfl⟩
  · cases h

theorem noPanic_upTo {n : ℤ} {s : σ} : Go.NoPanic (upTo bs n : Go σ ε Bytes) s ↔ 0 ≤ n ∧ n ≤ bs.length := by
  rw [upTo]
  split_ifs with h <;> simp [h]

theorem noPanic_since {n : ℤ} {s : σ} : Go.NoPanic (since bs n : Go σ ε Bytes) s ↔ 0 ≤ n ∧ n ≤ bs.length := by
  rw [since]
  split_ifs with h <;> simp [h]

end Slice

/-! ## Big-endian numbers -/

/-- the `n` low bytes of `v`, most significant first -/
def beBytes : ℕ → ℕ → Bytes
  | 0, _ => []
  | n + 1, v => UInt8.ofNat (v / 256 ^ n) :: beBytes n v

/-- the number a big-endian byte string stands for -/
def beNat (bs : Bytes) : ℕ := bs.foldl (fun acc b => acc * 256 + b.toNat) 0

@[simp] theorem length_beBytes (n v : ℕ) : (beBytes n v).length = n := by
  induction n with
  | zero => rfl
  | succ n ih => simp [beBytes, ih]

theorem foldl_beBytes (n v acc : ℕ) :
    (beBytes n v).foldl (fun acc b => acc * 256 + b.toNat) acc = acc * 256 ^ n + v % 256 ^ n := by
  induction n generalizing acc with
  | zero => simp [beBytes, Nat.mod_one]
  | succ n ih =>
    simp only [beBytes, List.foldl_cons, ih, UInt8.toNat_ofNat']
    have hmod : v % 256 ^ (n + 1) = v / 256 ^ n % 256 * 256 ^ n + v % 256 ^ n := by
      rw [pow_succ, Nat.mod_mul, Nat.add_comm, Nat.mul_comm]
    rw [hmod]
    ring

theorem beNat_beBytes {n v : ℕ} (h : v < 256 ^ n) : beNat (beBytes n v) = v := by
  simp [beNat, foldl_beBytes, Nat.mod_eq_of_lt h]

end Hypermeow.Lib
