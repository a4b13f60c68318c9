/-
Length-prefixed framing of a stream, over any alphabet.

A `Framing` says how long a header is and which body length a header announces. `deframe` splits a stream into the
bodies of its complete frames and the unfinished rest. It is what a receiver is for, stated without any receiver state:

- `deframe_append`: a stream may be cut anywhere. Deframing the first part and then the rest followed by the second
  part gives the same frames.
- `deframe_encode`: the stream of a list of frames deframes to that list, with nothing left over.
-/
import Mathlib.Tactic

namespace Hypermeow.Lib

open List

/-- a header of fixed size and the body length it announces -/
structure Framing (α : Type) where
  size : ℕ
  size_pos : 0 < size
  len : List α → ℕ

namespace Framing

variable {α : Type} (F : Framing α)

/-- does the stream start with a complete frame? -/
def Complete (bs : List α) : Prop := F.size ≤ bs.length ∧ F.size + F.len (bs.take F.size) ≤ bs.length

instance (bs : List α) : Decidable (F.Complete bs) := inferInstanceAs (Decidable (_ ∧ _))

/-- the bodies of the complete frames of a stream, and the rest -/
def deframe (bs : List α) : List (List α) × List α :=
  if _h : F.Complete bs then
    let n := F.size + F.len (bs.take F.size)
    let r := deframe (bs.drop n)
    ((bs.take n).drop F.size :: r.1, r.2)
  else ([], bs)
termination_by bs.length
decreasing_by
  have := F.size_pos
  have := _h.1
  simp only [length_drop]
  omega

theorem deframe_of_not_complete {bs : List α} (h : ¬ F.Complete bs) : F.deframe bs = ([], bs) := by
  rw [deframe, dif_neg h]

/-- a header announcing `body.length`, then `body`, is the first frame whatever follows -/
theorem deframe_frame {hd body : List α} (rest : List α) (hs : hd.length = F.size) (hl : F.len hd = body.length) :
    F.deframe (hd ++ body ++ rest) = (body :: (F.deframe rest).1, (F.deframe rest).2) := by
  have htake : (hd ++ body ++ rest).take F.size = hd := by rw [← hs, append_assoc, take_left]
  have hc : F.Complete (hd ++ body ++ rest) := by
    refine ⟨?_, ?_⟩
    · simp only [length_append]; omega
    · rw [htake, hl]; simp only [length_append]; omega
  have hn : F.size + F.len hd = (hd ++ body).length := by rw [hl, length_append]; omega
  rw [deframe, dif_pos hc]
  simp only [htake, hn, drop_left, take_left]
  rw [← hs, drop_left]

/-- a stream with a complete first frame, split at that frame -/
theorem exists_of_complete {bs : List α} (h : F.Complete bs) :
    ∃ hd body rest, bs = hd ++ body ++ rest ∧ hd.length = F.size ∧ F.len hd = body.length := by
  refine ⟨bs.take F.size, (bs.drop F.size).take (F.len (bs.take F.size)),
    (bs.drop F.size).drop (F.len (bs.take F.size)), ?_, ?_, ?_⟩
  · rw [append_assoc, take_append_drop, take_append_drop]
  · rw [length_take]; have := h.1; omega
  · rw [length_take, length_drop]; have := h.2; omega

/-- **A stream may be cut anywhere.** -/
theorem deframe_append (a b : List α) :
    F.deframe (a ++ b) = ((F.deframe a).1 ++ (F.deframe ((F.deframe a).2 ++ b)).1,
      (F.deframe ((F.deframe a).2 ++ b)).2) := by
  induction hn : a.length using Nat.strong_induction_on generalizing a with
  | _ n ih =>
    by_cases hc : F.Complete a
    · obtain ⟨hd, body, rest, rfl, hs, hl⟩ := F.exists_of_complete hc
      have hlt : rest.length < n := by
        have := F.size_pos
        simp only [length_append] at hn
        omega
      rw [append_assoc, F.deframe_frame (rest ++ b) hs hl, F.deframe_frame rest hs hl, ih _ hlt rest rfl]
      rfl
    · rw [F.deframe_of_not_complete hc]; simp

/-- **A framed list comes back.** `hd` gives a header for each frame. -/
theorem deframe_encode (hd : List α → List α) (frames : List (List α))
    (hs : ∀ f ∈ frames, (hd f).length = F.size) (hl : ∀ f ∈ frames, F.len (hd f) = f.length) :
    F.deframe (frames.flatMap fun f => hd f ++ f) = (frames, []) := by
  induction frames with
  | nil =>
    rw [flatMap_nil, deframe_of_not_complete]
    intro h
    have := h.1
    have := F.size_pos
    simp only [length_nil] at *
    omega
  | cons f fs ih =>
    rw [flatMap_cons, F.deframe_frame _ (hs f mem_cons_self) (hl f mem_cons_self),
      ih (fun g hg => hs g (mem_cons_of_mem f hg)) (fun g hg => hl g (mem_cons_of_mem f hg))]

end Framing

end Hypermeow.Lib
