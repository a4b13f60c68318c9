/-
Label changes of one chat in one patch (`appstate/encode.go`, `BuildLabelChat` and `BuildLabelChatChanges`).

A patch must not set one index twice. The first change of a label takes a place in the patch, later changes of that label
overwrite it there.

Model: the chat enters by its text, the protobuf action by its encoding for both values of `labeled`.
-/
import Hypermeow.AppState.Encode
import Hypermeow.Lib.BoundedMap
import Hypermeow.Lib.Runs

namespace Hypermeow.AppState

open Lib List

structure LabelChatChange where
  labelID : String
  labeled : Bool
deriving DecidableEq, Repr

section Build

variable (action : Bool → SyncActionValue) (target : String)

def newLabelChatMutation (labelID : String) (labeled : Bool) : MutationInfo :=
  ⟨["label_jid", labelID, target], 3, some (action labeled)⟩

def waPatchRegular : Bytes := "regular".toUTF8.toList

def buildLabelChat (labelID : String) (labeled : Bool) : PatchInfo :=
  ⟨none, waPatchRegular, [newLabelChatMutation action target labelID labeled]⟩

/-- one round of the loop, on the mutations and the position of each label -/
def labelRound (s : List MutationInfo × GoMap String ℕ) (change : LabelChatChange) : List MutationInfo × GoMap String ℕ :=
  let mutation := newLabelChatMutation action target change.labelID change.labeled
  match s.2.lookup change.labelID with
  | some index => (s.1.set index mutation, s.2)
  | none => (s.1 ++ [mutation], s.2.insert change.labelID s.1.length)

def buildLabelChatChanges (changes : List LabelChatChange) : PatchInfo :=
  ⟨none, waPatchRegular, (run (labelRound action target) ([], ∅) changes).1⟩

end Build

/-- the labels, in the order of their first changes -/
def labels (changes : List LabelChatChange) : List String := (changes.map (·.labelID)).eraseDups

/-- the value of the last change of a label -/
def lastLabeled (changes : List LabelChatChange) (label : String) : Bool :=
  (lastWrite (fun c => some c.labelID) (·.labeled) changes label).getD false

/-- what is set at each index, after a mutation -/
def associate (assoc : List String → Option SyncActionValue) (m : MutationInfo) : List String → Option SyncActionValue :=
  Function.update assoc m.index m.value

section Loop

variable (action : Bool → SyncActionValue) (target : String)

theorem labels_concat (changes : List LabelChatChange) (c : LabelChatChange) :
    labels (changes ++ [c]) = if c.labelID ∈ labels changes then labels changes else labels changes ++ [c.labelID] := by
  unfold labels
  rw [map_append, map_singleton, eraseDups_append]
  by_cases h : c.labelID ∈ changes.map (·.labelID) <;>
    simp only [List.removeAll, mem_eraseDups, filter_cons, elem_eq_mem, h] <;> simp [eraseDups_cons]

theorem lastLabeled_concat (changes : List LabelChatChange) (c : LabelChatChange) :
    lastLabeled (changes ++ [c]) = Function.update (lastLabeled changes) c.labelID c.labeled := by
  funext label
  rw [lastLabeled, lastWrite_concat]
  by_cases h : label = c.labelID
  · simp [h]
  · simp [h, Ne.symm h, lastLabeled]

variable {ls : List String} {label : String}

/-- a new value for a label of the patch: the mutation at its position is replaced, which is one more mutation -/
theorem map_update (g : String → Bool) (labeled : Bool) (hnodup : ls.Nodup) (hmem : label ∈ ls) :
    let new := ls.map fun l => newLabelChatMutation action target l (Function.update g label labeled l)
    let old := ls.map fun l => newLabelChatMutation action target l (g l)
    let mutation := newLabelChatMutation action target label labeled
    new = old.set (ls.idxOf label) mutation ∧
      ∀ assoc, run associate assoc new = associate (run associate assoc old) mutation := by
  have happly := Function.apply_update (newLabelChatMutation action target) g label labeled
  simp only [happly]
  refine ⟨by rw [hnodup.map_update, if_pos hmem], fun assoc => ?_⟩
  induction ls using List.reverseRecOn with
  | nil => cases hmem
  | append_singleton ls l ih =>
    obtain ⟨hls, -, hl⟩ := nodup_append.1 hnodup
    rw [map_append, map_append, run_append, run_append]
    by_cases he : l = label
    · have hnin : label ∉ ls := fun h => hl _ h _ (mem_singleton_self l) he.symm
      rw [hls.map_update, if_neg hnin, he]
      simp [associate, newLabelChatMutation, run]
    · rw [ih hls ((mem_append.1 hmem).resolve_right fun h => he (mem_singleton.1 h).symm)]
      have hne : ["label_jid", label, target] ≠ ["label_jid", l, target] := by simpa using Ne.symm he
      simp only [map_singleton, run_cons, run_nil, Function.update_of_ne he]
      exact Function.update_comm hne _ _ _

/-- the state of the loop: each label stands at its position with its last value, and the mutations so far do what the
changes so far do -/
theorem labelRound_run (changes : List LabelChatChange) :
    let s := run (labelRound action target) ([], ∅) changes
    (labels changes).Nodup ∧
    s.1 = (labels changes).map (fun label => newLabelChatMutation action target label (lastLabeled changes label)) ∧
    (∀ label, s.2.lookup label = if label ∈ labels changes then some ((labels changes).idxOf label) else none) ∧
    ∀ assoc, run associate assoc s.1 =
      run associate assoc (changes.flatMap fun c => (buildLabelChat action target c.labelID c.labeled).mutations) := by
  induction changes using List.reverseRecOn with
  | nil => exact ⟨nodup_nil, rfl, fun _ => rfl, fun _ => rfl⟩
  | append_singleton changes c ih =>
    obtain ⟨hnodup, hmutations, hpositions, hrun⟩ := ih
    rw [run_append, run_cons, run_nil, labelRound, hpositions, labels_concat, lastLabeled_concat, flatMap_append]
    by_cases h : c.labelID ∈ labels changes
    · obtain ⟨hset, hone⟩ := map_update action target (lastLabeled changes) c.labeled hnodup h
      simp only [if_pos h]
      rw [hmutations, ← hset]
      refine ⟨hnodup, rfl, hpositions, fun assoc => ?_⟩
      rw [hone, ← hmutations, hrun, run_append]
      rfl
    · simp only [if_neg h]
      refine ⟨?_, ?_, fun label => ?_, fun assoc => ?_⟩
      · rw [← concat_eq_append]
        exact hnodup.concat h
      · rw [map_append, hmutations]
        congr 1
        · refine map_congr_left fun label hlabel => ?_
          rw [Function.update_of_ne (ne_of_mem_of_not_mem hlabel h)]
        · simp
      · rw [GoMap.lookup_insert_eq, hpositions, hmutations, length_map]
        by_cases he : label = c.labelID
        · simp [he, idxOf_append, h]
        · by_cases hl : label ∈ labels changes
          · simp [he, idxOf_append, hl]
          · simp [he, hl]
      · rw [run_append, hrun, run_append]
        rfl

end Loop

/-- **Label changes.** A patch holds one mutation for each label of the changes, in the order of their first changes, with
the value of the last change; no index stands in it twice, and applied to any associations it gives what the changes give
one by one. -/
theorem label_changes_batched (action : Bool → SyncActionValue) (target : String) (changes : List LabelChatChange) :
    let patch := buildLabelChatChanges action target changes
    patch.mutations = (labels changes).map
      (fun label => newLabelChatMutation action target label (lastLabeled changes label)) ∧
    (patch.mutations.map (·.index)).Nodup ∧
    ∀ assoc, run associate assoc patch.mutations =
      run associate assoc (changes.flatMap fun c => (buildLabelChat action target c.labelID c.labeled).mutations) := by
  obtain ⟨hnodup, hmutations, -, hrun⟩ := labelRound_run action target changes
  refine ⟨hmutations, ?_, hrun⟩
  rw [buildLabelChatChanges, hmutations, map_map]
  exact hnodup.map fun a b hab => by simpa [newLabelChatMutation] using hab

end Hypermeow.AppState
