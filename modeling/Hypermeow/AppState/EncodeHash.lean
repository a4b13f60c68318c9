/-
The hash that `EncodePatch` signs against the hash that `validatePatch` computes for the same patch
(`appstate/encode.go`, `appstate/decode.go`, `appstate/hash.go`).

Both call `updateHash` with the mutations of the patch. `validatePatch` looks a previous value up among the earlier mutations
of the patch and then in the database; `EncodePatch` only looks in the database. A mutation whose index was set earlier in
the same patch replaces that value for the validator and the stored one for the encoder.

Model: the functions of `Processor` and `Encode`. `encodedAssignments` gives the index MAC and value MAC of each mutation
from the inputs of `EncodePatch`.
-/
import Hypermeow.AppState.Encode

namespace Hypermeow.AppState

open Lib Util Go List

/-! ## What is encoded -/

/-- the value MAC of a mutation, with the vector that is drawn for it -/
def encodedValueMAC (E : Env) (keys : ExpandedAppStateKeys) (keyID : Bytes) (timestamp : ℤ) (random : Option IV)
    (info : MutationInfo) : Option Bytes := do
  let iv ← random
  let value ← info.value
  let content ← E.marshalSyncActionData
    ⟨E.marshalIndex info.index, some { value with timestamp := some timestamp }, [], info.version⟩
  let encrypted := iv.1 ++ cipherBlocks E.aes keys.valueEncryption iv content
  some (generateContentMAC E .SET encrypted keyID keys.valueMAC)

/-- the index MACs of the mutations with their value MACs -/
def encodedAssignments (E : Env) (keys : ExpandedAppStateKeys) (keyID : Bytes) (timestamp : ℤ) (random : ℕ → Option IV) :
    ℕ → List MutationInfo → List (Bytes × Option Bytes)
  | _, [] => []
  | i, info :: infos =>
    ((E.hmacSHA256 keys.index (E.marshalIndex info.index)).1, encodedValueMAC E keys keyID timestamp (random i) info) ::
      encodedAssignments E keys keyID timestamp random (i + 1) infos

variable {E : Env} {w w' : World} {keyID : Bytes} {keys : ExpandedAppStateKeys} {timestamp : ℤ}

theorem encodeMutation_assignment {random : Option IV} {info : MutationInfo} {m : SyncdMutation}
    (h : encodeMutation E keys keyID timestamp random info w = (.ok m, w')) :
    m.assignment = ((E.hmacSHA256 keys.index (E.marshalIndex info.index)).1,
      encodedValueMAC E keys keyID timestamp random info) := by
  obtain ⟨value, content, iv, rfl, hv, hm, rfl, -⟩ := encodeMutation_eq_ok h
  simp only [SyncdMutation.assignment, macTail_append (length_generateContentMAC _ _ _ _), encodedValueMAC, hv,
    Option.bind_eq_bind, Option.bind_some, hm]

variable {i : ℕ} {ms : List SyncdMutation}

theorem encodeMutations_assignments {random : ℕ → Option IV} {infos : List MutationInfo}
    (h : encodeMutations E keys keyID timestamp random i infos w = (.ok ms, w')) :
    ms.map SyncdMutation.assignment = encodedAssignments E keys keyID timestamp random i infos := by
  induction infos generalizing i ms w w' with
  | nil => cases h; rfl
  | cons info infos ih =>
    obtain ⟨m, w₁, hm, h₁⟩ := bind_eq_ok.1 h
    obtain ⟨rest, w₂, hrest, h₂⟩ := bind_eq_ok.1 h₁
    cases h₂
    rw [map_cons, encodedAssignments, encodeMutation_assignment hm, ih hrest]

/-! ## The encoder's hash -/

theorem getAppStateMutationMAC_answers (db : AppStateDB) :
    Answers db (fun k i => getAppStateMutationMAC noFault i k) fun k _ => db.getAppStateMutationMAC k := by
  intro k i w w' r hdb h
  cases h
  exact ⟨by rw [hdb], hdb⟩

theorem prevs_const (f : Bytes → Option Bytes) (i : ℕ) (ms : List SyncdMutation) :
    prevs (fun k _ => f k) i ms = (ms.map SyncdMutation.assignment).map fun o => f o.1 := by
  induction ms generalizing i with
  | nil => rfl
  | cons m ms ih => rw [prevs, ih, map_cons, map_cons]; rfl

/-- the signed hash has subtracted what the database holds for each mutation -/
theorem lanes_nextState (hset : CompleteSets ms) (st : HashState) (w : World) :
    lanes (nextState E w.db st ms).hash = lanes st.hash -
        ((ms.map SyncdMutation.assignment).map fun o => weight E.lanes (w.db.getAppStateMutationMAC o.1)).sum +
      ((ms.map SyncdMutation.assignment).map fun o => weight E.lanes o.2).sum := by
  obtain ⟨warn, hrun⟩ := updateHash_run (E := E) w.db.getAppStateMutationMAC
    (fun k i => getAppStateMutationMAC noFault i k) hset st fun j m _ => getAppStateMutationMAC_noFault j m.record.index w
  have hlanes := (updateHash_ok (getAppStateMutationMAC_answers w.db) rfl hrun).2
  rw [prevs_const, map_map] at hlanes
  exact hlanes

/-! ## The validator's hash -/

/-- among SETs with complete values the search for an earlier one comes to an end -/
theorem searchPatch_returns (hset : CompleteSets ms) (k : Bytes) (hi : i ≤ ms.length) (w : World) :
    ∃ r, searchPatch ms k i w = (.ok r, w) := by
  induction i with
  | zero => exact ⟨none, rfl⟩
  | succ i ih =>
    have hget : ms[i]? = some ms[i] := getElem?_eq_getElem hi
    obtain ⟨hop, hlen⟩ := hset ms[i] (getElem_mem hi)
    rw [searchPatch, hget]
    simp only
    split_ifs with hk
    · simp only [hop]
      exact ⟨_, bind_ok (valueMACOf_run hlen w)⟩
    · exact ih (Nat.le_of_succ_le hi)

theorem prevSetValueMAC_returns {patch : SyncdPatch} (hset : CompleteSets patch.mutations) (k : Bytes)
    (hi : i ≤ patch.mutations.length) (w : World) : ∃ r, prevSetValueMAC noFault patch k i w = (.ok r, w) := by
  obtain ⟨found, hfound⟩ := searchPatch_returns hset k hi w
  rw [prevSetValueMAC, bind_ok hfound]
  cases found with
  | none => exact ⟨_, getAppStateMutationMAC_noFault i k w⟩
  | some prev => exact ⟨prev, rfl⟩

theorem updateHashLoop_returns {getPrev : Bytes → ℕ → Proc (Option Bytes)}
    (hset : CompleteSets ms) (i : ℕ) (d : HashDelta)
    (hp : ∀ k j, j < ms.length → ∃ r, getPrev k (i + j) w = (.ok r, w)) :
    ∃ d', updateHashLoop getPrev i ms d w = (.ok d', w) := by
  induction ms generalizing i d with
  | nil => exact ⟨d, rfl⟩
  | cons m ms ih =>
    obtain ⟨removal, hprev⟩ := hp m.record.index 0 (Nat.succ_pos _)
    rw [Nat.add_zero] at hprev
    have hrest := fun d => ih (fun m' hm' => hset m' (mem_cons_of_mem _ hm')) (i + 1) d fun k j hj => by
      rw [Nat.add_right_comm, Nat.add_assoc]
      exact hp k (j + 1) (Nat.succ_lt_succ hj)
    rw [updateHashLoop, bind_ok (add_set (hset m mem_cons_self) d w), wrap, bind_ok (mapErr_ok hprev)]
    cases removal with
    | none => exact hrest _
    | some removal => exact hrest _

/-- the validator subtracts what the mutations replace one after the other -/
theorem updateHash_patch (patch : SyncdPatch) (hset : CompleteSets patch.mutations) (st : HashState) (w : World) :
    ∃ hash warn, updateHash E st patch.mutations (prevSetValueMAC noFault patch) w = (.ok (⟨st.version, hash⟩, warn), w) ∧
      lanes hash = lanes st.hash - ((replaced w.db.getAppStateMutationMAC
          (patch.mutations.map SyncdMutation.assignment)).map (weight E.lanes)).sum +
        ((patch.mutations.map SyncdMutation.assignment).map fun o => weight E.lanes o.2).sum := by
  obtain ⟨d, hd⟩ := updateHashLoop_returns hset 0 ⟨[], [], []⟩ fun k j hj => by
    rw [Nat.zero_add]
    exact prevSetValueMAC_returns hset k hj.le w
  have hrun : updateHash E st patch.mutations (prevSetValueMAC noFault patch) w = _ := bind_ok hd
  have hlanes := (updateHash_ok (prevSetValueMAC_answers patch w.db) rfl hrun).2
  have hprevs := prevs_patch w.db.getAppStateMutationMAC [] patch.mutations
  rw [length_nil, nil_append, map_nil, assign_nil] at hprevs
  rw [hprevs] at hlanes
  exact ⟨_, _, hrun, hlanes⟩

/-! ## Agreement -/

/-- **The signed hash is the validated one** exactly when the values that the mutations replace one after the other count as
much as the values that the database has for their indexes, which they do when the index MACs are distinct. When the hashes
are equal, everyone with the same tables, state and key accepts the patch, and gets the signed state. -/
theorem encoded_hash_agrees_iff (E : Env) (F : Faults) (random : ℕ → Option IV) (now : ℤ) (keyID : Bytes)
    (state : HashState) (info : PatchInfo) (w : World) {st : HashState} {patch : SyncdPatch} {w₁ : World}
    (h : encodePatch E F random now keyID state info w = (.ok (st, patch), w₁)) :
    ∃ keys w₀, getAppStateKey E keyID w = (.ok keys, w₀) ∧ st.version = state.version + 1 ∧
      patch.snapshotMAC = generateSnapshotMAC E st info.type keys.snapshotMAC ∧
      let ops := encodedAssignments E keys keyID (info.timestamp.getD now) random 0 info.mutations
      let sent : SyncdPatch := { patch with version := st.version }
      ((ops.map Prod.fst).Nodup → ReplacesHeld E.lanes w.db.getAppStateMutationMAC ops) ∧
      ∀ w₂, w₂.db = w.db → ∃ st', validatePatch E noFault info.type sent state false w₂ = (.ok st', w₂) ∧
        (st'.hash = st.hash ↔ ReplacesHeld E.lanes w.db.getAppStateMutationMAC ops) ∧
        (st'.hash = st.hash → ∀ w₃, getAppStateKey E keyID w₂ = (.ok keys, w₃) →
          validatePatch E noFault info.type sent state true w₂ = (.ok st, w₃)) := by
  obtain ⟨keys, w₀, ms, hkey, hms, rfl, rfl⟩ := encodePatch_parts h
  refine ⟨keys, w₀, hkey, rfl, rfl, replacesHeld_of_nodup E.lanes, fun w₂ hdb => ?_⟩
  rw [← encodeMutations_assignments hms]
  have hset : CompleteSets ms :=
    fun m hm => (encoded_sets (encodeMutations_ok hms).1 m hm).1
  set next := nextState E w.db state ms with hnext
  set sent : SyncdPatch := { signedPatch E keys keyID info.type next ms with version := next.version } with hsent
  obtain ⟨hash, warn, hrun, hlanes⟩ := updateHash_patch (E := E) sent hset
    { state with version := sent.version } w₂
  have hval : validatePatch E noFault info.type sent state false w₂ = (.ok ⟨sent.version, hash⟩, w₂) :=
    bind_ok (mapErr_ok hrun)
  refine ⟨_, hval, ?_, fun heq w₃ hkey₂ => ?_⟩
  · -- the two hashes differ in what was subtracted
    have hsigned := lanes_nextState (E := E) hset state w
    have hmuts : sent.mutations = ms := rfl
    rw [hdb, hmuts] at hlanes
    rw [← lanes_injective.eq_iff, hnext, hsigned, hlanes]
    exact (add_left_inj _).trans sub_right_inj
  · have hst : (⟨sent.version, hash⟩ : HashState) = next := by rw [show hash = next.hash from heq]
    rw [hst] at hval
    exact validatePatch_accepts hset hkey₂ hval

/-- MACs that tell the first bytes of their input apart -/
def macEnv : Env :=
  { codecEnv with hmacSHA512 := fun _ d => ⟨(d ++ List.replicate 64 0).take 64, by simp⟩ }

def zeroIV : IV := ⟨List.replicate 16 0, rfl⟩

theorem encoded_hash_agrees_two :
    ∃ st patch w₁ st', encodePatch macEnv noFault (fun _ => some zeroIV) 0 [] .zero twoMutations freshWorld =
        (.ok (st, patch), w₁) ∧
      validatePatch macEnv noFault [] { patch with version := st.version } .zero false freshWorld = (.ok st', freshWorld) ∧
      st'.hash = st.hash := by
  obtain ⟨⟨st, patch⟩, w₁, h⟩ := exists_of_isOk (x := encodePatch macEnv noFault (fun _ => some zeroIV) 0 [] .zero
    twoMutations) (s := freshWorld) (by decide +kernel)
  obtain ⟨keys, w₀, hkey, -, -, hnodup, hval⟩ := encoded_hash_agrees_iff macEnv noFault (fun _ => some zeroIV) 0 [] .zero
    twoMutations freshWorld h
  obtain ⟨st', hrun, hiff, -⟩ := hval freshWorld rfl
  refine ⟨st, patch, w₁, st', h, hrun, hiff.2 (hnodup ?_)⟩
  cases hkey
  decide +kernel

/-- one patch sets the same index twice -/
def repeatedIndex : PatchInfo := ⟨some 5, [], [⟨["a"], 1, some ⟨none, []⟩⟩, ⟨["a"], 1, some ⟨none, []⟩⟩]⟩

/-- **An index that is set twice.** The validator takes the first value out of the hash again, the encoder does not: the
client's own patch fails its own check. -/
theorem repeated_index_rejected :
    ∃ st patch st', (encodePatch macEnv noFault (fun _ => some zeroIV) 0 [] .zero repeatedIndex freshWorld).1 =
        .ok (st, patch) ∧
      (validatePatch macEnv noFault [] { patch with version := st.version } .zero false freshWorld).1 = .ok st' ∧
      st'.hash ≠ st.hash ∧
      (validatePatch macEnv noFault [] { patch with version := st.version } .zero true freshWorld).1 =
        .err (.wrap (.verifyPatch 1) .mismatchingLTHash) :=
  ⟨_, _, _, rfl, rfl, by decide +kernel, by decide +kernel⟩

end Hypermeow.AppState
