/-
The store calls of the app state writers, and recovering a collection (`appstate/decode.go`, `appstate/recovery.go`).

`storeMACs` and `ProcessRecovery` write a collection with three store calls each. `ProcessRecovery` replaces it by a
snapshot that the primary device sent: it checks the length of the hash, derives the index MAC of every record, deletes
the collection and stores the version, the hash and the MACs. That the hash belongs to the MACs is not checked.

Model: the writes of both as lists of store calls on the tables. Decompressing and parsing the snapshot is left out.

Results:
- `writes_storeMACs`, `writes_processRecovery`: what the calls leave behind when nothing comes between them.
-/
import Hypermeow.AppState.Atomicity

namespace Hypermeow.AppState

open Lib List AppStateDB

variable {E : Env} {w w' : World} {db db' : AppStateDB}

/-! ## Store calls -/

/-- a store call that changes the tables -/
inductive Write where
  | putAppStateVersion (st : HashState)
  | deleteAppStateVersion
  | deleteAppStateMutationMACs (indexMACs : List Bytes)
  | putAppStateMutationMACs (version : ℕ) (mutations : List AppStateMutationMAC)
deriving DecidableEq

namespace AppStateDB

/-- `none` if a constraint is violated -/
def write (db : AppStateDB) : Write → Option AppStateDB
  | .putAppStateVersion st => some (db.putAppStateVersion st)
  | .deleteAppStateVersion => some db.deleteAppStateVersion
  | .deleteAppStateMutationMACs indexMACs => some (db.deleteAppStateMutationMACs indexMACs)
  | .putAppStateMutationMACs version mutations => db.putAppStateMutationMACs version mutations

def writes (db : AppStateDB) : List Write → Option AppStateDB
  | [] => some db
  | c :: cs => (db.write c).bind fun db => db.writes cs

end AppStateDB

/-- the calls of `storeMACs` -/
def storeMACsCalls (currentState : HashState) (out : PatchOutput) : List Write :=
  [.putAppStateVersion currentState, .deleteAppStateMutationMACs out.removedMACs,
    .putAppStateMutationMACs currentState.version out.addedMACs]

theorem writes_storeMACs (db : AppStateDB) (st : HashState) (out : PatchOutput) :
    db.writes (storeMACsCalls st out) = db.applyMACs st out :=
  Option.bind_fun_some _

/-! ## Lookups in advance -/

theorem updateHashLoop_congr {p q : Bytes → ℕ → Proc (Option Bytes)} {ms : List SyncdMutation} {i : ℕ} {d : HashDelta}
    (h : ∀ j m, ms[j]? = some m → ∃ r, p m.record.index (i + j) w = (.ok r, w) ∧ q m.record.index (i + j) w = (.ok r, w)) :
    updateHashLoop p i ms d w = updateHashLoop q i ms d w := by
  induction ms generalizing i d with
  | nil => rfl
  | cons m ms ih =>
    refine Go.bind_congr fun d₁ w₁ hadd => ?_
    obtain ⟨-, rfl⟩ := add_ok hadd
    obtain ⟨r, hp, hq⟩ := h 0 m rfl
    rw [Nat.add_zero] at hp hq
    have hrest : ∀ d, updateHashLoop p (i + 1) ms d w₁ = updateHashLoop q (i + 1) ms d w₁ := by
      intro d
      refine ih fun j m' hm' => ?_
      rw [Nat.add_right_comm, Nat.add_assoc]
      exact h (j + 1) m' hm'
    refine (Go.bind_ok (Go.mapErr_ok hp)).trans (Eq.trans ?_ (Go.bind_ok (Go.mapErr_ok hq)).symm)
    cases r with
    | none => exact hrest _
    | some removal => exact hrest _

/-- the lookups of a patch, answered from a list -/
def answered (prev : List (Option Bytes)) : Bytes → ℕ → Proc (Option Bytes) := fun _ i => pure (prev.getD i none)

theorem answered_keeps (prev : List (Option Bytes)) (k : Bytes) (i : ℕ) : KeepsDB (answered prev k i) := .pure _

theorem answered_answers (prev : List (Option Bytes)) (db : AppStateDB) :
    Answers db (answered prev) fun _ i => prev.getD i none := by
  intro k i w w' r hdb h
  cases h
  exact ⟨rfl, hdb⟩

/-- **Lookups in advance.** Previous values that were looked up in the tables as they are give the patch that
`DecodePatches` prepares. -/
theorem preparePatchWith_looked {patch : SyncdPatch} {prev : List (Option Bytes)}
    (h : ∀ i m, patch.mutations[i]? = some m →
      prevSetValueMAC noFault patch m.record.index i w = (.ok (prev.getD i none), w))
    (name : Bytes) (st : HashState) (validateMACs : Bool) (muts : List Mutation) :
    preparePatchWith E (answered prev) name patch st validateMACs muts w =
      preparePatch E noFault name patch st validateMACs muts w := by
  have hloop : ∀ d, updateHashLoop (answered prev) 0 patch.mutations d w =
      updateHashLoop (prevSetValueMAC noFault patch) 0 patch.mutations d w := by
    intro d
    refine updateHashLoop_congr fun j m hm => ⟨prev.getD j none, ?_, ?_⟩
    · rw [Nat.zero_add]
      rfl
    · rw [Nat.zero_add]
      exact h j m hm
  rw [preparePatch_eq, preparePatchWith, preparePatchWith]
  simp only [validatePatchWith, updateHash, wrap, Go.mapErr, Go.bind_run, hloop]

/-- as many answers as mutations are all of them used -/
theorem prevs_answered (pre l : List (Option Bytes)) (ms : List SyncdMutation) (h : l.length = ms.length) :
    prevs (fun _ i => (pre ++ l).getD i none) pre.length ms = l := by
  induction ms generalizing pre l with
  | nil => exact (length_eq_zero_iff.1 h).symm
  | cons m ms ih =>
    cases l with
    | nil => cases h
    | cons a l =>
      have hmid : pre ++ a :: l = (pre ++ [a]) ++ l := by simp
      have hlen : pre.length + 1 = (pre ++ [a]).length := by simp
      have hhead : (pre ++ a :: l).getD pre.length none = a := by simp
      rw [prevs, hhead, hmid, hlen, ih (pre ++ [a]) l (Nat.succ.inj h)]

/-! ## Recovery -/

structure SyncdPlainTextRecord where
  value : SyncActionData
  keyID : Option Bytes
  mac : Bytes
deriving DecidableEq, Repr

structure SyncdSnapshotRecovery where
  version : ℕ
  collectionName : Bytes
  mutationRecords : List SyncdPlainTextRecord
  collectionLthash : Bytes
deriving DecidableEq, Repr

inductive RecoveryError where
  | lthashLength (n : ℕ)
  | getKey (keyID : Bytes) (n : ℕ) (e : AppStateError)
  | unmarshalIndex (n : ℕ)
deriving DecidableEq, Repr

variable (E) in
/-- one round of the loop of `ProcessRecovery` -/
def processRecord (version i : ℕ) (mutation : SyncdPlainTextRecord) :
    Go World RecoveryError (AppStateMutationMAC × Mutation) := do
  let keyID := mutation.keyID.getD []
  let keys ← (getAppStateKey E keyID).mapErr (.getKey keyID (i + 1))
  match E.unmarshalIndex mutation.value.index with
  | none => Go.throw (.unmarshalIndex (i + 1))
  | some parsedIndex =>
    let mac : AppStateMutationMAC := ⟨(E.hmacSHA256 keys.index mutation.value.index).1, mutation.mac⟩
    pure (mac, ⟨mutation.keyID, .SET, mutation.value.value, mutation.value.version, parsedIndex, mac.indexMAC,
      mac.valueMAC, version⟩)

variable (E) in
def processRecords (version : ℕ) : ℕ → List SyncdPlainTextRecord →
    Go World RecoveryError (List (AppStateMutationMAC × Mutation))
  | _, [] => pure []
  | i, mutation :: mutations => do
    let r ← processRecord E version i mutation
    let rest ← processRecords version (i + 1) mutations
    pure (r :: rest)

variable (E) in
/-- `ProcessRecovery` up to the store calls: the state, the MACs to store and the mutations -/
def prepareRecovery (recovery : SyncdSnapshotRecovery) :
    Go World RecoveryError (HashState × List AppStateMutationMAC × List Mutation) :=
  if h : recovery.collectionLthash.length = 128 then do
    let rs ← processRecords E recovery.version 0 recovery.mutationRecords
    pure (⟨recovery.version, ⟨recovery.collectionLthash, h⟩⟩, rs.map Prod.fst, rs.map Prod.snd)
  else Go.throw (.lthashLength recovery.collectionLthash.length)

/-- the calls of `ProcessRecovery` -/
def processRecoveryCalls (st : HashState) (macs : List AppStateMutationMAC) : List Write :=
  [.deleteAppStateVersion, .putAppStateVersion st, .putAppStateMutationMACs st.version macs]

theorem processRecords_keeps (version i : ℕ) (mutations : List SyncdPlainTextRecord) :
    Go.Keeps World.db (processRecords E version i mutations) := by
  induction mutations generalizing i with
  | nil => exact .pure _
  | cons mutation mutations ih =>
    refine .bind (.bind (getAppStateKey_keeps _).mapErr fun keys => ?_) fun _ => .bind (ih _) fun _ => .pure _
    cases E.unmarshalIndex mutation.value.index with
    | none => exact .throw _
    | some parsedIndex => exact .pure _

theorem prepareRecovery_keeps (recovery : SyncdSnapshotRecovery) : Go.Keeps World.db (prepareRecovery E recovery) := by
  rw [prepareRecovery]
  split_ifs
  · exact .bind (processRecords_keeps _ _ _) fun _ => .pure _
  · exact .throw _

theorem prepareRecovery_version {recovery : SyncdSnapshotRecovery} {st : HashState} {macs : List AppStateMutationMAC}
    {muts : List Mutation} (h : prepareRecovery E recovery w = (.ok (st, macs, muts), w')) :
    st.version = recovery.version := by
  rw [prepareRecovery] at h
  split_ifs at h
  · obtain ⟨rs, w₁, -, h₁⟩ := Go.bind_eq_ok.1 h
    cases h₁
    rfl
  · cases h

/-- the old collection does not matter -/
theorem writes_processRecovery (db : AppStateDB) (st : HashState) (macs : List AppStateMutationMAC) :
    db.writes (processRecoveryCalls st macs) = AppStateDB.empty.applyMACs st ⟨[], macs, []⟩ := by
  rw [AppStateDB.applyMACs, delete_nil]
  exact Option.bind_fun_some _

/-- the MACs as assignments -/
def AppStateMutationMAC.assignment (m : AppStateMutationMAC) : Bytes × Option Bytes := (m.indexMAC, some m.valueMAC)

theorem pending_added (macs : List AppStateMutationMAC) (f : Bytes → Option Bytes) :
    PatchOutput.pending ⟨[], macs, []⟩ f = assign f (macs.map AppStateMutationMAC.assignment) := by
  funext k
  rw [assign_eq_find, ← map_reverse, find?_map, Option.map_map]
  rfl

/-- **Recovery.** A recovered collection is intact if the hash that came with it is the sum over its MACs. -/
theorem recovery_integrity {st : HashState} {macs : List AppStateMutationMAC}
    (h : db.writes (processRecoveryCalls st macs) = some db')
    (hhash : lanes st.hash = (macs.map fun m => E.lanes m.valueMAC).sum) :
    Integrity E db' ∧ db'.versionRow = some st ∧
      db'.getAppStateMutationMAC = assign (fun _ => none) (macs.map AppStateMutationMAC.assignment) := by
  rw [writes_processRecovery] at h
  have hnodup := put_indexes_nodup h
  refine ⟨Integrity.fill h ?_ (pending_added macs _) ?_, (applyMACs_eq_some h).1, ?_⟩
  · rw [map_map]
    exact hnodup
  · rw [hhash, map_map]
    rfl
  · exact (applyMACs_live h fun r hr => absurd hr not_mem_nil).trans (pending_added macs _)

end Hypermeow.AppState
