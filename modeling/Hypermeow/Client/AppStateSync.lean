/-
Writers of an app state collection side by side (`fetchAppState`, `applyAppStatePatches`, `handleAppStateRecovery` and
`sendAppState` of `appstate.go`, `ProcessRecovery` of `appstate/recovery.go`, `storeMACs` of `appstate/decode.go`).

`fetchAppState` holds `appStateSyncLock` from before it reads the stored version until its last write. The other two do
not take the lock: when the server answers a patch with a conflict, `sendAppState` applies the patches of the answer to the
state that it read before it sent, and `handleAppStateRecovery` compares the version it read and replaces the collection.

Model: any number of runs of the three on one collection; the scheduler starts runs and chooses which makes the next step.
A step makes at most one store call on the collection: reading the version, looking up one previous value, or one write.
The answers of the server and failing requests are choices of the scheduler. Keys may arrive or get lost at any time; a
patch or recovery is decoded in one step, as decoding does not touch the collection. What `EncodePatch` builds goes to the
server only and is left out, as are events and the tables of contacts and chats. A panic ends the run.

A step may be `Honest` (what the server and the primary device say agrees with the server's log), it may meet
`StoreSucceeds` (no store call fails), and it may be `Undisturbed`: a run starts to write only while no other is between
two of its writes and what it read is still stored.
-/
import Hypermeow.AppState.Replica

namespace Hypermeow.Client.AppStateSync

open Lib AppState

/-! ## Model -/

/-- who called `applyAppStatePatches` -/
inductive Caller where
  /-- `fetchAppState`, with the lock; does the server have more patches? -/
  | fetch (hasMore : Bool)
  /-- `sendAppState` after a conflict -/
  | send
deriving DecidableEq

/-- `DecodePatches` before the next snapshot or patch -/
structure Decoding where
  /-- what is left -/
  list : PatchList
  /-- `currentState` -/
  state : HashState
  mutations : List Mutation
  caller : Caller

/-- `storeMACs` or `ProcessRecovery` at its store calls -/
structure Writing where
  /-- what the run had read -/
  basis : Basis
  /-- what it stores -/
  state : HashState
  /-- the calls left -/
  calls : List Write
  /-- has it made a call? -/
  begun : Bool

/-- where a run is: the next thing it does -/
inductive Phase where
  /-- `appStateSyncLock.Lock` of `fetchAppState` -/
  | locking (fullSync onlyIfNotSynced : Bool)
  /-- `DeleteAppStateVersion` of a full sync -/
  | resetting (onlyIfNotSynced : Bool)
  /-- `GetAppStateVersion` of `fetchAppState` -/
  | fetching (fullSync onlyIfNotSynced : Bool)
  /-- `fetchAppStatePatches` -/
  | requesting (state : HashState) (wantSnapshot : Bool)
  /-- `GetAppStateVersion` of `sendAppState` -/
  | sending (allowRetry : Bool)
  /-- `EncodePatch` and `sendIQ` of `sendAppState` -/
  | uploading (state : HashState) (allowRetry : Bool)
  | decoding (d : Decoding)
  /-- `GetAppStateMutationMAC` for the mutations of a patch; the previous values found so far -/
  | looking (d : Decoding) (patch : SyncdPatch) (prev : List (Option Bytes))
  | storing (d : Decoding) (x : Writing)
  /-- `GetAppStateVersion` of `handleAppStateRecovery` -/
  | recovering (recovery : SyncdSnapshotRecovery)
  /-- `ProcessRecovery` before its store calls; the version that was stored -/
  | processing (recovery : SyncdSnapshotRecovery) (currentVersion : ℕ)
  | replacing (x : Writing)
  | done

inductive Call where
  | fetchAppState (fullSync onlyIfNotSynced : Bool)
  | sendAppState
  | handleAppStateRecovery (recovery : SyncdSnapshotRecovery)

def Call.phase : Call → Phase
  | .fetchAppState fullSync onlyIfNotSynced => .locking fullSync onlyIfNotSynced
  | .sendAppState => .sending true
  | .handleAppStateRecovery recovery => .recovering recovery

/-- the server's answer -/
inductive Reply where
  | patches (list : PatchList) (hasMore : Bool)
  | accepted
  /-- error 409, with the patches that are missing here -/
  | conflict (list : PatchList)

structure Sys where
  world : World
  /-- `appStateSyncLock` -/
  locked : Bool
  runs : List Phase

inductive Action where
  | start (call : Call)
  /-- the next step of a run; the answer to its request, if it makes one that does not fail -/
  | step (i : ℕ) (reply : Option Reply)
  /-- keys arrive or are lost, or the processor is replaced -/
  | rekey (keyCache : List (Bytes × ExpandedAppStateKeys)) (syncKeys : Bytes → Option (Option Bytes))

/-- the lock after the caller has returned -/
def Caller.unlock (locked : Bool) : Caller → Bool
  | .fetch _ => false
  | .send => locked

/-- the next store call: the tables after it and what is left; `none` if it fails -/
def Writing.next (db : AppStateDB) (x : Writing) : Option (AppStateDB × Option Writing) :=
  match x.calls with
  | [] => some (db, none)
  | c :: cs => (db.write c).map fun db => (db, if cs = [] then none else some { x with calls := cs, begun := true })

/-- the next step of a run: the world, the lock and where it is then -/
def advance (E : Env) (reply : Option Reply) (w : World) (locked : Bool) : Phase → World × Bool × Phase
  | .locking fullSync onlyIfNotSynced =>
    if locked then (w, locked, .locking fullSync onlyIfNotSynced)
    else (w, true, if fullSync then .resetting onlyIfNotSynced else .fetching false onlyIfNotSynced)
  | .resetting onlyIfNotSynced => ({ w with db := w.db.deleteAppStateVersion }, locked, .fetching true onlyIfNotSynced)
  | .fetching fullSync onlyIfNotSynced =>
    match w.db.getAppStateVersion with
    | none => (w, false, .done)
    | some state =>
      if state.version ≠ 0 ∧ onlyIfNotSynced then (w, false, .done)
      else (w, locked, .requesting state (fullSync || decide (state.version = 0)))
  | .requesting state wantSnapshot =>
    match reply with
    | some (.patches list hasMore) =>
      if ¬wantSnapshot ∧ list.snapshot ≠ none then (w, false, .done)
      else if list.snapshot ≠ none ∧ state ≠ .zero then (w, false, .done)
      else (w, locked, .decoding ⟨list, state, [], .fetch hasMore⟩)
    | _ => (w, false, .done)
  | .sending allowRetry =>
    match w.db.getAppStateVersion with
    | none => (w, locked, .done)
    | some state => (w, locked, .uploading state allowRetry)
  | .uploading state allowRetry =>
    match reply with
    | some .accepted => (w, locked, .locking false false)
    | some (.conflict list) =>
      if allowRetry then (w, locked, .decoding ⟨list, state, [], .send⟩) else (w, locked, .done)
    | _ => (w, locked, .done)
  | .decoding d =>
    match d.list.snapshot with
    | some ss =>
      match prepareSnapshot E d.list.name ss d.state true d.mutations w with
      | (.ok (st, out), w) =>
        (w, locked, .storing { d with list.snapshot := none, state := st, mutations := out.mutations }
          ⟨.snapshot d.state, st, storeMACsCalls st out, false⟩)
      | (_, w) => (w, d.caller.unlock locked, .done)
    | none =>
      match d.list.patches, d.caller with
      | patch :: patches, _ => (w, locked, .looking { d with list.patches := patches } patch [])
      | [], .fetch hasMore => if hasMore then (w, locked, .requesting d.state false) else (w, false, .done)
      | [], .send => (w, locked, .sending false)
  | .looking d patch prev =>
    match patch.mutations[prev.length]? with
    | some mutation =>
      match prevSetValueMAC noFault patch mutation.record.index prev.length w with
      | (.ok r, w) => (w, locked, .looking d patch (prev ++ [r]))
      | (_, w) => (w, d.caller.unlock locked, .done)
    | none =>
      match preparePatchWith E (answered prev) d.list.name patch d.state true d.mutations w with
      | (.ok (st, out), w) =>
        (w, locked, .storing { d with state := st, mutations := out.mutations }
          ⟨.patch d.state patch prev, st, storeMACsCalls st out, false⟩)
      | (_, w) => (w, d.caller.unlock locked, .done)
  | .storing d x =>
    match x.next w.db with
    | none => (w, d.caller.unlock locked, .done)
    | some (db, none) => ({ w with db := db }, locked, .decoding d)
    | some (db, some x) => ({ w with db := db }, locked, .storing d x)
  | .recovering recovery =>
    match w.db.getAppStateVersion with
    | none => (w, locked, .done)
    | some state =>
      if state.version ≥ recovery.version then (w, locked, .done)
      else (w, locked, .processing recovery state.version)
  | .processing recovery currentVersion =>
    match prepareRecovery E recovery w with
    | (.ok (st, macs, _), w) =>
      (w, locked, .replacing ⟨.recovery currentVersion, st, processRecoveryCalls st macs, false⟩)
    | (_, w) => (w, locked, .done)
  | .replacing x =>
    match x.next w.db with
    | none => (w, locked, .done)
    | some (db, none) => ({ w with db := db }, locked, .done)
    | some (db, some x) => ({ w with db := db }, locked, .replacing x)
  | .done => (w, locked, .done)

def step (E : Env) (s : Sys) : Action → Sys
  | .start call => { s with runs := s.runs ++ [call.phase] }
  | .step i reply =>
    match s.runs[i]? with
    | none => s
    | some ph =>
      let r := advance E reply s.world s.locked ph
      ⟨r.1, r.2.1, s.runs.set i r.2.2⟩
  | .rekey keyCache syncKeys => { s with world := { s.world with keyCache := keyCache, syncKeys := syncKeys } }

/-- no runs yet -/
def init (w : World) : Sys := ⟨w, false, []⟩

/-! ## Conditions on a step -/

/-- the store calls that a run is at -/
def Phase.writing : Phase → Option Writing
  | .storing _ x => some x
  | .replacing x => some x
  | _ => none

/-- in the middle of `storeMACs` or `ProcessRecovery` -/
def Phase.mid (ph : Phase) : Bool := (ph.writing.map (·.begun)).getD false

/-- in the middle of `ProcessRecovery` -/
def Phase.midRecovery : Phase → Bool
  | .replacing x => x.begun
  | _ => false

/-- before the `DeleteAppStateVersion` of a full sync -/
def Phase.resets : Phase → Bool
  | .resetting _ => true
  | _ => false

/-- no run is in the middle of `storeMACs` or `ProcessRecovery` -/
def Sys.Quiet (s : Sys) : Prop := ∀ ph ∈ s.runs, ph.mid = false

/-- no run is in the middle of `ProcessRecovery` -/
def Sys.NoRecovery (s : Sys) : Prop := ∀ ph ∈ s.runs, ph.midRecovery = false

instance (s : Sys) : Decidable s.Quiet := inferInstanceAs (Decidable (∀ _ ∈ _, _))

instance (s : Sys) : Decidable s.NoRecovery := inferInstanceAs (Decidable (∀ _ ∈ _, _))

/-- the step is the reset of a full sync -/
def Resets (s : Sys) : Action → Prop
  | .step i _ => ∃ ph ∈ s.runs[i]?, ph.resets = true
  | _ => False

instance (s : Sys) : (a : Action) → Decidable (Resets s a)
  | .step _ _ => inferInstanceAs (Decidable (∃ _ ∈ _, _))
  | .start _ | .rekey _ _ => .isFalse id

/-- a list of patches that the server has, for a collection in a state -/
def HonestList (server : Server) (state : HashState) (list : PatchList) : Prop :=
  (∀ ss ∈ list.snapshot, server.HonestSnapshot ss) ∧ server.HonestPatches (list.startVersion state) list.patches

instance (server : Server) (state : HashState) (list : PatchList) : Decidable (HonestList server state list) :=
  inferInstanceAs (Decidable (_ ∧ _))

/-- a conflict comes without a snapshot, as none was asked for -/
def HonestReply (server : Server) (state : HashState) : Option Reply → Prop
  | some (.patches list _) => HonestList server state list
  | some (.conflict list) => list.snapshot = none ∧ HonestList server state list
  | _ => True

instance (server : Server) (state : HashState) : (reply : Option Reply) → Decidable (HonestReply server state reply)
  | some (.patches _ _) => inferInstanceAs (Decidable (HonestList _ _ _))
  | some (.conflict _) => inferInstanceAs (Decidable (_ ∧ _))
  | some .accepted => .isTrue trivial
  | none => .isTrue trivial

/-- the collection that `ProcessRecovery` is about to store is the server's -/
def HonestPrepared (E : Env) (server : Server) :
    Outcome RecoveryError (HashState × List AppStateMutationMAC × List Mutation) → Prop
  | .ok (st, macs, _) => server.HonestRecovery E st macs
  | _ => True

instance (E : Env) (server : Server) :
    (o : Outcome RecoveryError (HashState × List AppStateMutationMAC × List Mutation)) → Decidable (HonestPrepared E server o)
  | .ok (_, _, _) => inferInstanceAs (Decidable (server.HonestRecovery _ _ _))
  | .err _ | .panic => .isTrue trivial

/-- what a step is told is honest: the answer of the server, the collection that the primary device sent -/
def Phase.Honest (E : Env) (server : Server) (w : World) (reply : Option Reply) : Phase → Prop
  | .requesting state _ => HonestReply server state reply
  | .uploading state _ => HonestReply server state reply
  | .processing recovery _ => HonestPrepared E server (prepareRecovery E recovery w).1
  | _ => True

instance (E : Env) (server : Server) (w : World) (reply : Option Reply) :
    (ph : Phase) → Decidable (ph.Honest E server w reply)
  | .requesting _ _ => inferInstanceAs (Decidable (HonestReply _ _ _))
  | .uploading _ _ => inferInstanceAs (Decidable (HonestReply _ _ _))
  | .processing _ _ => inferInstanceAs (Decidable (HonestPrepared _ _ _))
  | .locking _ _ | .resetting _ | .fetching _ _ | .sending _ | .decoding _ | .looking _ _ _ | .storing _ _
  | .recovering _ | .replacing _ | .done => .isTrue trivial

def Honest (E : Env) (server : Server) (s : Sys) : Action → Prop
  | .step i reply => ∀ ph ∈ s.runs[i]?, ph.Honest E server s.world reply
  | _ => True

instance (E : Env) (server : Server) (s : Sys) : (a : Action) → Decidable (Honest E server s a)
  | .step _ _ => inferInstanceAs (Decidable (∀ _ ∈ _, _))
  | .start _ | .rekey _ _ => .isTrue trivial

/-- a write is accepted by the store -/
def StoreSucceeds (s : Sys) : Action → Prop
  | .step i _ => ∀ ph ∈ s.runs[i]?, ∀ x ∈ ph.writing, (x.next s.world.db).isSome = true
  | _ => True

instance (s : Sys) : (a : Action) → Decidable (StoreSucceeds s a)
  | .step _ _ => inferInstanceAs (Decidable (∀ _ ∈ _, _))
  | .start _ | .rekey _ _ => .isTrue trivial

/-- a run makes its first write, or resets, only when no other is between two writes and what it read is still stored -/
def Undisturbed (s : Sys) : Action → Prop
  | .step i _ => ∀ ph ∈ s.runs[i]?, (ph.resets = true → s.Quiet) ∧
      ∀ x ∈ ph.writing, x.begun = false → s.Quiet ∧ x.basis.Valid s.world.db
  | _ => True

instance (s : Sys) : (a : Action) → Decidable (Undisturbed s a)
  | .step _ _ => inferInstanceAs (Decidable (∀ _ ∈ _, _))
  | .start _ | .rekey _ _ => .isTrue trivial

end Hypermeow.Client.AppStateSync
