/-
The stored collection as a replica of the server's.

The server keeps the patches of a collection in a log, with increasing versions. The collection at a version is what the
patches up to that version assign. A replica is a set of tables that are intact and hold, at their version, the value MACs
of the server's collection at that version.

A writer reads the stored state, and for a patch the previous values of its mutations, before it writes. If what it read
is still stored when it starts, and nothing comes between its writes, the writes take a replica to a replica of the
version they store (`Lands`).

Results: `lands_patch`, `lands_snapshot`, `lands_recovery`, for data that agree with the server's log.
-/
import Hypermeow.AppState.Recovery

namespace Hypermeow.AppState

open Lib List

variable {E : Env} {w w' : World} {db db' : AppStateDB}

/-! ## The server -/

def SyncdPatch.assignments (patch : SyncdPatch) : List (Bytes × Option Bytes) :=
  patch.mutations.map SyncdMutation.assignment

def SyncdSnapshot.assignments (ss : SyncdSnapshot) : List (Bytes × Option Bytes) :=
  (ss.records.map fun record => (⟨.SET, record⟩ : SyncdMutation)).map SyncdMutation.assignment

/-- the patches of a collection -/
structure Server where
  log : List SyncdPatch
  increasing : (log.map (·.version)).Pairwise (· < ·)
  positive : ∀ patch ∈ log, 0 < patch.version

namespace Server

variable {server : Server}

/-- what the patches up to a version assign -/
def upTo (server : Server) (version : ℕ) : List (Bytes × Option Bytes) :=
  (server.log.filter fun patch => patch.version ≤ version).flatMap SyncdPatch.assignments

/-- the value MACs of the collection at a version -/
def live (server : Server) (version : ℕ) : Bytes → Option Bytes := assign (fun _ => none) (server.upTo version)

/-- the patches after a version -/
def after (server : Server) (version : ℕ) : List SyncdPatch := server.log.filter fun patch => version < patch.version

/-- a sorted list is what is up to a version and what is after it -/
theorem filter_append_filter {log : List SyncdPatch} (h : (log.map (·.version)).Pairwise (· < ·)) (v : ℕ) :
    (log.filter fun p => p.version ≤ v) ++ (log.filter fun p => v < p.version) = log := by
  induction log with
  | nil => rfl
  | cons p log ih =>
    rw [map_cons, pairwise_cons] at h
    by_cases hp : p.version ≤ v
    · rw [filter_cons_of_pos (by simpa using hp), filter_cons_of_neg (by simpa using hp), cons_append,
        ih h.2]
    · have hlt : ∀ q ∈ p :: log, v < q.version := by
        intro q hq
        rcases mem_cons.1 hq with rfl | hq
        · exact not_le.1 hp
        · exact (not_le.1 hp).trans (h.1 _ (mem_map_of_mem hq))
      have hnone : (p :: log).filter (fun q => q.version ≤ v) = [] :=
        filter_eq_nil_iff.2 fun q hq => by simpa using hlt q hq
      have hall : (p :: log).filter (fun q => v < q.version) = p :: log :=
        filter_eq_self.2 fun q hq => by simpa using hlt q hq
      rw [hnone, hall, nil_append]

/-- the next patch takes the collection to its version -/
theorem after_cons {v : ℕ} {patch : SyncdPatch} {patches : List SyncdPatch} (h : (patch :: patches) <+: server.after v) :
    v < patch.version ∧ server.live patch.version = assign (server.live v) patch.assignments ∧
      patches <+: server.after patch.version := by
  obtain ⟨rest, hrest⟩ := h
  have hlog := filter_append_filter server.increasing v
  have hsorted := server.increasing
  rw [after] at hrest
  rw [← hrest, cons_append] at hlog
  rw [← hlog, map_append, map_cons, pairwise_append, pairwise_cons] at hsorted
  have hv : v < patch.version := by
    have hmem : patch ∈ server.log.filter fun p => v < p.version := hrest ▸ mem_cons_self
    simpa using (mem_filter.1 hmem).2
  -- the log is what is up to `v`, the patch, and what comes later
  set before := server.log.filter fun p => p.version ≤ v with hbefore
  have hle : ∀ p ∈ before, p.version ≤ v := by
    intro p hp
    simpa using (mem_filter.1 hp).2
  have hlater : ∀ p ∈ patches ++ rest, patch.version < p.version := by
    intro p hp
    exact hsorted.2.1.1 _ (mem_map_of_mem hp)
  have hupTo : server.log.filter (fun p => p.version ≤ patch.version) = before ++ [patch] := by
    have hall : before.filter (fun p => p.version ≤ patch.version) = before :=
      filter_eq_self.2 fun p hp => by simpa using (hle p hp).trans hv.le
    have hnone : (patches ++ rest).filter (fun p => p.version ≤ patch.version) = [] :=
      filter_eq_nil_iff.2 fun p hp => by simpa using hlater p hp
    rw [← hlog, filter_append, filter_cons_of_pos (by simp), hall, hnone]
  have hafter : server.after patch.version = patches ++ rest := by
    have hnone : before.filter (fun p => patch.version < p.version) = [] :=
      filter_eq_nil_iff.2 fun p hp => by simpa using (hle p hp).trans hv.le
    have hall : (patches ++ rest).filter (fun p => patch.version < p.version) = patches ++ rest :=
      filter_eq_self.2 fun p hp => by simpa using hlater p hp
    rw [after, ← hlog, filter_append, filter_cons_of_neg (by simp), hnone, hall, nil_append]
  refine ⟨hv, ?_, rest, hafter.symm⟩
  rw [live, live, upTo, upTo, hupTo, flatMap_append, assign_append, flatMap_singleton]

theorem live_zero (server : Server) : server.live 0 = fun _ => none := by
  have hnil : server.log.filter (fun p => p.version ≤ 0) = [] :=
    filter_eq_nil_iff.2 fun p hp => by simpa using (server.positive p hp).ne'
  rw [live, upTo, hnil]
  rfl

/-- a snapshot of the server's collection -/
def HonestSnapshot (server : Server) (ss : SyncdSnapshot) : Prop :=
  0 < ss.version ∧ assign (fun _ => none) ss.assignments = server.live ss.version

instance (server : Server) (ss : SyncdSnapshot) : Decidable (server.HonestSnapshot ss) :=
  inferInstanceAs (Decidable (_ ∧ assign _ _ = assign _ _))

/-- patches from the log, after a version -/
def HonestPatches (server : Server) (version : ℕ) (patches : List SyncdPatch) : Prop := patches <+: server.after version

instance (server : Server) (version : ℕ) (patches : List SyncdPatch) : Decidable (server.HonestPatches version patches) :=
  inferInstanceAs (Decidable (_ <+: _))

/-- MACs of the server's collection, with their hash -/
def HonestRecovery (E : Env) (server : Server) (st : HashState) (macs : List AppStateMutationMAC) : Prop :=
  assign (fun _ => none) (macs.map AppStateMutationMAC.assignment) = server.live st.version ∧
    lanes st.hash = (macs.map fun m => E.lanes m.valueMAC).sum

instance (server : Server) (st : HashState) (macs : List AppStateMutationMAC) :
    Decidable (server.HonestRecovery E st macs) :=
  inferInstanceAs (Decidable (assign _ _ = assign _ _ ∧ _))

end Server

/-! ## Replicas -/

variable {server : Server}

structure Replica (E : Env) (server : Server) (db : AppStateDB) : Prop where
  integrity : Integrity E db
  agrees : db.getAppStateMutationMAC = server.live db.state.version
  positive : ∀ st, db.versionRow = some st → 0 < st.version

theorem replica_empty (E : Env) (server : Server) : Replica E server .empty where
  integrity := integrity_empty
  agrees := server.live_zero.symm
  positive st h := by cases h

theorem Replica.eq_empty (hr : Replica E server db) (h : db.state.version = 0) : db = .empty := by
  refine AppStateDB.eq_empty ?_
  cases hrow : db.versionRow with
  | none => rfl
  | some st =>
    rw [AppStateDB.state, hrow] at h
    exact absurd h (hr.positive st hrow).ne'

/-! ## Writers -/

/-- what a writer has read of the tables -/
inductive Basis where
  /-- the state, before a snapshot -/
  | snapshot (state : HashState)
  /-- the state and the previous values of the mutations, before a patch -/
  | patch (state : HashState) (patch : SyncdPatch) (prev : List (Option Bytes))
  /-- the version, before a recovery -/
  | recovery (version : ℕ)
deriving DecidableEq

/-- what was read is what is stored -/
def Basis.Valid (db : AppStateDB) : Basis → Prop
  | .snapshot state => db.state = state
  | .patch state p prev => db.state = state ∧ prev = replaced db.getAppStateMutationMAC p.assignments
  | .recovery version => db.state.version = version

instance (db : AppStateDB) : (basis : Basis) → Decidable (basis.Valid db)
  | .snapshot _ => inferInstanceAs (Decidable (_ = _))
  | .patch _ _ _ => inferInstanceAs (Decidable (_ ∧ _))
  | .recovery _ => inferInstanceAs (Decidable (_ = _))

/-- from every replica that agrees with what was read, the calls lead to a replica at `st` -/
def Lands (E : Env) (server : Server) (basis : Basis) (st : HashState) (calls : List Write) : Prop :=
  ∀ db, Replica E server db → basis.Valid db → db.state.version ≤ st.version ∧
    ∀ db', db.writes calls = some db' → Replica E server db' ∧ db'.state = st

variable {st : HashState}

theorem AppStateDB.state_of_row (h : db.versionRow = some st) : db.state = st := by
  rw [AppStateDB.state, h]
  rfl

/-- tables with a new version row that agree with the server -/
theorem replica_of_row (hrow : db'.versionRow = some st) (hpos : 0 < st.version)
    (hi : Integrity E db') (hlive : db'.getAppStateMutationMAC = server.live st.version) :
    Replica E server db' ∧ db'.state = st := by
  have hstate := AppStateDB.state_of_row hrow
  refine ⟨⟨hi, by rw [hstate, hlive], fun st' h => ?_⟩, hstate⟩
  rw [hrow] at h
  exact Option.some.inj h ▸ hpos

/-- a patch from the log, prepared from the previous values that were looked up -/
theorem lands_patch {prev : List (Option Bytes)} {name : Bytes} {patch : SyncdPatch} {patches : List SyncdPatch}
    {st₀ : HashState} {out : PatchOutput} {muts : List Mutation}
    (hhonest : server.HonestPatches st₀.version (patch :: patches))
    (hprep : preparePatchWith E (answered prev) name patch st₀ true muts w = (.ok (st, out), w')) :
    Lands E server (.patch st₀ patch prev) st (storeMACsCalls st out) := by
  intro db hr hvalid
  obtain ⟨rfl, rfl⟩ := hvalid
  obtain ⟨hv, hlive, -⟩ := Server.after_cons hhonest
  obtain ⟨hver, hhash, hpend⟩ := preparePatchWith_ok (answered_answers _ w.db) hprep
  have hprevs := prevs_answered [] (replaced db.getAppStateMutationMAC patch.assignments) patch.mutations
    ((length_replaced _ _).trans (length_map _))
  rw [nil_append, length_nil] at hprevs
  rw [hprevs] at hhash
  have hrows : ∀ r ∈ db.macs, r.version < st.version := by
    intro r hmem
    rw [hver]
    exact (hr.integrity.versions r hmem).trans_lt hv
  refine ⟨by rw [hver]; exact hv.le, fun db' happ => ?_⟩
  rw [writes_storeMACs] at happ
  refine replica_of_row (AppStateDB.applyMACs_eq_some happ).1 (by rw [hver]; omega)
    (hr.integrity.store happ hrows (hpend _) hhash) ?_
  rw [AppStateDB.applyMACs_live happ hrows, hpend, hr.agrees, hver, hlive]
  rfl

/-- a snapshot for the empty collection -/
theorem lands_snapshot {name : Bytes} {ss : SyncdSnapshot} {out : PatchOutput} {muts : List Mutation}
    (hhonest : server.HonestSnapshot ss)
    (hprep : prepareSnapshot E name ss .zero true muts w = (.ok (st, out), w')) :
    Lands E server (.snapshot .zero) st (storeMACsCalls st out) := by
  intro db hr hvalid
  obtain ⟨hver, hhash, hpend, hadded⟩ := prepareSnapshot_ok hprep
  have hzero : db.state.version = 0 := congrArg HashState.version hvalid
  obtain rfl := hr.eq_empty hzero
  refine ⟨Nat.zero_le _, fun db' happ => ?_⟩
  rw [writes_storeMACs] at happ
  have hlanes : lanes HashState.zero.hash = 0 := lanes_zero
  rw [hlanes, zero_add] at hhash
  refine replica_of_row (AppStateDB.applyMACs_eq_some happ).1 (by rw [hver]; exact hhonest.1)
    (Integrity.fill happ (hadded ▸ AppStateDB.put_indexes_nodup happ) (hpend _) hhash) ?_
  rw [AppStateDB.applyMACs_live happ fun r hmem => absurd hmem not_mem_nil, hpend, hver, ← hhonest.2]
  rfl

/-- a recovered collection of a higher version -/
theorem lands_recovery {macs : List AppStateMutationMAC} {version : ℕ} (hv : version < st.version)
    (hhonest : server.HonestRecovery E st macs) :
    Lands E server (.recovery version) st (processRecoveryCalls st macs) := by
  intro db hr hvalid
  refine ⟨(le_of_eq hvalid).trans hv.le, fun db' happ => ?_⟩
  obtain ⟨hi, hrow, hlive⟩ := recovery_integrity happ hhonest.2
  exact replica_of_row hrow (by omega) hi (hlive.trans hhonest.1)

end Hypermeow.AppState
