/-
Conditional insertion of identity keys among concurrent calls.

A reader takes keys and a generation from `GetManyIdentities`, asks the server for the missing keys, and stores each with
`EnsureIdentity(address, key, generation)`. Meanwhile other calls run.

Model. The calls of the identity store hold `identityCacheLock` from their first look at the cache to their last change of it,
so they are single steps. `EnsureIdentity` is two: up to the insert, and the read of the row, with the lock held in between.
`MigratePNToLID` runs in sections: its first section, the query for rows, the transaction, `finishPNMigration`, and the
section that takes the lock and empties the cache. Its transaction does not take the lock, so it may come between the two
steps of `EnsureIdentity`. Any number of migrations are under way. The part of `GetManyIdentities` under the read lock
changes nothing: it is a look at the generation in some state. `ensureIdentity_eq` and `migration_sections` say that without
interleaving the sections are the sequential calls.

Results, for every run:
- `settled_run`: the present entries of the cache are rows, or a migration has committed and is about to empty the cache.
-/
import Hypermeow.Lib.Runs
import Hypermeow.Store.IdentityAgreement

namespace Hypermeow.Store

open Lib Types Session Go

/-! ## Sections -/

/-- the insert of `EnsureIdentity`, after which the row is to be read -/
def ensureInsert (address : Bytes) (key : Key) : Go SignalSession StoreError (Option Bool) := do
  exec .database fun t => some (t.ensureIdentity address key)
  pure none

/-- `EnsureIdentity` up to its insert: the answer, or `none` when the row is to be read -/
def ensureStart (address : Bytes) (key : Key) (deleteGeneration : ℕ) : Go SignalSession StoreError (Option Bool) := do
  let s ← Go.get
  if deleteGeneration ≠ s.memory.identityDeleteGen then pure (some false)
  else
    match s.memory.identityCache.lookup address with
    | some (some stored) => pure (some (stored = key))
    | _ => ensureInsert address key

/-- the rest of `EnsureIdentity` -/
def ensureRead (address : Bytes) (key : Key) : Go SignalSession StoreError Bool := do
  call .database
  let s ← Go.get
  ensuredIdentity address key (s.tables.identityKeys.lookup address)

/-- where a call of `MigratePNToLID` is, after its first section -/
inductive MigrationPhase where
  | check (sqlite : Bool) (now : ℕ)
  | transact
  | finish (res : Except StoreError Migrated)
  | clear

structure MigrationCall where
  pn : Bytes
  lid : Bytes
  phase : MigrationPhase

namespace MigrationCall

/-- the outcome of the query for rows -/
def checked (c : MigrationCall) (now : ℕ) : Except StoreError Bool → Go SignalSession StoreError (Option MigrationCall)
  | .ok false => do
    let first ← pick
    update (finishEmptyPNMigration c.pn now first)
    pure none
  | _ => pure (some { c with phase := .transact })

/-- the next section; `none` is returned at the end of the call -/
def advance (c : MigrationCall) : Go SignalSession StoreError (Option MigrationCall) :=
  match c.phase with
  | .check sqlite now => do
    let rows ← checkPNRows sqlite c.pn
    c.checked now rows
  | .transact => do
    let res ← Go.attempt (doTxn false (migrateRows c.pn c.lid))
    pure (some { c with phase := .finish res })
  | .finish (.error e) => do
    let first ← pick
    update (finishPNMigration c.pn false first)
    Go.throw e
  | .finish (.ok _) => do
    let first ← pick
    update (finishPNMigration c.pn true first)
    pure (some { c with phase := .clear })
  | .clear => do
    update fun m => { m with identityCache := ∅ }
    pure none

/-- does the next section need the lock of the identity cache? -/
def needsLock (c : MigrationCall) : Bool :=
  match c.phase with
  | .clear => true
  | _ => false

/-- has the migration committed, but not emptied the cache yet? -/
def committed (c : MigrationCall) : Bool :=
  match c.phase with
  | .finish (.ok _) => true
  | .clear => true
  | _ => false

/-- is the transaction the next section? -/
def transacts (c : MigrationCall) : Bool :=
  match c.phase with
  | .transact => true
  | _ => false

end MigrationCall

/-! ## Interleavings -/

structure IdentityThreads where
  session : SignalSession
  /-- the `EnsureIdentity` that has inserted and holds the lock -/
  ensuring : Option (Bytes × Key)
  migrations : List MigrationCall

inductive ThreadStep where
  | putIdentity (address : Bytes) (key : Key)
  | deleteIdentity (address : Bytes)
  | deleteAllIdentities (phone : Bytes)
  | isTrustedIdentity (address : Bytes) (key : Key)
  | getManyIdentities (addresses : List Bytes)
  | ensureStart (address : Bytes) (key : Key) (deleteGeneration : ℕ)
  | ensureRead
  | migratePNToLID (sqlite : Bool) (now : ℕ) (pn lid : JID)
  /-- the next section of a migration -/
  | advance (i : ℕ)

namespace IdentityThreads

/-- the generation that a reader takes in this state -/
def generation (t : IdentityThreads) : ℕ := t.session.memory.identityDeleteGen

/-- a call that holds the lock for all it does -/
def locked {α : Type} (t : IdentityThreads) (x : Go SignalSession StoreError α) : IdentityThreads :=
  if t.ensuring.isSome then t else { t with session := (x t.session).2 }

/-- the first part of an `EnsureIdentity` -/
def startEnsure (t : IdentityThreads) (address : Bytes) (key : Key) (deleteGeneration : ℕ) : IdentityThreads :=
  let started := Store.ensureStart address key deleteGeneration t.session
  if t.ensuring.isSome then t
  else { t with session := started.2, ensuring := if started.1 = .ok none then some (address, key) else none }

/-- the first section of a migration -/
def startMigrate (t : IdentityThreads) (sqlite : Bool) (now : ℕ) (pn lid : Bytes) : IdentityThreads where
  session := { t.session with memory := startMigration pn now t.session.memory }
  ensuring := t.ensuring
  migrations := if skipsMigration t.session.memory pn now then t.migrations
    else t.migrations ++ [⟨pn, lid, .check sqlite now⟩]

/-- the migrations after a section of the one at `i` -/
def advanced (migrations : List MigrationCall) (i : ℕ) : Outcome StoreError (Option MigrationCall) → List MigrationCall
  | .ok (some c) => migrations.set i c
  | _ => migrations.eraseIdx i

def advance (t : IdentityThreads) (i : ℕ) : IdentityThreads :=
  match t.migrations[i]? with
  | none => t
  | some c =>
    if c.needsLock && t.ensuring.isSome then t
    else ⟨(c.advance t.session).2, t.ensuring, advanced t.migrations i (c.advance t.session).1⟩

/-- a step that the lock does not let through changes nothing -/
def step (t : IdentityThreads) : ThreadStep → IdentityThreads
  | .putIdentity address key => t.locked (Store.putIdentity address key)
  | .deleteIdentity address => t.locked (Store.deleteIdentity address)
  | .deleteAllIdentities phone => t.locked (Store.deleteAllIdentities phone)
  | .isTrustedIdentity address key => t.locked (Store.isTrustedIdentity address key)
  | .getManyIdentities addresses => t.locked (Store.getManyIdentities addresses)
  | .ensureStart address key deleteGeneration => t.startEnsure address key deleteGeneration
  | .ensureRead =>
    match t.ensuring with
    | none => t
    | some (address, key) => { t with session := (Store.ensureRead address key t.session).2, ensuring := none }
  | .migratePNToLID sqlite now pn lid => t.startMigrate sqlite now pn.signalAddressUser lid.signalAddressUser
  | .advance i => t.advance i

/-- a new store over the tables -/
def start (tables : SignalTables) (faults : List Bool) (picks : List ℕ) : IdentityThreads :=
  ⟨⟨newSQLStore, tables, faults, picks⟩, none, []⟩

end IdentityThreads

/-! ## The sections are the calls -/

variable {α : Type} {s s' : SignalSession} {address phone : Bytes} {key : Key} {g : ℕ}

/-- the rest of `EnsureIdentity` after its first part -/
def ensureRest (address : Bytes) (key : Key) : Option Bool → Go SignalSession StoreError Bool
  | some answer => pure answer
  | none => ensureRead address key

theorem ensureIdentity_eq (address : Bytes) (key : Key) (g : ℕ) :
    ensureIdentity address key g = ensureStart address key g >>= ensureRest address key := by
  have hinsert : insertIdentity address key = ensureInsert address key >>= ensureRest address key := by
    unfold ensureInsert
    rw [bind_assoc]
    rfl
  funext s
  unfold ensureIdentity ensureStart
  rw [bind_assoc, get_bind, get_bind]
  split_ifs
  · rfl
  · rcases s.memory.identityCache.lookup address with _ | _ | stored
    · exact congrFun hinsert s
    · exact congrFun hinsert s
    · rfl

namespace IdentityThreads

variable {c d : MigrationCall}

/-- a migration that runs alone goes on -/
theorem advance_alone (h : c.advance s = (.ok (some d), s')) : step ⟨s, none, [c]⟩ (.advance 0) = ⟨s', none, [d]⟩ := by
  simp [step, advance, advanced, h]

/-- or ends -/
theorem advance_end (h : (∃ e, c.advance s = (.err e, s')) ∨ c.advance s = (.ok none, s')) :
    step ⟨s, none, [c]⟩ (.advance 0) = ⟨s', none, []⟩ := by
  rcases h with ⟨e, h⟩ | h
  · simp [step, advance, advanced, h]
  · simp [step, advance, advanced, h]

theorem advance_nil (s : SignalSession) : step ⟨s, none, []⟩ (.advance 0) = ⟨s, none, []⟩ := rfl

end IdentityThreads

open IdentityThreads in
/-- the transaction and what follows it -/
theorem migration_sections_transact (pn lid : Bytes) (s : SignalSession) :
    (run step ⟨s, none, [⟨pn, lid, .transact⟩]⟩ [.advance 0, .advance 0, .advance 0]).session =
      (runMigration false pn lid s).2 := by
  rw [run_cons, run_cons, run_cons, run_nil]
  unfold runMigration
  obtain ⟨s₁, -, ⟨m, htxn⟩ | ⟨e, htxn⟩⟩ := onTables_doTxn false pn lid s
  · have htransact : (MigrationCall.mk pn lid .transact).advance s = (.ok (some ⟨pn, lid, .finish (.ok m)⟩), s₁) :=
      bind_ok (attempt_eq_ok.2 htxn)
    rw [advance_alone htransact, advance_alone (d := ⟨pn, lid, .clear⟩) rfl, advance_end (.inr rfl),
      bind_ok (attempt_eq_ok.2 htxn)]
    rfl
  · have htransact : (MigrationCall.mk pn lid .transact).advance s = (.ok (some ⟨pn, lid, .finish (.error e)⟩), s₁) :=
      bind_ok (attempt_eq_error.2 htxn)
    rw [advance_alone htransact, advance_end (.inl ⟨e, rfl⟩), advance_nil, bind_ok (attempt_eq_error.2 htxn)]
    rfl

open IdentityThreads in
/-- the first section and at most four more are the call -/
theorem migration_sections (sqlite : Bool) (now : ℕ) (pn lid : JID) (s : SignalSession) :
    (run step ⟨s, none, []⟩
      [.migratePNToLID sqlite now pn lid, .advance 0, .advance 0, .advance 0, .advance 0]).session =
      (migratePNToLID false sqlite now pn lid s).2 := by
  unfold migratePNToLID
  rw [get_bind, bind_ok (update_run ..), run_cons]
  by_cases hskip : skipsMigration s.memory pn.signalAddressUser now = true
  · have hstart : step ⟨s, none, []⟩ (.migratePNToLID sqlite now pn lid) =
        ⟨{ s with memory := startMigration pn.signalAddressUser now s.memory }, none, []⟩ := by
      simp [step, startMigrate, hskip]
    rw [hstart, if_pos hskip]
    rfl
  · have hstart : step ⟨s, none, []⟩ (.migratePNToLID sqlite now pn lid) =
        ⟨{ s with memory := startMigration pn.signalAddressUser now s.memory }, none,
          [⟨pn.signalAddressUser, lid.signalAddressUser, .check sqlite now⟩]⟩ := by
      simp [step, startMigrate, hskip]
    rw [hstart, if_neg hskip]
    generalize ({ s with memory := startMigration pn.signalAddressUser now s.memory } : SignalSession) = s₀
    have hcheck := checkPNRows_run sqlite pn.signalAddressUser s₀
    generalize (if s₀.NextFails then (.error .database : Except StoreError Bool)
      else .ok (s₀.tables.hasPNRowsToMigrate sqlite pn.signalAddressUser)) = rows at hcheck
    rw [bind_ok hcheck, run_cons]
    rcases rows with e | _ | _
    · rw [advance_alone ((bind_ok hcheck).trans rfl)]
      exact migration_sections_transact ..
    · rw [advance_end (.inr ((bind_ok hcheck).trans rfl))]
      rfl
    · rw [advance_alone ((bind_ok hcheck).trans rfl)]
      exact migration_sections_transact ..

/-! ## What one step can do -/

/-- what the first part of `EnsureIdentity` does: the generation is old, the cache answers, the insert fails or is made -/
theorem ensureStart_cases (s : SignalSession) (address : Bytes) (key : Key) (g : ℕ) :
    (ensureStart address key g s = (.ok (some false), s) ∧ g ≠ s.memory.identityDeleteGen) ∨
    (∃ stored, ensureStart address key g s = (.ok (some (decide (stored = key))), s) ∧
      s.memory.identityCache.lookup address = some (some stored)) ∨
    ensureStart address key g s = (.err .database, s.called) ∨
    (ensureStart address key g s = (.ok none, { s.called with tables := s.tables.ensureIdentity address key }) ∧
      g = s.memory.identityDeleteGen ∧ ∀ stored, s.memory.identityCache.lookup address ≠ some (some stored)) := by
  have hinsert : ensureInsert address key s = (.err .database, s.called) ∨
      ensureInsert address key s = (.ok none, { s.called with tables := s.tables.ensureIdentity address key }) := by
    by_cases hf : s.NextFails
    · exact .inl (bind_err (exec_of_fails hf))
    · exact .inr (bind_ok (exec_update _ hf))
  unfold ensureStart
  rw [get_bind]
  by_cases hg : g = s.memory.identityDeleteGen
  · rw [if_neg (not_not.2 hg)]
    rcases s.memory.identityCache.lookup address with _ | _ | stored
    · exact .inr (.inr (hinsert.imp id fun h => ⟨h, hg, by simp⟩))
    · exact .inr (.inr (hinsert.imp id fun h => ⟨h, hg, by simp⟩))
    · exact .inr (.inl ⟨stored, rfl, rfl⟩)
  · rw [if_pos hg]
    exact .inl ⟨rfl, hg⟩

/-- what the steps are compared in: the generation and the tables -/
def guarded (s : SignalSession) : ℕ × SignalTables := (s.memory.identityDeleteGen, s.tables)

theorem keeps_setCachedIdentity (address : Bytes) (entry : Option Key) :
    Go.Keeps guarded (setCachedIdentity address entry) := fun _ => rfl

theorem keeps_call (e : StoreError) : Go.Keeps guarded (call e) := fun _ => rfl

theorem keeps_shuffle (xs : List α) : Go.Keeps guarded (shuffle xs : Go SignalSession StoreError (List α)) := by
  intro s
  obtain ⟨ys, picks, hrun, -⟩ := shuffle_perm (ε := StoreError) xs s
  rw [hrun]
  rfl

theorem keeps_isTrustedIdentity (address : Bytes) (key : Key) : Go.Keeps guarded (isTrustedIdentity address key) := by
  refine Keeps.get.bind fun s => ?_
  cases s.memory.identityCache.lookup address with
  | some known => exact Keeps.pure _
  | none =>
    refine Keeps.bind ?_ fun _ => Keeps.pure _
    exact (keeps_call _).bind fun _ => Keeps.get.bind fun _ => (keeps_setCachedIdentity _ _).bind fun _ =>
      Keeps.pure _

theorem keeps_scanIdentities (rows : List (Bytes × Key)) (result : GoMap Bytes Key) :
    Go.Keeps guarded (scanIdentities rows result) := by
  induction rows generalizing result with
  | nil => exact (keeps_call _).bind fun _ => Keeps.pure _
  | cons row rows ih => exact (keeps_call _).bind fun _ => ih _

theorem keeps_cacheFetchedIdentities (fetched : Bytes → Option Key) (addresses : List Bytes) (result : GoMap Bytes Key) :
    Go.Keeps guarded (cacheFetchedIdentities fetched addresses result) := by
  induction addresses generalizing result with
  | nil => exact Keeps.pure _
  | cons address addresses ih =>
    refine Keeps.get.bind fun s => ?_
    rcases s.memory.identityCache.lookup address with _ | _ | current
    · exact (keeps_setCachedIdentity _ _).bind fun _ => ih _
    · exact ih _
    · exact ih _

theorem keeps_getManyIdentities (addresses : List Bytes) : Go.Keeps guarded (getManyIdentities addresses) := by
  refine Keeps.get.bind fun s => Keeps.ite (Keeps.pure _) (Keeps.bind ?_ fun _ => Keeps.pure _)
  refine Keeps.bind ?_ fun rows => (keeps_scanIdentities _ _).bind fun _ => (keeps_shuffle _).bind fun _ =>
    keeps_cacheFetchedIdentities _ _ _
  exact (keeps_call _).bind fun _ => Keeps.get.bind fun _ => keeps_shuffle _

theorem keeps_ensureRead (address : Bytes) (key : Key) : Go.Keeps guarded (ensureRead address key) := by
  refine (keeps_call _).bind fun _ => Keeps.get.bind fun s => ?_
  cases s.tables.identityKeys.lookup address with
  | none => exact Keeps.throw _
  | some stored => exact (keeps_setCachedIdentity _ _).bind fun _ => Keeps.pure _

/-- sections other than the transaction -/
theorem keeps_advance {c : MigrationCall} (h : c.transacts = false) : Go.Keeps guarded c.advance := by
  rcases c with ⟨pn, lid, ⟨sqlite, now⟩ | _ | (e | m) | _⟩
  · refine Keeps.bind (fun s => ?_) fun rows => ?_
    · rw [checkPNRows_run]
      rfl
    · rcases rows with e | _ | _
      · exact Keeps.pure _
      · exact fun _ => rfl
      · exact Keeps.pure _
  · cases h
  · exact fun _ => rfl
  · exact fun _ => rfl
  · exact fun _ => rfl

/-- the query for rows changes neither the cache nor the tables -/
theorem advance_check (pn lid : Bytes) (sqlite : Bool) (now : ℕ) (s : SignalSession) :
    ∃ o s', (MigrationCall.mk pn lid (.check sqlite now)).advance s = (o, s') ∧
      s'.memory.identityCache = s.memory.identityCache ∧ s'.tables = s.tables := by
  have hadvance : (MigrationCall.mk pn lid (.check sqlite now)).advance s = _ := bind_ok (checkPNRows_run sqlite pn s)
  rw [hadvance]
  generalize (if s.NextFails then (.error .database : Except StoreError Bool)
    else .ok (s.tables.hasPNRowsToMigrate sqlite pn)) = rows
  rcases rows with e | _ | _
  · exact ⟨_, _, rfl, rfl, rfl⟩
  · exact ⟨_, _, rfl, rfl, rfl⟩
  · exact ⟨_, _, rfl, rfl, rfl⟩

/-- the transaction of a migration leaves the memory, and the tables as well if it fails -/
theorem advance_transact (pn lid : Bytes) (s : SignalSession) :
    ∃ res s', (MigrationCall.mk pn lid .transact).advance s = (.ok (some ⟨pn, lid, .finish res⟩), s') ∧
      s'.memory = s.memory ∧ ((∃ m, res = .ok m) ∨ s'.tables = s.tables) := by
  obtain ⟨s', hmemory, ⟨m, htxn⟩ | ⟨e, htxn⟩⟩ := onTables_doTxn false pn lid s
  · exact ⟨.ok m, s', bind_ok (attempt_eq_ok.2 htxn), hmemory, .inl ⟨m, rfl⟩⟩
  · obtain ⟨u, _, rfl⟩ := transaction_eq_err htxn
    exact ⟨.error e, _, bind_ok (attempt_eq_error.2 htxn), hmemory, .inr rfl⟩

theorem putIdentity_guarded (s : SignalSession) (address : Bytes) (key : Key) :
    guarded (putIdentity address key s).2 = guarded s ∨
      guarded (putIdentity address key s).2 =
        (s.memory.identityDeleteGen, { s.tables with identityKeys := s.tables.identityKeys.insert address key }) := by
  unfold putIdentity
  rw [get_bind]
  split_ifs
  · exact .inl rfl
  · by_cases hf : s.NextFails
    · rw [bind_err (exec_of_fails hf)]
      exact .inl rfl
    · rw [bind_ok (exec_update _ hf)]
      exact .inr rfl

namespace IdentityThreads

/-- the step is the transaction of a migration -/
def Transacts (t : IdentityThreads) (a : ThreadStep) : Prop :=
  ∃ i c, a = .advance i ∧ t.migrations[i]? = some c ∧ c.transacts = true

/-- the generation stays, and so do the rows that there are, whatever they hold; or there is a new generation -/
def Guards (s s' : SignalSession) : Prop :=
  (s'.memory.identityDeleteGen = s.memory.identityDeleteGen ∧
    ∀ address, identityRow s address ≠ none → identityRow s' address ≠ none) ∨
  s'.memory.identityDeleteGen = s.memory.identityDeleteGen + 1

theorem Guards.of_guarded (h : guarded s' = guarded s) : Guards s s' := by
  have htables : s'.tables = s.tables := congrArg Prod.snd h
  refine .inl ⟨congrArg Prod.fst h, fun address hrow => ?_⟩
  rwa [identityRow, htables]

theorem guards_putIdentity (s : SignalSession) (address : Bytes) (key : Key) : Guards s (putIdentity address key s).2 := by
  rcases putIdentity_guarded s address key with h | h
  · exact .of_guarded h
  · refine .inl ⟨congrArg Prod.fst h, fun a hrow => ?_⟩
    have htables := congrArg Prod.snd h
    change (putIdentity address key s).2.tables = _ at htables
    rw [identityRow, htables, GoMap.lookup_insert_eq]
    split_ifs
    · simp
    · exact hrow

/-- a deletion fails and changes nothing, or makes a new generation -/
theorem guards_deletion (s : SignalSession) (f : SignalTables → SignalTables) {k : Unit → Go SignalSession StoreError Unit}
    (hk : ∀ s, ((bumpDeleteGen >>= k) s).2.memory.identityDeleteGen = s.memory.identityDeleteGen + 1) :
    Guards s ((exec .database (fun t => some (f t)) >>= fun _ => bumpDeleteGen >>= k) s).2 := by
  by_cases hf : s.NextFails
  · rw [bind_err (exec_of_fails hf)]
    exact .of_guarded rfl
  · rw [bind_ok (exec_update f hf)]
    exact .inr (hk _)

theorem guards_ensureStart (s : SignalSession) (address : Bytes) (key : Key) (g : ℕ) :
    Guards s (ensureStart address key g s).2 := by
  rcases ensureStart_cases s address key g with ⟨hrun, _⟩ | ⟨stored, hrun, _⟩ | hrun | ⟨hrun, _⟩
  · rw [hrun]
    exact .of_guarded rfl
  · rw [hrun]
    exact .of_guarded rfl
  · rw [hrun]
    exact .of_guarded rfl
  · rw [hrun]
    refine .inl ⟨rfl, fun a hrow => ?_⟩
    change (s.tables.ensureIdentity address key).identityKeys.lookup a ≠ none
    rw [lookup_ensureIdentity]
    split_ifs with ha
    · simp
    · exact hrow

theorem guards_locked {t : IdentityThreads} {x : Go SignalSession StoreError α} (h : Guards t.session (x t.session).2) :
    Guards t.session (t.locked x).session := by
  unfold locked
  split_ifs
  · exact .of_guarded rfl
  · exact h

variable {t : IdentityThreads} {a : ThreadStep} {i : ℕ} {c : MigrationCall}

theorem advance_none (hc : t.migrations[i]? = none) : t.advance i = t := by
  unfold advance
  rw [hc]

section

variable (hc : t.migrations[i]? = some c)
include hc

theorem advance_blocked (hl : (c.needsLock && t.ensuring.isSome) = true) : t.advance i = t := by
  unfold advance
  rw [hc]
  exact if_pos hl

theorem advance_some (hl : ¬(c.needsLock && t.ensuring.isSome) = true) :
    t.advance i = ⟨(c.advance t.session).2, t.ensuring, advanced t.migrations i (c.advance t.session).1⟩ := by
  unfold advance
  rw [hc]
  exact if_neg hl

theorem guards_advance (h : c.transacts = false) : Guards t.session (t.advance i).session := by
  by_cases hl : (c.needsLock && t.ensuring.isSome) = true
  · rw [advance_blocked hc hl]
    exact .of_guarded rfl
  · rw [advance_some hc hl]
    exact .of_guarded (keeps_advance h t.session)

theorem generation_advance (h : c.transacts = true) : (t.advance i).generation = t.generation := by
  rcases c with ⟨pn, lid, _ | _ | _ | _⟩
  · cases h
  · obtain ⟨res, s', hrun, hmemory, _⟩ := advance_transact pn lid t.session
    rw [advance_some hc Bool.false_ne_true, hrun]
    exact congrArg SQLStore.identityDeleteGen hmemory
  · cases h
  · cases h

end

/-- **What a step can do.** It keeps the generation and the rows, or makes a new generation, or is the transaction of a
migration, which keeps the generation. -/
theorem step_cases (t : IdentityThreads) (a : ThreadStep) :
    Guards t.session (t.step a).session ∨ ((t.step a).generation = t.generation ∧ t.Transacts a) := by
  cases a with
  | putIdentity address key => exact .inl (guards_locked (guards_putIdentity _ address key))
  | deleteIdentity address => exact .inl (guards_locked (guards_deletion _ _ fun _ => rfl))
  | deleteAllIdentities phone => exact .inl (guards_locked (guards_deletion _ _ fun _ => rfl))
  | isTrustedIdentity address key => exact .inl (guards_locked (.of_guarded (keeps_isTrustedIdentity address key _)))
  | getManyIdentities addresses => exact .inl (guards_locked (.of_guarded (keeps_getManyIdentities addresses _)))
  | ensureStart address key g =>
    refine .inl ?_
    change Guards t.session (t.startEnsure address key g).session
    unfold startEnsure
    dsimp only
    split_ifs
    · exact .of_guarded rfl
    · exact guards_ensureStart _ address key g
    · exact guards_ensureStart _ address key g
  | ensureRead =>
    refine .inl ?_
    rcases t with ⟨s, _ | ⟨address, key⟩, migrations⟩
    · exact .of_guarded rfl
    · exact .of_guarded (keeps_ensureRead address key s)
  | migratePNToLID sqlite now pn lid => exact .inl (.of_guarded rfl)
  | advance i =>
    cases hc : t.migrations[i]? with
    | none =>
      refine .inl ?_
      change Guards t.session (t.advance i).session
      rw [advance_none hc]
      exact .of_guarded rfl
    | some c =>
      cases htransacts : c.transacts with
      | false => exact .inl (guards_advance hc htransacts)
      | true => exact .inr ⟨generation_advance hc htransacts, i, c, rfl, hc, htransacts⟩

/-! ## The generation guards the rows -/

/-- the step removes the row of the address -/
def Removes (address : Bytes) (t : IdentityThreads) (a : ThreadStep) : Prop :=
  identityRow t.session address ≠ none ∧ identityRow (t.step a).session address = none

theorem generation_le_step (t : IdentityThreads) (a : ThreadStep) : t.generation ≤ (t.step a).generation := by
  rcases step_cases t a with (⟨h, _⟩ | h) | ⟨h, _⟩
  · exact h.ge
  · exact (Nat.le_succ _).trans h.ge
  · exact h.ge

theorem generation_le_run (t : IdentityThreads) (as : List ThreadStep) : t.generation ≤ (run step t as).generation := by
  induction as generalizing t with
  | nil => exact le_rfl
  | cons a as ih => exact (generation_le_step t a).trans (ih (t.step a))

/-- while the generation stays, only migrations remove rows -/
theorem not_removes_of_generation {as : List ThreadStep} (hgen : (run step t as).generation = t.generation) :
    Along step (fun u a => ¬u.Removes address a) t as ↔
      Along step (fun u a => ¬(u.Transacts a ∧ u.Removes address a)) t as := by
  induction as generalizing t with
  | nil => exact Iff.rfl
  | cons a as ih =>
    have hstep := generation_le_step t a
    have hrun := generation_le_run (t.step a) as
    rw [run_cons] at hgen
    have hrest := ih (t := t.step a) (by omega)
    refine and_congr ⟨fun h hmig => h hmig.2, fun h hrem => ?_⟩ hrest
    rcases step_cases t a with (⟨_, hrows⟩ | hnew) | ⟨_, htransacts⟩
    · exact hrows address hrem.1 hrem.2
    · change (t.step a).generation = t.generation + 1 at hnew
      omega
    · exact h ⟨htransacts, hrem⟩

/-! ## The cache is right, or is about to be emptied -/

/-- the entries that the callers answer from -/
def Present (entry : Option Key) : Prop := entry ≠ none

/-- the present entries are rows, or a migration has committed and will empty the cache -/
def Settled (t : IdentityThreads) : Prop :=
  (∃ c ∈ t.migrations, c.committed = true) ∨ AgreesOn Present t.session

theorem settled_locked {x : Go SignalSession StoreError α} (hx : Clean Present x) (h : t.Settled) :
    (t.locked x).Settled := by
  unfold locked
  split_ifs
  · exact h
  · refine h.imp id fun hagrees => ?_
    rcases hx t.session hagrees with ⟨r, s', hrun, hs'⟩ | ⟨e, s', hrun, hcache, htables⟩
    · change AgreesOn Present (x t.session).2
      rw [hrun]
      exact hs'
    · change AgreesOn Present (x t.session).2
      rw [hrun]
      exact hagrees.of_eq hcache htables

theorem agrees_ensureStart (hs : AgreesOn Present s) (address : Bytes) (key : Key) (g : ℕ) :
    AgreesOn Present (ensureStart address key g s).2 := by
  rcases ensureStart_cases s address key g with ⟨hrun, _⟩ | ⟨stored, hrun, _⟩ | hrun | ⟨hrun, _, hl⟩
  · rw [hrun]
    exact hs
  · rw [hrun]
    exact hs
  · rw [hrun]
    exact hs.of_eq rfl rfl
  · rw [hrun]
    intro a entry hpresent ha
    have hne : a ≠ address := by
      rintro rfl
      obtain ⟨stored, rfl⟩ := Option.ne_none_iff_exists'.1 hpresent
      exact hl stored ha
    change (s.tables.ensureIdentity address key).identityKeys.lookup a = entry
    rw [lookup_ensureIdentity, if_neg hne]
    exact hs a entry hpresent ha

/-- the read changes no row, and answers true only for the key that it finds -/
theorem ensureRead_cases (s : SignalSession) (address : Bytes) (key : Key) :
    (∃ e, ensureRead address key s = (.err e, s.called)) ∨
      ∃ stored s', ensureRead address key s = (.ok (decide (stored = key)), s') ∧ identityRow s address = some stored ∧
        setCachedIdentity address (some stored) s.called = (.ok (), s') := by
  unfold ensureRead
  by_cases hf : s.NextFails
  · exact .inl ⟨_, bind_err (call_of_fails hf)⟩
  · rw [bind_ok (call_of_not_fails hf), get_bind]
    change (∃ e, ensuredIdentity address key (identityRow s address) s.called = _) ∨ ∃ stored s',
      ensuredIdentity address key (identityRow s address) s.called = _ ∧ _
    cases hrow : identityRow s address with
    | none => exact .inl ⟨.noRows, rfl⟩
    | some stored => exact .inr ⟨stored, _, rfl, rfl, rfl⟩

theorem agrees_ensureRead (hs : AgreesOn Present s) (address : Bytes) (key : Key) :
    AgreesOn Present (ensureRead address key s).2 := by
  rcases ensureRead_cases s address key with ⟨e, hrun⟩ | ⟨stored, s', hrun, hrow, hcached⟩
  · rw [hrun]
    exact hs.of_eq rfl rfl
  · obtain ⟨s₁, hwrite, hagrees⟩ := hs.write s.called address rfl hrow fun _ _ => rfl
    rw [hcached] at hwrite
    cases hwrite
    rw [hrun]
    exact hagrees

/-- the other migrations stay -/
theorem mem_advanced {l : List MigrationCall} {d : MigrationCall} (o : Outcome StoreError (Option MigrationCall))
    (hc : l[i]? = some c) (hd : d ∈ l) (hne : d ≠ c) : d ∈ advanced l i o := by
  obtain ⟨j, hj⟩ := List.mem_iff_getElem?.1 hd
  have hij : j ≠ i := by
    rintro rfl
    exact hne (Option.some.inj (hj.symm.trans hc))
  have herase : d ∈ l.eraseIdx i := List.mem_eraseIdx_iff_getElem?.2 ⟨j, hij, hj⟩
  rcases o with (_ | c') | e | _
  · exact herase
  · exact List.mem_of_getElem? ((List.getElem?_set_ne hij.symm).trans hj)
  · exact herase
  · exact herase

theorem settled_advance (h : t.Settled) (hc : t.migrations[i]? = some c)
    (hl : ¬(c.needsLock && t.ensuring.isSome) = true) : (t.advance i).Settled := by
  rw [advance_some hc hl]
  have hlt : i < t.migrations.length := (List.getElem?_eq_some_iff.1 hc).1
  -- a migration that has not committed is not the one that will empty the cache
  have hothers : c.committed = false → (∃ d ∈ t.migrations, d.committed = true) →
      ∃ d ∈ advanced t.migrations i (c.advance t.session).1, d.committed = true := by
    rintro hcommitted ⟨d, hd, hdc⟩
    refine ⟨d, mem_advanced _ hc hd ?_, hdc⟩
    rintro rfl
    rw [hcommitted] at hdc
    cases hdc
  rcases c with ⟨pn, lid, ⟨sqlite, now⟩ | _ | (e | m) | _⟩
  · obtain ⟨o, s', hrun, hcache, htables⟩ := advance_check pn lid sqlite now t.session
    refine h.imp (hothers rfl) fun hagrees => ?_
    rw [hrun]
    exact hagrees.of_eq hcache htables
  · obtain ⟨res, s', hrun, hmemory, ⟨m, rfl⟩ | htables⟩ := advance_transact pn lid t.session
    · refine .inl ⟨⟨pn, lid, .finish (.ok m)⟩, ?_, rfl⟩
      rw [hrun]
      exact List.mem_set hlt _
    · refine h.imp (hothers rfl) fun hagrees => ?_
      rw [hrun]
      exact hagrees.of_eq (congrArg _ hmemory) htables
  · exact h.imp (hothers rfl) fun hagrees => hagrees.of_eq rfl rfl
  · exact .inl ⟨⟨pn, lid, .clear⟩, List.mem_set hlt _, rfl⟩
  · refine .inr fun address entry _ hlookup => ?_
    cases hlookup

theorem settled_step (h : t.Settled) (a : ThreadStep) : (t.step a).Settled := by
  cases a with
  | putIdentity address key => exact settled_locked (clean_putIdentity address key) h
  | deleteIdentity address => exact settled_locked (clean_deleteIdentity address) h
  | deleteAllIdentities phone => exact settled_locked (clean_deleteAllIdentities phone) h
  | isTrustedIdentity address key => exact settled_locked (clean_isTrustedIdentity address key) h
  | getManyIdentities addresses => exact settled_locked (clean_getManyIdentities addresses) h
  | ensureStart address key g =>
    change (t.startEnsure address key g).Settled
    unfold startEnsure
    dsimp only
    split_ifs
    · exact h
    · exact h.imp id fun hs => agrees_ensureStart hs address key g
    · exact h.imp id fun hs => agrees_ensureStart hs address key g
  | ensureRead =>
    rcases t with ⟨s, _ | ⟨address, key⟩, migrations⟩
    · exact h
    · exact h.imp id fun hs => agrees_ensureRead hs address key
  | migratePNToLID sqlite now pn lid =>
    refine h.imp (fun ⟨d, hd, hdc⟩ => ⟨d, ?_, hdc⟩) fun hs => hs.of_eq rfl rfl
    change d ∈ (if _ then t.migrations else t.migrations ++ _)
    split_ifs
    · exact hd
    · exact List.mem_append_left _ hd
  | advance i =>
    change (t.advance i).Settled
    cases hc : t.migrations[i]? with
    | none =>
      rw [advance_none hc]
      exact h
    | some c =>
      by_cases hl : (c.needsLock && t.ensuring.isSome) = true
      · rw [advance_blocked hc hl]
        exact h
      · exact settled_advance h hc hl

theorem settled_run (h : t.Settled) (as : List ThreadStep) : (run step t as).Settled := by
  induction as generalizing t with
  | nil => exact h
  | cons a as ih => exact ih (settled_step h a)

theorem settled_start (tables : SignalTables) (faults : List Bool) (picks : List ℕ) :
    (start tables faults picks).Settled := by
  refine .inr fun address entry _ hl => ?_
  cases hl

/-! ## `EnsureIdentity` -/

/-- the part up to the insert changes no stored key -/
theorem ensureStart_rows {a : Bytes} {k : Key} (h : identityRow s a = some k) :
    identityRow (Store.ensureStart address key g s).2 a = some k := by
  rcases ensureStart_cases s address key g with ⟨hrun, _⟩ | ⟨stored, hrun, _⟩ | hrun | ⟨hrun, _⟩
  · rw [hrun]
    exact h
  · rw [hrun]
    exact h
  · rw [hrun]
    exact h
  · rw [hrun]
    change (s.tables.ensureIdentity address key).identityKeys.lookup a = some k
    rw [lookup_ensureIdentity]
    split_ifs with ha
    · rw [← ha]
      exact (congrArg (fun row => row.or (some key)) h).trans (Option.some_or ..)
    · exact h

/-- an answer from the cache is about the row -/
theorem ensureStart_answer (hs : AgreesOn Present s) (h : (Store.ensureStart address key g s).1 = .ok (some true)) :
    identityRow (Store.ensureStart address key g s).2 address = some key := by
  rcases ensureStart_cases s address key g with ⟨hrun, _⟩ | ⟨stored, hrun, hl⟩ | hrun | ⟨hrun, _⟩
  · rw [hrun] at h
    cases h
  · have hstored : stored = key := by
      rw [hrun] at h
      simpa using h
    rw [hrun, ← hstored]
    exact hs address (some stored) (Option.some_ne_none stored) hl
  · rw [hrun] at h
    cases h
  · rw [hrun] at h
    cases h

/-- a row is created under the current generation only -/
theorem ensureStart_created (hnone : identityRow s address = none)
    (h : identityRow (Store.ensureStart address key g s).2 address ≠ none) : g = s.memory.identityDeleteGen := by
  rcases ensureStart_cases s address key g with ⟨hrun, _⟩ | ⟨stored, hrun, _⟩ | hrun | ⟨_, hg, _⟩
  · rw [hrun] at h
    exact absurd hnone h
  · rw [hrun] at h
    exact absurd hnone h
  · rw [hrun] at h
    exact absurd hnone h
  · exact hg

/-- **Conditional insertion.** A reader takes the generation in the state `s` of a run and calls `EnsureIdentity` in the later
state `t`. No migration has then committed without having emptied the cache, and no migration removed the row of the address
in between.
- No stored key changes, neither in the part up to the insert nor in the read.
- An answer true means that the given key is stored.
- If a row is created, then no step in between removed the row of the address. -/
theorem ensure_identity_sound (tables : SignalTables) (faults : List Bool) (picks : List ℕ) (pre mid : List ThreadStep)
    (address : Bytes) (key : Key) (s t : IdentityThreads) (hs : run step (start tables faults picks) pre = s)
    (ht : run step s mid = t) (hcleared : ∀ c ∈ t.migrations, c.committed = false)
    (hmigrated : Along step (fun u a => ¬(u.Transacts a ∧ u.Removes address a)) s mid) :
    (∀ a k, identityRow t.session a = some k →
      identityRow (Store.ensureStart address key s.generation t.session).2 a = some k) ∧
    ((Store.ensureStart address key s.generation t.session).1 = .ok (some true) →
      identityRow (Store.ensureStart address key s.generation t.session).2 address = some key) ∧
    (identityRow t.session address = none →
      identityRow (Store.ensureStart address key s.generation t.session).2 address ≠ none →
      Along step (fun u a => ¬u.Removes address a) s mid) ∧
    ∀ u : SignalSession, (Store.ensureRead address key u).2.tables = u.tables ∧
      ((Store.ensureRead address key u).1 = .ok true → identityRow u address = some key) := by
  refine ⟨fun a k => ensureStart_rows, fun h => ?_, fun hnone hcreated => ?_, fun u => ⟨?_, fun h => ?_⟩⟩
  · have hsettled : t.Settled := by
      rw [← ht, ← hs]
      exact settled_run (settled_run (settled_start tables faults picks) pre) mid
    rcases hsettled with ⟨c, hc, hcommitted⟩ | hagrees
    · rw [hcleared c hc] at hcommitted
      cases hcommitted
    · exact ensureStart_answer hagrees h
  · have hgen := ensureStart_created hnone hcreated
    refine (not_removes_of_generation ?_).2 hmigrated
    rw [ht]
    exact hgen.symm
  · exact congrArg Prod.snd (keeps_ensureRead address key u)
  · rcases ensureRead_cases u address key with ⟨e, hrun⟩ | ⟨stored, u', hrun, hrow, _⟩
    · rw [hrun] at h
      cases h
    · have hstored : stored = key := by
        rw [hrun] at h
        simpa using h
      rw [hrow, hstored]

/-! ## Examples -/

def alicePN : JID := newJID (ascii "491761234567") defaultUserServer
def aliceLID : JID := newJID (ascii "98765432") hiddenUserServer
def aliceAddress : Bytes := alicePN.signalAddress.string

def noRows : IdentityThreads := start ⟨∅, ∅, ∅⟩ [] []

/-- a key that was deleted before the generation was read may be inserted -/
theorem ensure_identity_sound_after_delete :
    let key : Key := Vector.replicate 32 1
    let s := run step noRows [.putIdentity aliceAddress key, .deleteIdentity aliceAddress]
    let t := run step s [.getManyIdentities [aliceAddress]]
    s.generation = 1 ∧ identityRow t.session aliceAddress = none ∧
      identityRow (Store.ensureStart aliceAddress key s.generation t.session).2 aliceAddress = some key ∧
      Along step (fun u a => ¬u.Removes aliceAddress a) s [.getManyIdentities [aliceAddress]] := by
  intro key s t
  have hmigrated : Along step (fun u a => ¬(u.Transacts a ∧ u.Removes aliceAddress a)) s [.getManyIdentities [aliceAddress]] := by
    refine ⟨fun h => ?_, trivial⟩
    obtain ⟨⟨i, c, ha, _⟩, _⟩ := h
    cases ha
  have hsound := ensure_identity_sound ⟨∅, ∅, ∅⟩ [] [] _ _ aliceAddress key s t rfl rfl
    (fun c hc => by cases hc) hmigrated
  exact ⟨rfl, rfl, by decide, hsound.2.2.1 rfl (by decide)⟩

/-- **A migrated row returns.** After the generation is read, a key arrives for the address and is migrated to the LID.
`EnsureIdentity` with that generation creates the row of the phone number again. -/
theorem migrated_row_returns :
    let key : Key := Vector.replicate 32 1
    let s := run step noRows [.getManyIdentities [aliceAddress]]
    let s₁ := run step s [.putIdentity aliceAddress key]
    let t := run step s₁ [.migratePNToLID true 0 alicePN aliceLID, .advance 0, .advance 0, .advance 0, .advance 0]
    let started := Store.ensureStart aliceAddress key s.generation t.session
    identityRow s₁.session aliceAddress = some key ∧ identityRow t.session aliceAddress = none ∧
      identityRow t.session aliceLID.signalAddress.string = some key ∧ t.migrations.length = 0 ∧
      identityRow started.2 aliceAddress = some key ∧ (Store.ensureRead aliceAddress key started.2).1 = .ok true := by
  decide

/-- **A stale entry answers true.** The migration has committed and not emptied the cache. `EnsureIdentity` answers true for a
row that is gone. -/
theorem stale_entry_answers_true :
    let key : Key := Vector.replicate 32 1
    let t := run step noRows [.putIdentity aliceAddress key, .migratePNToLID true 0 alicePN aliceLID, .advance 0, .advance 0]
    (Store.ensureStart aliceAddress key noRows.generation t.session).1 = .ok (some true) ∧
      identityRow (Store.ensureStart aliceAddress key noRows.generation t.session).2 aliceAddress = none := by
  decide

end IdentityThreads

end Hypermeow.Store
