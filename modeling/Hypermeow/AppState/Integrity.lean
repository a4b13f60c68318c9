/-
Integrity of an app state collection: the stored hash is the sum over the live value MACs.

The hash is updated by looking for previous values (backwards in the patch, then in the database) and the MAC rows by the
lists of removed and added MACs. Both carry out the assignments of the mutations (`Decoded`), so a stored snapshot or
patch keeps the sum (`Integrity.store`), and with it a whole `DecodePatches` call and every run of calls.

A run is any sequence of successful `DecodePatches` calls on the stored state, resets of the collection, and changes to
the key cache and the key store. `fetchAppState` applies a snapshot only to the empty state; patch versions increase.

Results:
- `storePrepared_run`: what the three store calls leave behind, in every case.
- `decodePatches_integrity`: a successful call keeps the integrity and returns the stored state.
-/
import Hypermeow.AppState.Decoded
import Hypermeow.Lib.Runs

namespace Hypermeow.AppState

open Lib Go List

variable {E : Env} {F : Faults} {w w' : World} {db db' : AppStateDB}

structure Integrity (E : Env) (db : AppStateDB) : Prop where
  /-- in every lane, modulo 2^16, the stored hash is the sum over the live value MACs -/
  sum : lanes db.state.hash = total E.lanes db.getAppStateMutationMAC db.indexMACs
  versions : ∀ r ∈ db.macs, r.version ≤ db.state.version

theorem Integrity.lane_sum (hi : Integrity E db) (i : Fin 64) :
    lanes db.state.hash i =
      ∑ k ∈ db.indexMACs, (db.getAppStateMutationMAC k).elim 0 fun v => lanes (E.patchIntegrity v) i := by
  rw [hi.sum, total, Finset.sum_apply]
  refine Finset.sum_congr rfl fun k _ => ?_
  cases db.getAppStateMutationMAC k <;> rfl

theorem integrity_empty : Integrity E .empty where
  sum := lanes_zero
  versions := fun _ hr => nomatch hr

/-- without a version row there are no MAC rows -/
theorem AppStateDB.eq_empty (h : db.versionRow = none) : db = .empty := by
  have hmacs : db.macs = [] := by
    by_contra hne
    have := db.foreignKey hne
    rw [h] at this
    cases this
  ext1
  · exact h
  · exact hmacs

/-! ## The store calls -/

/-- the three writes of `storeMACs`, when no call fails -/
def AppStateDB.applyMACs (db : AppStateDB) (st : HashState) (out : PatchOutput) : Option AppStateDB :=
  ((db.putAppStateVersion st).deleteAppStateMutationMACs out.removedMACs).putAppStateMutationMACs st.version out.addedMACs

theorem AppStateDB.delete_nil (db : AppStateDB) : db.deleteAppStateMutationMACs [] = db := by
  ext1
  · rfl
  · simp [deleteAppStateMutationMACs]

theorem AppStateDB.put_nil (db : AppStateDB) (v : ℕ) : db.putAppStateMutationMACs v [] = some db := by
  have h : (db.macs ++ macRows v []) = db.macs := by simp [macRows]
  rw [putAppStateMutationMACs, dif_pos (by rw [h]; exact ⟨db.primaryKey, db.foreignKey, db.check⟩)]
  congr 1
  ext1
  · rfl
  · exact h

/-- what the store calls leave behind: a failing call leaves the writes before it -/
theorem storePrepared_run (p : HashState × PatchOutput) (w : World) :
    (F .putAppStateVersion = true ∧
      storePrepared F p w = (.err (.wrap .updateVersion (.store .putAppStateVersion)), w)) ∨
    (F .putAppStateVersion = false ∧ p.2.removedMACs ≠ [] ∧ F .deleteAppStateMutationMACs = true ∧
      storePrepared F p w = (.err (.wrap .removeMACs (.store .deleteAppStateMutationMACs)),
        { w with db := w.db.putAppStateVersion p.1 })) ∨
    (F .putAppStateVersion = false ∧ (p.2.removedMACs = [] ∨ F .deleteAppStateMutationMACs = false) ∧
      p.2.addedMACs ≠ [] ∧ (F .putAppStateMutationMACs = true ∨ w.db.applyMACs p.1 p.2 = none) ∧
      storePrepared F p w = (.err (.wrap .insertMACs (.store .putAppStateMutationMACs)),
        { w with db := (w.db.putAppStateVersion p.1).deleteAppStateMutationMACs p.2.removedMACs })) ∨
    (F .putAppStateVersion = false ∧ (p.2.removedMACs = [] ∨ F .deleteAppStateMutationMACs = false) ∧
      (p.2.addedMACs = [] ∨ F .putAppStateMutationMACs = false) ∧
      ∃ db, w.db.applyMACs p.1 p.2 = some db ∧ storePrepared F p w = (.ok (p.1, p.2.mutations), { w with db := db })) := by
  obtain ⟨st, out⟩ := p
  simp only [storePrepared, storeMACs, bind_assoc]
  cases hv : F .putAppStateVersion with
  | true =>
    left
    refine ⟨rfl, ?_⟩
    simp [putAppStateVersion, wrap, hv, bind_run, Go.mapErr]
  | false =>
    right
    have hput : wrap .updateVersion (putAppStateVersion F st) w = (.ok (), { w with db := w.db.putAppStateVersion st }) :=
      mapErr_ok (by simp [putAppStateVersion, hv])
    rw [bind_ok hput]
    by_cases hdel : out.removedMACs ≠ [] ∧ F .deleteAppStateMutationMACs = true
    · left
      refine ⟨rfl, hdel.1, hdel.2, ?_⟩
      simp [deleteAppStateMutationMACs, wrap, hdel, bind_run, Go.mapErr]
    · right
      have hdel' : out.removedMACs = [] ∨ F .deleteAppStateMutationMACs = false := by
        exact or_iff_not_imp_left.2 (by simpa using hdel)
      have hdelete : wrap .removeMACs (deleteAppStateMutationMACs F out.removedMACs)
          { w with db := w.db.putAppStateVersion st } =
          (.ok (), { w with db := (w.db.putAppStateVersion st).deleteAppStateMutationMACs out.removedMACs }) := by
        refine mapErr_ok ?_
        by_cases hnil : out.removedMACs = []
        · simp [deleteAppStateMutationMACs, hnil, AppStateDB.delete_nil]
        · simp [deleteAppStateMutationMACs, hnil, hdel'.resolve_left hnil]
      rw [bind_ok hdelete, AppStateDB.applyMACs]
      by_cases hnil : out.addedMACs = []
      · right
        refine ⟨rfl, hdel', .inl hnil, _, by rw [hnil, AppStateDB.put_nil], ?_⟩
        simp [putAppStateMutationMACs, hnil, wrap, Go.mapErr, bind_run]
      · cases hins : F .putAppStateMutationMACs with
        | true =>
          left
          refine ⟨rfl, hdel', hnil, .inl rfl, ?_⟩
          simp [putAppStateMutationMACs, hnil, hins, wrap, Go.mapErr, bind_run]
        | false =>
          cases happ : ((w.db.putAppStateVersion st).deleteAppStateMutationMACs out.removedMACs).putAppStateMutationMACs
              st.version out.addedMACs with
          | none =>
            left
            refine ⟨rfl, hdel', hnil, .inr rfl, ?_⟩
            simp [putAppStateMutationMACs, hnil, hins, wrap, Go.mapErr, bind_run, happ]
          | some db =>
            right
            refine ⟨rfl, hdel', .inr rfl, db, rfl, ?_⟩
            simp [putAppStateMutationMACs, hnil, hins, wrap, Go.mapErr, bind_run, happ]

variable {st : HashState} {out : PatchOutput} {r : HashState × List Mutation}

/-- a success made all three writes -/
theorem storePrepared_ok {p : HashState × PatchOutput}
    (h : storePrepared F p w = (.ok r, w')) : r = (p.1, p.2.mutations) ∧ w.db.applyMACs p.1 p.2 = some w'.db := by
  rcases storePrepared_run (F := F) p w with ⟨-, hr⟩ | ⟨-, -, -, hr⟩ | ⟨-, -, -, -, hr⟩ | ⟨-, -, -, db, hdb, hr⟩
  all_goals rw [hr] at h
  · cases h
  · cases h
  · cases h
  · cases h; exact ⟨rfl, hdb⟩

/-- the tables after the three writes -/
theorem AppStateDB.applyMACs_eq_some (h : db.applyMACs st out = some db') :
    db'.versionRow = some st ∧
      db'.macs = (db.macs.filter fun r => r.indexMAC ∉ out.removedMACs) ++ macRows st.version out.addedMACs :=
  AppStateDB.put_eq_some h

/-- the live values after the three writes, when the version is new -/
theorem AppStateDB.applyMACs_live (h : db.applyMACs st out = some db') (hv : ∀ r ∈ db.macs, r.version < st.version) :
    db'.getAppStateMutationMAC = out.pending db.getAppStateMutationMAC := by
  funext k
  rw [AppStateDB.getAppStateMutationMAC_put h (fun r hr => hv r (mem_of_mem_filter hr)), PatchOutput.pending,
    AppStateDB.getAppStateMutationMAC_delete, AppStateDB.getAppStateMutationMAC_putAppStateVersion]

/-! ## One snapshot or patch -/

/-- the writes keep the integrity when the hash and the MACs carry out the same assignments -/
theorem Integrity.store {ops : List (Bytes × Option Bytes)}
    (hi : Integrity E db) (happ : db.applyMACs st out = some db') (hv : ∀ r ∈ db.macs, r.version < st.version)
    (hpend : out.pending db.getAppStateMutationMAC = assign db.getAppStateMutationMAC ops)
    (hhash : lanes st.hash = lanes db.state.hash -
      ((replaced db.getAppStateMutationMAC ops).map (weight E.lanes)).sum + (ops.map fun o => weight E.lanes o.2).sum) :
    Integrity E db' := by
  obtain ⟨hrow, hmacs⟩ := AppStateDB.applyMACs_eq_some happ
  have hstate : db'.state = st := by rw [AppStateDB.state, hrow]; rfl
  have hlive := (AppStateDB.applyMACs_live happ hv).trans hpend
  constructor
  · -- one set of keys that has everything before and after
    set S := db.indexMACs ∪ db'.indexMACs ∪ (ops.map Prod.fst).toFinset with hS
    have hops : ∀ o ∈ ops, o.1 ∈ S := fun o ho =>
      Finset.mem_union_right _ (mem_toFinset.2 (mem_map_of_mem ho))
    have hbefore : total E.lanes db.getAppStateMutationMAC db.indexMACs = total E.lanes db.getAppStateMutationMAC S :=
      total_eq_of_held _ (fun _ => AppStateDB.mem_indexMACs) fun k hk =>
        Finset.mem_union_left _ (Finset.mem_union_left _ (AppStateDB.mem_indexMACs hk))
    have hafter : total E.lanes db'.getAppStateMutationMAC db'.indexMACs = total E.lanes db'.getAppStateMutationMAC S :=
      total_eq_of_held _ (fun _ => AppStateDB.mem_indexMACs) fun k hk =>
        Finset.mem_union_left _ (Finset.mem_union_right _ (AppStateDB.mem_indexMACs hk))
    rw [hstate, hafter, hlive, total_assign E.lanes ops _ hops, ← hbefore, ← hi.sum, hhash]
  · intro r hr
    rw [hstate]
    rw [hmacs] at hr
    rcases mem_append.1 hr with hr | hr
    · exact (hv r (mem_of_mem_filter hr)).le
    · obtain ⟨m, -, rfl⟩ := mem_map.1 hr
      exact le_refl _

variable {name : Bytes} {patch : SyncdPatch} {st' : HashState} {validateMACs : Bool} {muts : List Mutation}

/-- what a prepared patch says, for any lookups -/
theorem preparePatchWith_ok {getPrev : Bytes → ℕ → Proc (Option Bytes)} {prev : Bytes → ℕ → Option Bytes}
    (hp : Answers w.db getPrev prev)
    (h : preparePatchWith E getPrev name patch st validateMACs muts w = (.ok (st', out), w')) :
    let ops := patch.mutations.map SyncdMutation.assignment
    st'.version = patch.version ∧
      lanes st'.hash = lanes st.hash - ((prevs prev 0 patch.mutations).map (weight E.lanes)).sum +
        (ops.map fun o => weight E.lanes o.2).sum ∧
      ∀ f, out.pending f = assign f ops := by
  intro ops
  obtain ⟨st₁, w₁, hval, h₁⟩ := bind_eq_ok.1 h
  obtain ⟨out₁, w₂, hdec, h₂⟩ := bind_eq_ok.1 h₁
  cases h₂
  obtain ⟨⟨st₂, warn⟩, w₃, hupd, h₃⟩ := bind_eq_ok.1 hval
  obtain ⟨hver, hlanes⟩ := updateHash_ok hp rfl (mapErr_eq_ok.1 hupd)
  have hst : st' = st₂ := by
    simp only at h₃
    split_ifs at h₃
    · obtain ⟨keys, w₄, -, h₄⟩ := bind_eq_ok.1 h₃
      obtain ⟨mac, w₅, -, h₅⟩ := bind_eq_ok.1 h₄
      split_ifs at h₅
      · cases h₅
      · cases h₅; rfl
    · cases h₃; rfl
  subst hst
  exact ⟨hver, hlanes, decodeMutations_pending hdec⟩

/-- what a prepared patch says -/
theorem preparePatch_ok
    (h : preparePatch E F name patch st validateMACs muts w = (.ok (st', out), w')) :
    let ops := patch.mutations.map SyncdMutation.assignment
    st'.version = patch.version ∧
      lanes st'.hash = lanes st.hash - ((replaced w.db.getAppStateMutationMAC ops).map (weight E.lanes)).sum +
        (ops.map fun o => weight E.lanes o.2).sum ∧
      ∀ f, out.pending f = assign f ops := by
  intro ops
  rw [preparePatch_eq] at h
  obtain ⟨hver, hlanes, hpend⟩ := preparePatchWith_ok (prevSetValueMAC_answers patch w.db) h
  refine ⟨hver, ?_, hpend⟩
  rw [hlanes]
  congr 3
  exact congrArg _ (prevs_patch w.db.getAppStateMutationMAC [] patch.mutations)

theorem decodePatch_integrity (hi : Integrity E w.db) (hv : w.db.state.version < patch.version)
    (h : decodePatch E F name patch w.db.state validateMACs muts w = (.ok r, w')) :
    Integrity E w'.db ∧ w'.db.state = r.1 ∧ r.1.version = patch.version := by
  obtain ⟨⟨st, out⟩, w₁, hprep, hstore⟩ := bind_eq_ok.1 h
  have hdb := (preparePatch_keeps name patch w.db.state validateMACs muts).run hprep
  obtain ⟨hver, hhash, hpend⟩ := preparePatch_ok hprep
  obtain ⟨rfl, happ⟩ := storePrepared_ok hstore
  rw [hdb] at happ
  refine ⟨hi.store happ (fun r hr => ?_) (hpend _) hhash, ?_, hver⟩
  · exact (hi.versions r hr).trans_lt (by rw [hver]; exact hv)
  · rw [AppStateDB.state, (AppStateDB.applyMACs_eq_some happ).1]; rfl

/-- filling an empty collection: the hash is the sum of what is put there -/
theorem Integrity.fill {ops : List (Bytes × Option Bytes)}
    (happ : AppStateDB.empty.applyMACs st out = some db') (hnodup : (ops.map Prod.fst).Nodup)
    (hpend : out.pending AppStateDB.empty.getAppStateMutationMAC = assign AppStateDB.empty.getAppStateMutationMAC ops)
    (hhash : lanes st.hash = (ops.map fun o => weight E.lanes o.2).sum) : Integrity E db' := by
  refine integrity_empty.store happ (fun r hr => absurd hr not_mem_nil) hpend ?_
  have hold : ∀ l : List (Bytes × Option Bytes),
      ((l.map fun o => AppStateDB.empty.getAppStateMutationMAC o.1).map (weight E.lanes)).sum = 0 := by
    intro l
    induction l with
    | nil => rfl
    | cons o l ih => simp [AppStateDB.getAppStateMutationMAC_empty]
  have hzero : lanes AppStateDB.empty.state.hash = 0 := lanes_zero
  rw [replaced_of_nodup hnodup, hold, hzero, sub_zero, zero_add]
  exact hhash

/-- what a prepared snapshot says: every record is added and nothing replaced -/
theorem prepareSnapshot_ok {ss : SyncdSnapshot}
    (h : prepareSnapshot E name ss st validateMACs muts w = (.ok (st', out), w')) :
    let ms := ss.records.map fun record => (⟨.SET, record⟩ : SyncdMutation)
    st'.version = ss.version ∧
      lanes st'.hash = lanes st.hash + ((ms.map SyncdMutation.assignment).map fun o => weight E.lanes o.2).sum ∧
      (∀ f, out.pending f = assign f (ms.map SyncdMutation.assignment)) ∧
      out.addedMACs.map (·.indexMAC) = (ms.map SyncdMutation.assignment).map Prod.fst := by
  intro ms
  obtain ⟨⟨st₁, warn⟩, w₁, hupd, h₁⟩ := bind_eq_ok.1 h
  obtain ⟨u, w₂, -, h₂⟩ := bind_eq_ok.1 h₁
  obtain ⟨out₁, w₃, hdec, h₃⟩ := bind_eq_ok.1 h₂
  cases h₃
  have hans : Answers w.db (fun _ _ => pure none) fun _ _ => none := by
    intro k i w w' r hw hr; cases hr; exact ⟨rfl, hw⟩
  obtain ⟨hver, hlanes⟩ := updateHash_ok hans rfl (mapErr_eq_ok.1 hupd)
  have hnone : ∀ (ms : List SyncdMutation) (i : ℕ),
      ((prevs (fun _ _ => none) i ms).map (weight E.lanes)).sum = 0 := by
    intro ms
    induction ms with
    | nil => intro i; rfl
    | cons m ms ih => intro i; simp [prevs, ih]
  rw [hnone, sub_zero] at hlanes
  have hset : ∀ m ∈ ms, m.operation = .SET := by
    intro m hm
    obtain ⟨r, -, rfl⟩ := mem_map.1 hm
    rfl
  refine ⟨hver, hlanes, decodeMutations_pending (mapErr_eq_ok.1 hdec), ?_⟩
  rw [(decodeMutations_sets hset (mapErr_eq_ok.1 hdec)).1, nil_append]
  simp only [map_map]
  rfl

theorem decodeSnapshot_integrity {ss : SyncdSnapshot} (hrow : w.db.versionRow = none)
    (h : decodeSnapshot E F name ss w.db.state validateMACs muts w = (.ok r, w')) :
    Integrity E w'.db ∧ w'.db.state = r.1 ∧ r.1.version = ss.version := by
  obtain ⟨⟨st, out⟩, w₁, hprep, hstore⟩ := bind_eq_ok.1 h
  have hdb := (prepareSnapshot_keeps name ss w.db.state validateMACs muts).run hprep
  obtain ⟨hver, hhash, hpend, hadded⟩ := prepareSnapshot_ok hprep
  obtain ⟨rfl, happ⟩ := storePrepared_ok hstore
  rw [hdb] at happ
  rw [AppStateDB.eq_empty hrow] at happ hhash
  have hnodup := hadded ▸ AppStateDB.put_indexes_nodup happ
  have hzero : lanes AppStateDB.empty.state.hash = 0 := lanes_zero
  rw [hzero, zero_add] at hhash
  refine ⟨Integrity.fill happ hnodup (hpend _) hhash, ?_, hver⟩
  rw [AppStateDB.state, (AppStateDB.applyMACs_eq_some happ).1]; rfl

/-! ## Calls and runs -/

theorem decodePatchLoop_integrity {faults : ℕ → Faults} {patches : List SyncdPatch}
    {n : ℕ} {r' : HashState × List Mutation} {w w' : World} (hi : Integrity E w.db) (hst : w.db.state = r.1)
    (hinc : (r.1.version :: patches.map (·.version)).IsChain (· < ·))
    (h : decodePatchLoop E faults name validateMACs n patches r w = (.ok r', w')) :
    Integrity E w'.db ∧ w'.db.state = r'.1 := by
  induction patches generalizing n r w with
  | nil => cases h; exact ⟨hi, hst⟩
  | cons patch patches ih =>
    obtain ⟨r₁, w₁, hdec, h₁⟩ := bind_eq_ok.1 h
    obtain ⟨hlt, hrest⟩ := isChain_cons_cons.1 hinc
    rw [← hst] at hdec hlt
    obtain ⟨hi₁, hst₁, hver⟩ := decodePatch_integrity hi hlt hdec
    exact ih hi₁ hst₁ (by rw [hver]; exact hrest) h₁

/-- the version that the patches of a list start from -/
def PatchList.startVersion (list : PatchList) (st : HashState) : ℕ := (list.snapshot.map (·.version)).getD st.version

/-- a snapshot is applied only to the empty state, as `fetchAppState` checks, and the versions increase -/
def PatchList.Legal (list : PatchList) (db : AppStateDB) : Prop :=
  (list.snapshot.isSome → db.getAppStateVersion = some .zero) ∧
    (list.startVersion db.state :: list.patches.map (·.version)).IsChain (· < ·)

instance (list : PatchList) (db : AppStateDB) : Decidable (list.Legal db) :=
  inferInstanceAs (Decidable (_ ∧ _))

theorem AppStateDB.versionRow_of_zero (h : db.getAppStateVersion = some .zero) : db.versionRow = none := by
  rw [getAppStateVersion] at h
  split at h
  · assumption
  · split_ifs at h with hv
    rw [Option.some.inj h] at hv
    exact absurd rfl hv

theorem decodePatches_integrity {faults : ℕ → Faults} {list : PatchList} (hi : Integrity E w.db) (hl : list.Legal w.db)
    (h : decodePatches E faults list w.db.state validateMACs w = (.ok r, w')) :
    Integrity E w'.db ∧ w'.db.state = r.1 := by
  obtain ⟨r₁, w₁, hstart, hloop⟩ := bind_eq_ok.1 h
  obtain ⟨hsnap, hinc⟩ := hl
  cases hss : list.snapshot with
  | none =>
    simp only [decodeStart, hss] at hstart
    cases hstart
    rw [PatchList.startVersion, hss] at hinc
    exact decodePatchLoop_integrity hi rfl hinc hloop
  | some ss =>
    simp only [decodeStart, hss] at hstart
    have hrow := AppStateDB.versionRow_of_zero (hsnap (by rw [hss]; rfl))
    obtain ⟨hi₁, hst₁, hver⟩ := decodeSnapshot_integrity hrow hstart
    rw [PatchList.startVersion, hss] at hinc
    exact decodePatchLoop_integrity hi₁ hst₁ (by rw [hver]; exact hinc) hloop

/-- what happens to a collection -/
inductive SyncOp where
  /-- `DecodePatches` on the stored state -/
  | apply (faults : ℕ → Faults) (list : PatchList) (validateMACs : Bool)
  /-- `DeleteAppStateVersion`, before a full sync -/
  | reset
  /-- keys arrive or are lost, or the processor is replaced -/
  | rekey (keyCache : List (Bytes × ExpandedAppStateKeys)) (syncKeys : Bytes → Option (Option Bytes))

def syncStep (E : Env) (w : World) : SyncOp → World
  | .apply faults list validateMACs => (decodePatches E faults list w.db.state validateMACs w).2
  | .reset => { w with db := w.db.deleteAppStateVersion }
  | .rekey keyCache syncKeys => { w with keyCache := keyCache, syncKeys := syncKeys }

/-- the call is legal and succeeds -/
def SyncOk (E : Env) (w : World) : SyncOp → Prop
  | .apply faults list validateMACs =>
    list.Legal w.db ∧ (decodePatches E faults list w.db.state validateMACs w).1.isOk = true
  | _ => True

theorem syncStep_integrity (w : World) (o : SyncOp) (hok : SyncOk E w o) (hi : Integrity E w.db) :
    Integrity E (syncStep E w o).db := by
  cases o with
  | apply faults list validateMACs =>
    obtain ⟨hl, hsome⟩ := hok
    obtain ⟨r, w', h⟩ := exists_of_isOk hsome
    rw [syncStep, h]
    exact (decodePatches_integrity hi hl h).1
  | reset => exact integrity_empty
  | rekey keyCache syncKeys => exact hi

/-- **Integrity.** After every step of every run of successful calls from the empty collection, the stored hash is, in
each of the 64 lanes modulo 2^16, the sum of the expansions of the live value MACs, an index's live value MAC being the
one `GetAppStateMutationMAC` returns. -/
theorem sync_integrity (E : Env) (w : World) (hw : w.db = .empty) (ops : List SyncOp)
    (hok : Along (syncStep E) (SyncOk E) w ops) (n : ℕ) (i : Fin 64) :
    let db := (run (syncStep E) w (ops.take n)).db
    lanes db.state.hash i =
      ∑ k ∈ db.indexMACs, (db.getAppStateMutationMAC k).elim 0 fun v => lanes (E.patchIntegrity v) i := by
  have hi : Integrity E (run (syncStep E) w (ops.take n)).db :=
    run_inv_take (I := fun w => Integrity E w.db) syncStep_integrity (by rw [hw]; exact integrity_empty) hok n
  exact hi.lane_sum i

theorem length_padded128 (v : Bytes) : ((v ++ List.replicate 128 0).take 128).length = 128 := by
  simp

theorem length_zeros160 : (List.replicate 160 (0 : UInt8)).length = 160 := length_replicate

theorem length_zeros32 : (List.replicate 32 (0 : UInt8)).length = 32 := length_replicate

theorem length_zeros64 : (List.replicate 64 (0 : UInt8)).length = 64 := length_replicate

/-- an environment to evaluate: the cipher does nothing, an expansion is the item itself, MACs are zero -/
def plainEnv : Env where
  patchIntegrity v := ⟨(v ++ List.replicate 128 0).take 128, length_padded128 v⟩
  mutationKeys _ := ⟨List.replicate 160 0, length_zeros160⟩
  hmacSHA256 _ _ := ⟨List.replicate 32 0, length_zeros32⟩
  hmacSHA512 _ _ := ⟨List.replicate 64 0, length_zeros64⟩
  aes _ := ⟨id, id, fun _ h => h, fun _ _ => rfl⟩
  unmarshalSyncActionData _ := some ⟨[], none, [], 0⟩
  marshalSyncActionData _ := some []
  unmarshalIndex _ := some []
  marshalIndex _ := []

/-- an empty collection; every key is known -/
def freshWorld : World := ⟨.empty, [], fun _ => some (some [])⟩

def noFaults : ℕ → Faults := fun _ _ => false

/-- a mutation of the index `k` whose value MAC is filled with `v` -/
def plainMutation (op : Operation) (k v : UInt8) : SyncdMutation :=
  ⟨op, List.replicate 32 k, List.replicate 32 1 ++ List.replicate 32 v, none⟩

/-- two patches: two indexes are set, then one is removed and set again -/
def twoPatches : PatchList :=
  ⟨[], [⟨1, [plainMutation .SET 7 3, plainMutation .SET 8 4], [], [], none⟩,
    ⟨2, [plainMutation .REMOVE 7 0, plainMutation .SET 7 5], [], [], none⟩], none⟩

theorem sync_integrity_two :
    let db := (run (syncStep plainEnv) freshWorld ([SyncOp.apply noFaults twoPatches false].take 1)).db
    db.state.version = 2 ∧ db.macs.length = 2 ∧ lanes db.state.hash 0 =
      ∑ k ∈ db.indexMACs, (db.getAppStateMutationMAC k).elim 0 fun v => lanes (plainEnv.patchIntegrity v) 0 := by
  have hok : Along (syncStep plainEnv) (SyncOk plainEnv) freshWorld [SyncOp.apply noFaults twoPatches false] :=
    ⟨⟨by decide, by decide +kernel⟩, trivial⟩
  exact ⟨by decide +kernel, by decide +kernel, sync_integrity plainEnv freshWorld rfl _ hok 1 0⟩

end Hypermeow.AppState
