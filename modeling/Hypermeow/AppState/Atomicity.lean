/-
What a failed `DecodePatches` call leaves in the tables.

`storeMACs` writes the version row first, then deletes the removed MACs, then inserts the added ones, each in a statement
of its own. A failure of the second or third write leaves the new version and hash with old MAC rows. The third write also
fails without any fault of the database, by its primary key, when a patch sets one index twice.

`WritesHold` is the condition on a call that this does not happen: whenever a snapshot or patch gets to its store calls,
either the version row is not written, or everything is written, or only a delete fails that had nothing to delete while
there is nothing to insert.
-/
import Hypermeow.AppState.Integrity

namespace Hypermeow.AppState

open Lib Go List AppStateDB

variable {E : Env} {F : Faults} {w w' : World} {db db' : AppStateDB}

/-- no store call fails -/
def noFault : Faults := fun _ => false

/-! ## The condition -/

/-- the store calls of one snapshot or patch are not cut off in the middle -/
def StoreHolds (F : Faults) (db : AppStateDB) (st : HashState) (out : PatchOutput) : Prop :=
  F .putAppStateVersion = true ∨
  ((out.removedMACs = [] ∨ F .deleteAppStateMutationMACs = false) ∧
    (out.addedMACs = [] ∨ F .putAppStateMutationMACs = false) ∧ (db.applyMACs st out).isSome = true) ∨
  (out.addedMACs = [] ∧ ∀ r ∈ db.macs, r.indexMAC ∉ out.removedMACs)

/-- the same for a snapshot or patch that is prepared by `prep`, and then `rest` for what follows if it succeeds -/
def StepHolds (F : Faults) (prep : Proc (HashState × PatchOutput)) (rest : HashState × List Mutation → World → Prop)
    (w : World) : Prop :=
  match prep w with
  | (.ok p, w₁) => StoreHolds F w₁.db p.1 p.2 ∧
    match storePrepared F p w₁ with
    | (.ok r, w₂) => rest r w₂
    | _ => True
  | _ => True

def PatchesHold (E : Env) (faults : ℕ → Faults) (name : Bytes) (validateMACs : Bool) :
    ℕ → List SyncdPatch → HashState × List Mutation → World → Prop
  | _, [], _, _ => True
  | n, patch :: patches, r, w =>
    StepHolds (faults n) (preparePatch E (faults n) name patch r.1 validateMACs r.2)
      (fun r w => PatchesHold E faults name validateMACs (n + 1) patches r w) w

def WritesHold (E : Env) (faults : ℕ → Faults) (list : PatchList) (st : HashState) (validateMACs : Bool) (w : World) :
    Prop :=
  match list.snapshot with
  | none => PatchesHold E faults list.name validateMACs 1 list.patches (st, []) w
  | some ss => StepHolds (faults 0) (prepareSnapshot E list.name ss st validateMACs [])
      (fun r w => PatchesHold E faults list.name validateMACs 1 list.patches r w) w

/-- the tables after some prefix of the snapshot and the patches is applied without a fault -/
def AppliedPrefix (E : Env) (list : PatchList) (st : HashState) (validateMACs : Bool) (w : World) (db : AppStateDB) :
    Prop :=
  db = w.db ∨ ∃ j r w', decodePatches E noFaults { list with patches := list.patches.take j } st validateMACs w =
    (.ok r, w') ∧ w'.db = db

/-! ## Faults do not change what succeeds -/

theorem updateHashLoop_le {p q : Bytes → ℕ → Proc (Option Bytes)} (hpq : ∀ k i, Go.Le (p k i) (q k i))
    (ms : List SyncdMutation) (i : ℕ) (d : HashDelta) : Go.Le (updateHashLoop p i ms d) (updateHashLoop q i ms d) := by
  induction ms generalizing i d with
  | nil => exact .refl _
  | cons m ms ih =>
    refine .bind (.refl _) fun d => .bind (hpq _ _).mapErr fun removal => ?_
    cases removal <;> exact ih _ _

theorem getAppStateMutationMAC_le (k : Bytes) (i : ℕ) :
    Go.Le (getAppStateMutationMAC F i k) (getAppStateMutationMAC noFault i k) := by
  have hno : getAppStateMutationMAC noFault i k = (Go.get >>= fun w => pure (w.db.getAppStateMutationMAC k)) :=
    if_neg (by simp [noFault])
  rw [hno, getAppStateMutationMAC]
  split_ifs
  · exact .throw _ _
  · exact .refl _

theorem prevSetValueMAC_le (patch : SyncdPatch) (k : Bytes) (i : ℕ) :
    Go.Le (prevSetValueMAC F patch k i) (prevSetValueMAC noFault patch k i) := by
  refine .bind (.refl _) fun found => ?_
  cases found with
  | some prev => exact .refl _
  | none => exact getAppStateMutationMAC_le k i

theorem preparePatch_le (name : Bytes) (patch : SyncdPatch) (st : HashState) (validateMACs : Bool)
    (muts : List Mutation) :
    Go.Le (preparePatch E F name patch st validateMACs muts) (preparePatch E noFault name patch st validateMACs muts) :=
  .bind (.bind (Le.mapErr (.bind (updateHashLoop_le (prevSetValueMAC_le patch) _ _ _) fun _ => .refl _)) fun _ =>
    .refl _) fun _ => .refl _

/-- without a fault, storing is the three writes -/
theorem storePrepared_noFault {p : HashState × PatchOutput} (h : w.db.applyMACs p.1 p.2 = some db) :
    storePrepared noFault p w = (.ok (p.1, p.2.mutations), { w with db := db }) := by
  rcases storePrepared_run (F := noFault) p w with ⟨hf, -⟩ | ⟨-, -, hf, -⟩ | ⟨-, -, -, hf, -⟩ | ⟨-, -, -, db₁, hdb, hr⟩
  · cases hf
  · cases hf
  · rcases hf with hf | hf
    · cases hf
    · rw [h] at hf; cases hf
  · rw [h] at hdb
    cases hdb
    exact hr

/-! ## One snapshot or patch -/

section Step

variable {prep prep' : Proc (HashState × PatchOutput)}

/-- the tables when a delete failed that had nothing to delete, and there is nothing to insert -/
theorem applyMACs_of_nothing {st : HashState} {out : PatchOutput} (ha : out.addedMACs = [])
    (hr : ∀ r ∈ db.macs, r.indexMAC ∉ out.removedMACs) : db.applyMACs st out = some (db.putAppStateVersion st) := by
  have hdel : (db.putAppStateVersion st).deleteAppStateMutationMACs out.removedMACs = db.putAppStateVersion st := by
    ext1
    · rfl
    · exact filter_eq_self.2 fun r hr' => by simpa using hr r hr'
  rw [AppStateDB.applyMACs, ha, hdel, put_nil]

/-- how a step can end when its writes hold: it succeeds as without faults, or it leaves the tables as they were, or as
after the whole step -/
theorem step_prefix (hkeep : KeepsDB prep) (hle : Go.Le prep prep')
    {rest : HashState × List Mutation → World → Prop} (hold : StepHolds F prep rest w) :
    (∃ r w', (prep >>= storePrepared F) w = (.ok r, w') ∧ (prep' >>= storePrepared noFault) w = (.ok r, w') ∧
      rest r w') ∨
    (∀ r w', (prep >>= storePrepared F) w ≠ (.ok r, w')) ∧
      (((prep >>= storePrepared F) w).2.db = w.db ∨
        ∃ r w', (prep' >>= storePrepared noFault) w = (.ok r, w') ∧ w'.db = ((prep >>= storePrepared F) w).2.db) := by
  by_cases hex : ∃ p w₁, prep w = (.ok p, w₁)
  · obtain ⟨p, w₁, hp⟩ := hex
    rw [StepHolds, hp] at hold
    obtain ⟨hs, hrest⟩ := hold
    rw [bind_ok hp, bind_ok (hle _ _ _ hp)]
    rcases storePrepared_run (F := F) p w₁ with
      ⟨hf, hr⟩ | ⟨hv, hne, hf, hr⟩ | ⟨hv, hd, hne, hf, hr⟩ | ⟨hv, hd, hi, db, hdb', hr⟩ <;> rw [hr]
    · exact .inr ⟨fun _ _ => err_ne_ok, .inl (hkeep.run hp)⟩
    · refine .inr ⟨fun _ _ => err_ne_ok, .inr ?_⟩
      rcases hs with hs | ⟨hs, -, -⟩ | ⟨ha, hrows⟩
      · rw [hv] at hs; cases hs
      · rw [hf] at hs; simp [hne] at hs
      · exact ⟨_, _, storePrepared_noFault (applyMACs_of_nothing ha hrows), rfl⟩
    · exfalso
      rcases hs with hs | ⟨-, hs, happ⟩ | ⟨ha, -⟩
      · rw [hv] at hs; cases hs
      · rcases hf with hf | hf
        · rw [hf] at hs; simp [hne] at hs
        · rw [hf] at happ; cases happ
      · exact hne ha
    · rw [hr] at hrest
      exact .inl ⟨_, _, rfl, storePrepared_noFault hdb', hrest⟩
  · obtain ⟨hstop, hno⟩ := bind_of_not_ok (f := storePrepared F) fun p w₁ hp => hex ⟨p, w₁, hp⟩
    exact .inr ⟨hno, .inl (by rw [hstop, hkeep w])⟩

/-- the version that is stored, if any -/
def AppStateDB.rank (db : AppStateDB) : WithBot ℕ := db.versionRow.map (·.version)

variable {v : ℕ}

/-- a step leaves the stored version or writes that of the prepared state; a successful step writes it -/
theorem step_rank (hkeep : KeepsDB prep) (hver : ∀ p w₁, prep w = (.ok p, w₁) → p.1.version = v) :
    (((prep >>= storePrepared F) w).2.db.rank = w.db.rank ∨ ((prep >>= storePrepared F) w).2.db.rank = v) ∧
      ∀ r w', (prep >>= storePrepared F) w = (.ok r, w') → w'.db.rank = v := by
  by_cases hex : ∃ p w₁, prep w = (.ok p, w₁)
  · obtain ⟨p, w₁, hp⟩ := hex
    have hv : (p.1.version : WithBot ℕ) = v := congrArg _ (hver p w₁ hp)
    rw [bind_ok hp]
    rcases storePrepared_run (F := F) p w₁ with
      ⟨-, hr⟩ | ⟨-, -, -, hr⟩ | ⟨-, -, -, -, hr⟩ | ⟨-, -, -, db, hdb', hr⟩ <;> rw [hr]
    · exact ⟨.inl (by rw [hkeep.run hp]), fun _ _ h => absurd h err_ne_ok⟩
    · exact ⟨.inr hv, fun _ _ h => absurd h err_ne_ok⟩
    · exact ⟨.inr hv, fun _ _ h => absurd h err_ne_ok⟩
    · have hrank : db.rank = v := by
        rw [AppStateDB.rank, (applyMACs_eq_some hdb').1]; exact hv
      refine ⟨.inr hrank, fun r w' h => ?_⟩
      cases h
      exact hrank
  · obtain ⟨hstop, hno⟩ := bind_of_not_ok (f := storePrepared F) fun p w₁ hp => hex ⟨p, w₁, hp⟩
    exact ⟨.inl (by rw [hstop, hkeep w]), fun r w' h => absurd h (hno r w')⟩

/-- the rows after a successful step are of its version or older -/
theorem step_rows (hkeep : KeepsDB prep) (hver : ∀ p w₁, prep w = (.ok p, w₁) → p.1.version = v)
    (hrows : ∀ r ∈ w.db.macs, r.version < v) {r : HashState × List Mutation}
    (h : (prep >>= storePrepared F) w = (.ok r, w')) : ∀ r ∈ w'.db.macs, r.version ≤ v := by
  obtain ⟨p, w₁, hp, hs⟩ := bind_eq_ok.1 h
  intro row hrow
  rw [(applyMACs_eq_some (storePrepared_ok hs).2).2, hkeep.run hp] at hrow
  rcases mem_append.1 hrow with hrow | hrow
  · exact (hrows row (mem_of_mem_filter hrow)).le
  · obtain ⟨m, -, rfl⟩ := mem_map.1 hrow
    exact (hver p w₁ hp).le

/-- how a step can end when the writes do not hold, now or later: it is cut off in the middle and leaves tables that the
whole step would not leave, or it succeeds and the writes do not hold later -/
theorem step_torn (hkeep : KeepsDB prep) (hle : Go.Le prep prep')
    (hver : ∀ p w₁, prep w = (.ok p, w₁) → p.1.version = v) (hrows : ∀ r ∈ w.db.macs, r.version < v)
    {rest : HashState × List Mutation → World → Prop} (hnot : ¬ StepHolds F prep rest w) :
    ((∀ r w', (prep >>= storePrepared F) w ≠ (.ok r, w')) ∧
      ((prep >>= storePrepared F) w).2.db.rank = v ∧
      ∀ r w', (prep' >>= storePrepared noFault) w = (.ok r, w') → w'.db ≠ ((prep >>= storePrepared F) w).2.db) ∨
    ∃ r w', (prep >>= storePrepared F) w = (.ok r, w') ∧ (prep' >>= storePrepared noFault) w = (.ok r, w') ∧
      ¬ rest r w' := by
  rw [StepHolds] at hnot
  rcases hp : prep w with ⟨p | e | _, w₁⟩ <;> simp only [hp] at hnot
  · have hv' : (p.1.version : WithBot ℕ) = v := congrArg _ (hver p w₁ hp)
    rw [bind_ok hp, bind_ok (hle _ _ _ hp)]
    rcases storePrepared_run (F := F) p w₁ with
      ⟨hf, hr⟩ | ⟨hv, hne, hf, hr⟩ | ⟨hv, hd, hne, hf, hr⟩ | ⟨hv, hd, hi, db, hdb', hr⟩ <;> rw [hr] at hnot ⊢
    · exact absurd ⟨.inl hf, trivial⟩ hnot
    · refine .inl ⟨fun _ _ => err_ne_ok, hv', fun r w' hok heq => ?_⟩
      -- the whole step inserts a row of the new version or deletes a row
      have hmacs := (applyMACs_eq_some (storePrepared_ok hok).2).2
      have hsame : w'.db.macs = w₁.db.macs := by rw [heq]; rfl
      rw [hsame] at hmacs
      have hadd : p.2.addedMACs = [] := by
        refine eq_nil_iff_forall_not_mem.2 fun m hm => ?_
        have hrow : (⟨p.1.version, m.indexMAC, m.valueMAC⟩ : MACRow) ∈ w₁.db.macs := by
          rw [hmacs]; exact mem_append_right _ (mem_map_of_mem hm)
        rw [hkeep.run hp] at hrow
        have := hrows _ hrow
        rw [← hver p w₁ hp] at this
        exact absurd this (lt_irrefl _)
      rw [hadd, AppStateDB.macRows, map_nil, append_nil] at hmacs
      refine hnot ⟨.inr (.inr ⟨hadd, fun r hr => ?_⟩), trivial⟩
      simpa using filter_eq_self.1 hmacs.symm r hr
    · refine .inl ⟨fun _ _ => err_ne_ok, hv', fun r w' hok heq => ?_⟩
      have hmacs := (applyMACs_eq_some (storePrepared_ok hok).2).2
      rw [congrArg AppStateDB.macs heq] at hmacs
      have hlen := congrArg List.length hmacs
      rw [length_append, AppStateDB.macRows, length_map] at hlen
      refine hne (eq_nil_of_length_eq_zero ?_)
      simp only [AppStateDB.deleteAppStateMutationMACs, AppStateDB.putAppStateVersion] at hlen
      omega
    · refine .inr ⟨_, _, rfl, storePrepared_noFault hdb', fun hrest => hnot ⟨.inr (.inl ⟨hd, hi, ?_⟩), hrest⟩⟩
      rw [hdb']; rfl
  · exact absurd trivial hnot
  · exact absurd trivial hnot

end Step

/-! ## The patches -/

section Patches

variable {faults : ℕ → Faults} {name : Bytes} {validateMACs : Bool} {patches : List SyncdPatch} {v n : ℕ}
  {prep prep' : Proc (HashState × PatchOutput)} {r : HashState × List Mutation}

/-- a snapshot or patch that is prepared by `prep`, then the patches: the form of both a snapshot and a first patch -/
def stepThen (E : Env) (F : Faults) (faults : ℕ → Faults) (name : Bytes) (validateMACs : Bool)
    (prep : Proc (HashState × PatchOutput)) (n : ℕ) (patches : List SyncdPatch) : Proc (HashState × List Mutation) :=
  (prep >>= storePrepared F) >>= decodePatchLoop E faults name validateMACs n patches

/-- the tables after the patches with faults are those after the first `j` of them without -/
def Reaches (E : Env) (faults : ℕ → Faults) (name : Bytes) (validateMACs : Bool) (n : ℕ) (patches : List SyncdPatch)
    (r : HashState × List Mutation) (w : World) (j : ℕ) : Prop :=
  ∃ r' w', decodePatchLoop E noFaults name validateMACs n (patches.take j) r w = (.ok r', w') ∧
    w'.db = (decodePatchLoop E faults name validateMACs n patches r w).2.db

/-- the same for a step and the patches -/
def ReachesThen (E : Env) (F : Faults) (faults : ℕ → Faults) (name : Bytes) (validateMACs : Bool)
    (prep prep' : Proc (HashState × PatchOutput)) (n : ℕ) (patches : List SyncdPatch) (w : World) (j : ℕ) : Prop :=
  ∃ r' w', stepThen E noFault noFaults name validateMACs prep' n (patches.take j) w = (.ok r', w') ∧
    w'.db = (stepThen E F faults name validateMACs prep n patches w).2.db

/-- when the writes hold, the tables are as before, or those after the step and some of the patches -/
theorem prefix_then (hkeep : KeepsDB prep) (hle : Go.Le prep prep')
    (hold : StepHolds F prep (fun r w => PatchesHold E faults name validateMACs n patches r w) w)
    (ih : ∀ {r w}, PatchesHold E faults name validateMACs n patches r w →
      ∃ j, Reaches E faults name validateMACs n patches r w j) :
    (stepThen E F faults name validateMACs prep n patches w).2.db = w.db ∨
      ∃ j, ReachesThen E F faults name validateMACs prep prep' n patches w j := by
  rcases step_prefix hkeep hle hold with ⟨r₁, w₁, hF, hN, hrest⟩ | ⟨hno, hdb⟩
  · obtain ⟨j, r', w', hj, hdb⟩ := ih hrest
    refine .inr ⟨j, r', w', (bind_ok hN).trans hj, ?_⟩
    rw [stepThen, bind_ok hF, hdb]
  · rw [stepThen, (bind_of_not_ok hno).1]
    rcases hdb with hdb | ⟨r₁, w₁, hN, hdb⟩
    · exact .inl hdb
    · refine .inr ⟨0, r₁, w₁, bind_ok hN, ?_⟩
      rw [stepThen, (bind_of_not_ok hno).1, hdb]

/-- when the writes hold, the tables are those after some of the patches -/
theorem patches_prefix (hold : PatchesHold E faults name validateMACs n patches r w) :
    ∃ j, Reaches E faults name validateMACs n patches r w j := by
  induction patches generalizing n r w with
  | nil => exact ⟨0, r, w, rfl, rfl⟩
  | cons patch patches ih =>
    rcases prefix_then (preparePatch_keeps _ _ _ _ _) (preparePatch_le _ _ _ _ _) hold ih with hdb | ⟨j, hj⟩
    · exact ⟨0, r, w, rfl, hdb.symm⟩
    · exact ⟨j + 1, hj⟩

/-- the stored version is increased by each of the patches -/
def Increases (db : AppStateDB) (patches : List SyncdPatch) : Prop :=
  (db.rank :: patches.map fun p => (p.version : WithBot ℕ)).IsChain (· < ·)

theorem preparePatch_version {patch : SyncdPatch} {st : HashState} {muts : List Mutation} (p : HashState × PatchOutput)
    (w₁ : World) (h : preparePatch E F name patch st validateMACs muts w = (.ok p, w₁)) : p.1.version = patch.version := by
  obtain ⟨st', out⟩ := p
  exact (preparePatch_ok h).1

/-- the stored version does not go down, and goes up when a patch succeeds -/
theorem patches_rank (hinc : Increases w.db patches) :
    w.db.rank ≤ (decodePatchLoop E faults name validateMACs n patches r w).2.db.rank ∧
      ∀ r' w', patches ≠ [] → decodePatchLoop E faults name validateMACs n patches r w = (.ok r', w') →
        w.db.rank < w'.db.rank := by
  induction patches generalizing n r w with
  | nil => exact ⟨le_refl _, fun _ _ h => absurd rfl h⟩
  | cons patch patches ih =>
    obtain ⟨hlt, hrest⟩ := isChain_cons_cons.1 hinc
    obtain ⟨hany, hok⟩ := step_rank (F := faults n) (w := w) (preparePatch_keeps name patch r.1 validateMACs r.2)
      (preparePatch_version (E := E) (F := faults n))
    rw [decodePatchLoop]
    by_cases hex : ∃ r₁ w₁, decodePatch E (faults n) name patch r.1 validateMACs r.2 w = (.ok r₁, w₁)
    · obtain ⟨r₁, w₁, h₁⟩ := hex
      have hrank := hok r₁ w₁ h₁
      obtain ⟨hle, -⟩ := ih (n := n + 1) (r := r₁) (w := w₁) (by rw [Increases, hrank]; exact hrest)
      rw [bind_ok h₁]
      have hup : w.db.rank < (decodePatchLoop E faults name validateMACs (n + 1) patches r₁ w₁).2.db.rank :=
        (hlt.trans_eq hrank.symm).trans_le hle
      refine ⟨hup.le, fun r' w' _ h => ?_⟩
      rw [h] at hup
      exact hup
    · obtain ⟨hstop, hfail⟩ := bind_of_not_ok (f := decodePatchLoop E faults name validateMACs (n + 1) patches)
        fun r₁ w₁ h => hex ⟨r₁, w₁, h⟩
      refine ⟨?_, fun r' w' _ h => absurd h (hfail r' w')⟩
      rw [hstop]
      rcases hany with h | h
      · exact h.ge
      · exact hlt.le.trans_eq h.symm

/-- when the writes do not hold and the versions increase, the tables are neither those before nor those after the step and
any number of the patches -/
theorem torn_then (hkeep : KeepsDB prep) (hkeep' : KeepsDB prep') (hle : Go.Le prep prep')
    (hver : ∀ p w₁, prep' w = (.ok p, w₁) → p.1.version = v) (hrows : ∀ row ∈ w.db.macs, row.version < v)
    (hlt : w.db.rank < v) (hinc : ((v : WithBot ℕ) :: patches.map fun p => (p.version : WithBot ℕ)).IsChain (· < ·))
    (hnot : ¬ StepHolds F prep (fun r w => PatchesHold E faults name validateMACs n patches r w) w)
    (ih : ∀ {r w}, (∀ row ∈ w.db.macs, (row.version : WithBot ℕ) ≤ w.db.rank) → Increases w.db patches →
      ¬ PatchesHold E faults name validateMACs n patches r w →
        ∀ j, ¬ Reaches E faults name validateMACs n patches r w j) :
    (stepThen E F faults name validateMACs prep n patches w).2.db ≠ w.db ∧
      ∀ j, ¬ ReachesThen E F faults name validateMACs prep prep' n patches w j := by
  have hver₁ : ∀ p w₁, prep w = (.ok p, w₁) → p.1.version = v := fun p w₁ h => hver p w₁ (hle _ _ _ h)
  rcases step_torn hkeep hle hver₁ hrows hnot with ⟨hno, hrank, hdiff⟩ | ⟨r₁, w₁, hF, hN, hlater⟩
  · have hstop : (stepThen E F faults name validateMACs prep n patches w).2 = _ := (bind_of_not_ok hno).1
    refine ⟨fun heq => ?_, ?_⟩
    · rw [← heq, hstop, hrank] at hlt
      exact lt_irrefl _ hlt
    · rintro j ⟨r', w', hj, heq⟩
      rw [hstop] at heq
      obtain ⟨r₂, w₂, h₂, hj⟩ := bind_eq_ok.1 hj
      have hrank₂ := (step_rank hkeep' hver).2 r₂ w₂ h₂
      by_cases hnil : patches.take j = []
      · rw [hnil] at hj
        cases hj
        exact hdiff _ _ h₂ heq
      · have hinc₂ : Increases w₂.db (patches.take j) := by
          rw [Increases, hrank₂, map_take]
          exact hinc.take (j + 1)
        have hup := (patches_rank hinc₂).2 r' w' hnil hj
        rw [heq, hrank, hrank₂] at hup
        exact lt_irrefl _ hup
  · have hrank := (step_rank hkeep hver₁).2 r₁ w₁ hF
    have hinc₁ : Increases w₁.db patches := by rw [Increases, hrank]; exact hinc
    have hrows₁ : ∀ row ∈ w₁.db.macs, (row.version : WithBot ℕ) ≤ w₁.db.rank := by
      rw [hrank]
      exact fun row hrow => WithBot.coe_le_coe.2 (step_rows hkeep hver₁ hrows hF row hrow)
    have hloop : stepThen E F faults name validateMACs prep n patches w = _ := bind_ok hF
    refine ⟨fun heq => ?_, ?_⟩
    · rw [← heq, hloop] at hlt
      exact (hlt.trans_eq hrank.symm).not_ge (patches_rank hinc₁).1
    · rintro j ⟨r', w', hj, heq⟩
      rw [hloop] at heq
      exact ih hrows₁ hinc₁ hlater j ⟨r', w', (bind_ok hN).symm.trans hj, heq⟩

/-- when the writes do not hold and the versions increase, the tables are not those after any number of the patches -/
theorem patches_torn (hrows : ∀ row ∈ w.db.macs, (row.version : WithBot ℕ) ≤ w.db.rank) (hinc : Increases w.db patches)
    (hnot : ¬ PatchesHold E faults name validateMACs n patches r w) (j : ℕ) :
    ¬ Reaches E faults name validateMACs n patches r w j := by
  induction patches generalizing n r w j with
  | nil => exact absurd trivial hnot
  | cons patch patches ih =>
    obtain ⟨hlt, hrest⟩ := isChain_cons_cons.1 hinc
    have htorn := torn_then (preparePatch_keeps _ _ _ _ _) (preparePatch_keeps _ _ _ _ _) (preparePatch_le _ _ _ _ _)
      preparePatch_version (fun row hrow => WithBot.coe_lt_coe.1 ((hrows row hrow).trans_lt hlt)) hlt hrest hnot
      fun hrows hinc hnot j => ih hrows hinc hnot j
    cases j with
    | zero =>
      rintro ⟨r', w', hj, heq⟩
      cases hj
      exact htorn.1 heq.symm
    | succ j => exact htorn.2 j

end Patches

/-! ## A whole call -/

section Call

variable {faults : ℕ → Faults} {list : PatchList} {validateMACs : Bool} {st : HashState} {ss : SyncdSnapshot}

theorem prepareSnapshot_version {name : Bytes} {muts : List Mutation} (p : HashState × PatchOutput) (w₁ : World)
    (h : prepareSnapshot E name ss st validateMACs muts w = (.ok p, w₁)) : p.1.version = ss.version := by
  obtain ⟨st', out⟩ := p
  exact (prepareSnapshot_ok h).1

theorem decodePatches_none (hss : list.snapshot = none) (faults : ℕ → Faults) (patches : List SyncdPatch) :
    decodePatches E faults { list with patches := patches } st validateMACs =
      decodePatchLoop E faults list.name validateMACs 1 patches (st, []) := by
  simp only [decodePatches, decodeStart, hss]
  rfl

theorem decodePatches_some (hss : list.snapshot = some ss) (faults : ℕ → Faults) (patches : List SyncdPatch) :
    decodePatches E faults { list with patches := patches } st validateMACs =
      stepThen E (faults 0) faults list.name validateMACs (prepareSnapshot E list.name ss st validateMACs []) 1 patches := by
  simp only [decodePatches, decodeStart, hss]
  rfl

theorem appliedPrefix_none (hss : list.snapshot = none) :
    AppliedPrefix E list st validateMACs w (decodePatches E faults list st validateMACs w).2.db ↔
      ∃ j, Reaches E faults list.name validateMACs 1 list.patches (st, []) w j := by
  have hall : decodePatches E faults list st validateMACs = _ := decodePatches_none hss faults list.patches
  simp only [AppliedPrefix, hall, decodePatches_none hss]
  exact or_iff_right_of_imp fun h => ⟨0, (st, []), w, rfl, h.symm⟩

theorem appliedPrefix_some (hss : list.snapshot = some ss) :
    AppliedPrefix E list st validateMACs w (decodePatches E faults list st validateMACs w).2.db ↔
      (let prep := prepareSnapshot E list.name ss st validateMACs []
       (stepThen E (faults 0) faults list.name validateMACs prep 1 list.patches w).2.db = w.db ∨
        ∃ j, ReachesThen E (faults 0) faults list.name validateMACs prep prep 1 list.patches w j) := by
  have hall : decodePatches E faults list st validateMACs = _ := decodePatches_some hss faults list.patches
  simp only [AppliedPrefix, hall, decodePatches_some hss]
  rfl

/-- when the writes hold, the tables are those after some prefix, for every list and every state -/
theorem appliedPrefix_of_writesHold (hold : WritesHold E faults list st validateMACs w) :
    AppliedPrefix E list st validateMACs w (decodePatches E faults list st validateMACs w).2.db := by
  cases hss : list.snapshot with
  | none =>
    simp only [WritesHold, hss] at hold
    exact (appliedPrefix_none hss).2 <| patches_prefix hold
  | some ss =>
    simp only [WritesHold, hss] at hold
    exact (appliedPrefix_some hss).2 (prefix_then (prepareSnapshot_keeps _ _ _ _ _) (.refl _) hold patches_prefix)

/-- a prefix of a legal list is legal -/
theorem PatchList.Legal.take (hl : list.Legal db) (j : ℕ) : { list with patches := list.patches.take j }.Legal db := by
  refine ⟨hl.1, ?_⟩
  have := hl.2.take (j + 1)
  rwa [take_succ_cons, ← map_take] at this

/-- the tables after a prefix of a legal list are intact -/
theorem AppliedPrefix.integrity (hi : Integrity E w.db) (hl : list.Legal w.db)
    (h : AppliedPrefix E list w.db.state validateMACs w db) : Integrity E db := by
  rcases h with rfl | ⟨j, r, w', hj, rfl⟩
  · exact hi
  · exact (decodePatches_integrity hi (hl.take j) hj).1

/-- rows are not newer than the stored version -/
theorem Integrity.rows_le_rank (hi : Integrity E db) (row : MACRow) (hrow : row ∈ db.macs) :
    (row.version : WithBot ℕ) ≤ db.rank := by
  obtain ⟨st, hst⟩ := Option.isSome_iff_exists.1 (db.foreignKey (ne_nil_of_mem hrow))
  have := hi.versions row hrow
  rw [AppStateDB.state, hst] at this
  rw [AppStateDB.rank, hst]
  exact WithBot.coe_le_coe.2 this

/-- the versions of a legal list increase from the stored version -/
theorem isChain_coe {v : ℕ} {patches : List SyncdPatch} (h : (v :: patches.map (·.version)).IsChain (· < ·)) :
    ((v : WithBot ℕ) :: patches.map fun p => (p.version : WithBot ℕ)).IsChain (· < ·) := by
  have hmap := isChain_map_of_isChain (S := (· < ·)) (fun n : ℕ => (n : WithBot ℕ))
    (fun _ _ hab => WithBot.coe_lt_coe.2 hab) h
  rwa [map_cons, map_map] at hmap

theorem increases_of_state {patches : List SyncdPatch} (h : (db.state.version :: patches.map (·.version)).IsChain (· < ·)) :
    Increases db patches := by
  have hc := isChain_coe h
  cases hrow : db.versionRow with
  | some st =>
    have : db.rank = (db.state.version : WithBot ℕ) := by rw [AppStateDB.rank, AppStateDB.state, hrow]; rfl
    rw [Increases, this]
    exact hc
  | none =>
    have : db.rank = ⊥ := by rw [AppStateDB.rank, hrow]; rfl
    rw [Increases, this]
    cases patches with
    | nil => exact isChain_singleton _
    | cons p ps =>
      exact isChain_cons_cons.2 ⟨WithBot.bot_lt_coe _, (isChain_cons_cons.1 hc).2⟩

/-- for a legal list on an intact collection the condition is necessary -/
theorem writesHold_of_appliedPrefix (hi : Integrity E w.db) (hl : list.Legal w.db)
    (h : AppliedPrefix E list w.db.state validateMACs w (decodePatches E faults list w.db.state validateMACs w).2.db) :
    WritesHold E faults list w.db.state validateMACs w := by
  by_contra hnot
  have hinc := hl.2
  cases hss : list.snapshot with
  | none =>
    simp only [WritesHold, hss] at hnot
    rw [PatchList.startVersion, hss] at hinc
    obtain ⟨j, hj⟩ := (appliedPrefix_none hss).1 h
    exact patches_torn hi.rows_le_rank (increases_of_state hinc) hnot j hj
  | some ss =>
    simp only [WritesHold, hss] at hnot
    rw [PatchList.startVersion, hss] at hinc
    have hrow := versionRow_of_zero (hl.1 (by rw [hss]; rfl))
    have hbot : w.db.rank = ⊥ := by rw [AppStateDB.rank, hrow]; rfl
    have hnew : ∀ row ∈ w.db.macs, row.version < ss.version := fun row hmem => by
      have := hi.rows_le_rank row hmem
      rw [hbot] at this
      exact absurd this (by simp)
    have htorn := torn_then (prepareSnapshot_keeps _ _ _ _ _) (prepareSnapshot_keeps _ _ _ _ _) (.refl _)
      prepareSnapshot_version hnew (hbot.trans_lt (WithBot.bot_lt_coe _)) (isChain_coe hinc) hnot patches_torn
    rcases (appliedPrefix_some hss).1 h with h | ⟨j, hj⟩
    · exact htorn.1 h
    · exact htorn.2 j hj

end Call

/-- **Failure atomicity.** Whatever store calls fail: if the writes hold, the tables are those after some prefix of the
snapshot and the patches, for every list and every state. For a legal list on an intact collection, they are those after
some prefix, and intact, exactly if the writes hold. -/
theorem decode_atomic (E : Env) (faults : ℕ → Faults) (list : PatchList) (validateMACs : Bool) (w : World) :
    let db := (decodePatches E faults list w.db.state validateMACs w).2.db
    (WritesHold E faults list w.db.state validateMACs w → AppliedPrefix E list w.db.state validateMACs w db) ∧
    (Integrity E w.db → list.Legal w.db →
      ((AppliedPrefix E list w.db.state validateMACs w db ∧ Integrity E db) ↔
        WritesHold E faults list w.db.state validateMACs w)) := by
  intro db
  refine ⟨appliedPrefix_of_writesHold, fun hi hl => ⟨fun h => writesHold_of_appliedPrefix hi hl h.1, fun h => ?_⟩⟩
  have hp := appliedPrefix_of_writesHold h
  exact ⟨hp, hp.integrity hi hl⟩

/-- the version row of the second patch cannot be written: the tables are those after the first patch -/
theorem decode_atomic_cut :
    let faults : ℕ → Faults := fun n c => decide (n = 2 ∧ c = .putAppStateVersion)
    let res := decodePatches plainEnv faults twoPatches freshWorld.db.state false freshWorld
    res.1.isOk = false ∧ res.2.db.state.version = 1 ∧ Integrity plainEnv res.2.db ∧
      WritesHold plainEnv faults twoPatches freshWorld.db.state false freshWorld := by
  intro faults res
  have hlegal : twoPatches.Legal freshWorld.db := by decide
  obtain ⟨r, w', hj⟩ := exists_of_isOk (x := decodePatches plainEnv noFaults
    { twoPatches with patches := twoPatches.patches.take 1 } freshWorld.db.state false) (s := freshWorld) (by decide +kernel)
  have hdb : w'.db = res.2.db := by
    have h : (decodePatches plainEnv noFaults { twoPatches with patches := twoPatches.patches.take 1 }
      freshWorld.db.state false freshWorld).2.db = res.2.db := by decide +kernel
    rwa [hj] at h
  have hp : AppliedPrefix plainEnv twoPatches freshWorld.db.state false freshWorld res.2.db := .inr ⟨1, r, w', hj, hdb⟩
  have hi := hp.integrity integrity_empty hlegal
  refine ⟨by decide +kernel, by decide +kernel, hi, ?_⟩
  exact ((decode_atomic plainEnv faults twoPatches false freshWorld).2 integrity_empty hlegal).1 ⟨hp, hi⟩

/-- a patch that sets one index twice -/
def setTwice : PatchList :=
  ⟨[], [⟨1, [plainMutation .SET 7 3, plainMutation .SET 7 4], [], [], none⟩], none⟩

/-- **Torn writes.** From the empty collection: when the insert of the first patch fails, and when a patch sets one index
twice (no call fails by itself, the insert violates the primary key), the call returns an error and leaves the new version
and hash without the MAC rows. -/
theorem torn_writes :
    (let faults : ℕ → Faults := fun n c => decide (n = 1 ∧ c = .putAppStateMutationMACs)
     let res := decodePatches plainEnv faults twoPatches .zero false freshWorld
     res.1 = .err (.wrap .insertMACs (.store .putAppStateMutationMACs)) ∧ res.2.db.state.version = 1 ∧
       res.2.db.macs = [] ∧ ¬ Integrity plainEnv res.2.db) ∧
    (let res := decodePatches plainEnv noFaults setTwice .zero false freshWorld
     res.1 = .err (.wrap .insertMACs (.store .putAppStateMutationMACs)) ∧ res.2.db.state.version = 1 ∧
       res.2.db.macs = [] ∧ ¬ Integrity plainEnv res.2.db) := by
  refine ⟨⟨by decide +kernel, by decide +kernel, by decide +kernel, fun h => ?_⟩,
    ⟨by decide +kernel, by decide +kernel, by decide +kernel, fun h => ?_⟩⟩
  · exact absurd (congrFun h.sum 0) (by decide +kernel)
  · exact absurd (congrFun h.sum 0) (by decide +kernel)

end Hypermeow.AppState
