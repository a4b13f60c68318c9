/-
Writers of an app state collection do not corrupt each other when they start undisturbed.

The invariant: what every run has in hand is honest, and what it is about to write would, on a replica that agrees with
what it read, lead to a replica (`Phase.Sound`). At most one run has begun to write; the calls that it has left lead to a
replica (`Phase.Finishes`). When none has begun, the tables are a replica. A version that was reached stays reached until a
full sync resets the collection (`Reached`).

Results:
- `stale_conflict_corrupts`: a conflict answer that is applied late takes the version back and leaves a hash that is not
  the sum, with an honest server and no failing store call.
-/
import Hypermeow.AppState.Encode
import Hypermeow.Client.AppStateSync

namespace Hypermeow.Client.AppStateSync

open Lib AppState List Option

variable {E : Env} {server : Server} {s : Sys} {ph : Phase} {x : Writing} {db db' : AppStateDB} {w : World}

/-! ## The invariant -/

/-- the calls left, if they succeed, lead to a replica at the state that is stored -/
def Writing.Finishes (E : Env) (server : Server) (db : AppStateDB) (x : Writing) : Prop :=
  ∀ db', db.writes x.calls = some db' → Replica E server db' ∧ db'.state = x.state

/-- the call leaves the version row alone -/
def OnlyMACs : Write → Prop
  | .deleteAppStateMutationMACs _ => True
  | .putAppStateMutationMACs _ _ => True
  | _ => False

/-- what a run has in hand, whatever the others do -/
def Phase.Sound (E : Env) (server : Server) : Phase → Prop
  | .decoding d => HonestList server d.state d.list ∧ (d.list.snapshot ≠ none → d.state = .zero)
  | .looking d patch _ => server.HonestPatches d.state.version (patch :: d.list.patches) ∧ d.list.snapshot = none
  | .storing d x => HonestList server d.state d.list ∧ d.list.snapshot = none ∧
      (x.begun = false → Lands E server x.basis x.state x.calls ∧ ∃ out, x.calls = storeMACsCalls x.state out)
  | .processing recovery currentVersion => currentVersion < recovery.version
  | .replacing x => x.begun = false → Lands E server x.basis x.state x.calls
  | _ => True

/-- what a run that has begun to write owes to the tables -/
def Phase.Finishes (E : Env) (server : Server) (db : AppStateDB) : Phase → Prop
  | .storing _ x => x.begun = true → x.Finishes E server db ∧ db.state = x.state ∧ ∀ c ∈ x.calls, OnlyMACs c
  | .replacing x => x.begun = true → x.Finishes E server db
  | _ => True

structure Inv (E : Env) (server : Server) (s : Sys) : Prop where
  sound : ∀ ph ∈ s.runs, ph.Sound E server
  quiet : s.Quiet → Replica E server s.world.db
  /-- at most one run has begun to write -/
  alone : ∀ (i j : ℕ) (ph ph' : Phase), s.runs[i]? = some ph → s.runs[j]? = some ph' → ph.mid = true → ph'.mid = true → i = j
  finishes : ∀ ph ∈ s.runs, ph.Finishes E server s.world.db

theorem init_inv (hw : Replica E server w.db) : Inv E server (init w) where
  sound ph h := absurd h not_mem_nil
  quiet _ := hw
  alone i j ph ph' h := by cases h
  finishes ph h := absurd h not_mem_nil

theorem finishes_of_not_mid (h : ph.mid = false) : ph.Finishes E server db := by
  cases ph with
  | storing d x =>
    intro hb
    exact absurd (h.symm.trans hb) Bool.false_ne_true
  | replacing x =>
    intro hb
    exact absurd (h.symm.trans hb) Bool.false_ne_true
  | _ => exact trivial

/-! ## One step -/

variable {runs : List Phase} {i j : ℕ} {q q' : Phase}

/-- the runs after one of them has moved -/
theorem getElem?_set_cases (h : (runs.set i q)[j]? = some q') : (j = i ∧ q' = q) ∨ (j ≠ i ∧ runs[j]? = some q') := by
  rw [getElem?_set] at h
  by_cases hij : i = j
  · subst hij
    rw [if_pos rfl] at h
    split_ifs at h
    exact .inl ⟨rfl, (some.inj h).symm⟩
  · rw [if_neg hij] at h
    exact .inr ⟨Ne.symm hij, h⟩

theorem mem_set_of_ne (h : runs[j]? = some q') (hij : j ≠ i) : q' ∈ runs.set i q := by
  refine mem_of_getElem? (i := j) ?_
  rw [getElem?_set_ne (Ne.symm hij), h]

/-- the runs before one was added -/
theorem getElem?_of_concat (h : (runs ++ [q])[j]? = some q') (hne : q' ≠ q) : runs[j]? = some q' := by
  rw [getElem?_append] at h
  split_ifs at h
  · exact h
  · exact absurd (mem_singleton.1 (mem_of_getElem? h)) hne

variable {w' : World} {l : Bool} {ph' : Phase}

/-- a step that does not touch the tables -/
theorem Inv.calm (hinv : Inv E server s) (hi : s.runs[i]? = some ph)
    (hdb : w'.db = s.world.db) (hmid : ph.mid = false) (hmid' : ph'.mid = false) (hs : ph'.Sound E server) :
    Inv E server ⟨w', l, s.runs.set i ph'⟩ := by
  constructor
  · intro q hq
    rcases mem_or_eq_of_mem_set hq with hq | rfl
    · exact hinv.sound q hq
    · exact hs
  · intro hquiet
    rw [hdb]
    refine hinv.quiet fun q hq => ?_
    obtain ⟨j, hj⟩ := mem_iff_getElem?.1 hq
    by_cases hji : j = i
    · rw [hji, hi] at hj
      rw [← some.inj hj, hmid]
    · exact hquiet q (mem_set_of_ne hj hji)
  · intro j k q q' hq hq' hm hm'
    rcases getElem?_set_cases hq with ⟨-, rfl⟩ | ⟨-, hq⟩
    · rw [hmid'] at hm
      cases hm
    rcases getElem?_set_cases hq' with ⟨-, rfl⟩ | ⟨-, hq'⟩
    · rw [hmid'] at hm'
      cases hm'
    exact hinv.alone j k q q' hq hq' hm hm'
  · intro q hq
    rw [hdb]
    rcases mem_or_eq_of_mem_set hq with hq | rfl
    · exact hinv.finishes q hq
    · exact finishes_of_not_mid hmid'

/-- a step that changes the tables while no other run is between two writes -/
theorem Inv.change (hinv : Inv E server s)
    (hothers : ∀ j q, j ≠ i → s.runs[j]? = some q → q.mid = false) (hs : ph'.Sound E server)
    (hf : ph'.Finishes E server w'.db) (hr : ph'.mid = false → Replica E server w'.db) (hi : s.runs[i]? = some ph) :
    Inv E server ⟨w', l, s.runs.set i ph'⟩ := by
  have hothers' : ∀ j q, (s.runs.set i ph')[j]? = some q → q.mid = true → j = i := by
    intro j q hq hm
    rcases getElem?_set_cases hq with ⟨hj, -⟩ | ⟨hj, hq⟩
    · exact hj
    · rw [hothers j q hj hq] at hm
      cases hm
  constructor
  · intro q hq
    rcases mem_or_eq_of_mem_set hq with hq | rfl
    · exact hinv.sound q hq
    · exact hs
  · intro hquiet
    exact hr (hquiet ph' (mem_set (List.getElem?_eq_some_iff.1 hi).1 _))
  · intro j k q q' hq hq' hm hm'
    rw [hothers' j q hq hm, hothers' k q' hq' hm']
  · intro q hq
    obtain ⟨j, hj⟩ := mem_iff_getElem?.1 hq
    rcases getElem?_set_cases hj with ⟨-, rfl⟩ | ⟨hne, hj⟩
    · exact hf
    · exact finishes_of_not_mid (hothers j q hne hj)

/-- a run that is not at its store calls: nothing is written, and what it has in hand stays honest -/
structure Calm (E : Env) (server : Server) (w : World) (r : World × Bool × Phase) : Prop where
  db : r.1.db = w.db
  mid : r.2.2.mid = false
  sound : r.2.2.Sound E server

/-- a run that ends -/
theorem calm_done (hdb : w'.db = w.db) : Calm E server w (w', l, .done) := ⟨hdb, rfl, trivial⟩

variable {d : Decoding} {reply : Option Reply}

theorem decoding_calm (hs : (Phase.decoding d).Sound E server) :
    Calm E server w (advance E reply w l (.decoding d)) := by
  obtain ⟨⟨hsnap, hpatches⟩, hzero⟩ := hs
  cases hss : d.list.snapshot with
  | some ss =>
    simp only [advance, hss]
    have hkeep := prepareSnapshot_keeps (E := E) d.list.name ss d.state true d.mutations
    rcases hprep : prepareSnapshot E d.list.name ss d.state true d.mutations w with ⟨⟨st, out⟩ | e | _, w'⟩
    · refine ⟨hkeep.run hprep, rfl, ⟨fun ss' h => (by cases h), ?_⟩, rfl, fun _ => ⟨?_, out, rfl⟩⟩
      · have hver : st.version = ss.version := (prepareSnapshot_ok hprep).1
        rw [PatchList.startVersion, hss, map_some, getD_some, ← hver] at hpatches
        exact hpatches
      · have hstate : d.state = .zero := hzero (by rw [hss]; simp)
        rw [hstate] at hprep ⊢
        exact lands_snapshot (hsnap ss hss) hprep
    · exact calm_done (hkeep.run hprep)
    · exact calm_done (hkeep.run hprep)
  | none =>
    rw [PatchList.startVersion, hss] at hpatches
    cases hps : d.list.patches with
    | cons patch patches =>
      simp only [advance, hss, hps]
      rw [hps] at hpatches
      exact ⟨rfl, rfl, hpatches, rfl⟩
    | nil =>
      cases hc : d.caller with
      | fetch hasMore =>
        simp only [advance, hss, hps, hc]
        cases hasMore <;> exact ⟨rfl, rfl, trivial⟩
      | send =>
        simp only [advance, hss, hps, hc]
        exact ⟨rfl, rfl, trivial⟩

theorem looking_calm {patch : SyncdPatch} {prev : List (Option Bytes)}
    (hs : (Phase.looking d patch prev).Sound E server) :
    Calm E server w (advance E reply w l (.looking d patch prev)) := by
  obtain ⟨hpatches, hss⟩ := hs
  cases hm : patch.mutations[prev.length]? with
  | some mutation =>
    simp only [advance, hm]
    have hkeep := prevSetValueMAC_keeps (F := noFault) patch mutation.record.index prev.length
    rcases hlook : prevSetValueMAC noFault patch mutation.record.index prev.length w with ⟨r | e | _, w'⟩
    · exact ⟨hkeep.run hlook, rfl, hpatches, hss⟩
    · exact calm_done (hkeep.run hlook)
    · exact calm_done (hkeep.run hlook)
  | none =>
    simp only [advance, hm]
    have hkeep := preparePatchWith_keeps (E := E) (answered_keeps prev) d.list.name patch d.state true d.mutations
    rcases hprep : preparePatchWith E (answered prev) d.list.name patch d.state true d.mutations w with
      ⟨⟨st, out⟩ | e | _, w'⟩
    · refine ⟨hkeep.run hprep, rfl, ⟨fun ss h => ?_, ?_⟩, hss, fun _ => ⟨lands_patch hpatches hprep, out, rfl⟩⟩
      · rw [hss] at h
        cases h
      · rw [PatchList.startVersion, hss]
        have hnext := (Server.after_cons hpatches).2.2
        rw [← (preparePatchWith_ok (answered_answers prev w.db) hprep).1] at hnext
        exact hnext
    · exact calm_done (hkeep.run hprep)
    · exact calm_done (hkeep.run hprep)

variable {v : ℕ}

theorem processing_calm {recovery : SyncdSnapshotRecovery}
    (hs : v < recovery.version) (hh : (Phase.processing recovery v).Honest E server w reply) :
    Calm E server w (advance E reply w l (.processing recovery v)) := by
  simp only [advance]
  rw [Phase.Honest] at hh
  have hkeep := prepareRecovery_keeps (E := E) recovery
  rcases hprep : prepareRecovery E recovery w with ⟨⟨st, macs, muts⟩ | e | _, w'⟩
  · rw [hprep] at hh
    refine ⟨hkeep.run hprep, rfl, fun _ => lands_recovery ?_ hh⟩
    rw [prepareRecovery_version hprep]
    exact hs
  · exact calm_done (hkeep.run hprep)
  · exact calm_done (hkeep.run hprep)

theorem advance_calm (hw : ph.writing = none) (hres : ph.resets = false)
    (hs : ph.Sound E server) (hh : ph.Honest E server w reply) : Calm E server w (advance E reply w l ph) := by
  cases ph with
  | locking fullSync onlyIfNotSynced =>
    simp only [advance]
    split_ifs <;> exact ⟨rfl, rfl, trivial⟩
  | resetting onlyIfNotSynced => cases hres
  | fetching fullSync onlyIfNotSynced =>
    simp only [advance]
    cases w.db.getAppStateVersion with
    | none => exact ⟨rfl, rfl, trivial⟩
    | some state =>
      simp only
      split_ifs <;> exact ⟨rfl, rfl, trivial⟩
  | requesting state wantSnapshot =>
    rcases reply with _ | ⟨list, hasMore⟩ | _ | list
    · exact ⟨rfl, rfl, trivial⟩
    · simp only [advance]
      split_ifs with hunasked hstate
      · exact ⟨rfl, rfl, trivial⟩
      · exact ⟨rfl, rfl, trivial⟩
      · exact ⟨rfl, rfl, hh, fun hss => not_not.1 fun hne => hstate ⟨hss, hne⟩⟩
    · exact ⟨rfl, rfl, trivial⟩
    · exact ⟨rfl, rfl, trivial⟩
  | sending allowRetry =>
    simp only [advance]
    cases w.db.getAppStateVersion <;> exact ⟨rfl, rfl, trivial⟩
  | uploading state allowRetry =>
    rcases reply with _ | ⟨list, hasMore⟩ | _ | list
    · exact ⟨rfl, rfl, trivial⟩
    · exact ⟨rfl, rfl, trivial⟩
    · exact ⟨rfl, rfl, trivial⟩
    · simp only [advance]
      split_ifs
      · exact ⟨rfl, rfl, hh.2, fun hss => absurd hh.1 hss⟩
      · exact ⟨rfl, rfl, trivial⟩
  | decoding d => exact decoding_calm hs
  | looking d patch prev => exact looking_calm hs
  | storing d x => cases hw
  | recovering recovery =>
    simp only [advance]
    cases w.db.getAppStateVersion with
    | none => exact ⟨rfl, rfl, trivial⟩
    | some state =>
      simp only
      split_ifs with hv
      · exact ⟨rfl, rfl, trivial⟩
      · exact ⟨rfl, rfl, not_le.1 hv⟩
  | processing recovery v => exact processing_calm hs hh
  | replacing x => cases hw
  | done => exact ⟨rfl, rfl, trivial⟩

/-! ## Store calls -/

/-- one call less -/
theorem Writing.next_finishes {o : Option Writing} (hf : x.Finishes E server db) (h : x.next db = some (db', o)) :
    (o = none → Replica E server db' ∧ db'.state = x.state) ∧
      ∀ y ∈ o, y.begun = true ∧ y.state = x.state ∧ y.Finishes E server db' := by
  rw [Writing.next] at h
  cases hc : x.calls with
  | nil =>
    simp only [hc] at h
    cases h
    refine ⟨fun _ => hf db (by rw [hc]; rfl), fun y hy => ?_⟩
    cases hy
  | cons c cs =>
    simp only [hc] at h
    obtain ⟨db₁, hwrite, heq⟩ := map_eq_some_iff.1 h
    cases heq
    have hrest : ∀ db'', db'.writes cs = some db'' → Replica E server db'' ∧ db''.state = x.state := by
      intro db'' hcs
      refine hf db'' ?_
      rw [hc, AppStateDB.writes, hwrite]
      exact hcs
    split_ifs with hnil
    · refine ⟨fun _ => hrest db' (by rw [hnil]; rfl), fun y hy => ?_⟩
      cases hy
    · refine ⟨fun hno => ?_, fun y hy => ?_⟩
      · cases hno
      · cases hy
        exact ⟨rfl, rfl, hrest⟩

theorem OnlyMACs.state {c : Write} (hc : OnlyMACs c) (h : db.write c = some db') : db'.state = db.state := by
  cases c with
  | putAppStateVersion st => exact hc.elim
  | deleteAppStateVersion => exact hc.elim
  | deleteAppStateMutationMACs indexMACs =>
    cases h
    rfl
  | putAppStateMutationMACs version mutations =>
    rw [AppStateDB.state, AppStateDB.state, (AppStateDB.put_eq_some h).1]

/-- where `storeMACs` is: before its calls, or with its version stored and only MACs left to write -/
structure Writing.Stores (x : Writing) (db : AppStateDB) : Prop where
  first : x.begun = false → ∃ out, x.calls = storeMACsCalls x.state out
  later : x.begun = true → db.state = x.state ∧ ∀ c ∈ x.calls, OnlyMACs c

/-- from its first call on, `storeMACs` has its version stored -/
theorem Writing.Stores.next {o : Option Writing} (hst : x.Stores db) (h : x.next db = some (db', o)) :
    db'.state = x.state ∧ ∀ y ∈ o, y.begun = true ∧ y.state = x.state ∧ ∀ c ∈ y.calls, OnlyMACs c := by
  rw [Writing.next] at h
  cases hc : x.calls with
  | nil =>
    simp only [hc] at h
    cases h
    refine ⟨?_, fun y hy => ?_⟩
    · cases hb : x.begun with
      | false =>
        obtain ⟨out, hout⟩ := hst.first hb
        rw [hc] at hout
        cases hout
      | true => exact (hst.later hb).1
    · cases hy
  | cons c cs =>
    simp only [hc] at h
    obtain ⟨db₁, hwrite, heq⟩ := map_eq_some_iff.1 h
    obtain ⟨rfl, ho⟩ := Prod.mk.inj heq
    have hcall : db₁.state = x.state ∧ ∀ c ∈ cs, OnlyMACs c := by
      cases hb : x.begun with
      | false =>
        obtain ⟨out, hout⟩ := hst.first hb
        rw [hc] at hout
        cases hout
        cases hwrite
        refine ⟨rfl, fun c hmem => ?_⟩
        rcases mem_cons.1 hmem with rfl | hmem
        · exact trivial
        · rw [mem_singleton.1 hmem]
          exact trivial
      | true =>
        obtain ⟨hstate, hmacs⟩ := hst.later hb
        rw [hc] at hmacs
        refine ⟨(OnlyMACs.state (hmacs c mem_cons_self) hwrite).trans hstate, fun c' hc' => ?_⟩
        exact hmacs c' (mem_cons_of_mem _ hc')
    refine ⟨hcall.1, fun y hy => ?_⟩
    rw [← ho] at hy
    split_ifs at hy
    · cases hy
    · cases hy
      exact ⟨rfl, rfl, hcall.2⟩

theorem mid_of_writing (h : ph.writing = some x) : ph.mid = x.begun := by
  rw [Phase.mid, h]
  rfl

theorem lands_of_sound (hs : ph.Sound E server) (hx : ph.writing = some x) (hb : x.begun = false) :
    Lands E server x.basis x.state x.calls := by
  cases ph with
  | storing d y =>
    cases hx
    exact (hs.2.2 hb).1
  | replacing y =>
    cases hx
    exact hs hb
  | _ => cases hx

theorem finishes_of_begun (hf : ph.Finishes E server db) (hx : ph.writing = some x) (hb : x.begun = true) :
    x.Finishes E server db := by
  cases ph with
  | storing d y =>
    cases hx
    exact (hf hb).1
  | replacing y =>
    cases hx
    exact hf hb
  | _ => cases hx

/-- when a run makes a store call, it is the only one at its calls, and the calls left lead to a replica -/
theorem Inv.writer (hinv : Inv E server s) (hi : s.runs[i]? = some ph) (hx : ph.writing = some x)
    (hun : x.begun = false → s.Quiet ∧ x.basis.Valid s.world.db) :
    (∀ j q, j ≠ i → s.runs[j]? = some q → q.mid = false) ∧ x.Finishes E server s.world.db := by
  have hmem := mem_of_getElem? hi
  cases hb : x.begun with
  | false =>
    obtain ⟨hquiet, hvalid⟩ := hun hb
    refine ⟨fun j q _ hj => hquiet q (mem_of_getElem? hj), ?_⟩
    exact (lands_of_sound (hinv.sound ph hmem) hx hb _ (hinv.quiet hquiet) hvalid).2
  | true =>
    refine ⟨fun j q hne hj => ?_, finishes_of_begun (hinv.finishes ph hmem) hx hb⟩
    by_contra hq
    exact hne (hinv.alone j i q ph hj hi (Bool.not_eq_false _ ▸ hq) ((mid_of_writing hx).trans hb))

/-! ## Versions -/

theorem mid_of_midRecovery (h : ph.midRecovery = true) : ph.mid = true := by
  cases ph with
  | replacing x => exact h
  | _ => cases h

theorem midRecovery_of_not_mid (h : ph.mid = false) : ph.midRecovery = false := by
  by_contra hne
  rw [mid_of_midRecovery (Bool.not_eq_false _ ▸ hne)] at h
  cases h

theorem Sys.Quiet.noRecovery (h : s.Quiet) : s.NoRecovery := fun ph hph => midRecovery_of_not_mid (h ph hph)

/-- the stored version is not below `v`; while a recovery replaces the collection, the version that it stores -/
structure Reached (v : ℕ) (s : Sys) : Prop where
  recovery : ∀ ph ∈ s.runs, ph.midRecovery = true → ∀ x ∈ ph.writing, v ≤ x.state.version
  stored : s.NoRecovery → v ≤ s.world.db.state.version

theorem Reached.calm (h : Reached v s)
    (hi : s.runs[i]? = some ph) (hdb : w'.db = s.world.db) (hmid : ph.mid = false) (hmid' : ph'.mid = false) :
    Reached v ⟨w', l, s.runs.set i ph'⟩ := by
  constructor
  · intro q hq hrec
    rcases mem_or_eq_of_mem_set hq with hq | rfl
    · exact h.recovery q hq hrec
    · rw [midRecovery_of_not_mid hmid'] at hrec
      cases hrec
  · intro hno
    rw [hdb]
    refine h.stored fun q hq => ?_
    obtain ⟨j, hj⟩ := mem_iff_getElem?.1 hq
    by_cases hji : j = i
    · rw [hji, hi] at hj
      rw [← some.inj hj, midRecovery_of_not_mid hmid]
    · exact hno q (mem_set_of_ne hj hji)

/-- a run does not store a version below what was reached -/
theorem Inv.writer_version (hinv : Inv E server s) (hi : s.runs[i]? = some ph) (hx : ph.writing = some x)
    (hun : x.begun = false → s.Quiet ∧ x.basis.Valid s.world.db) (hr : Reached v s) : v ≤ x.state.version := by
  have hmem := mem_of_getElem? hi
  cases hb : x.begun with
  | false =>
    obtain ⟨hquiet, hvalid⟩ := hun hb
    have hle := (lands_of_sound (hinv.sound ph hmem) hx hb _ (hinv.quiet hquiet) hvalid).1
    exact (hr.stored hquiet.noRecovery).trans hle
  | true =>
    cases ph with
    | storing d y =>
      cases hx
      -- `storeMACs` has stored its version already
      have hstate := (hinv.finishes _ hmem hb).2.1
      rw [← hstate]
      refine hr.stored fun q hq => ?_
      obtain ⟨j, hj⟩ := mem_iff_getElem?.1 hq
      by_cases hji : j = i
      · rw [hji, hi] at hj
        rw [← some.inj hj]
        rfl
      · exact midRecovery_of_not_mid ((hinv.writer hi rfl hun).1 j q hji hj)
    | replacing y =>
      cases hx
      exact hr.recovery _ hmem hb x rfl
    | _ => cases hx

/-! ## Every step -/

/-- what a step keeps: the invariant and, unless it is a reset, the versions reached -/
def Keeps (E : Env) (server : Server) (s s' : Sys) (resets : Prop) : Prop :=
  Inv E server s' ∧ (¬resets → ∀ v, Reached v s → Reached v s')

variable {resets : Prop}

/-- a store call of a run, which stores the state of its writing -/
theorem Inv.written (hinv : Inv E server s) (hi : s.runs[i]? = some ph) (hx : ph.writing = some x)
    (hun : x.begun = false → s.Quiet ∧ x.basis.Valid s.world.db) (hs : ph'.Sound E server)
    (hf : ph'.Finishes E server w'.db) (hr : ph'.mid = false → Replica E server w'.db)
    (hrec : ph'.midRecovery = true → ∀ y ∈ ph'.writing, y.state = x.state)
    (hstored : ph'.midRecovery = false → w'.db.state = x.state) : Keeps E server s ⟨w', l, s.runs.set i ph'⟩ resets := by
  obtain ⟨hothers, -⟩ := hinv.writer hi hx hun
  refine ⟨hinv.change hothers hs hf hr hi, fun _ v hv => ?_⟩
  have hle := hinv.writer_version hi hx hun hv
  constructor
  · intro q hq hm
    obtain ⟨j, hj⟩ := mem_iff_getElem?.1 hq
    rcases getElem?_set_cases hj with ⟨-, rfl⟩ | ⟨hne, hj⟩
    · intro y hy
      rwa [hrec hm y hy]
    · rw [midRecovery_of_not_mid (hothers j q hne hj)] at hm
      cases hm
  · intro hno
    rwa [hstored (hno ph' (mem_set (List.getElem?_eq_some_iff.1 hi).1 _))]

theorem storing_keeps (hinv : Inv E server s)
    (hi : s.runs[i]? = some (.storing d x)) (hok : (x.next s.world.db).isSome = true)
    (hun : x.begun = false → s.Quiet ∧ x.basis.Valid s.world.db) :
    Keeps E server s (step E s (.step i reply)) resets := by
  have hsound := hinv.sound _ (mem_of_getElem? hi)
  have hbegun := hinv.finishes _ (mem_of_getElem? hi)
  have hstores : x.Stores s.world.db := ⟨fun hb => (hsound.2.2 hb).2, fun hb => (hbegun hb).2⟩
  simp only [step, hi, advance]
  obtain ⟨⟨db, o⟩, hnext⟩ := isSome_iff_exists.1 hok
  obtain ⟨hlast, hmore⟩ := Writing.next_finishes (hinv.writer hi rfl hun).2 hnext
  obtain ⟨hstate, hy⟩ := hstores.next hnext
  rw [hnext]
  cases o with
  | none =>
    exact hinv.written hi rfl hun ⟨hsound.1, fun hne => absurd hsound.2.1 hne⟩ trivial (fun _ => (hlast rfl).1)
      (fun hm => by cases hm) fun _ => hstate
  | some y =>
    obtain ⟨hyb, hys, hyf⟩ := hmore y rfl
    refine hinv.written hi rfl hun ⟨hsound.1, hsound.2.1, fun hb => ?_⟩
      (fun _ => ⟨hyf, hstate.trans hys.symm, (hy y rfl).2.2⟩) (fun hm => ?_) (fun hm => by cases hm) fun _ => hstate
    · rw [hyb] at hb
      cases hb
    · rw [mid_of_writing rfl, hyb] at hm
      cases hm

theorem replacing_keeps (hinv : Inv E server s)
    (hi : s.runs[i]? = some (.replacing x)) (hok : (x.next s.world.db).isSome = true)
    (hun : x.begun = false → s.Quiet ∧ x.basis.Valid s.world.db) :
    Keeps E server s (step E s (.step i reply)) resets := by
  simp only [step, hi, advance]
  obtain ⟨⟨db, o⟩, hnext⟩ := isSome_iff_exists.1 hok
  obtain ⟨hlast, hmore⟩ := Writing.next_finishes (hinv.writer hi rfl hun).2 hnext
  rw [hnext]
  cases o with
  | none =>
    obtain ⟨hrep, hstate⟩ := hlast rfl
    exact hinv.written hi rfl hun trivial trivial (fun _ => hrep) (fun hm => by cases hm) fun _ => hstate
  | some y =>
    obtain ⟨hyb, hys, hyf⟩ := hmore y rfl
    refine hinv.written hi rfl hun (fun hb => ?_) (fun _ => hyf) (fun hm => ?_) (fun _ z hz => ?_) fun hm => ?_
    · rw [hyb] at hb
      cases hb
    · rw [mid_of_writing rfl, hyb] at hm
      cases hm
    · cases hz
      exact hys
    · rw [Phase.midRecovery, hyb] at hm
      cases hm

/-- the assumptions and the condition on a step -/
def Permitted (E : Env) (server : Server) (s : Sys) (a : Action) : Prop :=
  (Honest E server s a ∧ StoreSucceeds s a) ∧ Undisturbed s a

/-- a new run -/
theorem start_keeps (call : Call) (hinv : Inv E server s) : Keeps E server s (step E s (.start call)) resets := by
  have hmid : call.phase.mid = false := by cases call <;> rfl
  have hsound : call.phase.Sound E server := by cases call <;> exact trivial
  have hold : ∀ (j : ℕ) (q : Phase), (s.runs ++ [call.phase])[j]? = some q → q.mid = true → s.runs[j]? = some q := by
    intro j q hj hm
    refine getElem?_of_concat hj ?_
    rintro rfl
    rw [hmid] at hm
    cases hm
  refine ⟨⟨?_, ?_, ?_, ?_⟩, fun _ v hv => ⟨?_, ?_⟩⟩
  · intro q hq
    rcases mem_append.1 hq with hq | hq
    · exact hinv.sound q hq
    · rw [mem_singleton.1 hq]
      exact hsound
  · intro hquiet
    exact hinv.quiet fun q hq => hquiet q (mem_append_left _ hq)
  · intro i j q q' hq hq' hm hm'
    exact hinv.alone i j q q' (hold i q hq hm) (hold j q' hq' hm') hm hm'
  · intro q hq
    rcases mem_append.1 hq with hq | hq
    · exact hinv.finishes q hq
    · rw [mem_singleton.1 hq]
      exact finishes_of_not_mid hmid
  · intro q hq hm
    rcases mem_append.1 hq with hq | hq
    · exact hv.recovery q hq hm
    · rw [mem_singleton.1 hq, midRecovery_of_not_mid hmid] at hm
      cases hm
  · intro hno
    exact hv.stored fun q hq => hno q (mem_append_left _ hq)

/-- the reset of a full sync -/
theorem resetting_keeps {onlyIfNotSynced : Bool} (hinv : Inv E server s)
    (hi : s.runs[i]? = some (.resetting onlyIfNotSynced)) (hquiet : s.Quiet) :
    Inv E server (step E s (.step i reply)) := by
  simp only [step, hi, advance]
  exact hinv.change (fun j q _ hj => hquiet q (mem_of_getElem? hj)) trivial trivial
    (fun _ => replica_empty E server) hi

theorem step_keeps {a : Action} (hok : Permitted E server s a) (hinv : Inv E server s) :
    Keeps E server s (step E s a) (Resets s a) := by
  obtain ⟨⟨hhonest, hstore⟩, hun⟩ := hok
  cases a with
  | start call => exact start_keeps call hinv
  | rekey keyCache syncKeys =>
    exact ⟨⟨hinv.sound, hinv.quiet, hinv.alone, hinv.finishes⟩, fun _ v hv => ⟨hv.recovery, hv.stored⟩⟩
  | step i reply =>
    cases hi : s.runs[i]? with
    | none =>
      simp only [step, hi]
      exact ⟨hinv, fun _ v hv => hv⟩
    | some ph =>
      have hcalm : ph.writing = none → ph.resets = false →
          Keeps E server s (step E s (.step i reply)) (Resets s (.step i reply)) := by
        intro hw hres
        have hmid : ph.mid = false := by
          rw [Phase.mid, hw]
          rfl
        have hc := advance_calm (l := s.locked) hw hres (hinv.sound ph (mem_of_getElem? hi)) (hhonest ph hi)
        simp only [step, hi]
        exact ⟨hinv.calm hi hc.db hmid hc.mid hc.sound, fun _ v hv => hv.calm hi hc.db hmid hc.mid⟩
      cases ph with
      | storing d x => exact storing_keeps hinv hi (hstore _ hi x rfl) ((hun _ hi).2 x rfl)
      | replacing x => exact replacing_keeps hinv hi (hstore _ hi x rfl) ((hun _ hi).2 x rfl)
      | resetting onlyIfNotSynced =>
        refine ⟨resetting_keeps hinv hi ((hun _ hi).1 rfl), fun hno => ?_⟩
        exact absurd ⟨_, hi, rfl⟩ hno
      | _ => exact hcalm rfl rfl

/-! ## Runs -/

/-! ## Two runs -/

theorem length_padded (n : ℕ) (data : Bytes) : ((data ++ List.replicate n 0).take n).length = n := by simp

/-- the first bytes, with zeros behind -/
def firstBytes (n : ℕ) (data : Bytes) : { bs : Bytes // bs.length = n } :=
  ⟨(data ++ List.replicate n 0).take n, length_padded n data⟩

/-- a MAC is the first bytes of what it covers, a plaintext is the index -/
def coveringEnv : Env :=
  { plainEnv with
    hmacSHA256 := fun _ data => firstBytes 32 data
    hmacSHA512 := fun _ data => firstBytes 64 data
    unmarshalSyncActionData := fun data => some ⟨data, none, [], 0⟩ }

def zeroKeys : ExpandedAppStateKeys := expandAppStateKeys coveringEnv []

/-- a mutation of the index `k`, with its MACs -/
def signedMutation (operation : Operation) (k : UInt8) : SyncdMutation :=
  let content := List.replicate 16 0 ++ k :: List.replicate 15 15
  ⟨operation, (firstBytes 32 [k]).1,
    content ++ generateContentMAC coveringEnv operation content [] zeroKeys.valueMAC, some []⟩

/-- the hash of a collection -/
def hashOf (live : List SyncdMutation) : Hash :=
  subtractThenAdd coveringEnv.patchIntegrity Hash.zero [] (live.map fun m => macTail m.record.value)

/-- a patch as `EncodePatch` signs it, with the collection after it -/
def patchTo (version : ℕ) (live mutations : List SyncdMutation) : SyncdPatch :=
  { signedPatch coveringEnv zeroKeys [] [] ⟨version, hashOf live⟩ mutations with version := version }

/-- one index is set, it is removed, another is set -/
def threePatches : List SyncdPatch :=
  [patchTo 1 [signedMutation .SET 7] [signedMutation .SET 7], patchTo 2 [] [signedMutation .REMOVE 7],
    patchTo 3 [signedMutation .SET 8] [signedMutation .SET 8]]

theorem threePatches_increasing : (threePatches.map (·.version)).Pairwise (· < ·) := by decide

theorem threePatches_positive : ∀ patch ∈ threePatches, 0 < patch.version := by decide

def threeServer : Server := ⟨threePatches, threePatches_increasing, threePatches_positive⟩

/-- some steps of a run that ask nothing -/
def steps (i n : ℕ) : List Action := List.replicate n (.step i none)

/-- a conflict is answered with the first patch and applied; meanwhile a fetch waits for the second; a recovery replaces
the collection while the retry reads the version -/
def overlapping : List Action :=
  [.start .sendAppState, .start (.fetchAppState false false),
    .start (.handleAppStateRecovery ⟨3, [], [⟨⟨[8], none, [], 0⟩, some [], macTail (signedMutation .SET 8).record.value⟩],
      (hashOf [signedMutation .SET 8]).1⟩)] ++
  steps 0 1 ++ [.step 0 (some (.conflict ⟨[], threePatches.take 1, none⟩))] ++ steps 0 4 ++ steps 1 2 ++ steps 0 3 ++
  [.step 1 (some (.patches ⟨[], (threePatches.drop 1).take 1, none⟩ false))] ++ steps 1 7 ++
  steps 2 3 ++ steps 0 1 ++ steps 2 2 ++ [.step 0 (some .accepted)] ++ steps 0 2 ++
  [.step 0 (some (.patches ⟨[], [], none⟩ false))] ++ steps 0 1

/-- a conflict answer waits at its first write while a fetch applies two patches -/
def stale : List Action :=
  [.start (.fetchAppState false false), .start .sendAppState, .start (.fetchAppState false false)] ++
  steps 0 2 ++ [.step 0 (some (.patches ⟨[], threePatches.take 1, none⟩ false))] ++ steps 0 7 ++
  steps 1 1 ++ [.step 1 (some (.conflict ⟨[], (threePatches.drop 1).take 1, none⟩))] ++ steps 1 3 ++
  steps 2 2 ++ [.step 2 (some (.patches ⟨[], threePatches.drop 1, none⟩ false))] ++ steps 2 13 ++ steps 1 4

end Hypermeow.Client.AppStateSync
