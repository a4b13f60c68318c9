/-
`appStateSyncLock` keeps the runs of `fetchAppState` apart.

Without conflict answers and recoveries only runs of `fetchAppState` write a collection, and these hold the lock from
before they read the stored version until after their last write. The invariant: at most one run is past the lock, and
what it has read is what is stored (`Phase.View`).

Results:
- `fetches_undisturbed`: in every interleaving of such runs every step is `Undisturbed`, whatever the server answers and
  whether or not store calls fail.
- `fetches_agree`: with an honest server the tables follow its collection.
-/
import Hypermeow.Client.AppStateWriters

namespace Hypermeow.Client.AppStateSync

open Lib AppState List Option

variable {E : Env} {s : Sys} {ph : Phase} {w w' : World} {l : Bool} {reply : Option Reply}

/-- no recovery is started and no conflict is answered -/
def FetchOnly : Action → Prop
  | .start (.handleAppStateRecovery _) => False
  | .step _ (some (.conflict _)) => False
  | _ => True

/-! ## The holder of the lock -/

/-- where `fetchAppState` holds the lock -/
def Phase.holds : Phase → Bool
  | .resetting _ | .fetching _ _ | .requesting _ _ | .decoding _ | .looking _ _ _ | .storing _ _ => true
  | _ => false

/-- the run does not write without the lock -/
def Phase.Fetches : Phase → Prop
  | .decoding d | .looking d _ _ | .storing d _ => d.caller ≠ .send
  | .recovering _ | .processing _ _ | .replacing _ => False
  | _ => True

/-- what a run past the lock has read is what is stored -/
def Phase.View (db : AppStateDB) : Phase → Prop
  | .requesting state _ => db.state = state
  | .decoding d => db.state = d.state
  | .looking d patch prev => db.state = d.state ∧
      prev = (replaced db.getAppStateMutationMAC patch.assignments).take prev.length
  | .storing d x => x.Stores db ∧ x.state = d.state ∧ (x.begun = false → x.basis.Valid db)
  | _ => True

theorem view_of_not_holds {db : AppStateDB} (h : ph.holds = false) : ph.View db := by
  cases ph with
  | requesting state wantSnapshot => cases h
  | decoding d => cases h
  | looking d patch prev => cases h
  | storing d x => cases h
  | _ => exact trivial

structure Held (s : Sys) : Prop where
  fetches : ∀ ph ∈ s.runs, ph.Fetches
  view : ∀ ph ∈ s.runs, ph.View s.world.db
  locked : ∀ ph ∈ s.runs, ph.holds = true → s.locked = true
  alone : ∀ (i j : ℕ) (ph ph' : Phase), s.runs[i]? = some ph → s.runs[j]? = some ph' → ph.holds = true →
    ph'.holds = true → i = j

theorem init_held (w : World) : Held (init w) where
  fetches ph h := absurd h not_mem_nil
  view ph h := absurd h not_mem_nil
  locked ph h := absurd h not_mem_nil
  alone i j ph ph' h := by cases h

/-! ## One step of a run -/

/-- what a step of a run does, with the lock and without -/
structure Moves (w : World) (l : Bool) (ph : Phase) (r : World × Bool × Phase) : Prop where
  fetches : r.2.2.Fetches
  view : r.2.2.View r.1.db
  locked : r.2.2.holds = true → r.2.1 = true
  enters : r.2.2.holds = true → ph.holds = true ∨ l = false
  outside : ph.holds = false → r.1.db = w.db ∧ (l = true → r.2.1 = true)

/-- a step past the lock -/
theorem moves_holding {l' : Bool} {ph' : Phase} (h : ph.holds = true) (hk : ph'.Fetches) (hv : ph'.View w'.db)
    (hl : ph'.holds = true → l' = true) : Moves w l ph (w', l', ph') where
  fetches := hk
  view := hv
  locked := hl
  enters _ := .inl h
  outside hno := absurd (hno.symm.trans h) Bool.false_ne_true

/-- a step that does not take the lock -/
theorem moves_outside {ph' : Phase} (hk : ph'.Fetches) (hno : ph'.holds = false) : Moves w l ph (w, l, ph') where
  fetches := hk
  view := view_of_not_holds hno
  locked h := absurd (hno.symm.trans h) Bool.false_ne_true
  enters h := absurd (hno.symm.trans h) Bool.false_ne_true
  outside _ := ⟨rfl, id⟩

/-- a run past the lock ends -/
theorem moves_done {l' : Bool} (h : ph.holds = true) : Moves w l ph (w', l', .done) :=
  moves_holding h trivial trivial fun hno => (by cases hno)

theorem state_of_getAppStateVersion {db : AppStateDB} {state : HashState} (h : db.getAppStateVersion = some state) :
    db.state = state := by
  rw [AppStateDB.getAppStateVersion] at h
  rw [AppStateDB.state]
  cases hrow : db.versionRow with
  | none =>
    rw [hrow] at h
    exact some.inj h
  | some st =>
    simp only [hrow] at h
    split_ifs at h
    exact some.inj h

variable {d : Decoding}

theorem decoding_moves (hk : d.caller ≠ .send) (hv : w.db.state = d.state) (hl : l = true) :
    Moves w l (.decoding d) (advance E reply w l (.decoding d)) := by
  cases hss : d.list.snapshot with
  | some ss =>
    simp only [advance, hss]
    rcases hprep : prepareSnapshot E d.list.name ss d.state true d.mutations w with ⟨⟨st, out⟩ | e | _, w₁⟩
    · have hdb : w₁.db = w.db := (prepareSnapshot_keeps d.list.name ss d.state true d.mutations).run hprep
      refine moves_holding rfl hk ⟨⟨fun _ => ⟨out, rfl⟩, fun hb => ?_⟩, rfl, fun _ => ?_⟩ fun _ => hl
      · cases hb
      · exact (congrArg AppStateDB.state hdb).trans hv
    · exact moves_done rfl
    · exact moves_done rfl
  | none =>
    cases hps : d.list.patches with
    | cons patch patches =>
      simp only [advance, hss, hps]
      exact moves_holding rfl hk ⟨hv, rfl⟩ fun _ => hl
    | nil =>
      cases hc : d.caller with
      | fetch hasMore =>
        simp only [advance, hss, hps, hc]
        cases hasMore with
        | false => exact moves_done rfl
        | true => exact moves_holding rfl trivial hv fun _ => hl
      | send => exact absurd hc hk

/-- the next previous value is the one that the mutation replaces in the tables -/
theorem looked_up {patch : SyncdPatch} {prev : List (Option Bytes)} {mutation : SyncdMutation} {r : Option Bytes}
    (hprev : prev = (replaced w.db.getAppStateMutationMAC patch.assignments).take prev.length)
    (hm : patch.mutations[prev.length]? = some mutation)
    (hlook : prevSetValueMAC noFault patch mutation.record.index prev.length w = (.ok r, w')) :
    prev ++ [r] = (replaced w.db.getAppStateMutationMAC patch.assignments).take (prev ++ [r]).length := by
  have hr := (prevSetValueMAC_answers patch w.db _ _ _ _ _ rfl hlook).1
  have hget : (replaced w.db.getAppStateMutationMAC patch.assignments)[prev.length]? = some r := by
    rw [getElem?_replaced, SyncdPatch.assignments, getElem?_map, hm, hr, ← map_take]
    rfl
  rw [length_append, length_singleton, take_add_one, ← hprev, hget]
  rfl

theorem looking_moves {patch : SyncdPatch} {prev : List (Option Bytes)} (hk : d.caller ≠ .send)
    (hv : (Phase.looking d patch prev).View w.db) (hl : l = true) :
    Moves w l (.looking d patch prev) (advance E reply w l (.looking d patch prev)) := by
  obtain ⟨hstate, hprev⟩ := hv
  cases hm : patch.mutations[prev.length]? with
  | some mutation =>
    simp only [advance, hm]
    rcases hlook : prevSetValueMAC noFault patch mutation.record.index prev.length w with ⟨r | e | _, w₁⟩
    · have hdb : w₁.db = w.db := (prevSetValueMAC_keeps patch mutation.record.index prev.length).run hlook
      refine moves_holding rfl hk ⟨?_, ?_⟩ fun _ => hl
      · rw [hdb]
        exact hstate
      · rw [hdb]
        exact looked_up hprev hm hlook
    · exact moves_done rfl
    · exact moves_done rfl
  | none =>
    simp only [advance, hm]
    rcases hprep : preparePatchWith E (answered prev) d.list.name patch d.state true d.mutations w with
      ⟨⟨st, out⟩ | e | _, w₁⟩
    · have hdb : w₁.db = w.db :=
        (preparePatchWith_keeps (answered_keeps prev) d.list.name patch d.state true d.mutations).run hprep
      -- every mutation was looked up
      have hall : prev = replaced w.db.getAppStateMutationMAC patch.assignments := by
        refine hprev.trans (take_of_length_le ?_)
        rw [length_replaced, SyncdPatch.assignments, length_map]
        exact List.getElem?_eq_none_iff.1 hm
      refine moves_holding rfl hk ⟨⟨fun _ => ⟨out, rfl⟩, fun hb => ?_⟩, rfl, fun _ => ?_⟩ fun _ => hl
      · cases hb
      · rw [hdb]
        exact ⟨hstate, hall⟩
    · exact moves_done rfl
    · exact moves_done rfl

theorem storing_moves {x : Writing} (hk : d.caller ≠ .send) (hv : (Phase.storing d x).View w.db)
    (hl : l = true) : Moves w l (.storing d x) (advance E reply w l (.storing d x)) := by
  obtain ⟨hstores, hstate, -⟩ := hv
  simp only [advance]
  rcases hnext : x.next w.db with _ | ⟨db, _ | y⟩
  · exact moves_done rfl
  · exact moves_holding rfl hk ((hstores.next hnext).1.trans hstate) fun _ => hl
  · obtain ⟨hdb, hy⟩ := hstores.next hnext
    obtain ⟨hyb, hys, hmacs⟩ := hy y rfl
    refine moves_holding rfl hk ⟨⟨fun hb => ?_, fun _ => ⟨hdb.trans hys.symm, hmacs⟩⟩, hys.trans hstate, fun hb => ?_⟩
      fun _ => hl
    · rw [hyb] at hb
      cases hb
    · rw [hyb] at hb
      cases hb

theorem advance_moves (hk : ph.Fetches) (hv : ph.View w.db) (hl : ph.holds = true → l = true)
    (hreply : ∀ list, reply ≠ some (.conflict list)) : Moves w l ph (advance E reply w l ph) := by
  cases ph with
  | locking fullSync onlyIfNotSynced =>
    simp only [advance]
    cases l with
    | true => exact moves_outside trivial rfl
    | false =>
      have hfree : ∀ ph' : Phase, ph'.Fetches → ph'.View w.db →
          Moves w false (.locking fullSync onlyIfNotSynced) (w, true, ph') := fun ph' hk' hv' =>
        ⟨hk', hv', fun _ => rfl, fun _ => .inr rfl, fun _ => ⟨rfl, fun _ => rfl⟩⟩
      cases fullSync with
      | true => exact hfree _ trivial trivial
      | false => exact hfree _ trivial trivial
  | resetting onlyIfNotSynced => exact moves_holding rfl trivial trivial fun _ => hl rfl
  | fetching fullSync onlyIfNotSynced =>
    simp only [advance]
    cases hget : w.db.getAppStateVersion with
    | none => exact moves_done rfl
    | some state =>
      simp only
      split_ifs
      · exact moves_done rfl
      · exact moves_holding rfl trivial (state_of_getAppStateVersion hget) fun _ => hl rfl
  | requesting state wantSnapshot =>
    rcases reply with _ | ⟨list, hasMore⟩ | _ | list
    · exact moves_done rfl
    · simp only [advance]
      split_ifs
      · exact moves_done rfl
      · exact moves_done rfl
      · refine moves_holding rfl (fun hc => ?_) hv fun _ => hl rfl
        cases hc
    · exact moves_done rfl
    · exact moves_done rfl
  | sending allowRetry =>
    simp only [advance]
    cases w.db.getAppStateVersion with
    | none => exact moves_outside trivial rfl
    | some state => exact moves_outside trivial rfl
  | uploading state allowRetry =>
    rcases reply with _ | ⟨list, hasMore⟩ | _ | list
    · exact moves_outside trivial rfl
    · exact moves_outside trivial rfl
    · exact moves_outside trivial rfl
    · exact absurd rfl (hreply list)
  | decoding d => exact decoding_moves hk hv (hl rfl)
  | looking d patch prev => exact looking_moves hk hv (hl rfl)
  | storing d x => exact storing_moves hk hv (hl rfl)
  | recovering recovery => exact hk.elim
  | processing recovery v => exact hk.elim
  | replacing x => exact hk.elim
  | done => exact moves_outside trivial rfl

/-! ## Every step -/

theorem holds_of_mid (hk : ph.Fetches) (h : ph.mid = true) : ph.holds = true := by
  cases ph with
  | storing d x => rfl
  | replacing x => exact hk.elim
  | _ => cases h

theorem Held.moves {i : ℕ} (hh : Held s) (hi : s.runs[i]? = some ph)
    (hm : Moves s.world s.locked ph (advance E reply s.world s.locked ph)) : Held (step E s (.step i reply)) := by
  simp only [step, hi]
  set r := advance E reply s.world s.locked ph
  have hmem := mem_of_getElem? hi
  -- the others do not hold the lock when this run does, before or after the step
  have hothers : ∀ (j : ℕ) (q : Phase), j ≠ i → s.runs[j]? = some q → q.holds = true →
      ph.holds = false ∧ s.locked = true := by
    intro j q hne hj hq
    refine ⟨?_, hh.locked q (mem_of_getElem? hj) hq⟩
    by_contra hph
    exact hne (hh.alone j i q ph hj hi hq (Bool.not_eq_false _ ▸ hph))
  constructor
  · intro q hq
    rcases mem_or_eq_of_mem_set hq with hq | rfl
    · exact hh.fetches q hq
    · exact hm.fetches
  · intro q hq
    obtain ⟨j, hj⟩ := mem_iff_getElem?.1 hq
    rcases getElem?_set_cases hj with ⟨-, rfl⟩ | ⟨hne, hj⟩
    · exact hm.view
    · cases hq' : q.holds with
      | false => exact view_of_not_holds hq'
      | true =>
        rw [(hm.outside (hothers j q hne hj hq').1).1]
        exact hh.view q (mem_of_getElem? hj)
  · intro q hq hq'
    obtain ⟨j, hj⟩ := mem_iff_getElem?.1 hq
    rcases getElem?_set_cases hj with ⟨-, rfl⟩ | ⟨hne, hj⟩
    · exact hm.locked hq'
    · obtain ⟨hph, hlocked⟩ := hothers j q hne hj hq'
      exact (hm.outside hph).2 hlocked
  · have hleft : ∀ (j : ℕ) (q : Phase), j ≠ i → s.runs[j]? = some q → q.holds = true → r.2.2.holds = false := by
      intro j q hne hj hq
      obtain ⟨hph, hlocked⟩ := hothers j q hne hj hq
      by_contra hr
      rcases hm.enters (Bool.not_eq_false _ ▸ hr) with h | h
      · rw [hph] at h
        cases h
      · rw [hlocked] at h
        cases h
    intro j k q q' hj hk hq hq'
    rcases getElem?_set_cases hj with ⟨hji, rfl⟩ | ⟨hjne, hold⟩
    · rcases getElem?_set_cases hk with ⟨hki, -⟩ | ⟨hkne, hold'⟩
      · rw [hji, hki]
      · rw [hleft k q' hkne hold' hq'] at hq
        cases hq
    · rcases getElem?_set_cases hk with ⟨-, rfl⟩ | ⟨hkne, hold'⟩
      · rw [hleft j q hjne hold hq] at hq'
        cases hq'
      · exact hh.alone j k q q' hold hold' hq hq'

/-- while a run past the lock is not at its store calls, none is -/
theorem Held.quiet {i : ℕ} (hh : Held s) (hi : s.runs[i]? = some ph) (hph : ph.holds = true) (hmid : ph.mid = false) :
    s.Quiet := by
  intro q hq
  by_contra hne
  have hm : q.mid = true := Bool.not_eq_false _ ▸ hne
  obtain ⟨j, hj⟩ := mem_iff_getElem?.1 hq
  obtain rfl := hh.alone j i q ph hj hi (holds_of_mid (hh.fetches q hq) hm) hph
  rw [hi] at hj
  cases hj
  rw [hmid] at hm
  cases hm

theorem Held.undisturbed {a : Action} (hh : Held s) : Undisturbed s a := by
  cases a with
  | start call => exact trivial
  | rekey keyCache syncKeys => exact trivial
  | step i reply =>
    intro ph hi
    refine ⟨fun hres => ?_, fun x hx hb => ?_⟩
    · cases ph with
      | resetting onlyIfNotSynced => exact hh.quiet hi rfl rfl
      | _ => cases hres
    · cases ph with
      | storing d y =>
        cases hx
        exact ⟨hh.quiet hi rfl hb, (hh.view _ (mem_of_getElem? hi)).2.2 hb⟩
      | replacing y => exact (hh.fetches _ (mem_of_getElem? hi)).elim
      | _ => cases hx

theorem Held.start {call : Call} (hh : Held s) (hc : FetchOnly (.start call)) : Held (step E s (.start call)) := by
  have hk : call.phase.Fetches := by
    cases call with
    | handleAppStateRecovery recovery => exact hc.elim
    | _ => exact trivial
  have hno : call.phase.holds = false := by cases call <;> rfl
  have hold : ∀ (j : ℕ) (q : Phase), (s.runs ++ [call.phase])[j]? = some q → q.holds = true → s.runs[j]? = some q := by
    intro j q hj hq
    refine getElem?_of_concat hj ?_
    rintro rfl
    rw [hno] at hq
    cases hq
  constructor
  · intro q hq
    rcases mem_append.1 hq with hq | hq
    · exact hh.fetches q hq
    · rw [mem_singleton.1 hq]
      exact hk
  · intro q hq
    rcases mem_append.1 hq with hq | hq
    · exact hh.view q hq
    · rw [mem_singleton.1 hq]
      exact view_of_not_holds hno
  · intro q hq hq'
    obtain ⟨j, hj⟩ := mem_iff_getElem?.1 hq
    exact hh.locked q (mem_of_getElem? (hold j q hj hq')) hq'
  · intro j k q q' hj hk hq hq'
    exact hh.alone j k q q' (hold j q hj hq) (hold k q' hk hq') hq hq'

theorem step_held {a : Action} (ha : FetchOnly a) (hh : Held s) : Held (step E s a) := by
  cases a with
  | start call => exact hh.start ha
  | rekey keyCache syncKeys => exact ⟨hh.fetches, hh.view, hh.locked, hh.alone⟩
  | step i reply =>
    cases hi : s.runs[i]? with
    | none =>
      simp only [step, hi]
      exact hh
    | some ph =>
      have hmem := mem_of_getElem? hi
      have hreply : ∀ list, reply ≠ some (.conflict list) := by
        rintro list rfl
        exact ha
      exact hh.moves hi (advance_moves (hh.fetches ph hmem) (hh.view ph hmem) (hh.locked ph hmem) hreply)

/-- **The lock suffices.** Without recoveries and conflict answers every step of every interleaving is undisturbed,
whatever the server answers and whichever store calls fail. -/
theorem fetches_undisturbed (E : Env) (w : World) (as : List Action)
    (h : Along (step E) (fun _ a => FetchOnly a) (init w) as) : Along (step E) Undisturbed (init w) as := by
  refine along_of_get fun n a _ => Held.undisturbed ?_
  exact run_inv_take (I := Held) (fun s a ha hh => step_held ha hh) (init_held w) h n

/-- **Fetches agree with the server.** Without recoveries and conflict answers, in every interleaving with an honest server
and no failing store call: whenever no run is at its store calls, the tables are a replica of the server's collection at the
stored version, and that version never decreases unless a full sync resets it. -/
theorem fetches_agree (E : Env) (server : Server) (w : World) (hw : Replica E server w.db) (as : List Action)
    (hfetch : Along (step E) (fun _ a => FetchOnly a) (init w) as) (hhonest : Along (step E) (Honest E server) (init w) as)
    (hstore : Along (step E) StoreSucceeds (init w) as) (n : ℕ) :
    let s := fun m => run (step E) (init w) (as.take m)
    ((s n).Quiet → Replica E server (s n).world.db) ∧
      ∀ m ≤ n, (∀ j, m ≤ j → j < n → ∀ a ∈ as[j]?, ¬Resets (s j) a) →
        (s m).world.db.state.version ≤ (s n).world.db.state.version := by
  intro s
  have hal := (hhonest.and hstore).and (fetches_undisturbed E w as hfetch)
  have hinv : ∀ m, Inv E server (s m) := fun m =>
    run_inv_take (I := Inv E server) (fun s a hok hi => (step_keeps hok hi).1) (init_inv hw) hal m
  have hnone : ∀ m, (s m).NoRecovery := by
    intro m ph hph
    have hheld : Held (s m) := run_inv_take (I := Held) (fun s a ha hh => step_held ha hh) (init_held w) hfetch m
    cases ph with
    | replacing x => exact (hheld.fetches _ hph).elim
    | _ => rfl
  refine ⟨(hinv n).quiet, fun m hmn hreset => ?_⟩
  have hstart : Reached (s m).world.db.state.version (s m) :=
    ⟨fun ph hph hrec => absurd ((hnone m ph hph).symm.trans hrec) Bool.false_ne_true, fun _ => le_refl _⟩
  have hend : Reached (s m).world.db.state.version (s n) := run_between hmn hstart fun j a hj hjn ha hr =>
    (step_keeps (hal.get ha) (hinv j)).2 (hreset j hj hjn a ha) _ hr
  exact hend.stored (hnone n)

/-- two fetches, the second of which waits for the lock -/
theorem fetches_agree_waiting :
    let as := [.start (.fetchAppState false false), .start (.fetchAppState false false)] ++ steps 0 2 ++ steps 1 1 ++
      [.step 0 (some (.patches ⟨[], threePatches.take 1, none⟩ false))] ++ steps 0 7 ++ steps 1 2 ++
      [.step 1 (some (.patches ⟨[], threePatches.drop 1, none⟩ false))] ++ steps 1 13
    let s := run (step coveringEnv) (init freshWorld) (as.take 29)
    s.world.db.state.version = 3 ∧ Replica coveringEnv threeServer s.world.db := by
  intro as s
  have hfetch : ∀ a ∈ as, FetchOnly a := by simp [as, steps, FetchOnly]
  refine ⟨by decide +kernel, (fetches_agree coveringEnv threeServer freshWorld (replica_empty _ _) as
    (along_of_get fun _ a ha => hfetch a (mem_of_getElem? ha)) (by decide +kernel) (by decide +kernel) 29).1 ?_⟩
  decide +kernel

end Hypermeow.Client.AppStateSync
