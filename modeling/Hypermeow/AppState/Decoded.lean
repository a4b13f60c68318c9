/-
What a snapshot or patch that was prepared without an error says: the assignments of its mutations, what they replace,
and what will be stored.

A mutation assigns its index: a SET assigns the last 32 bytes of the value blob, a REMOVE takes the value away
(`assignment`). Preparing leaves the tables alone (`preparePatch_keeps`). The hash changes by the values the assignments
replace and put (`updateHash_ok`); for a patch the replaced values are those of carrying the assignments out one after
the other on the live rows (`prevs_patch`). The removed and added MACs together are the assignments
(`decodeMutations_pending`).
-/
import Hypermeow.AppState.Processor
import Hypermeow.Lib.KeyedSum

namespace Hypermeow.AppState

open Lib Util Go List Slice

variable {E : Env} {F : Faults} {w w' : World}

/-! ## Preparing leaves the tables alone -/

/-- the call does not touch the tables -/
abbrev KeepsDB {α : Type} (x : Proc α) : Prop := Go.Keeps World.db x

theorem getAppStateKey_keeps (keyID : Bytes) : KeepsDB (getAppStateKey E keyID) := by
  refine .bind .get fun w => ?_
  split
  · exact .pure _
  · split
    · exact .throw _
    · exact .throw _
    · exact .bind (.modify fun _ => rfl) fun _ => .pure _

theorem valueMACOf_keeps (value : Bytes) : KeepsDB (valueMACOf value) := since_keeps _ _

theorem valueMACs_keeps (ms : List SyncdMutation) : KeepsDB (valueMACs ms) := by
  induction ms with
  | nil => exact .pure _
  | cons m ms ih => exact .bind (valueMACOf_keeps _) fun _ => .bind ih fun _ => .pure _

theorem add_keeps (d : HashDelta) (m : SyncdMutation) : KeepsDB (d.add m) := by
  rw [HashDelta.add]
  split
  · exact .bind (valueMACOf_keeps _) fun _ => .pure _
  · exact .pure _

variable {getPrev : Bytes → ℕ → Proc (Option Bytes)}

theorem updateHashLoop_keeps (hp : ∀ k i, KeepsDB (getPrev k i))
    (ms : List SyncdMutation) (i : ℕ) (d : HashDelta) : KeepsDB (updateHashLoop getPrev i ms d) := by
  induction ms generalizing i d with
  | nil => exact .pure _
  | cons m ms ih =>
    refine .bind (add_keeps _ _) fun d => .bind (hp _ _).mapErr fun removal => ?_
    cases removal <;> exact ih _ _

theorem updateHash_keeps (hp : ∀ k i, KeepsDB (getPrev k i))
    (hs : HashState) (ms : List SyncdMutation) : KeepsDB (updateHash E hs ms getPrev) :=
  .bind (updateHashLoop_keeps hp _ _ _) fun _ => .pure _

theorem validateSnapshotMAC_keeps (name : Bytes) (st : HashState) (keyID mac : Bytes) :
    KeepsDB (validateSnapshotMAC E name st keyID mac) :=
  .bind (getAppStateKey_keeps _).mapErr fun _ => .ite (.throw _) (.pure _)

theorem decodeMutation_keeps (m : SyncdMutation) (i : ℕ) (validateMACs : Bool) :
    KeepsDB (decodeMutation E m i validateMACs) := by
  refine .bind (getAppStateKey_keeps _).mapErr fun _ => .bind (upTo_keeps _ _) fun _ =>
    .bind (valueMACOf_keeps _) fun _ => .ite (.throw _) (.bind (upTo_keeps _ _) fun _ =>
      .bind (since_keeps _ _) fun _ => .bind (decrypt_keeps _ _ _ _).mapErr fun _ => ?_)
  split
  · exact .throw _
  · refine .ite (.throw _) ?_
    split
    · exact .throw _
    · exact .pure _

theorem decodeMutationsLoop_keeps (validateMACs : Bool) (v : ℕ) (fake : List (Bytes × Bytes)) (ms : List SyncdMutation)
    (i : ℕ) (out : PatchOutput) : KeepsDB (decodeMutationsLoop E validateMACs v fake i ms out) := by
  induction ms generalizing i out with
  | nil => exact .pure _
  | cons m ms ih => exact .bind (decodeMutation_keeps _ _ _) fun _ => ih _ _

theorem searchPatch_keeps (ms : List SyncdMutation) (k : Bytes) (i : ℕ) : KeepsDB (searchPatch ms k i) := by
  induction i with
  | zero => exact .pure _
  | succ i ih =>
    rw [searchPatch]
    split
    · exact .crash
    · refine .ite ?_ ih
      split
      · exact .bind (valueMACOf_keeps _) fun _ => .pure _
      · exact .pure _

theorem prevSetValueMAC_keeps (patch : SyncdPatch) (k : Bytes) (i : ℕ) : KeepsDB (prevSetValueMAC F patch k i) := by
  refine .bind (searchPatch_keeps _ _ _) fun found => ?_
  cases found with
  | none => exact .ite (.throw _) (.bind .get fun _ => .pure _)
  | some prev => exact .pure _

/-- `validatePatch`, with the lookups of previous values as a parameter -/
def validatePatchWith (E : Env) (getPrev : Bytes → ℕ → Proc (Option Bytes)) (name : Bytes) (patch : SyncdPatch)
    (currentState : HashState) (validateMACs : Bool) : Proc HashState := do
  let (newState, _) ← wrap .updateStateHash
    (updateHash E { currentState with version := patch.version } patch.mutations getPrev)
  if validateMACs then do
    let keys ← validateSnapshotMAC E name newState (patch.keyID.getD []) patch.snapshotMAC
    let patchMAC ← generatePatchMAC E patch name keys.patchMAC patch.version
    if patchMAC ≠ patch.patchMAC then Go.throw (.wrap (.verifyPatch patch.version) .mismatchingPatchMAC)
    else pure newState
  else pure newState

/-- `preparePatch`, with the lookups of previous values as a parameter -/
def preparePatchWith (E : Env) (getPrev : Bytes → ℕ → Proc (Option Bytes)) (name : Bytes) (patch : SyncdPatch)
    (currentState : HashState) (validateMACs : Bool) (newMutations : List Mutation) :
    Proc (HashState × PatchOutput) := do
  let newState ← validatePatchWith E getPrev name patch currentState validateMACs
  let out ← decodeMutations E patch.mutations ⟨[], [], newMutations⟩ validateMACs newState.version []
  pure (newState, out)

theorem preparePatch_eq (name : Bytes) (patch : SyncdPatch) (st : HashState) (validateMACs : Bool)
    (muts : List Mutation) :
    preparePatch E F name patch st validateMACs muts =
      preparePatchWith E (prevSetValueMAC F patch) name patch st validateMACs muts := rfl

theorem preparePatchWith_keeps (hp : ∀ k i, KeepsDB (getPrev k i))
    (name : Bytes) (patch : SyncdPatch) (st : HashState) (validateMACs : Bool) (muts : List Mutation) :
    KeepsDB (preparePatchWith E getPrev name patch st validateMACs muts) := by
  refine .bind (.bind (updateHash_keeps hp _ _).mapErr fun _ => .ite ?_ (.pure _)) fun _ =>
    .bind (decodeMutationsLoop_keeps _ _ _ _ _ _) fun _ => .pure _
  exact .bind (validateSnapshotMAC_keeps _ _ _ _) fun _ => .bind (.bind (valueMACs_keeps _) fun _ => .pure _) fun _ =>
    .ite (.throw _) (.pure _)

theorem preparePatch_keeps (name : Bytes) (patch : SyncdPatch) (st : HashState) (validateMACs : Bool)
    (muts : List Mutation) : KeepsDB (preparePatch E F name patch st validateMACs muts) :=
  preparePatchWith_keeps (prevSetValueMAC_keeps patch) name patch st validateMACs muts

theorem prepareSnapshot_keeps (name : Bytes) (ss : SyncdSnapshot) (st : HashState) (validateMACs : Bool)
    (muts : List Mutation) : KeepsDB (prepareSnapshot E name ss st validateMACs muts) :=
  .bind (updateHash_keeps (fun _ _ => .pure _) _ _).mapErr fun _ =>
    .bind (.ite (.bind (validateSnapshotMAC_keeps _ _ _ _).mapErr fun _ => .pure _) (.pure _)) fun _ =>
      .bind (decodeMutationsLoop_keeps _ _ _ _ _ _).mapErr fun _ => .pure _

/-! ## Assignments -/

/-- the last 32 bytes of a value blob -/
def macTail (value : Bytes) : Bytes := value.drop (value.length - 32)

/-- what a mutation does to the value MAC of its index -/
def SyncdMutation.assignment (m : SyncdMutation) : Bytes × Option Bytes :=
  (m.record.index, match m.operation with
    | .SET => some (macTail m.record.value)
    | .REMOVE => none)

theorem valueMACOf_ok {value r : Bytes} (h : valueMACOf value w = (.ok r, w')) : r = macTail value ∧ w' = w := by
  obtain ⟨hr, hw⟩ := since_eq_ok h
  refine ⟨hr.trans ?_, hw⟩
  rw [macTail]
  congr 1
  omega

theorem valueMACOf_run {value : Bytes} (h : 32 ≤ value.length) (w : World) :
    valueMACOf value w = (.ok (macTail value), w) := by
  have hcast : (value.length : ℤ) - 32 = ((value.length - 32 : ℕ) : ℤ) := by omega
  rw [valueMACOf, hcast, since_run (Nat.sub_le _ _), macTail]

variable {ms : List SyncdMutation}

/-- the value MACs that the patch MAC covers -/
theorem valueMACs_run (hlen : ∀ m ∈ ms, 32 ≤ m.record.value.length) (w : World) :
    valueMACs ms w = (.ok (ms.map fun m => macTail m.record.value), w) := by
  induction ms with
  | nil => rfl
  | cons m ms ih =>
    rw [valueMACs, bind_ok (valueMACOf_run (hlen m mem_cons_self) w),
      bind_ok (ih fun m' hm' => hlen m' (mem_cons_of_mem _ hm'))]
    rfl

variable {m : SyncdMutation}

theorem add_ok {d d' : HashDelta} (h : d.add m w = (.ok d', w')) :
    d' = { d with added := d.added ++ m.assignment.2.toList } ∧ w' = w := by
  cases hop : m.operation with
  | SET =>
    simp only [HashDelta.add, hop] at h
    obtain ⟨v, u, hv, hd⟩ := bind_eq_ok.1 h
    obtain ⟨rfl, rfl⟩ := valueMACOf_ok hv
    cases hd
    simp [SyncdMutation.assignment, hop]
  | REMOVE =>
    simp only [HashDelta.add, hop] at h
    cases h
    simp [SyncdMutation.assignment, hop]

/-! ## The hash -/

/-- the previous values that `prev` gives for the mutations from number `i` on -/
def prevs (prev : Bytes → ℕ → Option Bytes) : ℕ → List SyncdMutation → List (Option Bytes)
  | _, [] => []
  | i, m :: ms => prev m.record.index i :: prevs prev (i + 1) ms

/-- `getPrev` answers what `prev` says, as long as the tables are `db` -/
def Answers (db : AppStateDB) (getPrev : Bytes → ℕ → Proc (Option Bytes)) (prev : Bytes → ℕ → Option Bytes) : Prop :=
  ∀ k i w w' r, w.db = db → getPrev k i w = (.ok r, w') → r = prev k i ∧ w'.db = db

variable {i : ℕ} {w w' : World}

theorem updateHashLoop_ok {db : AppStateDB}
    {prev : Bytes → ℕ → Option Bytes} (hp : Answers db getPrev prev) {d d' : HashDelta} (hdb : w.db = db) (h : updateHashLoop getPrev i ms d w = (.ok d', w')) :
    d'.added = d.added ++ (ms.map fun m => m.assignment.2).filterMap id ∧
      d'.removed = d.removed ++ (prevs prev i ms).filterMap id := by
  induction ms generalizing i d w with
  | nil => cases h; simp [prevs]
  | cons m ms ih =>
    obtain ⟨d₁, w₁, hadd, h₁⟩ := bind_eq_ok.1 h
    obtain ⟨rfl, rfl⟩ := add_ok hadd
    obtain ⟨removal, w₂, hrem, h₂⟩ := bind_eq_ok.1 h₁
    obtain ⟨hval, hdb₂⟩ := hp _ _ _ _ _ hdb (mapErr_eq_ok.1 hrem)
    -- a set value is the singleton of the added list, a previous value that of the removed list
    have hset : (m :: ms).map (fun m => m.assignment.2) = m.assignment.2 :: ms.map fun m => m.assignment.2 := rfl
    have hprev : prevs prev i (m :: ms) = removal :: prevs prev (i + 1) ms := by rw [hval]; rfl
    have hcons : ∀ (o : Option Bytes) (l : List (Option Bytes)), (o :: l).filterMap id = o.toList ++ l.filterMap id := by
      rintro (_ | _) l <;> rfl
    rw [hset, hprev, hcons, hcons]
    cases removal with
    | none =>
      have hno : ∀ d : HashDelta, (d.noRemoval m).added = d.added ∧ (d.noRemoval m).removed = d.removed := by
        intro d; rw [HashDelta.noRemoval]; split <;> exact ⟨rfl, rfl⟩
      obtain ⟨ha, hr⟩ := ih hdb₂ h₂
      rw [ha, hr, (hno _).1, (hno _).2]
      simp
    | some removal =>
      obtain ⟨ha, hr⟩ := ih hdb₂ h₂
      rw [ha, hr]
      simp

/-- how much a value MAC counts -/
def Env.lanes (E : Env) (valueMAC : Bytes) : Fin 64 → ZMod 65536 := AppState.lanes (E.patchIntegrity valueMAC)

/-- the hash changes by the previous values and the assigned values -/
theorem updateHash_ok {db : AppStateDB} {prev : Bytes → ℕ → Option Bytes}
    (hp : Answers db getPrev prev) {hs hs' : HashState} {warn : List Bytes} (hdb : w.db = db)
    (h : updateHash E hs ms getPrev w = (.ok (hs', warn), w')) :
    hs'.version = hs.version ∧
      lanes hs'.hash = lanes hs.hash - ((prevs prev 0 ms).map (weight E.lanes)).sum +
        ((ms.map SyncdMutation.assignment).map fun o => weight E.lanes o.2).sum := by
  obtain ⟨d, w₁, hloop, h⟩ := bind_eq_ok.1 h
  obtain ⟨ha, hr⟩ := updateHashLoop_ok hp hdb hloop
  cases h
  refine ⟨rfl, ?_⟩
  have hmap : ∀ l : List Bytes, (l.map fun item => lanes (E.patchIntegrity item)) = l.map E.lanes := fun _ => rfl
  simp only [lanes_subtractThenAdd, ha, hr, nil_append, hmap, sum_map_filterMap_id, map_map]
  rfl

/-! ## Previous values in a patch -/

theorem searchPatch_ok {k : Bytes} {r : Option (Option Bytes)} (h : searchPatch ms k i w = (.ok r, w')) :
    r = (((ms.take i).map SyncdMutation.assignment).reverse.find? fun o => o.1 = k).map Prod.snd ∧ w' = w := by
  induction i with
  | zero => cases h; exact ⟨rfl, rfl⟩
  | succ i ih =>
    rw [searchPatch] at h
    cases hm : ms[i]? with
    | none => rw [hm] at h; cases h
    | some m =>
      have htake : ms.take (i + 1) = ms.take i ++ [m] := by rw [take_add_one, hm]; rfl
      rw [htake, map_append, map_singleton, reverse_append, reverse_singleton,
        singleton_append, find?_cons]
      rw [hm] at h
      simp only at h
      have hkey : m.assignment.1 = m.record.index := rfl
      rw [hkey]
      split_ifs at h with hk
      · simp only [hk, decide_true, Option.map_some]
        cases hop : m.operation with
        | SET =>
          simp only [hop] at h
          obtain ⟨v, u, hv, hr⟩ := bind_eq_ok.1 h
          obtain ⟨rfl, rfl⟩ := valueMACOf_ok hv
          cases hr
          simp [SyncdMutation.assignment, hop]
        | REMOVE =>
          simp only [hop] at h
          cases h
          simp [SyncdMutation.assignment, hop]
      · simp only [hk, decide_false]
        exact ih h

/-- the previous value of mutation `i`: the mutations before it carried out on the live rows -/
theorem prevSetValueMAC_answers (patch : SyncdPatch) (db : AppStateDB) :
    Answers db (prevSetValueMAC F patch) fun k i =>
      assign db.getAppStateMutationMAC ((patch.mutations.take i).map SyncdMutation.assignment) k := by
  intro k i w w' r hdb h
  have hkeep := (prevSetValueMAC_keeps patch k i).run h
  refine ⟨?_, hkeep.trans hdb⟩
  obtain ⟨found, w₁, hs, h₁⟩ := bind_eq_ok.1 h
  obtain ⟨hf, rfl⟩ := searchPatch_ok hs
  simp only [assign_eq_find, ← hf]
  cases found with
  | some prev => cases h₁; rfl
  | none =>
    simp only [getAppStateMutationMAC] at h₁
    split_ifs at h₁
    · cases h₁
    · cases h₁; rw [hdb]; rfl

/-- so a patch replaces what its assignments replace when they are carried out one after the other -/
theorem prevs_patch (f : Bytes → Option Bytes) (pre rest : List SyncdMutation) :
    prevs (fun k i => assign f (((pre ++ rest).take i).map SyncdMutation.assignment) k) pre.length rest =
      replaced (assign f (pre.map SyncdMutation.assignment)) (rest.map SyncdMutation.assignment) := by
  induction rest generalizing pre with
  | nil => rfl
  | cons m rest ih =>
    have hmid : pre ++ m :: rest = (pre ++ [m]) ++ rest := by simp
    have hlen : pre.length + 1 = (pre ++ [m]).length := by simp
    rw [prevs, map_cons, replaced_assign_cons, take_left, hmid, hlen, ih, map_append]
    rfl

/-! ## Removed and added MACs -/

/-- the value MAC of an index after `out` is stored: the last one added, none if removed, else as before -/
def PatchOutput.pending (out : PatchOutput) (f : Bytes → Option Bytes) (k : Bytes) : Option Bytes :=
  ((out.addedMACs.reverse.find? fun mac => mac.indexMAC = k).map fun mac => some mac.valueMAC).getD
    (if k ∈ out.removedMACs then none else f k)

theorem pending_addMAC (out : PatchOutput) (f : Bytes → Option Bytes) (k v : Bytes) :
    (out.addMAC k v).pending f = Function.update (out.pending f) k (some v) := by
  funext j
  rw [PatchOutput.pending, PatchOutput.addMAC, reverse_append, reverse_singleton, singleton_append,
    find?_cons]
  by_cases hj : k = j
  · subst hj; simp
  · simp [hj, Function.update_of_ne (Ne.symm hj), PatchOutput.pending]

theorem pending_removeMAC (out : PatchOutput) (f : Bytes → Option Bytes) (k : Bytes) :
    (out.removeMAC k).pending f = Function.update (out.pending f) k none := by
  funext j
  have hfind : (out.removeMAC k).addedMACs.reverse.find? (fun mac => mac.indexMAC = j) =
      if j = k then none else out.addedMACs.reverse.find? fun mac => mac.indexMAC = j := by
    rw [PatchOutput.removeMAC, ← filter_reverse, find?_filter]
    split_ifs with hj
    · exact find?_eq_none.2 fun mac _ => by simp [hj]
    · congr 1
      funext mac
      by_cases hm : mac.indexMAC = j
      · simp [hm, hj]
      · simp [hm]
  rw [PatchOutput.pending, hfind]
  by_cases hj : j = k
  · subst hj
    simp [PatchOutput.removeMAC]
  · simp [hj, PatchOutput.pending, PatchOutput.removeMAC]

variable {validateMACs : Bool}

theorem decodeMutation_ok {d : DecodedMutation} (h : decodeMutation E m i validateMACs w = (.ok d, w')) :
    d.indexMAC = m.record.index ∧ d.valueMAC = macTail m.record.value := by
  obtain ⟨keys, w₁, -, h₁⟩ := bind_eq_ok.1 h
  obtain ⟨content, w₂, -, h₂⟩ := bind_eq_ok.1 h₁
  obtain ⟨mac, w₃, hmac, h₃⟩ := bind_eq_ok.1 h₂
  obtain ⟨rfl, rfl⟩ := valueMACOf_ok hmac
  simp only at h₃
  split_ifs at h₃
  · cases h₃
  · obtain ⟨iv, w₄, -, h₄⟩ := bind_eq_ok.1 h₃
    obtain ⟨body, w₅, -, h₅⟩ := bind_eq_ok.1 h₄
    obtain ⟨plaintext, w₆, -, h₆⟩ := bind_eq_ok.1 h₅
    cases hact : E.unmarshalSyncActionData plaintext with
    | none => simp only [hact] at h₆; cases h₆
    | some syncAction =>
      simp only [hact] at h₆
      split_ifs at h₆
      · cases h₆
      · cases hidx : E.unmarshalIndex syncAction.index with
        | none => simp only [hidx] at h₆; cases h₆
        | some index => simp only [hidx] at h₆; cases h₆; exact ⟨rfl, rfl⟩

/-- recording a decoded mutation is its assignment -/
theorem pending_record (out : PatchOutput) (f : Bytes → Option Bytes) {d : DecodedMutation} (v : ℕ)
    (hd : d.indexMAC = m.record.index ∧ d.valueMAC = macTail m.record.value) :
    (out.record [] m d v).pending f = Function.update (out.pending f) m.assignment.1 m.assignment.2 := by
  obtain ⟨hi, hv⟩ := hd
  rw [SyncdMutation.assignment]
  cases hop : m.operation with
  | SET =>
    have : (out.record [] m d v).pending f = (out.addMAC d.indexMAC d.valueMAC).pending f := by
      simp only [PatchOutput.record, hop]; rfl
    rw [this, pending_addMAC, hi, hv]
  | REMOVE =>
    have : (out.record [] m d v).pending f = (out.removeMAC d.indexMAC).pending f := by
      simp only [PatchOutput.record, hop]; rfl
    rw [this, pending_removeMAC, hi]

theorem decodeMutations_pending {v : ℕ} {out out' : PatchOutput} (h : decodeMutationsLoop E validateMACs v [] i ms out w = (.ok out', w')) (f : Bytes → Option Bytes) :
    out'.pending f = assign (out.pending f) (ms.map SyncdMutation.assignment) := by
  induction ms generalizing i out w with
  | nil => cases h; rfl
  | cons m ms ih =>
    obtain ⟨d, w₁, hd, h₁⟩ := bind_eq_ok.1 h
    rw [ih h₁, pending_record out f v (decodeMutation_ok hd), map_cons, assign_cons]

/-- mutations that are all SETs only add MACs -/
theorem decodeMutations_sets (hset : ∀ m ∈ ms, m.operation = .SET) {v : ℕ} {out out' : PatchOutput}
    (h : decodeMutationsLoop E validateMACs v [] i ms out w = (.ok out', w')) :
    out'.addedMACs = out.addedMACs ++ ms.map (fun m => ⟨m.record.index, macTail m.record.value⟩) ∧
      out'.removedMACs = out.removedMACs := by
  induction ms generalizing i out w with
  | nil => cases h; simp
  | cons m ms ih =>
    obtain ⟨d, w₁, hd, h₁⟩ := bind_eq_ok.1 h
    obtain ⟨hi, hv⟩ := decodeMutation_ok hd
    obtain ⟨ha, hr⟩ := ih (fun m' hm' => hset m' (mem_cons_of_mem _ hm')) h₁
    have hop := hset m mem_cons_self
    rw [ha, hr]
    simp [PatchOutput.record, hop, PatchOutput.addMAC, hi, hv]

end Hypermeow.AppState
