/-
Which keys the client asks for when an app state key is missing (`GetMissingKeyIDs` of `appstate/keys.go`).

`DecodePatches` looks keys up for the MAC of a snapshot, for each of its records, for the MACs of a patch and for each of
its mutations. When one is not in the key store it fails with `ErrKeyNotFound`, and the client requests what
`GetMissingKeyIDs` returns for the same list. That walks the snapshot, its records and the patches; it does not look at
the mutations of a patch, and it skips an absent key ID, which `DecodePatches` looks up as the empty one.

Results:
- `mem_getMissingKeyIDs`, `nodup_getMissingKeyIDs`: the IDs it walks over that are not in the store, each once.
- `decodePatches_raises`: a key that `DecodePatches` did not find is absent from the store.
- `mutation_key_not_requested`: a key that only a mutation of a patch names is never requested.
-/
import Hypermeow.AppState.Integrity

namespace Hypermeow.AppState

open Lib Util List Option

variable {E : Env} {F : Faults} {w : World}

/-! ## Model -/

/-- the cache of `GetMissingKeyIDs` and what it found -/
structure MissingKeys where
  /-- key IDs already looked up, and whether they were missing -/
  cache : List (Bytes × Bool)
  missingKeys : List Bytes
deriving DecidableEq, Repr

/-- a lookup that fails counts as not missing -/
def checkMissing (syncKeys : Bytes → Option (Option Bytes)) (s : MissingKeys) : Option Bytes → MissingKeys
  | none => s
  | some keyID =>
    if keyID ∈ s.cache.map Prod.fst then s
    else
      let missing := syncKeys keyID == some none
      { cache := (keyID, missing) :: s.cache
        missingKeys := if missing then s.missingKeys ++ [keyID] else s.missingKeys }

/-- the key IDs of a snapshot and its records -/
def SyncdSnapshot.keyIDs (ss : SyncdSnapshot) : List (Option Bytes) := ss.keyID :: ss.records.map (·.keyID)

/-- the key IDs that `GetMissingKeyIDs` walks over, in its order -/
def PatchList.keyIDs (pl : PatchList) : List (Option Bytes) :=
  (match pl.snapshot with
    | some ss => ss.keyIDs
    | none => []) ++ pl.patches.map (·.keyID)

def getMissingKeyIDs (syncKeys : Bytes → Option (Option Bytes)) (pl : PatchList) : List Bytes :=
  (pl.keyIDs.foldl (checkMissing syncKeys) ⟨[], []⟩).missingKeys

/-- `errors.Is(err, ErrKeyNotFound)` -/
def AppStateError.isKeyNotFound : AppStateError → Bool
  | .keyNotFound => true
  | .wrap _ e => e.isKeyNotFound
  | _ => false

/-- the key ID a lookup was for -/
def Context.keyID? : Context → Option Bytes
  | .getKeyToDecode keyID => some keyID
  | .getKeyToVerify keyID _ => some keyID
  | .getKeyToEncode keyID => some keyID
  | _ => none

/-- the key ID in the message of an `ErrKeyNotFound` -/
def AppStateError.keyNotFoundFor : AppStateError → Option Bytes
  | .wrap c .keyNotFound => c.keyID?
  | .wrap _ e => e.keyNotFoundFor
  | _ => none

/-! ## What is requested -/

section Requested

variable {syncKeys : Bytes → Option (Option Bytes)}

/-- what is known after the IDs `seen` -/
structure MissingKeys.Found (syncKeys : Bytes → Option (Option Bytes)) (seen : List (Option Bytes))
    (s : MissingKeys) : Prop where
  cached : ∀ k, k ∈ s.cache.map Prod.fst ↔ some k ∈ seen
  missing : ∀ k, k ∈ s.missingKeys ↔ some k ∈ seen ∧ syncKeys k = some none
  nodup : s.missingKeys.Nodup

theorem MissingKeys.Found.check {seen : List (Option Bytes)} {s : MissingKeys} (h : s.Found syncKeys seen)
    (keyID : Option Bytes) : (checkMissing syncKeys s keyID).Found syncKeys (seen ++ [keyID]) := by
  cases keyID with
  | none =>
    have hmem : ∀ k : Bytes, some k ∈ seen ++ [none] ↔ some k ∈ seen := by simp
    exact ⟨fun k => (h.cached k).trans (hmem k).symm, fun k => (h.missing k).trans (by rw [hmem]), h.nodup⟩
  | some keyID =>
    rw [checkMissing]
    split_ifs with hc
    · -- the ID was there before, so nothing changes
      have hmem : ∀ k, some k ∈ seen ++ [some keyID] ↔ some k ∈ seen := by
        intro k
        rw [mem_append, mem_singleton]
        exact ⟨fun hk => hk.elim id fun heq => heq ▸ (h.cached keyID).1 hc, .inl⟩
      exact ⟨fun k => (h.cached k).trans (hmem k).symm, fun k => (h.missing k).trans (by rw [hmem]), h.nodup⟩
    · have hfresh : keyID ∉ s.missingKeys := fun hk => hc ((h.cached keyID).2 ((h.missing keyID).1 hk).1)
      refine ⟨fun k => ?_, fun k => ?_, ?_⟩
      · rw [map_cons, mem_cons, h.cached, mem_append, mem_singleton, some.injEq, or_comm]
      · rw [mem_append, mem_singleton, some.injEq, or_and_right, ← h.missing]
        by_cases hm : syncKeys keyID = some none
        · simp only [hm, beq_self_eq_true, if_true, mem_append, mem_singleton]
          exact or_congr_right ⟨fun hk => ⟨hk, hk ▸ hm⟩, fun hk => hk.1⟩
        · have hb : (syncKeys keyID == some none) = false := by simpa using hm
          simp only [hb]
          exact ⟨.inl, fun hk => hk.elim id fun h' => absurd (h'.1 ▸ h'.2) hm⟩
      · by_cases hm : syncKeys keyID = some none
        · simp only [hm, beq_self_eq_true, if_true]
          exact nodup_append.2 ⟨h.nodup, nodup_singleton _, fun a ha b hb => by
            rintro rfl; exact hfresh (mem_singleton.1 hb ▸ ha)⟩
        · have hb : (syncKeys keyID == some none) = false := by simpa using hm
          simp only [hb]
          exact h.nodup

theorem foldl_checkMissing_found (ids seen : List (Option Bytes)) {s : MissingKeys} (h : s.Found syncKeys seen) :
    (ids.foldl (checkMissing syncKeys) s).Found syncKeys (seen ++ ids) := by
  induction ids generalizing seen s with
  | nil => simpa using h
  | cons id ids ih => simpa using ih (seen ++ [id]) (h.check id)

theorem getMissingKeyIDs_found (syncKeys : Bytes → Option (Option Bytes)) (pl : PatchList) :
    (pl.keyIDs.foldl (checkMissing syncKeys) ⟨[], []⟩).Found syncKeys pl.keyIDs :=
  foldl_checkMissing_found pl.keyIDs [] ⟨by simp, by simp, nodup_nil⟩

theorem mem_getMissingKeyIDs {pl : PatchList} {k : Bytes} :
    k ∈ getMissingKeyIDs syncKeys pl ↔ some k ∈ pl.keyIDs ∧ syncKeys k = some none :=
  (getMissingKeyIDs_found syncKeys pl).missing k

theorem nodup_getMissingKeyIDs (pl : PatchList) : (getMissingKeyIDs syncKeys pl).Nodup :=
  (getMissingKeyIDs_found syncKeys pl).nodup

end Requested

/-! ## What is not found -/

/-- an `ErrKeyNotFound` names a key that the store does not have -/
def NamesAbsentKey (syncKeys : Bytes → Option (Option Bytes)) (e : AppStateError) : Prop :=
  e.isKeyNotFound = true → ∃ k, e.keyNotFoundFor = some k ∧ syncKeys k = some none

section Raises

variable {syncKeys : Bytes → Option (Option Bytes)}

/-- the call leaves the key store alone, and a missing key that it reports is absent from the store -/
abbrev RaisesAbsent {α : Type} (syncKeys : Bytes → Option (Option Bytes)) (x : Proc α) : Prop :=
  Go.Raises (fun w => w.syncKeys = syncKeys) x (NamesAbsentKey syncKeys)

/-- an error that is no `ErrKeyNotFound` -/
theorem namesAbsentKey_of_other {e : AppStateError} (h : e.isKeyNotFound = false) : NamesAbsentKey syncKeys e := by
  intro hk
  rw [h] at hk
  cases hk

/-- wrapping keeps the key that is named -/
theorem NamesAbsentKey.wrap {e : AppStateError} (h : NamesAbsentKey syncKeys e) (c : Context) :
    NamesAbsentKey syncKeys (.wrap c e) := by
  intro hk
  obtain ⟨k, hfor, habs⟩ := h hk
  refine ⟨k, ?_, habs⟩
  cases e with
  | keyNotFound => cases hfor
  | wrap c' e' => exact hfor
  | _ => cases hfor

theorem raisesAbsent_wrap {α : Type} {x : Proc α} (h : RaisesAbsent syncKeys x) (c : Context) :
    RaisesAbsent syncKeys (AppState.wrap c x) :=
  h.mapErr fun _ he => he.wrap c

/-- the lookup of a key, wrapped with the key ID -/
theorem getAppStateKey_raises (keyID : Bytes) {c : Context} (hc : c.keyID? = some keyID) :
    RaisesAbsent syncKeys (wrap c (getAppStateKey E keyID)) := by
  have hlook : Go.Raises (fun w => w.syncKeys = syncKeys) (getAppStateKey E keyID)
      fun e => e = .keyStore ∨ e = .keyNotFound ∧ syncKeys keyID = some none := by
    intro w hw
    rw [getAppStateKey, Go.get_bind]
    cases w.keyCache.lookup keyID with
    | some keys => exact ⟨hw, fun _ he => by cases he⟩
    | none =>
      simp only
      rcases hk : w.syncKeys keyID with _ | _ | keyData
      · exact ⟨hw, fun e he => by cases he; exact .inl rfl⟩
      · exact ⟨hw, fun e he => by cases he; exact .inr ⟨rfl, hw ▸ hk⟩⟩
      · exact ⟨hw, fun e he => by cases he⟩
  refine hlook.mapErr fun e he => ?_
  rcases he with rfl | ⟨rfl, habs⟩
  · exact namesAbsentKey_of_other rfl
  · exact fun _ => ⟨keyID, hc, habs⟩

theorem valueMACOf_raises (value : Bytes) : RaisesAbsent syncKeys (valueMACOf value) :=
  .ite (.pure _) .crash

theorem decodeMutation_raises (m : SyncdMutation) (i : ℕ) (validateMACs : Bool) :
    RaisesAbsent syncKeys (decodeMutation E m i validateMACs) := by
  refine .bind (getAppStateKey_raises _ rfl) fun keys => .bind (.ite (.pure _) .crash) fun content =>
    .bind (valueMACOf_raises _) fun valueMAC => .ite (.throw (namesAbsentKey_of_other rfl)) ?_
  refine .bind (.ite (.pure _) .crash) fun iv => .bind (.ite (.pure _) .crash) fun content => ?_
  refine .bind ?_ fun plaintext => ?_
  · refine Go.Raises.mapErr (Q := fun _ => True) ?_ fun e _ => namesAbsentKey_of_other rfl
    exact fun w hw => ⟨((decrypt_keeps _ _ _ _).run rfl).trans hw, fun _ _ => trivial⟩
  · split
    · exact .throw (namesAbsentKey_of_other rfl)
    · refine .ite (.throw (namesAbsentKey_of_other rfl)) ?_
      split
      · exact .throw (namesAbsentKey_of_other rfl)
      · exact .pure _

theorem decodeMutationsLoop_raises (validateMACs : Bool) (v : ℕ) (fake : List (Bytes × Bytes))
    (ms : List SyncdMutation) (i : ℕ) (out : PatchOutput) :
    RaisesAbsent syncKeys (decodeMutationsLoop E validateMACs v fake i ms out) := by
  induction ms generalizing i out with
  | nil => exact .pure _
  | cons m ms ih => exact .bind (decodeMutation_raises _ _ _) fun _ => ih _ _

theorem updateHash_raises {getPrev : Bytes → ℕ → Proc (Option Bytes)}
    (hp : ∀ k i, RaisesAbsent syncKeys (getPrev k i)) (hs : HashState) (ms : List SyncdMutation) :
    RaisesAbsent syncKeys (updateHash E hs ms getPrev) := by
  have hadd : ∀ (d : HashDelta) (m : SyncdMutation), RaisesAbsent syncKeys (d.add m) := by
    intro d m
    rw [HashDelta.add]
    split
    · exact .bind (valueMACOf_raises _) fun _ => .pure _
    · exact .pure _
  have hloop : ∀ (i : ℕ) (d : HashDelta), RaisesAbsent syncKeys (updateHashLoop getPrev i ms d) := by
    induction ms with
    | nil => exact fun _ _ => .pure _
    | cons m ms ih =>
      intro i d
      refine .bind (hadd _ _) fun d => .bind (raisesAbsent_wrap (hp _ _) _) fun removal => ?_
      cases removal <;> exact ih _ _
  exact .bind (hloop _ _) fun _ => .pure _

theorem searchPatch_raises (ms : List SyncdMutation) (k : Bytes) (i : ℕ) :
    RaisesAbsent syncKeys (searchPatch ms k i) := by
  induction i with
  | zero => exact .pure _
  | succ i ih =>
    rw [searchPatch]
    split
    · exact .crash
    · refine .ite ?_ ih
      split
      · exact .bind (valueMACOf_raises _) fun _ => .pure _
      · exact .pure _

theorem prevSetValueMAC_raises (patch : SyncdPatch) (k : Bytes) (i : ℕ) :
    RaisesAbsent syncKeys (prevSetValueMAC F patch k i) := by
  refine .bind (searchPatch_raises _ _ _) fun found => ?_
  cases found with
  | none => exact .ite (.throw (namesAbsentKey_of_other rfl)) (.bind .get fun _ => .pure _)
  | some prev => exact .pure _

theorem validateSnapshotMAC_raises (name : Bytes) (st : HashState) (keyID mac : Bytes) :
    RaisesAbsent syncKeys (validateSnapshotMAC E name st keyID mac) :=
  .bind (getAppStateKey_raises _ rfl) fun _ => .ite (.throw (namesAbsentKey_of_other rfl)) (.pure _)

theorem valueMACs_raises (ms : List SyncdMutation) : RaisesAbsent syncKeys (valueMACs ms) := by
  induction ms with
  | nil => exact .pure _
  | cons m ms ih => exact .bind (valueMACOf_raises _) fun _ => .bind ih fun _ => .pure _

theorem preparePatch_raises (name : Bytes) (patch : SyncdPatch) (st : HashState) (validateMACs : Bool)
    (muts : List Mutation) : RaisesAbsent syncKeys (preparePatch E F name patch st validateMACs muts) := by
  refine .bind (.bind (raisesAbsent_wrap (updateHash_raises (prevSetValueMAC_raises patch) _ _) _) fun r => .ite ?_ (.pure _))
    fun st' => .bind (decodeMutationsLoop_raises _ _ _ _ _ _) fun _ => .pure _
  exact .bind (validateSnapshotMAC_raises _ _ _ _) fun _ => .bind (.bind (valueMACs_raises _) fun _ => .pure _)
    fun _ => .ite (.throw (namesAbsentKey_of_other rfl)) (.pure _)

theorem prepareSnapshot_raises (name : Bytes) (ss : SyncdSnapshot) (st : HashState) (validateMACs : Bool)
    (muts : List Mutation) : RaisesAbsent syncKeys (prepareSnapshot E name ss st validateMACs muts) := by
  refine .bind (raisesAbsent_wrap (updateHash_raises (fun _ _ => .pure _) _ _) _) fun r => .bind ?_ fun _ =>
    .bind (raisesAbsent_wrap (decodeMutationsLoop_raises _ _ _ _ _ _) _) fun _ => .pure _
  exact .ite (.bind (raisesAbsent_wrap (validateSnapshotMAC_raises _ _ _ _) _) fun _ => .pure _) (.pure _)

theorem storePrepared_raises (p : HashState × PatchOutput) : RaisesAbsent syncKeys (storePrepared F p) := by
  intro w hw
  rcases storePrepared_run (F := F) p w with ⟨-, h⟩ | ⟨-, -, -, h⟩ | ⟨-, -, -, -, h⟩ | ⟨-, -, -, db, -, h⟩ <;>
    rw [h] <;> refine ⟨hw, fun e he => ?_⟩ <;> cases he <;> exact namesAbsentKey_of_other rfl

theorem decodePatchLoop_raises (faults : ℕ → Faults) (name : Bytes) (validateMACs : Bool) (patches : List SyncdPatch)
    (n : ℕ) (r : HashState × List Mutation) :
    RaisesAbsent syncKeys (decodePatchLoop E faults name validateMACs n patches r) := by
  induction patches generalizing n r with
  | nil => exact .pure _
  | cons patch patches ih =>
    exact .bind (.bind (preparePatch_raises _ _ _ _ _) fun _ => storePrepared_raises _) fun _ => ih _ _

/-- a key that is reported missing is absent from the store -/
theorem decodePatches_raises (faults : ℕ → Faults) (list : PatchList) (st : HashState) (validateMACs : Bool) :
    RaisesAbsent syncKeys (decodePatches E faults list st validateMACs) := by
  refine .bind ?_ fun _ => decodePatchLoop_raises _ _ _ _ _ _
  rw [decodeStart]
  split
  · exact .pure _
  · exact .bind (prepareSnapshot_raises _ _ _ _ _) fun _ => storePrepared_raises _

end Raises

/-! ## Results -/

/-- **A missing key is requested exactly if the list names it outside of the mutations.** `GetMissingKeyIDs` returns each
key once and only keys that are absent from the store. If `DecodePatches` did not find a key, its ID is among them
exactly when it is the key ID of the snapshot, of one of the records or of a patch. -/
theorem missing_key_requested_iff (E : Env) (faults : ℕ → Faults) (list : PatchList) (st : HashState)
    (validateMACs : Bool) (w : World) :
    (getMissingKeyIDs w.syncKeys list).Nodup ∧ (∀ k ∈ getMissingKeyIDs w.syncKeys list, w.syncKeys k = some none) ∧
      ∀ e w', decodePatches E faults list st validateMACs w = (.err e, w') → e.isKeyNotFound = true →
        ∃ k, e.keyNotFoundFor = some k ∧ (k ∈ getMissingKeyIDs w.syncKeys list ↔ some k ∈ list.keyIDs) := by
  refine ⟨nodup_getMissingKeyIDs list, fun k hk => (mem_getMissingKeyIDs.1 hk).2, fun e w' h he => ?_⟩
  have hraise := (decodePatches_raises (E := E) faults list st validateMACs w rfl).2 e (by rw [h])
  obtain ⟨k, hfor, habs⟩ := hraise he
  exact ⟨k, hfor, by rw [mem_getMissingKeyIDs, and_iff_left habs]⟩

/-- only the empty key ID is known -/
def oneKeyWorld : World := { freshWorld with syncKeys := fun keyID => some (if keyID = [] then some [] else none) }

/-- a patch with the key `patchKey` that sets one index, with the key `recordKey` -/
def patchWithKeys (patchKey recordKey : Bytes) : PatchList :=
  ⟨[], [⟨1, [⟨.SET, ⟨List.replicate 32 7, List.replicate 64 0, some recordKey⟩⟩], List.replicate 32 0,
    List.replicate 32 0, some patchKey⟩], none⟩

theorem missing_key_requested_patch : [9] ∈ getMissingKeyIDs oneKeyWorld.syncKeys (patchWithKeys [9] []) := by
  have h := (missing_key_requested_iff plainEnv noFaults (patchWithKeys [9] []) .zero true oneKeyWorld).2.2
    (.wrap (.getKeyToVerify [9] 1) .keyNotFound) oneKeyWorld rfl rfl
  obtain ⟨k, hfor, hiff⟩ := h
  cases hfor
  exact hiff.2 (by decide)

/-- the key of a mutation is not found, and nothing is requested -/
theorem mutation_key_not_requested :
    (decodePatches plainEnv noFaults (patchWithKeys [] [9]) .zero true oneKeyWorld).1 =
      .err (.wrap (.getKeyToDecode [9]) .keyNotFound) ∧
    getMissingKeyIDs oneKeyWorld.syncKeys (patchWithKeys [] [9]) = [] := by
  constructor <;> rfl

end Hypermeow.AppState
