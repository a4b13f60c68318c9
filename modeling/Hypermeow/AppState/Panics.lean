/-
Which app state lists make `DecodePatches` panic.

A value blob ends in 32 bytes of MAC and starts with 16 bytes of initialisation vector. Four places cut it by its length
and none of them checks the length first: `updateHash` (a SET), the lookup of a previous value, `generatePatchMAC` (every
mutation) and `decodeMutation`.

`BlobsFit` says for every place that the call comes to that the blob is long enough for it. Where a place is only reached
after a lookup, a MAC check or a decoded mutation, the condition is only asked for after that:
- `HashFits`: the SETs up to the first previous value that cannot be looked up;
- `PatchFits.mac`: all mutations of a patch whose state MAC was verified;
- `MutationFits`: a mutation whose key is there; the vector only when the content MAC is right or is not asked for.

Results:
- `blobsFit_of_long`: blobs of 48 bytes always do.
- `short_value_panics`: a SET without a value is enough for a panic.
-/
import Hypermeow.AppState.Integrity

namespace Hypermeow.AppState

open Lib Util Go List Slice

variable {E : Env} {F : Faults} {w : World}

/-! ## The condition -/

/-- the value has a MAC at its end -/
def HasMAC (m : SyncdMutation) : Prop := 32 ≤ m.record.value.length

/-- the value has an initialisation vector before its MAC -/
def HasIV (m : SyncdMutation) : Prop := 48 ≤ m.record.value.length

/-- the SETs that the hash update comes to; a lookup that fails ends it -/
def HashFits (getPrev : Bytes → ℕ → Proc (Option Bytes)) : ℕ → List SyncdMutation → World → Prop
  | _, [], _ => True
  | i, m :: ms, w => (m.operation = .SET → HasMAC m) ∧
    ∀ prev w', getPrev m.record.index i w = (.ok prev, w') → HashFits getPrev (i + 1) ms w'

/-- the content MAC of the mutation is the one at the end of its value -/
def ContentVerified (E : Env) (m : SyncdMutation) (keys : ExpandedAppStateKeys) : Prop :=
  generateContentMAC E m.operation (m.record.value.take (m.record.value.length - 32)) (m.record.keyID.getD [])
    keys.valueMAC = macTail m.record.value

def MutationFits (E : Env) (validateMACs : Bool) (m : SyncdMutation) (w : World) : Prop :=
  ∀ keys w', getAppStateKey E (m.record.keyID.getD []) w = (.ok keys, w') →
    HasMAC m ∧ ((validateMACs = true → ContentVerified E m keys) → HasIV m)

/-- the mutations that are decoded; the first that fails ends it -/
def MutationsFit (E : Env) (validateMACs : Bool) : ℕ → List SyncdMutation → World → Prop
  | _, [], _ => True
  | i, m :: ms, w => MutationFits E validateMACs m w ∧
    ∀ d w', decodeMutation E m i validateMACs w = (.ok d, w') → MutationsFit E validateMACs (i + 1) ms w'

structure PatchFits (E : Env) (F : Faults) (name : Bytes) (patch : SyncdPatch) (st : HashState) (validateMACs : Bool)
    (w : World) : Prop where
  hash : HashFits (prevSetValueMAC F patch) 0 patch.mutations w
  /-- the patch MAC is computed once the state MAC is verified -/
  mac : validateMACs = true → ∀ r w₁ keys w₂,
    updateHash E { st with version := patch.version } patch.mutations (prevSetValueMAC F patch) w = (.ok r, w₁) →
    validateSnapshotMAC E name r.1 (patch.keyID.getD []) patch.snapshotMAC w₁ = (.ok keys, w₂) →
    ∀ m ∈ patch.mutations, HasMAC m
  mutations : ∀ st' w₁, validatePatch E F name patch st validateMACs w = (.ok st', w₁) →
    MutationsFit E validateMACs 0 patch.mutations w₁

/-- the records of a snapshot as mutations -/
def SyncdSnapshot.sets (ss : SyncdSnapshot) : List SyncdMutation := ss.records.map fun record => ⟨.SET, record⟩

structure SnapshotFits (E : Env) (name : Bytes) (ss : SyncdSnapshot) (st : HashState) (validateMACs : Bool)
    (w : World) : Prop where
  /-- there are no previous values to look up, so every record is reached -/
  hash : ∀ m ∈ ss.sets, HasMAC m
  mutations : ∀ r w₁ w₂,
    updateHash E { st with version := ss.version } ss.sets (fun _ _ => pure none) w = (.ok r, w₁) →
    verifySnapshot E name ss r.1 validateMACs w₁ = (.ok (), w₂) → MutationsFit E validateMACs 0 ss.sets w₂

def PatchesFit (E : Env) (faults : ℕ → Faults) (name : Bytes) (validateMACs : Bool) :
    ℕ → List SyncdPatch → HashState × List Mutation → World → Prop
  | _, [], _, _ => True
  | n, patch :: patches, r, w => PatchFits E (faults n) name patch r.1 validateMACs w ∧
    ∀ r' w', decodePatch E (faults n) name patch r.1 validateMACs r.2 w = (.ok r', w') →
      PatchesFit E faults name validateMACs (n + 1) patches r' w'

structure BlobsFit (E : Env) (faults : ℕ → Faults) (list : PatchList) (st : HashState) (validateMACs : Bool)
    (w : World) : Prop where
  snapshot : ∀ ss, list.snapshot = some ss → SnapshotFits E list.name ss st validateMACs w
  patches : ∀ r w', decodeStart E faults list st validateMACs w = (.ok r, w') →
    PatchesFit E faults list.name validateMACs 1 list.patches r w'

/-! ## Updating the hash -/

theorem noPanic_valueMACOf {value : Bytes} : Go.NoPanic (valueMACOf value) w ↔ 32 ≤ value.length := by
  rw [valueMACOf, noPanic_since]
  omega

variable {m : SyncdMutation}

theorem noPanic_add {d : HashDelta} : Go.NoPanic (d.add m) w ↔ (m.operation = .SET → HasMAC m) := by
  rw [HashDelta.add, HasMAC]
  cases hop : m.operation with
  | SET =>
    simp only [noPanic_bind, noPanic_valueMACOf, noPanic_pure, implies_true, and_true, forall_const]
  | REMOVE => simp

variable {ms : List SyncdMutation} {i : ℕ}

/-- a lookup among earlier mutations that were cut already -/
theorem noPanic_searchPatch {k : Bytes} (hi : i ≤ ms.length)
    (hcut : ∀ m ∈ ms.take i, m.operation = .SET → HasMAC m) : Go.NoPanic (searchPatch ms k i) w := by
  induction i with
  | zero => exact noPanic_pure _ _
  | succ i ih =>
    have hm : ms[i]? = some ms[i] := getElem?_eq_getElem hi
    have htake : ms.take (i + 1) = ms.take i ++ [ms[i]] := by rw [take_add_one, hm]; rfl
    rw [searchPatch, hm]
    simp only
    split_ifs
    · cases hop : ms[i].operation with
      | SET =>
        refine noPanic_bind.2 ⟨noPanic_valueMACOf.2 ?_, fun _ _ _ => noPanic_pure _ _⟩
        exact hcut _ (by rw [htake]; exact mem_append_right _ (mem_singleton_self _)) hop
      | REMOVE => exact noPanic_pure _ _
    · exact ih (by omega) fun m hmem => hcut m (by rw [htake]; exact mem_append_left _ hmem)

variable {patch : SyncdPatch}

theorem noPanic_prevSetValueMAC {k : Bytes} (hi : i ≤ patch.mutations.length)
    (hcut : ∀ m ∈ patch.mutations.take i, m.operation = .SET → HasMAC m) :
    Go.NoPanic (prevSetValueMAC F patch k i) w := by
  refine noPanic_bind.2 ⟨noPanic_searchPatch hi hcut, fun found w' _ => ?_⟩
  cases found with
  | some prev => exact noPanic_pure _ _
  | none =>
    simp only [getAppStateMutationMAC]
    split_ifs
    · exact noPanic_throw _ _
    · exact noPanic_bind.2 ⟨noPanic_get _, fun _ _ _ => noPanic_pure _ _⟩

variable {getPrev : Bytes → ℕ → Proc (Option Bytes)}

/-- the loop returns exactly when the SETs it comes to can be cut, if cutting those before it is enough for a lookup -/
theorem noPanic_updateHashLoop {all : List SyncdMutation}
    (hprev : ∀ k i w, i ≤ all.length → (∀ m ∈ all.take i, m.operation = .SET → HasMAC m) → Go.NoPanic (getPrev k i) w)
    (pre : List SyncdMutation) (hall : all = pre ++ ms) (hpre : ∀ m ∈ pre, m.operation = .SET → HasMAC m)
    (d : HashDelta) (w : World) :
    Go.NoPanic (updateHashLoop getPrev pre.length ms d) w ↔ HashFits getPrev pre.length ms w := by
  induction ms generalizing pre d w with
  | nil => exact iff_of_true (noPanic_pure _ _) trivial
  | cons m ms ih =>
    have hlen : (pre ++ [m]).length = pre.length + 1 := by simp
    have hlook : Go.NoPanic (getPrev m.record.index pre.length) w :=
      hprev _ _ _ (by simp [hall]) (by simpa [hall] using hpre)
    rw [updateHashLoop, noPanic_bind, noPanic_add, HashFits]
    refine and_congr_right fun hm => ?_
    have hnext := fun d' w' => ih (pre ++ [m]) (by simp [hall])
      (by simpa [or_imp, forall_and] using ⟨hpre, hm⟩) d' w'
    rw [hlen] at hnext
    constructor
    · intro h prev w' hgo
      obtain ⟨d', w₁, hadd⟩ : ∃ d' w₁, d.add m w = (.ok d', w₁) := by
        cases hop : m.operation with
        | SET => exact ⟨_, _, by simp only [HashDelta.add, hop]; exact bind_ok (valueMACOf_run (hm hop) w)⟩
        | REMOVE => exact ⟨d, w, by simp only [HashDelta.add, hop]; rfl⟩
      obtain ⟨-, rfl⟩ := add_ok hadd
      have hrest := (noPanic_bind_of_ok (mapErr_ok hgo)).1 (h d' w₁ hadd)
      cases prev with
      | some v => exact (hnext _ _).1 hrest
      | none => exact (hnext _ _).1 hrest
    · intro h d' w₁ hadd
      obtain ⟨-, rfl⟩ := add_ok hadd
      refine noPanic_bind.2 ⟨noPanic_mapErr.2 hlook, fun prev w' hgo => ?_⟩
      have hrest := h prev w' (mapErr_eq_ok.1 hgo)
      cases prev with
      | some v => exact (hnext _ _).2 hrest
      | none => exact (hnext _ _).2 hrest

theorem noPanic_updateHash (hs : HashState)
    (hprev : ∀ k i w, i ≤ ms.length → (∀ m ∈ ms.take i, m.operation = .SET → HasMAC m) → Go.NoPanic (getPrev k i) w) :
    Go.NoPanic (updateHash E hs ms getPrev) w ↔ HashFits getPrev 0 ms w := by
  rw [updateHash, noPanic_bind]
  have hloop := noPanic_updateHashLoop hprev [] rfl (by simp) ⟨[], [], []⟩ w
  exact ⟨fun h => hloop.1 h.1, fun h => ⟨hloop.2 h, fun _ _ _ => noPanic_pure _ _⟩⟩

/-- without lookups all SETs are reached -/
theorem hashFits_pure_none : HashFits (fun _ _ => pure none) i ms w ↔ ∀ m ∈ ms, m.operation = .SET → HasMAC m := by
  induction ms generalizing i w with
  | nil => simp [HashFits]
  | cons m ms ih =>
    rw [HashFits, forall_mem_cons]
    refine and_congr_right fun _ => ⟨fun h => ih.1 (h none w rfl), fun h prev w' heq => ?_⟩
    cases heq
    exact ih.2 h

/-! ## MACs and mutations -/

theorem noPanic_getAppStateKey (keyID : Bytes) : Go.NoPanic (getAppStateKey E keyID) w := by
  refine noPanic_bind.2 ⟨noPanic_get _, fun w₁ _ _ => ?_⟩
  simp only
  split
  · exact noPanic_pure _ _
  · split
    · exact noPanic_throw _ _
    · exact noPanic_throw _ _
    · exact noPanic_bind.2 ⟨noPanic_modify _ _, fun _ _ _ => noPanic_pure _ _⟩

theorem noPanic_validateSnapshotMAC (name : Bytes) (st : HashState) (keyID mac : Bytes) :
    Go.NoPanic (validateSnapshotMAC E name st keyID mac) w := by
  refine noPanic_bind.2 ⟨noPanic_mapErr.2 (noPanic_getAppStateKey _), fun keys _ _ => ?_⟩
  split_ifs
  · exact noPanic_throw _ _
  · exact noPanic_pure _ _

theorem noPanic_verifySnapshot (name : Bytes) (ss : SyncdSnapshot) (st : HashState) (validateMACs : Bool) :
    Go.NoPanic (verifySnapshot E name ss st validateMACs) w := by
  rw [verifySnapshot]
  split_ifs
  · exact noPanic_bind.2 ⟨noPanic_mapErr.2 (noPanic_validateSnapshotMAC _ _ _ _), fun _ _ _ => noPanic_pure _ _⟩
  · exact noPanic_pure _ _

theorem noPanic_valueMACs : Go.NoPanic (valueMACs ms) w ↔ ∀ m ∈ ms, HasMAC m := by
  induction ms generalizing w with
  | nil => simp [valueMACs]
  | cons m ms ih =>
    rw [valueMACs, noPanic_bind, noPanic_valueMACOf, forall_mem_cons]
    refine and_congr_right fun hm => ?_
    constructor
    · intro h
      exact ih.1 (noPanic_bind.1 (h _ _ (valueMACOf_run hm w))).1
    · intro h v w' hv
      exact noPanic_bind.2 ⟨ih.2 h, fun _ _ _ => noPanic_pure _ _⟩

/-- after the size checks the last byte is there and says how much of the rest to cut -/
theorem noPanic_unpad {σ : Type} {s : σ} {src : Bytes} (h : 0 < src.length) :
    Go.NoPanic (unpad src : Go σ CbcError Bytes) s := by
  rw [unpad, noPanic_bind_of_ok (index_run (show src.length - 1 < src.length by omega) s)]
  simp only
  split_ifs with hp
  · exact noPanic_throw _ _
  · exact noPanic_upTo.2 (by omega)

theorem noPanic_decrypt {σ : Type} {s : σ} (aes : Bytes → BlockCipher) (key : Bytes) {iv : Bytes}
    (hiv : iv.length = blockSize) (ciphertext : Bytes) :
    Go.NoPanic (decrypt aes key iv ciphertext : Go σ CbcError Bytes) s := by
  rw [decrypt]
  by_cases hk : key.length ∉ aesKeySizes
  · rw [if_pos hk]
    exact noPanic_throw _ _
  rw [if_neg hk]
  by_cases hc : ciphertext.length = 0 ∨ ciphertext.length % blockSize ≠ 0
  · rw [if_pos hc]
    exact noPanic_throw _ _
  · rw [if_neg hc, if_neg (not_ne_iff.2 hiv)]
    rw [not_or, not_ne_iff] at hc
    have hlen : ciphertext.length = ciphertext.length / blockSize * blockSize :=
      (Nat.div_mul_cancel (Nat.dvd_of_mod_eq_zero hc.2)).symm
    apply noPanic_unpad
    rw [length_cbcDecrypt hiv hlen, ← hlen]
    exact Nat.pos_of_ne_zero hc.1

variable {validateMACs : Bool}

/-- decoding a mutation whose key is there needs the MAC, and the vector when it gets past the content MAC -/
theorem noPanic_decodeMutation :
    Go.NoPanic (decodeMutation E m i validateMACs) w ↔ MutationFits E validateMACs m w := by
  rw [decodeMutation, noPanic_bind, MutationFits]
  simp only [wrap, noPanic_mapErr, noPanic_getAppStateKey, true_and, mapErr_eq_ok]
  refine forall_congr' fun keys => forall_congr' fun w₁ => imp_congr_right fun _ => ?_
  by_cases hmac : HasMAC m
  · have hlen : 32 ≤ m.record.value.length := hmac
    have hcast : (m.record.value.length : ℤ) - 32 = ((m.record.value.length - 32 : ℕ) : ℤ) := by omega
    rw [hcast, noPanic_bind_of_ok (upTo_run (Nat.sub_le _ _) w₁),
      noPanic_bind_of_ok (valueMACOf_run hlen w₁)]
    simp only [hmac, true_and]
    split_ifs with hv
    · exact iff_of_true (noPanic_throw _ _) fun h => absurd (h hv.1) hv.2
    · have hvec : (validateMACs = true → ContentVerified E m keys) := fun h => by_contra fun hc => hv ⟨h, hc⟩
      have hcontent : (m.record.value.take (m.record.value.length - 32)).length = m.record.value.length - 32 := by
        rw [length_take]; omega
      rw [noPanic_bind, noPanic_upTo, hcontent]
      constructor
      · intro h _
        rw [HasIV]
        have := h.1
        omega
      · intro h
        have h48 : 48 ≤ m.record.value.length := h hvec
        refine ⟨by omega, fun iv w₂ hup => ?_⟩
        have hiv : iv.length = blockSize := by
          rw [show ((16 : ℤ)) = ((16 : ℕ) : ℤ) from rfl, upTo_run (by omega)] at hup
          cases hup
          rw [length_take, hcontent, blockSize]
          omega
        refine noPanic_bind.2 ⟨noPanic_since.2 (by rw [hcontent]; omega), fun content w₃ _ => ?_⟩
        refine noPanic_bind.2 ⟨noPanic_mapErr.2 (noPanic_decrypt _ _ hiv _), fun plaintext w₄ _ => ?_⟩
        split
        · exact noPanic_throw _ _
        · split_ifs
          · exact noPanic_throw _ _
          · split
            · exact noPanic_throw _ _
            · exact noPanic_pure _ _
  · refine iff_of_false ?_ fun h => hmac h.1
    rw [noPanic_bind, noPanic_upTo]
    rw [HasMAC] at hmac
    omega

theorem noPanic_decodeMutationsLoop {v : ℕ} {fake : List (Bytes × Bytes)} {out : PatchOutput} :
    Go.NoPanic (decodeMutationsLoop E validateMACs v fake i ms out) w ↔ MutationsFit E validateMACs i ms w := by
  induction ms generalizing i out w with
  | nil => exact iff_of_true (noPanic_pure _ _) trivial
  | cons m ms ih =>
    rw [decodeMutationsLoop, noPanic_bind, noPanic_decodeMutation, MutationsFit]
    exact and_congr_right fun _ => forall_congr' fun d => forall_congr' fun w' => imp_congr_right fun _ => ih

/-! ## Snapshots and patches -/

variable {name : Bytes} {st : HashState}

theorem noPanic_validatePatch :
    Go.NoPanic (validatePatch E F name patch st validateMACs) w ↔
      HashFits (prevSetValueMAC F patch) 0 patch.mutations w ∧ (validateMACs = true → ∀ r w₁ keys w₂,
        updateHash E { st with version := patch.version } patch.mutations (prevSetValueMAC F patch) w = (.ok r, w₁) →
        validateSnapshotMAC E name r.1 (patch.keyID.getD []) patch.snapshotMAC w₁ = (.ok keys, w₂) →
        ∀ m ∈ patch.mutations, HasMAC m) := by
  have hprev : ∀ k i w', i ≤ patch.mutations.length →
      (∀ m ∈ patch.mutations.take i, m.operation = .SET → HasMAC m) → Go.NoPanic (prevSetValueMAC F patch k i) w' :=
    fun _ _ _ hi hcut => noPanic_prevSetValueMAC hi hcut
  have hhash := noPanic_updateHash (E := E) (w := w) { st with version := patch.version } hprev
  rw [validatePatch, noPanic_bind]
  simp only [wrap, noPanic_mapErr, mapErr_eq_ok, hhash]
  refine and_congr_right fun _ => ?_
  cases validateMACs with
  | false => simp
  | true =>
    simp only [if_true, forall_const]
    refine forall_congr' fun r => forall_congr' fun w₁ => ?_
    constructor
    · intro h keys w₂ hr hk
      have := (noPanic_bind_of_ok hk).1 (h hr)
      exact noPanic_valueMACs.1 (noPanic_bind.1 (noPanic_bind.1 this).1).1
    · intro h hr
      refine noPanic_bind.2 ⟨noPanic_validateSnapshotMAC _ _ _ _, fun keys w₂ hk => ?_⟩
      refine noPanic_bind.2 ⟨noPanic_bind.2 ⟨noPanic_valueMACs.2 (h keys w₂ hr hk), fun _ _ _ =>
        noPanic_pure _ _⟩, fun mac w₃ _ => ?_⟩
      split_ifs
      · exact noPanic_throw _ _
      · exact noPanic_pure _ _

variable {muts : List Mutation}

theorem noPanic_preparePatch :
    Go.NoPanic (preparePatch E F name patch st validateMACs muts) w ↔ PatchFits E F name patch st validateMACs w := by
  rw [preparePatch, noPanic_bind, noPanic_validatePatch]
  constructor
  · rintro ⟨⟨hhash, hmac⟩, hmuts⟩
    refine ⟨hhash, hmac, fun st' w₁ hv => ?_⟩
    exact noPanic_decodeMutationsLoop.1 (noPanic_bind.1 (hmuts st' w₁ hv)).1
  · intro h
    refine ⟨⟨h.hash, h.mac⟩, fun st' w₁ hv => ?_⟩
    exact noPanic_bind.2 ⟨noPanic_decodeMutationsLoop.2 (h.mutations st' w₁ hv), fun _ _ _ => noPanic_pure _ _⟩

theorem noPanic_prepareSnapshot {ss : SyncdSnapshot} :
    Go.NoPanic (prepareSnapshot E name ss st validateMACs muts) w ↔ SnapshotFits E name ss st validateMACs w := by
  have hsets : ∀ m ∈ ss.sets, m.operation = .SET := by simp [SyncdSnapshot.sets]
  have hhash : Go.NoPanic (updateHash E { st with version := ss.version } ss.sets fun _ _ => pure none) w ↔
      ∀ m ∈ ss.sets, m.operation = .SET → HasMAC m := by
    rw [noPanic_updateHash _ fun _ _ _ _ _ => noPanic_pure _ _, hashFits_pure_none]
  rw [prepareSnapshot, noPanic_bind]
  simp only [wrap, noPanic_mapErr, mapErr_eq_ok]
  constructor
  · rintro ⟨h, hmuts⟩
    refine ⟨fun m hm => hhash.1 h m hm (hsets m hm), fun r w₁ w₂ hr hver => ?_⟩
    have := (noPanic_bind_of_ok hver).1 (hmuts r w₁ hr)
    exact noPanic_decodeMutationsLoop.1 (noPanic_mapErr.1 (noPanic_bind.1 this).1)
  · intro h
    refine ⟨hhash.2 fun m hm _ => h.hash m hm, fun r w₁ hr => ?_⟩
    refine noPanic_bind.2 ⟨noPanic_verifySnapshot _ _ _ _, fun u w₂ hver => ?_⟩
    refine noPanic_bind.2 ⟨noPanic_mapErr.2 ?_, fun _ _ _ => noPanic_pure _ _⟩
    exact noPanic_decodeMutationsLoop.2 (h.mutations r w₁ w₂ hr hver)

theorem noPanic_storePrepared (p : HashState × PatchOutput) : Go.NoPanic (storePrepared F p) w := by
  rw [Go.NoPanic]
  rcases storePrepared_run (F := F) p w with ⟨-, h⟩ | ⟨-, -, -, h⟩ | ⟨-, -, -, -, h⟩ | ⟨-, -, -, db, -, h⟩ <;>
    simp [h]

theorem noPanic_decodePatch :
    Go.NoPanic (decodePatch E F name patch st validateMACs muts) w ↔ PatchFits E F name patch st validateMACs w := by
  rw [decodePatch, noPanic_bind, noPanic_preparePatch]
  exact and_iff_left fun _ _ _ => noPanic_storePrepared _

variable {faults : ℕ → Faults}

theorem noPanic_decodePatchLoop {n : ℕ} {patches : List SyncdPatch} {r : HashState × List Mutation} :
    Go.NoPanic (decodePatchLoop E faults name validateMACs n patches r) w ↔
      PatchesFit E faults name validateMACs n patches r w := by
  induction patches generalizing n r w with
  | nil => exact iff_of_true (noPanic_pure _ _) trivial
  | cons patch patches ih =>
    rw [decodePatchLoop, noPanic_bind, noPanic_decodePatch, PatchesFit]
    exact and_congr_right fun _ => forall_congr' fun r' => forall_congr' fun w' => imp_congr_right fun _ => ih

theorem noPanic_decodeStart {list : PatchList} :
    Go.NoPanic (decodeStart E faults list st validateMACs) w ↔
      ∀ ss, list.snapshot = some ss → SnapshotFits E list.name ss st validateMACs w := by
  rw [decodeStart]
  cases list.snapshot with
  | none => simp
  | some ss =>
    simp only [decodeSnapshot, noPanic_bind, noPanic_prepareSnapshot, noPanic_storePrepared, implies_true, and_true,
      Option.some.injEq, forall_eq']

/-! ## Results -/

/-- **`DecodePatches` panics exactly on a blob that is too short.** It returns, with a value or an error, if and only if
every value that it comes to is long enough for the cut made there. -/
theorem decodePatches_noPanic_iff (E : Env) (faults : ℕ → Faults) (list : PatchList) (st : HashState)
    (validateMACs : Bool) (w : World) :
    Go.NoPanic (decodePatches E faults list st validateMACs) w ↔ BlobsFit E faults list st validateMACs w := by
  rw [decodePatches, noPanic_bind, noPanic_decodeStart]
  constructor
  · intro h
    exact ⟨h.1, fun r w' hr => noPanic_decodePatchLoop.1 (h.2 r w' hr)⟩
  · intro h
    exact ⟨h.snapshot, fun r w' hr => noPanic_decodePatchLoop.2 (h.patches r w' hr)⟩

theorem HasIV.hasMAC (h : HasIV m) : HasMAC m := le_trans (by decide) h

theorem mutationsFit_of_long (h : ∀ m ∈ ms, HasIV m) : MutationsFit E validateMACs i ms w := by
  induction ms generalizing i w with
  | nil => trivial
  | cons m ms ih =>
    have hm := h m mem_cons_self
    exact ⟨fun _ _ _ => ⟨hm.hasMAC, fun _ => hm⟩, fun _ _ _ => ih fun x hx => h x (mem_cons_of_mem _ hx)⟩

theorem hashFits_of_long
    (h : ∀ m ∈ ms, HasIV m) : HashFits getPrev i ms w := by
  induction ms generalizing i w with
  | nil => trivial
  | cons m ms ih =>
    exact ⟨fun _ => (h m mem_cons_self).hasMAC, fun _ _ _ => ih fun x hx => h x (mem_cons_of_mem _ hx)⟩

theorem patchesFit_of_long {n : ℕ}
    {patches : List SyncdPatch} {r : HashState × List Mutation} (h : ∀ p ∈ patches, ∀ m ∈ p.mutations, HasIV m) :
    PatchesFit E faults name validateMACs n patches r w := by
  induction patches generalizing n r w with
  | nil => trivial
  | cons p patches ih =>
    have hp := h p mem_cons_self
    refine ⟨⟨hashFits_of_long hp, fun _ _ _ _ _ _ _ m hm => (hp m hm).hasMAC, fun _ _ _ => mutationsFit_of_long hp⟩, ?_⟩
    exact fun _ _ _ => ih fun q hq => h q (mem_cons_of_mem _ hq)

/-- values with room for the vector and the MAC fit, whatever else the list says -/
theorem blobsFit_of_long {list : PatchList} (hss : ∀ ss, list.snapshot = some ss → ∀ m ∈ ss.sets, HasIV m)
    (hps : ∀ p ∈ list.patches, ∀ m ∈ p.mutations, HasIV m) : BlobsFit E faults list st validateMACs w where
  snapshot ss h := ⟨fun m hm => (hss ss h m hm).hasMAC, fun _ _ _ _ _ => mutationsFit_of_long (hss ss h)⟩
  patches _ _ _ := patchesFit_of_long hps

/-- one patch that sets an index and has no value for it -/
def valuelessPatch : PatchList := ⟨[], [⟨1, [⟨.SET, ⟨[1], [], some []⟩⟩], [], [], some []⟩], none⟩

/-- a SET without a value panics before any MAC is checked -/
theorem short_value_panics :
    (decodePatches plainEnv noFaults valuelessPatch .zero true freshWorld).1 = .panic ∧
      (decodePatches plainEnv noFaults valuelessPatch .zero false freshWorld).1 = .panic :=
  ⟨rfl, rfl⟩

end Hypermeow.AppState
