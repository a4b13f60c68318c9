/-
Encoding an app state patch (`appstate/encode.go`, `EncodePatch`) and decoding it again.

`EncodePatch` encodes each mutation (JSON index, protobuf action, AES-CBC with a drawn vector in front, content MAC behind),
updates the hash with previous values from the database only, and signs the new state and the patch. The server stores the
patch under the next version.

Model: a patch is returned before its protobuf encoding, together with the state that was signed. Drawn vectors and the
clock are parameters. A mutation without a value is the nil dereference of the source.

Premises on the code outside: protobuf and JSON give back what was encoded, AES decryption undoes encryption
(`BlockCipher`), and the index HMAC tells the JSON indexes of the patch apart.

Results:
- `updateHash_agree`: with distinct indexes the decoder's hash is the encoder's.
-/
import Hypermeow.AppState.Atomicity

namespace Hypermeow.AppState

open Lib Util Go List AppStateDB

structure MutationInfo where
  index : List String
  version : ℤ
  value : Option SyncActionValue
deriving DecidableEq, Repr

structure PatchInfo where
  /-- in milliseconds; `none` is the zero time -/
  timestamp : Option ℤ
  type : Bytes
  mutations : List MutationInfo
deriving DecidableEq, Repr

variable (E : Env)

/-- one round of the loop of `EncodePatch` -/
def encodeMutation (keys : ExpandedAppStateKeys) (keyID : Bytes) (timestamp : ℤ) (random : Option IV)
    (info : MutationInfo) : Proc SyncdMutation :=
  match info.value with
  | none => Go.crash
  | some value =>
    let indexBytes := E.marshalIndex info.index
    match E.marshalSyncActionData ⟨indexBytes, some { value with timestamp := some timestamp }, [], info.version⟩ with
    | none => Go.throw (.wrap .marshalMutation .protobuf)
    | some content => do
      let encryptedContent ← (encrypt E.aes random keys.valueEncryption none content).mapErr fun e =>
        AppStateError.wrap .encryptMutation (.cbc e)
      let valueMac := generateContentMAC E .SET encryptedContent keyID keys.valueMAC
      let indexMac := (E.hmacSHA256 keys.index indexBytes).1
      pure ⟨.SET, indexMac, encryptedContent ++ valueMac, some keyID⟩

def encodeMutations (keys : ExpandedAppStateKeys) (keyID : Bytes) (timestamp : ℤ) (random : ℕ → Option IV) :
    ℕ → List MutationInfo → Proc (List SyncdMutation)
  | _, [] => pure []
  | i, info :: infos => do
    let mutation ← encodeMutation E keys keyID timestamp (random i) info
    let rest ← encodeMutations keys keyID timestamp random (i + 1) infos
    pure (mutation :: rest)

/-- `EncodePatch`, with the state it signed -/
def encodePatch (F : Faults) (random : ℕ → Option IV) (now : ℤ) (keyID : Bytes) (state : HashState)
    (patchInfo : PatchInfo) : Proc (HashState × SyncdPatch) := do
  let keys ← wrap (.getKeyToEncode keyID) (getAppStateKey E keyID)
  let mutations ← encodeMutations E keys keyID (patchInfo.timestamp.getD now) random 0 patchInfo.mutations
  let (state, _) ← wrap .updateStateHash
    (updateHash E state mutations fun indexMAC i => getAppStateMutationMAC F i indexMAC)
  let state := { state with version := state.version + 1 }
  let syncdPatch : SyncdPatch :=
    ⟨0, mutations, generateSnapshotMAC E state patchInfo.type keys.snapshotMAC, [], some keyID⟩
  let patchMAC ← generatePatchMAC E syncdPatch patchInfo.type keys.patchMAC state.version
  pure (state, { syncdPatch with patchMAC := patchMAC })

variable {E} {F : Faults} {w w' : World} {db : AppStateDB} {keyID keyData : Bytes}

/-! ## Keys -/

/-- the key is in the cache, or it is not and the key store has it -/
def KnownKey (E : Env) (keyID keyData : Bytes) (w : World) : Prop :=
  w.keyCache.lookup keyID = some (expandAppStateKeys E keyData) ∨
    w.keyCache.lookup keyID = none ∧ w.syncKeys keyID = some (some keyData)

/-- the tables are `db` and the key is known -/
def Ready (E : Env) (keyID keyData : Bytes) (db : AppStateDB) (w : World) : Prop :=
  w.db = db ∧ KnownKey E keyID keyData w

theorem getAppStateKey_known : Go.Triple (Ready E keyID keyData db) (getAppStateKey E keyID)
    (fun keys w => keys = expandAppStateKeys E keyData ∧ Ready E keyID keyData db w) fun _ => False := by
  rintro w ⟨hdb, hk | ⟨hnone, hk⟩⟩
  · have : getAppStateKey E keyID w = (.ok (expandAppStateKeys E keyData), w) := by
      rw [getAppStateKey, get_bind]
      simp only [hk]
      rfl
    rw [this]
    exact ⟨rfl, hdb, .inl hk⟩
  · have : getAppStateKey E keyID w = (.ok (expandAppStateKeys E keyData),
        { w with keyCache := (keyID, expandAppStateKeys E keyData) :: w.keyCache }) := by
      rw [getAppStateKey, get_bind]
      simp only [hnone, hk]
      rfl
    rw [this]
    exact ⟨rfl, hdb, .inl lookup_cons_self⟩

theorem length_valueEncryption (E : Env) (keyData : Bytes) :
    (expandAppStateKeys E keyData).valueEncryption.length = 32 := by
  simp [expandAppStateKeys, (E.mutationKeys keyData).2]

/-! ## One mutation -/

/-- `m` is `info` encoded -/
def Encodes (E : Env) (keys : ExpandedAppStateKeys) (keyID : Bytes) (timestamp : ℤ) (info : MutationInfo)
    (m : SyncdMutation) : Prop :=
  ∃ value content, ∃ iv : IV, info.value = some value ∧
    E.marshalSyncActionData ⟨E.marshalIndex info.index, some { value with timestamp := some timestamp }, [],
      info.version⟩ = some content ∧
    let encrypted := iv.1 ++ cipherBlocks E.aes keys.valueEncryption iv content
    m = ⟨.SET, (E.hmacSHA256 keys.index (E.marshalIndex info.index)).1,
      encrypted ++ generateContentMAC E .SET encrypted keyID keys.valueMAC, some keyID⟩

variable {timestamp : ℤ} {info : MutationInfo}

/-- what is marshalled, encrypted and put together when a mutation is returned -/
theorem encodeMutation_eq_ok {keys : ExpandedAppStateKeys} {random : Option IV}
    {m : SyncdMutation} (h : encodeMutation E keys keyID timestamp random info w = (.ok m, w')) :
    ∃ value content, ∃ iv : IV, random = some iv ∧ info.value = some value ∧
      E.marshalSyncActionData ⟨E.marshalIndex info.index, some { value with timestamp := some timestamp }, [],
        info.version⟩ = some content ∧
      (let encrypted := iv.1 ++ cipherBlocks E.aes keys.valueEncryption iv content
      m = ⟨.SET, (E.hmacSHA256 keys.index (E.marshalIndex info.index)).1,
        encrypted ++ generateContentMAC E .SET encrypted keyID keys.valueMAC, some keyID⟩) ∧ w' = w := by
  rw [encodeMutation] at h
  cases hv : info.value with
  | none => simp only [hv] at h; cases h
  | some value =>
    simp only [hv] at h
    cases hm : E.marshalSyncActionData ⟨E.marshalIndex info.index, some { value with timestamp := some timestamp }, [],
        info.version⟩ with
    | none => simp only [hm] at h; cases h
    | some content =>
      simp only [hm] at h
      obtain ⟨encrypted, w₁, henc, h₁⟩ := bind_eq_ok.1 h
      obtain ⟨iv, hiv, rfl, rfl⟩ := encrypt_ok E.aes (mapErr_eq_ok.1 henc)
      cases h₁
      exact ⟨value, content, iv, hiv, rfl, hm, rfl, rfl⟩

theorem encodeMutation_returns (keyID keyData : Bytes) (iv : IV) {value : SyncActionValue} {content : Bytes}
    (hv : info.value = some value)
    (hm : E.marshalSyncActionData ⟨E.marshalIndex info.index, some { value with timestamp := some timestamp }, [],
      info.version⟩ = some content) (w : World) :
    ∃ m, encodeMutation E (expandAppStateKeys E keyData) keyID timestamp (some iv) info w = (.ok m, w) := by
  have hkey : (expandAppStateKeys E keyData).valueEncryption.length ∈ aesKeySizes := by
    rw [length_valueEncryption]; decide
  simp only [encodeMutation, hv, hm]
  exact ⟨_, bind_ok (mapErr_ok (encrypt_run E.aes hkey iv content w))⟩

theorem length_generateContentMAC (op : Operation) (data keyID key : Bytes) :
    (generateContentMAC E op data keyID key).length = 32 := by
  rw [generateContentMAC, length_take, (E.hmacSHA512 _ _).2]
  rfl

theorem macTail_append {data mac : Bytes} (h : mac.length = 32) : macTail (data ++ mac) = mac := by
  rw [macTail, length_append, h, Nat.add_sub_cancel, drop_left]

/-- cutting the MAC off a value blob -/
theorem valueMACOf_append (data : Bytes) {mac : Bytes} (h : mac.length = 32) (w : World) :
    valueMACOf (data ++ mac) w = (.ok mac, w) ∧
      (Slice.upTo (data ++ mac) (((data ++ mac).length : ℤ) - 32) : Proc Bytes) w = (.ok data, w) := by
  have hlen : ((data ++ mac).length : ℤ) - 32 = (data.length : ℕ) := by
    rw [length_append, h]; push_cast; ring
  have hle : data.length ≤ (data ++ mac).length := by rw [length_append]; omega
  rw [valueMACOf, hlen, Slice.since_run hle, Slice.upTo_run hle, drop_left, take_left]
  exact ⟨rfl, rfl⟩

/-- **A mutation decodes to what was encoded.** With the same key, an encoded mutation passes both MAC checks. -/
theorem decodeMutation_encoded {m : SyncdMutation}
    (hproto : ∀ d b, E.marshalSyncActionData d = some b → E.unmarshalSyncActionData b = some d)
    (hjson : E.unmarshalIndex (E.marshalIndex info.index) = some info.index)
    (hm : Encodes E (expandAppStateKeys E keyData) keyID timestamp info m) (i : ℕ) :
    Go.Triple (Ready E keyID keyData db) (decodeMutation E m i true)
      (fun d w => d.indexMAC = m.record.index ∧ d.valueMAC = macTail m.record.value ∧ d.index = info.index ∧
        d.syncAction.value = info.value.map (fun v => { v with timestamp := some timestamp }) ∧
        d.syncAction.version = info.version ∧ Ready E keyID keyData db w) fun _ => False := by
  obtain ⟨value, content, iv, hv, hmar, rfl⟩ := hm
  set keys := expandAppStateKeys E keyData with hkeys
  set encrypted := iv.1 ++ cipherBlocks E.aes keys.valueEncryption iv content with henc
  have hmac := length_generateContentMAC (E := E) .SET encrypted keyID keys.valueMAC
  intro w hw
  obtain ⟨_, w₁, hkey, rfl, hw₁⟩ := Triple.exists_ok getAppStateKey_known hw
  obtain ⟨htail, hhead⟩ := valueMACOf_append encrypted hmac w₁
  have hkeysize : keys.valueEncryption.length ∈ aesKeySizes := by rw [hkeys, length_valueEncryption]; decide
  have hiv16 : iv.1.length = 16 := iv.2
  have hivle : 16 ≤ encrypted.length := by rw [henc, length_append, hiv16]; omega
  have hiv : (Slice.upTo encrypted (16 : ℕ) : Proc Bytes) w₁ = (.ok iv.1, w₁) := by
    rw [Slice.upTo_run hivle, henc, take_left' hiv16]
  have hblocks : (Slice.since encrypted (16 : ℕ) : Proc Bytes) w₁ =
      (.ok (cipherBlocks E.aes keys.valueEncryption iv content), w₁) := by
    rw [Slice.since_run hivle, henc, drop_left' hiv16]
  have hrun : decodeMutation E ⟨.SET, (E.hmacSHA256 keys.index (E.marshalIndex info.index)).1,
      encrypted ++ generateContentMAC E .SET encrypted keyID keys.valueMAC, some keyID⟩ i true w =
      (.ok ⟨(E.hmacSHA256 keys.index (E.marshalIndex info.index)).1,
        generateContentMAC E .SET encrypted keyID keys.valueMAC, info.index,
        ⟨E.marshalIndex info.index, some { value with timestamp := some timestamp }, [], info.version⟩⟩, w₁) := by
    rw [decodeMutation]
    refine (bind_ok (mapErr_ok hkey)).trans ?_
    refine (bind_ok hhead).trans ((bind_ok htail).trans ?_)
    rw [if_neg fun h => h.2 rfl]
    refine (bind_ok hiv).trans ((bind_ok hblocks).trans ?_)
    refine (bind_ok (mapErr_ok (decrypt_encrypt E.aes hkeysize iv content w₁))).trans ?_
    simp only [hproto _ _ hmar, hjson]
    rw [if_neg fun h => h.2 rfl]
    rfl
  rw [hrun]
  exact ⟨rfl, (macTail_append hmac).symm, rfl, by rw [hv]; rfl, rfl, hw₁⟩

/-! ## All mutations -/

variable {random : ℕ → Option IV} {infos : List MutationInfo} {ms : List SyncdMutation}

theorem encodeMutations_ok {keys : ExpandedAppStateKeys} {i : ℕ} {w w' : World}
    (h : encodeMutations E keys keyID timestamp random i infos w = (.ok ms, w')) :
    List.Forall₂ (Encodes E keys keyID timestamp) infos ms ∧ w' = w := by
  induction infos generalizing i ms w w' with
  | nil => cases h; exact ⟨.nil, rfl⟩
  | cons info infos ih =>
    obtain ⟨m, w₁, hm, h₁⟩ := bind_eq_ok.1 h
    obtain ⟨rest, w₂, hrest, h₂⟩ := bind_eq_ok.1 h₁
    obtain ⟨value, content, iv, -, hv, hmarshal, hmutation, rfl⟩ := encodeMutation_eq_ok hm
    obtain ⟨hall, rfl⟩ := ih hrest
    cases h₂
    exact ⟨.cons ⟨value, content, iv, hv, hmarshal, hmutation⟩ hall, rfl⟩

theorem encodeMutations_returns (hrand : ∀ i, (random i).isSome)
    (hmar : ∀ info ∈ infos, ∃ value content, info.value = some value ∧
      E.marshalSyncActionData ⟨E.marshalIndex info.index, some { value with timestamp := some timestamp }, [],
        info.version⟩ = some content) (i : ℕ) (w : World) :
    ∃ ms, encodeMutations E (expandAppStateKeys E keyData) keyID timestamp random i infos w = (.ok ms, w) := by
  induction infos generalizing i with
  | nil => exact ⟨[], rfl⟩
  | cons info infos ih =>
    obtain ⟨value, content, hv, hm⟩ := hmar info mem_cons_self
    obtain ⟨iv, hiv⟩ := Option.isSome_iff_exists.1 (hrand i)
    obtain ⟨m, hm⟩ := encodeMutation_returns keyID keyData iv hv hm w
    obtain ⟨rest, hrest⟩ := ih (fun info hinfo => hmar info (mem_cons_of_mem _ hinfo)) (i + 1)
    refine ⟨m :: rest, ?_⟩
    rw [encodeMutations, hiv, bind_ok hm, bind_ok hrest]
    rfl

/-- what the decoder's output is for an encoded mutation -/
def decodedAs (keyID : Bytes) (timestamp : ℤ) (version : ℕ) (info : MutationInfo) (m : SyncdMutation) : Mutation :=
  ⟨some keyID, .SET, info.value.map (fun v => { v with timestamp := some timestamp }), info.version, info.index,
    m.record.index, macTail m.record.value, version⟩

theorem decodeMutations_encoded
    (hproto : ∀ d b, E.marshalSyncActionData d = some b → E.unmarshalSyncActionData b = some d)
    (hjson : ∀ info ∈ infos, E.unmarshalIndex (E.marshalIndex info.index) = some info.index)
    (henc : List.Forall₂ (Encodes E (expandAppStateKeys E keyData) keyID timestamp) infos ms) (v i : ℕ)
    (out : PatchOutput) :
    Go.Triple (Ready E keyID keyData db) (decodeMutationsLoop E true v [] i ms out)
      (fun out' w => out' = ⟨out.removedMACs,
        out.addedMACs ++ ms.map (fun m => ⟨m.record.index, macTail m.record.value⟩),
        out.mutations ++ List.zipWith (decodedAs keyID timestamp v) infos ms⟩ ∧ Ready E keyID keyData db w)
      fun _ => False := by
  induction henc generalizing i out with
  | nil => exact (Triple.pure out).conseq (fun _ h => ⟨by simp, h⟩) (fun _ _ h => h) fun _ h => h
  | @cons info m infos ms hm _ ih =>
    refine Triple.bind (decodeMutation_encoded hproto (hjson info mem_cons_self) hm i) fun d => ?_
    rintro w ⟨hi, hv, hidx, hval, hver, hw⟩
    have hop : m.operation = .SET ∧ m.record.keyID = some keyID := by
      obtain ⟨_, _, _, _, _, rfl⟩ := hm
      exact ⟨rfl, rfl⟩
    have hrec : out.record [] m d v = ⟨out.removedMACs, out.addedMACs ++ [⟨m.record.index, macTail m.record.value⟩],
        out.mutations ++ [decodedAs keyID timestamp v info m]⟩ := by
      simp [PatchOutput.record, hop, PatchOutput.addMAC, hi, hv, hidx, hval, hver, decodedAs]
    have hrest := ih (fun info hinfo => hjson info (mem_cons_of_mem _ hinfo)) (i + 1) (out.record [] m d v) w hw
    rw [hrec] at hrest ⊢
    simpa using hrest

/-! ## The hash -/

/-- what `updateHash` collects when the previous value of an index is `prev` of it -/
def hashDelta (prev : Bytes → Option Bytes) : List SyncdMutation → HashDelta → HashDelta
  | [], d => d
  | m :: ms, d =>
    let d := { d with added := d.added ++ [macTail m.record.value] }
    match prev m.record.index with
    | some removal => hashDelta prev ms { d with removed := d.removed ++ [removal] }
    | none => hashDelta prev ms d

/-- SETs with complete values, as the encoder makes them -/
abbrev CompleteSets (ms : List SyncdMutation) : Prop := ∀ m ∈ ms, m.operation = .SET ∧ 32 ≤ m.record.value.length

theorem add_set {m : SyncdMutation} (h : m.operation = .SET ∧ 32 ≤ m.record.value.length) (d : HashDelta) (w : World) :
    d.add m w = (.ok { d with added := d.added ++ [macTail m.record.value] }, w) := by
  simp only [HashDelta.add, h.1]
  exact bind_ok (valueMACOf_run h.2 w)

/-- they are collected whatever looks the previous values up -/
theorem updateHashLoop_run {prev : Bytes → Option Bytes} {getPrev : Bytes → ℕ → Proc (Option Bytes)}
    (hset : CompleteSets ms) (i : ℕ) (d : HashDelta)
    (hp : ∀ (j : ℕ) (m : SyncdMutation), ms[j]? = some m →
      getPrev m.record.index (i + j) w = (.ok (prev m.record.index), w)) :
    updateHashLoop getPrev i ms d w = (.ok (hashDelta prev ms d), w) := by
  induction ms generalizing i d with
  | nil => rfl
  | cons m ms ih =>
    have hm := hset m mem_cons_self
    have hprev := hp 0 m rfl
    rw [Nat.add_zero] at hprev
    have hrest := fun d => ih (fun m' hm' => hset m' (mem_cons_of_mem _ hm')) (i + 1) d fun j m' hm' => by
      rw [Nat.add_right_comm, Nat.add_assoc]; exact hp (j + 1) m' hm'
    rw [updateHashLoop, hashDelta]
    refine (bind_ok (add_set hm d w)).trans ((bind_ok (mapErr_ok hprev)).trans ?_)
    cases prev m.record.index with
    | some removal => exact hrest _
    | none =>
      have hno : ∀ d : HashDelta, d.noRemoval m = d := fun d => by rw [HashDelta.noRemoval, hm.1]
      rw [hno]
      exact hrest _

/-- the encoder's lookup -/
theorem getAppStateMutationMAC_noFault (i : ℕ) (k : Bytes) (w : World) :
    getAppStateMutationMAC noFault i k w = (.ok (w.db.getAppStateMutationMAC k), w) := rfl

/-- an index that is not among the earlier mutations is not found in the patch -/
theorem searchPatch_none {k : Bytes} {i : ℕ} (hi : i ≤ ms.length)
    (h : ∀ j < i, ∀ m, ms[j]? = some m → m.record.index ≠ k) : searchPatch ms k i w = (.ok none, w) := by
  induction i with
  | zero => rfl
  | succ i ih =>
    have hget : ms[i]? = some ms[i] := getElem?_eq_getElem hi
    rw [searchPatch, hget]
    simp only [if_neg (h i (Nat.lt_succ_self i) _ hget)]
    exact ih (Nat.le_of_succ_le hi) fun j hj => h j (Nat.lt_succ_of_lt hj)

variable {patch : SyncdPatch}

/-- with distinct indexes the decoder's lookup is the encoder's -/
theorem prevSetValueMAC_distinct (hnd : (patch.mutations.map (·.record.index)).Nodup) (j : ℕ)
    (m : SyncdMutation) (hm : patch.mutations[j]? = some m) :
    prevSetValueMAC noFault patch m.record.index j w = (.ok (w.db.getAppStateMutationMAC m.record.index), w) := by
  obtain ⟨hj, hget⟩ := List.getElem?_eq_some_iff.1 hm
  refine (bind_ok (searchPatch_none hj.le fun i hi m' hm' heq => ?_)).trans rfl
  have hnth : ∀ (n : ℕ) (m : SyncdMutation), patch.mutations[n]? = some m →
      (patch.mutations.map (·.record.index))[n]? = some m.record.index := fun n m h => by rw [getElem?_map, h]; rfl
  have hij := (getElem?_inj (by rw [length_map]; exact hi.trans hj) hnd).1
    ((hnth i m' hm').trans (heq ▸ (hnth j m hm).symm))
  omega

theorem updateHash_run (prev : Bytes → Option Bytes) (getPrev : Bytes → ℕ → Proc (Option Bytes))
    (hset : CompleteSets ms) (hs : HashState)
    (hp : ∀ (j : ℕ) (m : SyncdMutation), ms[j]? = some m → getPrev m.record.index j w = (.ok (prev m.record.index), w)) :
    ∃ warn, updateHash E hs ms getPrev w = (.ok (⟨hs.version, subtractThenAdd E.patchIntegrity hs.hash
      (hashDelta prev ms ⟨[], [], []⟩).removed (hashDelta prev ms ⟨[], [], []⟩).added⟩, warn), w) := by
  have := updateHashLoop_run hset 0 ⟨[], [], []⟩ fun j m hm => by rw [Nat.zero_add]; exact hp j m hm
  exact ⟨_, bind_ok this⟩

theorem generatePatchMAC_run (hlen : ∀ m ∈ patch.mutations, 32 ≤ m.record.value.length)
    (name key : Bytes) (version : ℕ) (w : World) :
    generatePatchMAC E patch name key version w = (.ok (E.hmacSHA256 key (patch.snapshotMAC ++
      (patch.mutations.map fun m => macTail m.record.value).flatten ++ uint64ToBytes version ++ name)).1, w) :=
  bind_ok (valueMACs_run hlen w)

/-! ## The patch -/

/-- the state after the encoded mutations, on the tables `db` -/
def nextState (E : Env) (db : AppStateDB) (st : HashState) (ms : List SyncdMutation) : HashState :=
  let d := hashDelta db.getAppStateMutationMAC ms ⟨[], [], []⟩
  ⟨st.version + 1, subtractThenAdd E.patchIntegrity st.hash d.removed d.added⟩

/-- the patch with its two MACs -/
def signedPatch (E : Env) (keys : ExpandedAppStateKeys) (keyID type : Bytes) (st : HashState) (ms : List SyncdMutation) :
    SyncdPatch :=
  let snapshotMAC := generateSnapshotMAC E st type keys.snapshotMAC
  ⟨0, ms, snapshotMAC, (E.hmacSHA256 keys.patchMAC (snapshotMAC ++ (ms.map fun m => macTail m.record.value).flatten ++
    uint64ToBytes st.version ++ type)).1, some keyID⟩

section Encoded

variable {keys : ExpandedAppStateKeys} {timestamp : ℤ} {infos : List MutationInfo} {ms : List SyncdMutation}

/-- encoded mutations are SETs with complete values and index MACs -/
theorem encoded_sets (h : List.Forall₂ (Encodes E keys keyID timestamp) infos ms) :
    ∀ m ∈ ms, (m.operation = .SET ∧ 32 ≤ m.record.value.length) ∧ m.record.index.length = 32 ∧
      (macTail m.record.value).length = 32 := by
  induction h with
  | nil => exact fun m hm => nomatch hm
  | cons hm _ ih =>
    refine forall_mem_cons.2 ⟨?_, ih⟩
    obtain ⟨value, content, iv, -, -, rfl⟩ := hm
    have hmac := length_generateContentMAC (E := E) .SET (iv.1 ++ cipherBlocks E.aes keys.valueEncryption iv content)
      keyID keys.valueMAC
    refine ⟨⟨rfl, ?_⟩, (E.hmacSHA256 _ _).2, ?_⟩
    · rw [length_append, hmac]; omega
    · rw [macTail_append hmac, hmac]

theorem encoded_indexes (h : List.Forall₂ (Encodes E keys keyID timestamp) infos ms) :
    ms.map (·.record.index) = infos.map fun info => (E.hmacSHA256 keys.index (E.marshalIndex info.index)).1 := by
  induction h with
  | nil => rfl
  | cons hm _ ih =>
    obtain ⟨_, _, _, _, _, rfl⟩ := hm
    rw [map_cons, map_cons, ih]

end Encoded

variable {now : ℤ} {st : HashState}

/-- what a patch that was returned is made of -/
theorem encodePatch_parts {state : HashState} {info : PatchInfo} (h : encodePatch E F random now keyID state info w = (.ok (st, patch), w')) :
    ∃ keys w₁ ms, getAppStateKey E keyID w = (.ok keys, w₁) ∧
      encodeMutations E keys keyID (info.timestamp.getD now) random 0 info.mutations w₁ = (.ok ms, w₁) ∧
      st = nextState E w.db state ms ∧ patch = signedPatch E keys keyID info.type st ms := by
  rw [encodePatch] at h
  obtain ⟨keys, w₁, hkey, h₁⟩ := bind_eq_ok.1 h
  have hkey := mapErr_eq_ok.1 hkey
  have hdb : w₁.db = w.db := (getAppStateKey_keeps keyID).run hkey
  obtain ⟨ms, w₂, hms, h₂⟩ := bind_eq_ok.1 h₁
  obtain ⟨henc, rfl⟩ := encodeMutations_ok hms
  obtain ⟨⟨st₁, warn⟩, w₃, hupd, h₃⟩ := bind_eq_ok.1 h₂
  have hsets := encoded_sets henc
  -- a lookup that does not fail gives the same as without faults
  have hle : Go.Le (updateHash E state ms fun k i => getAppStateMutationMAC F i k)
      (updateHash E state ms fun k i => getAppStateMutationMAC noFault i k) :=
    .bind (updateHashLoop_le (getAppStateMutationMAC_le · ·) _ _ _) fun _ => .refl _
  obtain ⟨warn', hrun⟩ := updateHash_run (E := E) w₂.db.getAppStateMutationMAC
    (fun k i => getAppStateMutationMAC noFault i k) (fun m hm => (hsets m hm).1) state fun j m _ =>
      getAppStateMutationMAC_noFault j m.record.index w₂
  have heq := (hle _ _ _ (mapErr_eq_ok.1 hupd)).symm.trans hrun
  cases heq
  obtain ⟨mac, w₄, hmac, h₄⟩ := bind_eq_ok.1 h₃
  rw [generatePatchMAC_run fun m hm => (hsets m hm).1.2] at hmac
  cases hmac
  cases h₄
  refine ⟨keys, _, ms, hkey, hms, ?_, rfl⟩
  rw [nextState, hdb]

theorem encodePatch_ok {state : HashState} {info : PatchInfo} (hk : KnownKey E keyID keyData w)
    (h : encodePatch E F random now keyID state info w = (.ok (st, patch), w')) :
    ∃ ms, List.Forall₂ (Encodes E (expandAppStateKeys E keyData) keyID (info.timestamp.getD now)) info.mutations ms ∧
      st = nextState E w.db state ms ∧
      patch = signedPatch E (expandAppStateKeys E keyData) keyID info.type st ms := by
  obtain ⟨keys, w₁, ms, hkey, hms, hst, hpatch⟩ := encodePatch_parts h
  obtain ⟨_, _, hknown, rfl, -⟩ := Triple.exists_ok getAppStateKey_known (⟨rfl, hk⟩ : Ready E keyID keyData w.db w)
  cases hkey.symm.trans hknown
  exact ⟨ms, (encodeMutations_ok hms).1, hst, hpatch⟩

theorem encodePatch_returns {info : PatchInfo} (hk : KnownKey E keyID keyData w) (hrand : ∀ i, (random i).isSome)
    (hmar : ∀ m ∈ info.mutations, ∃ value content, m.value = some value ∧
      E.marshalSyncActionData ⟨E.marshalIndex m.index, some { value with timestamp := some (info.timestamp.getD now) }, [],
        m.version⟩ = some content) (state : HashState) :
    ∃ st patch w', encodePatch E noFault random now keyID state info w = (.ok (st, patch), w') := by
  obtain ⟨_, w₁, hkey, rfl, -⟩ := Triple.exists_ok getAppStateKey_known (⟨rfl, hk⟩ : Ready E keyID keyData w.db w)
  obtain ⟨ms, hms⟩ := encodeMutations_returns (E := E) (w := w₁) hrand hmar 0
  have hsets := encoded_sets (encodeMutations_ok hms).1
  obtain ⟨warn, hupd⟩ := updateHash_run (E := E) w₁.db.getAppStateMutationMAC
    (fun k i => getAppStateMutationMAC noFault i k) (fun m hm => (hsets m hm).1) state fun j m _ =>
      getAppStateMutationMAC_noFault j m.record.index w₁
  refine ⟨nextState E w₁.db state ms, signedPatch E (expandAppStateKeys E keyData) keyID info.type
    (nextState E w₁.db state ms) ms, w₁, ?_⟩
  rw [encodePatch]
  refine (bind_ok (mapErr_ok hkey)).trans ((bind_ok hms).trans ((bind_ok (mapErr_ok hupd)).trans ?_))
  exact bind_ok (generatePatchMAC_run (fun m hm => (hsets m hm).1.2) _ _ _ _)

/-- rows of a new version with distinct indexes can be inserted -/
theorem applyMACs_isSome {out : PatchOutput} (hr : out.removedMACs = []) (hnd : (out.addedMACs.map (·.indexMAC)).Nodup)
    (hlen : ∀ m ∈ out.addedMACs, m.indexMAC.length = 32 ∧ m.valueMAC.length = 32)
    (hv : ∀ r ∈ db.macs, r.version < st.version) : ∃ db', db.applyMACs st out = some db' := by
  rw [AppStateDB.applyMACs, hr, delete_nil, AppStateDB.putAppStateMutationMACs]
  refine ⟨_, dif_pos ⟨?_, fun _ => rfl, ?_⟩⟩
  · rw [map_append]
    refine nodup_append.2 ⟨db.primaryKey, ?_, ?_⟩
    · rw [map_key_macRows]
      exact hnd.map fun _ _ h => congrArg Prod.snd h
    · rintro a ha b hb rfl
      obtain ⟨r, hr, rfl⟩ := mem_map.1 ha
      obtain ⟨r', hr', heq⟩ := mem_map.1 hb
      obtain ⟨m, -, rfl⟩ := mem_map.1 hr'
      have := hv r hr
      have heq := congrArg Prod.fst heq
      simp only [MACRow.key] at heq
      omega
  · intro r hr
    rcases mem_append.1 hr with hr | hr
    · exact db.check r hr
    · obtain ⟨m, hm, rfl⟩ := mem_map.1 hr
      exact hlen m hm

/-- a signed patch whose hash is the signed one is accepted with all its MACs -/
theorem validatePatch_accepts {keys : ExpandedAppStateKeys} {type : Bytes} {next : HashState} {w₁ : World}
    (hset : CompleteSets ms) (hkey : getAppStateKey E keyID w = (.ok keys, w₁))
    (hval : validatePatch E noFault type { signedPatch E keys keyID type next ms with version := next.version } st false w =
      (.ok next, w)) :
    validatePatch E noFault type { signedPatch E keys keyID type next ms with version := next.version } st true w =
      (.ok next, w₁) := by
  set patch : SyncdPatch := { signedPatch E keys keyID type next ms with version := next.version } with hpatch
  obtain ⟨⟨newState, warn⟩, w₂, hupd, hrest⟩ := bind_eq_ok.1 hval
  cases hrest
  have hsnap : validateSnapshotMAC E type next (patch.keyID.getD []) patch.snapshotMAC w = (.ok keys, w₁) := by
    refine (bind_ok (mapErr_ok hkey)).trans ?_
    rw [if_neg fun h => h rfl]
    rfl
  have hmac : generatePatchMAC E patch type keys.patchMAC patch.version w₁ = _ :=
    generatePatchMAC_run (fun m hm => (hset m hm).2) _ _ _ _
  refine (bind_ok hupd).trans ((bind_ok hsnap).trans ((bind_ok hmac).trans ?_))
  rw [if_neg fun h => h rfl]
  rfl

/-- a signed patch passes validation, and gives the signed state -/
theorem validatePatch_signed (type : Bytes) (st : HashState)
    (hset : CompleteSets ms) (hnd : (ms.map (·.record.index)).Nodup) :
    let next := nextState E db st ms
    Go.Triple (Ready E keyID keyData db)
      (validatePatch E noFault type
        { signedPatch E (expandAppStateKeys E keyData) keyID type next ms with version := next.version } st true)
      (fun st' w => st' = next ∧ Ready E keyID keyData db w) fun _ => False := by
  intro next w hw
  set patch : SyncdPatch :=
    { signedPatch E (expandAppStateKeys E keyData) keyID type next ms with version := next.version } with hpatch
  have hdist : (patch.mutations.map (·.record.index)).Nodup := hnd
  obtain ⟨warn, hupd⟩ := updateHash_run (E := E) (w := w) w.db.getAppStateMutationMAC (prevSetValueMAC noFault patch) hset
    { st with version := patch.version } fun j m hm => prevSetValueMAC_distinct hdist j m hm
  rw [hw.1] at hupd
  obtain ⟨_, w₁, hkey, rfl, hw₁⟩ := Triple.exists_ok getAppStateKey_known hw
  have hval : validatePatch E noFault type patch st false w = (.ok next, w) := bind_ok (mapErr_ok hupd)
  rw [validatePatch_accepts hset hkey hval]
  exact ⟨rfl, hw₁⟩

/-- **Round trip.** Let the index HMAC tell the indexes of the patch apart. When `EncodePatch` returns a patch, `DecodePatches`
with MAC validation accepts it under the next version, in any world with the same tables and key; it returns the mutations
in order, with their index, version and action at the patch timestamp, and the state that was signed. `EncodePatch` does
return when every mutation has a value that can be marshalled and random bytes are available. -/
theorem decode_encode (E : Env) (keyID keyData : Bytes) (info : PatchInfo) (random : ℕ → Option IV) (now : ℤ) (w : World)
    (hi : Integrity E w.db) (hk : KnownKey E keyID keyData w) (hdistinct : (info.mutations.map (·.index)).Nodup)
    (hproto : ∀ d b, E.marshalSyncActionData d = some b → E.unmarshalSyncActionData b = some d)
    (hjson : ∀ m ∈ info.mutations, E.unmarshalIndex (E.marshalIndex m.index) = some m.index)
    (hhmac : ∀ m ∈ info.mutations, ∀ m' ∈ info.mutations,
      E.hmacSHA256 (expandAppStateKeys E keyData).index (E.marshalIndex m.index) =
        E.hmacSHA256 (expandAppStateKeys E keyData).index (E.marshalIndex m'.index) →
      E.marshalIndex m.index = E.marshalIndex m'.index) :
    let timestamp := info.timestamp.getD now
    ((∀ i, (random i).isSome) → (∀ m ∈ info.mutations, ∃ value content, m.value = some value ∧
        E.marshalSyncActionData ⟨E.marshalIndex m.index, some { value with timestamp := some timestamp }, [], m.version⟩ =
          some content) →
      ∃ st patch w₁, encodePatch E noFault random now keyID w.db.state info w = (.ok (st, patch), w₁)) ∧
    ∀ F st patch w₁, encodePatch E F random now keyID w.db.state info w = (.ok (st, patch), w₁) →
      st.version = w.db.state.version + 1 ∧
      patch.snapshotMAC = generateSnapshotMAC E st info.type (expandAppStateKeys E keyData).snapshotMAC ∧
      ∀ w₂, w₂.db = w.db → KnownKey E keyID keyData w₂ →
        ∃ mutations w₃, decodePatches E noFaults ⟨info.type, [{ patch with version := w.db.state.version + 1 }], none⟩
            w.db.state true w₂ = (.ok (st, mutations), w₃) ∧
          mutations.map (fun m => (m.index, m.action, m.version, m.operation)) = info.mutations.map fun m =>
            (m.index, m.value.map (fun v => { v with timestamp := some timestamp }), m.version, .SET) := by
  intro timestamp
  refine ⟨fun hrand hmar => encodePatch_returns hk hrand hmar w.db.state, fun F st patch w₁ henc => ?_⟩
  obtain ⟨ms, hms, rfl, rfl⟩ := encodePatch_ok hk henc
  refine ⟨rfl, rfl, fun w₂ hdb₂ hk₂ => ?_⟩
  have hsets := encoded_sets hms
  have hnd : (ms.map (·.record.index)).Nodup := by
    rw [encoded_indexes hms]
    refine (Nodup.of_map _ hdistinct).map_on fun m hm m' hm' heq => ?_
    have hbytes := hhmac m hm m' hm' (Subtype.ext heq)
    have hidx : m.index = m'.index := Option.some.inj ((hjson m hm).symm.trans (hbytes ▸ hjson m' hm'))
    exact inj_on_of_nodup_map hdistinct hm hm' hidx
  set next := nextState E w.db w.db.state ms
  have hready : Ready E keyID keyData w.db w₂ := ⟨hdb₂, hk₂⟩
  obtain ⟨_, w₃, hval, rfl, hw₃⟩ := Triple.exists_ok
    (validatePatch_signed info.type w.db.state (fun m hm => (hsets m hm).1) hnd) hready
  obtain ⟨_, w₄, hdec, rfl, hw₄⟩ := Triple.exists_ok
    (decodeMutations_encoded hproto hjson hms next.version 0 ⟨[], [], []⟩) hw₃
  -- the rows are of a new version, with distinct indexes
  obtain ⟨db', happ⟩ : ∃ db', w₄.db.applyMACs next ⟨[],
      [] ++ ms.map (fun m => ⟨m.record.index, macTail m.record.value⟩),
      [] ++ List.zipWith (decodedAs keyID timestamp next.version) info.mutations ms⟩ = some db' := by
    refine applyMACs_isSome rfl ?_ (fun mac hmac => ?_) fun r hr => ?_
    · rw [nil_append, map_map]; exact hnd
    · obtain ⟨m, hm, rfl⟩ := mem_map.1 hmac
      exact (hsets m hm).2
    · rw [hw₄.1] at hr
      exact Nat.lt_succ_of_le (hi.versions r hr)
  have hstore := storePrepared_noFault (w := w₄) (p := (next, _)) happ
  refine ⟨List.zipWith (decodedAs keyID timestamp next.version) info.mutations ms, { w₄ with db := db' }, ?_, ?_⟩
  · refine (bind_ok (pure_run _ _)).trans ((bind_ok ?_).trans rfl)
    exact (bind_ok ((bind_ok hval).trans ((bind_ok hdec).trans rfl))).trans hstore
  · refine ext_getElem? fun n => ?_
    rw [getElem?_map, getElem?_map, getElem?_zipWith]
    have hlen := hms.length_eq
    rcases Nat.lt_or_ge n info.mutations.length with hn | hn
    · rw [getElem?_eq_getElem hn, getElem?_eq_getElem (hlen ▸ hn)]
      rfl
    · rw [getElem?_eq_none hn]
      rfl

/-- two actions with their protobuf and JSON encodings -/
def twoActions : SyncActionData × SyncActionData :=
  (⟨[1], some ⟨some 5, []⟩, [], 1⟩, ⟨[2], some ⟨some 5, [9]⟩, [], 2⟩)

def codecEnv : Env :=
  { plainEnv with
    hmacSHA256 := fun _ d => ⟨(d ++ List.replicate 32 0).take 32, by simp⟩
    marshalIndex := fun index => if index = ["a"] then [1] else [2]
    unmarshalIndex := fun b => if b = [1] then some ["a"] else some ["b"]
    marshalSyncActionData := fun d => if d = twoActions.1 then some [1] else if d = twoActions.2 then some [2] else none
    unmarshalSyncActionData := fun b => if b = [1] then some twoActions.1 else some twoActions.2 }

def twoMutations : PatchInfo := ⟨some 5, [], [⟨["a"], 1, some ⟨none, []⟩⟩, ⟨["b"], 2, some ⟨none, [9]⟩⟩]⟩

theorem decode_encode_two :
    ∃ st patch w₁ mutations w₃,
      encodePatch codecEnv noFault (fun _ => some ⟨List.replicate 16 0, rfl⟩) 0 [] freshWorld.db.state twoMutations
        freshWorld = (.ok (st, patch), w₁) ∧
      decodePatches codecEnv noFaults ⟨[], [{ patch with version := 1 }], none⟩ freshWorld.db.state true freshWorld =
        (.ok (st, mutations), w₃) ∧
      mutations.map (·.index) = [["a"], ["b"]] := by
  have hproto : ∀ d b, codecEnv.marshalSyncActionData d = some b → codecEnv.unmarshalSyncActionData b = some d := by
    intro d b h
    simp only [codecEnv] at h ⊢
    split_ifs at h with h₁ h₂
    · cases h; rw [if_pos rfl, h₁]
    · cases h; rw [if_neg (by decide), h₂]
  have hk : KnownKey codecEnv [] [] freshWorld := .inr ⟨rfl, rfl⟩
  obtain ⟨hret, hdec⟩ := decode_encode codecEnv [] [] twoMutations (fun _ => some ⟨List.replicate 16 0, rfl⟩) 0 freshWorld
    integrity_empty hk (by decide) hproto (by decide) (by decide)
  obtain ⟨st, patch, w₁, henc⟩ := hret (fun _ => rfl) fun m hm => by
    rcases mem_cons.1 hm with rfl | hm
    · exact ⟨_, [1], rfl, rfl⟩
    · obtain rfl := mem_singleton.1 hm
      exact ⟨_, [2], rfl, rfl⟩
  obtain ⟨-, -, hall⟩ := hdec noFault st patch w₁ henc
  obtain ⟨mutations, w₃, hrun, hmuts⟩ := hall freshWorld rfl hk
  refine ⟨st, patch, w₁, mutations, w₃, henc, hrun, ?_⟩
  have := congrArg (List.map Prod.fst) hmuts
  rw [map_map, map_map] at this
  exact this

end Hypermeow.AppState
