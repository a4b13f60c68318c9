/-
Decoding app state patches (`appstate/hash.go`, `appstate/keys.go`, `appstate/decode.go`).

`DecodePatches` applies a snapshot and then patches to one collection. For each it updates the hash (subtracting the value
MAC every mutation replaces, adding the one it sets), checks the snapshot and patch MACs, decodes the mutations and stores
the new version, the removed and the added MACs with three separate store calls.

Model: methods on a world of the collection's tables, the key cache and the key store. Protobuf getters give the empty
value for an absent field, so records hold plain bytes; only an absent key ID is told apart. HKDF, HMAC, AES, protobuf and
JSON are parameters. Store calls fail as `Faults` says, leaving the tables as they are. Slices are checked, so a value blob
that is too short panics as in the source. `hmac.Equal` is equality.
-/
import Hypermeow.AppState.Store
import Hypermeow.Util.CbcUtil

namespace Hypermeow.AppState

open Lib Util

/-! ## Messages -/

inductive Operation where
  | SET
  | REMOVE
deriving DecidableEq, Repr

structure SyncdRecord where
  index : Bytes
  value : Bytes
  keyID : Option Bytes
deriving DecidableEq, Repr

structure SyncdMutation where
  operation : Operation
  record : SyncdRecord
deriving DecidableEq, Repr

structure SyncdPatch where
  version : ℕ
  mutations : List SyncdMutation
  snapshotMAC : Bytes
  patchMAC : Bytes
  keyID : Option Bytes
deriving DecidableEq, Repr

structure SyncdSnapshot where
  version : ℕ
  records : List SyncdRecord
  mac : Bytes
  keyID : Option Bytes
deriving DecidableEq, Repr

structure PatchList where
  name : Bytes
  patches : List SyncdPatch
  snapshot : Option SyncdSnapshot
deriving DecidableEq, Repr

/-- `fields` is everything but the timestamp -/
structure SyncActionValue where
  timestamp : Option ℤ
  fields : Bytes
deriving DecidableEq, Repr

structure SyncActionData where
  index : Bytes
  value : Option SyncActionValue
  padding : Bytes
  version : ℤ
deriving DecidableEq, Repr

/-- a decoded mutation -/
structure Mutation where
  keyID : Option Bytes
  operation : Operation
  action : Option SyncActionValue
  version : ℤ
  index : List String
  indexMAC : Bytes
  valueMAC : Bytes
  patchVersion : ℕ
deriving DecidableEq, Repr

structure ExpandedAppStateKeys where
  index : Bytes
  valueEncryption : Bytes
  valueMAC : Bytes
  snapshotMAC : Bytes
  patchMAC : Bytes
deriving DecidableEq, Repr

/-! ## Surroundings -/

/-- the store calls made while one snapshot or patch is applied; lookups are numbered by mutation -/
inductive StoreCall where
  | getAppStateMutationMAC (i : ℕ)
  | putAppStateVersion
  | deleteAppStateMutationMACs
  | putAppStateMutationMACs
deriving DecidableEq, Repr

/-- which store calls fail -/
abbrev Faults := StoreCall → Bool

/-- what an error was wrapped with on its way up -/
inductive Context where
  | getKeyToDecode (keyID : Bytes)
  | getKeyToVerify (keyID : Bytes) (version : ℕ)
  | getKeyToEncode (keyID : Bytes)
  | marshalMutation
  | encryptMutation
  | verifyMutation (n : ℕ)
  | decryptMutation (n : ℕ)
  | unmarshalMutation (n : ℕ)
  | unmarshalIndex (n : ℕ)
  | verifyPatch (version : ℕ)
  | verifySnapshot
  | decodeSnapshot (version : ℕ)
  | previousValueMAC
  | updateStateHash
  | updateVersion
  | removeMACs
  | insertMACs
deriving DecidableEq, Repr

inductive AppStateError where
  | store (call : StoreCall)
  | keyStore
  | keyNotFound
  | mismatchingLTHash
  | mismatchingPatchMAC
  | mismatchingContentMAC
  | mismatchingIndexMAC
  | cbc (e : CbcError)
  | protobuf
  | json
  | wrap (c : Context) (e : AppStateError)
deriving DecidableEq, Repr

/-- code outside the repository -/
structure Env where
  /-- HKDF with the info of `WAPatchIntegrity` -/
  patchIntegrity : Bytes → Hash
  /-- HKDF with the info "WhatsApp Mutation Keys" -/
  mutationKeys : Bytes → { bs : Bytes // bs.length = 160 }
  hmacSHA256 : Bytes → Bytes → { bs : Bytes // bs.length = 32 }
  hmacSHA512 : Bytes → Bytes → { bs : Bytes // bs.length = 64 }
  aes : Bytes → BlockCipher
  unmarshalSyncActionData : Bytes → Option SyncActionData
  marshalSyncActionData : SyncActionData → Option Bytes
  unmarshalIndex : Bytes → Option (List String)
  marshalIndex : List String → Bytes

structure World where
  /-- the tables of the collection -/
  db : AppStateDB
  /-- base64 is injective, so the cache is keyed by the key ID -/
  keyCache : List (Bytes × ExpandedAppStateKeys)
  /-- `GetAppStateSyncKey`: the key data if the key store has it; `none` when the lookup fails -/
  syncKeys : Bytes → Option (Option Bytes)

abbrev Proc := Go World AppStateError

def wrap {α : Type} (c : Context) (x : Proc α) : Proc α := x.mapErr (.wrap c)

/-! ## Keys -/

variable (E : Env)

def expandAppStateKeys (keyData : Bytes) : ExpandedAppStateKeys :=
  let expanded := (E.mutationKeys keyData).1
  let part := fun i => (expanded.drop (32 * i)).take 32
  ⟨part 0, part 1, part 2, part 3, part 4⟩

def getAppStateKey (keyID : Bytes) : Proc ExpandedAppStateKeys := do
  let w ← Go.get
  match w.keyCache.lookup keyID with
  | some keys => pure keys
  | none =>
    match w.syncKeys keyID with
    | none => Go.throw .keyStore
    | some none => Go.throw .keyNotFound
    | some (some keyData) => do
      let keys := expandAppStateKeys E keyData
      Go.modify fun w => { w with keyCache := (keyID, keys) :: w.keyCache }
      pure keys

/-! ## Hashes -/

/-- `value[len(value)-32:]` -/
def valueMACOf (value : Bytes) : Proc Bytes := Slice.since value ((value.length : ℤ) - 32)

/-- what `updateHash` collects -/
structure HashDelta where
  added : List Bytes
  removed : List Bytes
  /-- index MACs of removals without a previous value -/
  warnings : List Bytes
deriving DecidableEq, Repr

/-- a SET adds its value MAC -/
def HashDelta.add (d : HashDelta) (mutation : SyncdMutation) : Proc HashDelta :=
  match mutation.operation with
  | .SET => do
    let value ← valueMACOf mutation.record.value
    pure { d with added := d.added ++ [value] }
  | .REMOVE => pure d

def HashDelta.noRemoval (d : HashDelta) (mutation : SyncdMutation) : HashDelta :=
  match mutation.operation with
  | .SET => d
  | .REMOVE => { d with warnings := d.warnings ++ [mutation.record.index] }

def updateHashLoop (getPrevSetValueMAC : Bytes → ℕ → Proc (Option Bytes)) :
    ℕ → List SyncdMutation → HashDelta → Proc HashDelta
  | _, [], d => pure d
  | i, mutation :: mutations, d => do
    let d ← d.add mutation
    let removal ← wrap .previousValueMAC (getPrevSetValueMAC mutation.record.index i)
    match removal with
    | some removal => updateHashLoop getPrevSetValueMAC (i + 1) mutations { d with removed := d.removed ++ [removal] }
    | none => updateHashLoop getPrevSetValueMAC (i + 1) mutations (d.noRemoval mutation)

def updateHash (hs : HashState) (mutations : List SyncdMutation)
    (getPrevSetValueMAC : Bytes → ℕ → Proc (Option Bytes)) : Proc (HashState × List Bytes) := do
  let d ← updateHashLoop getPrevSetValueMAC 0 mutations ⟨[], [], []⟩
  pure ({ hs with hash := subtractThenAdd E.patchIntegrity hs.hash d.removed d.added }, d.warnings)

def uint64ToBytes (val : ℕ) : Bytes := beBytes 8 val

def generateSnapshotMAC (hs : HashState) (name key : Bytes) : Bytes :=
  (E.hmacSHA256 key (hs.hash.1 ++ uint64ToBytes hs.version ++ name)).1

/-- the value MACs of all mutations, in order -/
def valueMACs : List SyncdMutation → Proc (List Bytes)
  | [] => pure []
  | mutation :: mutations => do
    let value ← valueMACOf mutation.record.value
    let rest ← valueMACs mutations
    pure (value :: rest)

def generatePatchMAC (patch : SyncdPatch) (name key : Bytes) (version : ℕ) : Proc Bytes := do
  let values ← valueMACs patch.mutations
  pure (E.hmacSHA256 key (patch.snapshotMAC ++ values.flatten ++ uint64ToBytes version ++ name)).1

/-- the byte that stands for the operation in the content MAC -/
def Operation.byte : Operation → UInt8
  | .SET => 1
  | .REMOVE => 2

def generateContentMAC (operation : Operation) (data keyID key : Bytes) : Bytes :=
  (E.hmacSHA512 key ([operation.byte] ++ keyID ++ data ++ uint64ToBytes (keyID.length + 1))).1.take 32

/-! ## Store calls -/

variable (F : Faults)

def getAppStateMutationMAC (i : ℕ) (indexMAC : Bytes) : Proc (Option Bytes) :=
  if F (.getAppStateMutationMAC i) then Go.throw (.store (.getAppStateMutationMAC i))
  else do
    let w ← Go.get
    pure (w.db.getAppStateMutationMAC indexMAC)

def putAppStateVersion (st : HashState) : Proc Unit :=
  if F .putAppStateVersion then Go.throw (.store .putAppStateVersion)
  else Go.modify fun w => { w with db := w.db.putAppStateVersion st }

/-- no call for an empty list -/
def deleteAppStateMutationMACs (indexMACs : List Bytes) : Proc Unit :=
  if indexMACs = [] then pure ()
  else if F .deleteAppStateMutationMACs then Go.throw (.store .deleteAppStateMutationMACs)
  else Go.modify fun w => { w with db := w.db.deleteAppStateMutationMACs indexMACs }

/-- no call for an empty list; a violated constraint is an error of the call -/
def putAppStateMutationMACs (version : ℕ) (mutations : List AppStateMutationMAC) : Proc Unit :=
  if mutations = [] then pure ()
  else if F .putAppStateMutationMACs then Go.throw (.store .putAppStateMutationMACs)
  else do
    let w ← Go.get
    match w.db.putAppStateMutationMACs version mutations with
    | none => Go.throw (.store .putAppStateMutationMACs)
    | some db => Go.modify fun w => { w with db := db }

/-! ## Decoding -/

structure PatchOutput where
  removedMACs : List Bytes
  addedMACs : List AppStateMutationMAC
  mutations : List Mutation
deriving DecidableEq, Repr

/-- also takes back what was added for the index earlier in the patch -/
def PatchOutput.removeMAC (out : PatchOutput) (indexMAC : Bytes) : PatchOutput :=
  { out with
    removedMACs := out.removedMACs ++ [indexMAC]
    addedMACs := out.addedMACs.filter fun mac => mac.indexMAC ≠ indexMAC }

def PatchOutput.addMAC (out : PatchOutput) (indexMAC valueMAC : Bytes) : PatchOutput :=
  { out with addedMACs := out.addedMACs ++ [⟨indexMAC, valueMAC⟩] }

/-- what `decodeMutation` returns -/
structure DecodedMutation where
  indexMAC : Bytes
  valueMAC : Bytes
  index : List String
  syncAction : SyncActionData
deriving DecidableEq, Repr

def decodeMutation (mutation : SyncdMutation) (i : ℕ) (validateMACs : Bool) : Proc DecodedMutation := do
  let keyID := mutation.record.keyID.getD []
  let keys ← wrap (.getKeyToDecode keyID) (getAppStateKey E keyID)
  let blob := mutation.record.value
  let content ← Slice.upTo blob ((blob.length : ℤ) - 32)
  let valueMAC ← valueMACOf blob
  if validateMACs ∧ generateContentMAC E mutation.operation content keyID keys.valueMAC ≠ valueMAC then
    Go.throw (.wrap (.verifyMutation (i + 1)) .mismatchingContentMAC)
  else do
    let iv ← Slice.upTo content 16
    let content ← Slice.since content 16
    let plaintext ← (decrypt E.aes keys.valueEncryption iv content).mapErr fun e =>
      AppStateError.wrap (.decryptMutation (i + 1)) (.cbc e)
    match E.unmarshalSyncActionData plaintext with
    | none => Go.throw (.wrap (.unmarshalMutation (i + 1)) .protobuf)
    | some syncAction =>
      let indexMAC := mutation.record.index
      if validateMACs ∧ (E.hmacSHA256 keys.index syncAction.index).1 ≠ indexMAC then
        Go.throw (.wrap (.verifyMutation (i + 1)) .mismatchingIndexMAC)
      else match E.unmarshalIndex syncAction.index with
        | none => Go.throw (.wrap (.unmarshalIndex (i + 1)) .json)
        | some index => pure ⟨indexMAC, valueMAC, index, syncAction⟩

def indexMACToArray (indexMAC : Bytes) : Bytes := if indexMAC.length ≠ 32 then List.replicate 32 0 else indexMAC

/-- the MACs of a removal, with the alternative index the caller names for it -/
def PatchOutput.removeMACs (out : PatchOutput) (fakeIndexesToRemove : List (Bytes × Bytes)) (indexMAC : Bytes) :
    PatchOutput :=
  let out := out.removeMAC indexMAC
  match fakeIndexesToRemove.lookup (indexMACToArray indexMAC) with
  | some altIndexMAC => if indexMAC.length = 32 then out.removeMAC altIndexMAC else out
  | none => out

/-- the output after one decoded mutation -/
def PatchOutput.record (out : PatchOutput) (fakeIndexesToRemove : List (Bytes × Bytes)) (mutation : SyncdMutation)
    (d : DecodedMutation) (patchVersion : ℕ) : PatchOutput :=
  let out := match mutation.operation with
    | .REMOVE => out.removeMACs fakeIndexesToRemove d.indexMAC
    | .SET => out.addMAC d.indexMAC d.valueMAC
  { out with
    mutations := out.mutations ++ [⟨mutation.record.keyID, mutation.operation, d.syncAction.value, d.syncAction.version,
      d.index, d.indexMAC, d.valueMAC, patchVersion⟩] }

def decodeMutationsLoop (validateMACs : Bool) (patchVersion : ℕ) (fakeIndexesToRemove : List (Bytes × Bytes)) :
    ℕ → List SyncdMutation → PatchOutput → Proc PatchOutput
  | _, [], out => pure out
  | i, mutation :: mutations, out => do
    let d ← decodeMutation E mutation i validateMACs
    decodeMutationsLoop validateMACs patchVersion fakeIndexesToRemove (i + 1) mutations
      (out.record fakeIndexesToRemove mutation d patchVersion)

def decodeMutations (mutations : List SyncdMutation) (out : PatchOutput) (validateMACs : Bool) (patchVersion : ℕ)
    (fakeIndexesToRemove : List (Bytes × Bytes)) : Proc PatchOutput :=
  decodeMutationsLoop E validateMACs patchVersion fakeIndexesToRemove 0 mutations out

def storeMACs (currentState : HashState) (out : PatchOutput) : Proc Unit := do
  wrap .updateVersion (putAppStateVersion F currentState)
  wrap .removeMACs (deleteAppStateMutationMACs F out.removedMACs)
  wrap .insertMACs (putAppStateMutationMACs F currentState.version out.addedMACs)

def validateSnapshotMAC (name : Bytes) (currentState : HashState) (keyID expectedSnapshotMAC : Bytes) :
    Proc ExpandedAppStateKeys := do
  let keys ← wrap (.getKeyToVerify keyID currentState.version) (getAppStateKey E keyID)
  if generateSnapshotMAC E currentState name keys.snapshotMAC ≠ expectedSnapshotMAC then
    Go.throw (.wrap (.verifyPatch currentState.version) .mismatchingLTHash)
  else pure keys

/-- the MAC check of a snapshot, if asked for -/
def verifySnapshot (name : Bytes) (ss : SyncdSnapshot) (currentState : HashState) (validateMACs : Bool) : Proc Unit :=
  if validateMACs then do
    let _ ← wrap .verifySnapshot (validateSnapshotMAC E name currentState (ss.keyID.getD []) ss.mac)
    pure ()
  else pure ()

/-- `decodeSnapshot` up to the store calls: the new state and what to store -/
def prepareSnapshot (name : Bytes) (ss : SyncdSnapshot) (initialState : HashState) (validateMACs : Bool)
    (newMutationsInput : List Mutation) : Proc (HashState × PatchOutput) := do
  let encryptedMutations := ss.records.map fun record => (⟨.SET, record⟩ : SyncdMutation)
  let (currentState, _) ← wrap .updateStateHash
    (updateHash E { initialState with version := ss.version } encryptedMutations fun _ _ => pure none)
  verifySnapshot E name ss currentState validateMACs
  let out ← wrap (.decodeSnapshot currentState.version)
    (decodeMutations E encryptedMutations ⟨[], [], newMutationsInput⟩ validateMACs currentState.version [])
  pure (currentState, out)

/-- the loop over the earlier mutations of the patch, from the one before `maxIndex` down: the outer option says whether
the index was found -/
def searchPatch (mutations : List SyncdMutation) (indexMAC : Bytes) : ℕ → Proc (Option (Option Bytes))
  | 0 => pure none
  | i + 1 =>
    match mutations[i]? with
    | none => Go.crash
    | some mutation =>
      if mutation.record.index = indexMAC then
        match mutation.operation with
        | .SET => do
          let value ← valueMACOf mutation.record.value
          pure (some (some value))
        | .REMOVE => pure (some none)
      else searchPatch mutations indexMAC i

/-- the value that a mutation replaces: from the patch itself, else from the database -/
def prevSetValueMAC (patch : SyncdPatch) (indexMAC : Bytes) (maxIndex : ℕ) : Proc (Option Bytes) := do
  let found ← searchPatch patch.mutations indexMAC maxIndex
  match found with
  | some prev => pure prev
  | none => getAppStateMutationMAC F maxIndex indexMAC

def validatePatch (name : Bytes) (patch : SyncdPatch) (currentState : HashState) (validateMACs : Bool) :
    Proc HashState := do
  let (newState, _) ← wrap .updateStateHash
    (updateHash E { currentState with version := patch.version } patch.mutations (prevSetValueMAC F patch))
  if validateMACs then do
    let keys ← validateSnapshotMAC E name newState (patch.keyID.getD []) patch.snapshotMAC
    let patchMAC ← generatePatchMAC E patch name keys.patchMAC patch.version
    if patchMAC ≠ patch.patchMAC then Go.throw (.wrap (.verifyPatch patch.version) .mismatchingPatchMAC)
    else pure newState
  else pure newState

/-- one round of the loop of `DecodePatches` up to the store calls -/
def preparePatch (name : Bytes) (patch : SyncdPatch) (currentState : HashState) (validateMACs : Bool)
    (newMutations : List Mutation) : Proc (HashState × PatchOutput) := do
  let newState ← validatePatch E F name patch currentState validateMACs
  let out ← decodeMutations E patch.mutations ⟨[], [], newMutations⟩ validateMACs newState.version []
  pure (newState, out)

/-- store what was prepared -/
def storePrepared (r : HashState × PatchOutput) : Proc (HashState × List Mutation) := do
  storeMACs F r.1 r.2
  pure (r.1, r.2.mutations)

def decodeSnapshot (name : Bytes) (ss : SyncdSnapshot) (initialState : HashState) (validateMACs : Bool)
    (newMutationsInput : List Mutation) : Proc (HashState × List Mutation) :=
  prepareSnapshot E name ss initialState validateMACs newMutationsInput >>= storePrepared F

def decodePatch (name : Bytes) (patch : SyncdPatch) (currentState : HashState) (validateMACs : Bool)
    (newMutations : List Mutation) : Proc (HashState × List Mutation) :=
  preparePatch E F name patch currentState validateMACs newMutations >>= storePrepared F

/-- the patches in order; `n` counts the snapshot and the patches done, for the store faults of each -/
def decodePatchLoop (faults : ℕ → Faults) (name : Bytes) (validateMACs : Bool) :
    ℕ → List SyncdPatch → HashState × List Mutation → Proc (HashState × List Mutation)
  | _, [], r => pure r
  | n, patch :: patches, r => do
    let r ← decodePatch E (faults n) name patch r.1 validateMACs r.2
    decodePatchLoop faults name validateMACs (n + 1) patches r

/-- the state to apply the patches to: after the snapshot, if there is one -/
def decodeStart (faults : ℕ → Faults) (list : PatchList) (initialState : HashState) (validateMACs : Bool) :
    Proc (HashState × List Mutation) :=
  match list.snapshot with
  | none => pure (initialState, [])
  | some ss => decodeSnapshot E (faults 0) list.name ss initialState validateMACs []

def decodePatches (faults : ℕ → Faults) (list : PatchList) (initialState : HashState) (validateMACs : Bool) :
    Proc (HashState × List Mutation) := do
  let r ← decodeStart E faults list initialState validateMACs
  decodePatchLoop E faults list.name validateMACs 1 list.patches r

end Hypermeow.AppState
