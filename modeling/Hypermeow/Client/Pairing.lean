/-
Pairing a device (`handlePair` in `pair.go`, `remoteDeviceSignature` in `remote_signal.go`, `Save` and `Delete` of
`store/store.go`, `PutDevice` and `DeleteDevice` of `store/sqlstore/container.go`).

The server sends a signed identity for the device. The client checks the HMAC and the account signature, signs the identity
itself (or has it signed by a remote store), sets the fields of the device in memory and saves it, gives the remote store its
JIDs, stores the identity of the main device and confirms. Each of these steps can fail. The later ones are undone by `Delete`,
which removes the row and clears the ID in memory.

Model: methods on a world of the device, the device table, the stored identities and the stanzas that were sent. Parsing,
cryptography, callbacks and the failures of calls are given by an `Env`. The table is keyed by the text of the JID; an empty
JID is NULL, which one of the two databases accepts as a key and which no DELETE finds. A statement that fails changes nothing.
-/
import Hypermeow.Lib.Go
import Hypermeow.Types.ParseJID

namespace Hypermeow.Client.Pairing

open Lib Types Go List

/-! ## Messages, device and table -/

/-- `ADVSignedDeviceIdentityHMAC` -/
structure Container where
  details : Bytes
  hmac : Bytes
  isHosted : Bool
deriving DecidableEq, Repr

/-- `ADVSignedDeviceIdentity` -/
structure SignedIdentity where
  details : Bytes
  accountSignatureKey : Bytes
  accountSignature : Bytes
  deviceSignature : Bytes
deriving DecidableEq, Repr

/-- `ADVDeviceIdentity` -/
structure IdentityDetails where
  keyIndex : ℕ
  isHosted : Bool
deriving DecidableEq, Repr

/-- what `handlePair` is called with -/
structure Payload where
  deviceIdentityBytes : Bytes
  reqID : Bytes
  businessName : Bytes
  platform : Bytes
  jid : JID
  lid : JID
deriving DecidableEq, Repr

/-- the keys that a device is created with -/
structure DeviceKeys where
  identityPub : Bytes
  identityPriv : Bytes
  advSecretKey : Bytes
  /-- noise key, signed prekey, registration ID -/
  others : Bytes
deriving DecidableEq, Repr

structure Device where
  id : Option JID
  lid : JID
  businessName : Bytes
  platform : Bytes
  account : Option SignedIdentity
  keys : DeviceKeys
  deleted : Bool
  initialized : Bool
deriving DecidableEq, Repr

/-- a row of `whatsmeow_device` -/
structure DeviceRow where
  jid : Option Bytes
  lid : JID
  businessName : Bytes
  platform : Bytes
  account : Option SignedIdentity
  keys : DeviceKeys
deriving DecidableEq, Repr

inductive Stanza where
  | pairError (id : Bytes) (code : ℕ) (text : Bytes)
  | pairDeviceSign (id : Bytes) (keyIndex : ℕ) (deviceIdentity : Bytes)
deriving DecidableEq, Repr

structure World where
  device : Device
  rows : List DeviceRow
  identities : List (Bytes × Bytes)
  lidMappings : List (JID × JID)
  sent : List Stanza
  expectedDisconnect : Bool
  paired : Bool
deriving DecidableEq, Repr

inductive SaveError where
  | context
  | deviceDeleted
  | idMustBeSet
  | statement
deriving DecidableEq, Repr

inductive RemoteError where
  | refused
  | parse
  | differentDetails
  | signatureLength (n : ℕ)
  | doesNotVerify
deriving DecidableEq, Repr

inductive PairError where
  | parseContainer
  | invalidHMAC
  | parseIdentity
  | parseDetails
  | invalidSignature
  | remote (e : RemoteError)
  | rejectedLocally
  | marshal
  | saveDevice (e : SaveError)
  | setOwnJIDs
  | storeIdentity
  | sendConfirmation
deriving DecidableEq, Repr

/-- the remote Signal store -/
structure RemoteSignal where
  signPairing : Bytes → Option Bytes
  setOwnJIDsFails : JID → JID → Bool

structure Env where
  unmarshalContainer : Bytes → Option Container
  unmarshalIdentity : Bytes → Option SignedIdentity
  unmarshalDetails : Bytes → Option IdentityDetails
  marshalIdentity : SignedIdentity → Option Bytes
  hmacSHA256 : (key data : Bytes) → Bytes
  verifySignature : (key message signature : Bytes) → Bool
  calculateSignature : (key message : Bytes) → Bytes
  /-- `PrePairCallback` -/
  prePairCallback : Option (JID → Bytes → Bytes → Bool)
  remoteSignal : Option RemoteSignal
  /-- the context is done when `Save` takes the lock -/
  saveContextDone : Bool
  insertFails : DeviceRow → Bool
  /-- does a NULL pass as primary key? -/
  acceptsNull : Bool
  deleteFails : Bool
  putIdentityFails : Bytes → Bytes → Bool
  putLIDMappingFails : Bool
  sendFails : Stanza → Bool

def advAccountSignaturePrefix : Bytes := [6, 0]
def advDeviceSignaturePrefix : Bytes := [6, 1]
def advHostedAccountSignaturePrefix : Bytes := [6, 5]

section

variable (env : Env)

/-! ## Checks -/

def verifyAccountSignature (identity : SignedIdentity) (keys : DeviceKeys) (isHosted : Bool) : Bool :=
  if identity.accountSignatureKey.length ≠ 32 ∨ identity.accountSignature.length ≠ 64 then false
  else env.verifySignature identity.accountSignatureKey
    ((if isHosted then advHostedAccountSignaturePrefix else advAccountSignaturePrefix) ++ identity.details ++
      keys.identityPub) identity.accountSignature

/-- the message that the device signs -/
def deviceMessage (identity : SignedIdentity) (keys : DeviceKeys) : Bytes :=
  advDeviceSignaturePrefix ++ identity.details ++ keys.identityPub ++ identity.accountSignatureKey

def generateDeviceSignature (identity : SignedIdentity) (keys : DeviceKeys) : Bytes :=
  env.calculateSignature keys.identityPriv (deviceMessage identity keys)

def remoteDeviceSignature (remote : RemoteSignal) (container : Bytes) (verified : SignedIdentity) (keys : DeviceKeys) :
    Except RemoteError Bytes :=
  match remote.signPairing container with
  | none => .error .refused
  | some signed =>
    match env.unmarshalIdentity signed with
    | none => .error .parse
    | some identity =>
      if identity.details ≠ verified.details then .error .differentDetails
      else if identity.deviceSignature.length ≠ 64 then .error (.signatureLength identity.deviceSignature.length)
      else if !env.verifySignature keys.identityPub (deviceMessage verified keys) identity.deviceSignature then
        .error .doesNotVerify
      else .ok identity.deviceSignature

/-- an error, and what the server is told -/
structure Refusal where
  error : PairError
  code : ℕ
  text : Bytes
deriving DecidableEq, Repr

def internalError (e : PairError) : Refusal := ⟨e, 500, ascii "internal-error"⟩

/-- the device's own signature -/
def deviceSignature (p : Payload) (identity : SignedIdentity) (keys : DeviceKeys) : Except RemoteError Bytes :=
  match env.remoteSignal with
  | some remote => remoteDeviceSignature env remote p.deviceIdentityBytes identity keys
  | none => .ok (generateDeviceSignature env identity keys)

/-- the checks of `handlePair` up to the callback; the identity comes with the signature of the device -/
def checkPairing (p : Payload) (keys : DeviceKeys) : Except Refusal (SignedIdentity × IdentityDetails) :=
  match env.unmarshalContainer p.deviceIdentityBytes with
  | none => .error (internalError .parseContainer)
  | some container =>
    let hosted := if container.isHosted then advHostedAccountSignaturePrefix else []
    if env.hmacSHA256 keys.advSecretKey (hosted ++ container.details) ≠ container.hmac then
      .error ⟨.invalidHMAC, 401, ascii "hmac-mismatch"⟩
    else match env.unmarshalIdentity container.details with
      | none => .error (internalError .parseIdentity)
      | some identity =>
        match env.unmarshalDetails identity.details with
        | none => .error (internalError .parseDetails)
        | some details =>
          if !verifyAccountSignature env identity keys details.isHosted then
            .error ⟨.invalidSignature, 401, ascii "signature-mismatch"⟩
          else match deviceSignature env p identity keys with
            | .error e => .error (internalError (.remote e))
            | .ok signature =>
              if (env.prePairCallback.map fun callback => callback p.jid p.platform p.businessName) = some false then
                .error (internalError .rejectedLocally)
              else .ok ({ identity with deviceSignature := signature }, details)

/-! ## The device store -/

def Device.row (device : Device) (id : JID) : DeviceRow :=
  ⟨id.value, device.lid, device.businessName, device.platform, device.account, device.keys⟩

/-- the insert; a row with the same key keeps its keys and account -/
def upsert (rows : List DeviceRow) (r : DeviceRow) : List DeviceRow :=
  if r.jid ≠ none ∧ r.jid ∈ rows.map DeviceRow.jid then
    rows.map fun row =>
      if row.jid = r.jid then { row with lid := r.lid, businessName := r.businessName, platform := r.platform } else row
  else rows ++ [r]

def putDevice : Go World SaveError Unit := do
  let w ← Go.get
  match w.device.id with
  | none => Go.throw .idMustBeSet
  | some id => do
    -- the stores are set also when the statement fails
    Go.modify fun w => { w with device := { w.device with initialized := true } }
    let r := w.device.row id
    if env.insertFails r ∨ (r.jid = none ∧ env.acceptsNull = false) then Go.throw .statement
    else Go.modify fun w => { w with rows := upsert w.rows r }

def save : Go World SaveError Unit := do
  let w ← Go.get
  if env.saveContextDone then Go.throw .context
  else if w.device.deleted then Go.throw .deviceDeleted
  else putDevice env

/-- `jid=$1` is not true for a NULL -/
def deleteRows (rows : List DeviceRow) (id : JID) : List DeviceRow :=
  match id.value with
  | some text => rows.filter fun row => row.jid ≠ some text
  | none => rows

def delete : Go World Unit Unit := do
  let w ← Go.get
  if env.deleteFails then Go.throw ()
  else if w.device.deleted then pure ()
  else match w.device.id with
    | none => Go.throw ()
    | some id => Go.modify fun w =>
      { w with rows := deleteRows w.rows id, device := { w.device with id := none, lid := emptyJID, deleted := true } }

/-! ## Pairing -/

def sendNode (s : Stanza) : Go World Unit Unit :=
  if env.sendFails s then Go.throw () else Go.modify fun w => { w with sent := w.sent ++ [s] }

/-- a failure to send is logged -/
def sendPairError (id : Bytes) (code : ℕ) (text : Bytes) : Go World PairError Unit := do
  let _ ← (sendNode env (.pairError id code text)).attempt
  pure ()

/-- failures are logged -/
def storeLIDPNMapping (first second : JID) : Go World PairError Unit :=
  if first.server = hiddenUserServer ∧ second.server = defaultUserServer ∧ env.putLIDMappingFails = false then
    Go.modify fun w => { w with lidMappings := w.lidMappings ++ [(first, second)] }
  else if first.server = defaultUserServer ∧ second.server = hiddenUserServer ∧ env.putLIDMappingFails = false then
    Go.modify fun w => { w with lidMappings := w.lidMappings ++ [(second, first)] }
  else pure ()

def setOwnJIDs (jid lid : JID) : Go World Unit Unit :=
  match env.remoteSignal with
  | some remote => if remote.setOwnJIDsFails jid lid then Go.throw () else pure ()
  | none => pure ()

def putIdentity (address key : Bytes) : Go World Unit Unit :=
  if env.putIdentityFails address key then Go.throw ()
  else Go.modify fun w => { w with identities := w.identities ++ [(address, key)] }

/-- the server is told about an internal error, unless it could not be reached -/
def reportError (id : Bytes) (report : Bool) : Go World PairError Unit :=
  if report then sendPairError env id 500 (ascii "internal-error") else pure ()

/-- a step after which the device is deleted when it fails -/
def orUndo (p : Payload) (report : Bool) (e : PairError) (x : Go World Unit Unit) : Go World PairError Unit := do
  match ← x.attempt with
  | .ok () => pure ()
  | .error () => do
    let _ ← (delete env).attempt
    reportError env p.reqID report
    Go.throw e

/-- the address of the user's main device -/
def mainDeviceAddress (p : Payload) : Bytes := ({ p.lid with device := 0 } : JID).signalAddress.string

/-- the steps after the device is saved -/
def confirmPair (p : Payload) (identity : SignedIdentity) (details : IdentityDetails) (selfSigned : Bytes) :
    Go World PairError Unit := do
  storeLIDPNMapping env p.lid p.jid
  orUndo env p true .setOwnJIDs (setOwnJIDs env p.jid p.lid)
  orUndo env p true .storeIdentity (putIdentity env (mainDeviceAddress p) identity.accountSignatureKey)
  Go.modify fun w => { w with expectedDisconnect := true, paired := true }
  orUndo env p false .sendConfirmation (sendNode env (.pairDeviceSign p.reqID details.keyIndex selfSigned))

/-- the fields that pairing sets -/
def Device.assign (device : Device) (p : Payload) : Device :=
  { device with id := some p.jid, lid := p.lid, businessName := p.businessName, platform := p.platform }

def savePair (p : Payload) (identity : SignedIdentity) (details : IdentityDetails) (selfSigned : Bytes) :
    Go World PairError Unit := do
  Go.modify fun w => { w with device := w.device.assign p }
  match ← (save env).attempt with
  | .error e => do
    -- the fields stay as they are
    reportError env p.reqID true
    Go.throw (.saveDevice e)
  | .ok () => confirmPair env p identity details selfSigned

def handlePair (p : Payload) : Go World PairError Unit := do
  let w ← Go.get
  match checkPairing env p w.device.keys with
  | .error r => do
    sendPairError env p.reqID r.code r.text
    Go.throw r.error
  | .ok (identity, details) => do
    Go.modify fun w => { w with device := { w.device with account := some identity } }
    match env.marshalIdentity { identity with accountSignatureKey := [] } with
    | none => do
      reportError env p.reqID true
      Go.throw .marshal
    | some selfSigned => savePair env p identity details selfSigned

end

variable {env : Env} {p : Payload} {w w₁ : World} {identity : SignedIdentity} {details : IdentityDetails}
  {selfSigned : Bytes}

/-! ## What the steps do -/

/-- only the list of sent stanzas changes -/
theorem sendPairError_run (env : Env) (id : Bytes) (code : ℕ) (text : Bytes) (w : World) :
    ∃ sent, sendPairError env id code text w = (.ok (), { w with sent := sent }) := by
  by_cases h : env.sendFails (.pairError id code text) = true
  · exact ⟨w.sent, by simp [sendPairError, sendNode, h, bind_run, Go.attempt]⟩
  · exact ⟨w.sent ++ [.pairError id code text], by simp [sendPairError, sendNode, h, bind_run, Go.attempt]⟩

theorem reportError_run (env : Env) (id : Bytes) (report : Bool) (w : World) :
    ∃ sent, reportError env id report w = (.ok (), { w with sent := sent }) := by
  cases report with
  | true => exact sendPairError_run env id 500 (ascii "internal-error") w
  | false => exact ⟨w.sent, rfl⟩

theorem orUndo_of_ok {report : Bool} {e : PairError} {x : Go World Unit Unit} (h : x w = (.ok (), w₁)) :
    orUndo env p report e x w = (.ok (), w₁) :=
  bind_ok (attempt_eq_ok.2 h)

/-- a failed step leaves no ID, and no row that a DELETE finds -/
theorem orUndo_of_err (p : Payload) (report : Bool) (e : PairError) {x : Go World Unit Unit} {jid : JID}
    (h : x w = (.err (), w₁)) (hdelete : env.deleteFails = false) (hdeleted : w₁.device.deleted = false) (hid : w₁.device.id = some jid) :
    ∃ w', orUndo env p report e x w = (.err e, w') ∧ w'.device.id = none ∧ w'.rows = deleteRows w₁.rows jid := by
  set w₂ : World := { w₁ with
    rows := deleteRows w₁.rows jid, device := { w₁.device with id := none, lid := emptyJID, deleted := true } } with hw₂
  have hdel : (delete env).attempt w₁ = ((.ok (.ok ()) : Outcome PairError (Except Unit Unit)), w₂) := by
    simp [Go.attempt, delete, bind_run, hdelete, hdeleted, hid, hw₂]
  obtain ⟨sent, hreport⟩ := reportError_run env p.reqID report w₂
  refine ⟨{ w₂ with sent := sent }, ?_, rfl, rfl⟩
  refine (bind_ok (attempt_eq_error.2 h)).trans ?_
  exact (bind_ok hdel).trans ((bind_ok hreport).trans rfl)

theorem putIdentity_err {address key : Bytes} (h : env.putIdentityFails address key = true) (w : World) :
    putIdentity env address key w = (.err (), w) := by
  rw [putIdentity, h]
  rfl

theorem putIdentity_ok {address key : Bytes} (h : env.putIdentityFails address key = false) (w : World) :
    putIdentity env address key w = (.ok (), { w with identities := w.identities ++ [(address, key)] }) := by
  rw [putIdentity, h]
  rfl

theorem sendNode_err {s : Stanza} (h : env.sendFails s = true) (w : World) : sendNode env s w = (.err (), w) := by
  rw [sendNode, h]
  rfl

theorem sendNode_ok {s : Stanza} (h : env.sendFails s = false) (w : World) :
    sendNode env s w = (.ok (), { w with sent := w.sent ++ [s] }) := by
  rw [sendNode, h]
  rfl

theorem storeLIDPNMapping_run (env : Env) (first second : JID) (w : World) :
    ∃ mappings, storeLIDPNMapping env first second w = (.ok (), { w with lidMappings := mappings }) := by
  unfold storeLIDPNMapping
  split_ifs
  · exact ⟨_, rfl⟩
  · exact ⟨_, rfl⟩
  · exact ⟨w.lidMappings, rfl⟩

/-! ## Where pairing can fail -/

/-- the checks pass, and the identity can be encoded -/
def Accepted (env : Env) (p : Payload) (keys : DeviceKeys) (identity : SignedIdentity) (details : IdentityDetails)
    (selfSigned : Bytes) : Prop :=
  checkPairing env p keys = .ok (identity, details) ∧
    env.marshalIdentity { identity with accountSignatureKey := [] } = some selfSigned

/-- the row that is saved for an accepted device -/
def pairedRow (device : Device) (p : Payload) (identity : SignedIdentity) : DeviceRow :=
  ⟨p.jid.value, p.lid, p.businessName, p.platform, some identity, device.keys⟩

/-- the device cannot be saved -/
def SaveFails (env : Env) (p : Payload) (device : Device) (identity : SignedIdentity) : Prop :=
  env.saveContextDone = true ∨ device.deleted = true ∨ env.insertFails (pairedRow device p identity) = true ∨
    (p.jid.value = none ∧ env.acceptsNull = false)

/-- one of the three steps after saving fails -/
def FailsAfterSave (env : Env) (p : Payload) (identity : SignedIdentity) (details : IdentityDetails) (selfSigned : Bytes) :
    Prop :=
  (∃ remote, env.remoteSignal = some remote ∧ remote.setOwnJIDsFails p.jid p.lid = true) ∨
    env.putIdentityFails (mainDeviceAddress p) identity.accountSignatureKey = true ∨
    env.sendFails (.pairDeviceSign p.reqID details.keyIndex selfSigned) = true

theorem setOwnJIDs_run (env : Env) (p : Payload) (w : World) :
    (∃ remote, env.remoteSignal = some remote ∧ remote.setOwnJIDsFails p.jid p.lid = true) ∧
        setOwnJIDs env p.jid p.lid w = (.err (), w) ∨
      (¬ ∃ remote, env.remoteSignal = some remote ∧ remote.setOwnJIDsFails p.jid p.lid = true) ∧
        setOwnJIDs env p.jid p.lid w = (.ok (), w) := by
  unfold setOwnJIDs
  cases hr : env.remoteSignal with
  | none => exact .inr ⟨by simp, rfl⟩
  | some remote =>
    cases hf : remote.setOwnJIDsFails p.jid p.lid with
    | true => exact .inl ⟨⟨remote, rfl, hf⟩, by simp [hf]⟩
    | false => exact .inr ⟨by simp [hf], by simp [hf]⟩

/-- a failure after saving undoes it -/
theorem confirmPair_err (hfails : FailsAfterSave env p identity details selfSigned) (hdelete : env.deleteFails = false)
    (hdeleted : w.device.deleted = false) (hid : w.device.id = some p.jid) :
    ∃ e w', confirmPair env p identity details selfSigned w = (.err e, w') ∧ w'.device.id = none ∧
      w'.rows = deleteRows w.rows p.jid := by
  obtain ⟨mappings, hmap⟩ := storeLIDPNMapping_run env p.lid p.jid w
  rw [confirmPair, bind_ok hmap]
  set w₁ : World := { w with lidMappings := mappings }
  rcases setOwnJIDs_run env p w₁ with ⟨-, hset⟩ | ⟨hnot, hset⟩
  · obtain ⟨w', hrun, hw'⟩ := orUndo_of_err p true .setOwnJIDs hset hdelete hdeleted hid
    exact ⟨_, w', bind_err hrun, hw'⟩
  · rw [bind_ok (orUndo_of_ok hset)]
    cases hput : env.putIdentityFails (mainDeviceAddress p) identity.accountSignatureKey with
    | true =>
      obtain ⟨w', hrun, hw'⟩ := orUndo_of_err p true .storeIdentity (putIdentity_err hput w₁)
        hdelete hdeleted hid
      exact ⟨_, w', bind_err hrun, hw'⟩
    | false =>
      have hsend : env.sendFails (.pairDeviceSign p.reqID details.keyIndex selfSigned) = true := by
        rcases hfails with h | h | h
        · exact absurd h hnot
        · rw [hput] at h
          cases h
        · exact h
      rw [bind_ok (orUndo_of_ok (putIdentity_ok hput w₁)), modify_bind]
      set w₂ : World := { w₁ with
        identities := w₁.identities ++ [(mainDeviceAddress p, identity.accountSignatureKey)]
        expectedDisconnect := true
        paired := true }
      have hdeleted₂ : w₂.device.deleted = false := hdeleted
      obtain ⟨w', hrun, hw'⟩ := orUndo_of_err p false .sendConfirmation (sendNode_err hsend w₂)
        hdelete hdeleted₂ hid
      exact ⟨_, w', hrun, hw'⟩

/-- without a failure the identity is stored and the confirmation is sent -/
theorem confirmPair_ok (hfails : ¬ FailsAfterSave env p identity details selfSigned) (w : World) :
    ∃ w', confirmPair env p identity details selfSigned w = (.ok (), w') ∧ w'.device = w.device ∧ w'.rows = w.rows ∧
      (mainDeviceAddress p, identity.accountSignatureKey) ∈ w'.identities ∧
      Stanza.pairDeviceSign p.reqID details.keyIndex selfSigned ∈ w'.sent := by
  rw [FailsAfterSave, not_or, not_or, Bool.not_eq_true, Bool.not_eq_true] at hfails
  obtain ⟨hset, hput, hsend⟩ := hfails
  obtain ⟨mappings, hmap⟩ := storeLIDPNMapping_run env p.lid p.jid w
  rw [confirmPair, bind_ok hmap]
  set w₁ : World := { w with lidMappings := mappings }
  rcases setOwnJIDs_run env p w₁ with ⟨h, -⟩ | ⟨-, hown⟩
  · exact absurd h hset
  · rw [bind_ok (orUndo_of_ok hown), bind_ok (orUndo_of_ok (putIdentity_ok hput w₁)),
      modify_bind]
    refine ⟨_, orUndo_of_ok (sendNode_ok hsend _), rfl, rfl, ?_, ?_⟩
    · exact mem_append_right _ (mem_singleton.2 rfl)
    · exact mem_append_right _ (mem_singleton.2 rfl)

/-! ## Saving -/

/-- the device at the moment it is saved -/
def savedDevice (device : Device) (p : Payload) (identity : SignedIdentity) : Device :=
  ({ device with account := some identity } : Device).assign p

/-- the insert fails, or the database does not take the key -/
def StatementFails (env : Env) (r : DeviceRow) : Prop := env.insertFails r = true ∨ (r.jid = none ∧ env.acceptsNull = false)

/-- the world in which the stores of the device are set -/
def World.initialize (w : World) : World := { w with device := { w.device with initialized := true } }

theorem save_run (env : Env) (w : World) :
    save env w = if env.saveContextDone = true then (.err .context, w)
      else if w.device.deleted = true then (.err .deviceDeleted, w) else putDevice env w := by
  rw [save, get_bind]
  split_ifs <;> rfl

theorem putDevice_err {id : JID} (hid : w.device.id = some id) (h : StatementFails env (w.device.row id)) :
    putDevice env w = (.err .statement, w.initialize) := by
  rw [putDevice, get_bind]
  simp only [hid]
  refine (bind_ok (modify_run _ _)).trans ?_
  rw [StatementFails] at h
  rw [if_pos h]
  rfl

theorem putDevice_ok {id : JID} (hid : w.device.id = some id) (h : ¬ StatementFails env (w.device.row id)) :
    putDevice env w = (.ok (), { w.initialize with rows := upsert w.rows (w.device.row id) }) := by
  rw [putDevice, get_bind]
  simp only [hid]
  refine (bind_ok (modify_run _ _)).trans ?_
  rw [StatementFails] at h
  rw [if_neg h]
  rfl

/-- the ID stays when the device cannot be saved -/
theorem save_err (w : World) (hfails : SaveFails env p w.device identity) :
    ∃ e w', save env { w with device := savedDevice w.device p identity } = (.err e, w') ∧ w'.device.id = some p.jid := by
  rw [save_run]
  split_ifs with hctx hd
  · exact ⟨_, _, rfl, rfl⟩
  · exact ⟨_, _, rfl, rfl⟩
  · have hstmt : StatementFails env (pairedRow w.device p identity) := by
      rcases hfails with h | h | h
      · exact absurd h hctx
      · exact absurd h hd
      · exact h
    exact ⟨_, _, putDevice_err rfl hstmt, rfl⟩

theorem save_ok (w : World) (hfails : ¬ SaveFails env p w.device identity) :
    ∃ w', save env { w with device := savedDevice w.device p identity } = (.ok (), w') ∧ w'.device.id = some p.jid ∧
      w'.device.deleted = false ∧ w'.rows = upsert w.rows (pairedRow w.device p identity) := by
  rw [SaveFails, not_or, not_or] at hfails
  obtain ⟨hctx, hd, hstmt⟩ := hfails
  set w₁ : World := { w with device := savedDevice w.device p identity }
  have hput : putDevice env w₁ = (.ok (), { w₁.initialize with rows := upsert w.rows (pairedRow w.device p identity) }) :=
    putDevice_ok rfl hstmt
  have hd₁ : ¬ w₁.device.deleted = true := hd
  have hsave : save env w₁ = putDevice env w₁ := by rw [save_run, if_neg hctx, if_neg hd₁]
  exact ⟨_, hsave.trans hput, rfl, Bool.eq_false_of_not_eq_true hd, rfl⟩

/-! ## All or nothing -/

/-- a device that is not paired, and that nobody has saved under the JID -/
structure Unpaired (p : Payload) (w : World) : Prop where
  id : w.device.id = none
  rows : ∀ row ∈ w.rows, row.jid ≠ p.jid.value

theorem upsert_of_unpaired (h : Unpaired p w) (device : Device) (identity : SignedIdentity) :
    upsert w.rows (pairedRow device p identity) = w.rows ++ [pairedRow device p identity] := by
  rw [upsert, if_neg]
  rintro ⟨-, hmem⟩
  obtain ⟨row, hrow, heq⟩ := mem_map.1 hmem
  exact h.rows row hrow heq

/-- all is done, or nothing is left -/
def AllOrNothing (env : Env) (p : Payload) (w : World) : Prop :=
  match handlePair env p w with
  | (.ok (), w') => ∃ identity details selfSigned, Accepted env p w.device.keys identity details selfSigned ∧
      pairedRow w.device p identity ∈ w'.rows ∧
      (mainDeviceAddress p, identity.accountSignatureKey) ∈ w'.identities ∧
      Stanza.pairDeviceSign p.reqID details.keyIndex selfSigned ∈ w'.sent
  | (.err _, w') => w'.device.id = none ∧ ∀ row ∈ w'.rows, row.jid ≠ p.jid.value
  | (.panic, _) => False

/-- an accepted device is saved, and without a JID nothing fails afterwards -/
def Undoable (env : Env) (p : Payload) (w : World) : Prop :=
  ∀ identity details selfSigned, Accepted env p w.device.keys identity details selfSigned →
    ¬ SaveFails env p w.device identity ∧
      (p.jid.value = none → ¬ FailsAfterSave env p identity details selfSigned)

/-- a payload that is not accepted changes neither the ID nor the table -/
theorem handlePair_of_not_accepted
    (h : ∀ identity details selfSigned, ¬ Accepted env p w.device.keys identity details selfSigned) :
    ∃ e w', handlePair env p w = (.err e, w') ∧ w'.device.id = w.device.id ∧ w'.rows = w.rows := by
  rw [handlePair, get_bind]
  rcases hc : checkPairing env p w.device.keys with r | ⟨identity, details⟩
  · obtain ⟨sent, hsend⟩ := sendPairError_run env p.reqID r.code r.text w
    exact ⟨r.error, { w with sent := sent }, (bind_ok hsend).trans rfl, rfl, rfl⟩
  · rcases hm : env.marshalIdentity { identity with accountSignatureKey := [] } with _ | selfSigned
    · obtain ⟨sent, hsend⟩ := reportError_run env p.reqID true
        { w with device := { w.device with account := some identity } }
      refine ⟨.marshal, { w with device := { w.device with account := some identity }, sent := sent }, ?_, rfl, rfl⟩
      refine (bind_ok (modify_run _ _)).trans ?_
      simp only [hm]
      exact (bind_ok hsend).trans rfl
    · exact absurd ⟨hc, hm⟩ (h identity details selfSigned)

/-- the assignments come before the device is saved -/
theorem handlePair_of_accepted (h : Accepted env p w.device.keys identity details selfSigned) :
    handlePair env p w = (do
      match ← (save env).attempt with
      | .error e => do
        reportError env p.reqID true
        Go.throw (.saveDevice e)
      | .ok () => confirmPair env p identity details selfSigned : Go World PairError Unit)
      { w with device := savedDevice w.device p identity } := by
  rw [handlePair, get_bind, h.1]
  refine (bind_ok (modify_run _ _)).trans ?_
  simp only [h.2]
  exact bind_ok (modify_run _ _)

theorem accepted_unique {identity' : SignedIdentity} {details' : IdentityDetails} {selfSigned' : Bytes} {keys : DeviceKeys}
    (h : Accepted env p keys identity details selfSigned) (h' : Accepted env p keys identity' details' selfSigned') :
    identity' = identity ∧ details' = details ∧ selfSigned' = selfSigned := by
  have hcheck := h.1.symm.trans h'.1
  cases hcheck
  exact ⟨rfl, rfl, Option.some.inj (h'.2.symm.trans h.2)⟩

/-- a device that cannot be saved keeps the ID -/
theorem not_allOrNothing_of_saveFails (haccepted : Accepted env p w.device.keys identity details selfSigned)
    (hfails : SaveFails env p w.device identity) : ¬ AllOrNothing env p w := by
  obtain ⟨e, w', hsave, hid⟩ := save_err w hfails
  obtain ⟨sent, hreport⟩ := reportError_run env p.reqID true w'
  have hrun : handlePair env p w = (.err (.saveDevice e), { w' with sent := sent }) :=
    (handlePair_of_accepted haccepted).trans
      ((bind_ok (attempt_eq_error.2 hsave)).trans ((bind_ok hreport).trans rfl))
  rw [AllOrNothing, hrun]
  rintro ⟨hnone, -⟩
  cases hid.symm.trans hnone

/-- after a device is saved, all depends on the last steps -/
theorem handlePair_of_saved (haccepted : Accepted env p w.device.keys identity details selfSigned)
    (hsaves : ¬ SaveFails env p w.device identity) :
    ∃ w', handlePair env p w = confirmPair env p identity details selfSigned w' ∧ w'.device.id = some p.jid ∧
      w'.device.deleted = false ∧ w'.rows = upsert w.rows (pairedRow w.device p identity) := by
  obtain ⟨w', hsave, hw'⟩ := save_ok w hsaves
  exact ⟨w', (handlePair_of_accepted haccepted).trans (bind_ok (attempt_eq_ok.2 hsave)), hw'⟩

/-- **Pairing is all or nothing** for an unpaired device exactly when an accepted device can be saved and, if its JID is empty,
nothing fails after that. -/
theorem pairing_all_or_nothing_iff (env : Env) (p : Payload) (w : World) (hstart : Unpaired p w)
    (hdelete : env.deleteFails = false) : AllOrNothing env p w ↔ Undoable env p w := by
  by_cases haccepted : ∃ identity details selfSigned, Accepted env p w.device.keys identity details selfSigned
  · obtain ⟨identity, details, selfSigned, haccepted⟩ := haccepted
    have hundoable : Undoable env p w ↔ ¬ SaveFails env p w.device identity ∧
        (p.jid.value = none → ¬ FailsAfterSave env p identity details selfSigned) := by
      refine ⟨fun h => h identity details selfSigned haccepted, fun h identity' details' selfSigned' h' => ?_⟩
      obtain ⟨rfl, rfl, rfl⟩ := accepted_unique haccepted h'
      exact h
    rw [hundoable]
    by_cases hsave : SaveFails env p w.device identity
    · exact iff_of_false (not_allOrNothing_of_saveFails haccepted hsave) fun h => h.1 hsave
    · rw [and_iff_right hsave]
      obtain ⟨w₁, hrun, hid, hdeleted, hrows⟩ := handlePair_of_saved haccepted hsave
      rw [upsert_of_unpaired hstart] at hrows
      by_cases hfails : FailsAfterSave env p identity details selfSigned
      · obtain ⟨e, w', hconfirm, hnone, hrows'⟩ := confirmPair_err hfails hdelete hdeleted hid
        rw [AllOrNothing, hrun, hconfirm]
        rw [hrows, deleteRows] at hrows'
        cases hvalue : p.jid.value with
        | none =>
          -- no DELETE finds the row
          rw [hvalue] at hrows'
          refine iff_of_false (fun h => h.2 (pairedRow w.device p identity) ?_ hvalue) fun h => h rfl hfails
          rw [hrows']
          exact mem_append_right _ (mem_singleton.2 rfl)
        | some text =>
          rw [hvalue] at hrows'
          refine iff_of_true ⟨hnone, fun row hrow => ?_⟩ (by simp)
          rw [hrows'] at hrow
          exact of_decide_eq_true (mem_filter.1 hrow).2
      · obtain ⟨w', hconfirm, -, hrows', hidentity, hsent⟩ := confirmPair_ok hfails w₁
        rw [AllOrNothing, hrun, hconfirm]
        refine iff_of_true ⟨identity, details, selfSigned, haccepted, ?_, hidentity, hsent⟩ fun _ => hfails
        rw [hrows', hrows]
        exact mem_append_right _ (mem_singleton.2 rfl)
  · have hnot : ∀ identity details selfSigned, ¬ Accepted env p w.device.keys identity details selfSigned :=
      fun identity details selfSigned h => haccepted ⟨identity, details, selfSigned, h⟩
    obtain ⟨e, w', hrun, hid, hrows⟩ := handlePair_of_not_accepted hnot
    rw [AllOrNothing, hrun]
    refine iff_of_true ⟨hid.trans hstart.id, ?_⟩ fun identity details selfSigned h => absurd h (hnot _ _ _)
    rw [hrows]
    exact hstart.rows

/-- messages that parse, and signatures that verify; only the given insert and confirmation fail -/
def trustingEnv (insertFails sendFails : Bool) : Env where
  unmarshalContainer _ := some ⟨[], [], false⟩
  unmarshalIdentity _ := some ⟨[], List.replicate 32 1, List.replicate 64 2, []⟩
  unmarshalDetails _ := some ⟨7, false⟩
  marshalIdentity identity := some identity.deviceSignature
  hmacSHA256 _ _ := []
  verifySignature _ _ _ := true
  calculateSignature _ _ := [3]
  prePairCallback := none
  remoteSignal := none
  saveContextDone := false
  insertFails _ := insertFails
  acceptsNull := false
  deleteFails := false
  putIdentityFails _ _ := false
  putLIDMappingFails := false
  sendFails _ := sendFails

def somePayload : Payload :=
  ⟨[], [105], [], [], { user := [49], device := 3, server := defaultUserServer },
    { user := [50], device := 3, server := hiddenUserServer }⟩

def newWorld : World := ⟨⟨none, emptyJID, [], [], none, ⟨[], [], [], []⟩, false, false⟩, [], [], [], [], false, false⟩

theorem unpaired_newWorld : Unpaired somePayload newWorld := ⟨rfl, fun _ h => absurd h not_mem_nil⟩

/-- the confirmation cannot be sent, and nothing is left of the pairing -/
theorem pairing_all_or_nothing_unsent :
    (handlePair (trustingEnv false true) somePayload newWorld).1 = .err .sendConfirmation ∧
      AllOrNothing (trustingEnv false true) somePayload newWorld := by
  refine ⟨by decide +kernel, ?_⟩
  refine (pairing_all_or_nothing_iff (trustingEnv false true) somePayload newWorld unpaired_newWorld rfl).2 ?_
  intro identity details selfSigned _
  refine ⟨?_, fun h => absurd h (by decide)⟩
  rintro (h | h | h | ⟨h, -⟩)
  · cases h
  · cases h
  · cases h
  · exact absurd h (by decide)

/-- **A device that cannot be saved looks paired.** The insert fails, `handlePair` returns an error, and the ID stays. -/
theorem save_failure_keeps_id :
    Unpaired somePayload newWorld ∧ (trustingEnv true false).deleteFails = false ∧
      (handlePair (trustingEnv true false) somePayload newWorld).1 = .err (.saveDevice .statement) ∧
      (handlePair (trustingEnv true false) somePayload newWorld).2.device.id = some somePayload.jid :=
  ⟨unpaired_newWorld, rfl, by decide +kernel, by decide +kernel⟩

end Hypermeow.Client.Pairing
