/-
Sending a message to the devices of its recipients (`SendMessage`, `sendGroup`, `sendDM`, `prepareMessageNode`,
`encryptMessageForDevices` and `encryptMessageForDevice` of `send.go`).

A message goes to a list of participants: the members of a group, or the recipient and the sender's own account. Their
devices come from `GetUserDevices`. Each device but the sending one gets a `<to>` with the message encrypted for its Signal
address; a device with a phone number is addressed by its LID when the LID map has one. The other devices of the sender
get a copy that also names the chat, the device-sent message.

Model: the world is the cache of device lists, the Signal store `ρ` and a log of the encryptions, oldest first. The answers
of the network, the LID map, libsignal and protobuf are parameters; an `Option` result is `none` where the source has an
error. A plaintext is the protobuf message before it is serialised. Up to `prepareMessageNode` the functions are modelled
as they run, after it nothing changes the `<participants>`. Left out: inline bots, whose `<bot>` node is encrypted before
and apart, the other children of the message node, the recent message cache and the message secrets.

The results are in `FanOut`.
-/
import Hypermeow.Client.UserDevices

namespace Hypermeow.Client

open Lib Types Binary

/-! ## Messages, the world and its parameters -/

/-- a message with what `prepareMessageNode` derives from its contents; an empty string stands for none -/
structure OutMessage where
  payload : Bytes
  /-- `getTypeFromMessage` -/
  msgType : Bytes
  /-- `getMediaTypeFromMessage` -/
  mediaType : Bytes
  /-- `getEditAttribute` -/
  edit : Bytes
  hasPollUpdate : Bool
deriving DecidableEq, Repr

inductive Plaintext where
  | message (m : OutMessage)
  | deviceSent (destination : Bytes) (m : OutMessage)
  | senderKeyDistribution (group : Bytes) (key : Bytes)
  /-- the container of `encryptWASAMessage` -/
  | wasa (container : Bytes)
deriving DecidableEq, Repr

/-- a ciphertext that libsignal or the relay made, in its `<enc>` node -/
structure Encryption where
  address : SignalAddress
  plaintext : Plaintext
  enc : Node

inductive SendEvent where
  | encrypted (e : Encryption)
  /-- "Failed to encrypt %s for %s" -/
  | failed (device : JID)

structure SendWorld (ρ : Type) where
  userDevicesCache : UserDevicesCache
  signal : ρ
  log : List SendEvent

/-- how a session is found in the store; one that cannot be deserialised is dropped from the prefetched ones -/
inductive SessionLoad where
  | missing
  | found
  | corrupt
deriving DecidableEq, Repr

inductive BundleError where
  | untrustedIdentity
  | other
deriving DecidableEq, Repr

structure GroupMetaCache where
  addressingMode : Bytes
  communityAnnouncementGroup : Bool
  members : List JID

def addressingModePN : Bytes := ascii "pn"
def addressingModeLID : Bytes := ascii "lid"

/-- the client's identity and settings, and what the rest of the world answers during one call -/
structure SendEnv (ρ : Type) extends DeviceEnv where
  ownID : JID
  ownLID : JID
  isRemoteSignal : Bool
  /-- `MessengerConfig != nil` -/
  isMessenger : Bool
  autoTrustIdentity : Bool
  getCachedGroupData : JID → Option GroupMetaCache
  getBroadcastListParticipants : JID → Option (List JID)
  /-- the LID of a phone number, the empty JID if there is none -/
  getLIDForPN : JID → Option JID
  /-- the phone number of a LID; the empty JID also for an error, which is only logged -/
  getPNForLID : JID → JID
  /-- the LID in the user info that the server has for a phone number -/
  getUserInfoLID : JID → Option JID
  getManyLIDsForPNs : List JID → Option (JID → Option JID)
  /-- the bundles that `fetchPreKeys` has without an error -/
  fetchPreKeys : List JID → Option (JID → Option Bytes)
  relayPreKeys : List JID → Option (JID → Option Bytes)
  relayEncrypt : Plaintext → JID → Option Bytes → Attrs → ρ → Option (Node × Bool) × ρ
  migratePNToLID : JID → JID → ρ → ρ
  prefetchSessions : List SignalAddress → ρ → Option (SignalAddress → SessionLoad)
  containsSession : SignalAddress → ρ → Option Bool
  processBundle : SignalAddress → Bytes → ρ → Except BundleError Unit × ρ
  /-- `true` if it succeeds -/
  clearUntrustedIdentity : JID → ρ → Bool × ρ
  /-- `cipher.Encrypt` of the padded plaintext: is it a prekey message, and its bytes -/
  encrypt : SignalAddress → Plaintext → ρ → Option (Bool × Bytes) × ρ
  putCachedSessions : ρ → Bool × ρ
  /-- `ctx.Err() != nil` -/
  contextEnded : ρ → Bool
  /-- a sender key for the group, and the message encrypted with it -/
  groupEncrypt : JID → OutMessage → ρ → Option Bytes × ρ
  encryptWASAMessage : JID → Bytes → OutMessage → Option Bytes

inductive SendError where
  | remoteSignalUnsupported
  | recipientADJID
  | notLoggedIn
  | unknownServer
  | groupMembers
  | broadcastListMembers
  | lidOfNonPN
  | resolveLID
  | shadowGroupUnsupported
  | groupEncryption
  | wasa
  | deviceList (e : DeviceListError)
  | lidMappings
  | prefetchSessions
  | contextEnded
  | saveSessions
deriving DecidableEq, Repr

inductive EncryptError where
  | relay
  | clearIdentity
  | bundle
  | store
  | noSession
  | cipher
deriving DecidableEq, Repr

variable {ρ ε α : Type}

/-- a call that changes the Signal store -/
def onSignal (f : ρ → α × ρ) : Go (SendWorld ρ) ε α := fun w =>
  (.ok (f w.signal).1, { w with signal := (f w.signal).2 })

def noteEvent (e : SendEvent) : Go (SendWorld ρ) ε Unit := Go.modify fun w => { w with log := w.log ++ [e] }

variable (env : SendEnv ρ)

/-! ## Encrypting for one device -/

def processBundle (address : SignalAddress) (bundle : Bytes) : Go (SendWorld ρ) EncryptError Unit := do
  match ← onSignal (env.processBundle address bundle) with
  | .ok () => pure ()
  | .error _ => Go.throw .bundle

/-- a new session from a bundle; a changed identity is cleared once if the client trusts it -/
def useBundle (device : JID) (bundle : Bytes) : Go (SendWorld ρ) EncryptError Unit := do
  match ← onSignal (env.processBundle device.signalAddress bundle) with
  | .ok () => pure ()
  | .error e =>
    if env.autoTrustIdentity ∧ e = .untrustedIdentity then do
      match ← onSignal (env.clearUntrustedIdentity device) with
      | true => processBundle env device.signalAddress bundle
      | false => Go.throw .clearIdentity
    else Go.throw .bundle

/-- without a bundle there must be a session, prefetched or in the store -/
def checkSession (address : SignalAddress) (existingSessions : List (SignalAddress × Bool)) :
    Go (SendWorld ρ) EncryptError Unit :=
  match existingSessions.find? fun e => e.1 = address with
  | some (_, sessionExists) => if sessionExists then pure () else Go.throw .noSession
  | none => do
    match ← onSignal (fun r => (env.containsSession address r, r)) with
    | none => Go.throw .store
    | some sessionExists => if sessionExists then pure () else Go.throw .noSession

def prepareSession (device : JID) (bundle : Option Bytes) (existingSessions : List (SignalAddress × Bool)) :
    Go (SendWorld ρ) EncryptError Unit :=
  match bundle with
  | some bundle => useBundle env device bundle
  | none => checkSession env device.signalAddress existingSessions

/-- `copyAttrs` -/
def copyAttrs (source target : List (Bytes × Value)) : List (Bytes × Value) :=
  source.foldl (fun m e => Attrs.set m e.1 e.2) target

def encNode (isPreKey : Bool) (extraAttrs : Attrs) (serialized : Bytes) : Node where
  tag := ascii "enc"
  attrs := some (copyAttrs extraAttrs.entries
    [(ascii "v", .string (ascii "2")), (ascii "type", .string (if isPreKey then ascii "pkmsg" else ascii "msg"))])
  content := .bytes serialized

/-- the `<enc>` node and whether the device identity has to go with it -/
def encryptMessageForDevice (plaintext : Plaintext) (device : JID) (bundle : Option Bytes) (extraAttrs : Attrs)
    (existingSessions : List (SignalAddress × Bool)) : Go (SendWorld ρ) EncryptError (Node × Bool) :=
  if env.isShadow then do
    match ← onSignal (env.relayEncrypt plaintext device bundle extraAttrs) with
    | none => Go.throw .relay
    | some (enc, includeDeviceIdentity) => do
      noteEvent (.encrypted ⟨device.signalAddress, plaintext, enc⟩)
      pure (enc, includeDeviceIdentity)
  else do
    prepareSession env device bundle existingSessions
    match ← onSignal (env.encrypt device.signalAddress plaintext) with
    | none => Go.throw .cipher
    | some (isPreKey, serialized) => do
      let enc := encNode isPreKey extraAttrs serialized
      noteEvent (.encrypted ⟨device.signalAddress, plaintext, enc⟩)
      pure (enc, Attrs.getString enc.attrs (ascii "type") = some (ascii "pkmsg") ∧ !env.isMessenger)

def toNode (wireIdentity : JID) (enc : Node) : Node where
  tag := ascii "to"
  attrs := some [(ascii "jid", .jid wireIdentity)]
  content := .nodes [enc]

def encryptMessageForDeviceAndWrap (plaintext : Plaintext) (wireIdentity encryptionIdentity : JID)
    (bundle : Option Bytes) (encAttrs : Attrs) (existingSessions : List (SignalAddress × Bool)) :
    Go (SendWorld ρ) EncryptError (Node × Bool) := do
  let (enc, includeDeviceIdentity) ← encryptMessageForDevice env plaintext encryptionIdentity bundle encAttrs
    existingSessions
  pure (toNode wireIdentity enc, includeDeviceIdentity)

/-! ## Encrypting for a list of devices -/

/-- this client's own device -/
def SendEnv.isOwnDevice (jid : JID) : Bool := jid = env.ownID ∨ jid = env.ownLID

/-- the three maps and lists of the first loop -/
structure Identities where
  encryptionIdentities : JID → Option JID
  sessionAddressToJID : SignalAddress → Option JID
  sessionAddresses : List SignalAddress

def Identities.add (ids : Identities) (jid encryptionIdentity : JID) : Identities where
  encryptionIdentities := Function.update ids.encryptionIdentities jid (some encryptionIdentity)
  sessionAddressToJID := Function.update ids.sessionAddressToJID encryptionIdentity.signalAddress (some jid)
  sessionAddresses := ids.sessionAddresses ++ [encryptionIdentity.signalAddress]

/-- the JID whose Signal session is used for a device; sessions of the phone number move to the LID -/
def identityFor (lidMappings : JID → Option JID) (jid : JID) : Go (SendWorld ρ) SendError JID :=
  if jid.server = defaultUserServer then
    match lidMappings jid with
    | some lidForPN =>
      if lidForPN.isEmpty then pure jid
      else do
        onSignal fun r => ((), env.migratePNToLID jid lidForPN r)
        pure lidForPN
    | none => pure jid
  else pure jid

def collectIdentities (lidMappings : JID → Option JID) : List JID → Identities → Go (SendWorld ρ) SendError Identities
  | [], ids => pure ids
  | jid :: devices, ids =>
    if env.isOwnDevice jid then collectIdentities lidMappings devices ids
    else do
      let encryptionIdentity ← identityFor env lidMappings jid
      collectIdentities lidMappings devices (ids.add jid encryptionIdentity)

/-- which of the addresses have a session; the entries of the map in the order in which a `range` visits them -/
def withCachedSessions (addresses : List SignalAddress) :
    Go (SendWorld ρ) SendError (List (SignalAddress × Bool)) :=
  if addresses.length = 0 then pure []
  else do
    match ← onSignal fun r => (env.prefetchSessions addresses r, r) with
    | none => Go.throw .prefetchSessions
    | some load =>
      pure (addresses.dedup.filterMap fun address =>
        match load address with
        | .missing => some (address, false)
        | .found => some (address, true)
        | .corrupt => none)

/-- bundles for the devices; without an answer there are none -/
def fetchPreKeysNoError (retryDevices : List JID) : JID → Option Bytes :=
  if retryDevices.length = 0 then fun _ => none
  else if env.isShadow then (env.relayPreKeys retryDevices).getD fun _ => none
  else
    match env.fetchPreKeys retryDevices with
    | none => fun _ => none
    | some bundlesResp => fun jid => if jid ∈ retryDevices then bundlesResp jid else none

/-- what a device is sent: the own account is told by the user part of the JID -/
def SendEnv.plaintextFor (msgPlaintext : Plaintext) (dsmPlaintext : Option Plaintext) (jid : JID) : Plaintext :=
  match dsmPlaintext with
  | some dsm => if jid.user = env.ownID.user ∨ jid.user = env.ownLID.user then dsm else msgPlaintext
  | none => msgPlaintext

/-- the second loop: the `<to>` nodes, and whether one of them starts a session -/
def encryptLoop (ids : Identities) (bundles : JID → Option Bytes) (existingSessions : List (SignalAddress × Bool))
    (msgPlaintext : Plaintext) (dsmPlaintext : Option Plaintext) (encAttrs : Attrs) :
    List JID → Go (SendWorld ρ) SendError (List Node × Bool)
  | [] => pure ([], false)
  | jid :: devices =>
    if env.isOwnDevice jid then encryptLoop ids bundles existingSessions msgPlaintext dsmPlaintext encAttrs devices
    else do
      match ← (encryptMessageForDeviceAndWrap env (env.plaintextFor msgPlaintext dsmPlaintext jid) jid
          ((ids.encryptionIdentities jid).getD emptyJID) (bundles jid) encAttrs existingSessions).attempt with
      | .error _ => do
        noteEvent (.failed jid)
        if env.contextEnded (← Go.get).signal then Go.throw .contextEnded
        else encryptLoop ids bundles existingSessions msgPlaintext dsmPlaintext encAttrs devices
      | .ok (node, isPreKey) => do
        let (nodes, includeIdentity) ←
          encryptLoop ids bundles existingSessions msgPlaintext dsmPlaintext encAttrs devices
        pure (node :: nodes, isPreKey || includeIdentity)

def saveSessions : Go (SendWorld ρ) SendError Unit := do
  match ← onSignal env.putCachedSessions with
  | true => pure ()
  | false => Go.throw .saveSessions

def encryptMessageForDevices (allDevices : List JID) (msgPlaintext : Plaintext) (dsmPlaintext : Option Plaintext)
    (encAttrs : Attrs) : Go (SendWorld ρ) SendError (List Node × Bool) :=
  match env.getManyLIDsForPNs (allDevices.filter fun jid => jid.server = defaultUserServer) with
  | none => Go.throw .lidMappings
  | some lidMappings => do
    let ids ← collectIdentities env lidMappings allDevices ⟨fun _ => none, fun _ => none, []⟩
    let existingSessions ← withCachedSessions env ids.sessionAddresses
    let retryDevices := (existingSessions.filter fun e => !e.2).map fun e =>
      (ids.sessionAddressToJID e.1).getD emptyJID
    let bundles := fetchPreKeysNoError env retryDevices
    let result ← encryptLoop env ids bundles existingSessions msgPlaintext dsmPlaintext encAttrs allDevices
    saveSessions env
    pure result

/-! ## The message node -/

/-- what `SendMessage` has decided about the chat before it sends -/
structure Target where
  chat : JID
  ownID : JID
  groupParticipants : List JID := []
  addressingMode : Bytes := []
  peerRecipientPN : JID := emptyJID

structure SendRequest where
  id : Bytes
  peer : Bool
  /-- `req.Meta != nil` -/
  hasMeta : Bool

/-- the `<message>` node, with the children other than `<participants>` left out, and the devices it was prepared for -/
structure PreparedMessage where
  attrs : List (Bytes × Value)
  participants : List Node
  includeIdentity : Bool
  allDevices : List JID

def isHosted (jid : JID) : Bool := jid.server = hostedServer ∨ jid.server = hostedLIDServer

/-- the attributes that every `<enc>` of the message gets -/
def encAttrsFor (message : OutMessage) (dsmPlaintext : Option Plaintext) : List (Bytes × Value) :=
  (if dsmPlaintext.isSome ∧ message.mediaType ≠ [] then [(ascii "mediatype", .string message.mediaType)] else []) ++
    (if message.edit ≠ [] ∨ message.msgType = ascii "reaction" ∨ message.hasPollUpdate then
      [(ascii "decrypt-fail", .string (ascii "hide"))] else [])

def messageAttrs (target : Target) (id : Bytes) (message : OutMessage) : List (Bytes × Value) :=
  [(ascii "id", .string id), (ascii "type", .string message.msgType), (ascii "to", .jid target.chat)] ++
    (if target.peerRecipientPN.isEmpty then [] else [(ascii "peer_recipient_pn", .jid target.peerRecipientPN)]) ++
    (if target.addressingMode = [] then [] else [(ascii "addressing_mode", .string target.addressingMode)]) ++
    (if message.edit = [] then [] else [(ascii "edit", .string message.edit)])

def fetchDevices (participants : List JID) : Go (SendWorld ρ) SendError (List JID) :=
  Go.mapErr .deviceList (Go.zoom SendWorld.userDevicesCache (fun cache w => { w with userDevicesCache := cache })
    (getUserDevices env.toDeviceEnv participants))

/-- hosted devices take no part in groups -/
def chatDevices (chat : JID) (allDevices : List JID) : List JID :=
  if chat.server = groupServer then allDevices.filter fun jid => !isHosted jid else allDevices

def prepareMessageNode (target : Target) (id : Bytes) (message : OutMessage) (participants : List JID)
    (plaintext : Plaintext) (dsmPlaintext : Option Plaintext) : Go (SendWorld ρ) SendError PreparedMessage := do
  let allDevices ← fetchDevices env participants
  let allDevices := chatDevices target.chat allDevices
  let (participantNodes, includeIdentity) ←
    encryptMessageForDevices env allDevices plaintext dsmPlaintext (some (encAttrsFor message dsmPlaintext))
  pure ⟨messageAttrs target id message, participantNodes, includeIdentity, allDevices⟩

/-! ## `SendMessage` -/

def museJID : JID := newJID (ascii "1807055946647697") botServer

/-- the plaintext and the device-sent plaintext; groups and newsletters have no own copy -/
def marshalMessage (chat : JID) (message : OutMessage) : Plaintext × Option Plaintext :=
  (.message message,
    if chat.server ≠ groupServer ∧ chat.server ≠ newsletterServer then some (.deviceSent chat.string message) else none)

/-- the message itself is encrypted with the sender key, which the devices get in turn -/
def sendGroup (target : Target) (message : OutMessage) (req : SendRequest) :
    Go (SendWorld ρ) SendError PreparedMessage :=
  if env.isShadow then Go.throw .shadowGroupUnsupported
  else do
    match ← onSignal (env.groupEncrypt target.chat message) with
    | none => Go.throw .groupEncryption
    | some senderKey =>
      prepareMessageNode env target req.id message target.groupParticipants
        (.senderKeyDistribution target.chat.string senderKey) none

/-- what the recipient's devices get: the AI bot named below takes its messages in a container -/
def recipientPlaintext (target : Target) (message : OutMessage) (req : SendRequest) : Except SendError Plaintext :=
  if target.chat = museJID then
    match env.encryptWASAMessage target.chat req.id message with
    | none => .error .wasa
    | some container => .ok (.wasa container)
  else .ok (marshalMessage target.chat message).1

def sendDM (target : Target) (message : OutMessage) (req : SendRequest) : Go (SendWorld ρ) SendError PreparedMessage :=
  match recipientPlaintext env target message req with
  | .error e => Go.throw e
  | .ok plaintext =>
    prepareMessageNode env target req.id message [target.chat, target.ownID.toNonAD] plaintext
      (marshalMessage target.chat message).2

def resolveLID (phone : JID) : Except SendError JID :=
  let withDevice (lid : JID) : JID := { lid.toNonAD with device := phone.device }
  if phone.server ≠ defaultUserServer then .error .lidOfNonPN
  else
    match env.getLIDForPN phone.toNonAD with
    | none => .error .resolveLID
    | some lid =>
      if lid.isEmpty then
        match env.getUserInfoLID phone.toNonAD with
        | none => .error .resolveLID
        | some lid => if lid.toNonAD.isEmpty then .error .resolveLID else .ok (withDevice lid)
      else .ok (withDevice lid)

/-- who a message to the chat is sent as, and to whom -/
def selectIdentity (chat : JID) (req : SendRequest) : Except SendError Target :=
  if chat.server = groupServer then
    match env.getCachedGroupData chat with
    | none => .error .groupMembers
    | some cachedData =>
      if cachedData.addressingMode = addressingModeLID then
        .ok { chat, ownID := env.ownLID, groupParticipants := cachedData.members, addressingMode := addressingModeLID }
      else if cachedData.communityAnnouncementGroup ∧ req.hasMeta then
        .ok { chat, ownID := env.ownLID, groupParticipants := cachedData.members, addressingMode := addressingModePN }
      else .ok { chat, ownID := env.ownID, groupParticipants := cachedData.members }
  else if chat.server = broadcastServer then
    match env.getBroadcastListParticipants chat with
    | none => .error .broadcastListMembers
    | some participants => .ok { chat, ownID := env.ownID, groupParticipants := participants }
  else if chat.server = hiddenUserServer then
    .ok { chat, ownID := env.ownLID, peerRecipientPN := env.getPNForLID chat }
  else if chat.server = defaultUserServer ∧ !req.peer then
    match resolveLID env chat with
    | .error e => .error e
    | .ok lid => .ok { chat := lid, ownID := env.ownLID, peerRecipientPN := chat }
  else .ok { chat, ownID := env.ownID }

/-- is the message sent with a sender key, to a group or a broadcast list? -/
def isGroupSend (chat : JID) : Bool := chat.server = groupServer ∨ chat.server = broadcastServer

/-- peer and newsletter messages have no `<participants>` -/
def sendTo (target : Target) (message : OutMessage) (req : SendRequest) :
    Go (SendWorld ρ) SendError (Option PreparedMessage) :=
  if isGroupSend target.chat then some <$> sendGroup env target message req
  else if target.chat.server = defaultUserServer ∨ target.chat.server = botServer ∨
      target.chat.server = hiddenUserServer then
    if req.peer then pure none else some <$> sendDM env target message req
  else if target.chat.server = newsletterServer then pure none
  else Go.throw .unknownServer

def sendMessage (chat : JID) (message : OutMessage) (req : SendRequest) :
    Go (SendWorld ρ) SendError (Option PreparedMessage) :=
  if env.isRemoteSignal then Go.throw .remoteSignalUnsupported
  else if 0 < chat.device ∧ !req.peer then Go.throw .recipientADJID
  else if env.ownID.isEmpty then Go.throw .notLoggedIn
  else
    match selectIdentity env chat req with
    | .error e => Go.throw e
    | .ok target => sendTo env target message req

end Hypermeow.Client
