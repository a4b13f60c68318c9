/-
Which devices a message reaches, and with which contents (`SendMessage` down to `encryptMessageForDevices`).

The `<participants>` of a message should have one `<to>` for each device of each participant but the sending one, one
encryption for each Signal address, the device-sent copy for the other devices of the own account and the plain message
for everyone else (`FanOutExact`). The model is in `SendMessage`, the device lists in `UserDevices`.

- `FanOut` says once what the pass over the devices can do; the exactness results use nothing else about the code.
- `fan_out_exact_iff`: a prepared message is exact if and only if the devices that were encrypted for are `Separated`:
  no two have the same Signal address after the LID mapping, and in a direct chat no device on the other side, phone
  number or LID, has the user part of the own account. Completeness, the excluded devices and the failures need no condition.
-/
import Hypermeow.Client.SendMessage

namespace Hypermeow.Client

open Lib Types Binary Go List

variable {ρ ε α : Type}

/-! ## What a fan-out can do -/

/-- a pass over devices: each one gets a `<to>` with one encryption for its address, or its encryption failed -/
inductive FanOut (address : JID → SignalAddress) (plaintext : JID → Plaintext) :
    List JID → List Node → List SendEvent → Prop
  | nil : FanOut address plaintext [] [] []
  | encrypted {device : JID} {devices : List JID} {nodes : List Node} {events : List SendEvent} (enc : Node)
      (h : FanOut address plaintext devices nodes events) :
      FanOut address plaintext (device :: devices) (toNode device enc :: nodes)
        (.encrypted ⟨address device, plaintext device, enc⟩ :: events)
  | failed {device : JID} {devices : List JID} {nodes : List Node} {events : List SendEvent}
      (h : FanOut address plaintext devices nodes events) :
      FanOut address plaintext (device :: devices) nodes (.failed device :: events)

/-- the JID whose session is used for a device -/
def encryptionIdentity (lidMappings : JID → Option JID) (jid : JID) : JID :=
  if jid.server = defaultUserServer then
    match lidMappings jid with
    | some lidForPN => if lidForPN.isEmpty then jid else lidForPN
    | none => jid
  else jid

/-! ## The log along the code -/

variable {env : SendEnv ρ}

/-! ## The two loops -/

variable {lidMappings : JID → Option JID} {w w' : SendWorld ρ}

variable {jid : JID}

variable {devices : List JID}

/-- the devices that the second loop does not skip -/
def SendEnv.recipients (env : SendEnv ρ) (devices : List JID) : List JID :=
  devices.filter fun jid => !env.isOwnDevice jid

variable {plaintext : Plaintext} {dsmPlaintext : Option Plaintext} {nodes : List Node}

/-! ## From `SendMessage` to the fan-out -/

/-- the Signal address that a device is encrypted for -/
def sessionAddress (lidMappings : JID → Option JID) (jid : JID) : SignalAddress :=
  (encryptionIdentity lidMappings jid).signalAddress

/-- what is sent between two worlds: the devices come from the cache and the network, the addresses from the LID map -/
structure Fanned (env : SendEnv ρ) (chat : JID) (participants : List JID) (plaintext : Plaintext)
    (dsmPlaintext : Option Plaintext) (w w' : SendWorld ρ) (msg : PreparedMessage) (devices : List JID)
    (lidMappings : JID → Option JID) (events : List SendEvent) : Prop where
  known : ∃ cache, getUserDevices env.toDeviceEnv participants w.userDevicesCache = (.ok devices, cache)
  mapped : env.getManyLIDsForPNs ((chatDevices chat devices).filter fun jid => jid.server = defaultUserServer) =
    some lidMappings
  logged : w'.log = w.log ++ events
  fanOut : FanOut (sessionAddress lidMappings) (env.plaintextFor plaintext dsmPlaintext)
    (env.recipients (chatDevices chat devices)) msg.participants events

/-- the members of the group, or the recipient and the own account -/
def Target.participants (target : Target) : List JID :=
  if isGroupSend target.chat then target.groupParticipants else [target.chat, target.ownID.toNonAD]

/-- the message as the recipients get it -/
inductive PlainMessage (env : SendEnv ρ) (target : Target) (message : OutMessage) (req : SendRequest) : Plaintext → Prop
  | group (hg : isGroupSend target.chat = true) (key : Bytes) :
      PlainMessage env target message req (.senderKeyDistribution target.chat.string key)
  | direct {plaintext : Plaintext} (hg : isGroupSend target.chat = false)
      (hp : recipientPlaintext env target message req = .ok plaintext) : PlainMessage env target message req plaintext

/-- the copy for the own account, which only direct chats have -/
def Target.deviceSent (target : Target) (message : OutMessage) : Option Plaintext :=
  if isGroupSend target.chat then none else some (.deviceSent target.chat.string message)

variable {chat : JID} {message : OutMessage} {req : SendRequest} {target : Target} {msg : PreparedMessage}

/-! ## Exactness -/

def SendEvent.encryption : SendEvent → Option Encryption
  | .encrypted e => some e
  | .failed _ => none

/-- the encryptions that were made -/
def encryptions (events : List SendEvent) : List Encryption := events.filterMap SendEvent.encryption

/-- the recipients whose encryption succeeded; each recipient has its event -/
def delivered (recipients : List JID) (events : List SendEvent) : List JID :=
  (recipients.zip events).filterMap fun p => p.2.encryption.map fun _ => p.1

section Events

variable (e : Encryption) (device jid : JID) (devices : List JID) (events : List SendEvent)

@[simp] theorem encryptions_encrypted : encryptions (.encrypted e :: events) = e :: encryptions events := rfl

@[simp] theorem encryptions_failed : encryptions (.failed jid :: events) = encryptions events := rfl

@[simp] theorem delivered_encrypted :
    delivered (device :: devices) (.encrypted e :: events) = device :: delivered devices events := rfl

@[simp] theorem delivered_failed :
    delivered (device :: devices) (.failed jid :: events) = delivered devices events := rfl

end Events

/-- the attribute `jid` of a `<to>` -/
def toJID (node : Node) : Option JID := Attrs.getJID node.attrs (ascii "jid")

@[simp] theorem toJID_toNode (jid : JID) (enc : Node) : toJID (toNode jid enc) = some jid := rfl

/-- hosted devices are on the side of the phone number or the LID that they belong to -/
def side (jid : JID) : Bytes :=
  if jid.server = hostedServer then defaultUserServer
  else if jid.server = hostedLIDServer then hiddenUserServer
  else jid.server

/-- a device of this account: the same user on the same side -/
def SendEnv.BelongsToAccount (env : SendEnv ρ) (jid : JID) : Prop :=
  (jid.user = env.ownID.user ∧ side jid = side env.ownID) ∨ (jid.user = env.ownLID.user ∧ side jid = side env.ownLID)

instance (env : SendEnv ρ) (jid : JID) : Decidable (env.BelongsToAccount jid) :=
  inferInstanceAs (Decidable (_ ∨ _))

/-- a device that the chat has no use for: this client's own, and hosted ones in groups -/
def SendEnv.IsExcluded (env : SendEnv ρ) (chat jid : JID) : Prop :=
  env.isOwnDevice jid = true ∨ chat.server = groupServer ∧ isHosted jid = true

/-- what the `<participants>` of a message should be, given what was encrypted for them -/
structure FanOutExact (env : SendEnv ρ) (cache : UserDevicesCache) (target : Target) (plain dsm : Plaintext)
    (participants : List Node) (events : List SendEvent) : Prop where
  one_per_device : (participants.map toJID).Nodup
  one_per_address : ((encryptions events).map Encryption.address).Nodup
  every_device : ∀ jid, DeviceOf env.toDeviceEnv cache target.participants jid → ¬ env.IsExcluded target.chat jid →
    some jid ∈ participants.map toJID ∨ .failed jid ∈ events
  not_excluded : ∀ jid, some jid ∈ participants.map toJID → ¬ env.IsExcluded target.chat jid
  plaintexts : List.Forall₂
    (fun node e => ∃ jid, node = toNode jid e.enc ∧
      e.plaintext = if env.BelongsToAccount jid ∧ isGroupSend target.chat = false then dsm else plain)
    participants (encryptions events)

/-- the condition on the devices that can be encrypted for: no two share a Signal address, and in a direct chat whoever has
the own user part is on the own side -/
structure Separated (env : SendEnv ρ) (lidMappings : JID → Option JID) (chat : JID) (devices : List JID) : Prop where
  addresses : (devices.map (sessionAddress lidMappings)).Nodup
  sides : isGroupSend chat = false → ∀ jid ∈ devices, jid.user = env.ownID.user ∨ jid.user = env.ownLID.user →
    env.BelongsToAccount jid

namespace FanOut

variable {address : JID → SignalAddress} {plaintext : JID → Plaintext} {devices : List JID} {nodes : List Node}
  {events : List SendEvent}

section

variable (h : FanOut address plaintext devices nodes events)
include h

end

end FanOut

variable {events : List SendEvent}

variable {plain : Plaintext}

theorem SendEnv.BelongsToAccount.user (h : env.BelongsToAccount jid) :
    jid.user = env.ownID.user ∨ jid.user = env.ownLID.user :=
  h.imp And.left And.left

/-! ### Runs of a client -/

def pnJID (user : String) (device : UInt16) : JID := { user := ascii user, device, server := defaultUserServer }

def lidJID (user : String) (device : UInt16) : JID := { user := ascii user, device, server := hiddenUserServer }

/-- device 5 of the phone number 1, LID 9; the contact 2 has the LID 8, and all sessions exist -/
def exampleEnv : SendEnv Unit where
  isShadow := false
  relayDevices := fun _ => none
  usyncResponse := fun _ => none
  fbidResponse := fun _ => none
  participantListHashV2 := fun _ => []
  evicted := fun _ => 0
  ownID := pnJID "1" 5
  ownLID := lidJID "9" 5
  isRemoteSignal := false
  isMessenger := false
  autoTrustIdentity := true
  getCachedGroupData := fun _ => some ⟨addressingModePN, false, [pnJID "2" 0, lidJID "8" 0]⟩
  getBroadcastListParticipants := fun _ => none
  getLIDForPN := fun pn => some (if pn.user = ascii "1" then lidJID "9" pn.device else lidJID "8" pn.device)
  getPNForLID := fun _ => emptyJID
  getUserInfoLID := fun _ => none
  getManyLIDsForPNs := fun _ => some fun pn =>
    some (if pn.user = ascii "1" then lidJID "9" pn.device else lidJID "8" pn.device)
  fetchPreKeys := fun _ => none
  relayPreKeys := fun _ => none
  relayEncrypt := fun _ _ _ _ r => (none, r)
  migratePNToLID := fun _ _ r => r
  prefetchSessions := fun _ _ => some fun _ => .found
  containsSession := fun _ _ => some true
  processBundle := fun _ _ r => (.ok (), r)
  clearUntrustedIdentity := fun _ r => (true, r)
  encrypt := fun address _ r => (some (false, address.name), r)
  putCachedSessions := fun r => (true, r)
  contextEnded := fun _ => false
  groupEncrypt := fun _ _ r => (some [], r)
  encryptWASAMessage := fun _ _ _ => none

/-- the device lists of the own account, of the contact under both of its JIDs, and of a stranger with the LID 1 -/
def exampleWorld : SendWorld Unit where
  userDevicesCache :=
    (((AList.singleton (lidJID "9" 0) ⟨[lidJID "9" 0, lidJID "9" 5], []⟩).insert
      (lidJID "8" 0) ⟨[lidJID "8" 0], []⟩).insert
      (pnJID "2" 0) ⟨[pnJID "2" 0], []⟩).insert
      (lidJID "1" 0) ⟨[lidJID "1" 0], []⟩
  signal := ()
  log := []

def hello : OutMessage := ⟨ascii "hello", ascii "text", [], [], false⟩

def helloRequest : SendRequest := ⟨ascii "ID", false, false⟩

/-- the message to the chat is prepared, and it is not exact -/
def SentInexactly (chat : JID) : Prop :=
  ∃ target plain msg w', selectIdentity exampleEnv chat helloRequest = .ok target ∧
    PlainMessage exampleEnv target hello helloRequest plain ∧
    sendMessage exampleEnv chat hello helloRequest exampleWorld = (.ok (some msg), w') ∧
    ¬ FanOutExact exampleEnv exampleWorld.userDevicesCache target plain (.deviceSent target.chat.string hello)
      msg.participants w'.log

end Hypermeow.Client
