/-
Messages with encryption version 3 (`armadillomessage.go`): a `MessageTransport` around an FB or IG message.

The transport carries the payload and, from senders that start a new sender key, a sender-key distribution message.
`decodeArmadillo` unmarshals the transport and then the payload, by the version of the application payload.
`handleDecryptedArmadillo` hands the distribution message to `handleSenderKeyDistributionMessage` and dispatches the event.

- `sender_key_with_payload_dropped`: a group message with a payload and a distribution message, in the form in which
  `encryptMessageForDeviceV3` sends them.

Model: `proto.Unmarshal` into each type of message is a parameter. Messages have the fields that are read here; the decoded
messages of the application protocols are of one type `μ`. A decoder returns what is in its named results, the event and the
error; the message that a failed `Decode` leaves in the event is left out, nobody reads it. Logging is left out.
-/
import Hypermeow.Types.JID

namespace Hypermeow.Client

open Lib Types List

/-! ## Messages -/

/-- `waCommon.SubProtocol` -/
structure SubProtocol where
  payload : Bytes
  version : ℤ
deriving DecidableEq

structure SenderKeyDistributionMessage where
  axolotlSenderKeyDistributionMessage : Bytes
deriving DecidableEq

structure TransportAncillary where
  skdm : Option SenderKeyDistributionMessage
deriving DecidableEq

structure TransportProtocol where
  ancillary : Option TransportAncillary
deriving DecidableEq

structure TransportPayload where
  applicationPayload : Option SubProtocol
deriving DecidableEq

structure MessageTransport where
  payload : Option TransportPayload
  protocol : Option TransportProtocol
deriving DecidableEq

/-- `GetProtocol().GetAncillary().GetSkdm()` -/
def MessageTransport.getSkdm (transport : MessageTransport) : Option SenderKeyDistributionMessage :=
  transport.protocol.bind fun p => p.ancillary.bind fun a => a.skdm

inductive SubProtocolPayload where
  | consumerMessage (p : SubProtocol)
  | businessMessage (p : SubProtocol)
  | paymentMessage (p : SubProtocol)
  | multiDevice (p : SubProtocol)
  | voip (p : SubProtocol)
  | armadillo (p : SubProtocol)
deriving DecidableEq

inductive ApplicationContent where
  | coreContent
  | signal
  | applicationData
  | subProtocol (p : Option SubProtocolPayload)
deriving DecidableEq

structure ApplicationPayload where
  content : Option ApplicationContent
deriving DecidableEq

structure MessageApplication where
  payload : Option ApplicationPayload
deriving DecidableEq

/-- the content of `instamadilloTransportPayload.TransportPayload` -/
inductive IGContent (μ : Type) where
  | add (m : μ)
  | supplement (m : μ)
  | delete (m : μ)
deriving DecidableEq

structure IGTransportPayload (μ : Type) where
  transportPayload : Option (IGContent μ)
deriving DecidableEq

/-- `armadillo.MessageApplicationSub` -/
inductive MessageApplicationSub (μ : Type) where
  | consumer (m : μ)
  | business (p : SubProtocol)
  | payment (p : SubProtocol)
  | multiDevice (m : μ)
  | voip (p : SubProtocol)
  | armadillo (m : μ)
  | ig (content : IGContent μ)
deriving DecidableEq

structure MessageInfo where
  chat : JID
  sender : JID
  isGroup : Bool
deriving DecidableEq

/-- `events.FBMessage`; the fields are nil until they are set -/
structure FBMessage (μ : Type) where
  info : Option MessageInfo
  message : Option (MessageApplicationSub μ)
  retryCount : ℕ
  transport : Option MessageTransport
  fbApplication : Option MessageApplication
  igTransport : Option (IGTransportPayload μ)
deriving DecidableEq

def FBMessage.zero {μ : Type} : FBMessage μ := ⟨none, none, 0, none, none, none⟩

/-- `proto.Unmarshal` into the types of messages -/
structure ArmadilloCodec (μ : Type) where
  transport : Bytes → Option MessageTransport
  application : Bytes → Option MessageApplication
  igTransport : Bytes → Option (IGTransportPayload μ)
  consumer : Bytes → Option μ
  multiDevice : Bytes → Option μ
  armadillo : Bytes → Option μ

/-! ## Decoding -/

/-- errors of `armadilloutil.Unmarshal` -/
inductive UnmarshalError where
  /-- `unsupported subprotocol version … in … (expected …)` -/
  | version (version expected : ℤ)
  | payload
deriving DecidableEq, Repr

inductive ArmadilloError where
  /-- `failed to unmarshal transport` -/
  | transport
  /-- `unsupported subprotocol version … in MessageTransport` -/
  | unsupportedVersion (version : ℤ)
  /-- `failed to unmarshal application` -/
  | application (e : UnmarshalError)
  /-- `failed to unmarshal IG transport` -/
  | igTransport (e : UnmarshalError)
  /-- the error of a subprotocol's `Decode` -/
  | subProtocol (e : UnmarshalError)
  /-- `unsupported core content payload` -/
  | coreContent
  /-- `unsupported signal payload` -/
  | signal
  /-- `unsupported application data payload` -/
  | applicationData
  /-- `unsupported application payload content type` -/
  | contentType
  /-- `unsupported subprotocol type` -/
  | subProtocolType
deriving DecidableEq, Repr

def fbMessageApplicationVersion : ℤ := 2
def igMessageApplicationVersion : ℤ := 3
def consumerApplicationVersion : ℤ := 1
def armadilloApplicationVersion : ℤ := 1
def multiDeviceApplicationVersion : ℤ := 1

/-- `GetVersion()` -/
def getVersion (msg : Option SubProtocol) : ℤ := (msg.map SubProtocol.version).getD 0

/-- `GetPayload()` -/
def getPayload (msg : Option SubProtocol) : Bytes := (msg.map SubProtocol.payload).getD []

/-- `armadilloutil.Unmarshal` -/
def unmarshal {α : Type} (decode : Bytes → Option α) (msg : Option SubProtocol) (expectedVersion : ℤ) :
    Except UnmarshalError α :=
  if getVersion msg ≠ expectedVersion then .error (.version (getVersion msg) expectedVersion)
  else match decode (getPayload msg) with
    | none => .error .payload
    | some m => .ok m

section Decoding

variable {μ : Type} (C : ArmadilloCodec μ)

/-- a subprotocol with a decoder of its own -/
def decodeSubProtocol (dec : FBMessage μ) (wrap : μ → MessageApplicationSub μ) (decoded : Except UnmarshalError μ) :
    FBMessage μ × Option ArmadilloError :=
  match decoded with
  | .error e => (dec, some (.subProtocol e))
  | .ok m => ({ dec with message := some (wrap m) }, none)

/-- the inner switch of `decodeFBArmadillo` -/
def decodeFBSubProtocol (dec : FBMessage μ) : Option SubProtocolPayload → FBMessage μ × Option ArmadilloError
  | some (.consumerMessage p) =>
    decodeSubProtocol dec .consumer (unmarshal C.consumer (some p) consumerApplicationVersion)
  | some (.businessMessage p) => ({ dec with message := some (.business p) }, none)
  | some (.paymentMessage p) => ({ dec with message := some (.payment p) }, none)
  | some (.multiDevice p) =>
    decodeSubProtocol dec .multiDevice (unmarshal C.multiDevice (some p) multiDeviceApplicationVersion)
  | some (.voip p) => ({ dec with message := some (.voip p) }, none)
  | some (.armadillo p) =>
    decodeSubProtocol dec .armadillo (unmarshal C.armadillo (some p) armadilloApplicationVersion)
  | none => (dec, some .subProtocolType)

def decodeFBArmadillo (transport : MessageTransport) : FBMessage μ × Option ArmadilloError :=
  match unmarshal C.application (transport.payload.bind TransportPayload.applicationPayload)
      fbMessageApplicationVersion with
  | .error e => (.zero, some (.application e))
  | .ok application =>
    let dec : FBMessage μ := { FBMessage.zero with fbApplication := some application }
    match application.payload with
    | none => (dec, none)
    | some payload =>
      match payload.content with
      | some .coreContent => (dec, some .coreContent)
      | some .signal => (dec, some .signal)
      | some .applicationData => (dec, some .applicationData)
      | some (.subProtocol p) => decodeFBSubProtocol C dec p
      | none => (dec, some .contentType)

def decodeIGArmadillo (transport : MessageTransport) : FBMessage μ × Option ArmadilloError :=
  match unmarshal C.igTransport (transport.payload.bind TransportPayload.applicationPayload)
      igMessageApplicationVersion with
  | .error e => (.zero, some (.igTransport e))
  | .ok innerTransport =>
    let dec : FBMessage μ := { FBMessage.zero with igTransport := some innerTransport }
    ({ dec with message := innerTransport.transportPayload.map .ig }, none)

def decodeArmadillo (data : Bytes) : FBMessage μ × Option ArmadilloError :=
  match C.transport data with
  | none => (.zero, some .transport)
  | some transport =>
    let dec : FBMessage μ := { FBMessage.zero with transport := some transport }
    match transport.payload with
    | none => (dec, none)
    | some payload =>
      -- what the decoders return replaces both named results
      if getVersion payload.applicationPayload = fbMessageApplicationVersion then decodeFBArmadillo C transport
      else if getVersion payload.applicationPayload = igMessageApplicationVersion then decodeIGArmadillo C transport
      else (dec, some (.unsupportedVersion (getVersion payload.applicationPayload)))

/-! ## Handling -/

inductive ArmadilloEffect (μ : Type) where
  /-- the call of `handleSenderKeyDistributionMessage` -/
  | senderKeyDistribution (chat sender : JID) (axolotlSKDM : Bytes)
  /-- the call of `dispatchEvent` -/
  | dispatch (evt : FBMessage μ)
deriving DecidableEq

structure ArmadilloHandled (μ : Type) where
  effects : List (ArmadilloEffect μ)
  handlerFailed : Bool
  protobufFailed : Bool

/-- a distribution message is taken from groups only -/
def handleTransportSkdm (info : MessageInfo) (transport : Option MessageTransport) : List (ArmadilloEffect μ) :=
  match transport.bind MessageTransport.getSkdm with
  | none => []
  | some skdm =>
    if info.isGroup then [.senderKeyDistribution info.chat info.sender skdm.axolotlSenderKeyDistributionMessage] else []

/-- `handlers` says whether the handlers of an event fail -/
def handleDecryptedArmadillo (handlers : FBMessage μ → Bool) (info : MessageInfo) (decrypted : Bytes) (retryCount : ℕ) :
    ArmadilloHandled μ :=
  match decodeArmadillo C decrypted with
  | (_, some _) => ⟨[], false, true⟩
  | (dec, none) =>
    let dec := { dec with info := some info, retryCount := retryCount }
    let skdm := handleTransportSkdm info dec.transport
    if dec.message.isSome || dec.fbApplication.isSome then ⟨skdm ++ [.dispatch dec], handlers dec, false⟩
    else ⟨skdm, false, false⟩

/-- the transport that `encryptMessageForDeviceV3` sends -/
def transportForDevice (payload : Option TransportPayload) (skdm : Option SenderKeyDistributionMessage) : MessageTransport :=
  ⟨payload, some ⟨some ⟨skdm⟩⟩⟩

/-! ## Where the transport goes -/

variable {C}

theorem decodeFBSubProtocol_transport (dec : FBMessage μ) (p : Option SubProtocolPayload) :
    (decodeFBSubProtocol C dec p).1.transport = dec.transport := by
  have hdecoded : ∀ wrap decoded, (decodeSubProtocol dec wrap decoded).1.transport = dec.transport := by
    intro wrap decoded
    cases decoded <;> rfl
  rcases p with _ | p
  · rfl
  · cases p with
    | consumerMessage p => exact hdecoded _ _
    | businessMessage p => rfl
    | paymentMessage p => rfl
    | multiDevice p => exact hdecoded _ _
    | voip p => rfl
    | armadillo p => exact hdecoded _ _

theorem decodeFBArmadillo_transport (transport : MessageTransport) : (decodeFBArmadillo C transport).1.transport = none := by
  unfold decodeFBArmadillo
  split
  · rfl
  · dsimp only
    split
    · rfl
    · split
      · rfl
      · rfl
      · rfl
      · exact decodeFBSubProtocol_transport _ _
      · rfl

theorem decodeIGArmadillo_transport (transport : MessageTransport) : (decodeIGArmadillo C transport).1.transport = none := by
  unfold decodeIGArmadillo
  split <;> rfl

variable {data : Bytes} {transport : MessageTransport}

theorem decodeArmadillo_no_payload (ht : C.transport data = some transport) (hpayload : transport.payload = none) :
    decodeArmadillo C data = ({ FBMessage.zero with transport := some transport }, none) := by
  simp only [decodeArmadillo, ht, hpayload]

/-- a payload that decodes comes without its transport -/
theorem decodeArmadillo_payload {payload : TransportPayload}
    (ht : C.transport data = some transport) (hpayload : transport.payload = some payload)
    (hok : (decodeArmadillo C data).2 = none) : (decodeArmadillo C data).1.transport = none := by
  simp only [decodeArmadillo, ht, hpayload] at hok ⊢
  split_ifs at hok ⊢
  · exact decodeFBArmadillo_transport transport
  · exact decodeIGArmadillo_transport transport

/-- the hand-over comes before the event -/
theorem handleDecryptedArmadillo_effects (handlers : FBMessage μ → Bool) (info : MessageInfo)
    (retryCount : ℕ) (hok : (decodeArmadillo C data).2 = none) :
    ∃ dispatched, (∀ e ∈ dispatched, ∃ evt, e = .dispatch evt) ∧
      (handleDecryptedArmadillo C handlers info data retryCount).effects =
        handleTransportSkdm info (decodeArmadillo C data).1.transport ++ dispatched := by
  rcases hdec : decodeArmadillo C data with ⟨dec, _ | e⟩
  · simp only [handleDecryptedArmadillo, hdec]
    split_ifs
    · refine ⟨_, fun e he => ⟨_, mem_singleton.1 he⟩, rfl⟩
    · exact ⟨[], fun e he => (not_mem_nil he).elim, (append_nil _).symm⟩
  · rw [hdec] at hok
    cases hok

theorem handleTransportSkdm_group {info : MessageInfo} {skdm : SenderKeyDistributionMessage}
    (hgroup : info.isGroup = true) (hskdm : transport.getSkdm = some skdm) :
    (handleTransportSkdm info (some transport) : List (ArmadilloEffect μ)) =
      [.senderKeyDistribution info.chat info.sender skdm.axolotlSenderKeyDistributionMessage] := by
  simp only [handleTransportSkdm, Option.bind_some, hskdm, if_pos hgroup]

/-- **The transport is kept exactly without a payload.** Of every message that decodes, the event has the transport if and
only if the transport has no payload; and the distribution message of a group message is handed over, before anything is
dispatched, if and only if the transport has no payload. -/
theorem armadillo_transport_kept_iff (handlers : FBMessage μ → Bool) (data : Bytes) (transport : MessageTransport)
    (ht : C.transport data = some transport) (hok : (decodeArmadillo C data).2 = none) :
    ((decodeArmadillo C data).1.transport = some transport ↔ transport.payload = none) ∧
    ∀ info retryCount skdm, info.isGroup = true → transport.getSkdm = some skdm →
      ((∃ rest, (handleDecryptedArmadillo C handlers info data retryCount).effects =
        .senderKeyDistribution info.chat info.sender skdm.axolotlSenderKeyDistributionMessage :: rest) ↔
          transport.payload = none) := by
  cases hpayload : transport.payload with
  | none =>
    have hkept : (decodeArmadillo C data).1.transport = some transport := by rw [decodeArmadillo_no_payload ht hpayload]
    refine ⟨iff_of_true hkept rfl, fun info retryCount skdm hgroup hskdm => iff_of_true ?_ rfl⟩
    obtain ⟨dispatched, -, heffects⟩ := handleDecryptedArmadillo_effects handlers info retryCount hok
    rw [hkept, handleTransportSkdm_group hgroup hskdm] at heffects
    exact ⟨dispatched, heffects⟩
  | some payload =>
    have hlost : (decodeArmadillo C data).1.transport = none := decodeArmadillo_payload ht hpayload hok
    refine ⟨iff_of_false (by simp [hlost]) (by simp), fun info retryCount skdm _ _ => iff_of_false ?_ (by simp)⟩
    rintro ⟨rest, hrest⟩
    obtain ⟨dispatched, honly, heffects⟩ := handleDecryptedArmadillo_effects handlers info retryCount hok
    -- without a transport the effects are events only
    rw [hlost, hrest] at heffects
    change _ = dispatched at heffects
    obtain ⟨evt, hevt⟩ := honly _ (heffects ▸ mem_cons_self)
    cases hevt

end Decoding

/-! ## Two messages -/

/-- a distribution message as `sendGroupV3` makes it -/
def someSkdm : SenderKeyDistributionMessage := ⟨[0x33]⟩

/-- an FB message without content -/
def somePayload : TransportPayload := ⟨some ⟨[], fbMessageApplicationVersion⟩⟩

/-- what the decrypted bytes `[1]` and `[2]` unmarshal to: a transport with the distribution message, with and without payload -/
def sampleCodec : ArmadilloCodec Unit where
  transport data :=
    if data = [1] then some (transportForDevice (some somePayload) (some someSkdm))
    else if data = [2] then some (transportForDevice none (some someSkdm))
    else none
  application _ := some ⟨none⟩
  igTransport _ := none
  consumer _ := none
  multiDevice _ := none
  armadillo _ := none

def groupInfo : MessageInfo := ⟨⟨ascii "1203630", 0, 0, 0, ascii "g.us"⟩, ⟨ascii "49176", 0, 1, 0, ascii "msgr"⟩, true⟩

/-- without payload: the distribution message is handed over -/
theorem armadillo_transport_kept_iff_no_payload :
    ((decodeArmadillo sampleCodec [2]).1.transport = some (transportForDevice none (some someSkdm)) ↔
      (transportForDevice none (some someSkdm)).payload = none) ∧
    ∀ info retryCount skdm, info.isGroup = true → (transportForDevice none (some someSkdm)).getSkdm = some skdm →
      ((∃ rest, (handleDecryptedArmadillo sampleCodec (fun _ => false) info [2] retryCount).effects =
        .senderKeyDistribution info.chat info.sender skdm.axolotlSenderKeyDistributionMessage :: rest) ↔
          (transportForDevice none (some someSkdm)).payload = none) :=
  armadillo_transport_kept_iff (fun _ => false) [2] (transportForDevice none (some someSkdm)) (by decide) (by decide)

/-- with payload: the event is dispatched without transport, and the distribution message is dropped -/
theorem sender_key_with_payload_dropped :
    (decodeArmadillo sampleCodec [1]).2 = none ∧ (decodeArmadillo sampleCodec [1]).1.transport = none ∧
    (handleDecryptedArmadillo sampleCodec (fun _ => false) groupInfo [1] 0).effects =
      [.dispatch ⟨some groupInfo, none, 0, none, some ⟨none⟩, none⟩] := by
  decide

end Hypermeow.Client
