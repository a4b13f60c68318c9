/-
JIDs, the addresses of users, groups and devices (`types/jid.go`).

A JID is a user at a server, with a device number and, for the few servers that use them, an agent and an integrator.
On the wire the domain byte of an AD JID stands for the server: `actualAgent` gives the byte of a server, `newADJID` the
server of a byte. `newADJID_actualAgent` says that the four servers with a domain of their own survive that trip.
-/
import Hypermeow.Lib.Decimal

namespace Hypermeow.Types

open Lib

/-! ## Servers and domains -/

def defaultUserServer : Bytes := ascii "s.whatsapp.net"
def groupServer : Bytes := ascii "g.us"
def legacyUserServer : Bytes := ascii "c.us"
def broadcastServer : Bytes := ascii "broadcast"
def hiddenUserServer : Bytes := ascii "lid"
def messengerServer : Bytes := ascii "msgr"
def interopServer : Bytes := ascii "interop"
def newsletterServer : Bytes := ascii "newsletter"
def hostedServer : Bytes := ascii "hosted"
def hostedLIDServer : Bytes := ascii "hosted.lid"
def botServer : Bytes := ascii "bot"

def whatsAppDomain : UInt8 := 0
def lidDomain : UInt8 := 1
def hostedDomain : UInt8 := 128
def hostedLIDDomain : UInt8 := 129

structure JID where
  user : Bytes
  rawAgent : UInt8 := 0
  device : UInt16 := 0
  integrator : UInt16 := 0
  server : Bytes
deriving DecidableEq, Repr

def JID.actualAgent (jid : JID) : UInt8 :=
  if jid.server = defaultUserServer then whatsAppDomain
  else if jid.server = hiddenUserServer then lidDomain
  else if jid.server = hostedServer then hostedDomain
  else if jid.server = hostedLIDServer then hostedLIDDomain
  else jid.rawAgent

def emptyJID : JID := { user := [], server := [] }

/-- a JID without a server stands for no JID -/
def JID.isEmpty (jid : JID) : Bool := jid.server.length == 0

/-- the JID without agent and device -/
def JID.toNonAD (jid : JID) : JID := { user := jid.user, integrator := jid.integrator, server := jid.server }

def adString (jid : JID) : Bytes :=
  jid.user ++ ascii "." ++ formatUint jid.rawAgent.toNat ++ ascii ":" ++ formatUint jid.device.toNat ++ ascii "@" ++
    jid.server

/-- `String()`, the form that `ParseJID` reads -/
def JID.string (jid : JID) : Bytes :=
  if jid.server = [] then []
  else if 0 < jid.rawAgent then
    jid.user ++ ascii "." ++ formatUint jid.rawAgent.toNat ++ ascii ":" ++ formatUint jid.device.toNat ++ ascii "@" ++
      jid.server
  else if 0 < jid.device then jid.user ++ ascii ":" ++ formatUint jid.device.toNat ++ ascii "@" ++ jid.server
  else if 0 < jid.user.length then jid.user ++ ascii "@" ++ jid.server
  else jid.server

/-- `botUserRegex`: `1313555` and four digits, or `131655500` and two -/
def isBotUser (user : Bytes) : Bool :=
  user.length == 11 && ((user.take 7 == ascii "1313555" && (user.drop 7).all isDigit) ||
    (user.take 9 == ascii "131655500" && (user.drop 9).all isDigit))

def JID.isBot (jid : JID) : Bool :=
  (jid.server == defaultUserServer && isBotUser jid.user && jid.device == 0) || jid.server == botServer

def newJID (user server : Bytes) : JID := { user, server }

/-- an AD JID; an agent that is not a domain stays the agent of a user on the default server -/
def newADJID (user : Bytes) (agent device : UInt8) : JID :=
  if agent = lidDomain then { user, device := device.toUInt16, server := hiddenUserServer }
  else if agent = hostedDomain then { user, device := device.toUInt16, server := hostedServer }
  else if agent = hostedLIDDomain then { user, device := device.toUInt16, server := hostedLIDServer }
  else { user, rawAgent := agent, device := device.toUInt16, server := defaultUserServer }

/-! ## Signal addresses -/

/-- an address of the Signal protocol; its string form, name and device number with a colon between, determines it -/
structure SignalAddress where
  name : Bytes
  deviceID : UInt32
deriving DecidableEq, Repr

/-- the form in which an address is stored -/
def SignalAddress.string (address : SignalAddress) : Bytes :=
  address.name ++ ascii ":" ++ formatUint address.deviceID.toNat

theorem SignalAddress.string_injective : Function.Injective SignalAddress.string := by
  rintro ⟨name, device⟩ ⟨name', device'⟩ h
  rw [SignalAddress.string, SignalAddress.string, List.append_assoc, List.append_assoc] at h
  have hcolon : name ++ 58 :: formatUint device.toNat = name' ++ 58 :: formatUint device'.toNat := h
  obtain ⟨hname, hdevice⟩ := append_sep_inj (notMem_formatUint rfl _) (notMem_formatUint rfl _) hcolon
  rw [hname, UInt32.toNat_inj.1 (formatUint_injective hdevice)]

def JID.signalAddressUser (jid : JID) : Bytes :=
  if jid.actualAgent ≠ 0 then jid.user ++ ascii "_" ++ formatUint jid.actualAgent.toNat else jid.user

def JID.signalAddress (jid : JID) : SignalAddress := ⟨jid.signalAddressUser, jid.device.toUInt32⟩

/-! ## AD JIDs -/

/-- the servers whose JIDs can be written with a domain byte -/
def IsADServer (server : Bytes) : Prop :=
  server = defaultUserServer ∨ server = hiddenUserServer ∨ server = hostedServer ∨ server = hostedLIDServer

instance (server : Bytes) : Decidable (IsADServer server) := inferInstanceAs (Decidable (_ ∨ _ ∨ _ ∨ _))

theorem IsADServer.ne_interop {server : Bytes} (h : IsADServer server) : server ≠ interopServer := by
  rcases h with rfl | rfl | rfl | rfl <;> decide

/-- the server comes back from its domain byte, and the device as far as one byte carries it -/
theorem newADJID_actualAgent {jid : JID} (hs : IsADServer jid.server) (device : UInt8) :
    newADJID jid.user jid.actualAgent device =
      { user := jid.user, device := device.toUInt16, server := jid.server } := by
  rcases jid with ⟨user, rawAgent, dev, integrator, server⟩
  rcases hs with hs | hs | hs | hs <;> cases hs <;> rfl

end Hypermeow.Types
