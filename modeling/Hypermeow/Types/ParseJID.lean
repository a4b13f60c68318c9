/-
Reading a JID from its text, and its form in the database (`ParseJID` and `Value` in `types/jid.go`).

`ParseJID` splits the text at `@`, and the user at `.` and `:`. It does not refuse much: only the first two parts at `@` are
looked at, and numbers are cut to the size of their field. On an error it returns what it has read so far, and callers that
ignore the error use that.
-/
import Hypermeow.Types.JID

namespace Hypermeow.Types

open Lib

inductive ParseJIDError where
  | unexpectedDots
  | unexpectedColons
  | parseDevice
deriving DecidableEq, Repr

/-- `parsedJID.Device = uint16(device)` for a number that `Atoi` reads -/
def JID.withDevice (parsedJID : JID) (device : Bytes) : JID × Option ParseJIDError :=
  match parseInt device with
  | none => (parsedJID, some .parseDevice)
  | some device => ({ parsedJID with device := UInt16.ofInt device }, none)

/-- the part of a user after a dot: an agent, and a device after a colon -/
def JID.withAD (parsedJID : JID) (ad : Bytes) : JID × Option ParseJIDError :=
  match ad.splitOn 58 with
  | agent :: rest =>
    if 1 < rest.length then (parsedJID, some .unexpectedColons)
    else match parseInt agent with
      | none => (parsedJID, some .parseDevice)
      | some agent =>
        let parsedJID := { parsedJID with rawAgent := UInt8.ofInt agent }
        match rest with
        | [] => (parsedJID, none)
        | device :: _ => parsedJID.withDevice device
  | [] => (parsedJID, some .parseDevice)

/-- the agent and the device in the user -/
def JID.splitUser (parsedJID : JID) : JID × Option ParseJIDError :=
  if parsedJID.user.contains 46 then
    match parsedJID.user.splitOn 46 with
    | [user, ad] => JID.withAD { parsedJID with user } ad
    | _ => (parsedJID, some .unexpectedDots)
  else if parsedJID.user.contains 58 then
    match parsedJID.user.splitOn 58 with
    | [user, device] => JID.withDevice { parsedJID with user } device
    | _ => (parsedJID, some .unexpectedColons)
  else (parsedJID, none)

def parseJID (jid : Bytes) : JID × Option ParseJIDError :=
  match jid.splitOn 64 with
  | user :: server :: _ => JID.splitUser { user, server }
  | parts => (newJID [] (parts.headD []), none)

/-- `Value()`, the form in which a JID goes to the database; no JID is NULL -/
def JID.value (jid : JID) : Option Bytes := if jid.server.length = 0 then none else some jid.string

end Hypermeow.Types
