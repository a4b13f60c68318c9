/-
Typed access to the attributes of a node (`binary/attrs.go`).

An `AttrUtility` reads attributes and collects errors on the side. The getters in `Attrs` are modelled by their values:
`none` where the second result is false. That is enough for callers who throw the errors away. The readers in `AttrUtility`
append to the list of errors as well, for callers who look at it afterwards.
-/
import Hypermeow.Binary.Node

namespace Hypermeow.Binary

open Lib Types

namespace Attrs

def getJID (attrs : Attrs) (key : Bytes) : Option JID :=
  match attrs.get key with
  | some (.jid jid) => some jid
  | _ => none

def getString (attrs : Attrs) (key : Bytes) : Option Bytes :=
  match attrs.get key with
  | some (.string s) => some s
  | _ => none

def getInt64 (attrs : Attrs) (key : Bytes) : Option Int64 :=
  ((attrs.getString key).bind parseInt).map Int64.ofInt

/-- the value under the key, `false` if there is none -/
def bool (attrs : Attrs) (key : Bytes) : Bool := ((attrs.getString key).bind parseBool).getD false

end Attrs

/-! ## With errors -/

inductive AttrError where
  /-- `didn't find required JID attribute` -/
  | missingJID (key : Bytes)
  /-- `expected attribute to be JID` -/
  | notJID (key : Bytes)
  /-- `didn't find required attribute` -/
  | missing (key : Bytes)
  /-- `expected attribute to be string` -/
  | notString (key : Bytes)
  /-- `failed to parse int in attribute` -/
  | badInt (key : Bytes)
  /-- `failed to parse uint in attribute` -/
  | badUint (key : Bytes)
deriving DecidableEq, Repr

/-- a value that is read while errors are collected -/
abbrev AttrUtility (α : Type) := StateM (List AttrError) α

namespace AttrUtility

variable (attrs : Attrs) (key : Bytes)

def report (e : AttrError) : AttrUtility Unit := modify fun errors => errors ++ [e]

def getJID (require : Bool) : AttrUtility (Option JID) :=
  match attrs.get key with
  | some (.jid jid) => pure (some jid)
  | some _ => do
    report (.notJID key)
    pure none
  | none => do
    if require then report (.missingJID key)
    pure none

def optionalJID : AttrUtility (Option JID) := getJID attrs key false

def optionalJIDOrEmpty : AttrUtility JID := return (← getJID attrs key false).getD emptyJID

def jid : AttrUtility JID := return (← getJID attrs key true).getD emptyJID

def getString (require : Bool) : AttrUtility (Option Bytes) :=
  match attrs.get key with
  | some (.string s) => pure (some s)
  | some _ => do
    report (.notString key)
    pure none
  | none => do
    if require then report (.missing key)
    pure none

def optionalString : AttrUtility Bytes := return (← getString attrs key false).getD []

def string : AttrUtility Bytes := return (← getString attrs key true).getD []

def getInt64 (require : Bool) : AttrUtility (Option Int64) := do
  match ← getString attrs key require with
  | none => pure none
  | some s =>
    match parseInt s with
    | none => do
      report (.badInt key)
      pure none
    | some i => pure (some (Int64.ofInt i))

def optionalInt : AttrUtility Int64 := return (← getInt64 attrs key false).getD 0

/-- seconds; 0 is the zero time, also when there is no time -/
def unixTime : AttrUtility Int64 := return (← getInt64 attrs key true).getD 0

def optionalUnixTime : AttrUtility Int64 := return (← getInt64 attrs key false).getD 0

def getUint64 (require : Bool) : AttrUtility (Option UInt64) := do
  match ← getString attrs key require with
  | none => pure none
  | some s =>
    match parseUint s with
    | none => do
      report (.badUint key)
      pure none
    | some n =>
      if n < 2 ^ 64 then pure (some (UInt64.ofNat n))
      else do
        report (.badUint key)
        pure none

def uint64 : AttrUtility UInt64 := return (← getUint64 attrs key true).getD 0

theorem bind_run {α β : Type} (x : AttrUtility α) (f : α → AttrUtility β) (errors : List AttrError) :
    (x >>= f) errors = f (x errors).1 (x errors).2 := rfl

theorem pure_run {α : Type} (a : α) (errors : List AttrError) : (pure a : AttrUtility α) errors = (a, errors) := rfl

/-- the value does not depend on earlier errors -/
theorem fst_getJID (require : Bool) (errors : List AttrError) :
    (getJID attrs key require errors).1 = Attrs.getJID attrs key := by
  unfold getJID Attrs.getJID
  cases attrs.get key with
  | none => cases require <;> rfl
  | some value => cases value <;> rfl

theorem fst_optionalJIDOrEmpty (errors : List AttrError) :
    (optionalJIDOrEmpty attrs key errors).1 = (Attrs.getJID attrs key).getD emptyJID :=
  congrArg (·.getD emptyJID) (fst_getJID attrs key false errors)

theorem fst_jid (errors : List AttrError) : (jid attrs key errors).1 = (Attrs.getJID attrs key).getD emptyJID :=
  congrArg (·.getD emptyJID) (fst_getJID attrs key true errors)

end AttrUtility

end Hypermeow.Binary
