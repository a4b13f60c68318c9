/-
The identity cache and the committed identity keys.

A run is a sequence of calls of the identity store and of `MigratePNToLID`, some of them inside the transaction that
`bufferedDecrypt` opens with `DoDecryptionTxn`. That transaction is rolled back when the message does not decrypt, when the
event cannot be stored, or when the commit fails. A rollback restores the tables; the cache is not told.

`Agrees`: every entry of the cache is the row of its address (or says that there is none).
-/
import Hypermeow.Lib.Runs
import Hypermeow.Store.IdentityAgreement

namespace Hypermeow.Store

open Lib Types Session

/-! ## Runs -/

inductive IdentityOp where
  | putIdentity (address : Bytes) (key : Key)
  | deleteIdentity (address : Bytes)
  | deleteAllIdentities (phone : Bytes)
  | isTrustedIdentity (address : Bytes) (key : Key)
  | ensureIdentity (address : Bytes) (key : Key) (deleteGeneration : ℕ)
  | getManyIdentities (addresses : List Bytes)
  | migratePNToLID (sqlite : Bool) (now : ℕ) (pn lid : JID)

/-- the call without its result -/
def IdentityOp.run (inTxn : Bool) : IdentityOp → Go SignalSession StoreError Unit
  | .putIdentity address key => Store.putIdentity address key
  | .deleteIdentity address => Store.deleteIdentity address
  | .deleteAllIdentities phone => Store.deleteAllIdentities phone
  | .isTrustedIdentity address key => do
    let _ ← Store.isTrustedIdentity address key
    pure ()
  | .ensureIdentity address key deleteGeneration => do
    let _ ← Store.ensureIdentity address key deleteGeneration
    pure ()
  | .getManyIdentities addresses => do
    let _ ← Store.getManyIdentities addresses
    pure ()
  | .migratePNToLID sqlite now pn lid => do
    let _ ← Store.migratePNToLID inTxn sqlite now pn lid
    pure ()

structure IdentityState where
  session : SignalSession
  /-- the committed tables, while a transaction is open -/
  saved : Option SignalTables

inductive CallbackError where
  | decrypt
  | putBufferedEvent
  | commit
deriving DecidableEq, Repr

/-- how the transaction of `bufferedDecrypt` ends: the message is decrypted or not, the event is stored, the commit -/
def endCallback : Bool → Go SignalSession CallbackError Unit
  | true => do
    call .putBufferedEvent
    call .commit
  | false => Go.throw .decrypt

inductive IdentityStep where
  | beginTxn
  | call (op : IdentityOp)
  | endTxn (decrypted : Bool)

namespace IdentityState

/-- transactions of `bufferedDecrypt` are not nested -/
def step (s : IdentityState) : IdentityStep → IdentityState
  | .beginTxn =>
    match s.saved with
    | some _ => s
    | none =>
      let begun := (Session.call () : Go SignalSession Unit Unit) s.session
      ⟨begun.2, if begun.1.isOk then some s.session.tables else none⟩
  | .call op => ⟨(op.run s.saved.isSome s.session).2, s.saved⟩
  | .endTxn decrypted =>
    match s.saved with
    | none => s
    | some tables =>
      let ended := endCallback decrypted s.session
      if ended.1.isOk then ⟨ended.2, none⟩ else ⟨{ ended.2 with tables := tables }, none⟩

/-- the step fails: a call returns an error, or a transaction is rolled back -/
def Fails (s : IdentityState) : IdentityStep → Prop
  | .beginTxn => False
  | .call op => (op.run s.saved.isSome s.session).1.isOk = false
  | .endTxn decrypted => s.saved.isSome = true ∧ (endCallback decrypted s.session).1.isOk = false

end IdentityState

/-- a failure leaves the rows of the cached addresses as they were -/
def IdentityState.Harmless (s : IdentityState) (a : IdentityStep) : Prop :=
  s.Fails a → ∀ address ∈ s.session.memory.identityCache, identityRow (s.step a).session address = identityRow s.session address

variable {s s' : SignalSession}

/-! ## Steps and runs -/

namespace IdentityState

variable {t : IdentityState} {a : IdentityStep}

/-- a new store over the tables, outside of a transaction -/
def start (tables : SignalTables) (faults : List Bool) (picks : List ℕ) : IdentityState :=
  ⟨⟨newSQLStore, tables, faults, picks⟩, none⟩

/-! ## Examples -/

def emptyTables : SignalTables := ⟨∅, ∅, ∅⟩

def keyOf (b : UInt8) : Key := Vector.replicate 32 b

def alice : Bytes := ascii "491761234567:0"

/-- **A failed read leaves an absence cached.** `EnsureIdentity` inserts the row of an address that the cache has as absent,
and fails to read it back. From then on every key of that address is trusted. -/
theorem failed_read_leaves_absence_cached :
    let steps := [IdentityStep.call (.isTrustedIdentity alice (keyOf 1)), .call (.ensureIdentity alice (keyOf 1) 0)]
    ∃ s, run step (start emptyTables [false, false, true] []) steps = ⟨s, none⟩ ∧
      s.tables.identityKeys.lookup alice = some (keyOf 1) ∧ (isTrustedIdentity alice (keyOf 2) s).1 = .ok true := by
  refine ⟨_, rfl, ?_, ?_⟩
  · decide
  · decide

end IdentityState

end Hypermeow.Store
