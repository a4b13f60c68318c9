/-
Signal state of an account (`store/sqlstore/store.go`): identity keys with their cache, and the migration of a phone
number's rows to its LID.

`whatsmeow_sessions`, `whatsmeow_identity_keys` and `whatsmeow_sender_keys` are keyed by addresses `user:device`; sender keys
by a chat as well. The identity cache has at most `maxIdentityCacheEntries` entries; an entry says which key an address has,
or that it has none. `identityDeleteGen` counts the deletions.

`MigratePNToLID` copies the rows of a phone number to the LID in one transaction, deletes them, and empties the identity
cache. Rows are selected by `LIKE`, rewritten by `replace()`, and deleted by a range (sessions) or by `LIKE` (the others).

Model: the receiver is a `Session` with one account's tables; the primary keys are the keys of the maps, the check on the
length of identity keys is in the type. `inTxn` says that the context already has a transaction, which `DoTxn` then uses as
it is. An entry of the identity cache that is not `Present` is `none`; the generation and the clock are numbers. Where two
copied rows get the same address, the later one stays. Logging and the methods' contexts are left out.
-/
import Hypermeow.Lib.BoundedMap
import Hypermeow.Lib.Database
import Hypermeow.Lib.SqlText
import Hypermeow.Types.JID

namespace Hypermeow.Store

open Lib Types

/-! ## Tables and caches -/

/-- `[32]byte` -/
abbrev Key := Vector UInt8 32

structure SignalTables where
  sessions : GoMap Bytes Bytes
  identityKeys : GoMap Bytes Key
  /-- by chat and sender -/
  senderKeys : GoMap (Bytes × Bytes) Bytes

structure SQLStore where
  identityCache : GoMap Bytes (Option Key)
  identityDeleteGen : ℕ
  migratedPNSessionsCache : GoMap Bytes Unit
  migratingPNSessions : GoMap Bytes Unit
  /-- until when the phone number is known to have no rows -/
  emptyPNMigrationCache : GoMap Bytes ℕ

def newSQLStore : SQLStore := ⟨∅, 0, ∅, ∅, ∅⟩

def maxIdentityCacheEntries : ℕ := 2048
def maxMigratedPNEntries : ℕ := 1024
def emptyPNMigrationTTL : ℕ := 60

/-- the three tables of the migration -/
inductive MigratedTable where
  | sessions
  | identityKeys
  | senderKeys
deriving DecidableEq, Repr

inductive StoreError where
  | database
  /-- `sql.ErrNoRows` -/
  | noRows
  /-- `failed to migrate …` -/
  | migrate (table : MigratedTable)
  /-- `failed to get rows affected for …` -/
  | rowsAffected (table : MigratedTable)
  /-- `failed to delete extra …` -/
  | deleteExtra (table : MigratedTable)
deriving DecidableEq, Repr

abbrev SignalSession := Session SQLStore SignalTables

open Session

/-! ## Statements -/

/-- `signalAddressRange` as a condition on an ID -/
def inSignalAddressRange (user id : Bytes) : Bool := Sql.inRange (user ++ ascii ":") (user ++ ascii ";") id

/-- `id LIKE user || ':%'` -/
def likeAddress (user id : Bytes) : Bool := Sql.like (user ++ ascii ":%") id

/-- the rows that the migration inserts into a table, whose keys have an ID in them -/
def copiedRows {κ ν : Type} (id : κ → Bytes) (withID : κ → Bytes → κ) (pn lid : Bytes) (t : GoMap κ ν) : List (κ × ν) :=
  (t.rows.filter fun r => likeAddress pn (id r.1)).map fun r => (withID r.1 (Sql.replace (id r.1) pn lid), r.2)

namespace SignalTables

/-- `migratePNToLIDSessionsQuery` -/
def copySessions (pn lid : Bytes) (t : SignalTables) : SignalTables :=
  { t with sessions := t.sessions.upsert (copiedRows id (fun _ their => their) pn lid t.sessions) }

/-- `deleteAllSessionsQuery` -/
def deleteAllSessions (pn : Bytes) (t : SignalTables) : SignalTables :=
  { t with sessions := t.sessions.deleteWhere (inSignalAddressRange pn) }

/-- `migratePNToLIDIdentityKeysQuery` -/
def copyIdentityKeys (pn lid : Bytes) (t : SignalTables) : SignalTables :=
  { t with identityKeys := t.identityKeys.upsert (copiedRows id (fun _ their => their) pn lid t.identityKeys) }

/-- `deleteAllIdentityKeysQuery` -/
def deleteAllIdentityKeys (pn : Bytes) (t : SignalTables) : SignalTables :=
  { t with identityKeys := t.identityKeys.deleteWhere (likeAddress pn) }

/-- `migratePNToLIDSenderKeysQuery` -/
def copySenderKeys (pn lid : Bytes) (t : SignalTables) : SignalTables :=
  let copied := copiedRows Prod.snd (fun k sender => (k.1, sender)) pn lid t.senderKeys
  { t with senderKeys := t.senderKeys.upsert copied }

/-- `deleteAllSenderKeysQuery` -/
def deleteAllSenderKeys (pn : Bytes) (t : SignalTables) : SignalTables :=
  { t with senderKeys := t.senderKeys.deleteWhere fun k => likeAddress pn k.2 }

/-- `hasPNRowsToMigrateQuery` and its form for SQLite -/
def hasPNRowsToMigrate (sqlite : Bool) (pn : Bytes) (t : SignalTables) : Bool :=
  let isPN := if sqlite then inSignalAddressRange pn else likeAddress pn
  t.sessions.keys.any isPN || t.identityKeys.keys.any isPN || t.senderKeys.keys.any fun k => isPN k.2

end SignalTables

/-! ## Identity keys -/

def setCachedIdentity (address : Bytes) (entry : Option Key) : Go SignalSession StoreError Unit := do
  let first ← pick
  update fun m =>
    { m with identityCache := GoMap.putBounded maxIdentityCacheEntries first m.identityCache address entry }

def putIdentity (address : Bytes) (key : Key) : Go SignalSession StoreError Unit := do
  let s ← Go.get
  if s.memory.identityCache.lookup address = some (some key) then pure ()
  else
    -- `putIdentityQuery`
    exec .database fun t => some { t with identityKeys := t.identityKeys.insert address key }
    setCachedIdentity address (some key)

/-- the addresses of the phone number that the cache has, as it says of none -/
def forgetIdentities (phone : Bytes) (cache : GoMap Bytes (Option Key)) : GoMap Bytes (Option Key) :=
  GoMap.insertAll (cache.keys.filter fun address => phone ++ ascii ":" <+: address) (fun _ => none) cache

def bumpDeleteGen : Go SignalSession StoreError Unit :=
  update fun m => { m with identityDeleteGen := m.identityDeleteGen + 1 }

def deleteAllIdentities (phone : Bytes) : Go SignalSession StoreError Unit := do
  -- `deleteAllIdentitiesQuery`
  exec .database fun t => some { t with identityKeys := t.identityKeys.deleteWhere (inSignalAddressRange phone) }
  bumpDeleteGen
  update fun m => { m with identityCache := forgetIdentities phone m.identityCache }

def deleteIdentity (address : Bytes) : Go SignalSession StoreError Unit := do
  -- `deleteIdentityQuery`
  exec .database fun t => some { t with identityKeys := t.identityKeys.erase address }
  bumpDeleteGen
  setCachedIdentity address none

def deleteAllSessions (phone : Bytes) : Go SignalSession StoreError Unit :=
  exec .database fun t => some (t.deleteAllSessions phone)

/-- an address without a key trusts any key -/
def trusts (known : Option Key) (key : Key) : Bool := known.all fun k => k = key

/-- `getIdentityQuery`, cached -/
def fetchIdentity (address : Bytes) : Go SignalSession StoreError (Option Key) := do
  call .database
  let s ← Go.get
  setCachedIdentity address (s.tables.identityKeys.lookup address)
  pure (s.tables.identityKeys.lookup address)

def isTrustedIdentity (address : Bytes) (key : Key) : Go SignalSession StoreError Bool := do
  let s ← Go.get
  match s.memory.identityCache.lookup address with
  | some known => pure (trusts known key)
  | none => do
    let known ← fetchIdentity address
    pure (trusts known key)

/-- the end of `EnsureIdentity`: what the row says after the insert -/
def ensuredIdentity (address : Bytes) (key : Key) : Option Key → Go SignalSession StoreError Bool
  | none => Go.throw .noRows
  | some stored => do
    setCachedIdentity address (some stored)
    pure (stored = key)

/-- `ensureIdentityQuery`: on conflict nothing happens -/
def SignalTables.ensureIdentity (address : Bytes) (key : Key) (t : SignalTables) : SignalTables :=
  if address ∈ t.identityKeys then t else { t with identityKeys := t.identityKeys.insert address key }

/-- the statements of `EnsureIdentity` -/
def insertIdentity (address : Bytes) (key : Key) : Go SignalSession StoreError Bool := do
  exec .database fun t => some (t.ensureIdentity address key)
  call .database
  let s ← Go.get
  ensuredIdentity address key (s.tables.identityKeys.lookup address)

def ensureIdentity (address : Bytes) (key : Key) (deleteGeneration : ℕ) : Go SignalSession StoreError Bool := do
  let s ← Go.get
  if deleteGeneration ≠ s.memory.identityDeleteGen then pure false
  else
    match s.memory.identityCache.lookup address with
    | some (some stored) => pure (stored = key)
    | _ => insertIdentity address key

/-- one row of the result after the other; each may be the one that fails -/
def scanIdentities : List (Bytes × Key) → GoMap Bytes Key → Go SignalSession StoreError (GoMap Bytes Key)
  | [], result => do
    call .database
    pure result
  | row :: rows, result => do
    call .database
    scanIdentities rows (result.insert row.1 row.2)

/-- `cacheFetchedIdentitiesLocked`: the fetched addresses in the order of the iteration; what the cache has goes first -/
def cacheFetchedIdentities (fetched : Bytes → Option Key) :
    List Bytes → GoMap Bytes Key → Go SignalSession StoreError (GoMap Bytes Key)
  | [], result => pure result
  | address :: addresses, result => do
    let s ← Go.get
    match s.memory.identityCache.lookup address with
    | some (some current) => cacheFetchedIdentities fetched addresses (result.insert address current)
    | some none => cacheFetchedIdentities fetched addresses (result.erase address)
    | none => do
      setCachedIdentity address (fetched address)
      cacheFetchedIdentities fetched addresses result

/-- the query of `GetManyIdentities` for the addresses that the cache does not have -/
def fetchIdentities (missing : List Bytes) (result : GoMap Bytes Key) : Go SignalSession StoreError (GoMap Bytes Key) := do
  let rows ← query .database fun t => t.identityKeys.rows.filter fun r => r.1 ∈ missing
  let result ← scanIdentities rows result
  let order ← shuffle missing
  cacheFetchedIdentities (fun address => rows.lookup address) order result

/-- what the cache has of the addresses -/
def cachedIdentities (cache : GoMap Bytes (Option Key)) (addresses : List Bytes) : GoMap Bytes Key :=
  addresses.foldl (fun result address =>
    match cache.lookup address with
    | some (some key) => result.insert address key
    | _ => result) ∅

/-- the keys of the addresses and the generation they belong to -/
def getManyIdentities (addresses : List Bytes) : Go SignalSession StoreError (GoMap Bytes Key × ℕ) := do
  let s ← Go.get
  let result := cachedIdentities s.memory.identityCache addresses
  let missing := addresses.eraseDups.filter fun address => address ∉ s.memory.identityCache
  if missing = [] then pure (result, s.memory.identityDeleteGen)
  else
    let result ← fetchIdentities missing result
    pure (result, s.memory.identityDeleteGen)

/-! ## Migration -/

/-- one table of the migration: the rows are copied, counted and deleted -/
def migrateTable (table : MigratedTable) (copy delete : SignalTables → SignalTables) (count : SignalTables → ℕ) :
    Go SignalSession StoreError ℕ := do
  let s ← Go.get
  exec (.migrate table) fun t => some (copy t)
  call (.rowsAffected table)
  exec (.deleteExtra table) fun t => some (delete t)
  pure (count s.tables)

/-- how many rows were copied -/
structure Migrated where
  sessionsUpdated : ℕ
  identityKeysUpdated : ℕ
  senderKeysUpdated : ℕ
deriving DecidableEq, Repr

/-- the callback of the transaction -/
def migrateRows (pn lid : Bytes) : Go SignalSession StoreError Migrated := do
  let sessions ← migrateTable .sessions (·.copySessions pn lid) (·.deleteAllSessions pn) fun t =>
    (copiedRows id (fun _ their => their) pn lid t.sessions).length
  let identityKeys ← migrateTable .identityKeys (·.copyIdentityKeys pn lid) (·.deleteAllIdentityKeys pn) fun t =>
    (copiedRows id (fun _ their => their) pn lid t.identityKeys).length
  let senderKeys ← migrateTable .senderKeys (·.copySenderKeys pn lid) (·.deleteAllSenderKeys pn) fun t =>
    (copiedRows Prod.snd (fun k sender => (k.1, sender)) pn lid t.senderKeys).length
  pure ⟨sessions, identityKeys, senderKeys⟩

/-- `DoTxn`: inside a transaction the callback just runs -/
def doTxn {α : Type} (inTxn : Bool) (body : Go SignalSession StoreError α) : Go SignalSession StoreError α :=
  if inTxn then body else transaction .database body

/-- is the phone number known to have no rows? -/
def isEmptyPN (m : SQLStore) (pnSignal : Bytes) (now : ℕ) : Bool :=
  (m.emptyPNMigrationCache.lookup pnSignal).any fun emptyUntil => now < emptyUntil

/-- has the migration been made, is it under way, or is there nothing to do? -/
def skipsMigration (m : SQLStore) (pnSignal : Bytes) (now : ℕ) : Bool :=
  pnSignal ∈ m.migratedPNSessionsCache || pnSignal ∈ m.migratingPNSessions || isEmptyPN m pnSignal now

/-- the first part of `MigratePNToLID`, under its lock -/
def startMigration (pnSignal : Bytes) (now : ℕ) (m : SQLStore) : SQLStore :=
  { m with
    emptyPNMigrationCache :=
      if isEmptyPN m pnSignal now then m.emptyPNMigrationCache else m.emptyPNMigrationCache.erase pnSignal
    migratingPNSessions :=
      if skipsMigration m pnSignal now then m.migratingPNSessions else m.migratingPNSessions.insert pnSignal () }

def finishPNMigration (pnSignal : Bytes) (markMigrated : Bool) (first : ℕ) (m : SQLStore) : SQLStore :=
  { m with
    migratingPNSessions := m.migratingPNSessions.erase pnSignal
    emptyPNMigrationCache := m.emptyPNMigrationCache.erase pnSignal
    migratedPNSessionsCache :=
      if markMigrated then GoMap.putBounded maxMigratedPNEntries first m.migratedPNSessionsCache pnSignal ()
      else m.migratedPNSessionsCache }

def finishEmptyPNMigration (pnSignal : Bytes) (now first : ℕ) (m : SQLStore) : SQLStore :=
  { m with
    migratingPNSessions := m.migratingPNSessions.erase pnSignal
    emptyPNMigrationCache :=
      GoMap.putBounded maxMigratedPNEntries first m.emptyPNMigrationCache pnSignal (now + emptyPNMigrationTTL) }

/-- the end of `MigratePNToLID`, after the transaction -/
def finishMigration (pnSignal : Bytes) : Except StoreError Migrated → Go SignalSession StoreError (Option Migrated)
  | .error e => do
    let first ← pick
    update (finishPNMigration pnSignal false first)
    Go.throw e
  | .ok migrated => do
    let first ← pick
    update (finishPNMigration pnSignal true first)
    update fun m => { m with identityCache := ∅ }
    pure (some migrated)

/-- the query for rows of the phone number; if it fails the migration goes on -/
def checkPNRows (sqlite : Bool) (pnSignal : Bytes) : Go SignalSession StoreError (Except StoreError Bool) :=
  Go.attempt do
    call .database
    let s ← Go.get
    pure (s.tables.hasPNRowsToMigrate sqlite pnSignal)

/-- the transaction of the migration and what follows it -/
def runMigration (inTxn : Bool) (pnSignal lidSignal : Bytes) : Go SignalSession StoreError (Option Migrated) := do
  let res ← Go.attempt (doTxn inTxn (migrateRows pnSignal lidSignal))
  finishMigration pnSignal res

/-- the part of `MigratePNToLID` after the query for rows -/
def migrateChecked (inTxn : Bool) (pnSignal lidSignal : Bytes) (now : ℕ) :
    Except StoreError Bool → Go SignalSession StoreError (Option Migrated)
  | .ok false => do
    let first ← pick
    update (finishEmptyPNMigration pnSignal now first)
    pure none
  | _ => runMigration inTxn pnSignal lidSignal

/-- `none` is returned when the transaction is not run -/
def migratePNToLID (inTxn sqlite : Bool) (now : ℕ) (pn lid : JID) : Go SignalSession StoreError (Option Migrated) := do
  let s ← Go.get
  update (startMigration pn.signalAddressUser now)
  if skipsMigration s.memory pn.signalAddressUser now then pure none
  else
    let hasPNRows ← checkPNRows sqlite pn.signalAddressUser
    migrateChecked inTxn pn.signalAddressUser lid.signalAddressUser now hasPNRows

end Hypermeow.Store
