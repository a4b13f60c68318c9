/-
The cached LID map (`store/sqlstore/lidmap.go`): which phone number (PN) belongs to which hidden user (LID).

The table `whatsmeow_lid_map` has a row for each known pair; the LID is its primary key and the PN is unique. In front of it
are two maps of at most `maxLIDCacheEntries` entries, one for each direction. An empty user in a map says that the table
has no row. `FillCache` reads the whole table; if that fits, `cacheFilled` says that a user who is not in the maps has no
row. A full map drops an entry, together with its mirror image in the other map.

Model: the receiver is a `Session` with the maps as memory. The calls are methods in the order of the source; each
statement, each row of a result, begin and commit may fail; a dropped entry and the order of rows are picks of the
environment. Users are byte strings. Every method holds `lidCacheLock`, so a method is one step; the second look at the
maps after the lock was taken again is kept where the source has it. `Side` is the user of a pair that is looked up: a
function of the source that gets both maps as arguments gets the side here.
-/
import Hypermeow.Lib.BoundedMap
import Hypermeow.Lib.Database
import Hypermeow.Types.JID

namespace Hypermeow.Store

open Lib Types

/-! ## The maps -/

abbrev UserCache := GoMap Bytes Bytes

structure CachedLIDMap where
  pnToLIDCache : UserCache
  lidToPNCache : UserCache
  cacheFilled : Bool

def maxLIDCacheEntries : ℕ := 65536

def newCachedLIDMap : CachedLIDMap := ⟨∅, ∅, false⟩

/-- the user of a mapping that is looked up -/
inductive Side where
  | pn
  | lid
deriving DecidableEq, Repr

def Side.other : Side → Side
  | .pn => .lid
  | .lid => .pn

/-- deletes the entry that the iteration meets first, and its mirror image -/
def evictLIDCacheEntry (first : ℕ) (cache reverse : UserCache) : UserCache × UserCache :=
  match GoMap.someKey first cache with
  | none => (cache, reverse)
  | some source =>
    let target := GoMap.at0 cache source
    (cache.erase source,
      if target ≠ [] ∧ GoMap.at0 reverse target = source then reverse.erase target else reverse)

/-- `reverse` without the old target of the source, if that target is another one and leads back -/
def detached (cache reverse : UserCache) (source target : Bytes) : UserCache :=
  let old := GoMap.at0 cache source
  if old ≠ [] ∧ old ≠ target ∧ GoMap.at0 reverse old = source then reverse.erase old else reverse

namespace CachedLIDMap

/-- the map from users of the side -/
def sourceToTarget (m : CachedLIDMap) : Side → UserCache
  | .pn => m.pnToLIDCache
  | .lid => m.lidToPNCache

/-- the two maps, the one of the side first -/
def setCaches (m : CachedLIDMap) : Side → UserCache × UserCache → CachedLIDMap
  | .pn, c => { m with pnToLIDCache := c.1, lidToPNCache := c.2 }
  | .lid, c => { m with lidToPNCache := c.1, pnToLIDCache := c.2 }

def evict (m : CachedLIDMap) (side : Side) (first : ℕ) : CachedLIDMap :=
  m.setCaches side (evictLIDCacheEntry first (m.sourceToTarget side) (m.sourceToTarget side.other))

/-- an eviction, if the key is new and the map of the side is full -/
def makeRoom (m : CachedLIDMap) (side : Side) (key : Bytes) (first : ℕ) : CachedLIDMap :=
  if key ∉ m.sourceToTarget side ∧ maxLIDCacheEntries ≤ (m.sourceToTarget side).keys.length then m.evict side first
  else m

def cacheMissLocked (m : CachedLIDMap) (side : Side) (source : Bytes) (first : ℕ) : CachedLIDMap :=
  if source ∈ m.sourceToTarget side then m
  else
    let m := m.makeRoom side source first
    m.setCaches side ((m.sourceToTarget side).insert source [], m.sourceToTarget side.other)

/-- the two maps after the old LID of the PN and the old PN of the LID no longer lead to it -/
def detach (m : CachedLIDMap) (lid pn : Bytes) : CachedLIDMap :=
  let m := { m with lidToPNCache := detached m.pnToLIDCache m.lidToPNCache pn lid }
  { m with pnToLIDCache := detached m.lidToPNCache m.pnToLIDCache lid pn }

def cacheMappingLocked (m : CachedLIDMap) (lid pn : Bytes) (first first' : ℕ) : CachedLIDMap :=
  let m := ((m.detach lid pn).makeRoom .pn pn first).makeRoom .lid lid first'
  { m with pnToLIDCache := m.pnToLIDCache.insert pn lid, lidToPNCache := m.lidToPNCache.insert lid pn }

end CachedLIDMap

/-! ## The table -/

structure LIDRow where
  lid : Bytes
  pn : Bytes
deriving DecidableEq, Repr

def LIDRow.source (r : LIDRow) : Side → Bytes
  | .pn => r.pn
  | .lid => r.lid

def LIDRow.target (r : LIDRow) (side : Side) : Bytes := r.source side.other

/-- `whatsmeow_lid_map` with its constraints -/
structure LIDTable where
  rows : List LIDRow
  primaryKey : (rows.map (·.lid)).Nodup
  unique : (rows.map (·.pn)).Nodup

namespace LIDTable

/-- `getLIDForPNQuery`, `getPNForLIDQuery` -/
def find (t : LIDTable) (side : Side) (user : Bytes) : Option Bytes :=
  (t.rows.find? fun r => r.source side = user).map (·.target side)

/-- `deleteExistingLIDMappingQuery` -/
def deleteExistingLIDMapping (t : LIDTable) (lid pn : Bytes) : LIDTable where
  rows := t.rows.filter fun r => ¬(r.lid ≠ lid ∧ r.pn = pn)
  primaryKey := t.primaryKey.sublist (List.filter_sublist.map _)
  unique := t.unique.sublist (List.filter_sublist.map _)

/-- the rows after `putLIDMappingQuery`: the row of the LID is updated, or a new one inserted -/
def upserted (t : LIDTable) (lid pn : Bytes) : List LIDRow :=
  if t.rows.any fun r => r.lid = lid then t.rows.map fun r => if r.lid = lid then ⟨lid, pn⟩ else r
  else t.rows ++ [⟨lid, pn⟩]

/-- `putLIDMappingQuery` -/
def putLIDMapping (t : LIDTable) (lid pn : Bytes) : Option LIDTable :=
  if h : ((t.upserted lid pn).map (·.lid)).Nodup ∧ ((t.upserted lid pn).map (·.pn)).Nodup then
    some ⟨t.upserted lid pn, h.1, h.2⟩
  else none

end LIDTable

/-! ## The methods -/

/-- `store.LIDMapping` -/
structure LIDMapping where
  lid : JID
  pn : JID
deriving DecidableEq, Repr

inductive LIDError where
  /-- `invalid GetLIDForPN call with non-PN JID` -/
  | nonPN (jid : JID)
  /-- `invalid GetPNForLID call with non-LID JID` -/
  | nonLID (jid : JID)
  /-- `invalid PutLIDMapping call` -/
  | invalidPut (lid pn : JID)
  | database
deriving DecidableEq, Repr

abbrev LIDStore := Session CachedLIDMap LIDTable

namespace LIDStore

open Session

/-- `cacheMappingLocked` with the evictions that the runtime picks -/
def cacheMapping (lid pn : Bytes) : Go LIDStore LIDError Unit := do
  let first ← pick
  let first' ← pick
  update fun m => m.cacheMappingLocked lid pn first first'

def cacheMiss (side : Side) (source : Bytes) : Go LIDStore LIDError Unit := do
  let first ← pick
  update fun m => m.cacheMissLocked side source first

/-- caches each row and hands it to `fn`; the number of rows is returned as well -/
def scanManyLids {ρ : Type} (fn : ρ → LIDRow → ρ) : List LIDRow → ρ → Go LIDStore LIDError (ℕ × ρ)
  | [], acc => do
    call .database
    pure (0, acc)
  | row :: rows, acc => do
    call .database
    cacheMapping row.lid row.pn
    let r ← scanManyLids fn rows (fn acc row)
    pure (r.1 + 1, r.2)

/-- the rows that a query selects, cached and handed to `fn` -/
def scanQuery {ρ : Type} (fn : ρ → LIDRow → ρ) (select : LIDRow → Bool) (acc : ρ) :
    Go LIDStore LIDError (ℕ × ρ) := do
  let rows ← query .database fun t => t.rows.filter select
  scanManyLids fn rows acc

def setFilled (filled : Bool) : Go LIDStore LIDError Unit := update fun m => { m with cacheFilled := filled }

/-- the end of `FillCache` -/
def finishFill : Except LIDError (ℕ × Unit) → Go LIDStore LIDError Unit
  | .ok r => setFilled (r.1 ≤ maxLIDCacheEntries)
  | .error e => do
    setFilled false
    Go.throw e

def fillCache : Go LIDStore LIDError Unit := do
  update fun m => { m with pnToLIDCache := ∅, lidToPNCache := ∅ }
  let res ← Go.attempt (scanQuery (fun _ _ => ()) (fun _ => true) ())
  finishFill res

/-- the found user with the device of the source, or no JID -/
def targetJID (source : JID) (targetServer targetUser : Bytes) : JID :=
  if targetUser = [] then emptyJID else { user := targetUser, device := source.device, server := targetServer }

def cacheFound (source : JID) (targetServer targetUser : Bytes) : Go LIDStore LIDError Unit :=
  if targetServer = hiddenUserServer then cacheMapping targetUser source.user else cacheMapping source.user targetUser

/-- the part of `getLIDMapping` that asks the database; an empty user stands for no row -/
def fetchLIDMapping (source : JID) (targetServer : Bytes) (side : Side) : Go LIDStore LIDError JID := do
  call .database
  let s ← Go.get
  let targetUser := (s.tables.find side source.user).getD []
  if targetUser = [] then
    cacheMiss side source.user
    pure emptyJID
  else
    cacheFound source targetServer targetUser
    pure (targetJID source targetServer targetUser)

def getLIDMapping (source : JID) (targetServer : Bytes) (side : Side) : Go LIDStore LIDError JID := do
  let s ← Go.get
  if source.user ∈ s.memory.sourceToTarget side ∨ s.memory.cacheFilled then
    pure (targetJID source targetServer (GoMap.at0 (s.memory.sourceToTarget side) source.user))
  else fetchLIDMapping source targetServer side

def getLIDForPN (pn : JID) : Go LIDStore LIDError JID :=
  if pn.server ≠ defaultUserServer then Go.throw (.nonPN pn) else getLIDMapping pn hiddenUserServer .pn

def getPNForLID (lid : JID) : Go LIDStore LIDError JID :=
  if lid.server ≠ hiddenUserServer then Go.throw (.nonLID lid) else getLIDMapping lid defaultUserServer .lid

/-- what a row answers for the devices of its user -/
def addDevices (side : Side) (targetServer : Bytes) (devices : List JID) (result : GoMap JID JID) (row : LIDRow) :
    GoMap JID JID :=
  GoMap.insertAll (devices.filter fun dev => dev.user = row.source side)
    (fun dev => { dev with server := targetServer, user := row.target side }) result

/-- the answers that the map of the side has -/
def addCached (m : CachedLIDMap) (side : Side) (targetServer : Bytes) (devices : List JID) (result : GoMap JID JID) :
    GoMap JID JID :=
  GoMap.insertAll (devices.filter fun dev => GoMap.at0 (m.sourceToTarget side) dev.user ≠ [])
    (fun dev => targetJID dev targetServer (GoMap.at0 (m.sourceToTarget side) dev.user)) result

def getManyLIDsForPNs (pns : List JID) : Go LIDStore LIDError (GoMap JID JID) := do
  let s ← Go.get
  let valid := pns.filter fun pn => pn.server = defaultUserServer
  let result := addCached s.memory .pn hiddenUserServer valid ∅
  -- a cached miss is asked for again
  let missing := valid.filter fun pn => GoMap.at0 s.memory.pnToLIDCache pn.user = [] ∧ ¬s.memory.cacheFilled
  if missing = [] then pure result
  else
    let r ← scanQuery (addDevices .pn hiddenUserServer missing) (fun row => row.pn ∈ missing.map (·.user)) result
    pure r.2

def lidQueryBatchSize : ℕ := 300

/-- `slices.Chunk` -/
def chunks (n : ℕ) (xs : List Bytes) : List (List Bytes) :=
  (List.range ((xs.length + n - 1) / n)).map fun i => (xs.drop (i * n)).take n

/-- the batches in which the LIDs are asked for -/
def lidBatches (postgres : Bool) (lids : List Bytes) : List (List Bytes) :=
  if postgres then [lids] else chunks lidQueryBatchSize lids

/-- a found LID, and what its row answers -/
def addFound (devices : List JID) (acc : List Bytes × GoMap JID JID) (row : LIDRow) : List Bytes × GoMap JID JID :=
  (row.lid :: acc.1, addDevices .lid defaultUserServer devices acc.2 row)

/-- one query for each batch -/
def scanBatches (devices : List JID) :
    List (List Bytes) → List Bytes × GoMap JID JID → Go LIDStore LIDError (List Bytes × GoMap JID JID)
  | [], acc => pure acc
  | batch :: batches, acc => do
    let r ← scanQuery (addFound devices) (fun row => row.lid ∈ batch) acc
    scanBatches devices batches r.2

/-- the LIDs without a row are remembered -/
def cacheMisses : List Bytes → Go LIDStore LIDError Unit
  | [] => pure ()
  | lid :: lids => do
    cacheMiss .lid lid
    cacheMisses lids

/-- the part of `GetManyPNsForLIDs` under the write lock -/
def fetchPNsForLIDs (postgres : Bool) (missing : List JID) (result : GoMap JID JID) :
    Go LIDStore LIDError (GoMap JID JID) := do
  let s ← Go.get
  let missingLIDs := (missing.map (·.user)).eraseDups
  let result := addCached s.memory .lid defaultUserServer missing result
  let queryLIDs := missingLIDs.filter fun lid => lid ∉ s.memory.lidToPNCache ∧ ¬s.memory.cacheFilled
  if queryLIDs = [] then pure result
  else
    let r ← scanBatches missing (lidBatches postgres queryLIDs) ([], result)
    cacheMisses (queryLIDs.filter fun lid => lid ∉ r.1)
    pure r.2

def getManyPNsForLIDs (postgres : Bool) (lids : List JID) : Go LIDStore LIDError (GoMap JID JID) := do
  let s ← Go.get
  let valid := lids.filter fun lid => lid.server = hiddenUserServer
  let result := addCached s.memory .lid defaultUserServer valid ∅
  let missing := valid.filter fun lid => lid.user ∉ s.memory.lidToPNCache ∧ ¬s.memory.cacheFilled
  if missing = [] then pure result else fetchPNsForLIDs postgres missing result

def unlockedPutLIDMapping (lid pn : JID) : Go LIDStore LIDError Unit :=
  if lid.server ≠ hiddenUserServer ∨ pn.server ≠ defaultUserServer then Go.throw (.invalidPut lid pn)
  else do
    exec .database fun t => some (t.deleteExistingLIDMapping lid.user pn.user)
    exec .database fun t => t.putLIDMapping lid.user pn.user
    cacheMapping lid.user pn.user

/-- the map already has this LID for the PN -/
def isCached (m : CachedLIDMap) (lid pn : JID) : Bool := m.pnToLIDCache.lookup pn.user = some lid.user

def putLIDMapping (lid pn : JID) : Go LIDStore LIDError Unit :=
  if lid.server ≠ hiddenUserServer ∨ pn.server ≠ defaultUserServer then Go.throw (.invalidPut lid pn)
  else do
    let s ← Go.get
    if isCached s.memory lid pn then pure () else transaction .database (unlockedPutLIDMapping lid pn)

/-- the loop in the transaction of `PutManyLIDMappings` -/
def putAll : List LIDMapping → Go LIDStore LIDError Unit
  | [] => pure ()
  | mapping :: mappings => do
    unlockedPutLIDMapping mapping.lid mapping.pn
    putAll mappings

/-- the mappings of a batch that are written: those on the right servers that the map does not have yet, once each -/
def toWrite (m : CachedLIDMap) (mappings : List LIDMapping) : List LIDMapping :=
  (mappings.filter fun mapping =>
    (mapping.lid.server = hiddenUserServer ∧ mapping.pn.server = defaultUserServer) ∧
      ¬isCached m mapping.lid mapping.pn).eraseDups

def putManyLIDMappings (mappings : List LIDMapping) : Go LIDStore LIDError Unit := do
  let s ← Go.get
  if toWrite s.memory mappings = [] then pure ()
  else transaction .database (putAll (toWrite s.memory mappings))

end LIDStore

/-! ## Runs -/

/-- a call of a method -/
inductive LIDOp where
  | fillCache
  | putLIDMapping (lid pn : JID)
  | putManyLIDMappings (mappings : List LIDMapping)
  | getLIDForPN (pn : JID)
  | getPNForLID (lid : JID)
  | getManyLIDsForPNs (pns : List JID)
  | getManyPNsForLIDs (postgres : Bool) (lids : List JID)

/-- what a method returns -/
inductive LIDAnswer where
  | done
  | jid (found : JID)
  | jids (found : GoMap JID JID)

namespace LIDStore

def runOp : LIDOp → Go LIDStore LIDError LIDAnswer
  | .fillCache => do fillCache; pure .done
  | .putLIDMapping lid pn => do putLIDMapping lid pn; pure .done
  | .putManyLIDMappings mappings => do putManyLIDMappings mappings; pure .done
  | .getLIDForPN pn => do let found ← getLIDForPN pn; pure (.jid found)
  | .getPNForLID lid => do let found ← getPNForLID lid; pure (.jid found)
  | .getManyLIDsForPNs pns => do let found ← getManyLIDsForPNs pns; pure (.jids found)
  | .getManyPNsForLIDs postgres lids => do let found ← getManyPNsForLIDs postgres lids; pure (.jids found)

def step (s : LIDStore) (op : LIDOp) : LIDStore := (runOp op s).2

end LIDStore

end Hypermeow.Store
