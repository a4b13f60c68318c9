/-
The session cache of a context (`store/sessioncache.go`) and the session methods of a device (`store/signal.go`).

`WithCachedSessions` loads the sessions of some addresses and returns a context with a cache. Under that context loads and
stores of a device go to the cache, and a stored entry is marked dirty. `PutCachedSessions` writes the dirty entries to the
table. `DeleteSession` goes to the table only.

Model: the context's cache is the memory of a `Session`, `none` for a context without one; the table of one account's sessions
is a map. The serializer of session records is a parameter. Records are values: what a caller does to a record that it holds
is not seen by the cache. The store has `IterateSession` and `IterateSessions`, as `SQLStore` does. Of `PutManySessions` the
order of the rows is left out, its addresses are distinct. Logging is left out.
-/
import Hypermeow.Lib.BoundedMap
import Hypermeow.Lib.Database
import Hypermeow.Lib.Decimal

namespace Hypermeow.Store

open Lib Session

/-- session records and their serialised form -/
structure SessionSerializer (σ : Type) where
  newSession : σ
  serialize : σ → Bytes
  newSessionFromBytes : Bytes → Option σ
  newSessionFromBytes_serialize : ∀ r, newSessionFromBytes (serialize r) = some r

structure SessionCacheEntry (σ : Type) where
  dirty : Bool
  found : Bool
  record : σ

abbrev SessionCacheMap (σ : Type) := GoMap Bytes (SessionCacheEntry σ)

/-- a context, maybe with a cache, over the table of sessions -/
abbrev DeviceSession (σ : Type) := Session (Option (SessionCacheMap σ)) (GoMap Bytes Bytes)

inductive SessionError where
  /-- `failed to prefetch sessions` -/
  | prefetch
  /-- `failed to load session with …` -/
  | load
  /-- `failed to store session with …` -/
  | store
  /-- `failed to check if store has session for …` -/
  | check
  /-- `failed to delete session with …` -/
  | delete
  /-- `failed to store cached sessions` -/
  | storeCached
deriving DecidableEq, Repr

section Device

variable {σ : Type} (Z : SessionSerializer σ)

/-! ## The cache -/

def getCachedSession (cache : Option (SessionCacheMap σ)) (address : Bytes) : Option (SessionCacheEntry σ) :=
  cache.bind fun c => c.lookup address

/-- the entries before the table was asked -/
def absentSessions (addresses : List Bytes) : SessionCacheMap σ :=
  GoMap.insertAll addresses (fun _ => ⟨false, false, Z.newSession⟩) ∅

/-- the callback of the prefetch; an entry whose row does not deserialise is taken out -/
def loadCachedSession (wrapped : SessionCacheMap σ) (row : Bytes × Bytes) : SessionCacheMap σ :=
  match Z.newSessionFromBytes row.2 with
  | some record => wrapped.insert row.1 ⟨false, true, record⟩
  | none => wrapped.erase row.1

/-- the first result, which addresses have a session, is the `found` of the entries -/
def withCachedSessions (addresses : List Bytes) : Go (DeviceSession σ) SessionError Unit :=
  if addresses = [] then pure ()
  else do
    let rows ← query .prefetch fun t => t.rows.filter fun r => r.1 ∈ addresses
    update fun _ => some (rows.foldl (loadCachedSession Z) (absentSessions Z addresses))

/-- the chunks of a large `PutManySessions` -/
def putManySessionsChunks : ℕ → List (Bytes × Bytes) → Go (DeviceSession σ) SessionError Unit
  | 0, _ => pure ()
  | n + 1, rows => do
    exec .storeCached fun t => some (t.upsert (rows.take 1000))
    putManySessionsChunks n (rows.drop 1000)

/-- `native` says that the driver takes arrays -/
def putManySessions (native : Bool) (rows : List (Bytes × Bytes)) : Go (DeviceSession σ) SessionError Unit :=
  if rows = [] then pure ()
  else if native || rows.length ≤ 1000 then exec .storeCached fun t => some (t.upsert rows)
  else transaction .storeCached (putManySessionsChunks ((rows.length + 999) / 1000) rows)

def dirtySessions (cache : SessionCacheMap σ) : List (Bytes × Bytes) :=
  (cache.rows.filter fun r => r.2.dirty).map fun r => (r.1, Z.serialize r.2.record)

/-- write the dirty entries and empty the cache -/
def flushSessions (native : Bool) : Option (SessionCacheMap σ) → Go (DeviceSession σ) SessionError Unit
  | none => pure ()
  | some cache => do
    putManySessions native (dirtySessions Z cache)
    update fun _ => some ∅

def putCachedSessions (native : Bool) : Go (DeviceSession σ) SessionError Unit := do
  let s ← Go.get
  flushSessions Z native s.memory

/-! ## The methods of a device -/

/-- the record of a row -/
def loadedSession : Option Bytes → Go (DeviceSession σ) SessionError σ
  | none => pure Z.newSession
  | some raw =>
    match Z.newSessionFromBytes raw with
    | some record => pure record
    | none => Go.throw .load

def loadSession (address : Bytes) : Go (DeviceSession σ) SessionError σ := do
  let s ← Go.get
  match getCachedSession s.memory address with
  | some entry => pure entry.record
  | none => do
    call .load
    let s ← Go.get
    loadedSession Z (s.tables.lookup address)

def storeSession (address : Bytes) (record : σ) : Go (DeviceSession σ) SessionError Unit := do
  let s ← Go.get
  match s.memory with
  | some cache => update fun _ => some (cache.insert address ⟨true, true, record⟩)
  | none => exec .store fun t => some (t.insert address (Z.serialize record))

def containsSession (address : Bytes) : Go (DeviceSession σ) SessionError Bool := do
  let s ← Go.get
  match getCachedSession s.memory address with
  | some entry => pure entry.found
  | none => do
    call .check
    let s ← Go.get
    pure (s.tables.lookup address).isSome

/-- the device's method and the one of the session store that it calls -/
def deleteSession (address : Bytes) : Go (DeviceSession σ) SessionError Unit :=
  exec .delete fun t => some (t.erase address)

end Device

end Hypermeow.Store
