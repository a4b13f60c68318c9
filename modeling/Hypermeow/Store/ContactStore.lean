/-
The contact store and its cache (`store/sqlstore/store.go`).

The table `whatsmeow_contacts` is keyed by the text of a JID, the cache by the JID itself. The calls for one contact bind the
JID, and a JID without a server is bound as NULL; the calls for many contacts bind its text. NULL equals nothing: a row with
that key conflicts with no other one and no query for one contact finds it.

The calls keep the cache up to date in four ways: the calls for one contact and `PutManyContactUsernames` write what they
stored into the cached contact, `PutAllContactNames` empties the cache, `PutManyRedactedPhones` takes the contacts out whose
cached number is another one, and `GetAllContacts` caches every row under the JID that it reads from the row's text.
-/
import Hypermeow.Lib.BoundedMap
import Hypermeow.Lib.Database
import Hypermeow.Types.ParseJID

namespace Hypermeow.Store

open Lib Types Session

/-! ## Contacts and rows -/

structure ContactInfo where
  found : Bool := false
  firstName : Bytes := []
  fullName : Bytes := []
  pushName : Bytes := []
  businessName : Bytes := []
  username : Bytes := []
  redactedPhone : Bytes := []
deriving DecidableEq, Repr

structure ContactEntry where
  jid : JID
  firstName : Bytes
  fullName : Bytes
  username : Bytes
  usernameSet : Bool
deriving DecidableEq, Repr

structure RedactedPhoneEntry where
  jid : JID
  redactedPhone : Bytes
deriving DecidableEq, Repr

structure ContactUsernameEntry where
  jid : JID
  username : Bytes
deriving DecidableEq, Repr

/-- the columns of a row beside its key; `none` is NULL -/
structure ContactRow where
  firstName : Option Bytes := none
  fullName : Option Bytes := none
  pushName : Option Bytes := none
  businessName : Option Bytes := none
  redactedPhone : Option Bytes := none
  username : Option Bytes := none
deriving DecidableEq, Repr

/-- the contact that a query returns; NULL is read as the empty string -/
def contactInfo : Option ContactRow → ContactInfo
  | some row =>
    { found := true
      firstName := row.firstName.getD []
      fullName := row.fullName.getD []
      pushName := row.pushName.getD []
      businessName := row.businessName.getD []
      username := row.username.getD []
      redactedPhone := row.redactedPhone.getD [] }
  | none => {}

/-! ### What the statements set -/

def putContactNameQuery (firstName fullName : Bytes) (row : ContactRow) : ContactRow :=
  { row with firstName := some firstName, fullName := some fullName }

def putContactNamesQuery (firstName fullName username : Bytes) (row : ContactRow) : ContactRow :=
  { row with firstName := some firstName, fullName := some fullName, username := some username }

def putContactUsernameQuery (username : Bytes) (row : ContactRow) : ContactRow := { row with username := some username }

def putRedactedPhoneQuery (redactedPhone : Bytes) (row : ContactRow) : ContactRow :=
  { row with redactedPhone := some redactedPhone }

def putPushNameQuery (pushName : Bytes) (row : ContactRow) : ContactRow := { row with pushName := some pushName }

def putBusinessNameQuery (businessName : Bytes) (row : ContactRow) : ContactRow :=
  { row with businessName := some businessName }

/-! ### The table -/

/-- the rows of one `our_jid`, by `their_jid` -/
structure ContactTable where
  rows : GoMap Bytes ContactRow
  /-- the rows whose `their_jid` is NULL -/
  nullRows : List ContactRow

namespace ContactTable

/-- `INSERT … ON CONFLICT DO UPDATE` of the columns that `set` sets -/
def upsert (theirJID : Option Bytes) (set : ContactRow → ContactRow) (t : ContactTable) : ContactTable :=
  match theirJID with
  | some text => { t with rows := t.rows.insert text (set ((t.rows.lookup text).getD {})) }
  | none => { t with nullRows := t.nullRows ++ [set {}] }

/-- one row for each entry -/
def upsertMany {α : Type} (jid : α → JID) (set : α → ContactRow → ContactRow) (entries : List α) (t : ContactTable) :
    ContactTable :=
  entries.foldl (fun t entry => t.upsert (some (jid entry).string) (set entry)) t

/-- `getContactQuery` -/
def select (theirJID : Option Bytes) (t : ContactTable) : Option ContactRow := theirJID.bind t.rows.lookup

/-- `getAllContactsQuery` -/
def selectAll (t : ContactTable) : List (Option Bytes × ContactRow) :=
  t.rows.rows.map (fun r => (some r.1, r.2)) ++ t.nullRows.map fun row => (none, row)

end ContactTable

/-- what reading the row of a contact gives -/
def readContact (t : ContactTable) (user : JID) : ContactInfo := contactInfo (t.select user.value)

/-! ## One contact -/

abbrev ContactCache := GoMap JID ContactInfo

abbrev ContactSession := Session ContactCache ContactTable

inductive ContactError where
  | database
  /-- `error scanning row: …` -/
  | scanningRow (e : ParseJIDError)
deriving DecidableEq, Repr

def maxContactCacheEntries : ℕ := 256

def setCachedContact (user : JID) (info : ContactInfo) : Go ContactSession ContactError Unit := do
  let first ← pick
  update fun cache => cache.putBounded maxContactCacheEntries first user info

def getContact (user : JID) : Go ContactSession ContactError ContactInfo := do
  let s ← Go.get
  match s.memory.lookup user with
  | some cached => pure cached
  | none =>
    call .database
    let s ← Go.get
    setCachedContact user (readContact s.tables user)
    pure (readContact s.tables user)

/-- a contact that differs is written, and then the cached one; the result is the contact as it was before -/
def putContact (user : JID) (differs : ContactInfo → Bool) (set : ContactRow → ContactRow)
    (assign : ContactInfo → ContactInfo) : Go ContactSession ContactError (Option ContactInfo) := do
  let cached ← getContact user
  if differs cached then
    exec .database fun t => some (t.upsert user.value set)
    update fun cache => cache.insert user { assign cached with found := true }
    pure (some cached)
  else pure none

/-- the results of a call that says whether it changed a name -/
def changedFrom (name : ContactInfo → Bytes) : Option ContactInfo → Bool × Bytes
  | some previous => (true, name previous)
  | none => (false, [])

def putPushName (user : JID) (pushName : Bytes) : Go ContactSession ContactError (Bool × Bytes) := do
  let previous ← putContact user (fun cached => cached.pushName != pushName)
    (putPushNameQuery pushName) fun cached => { cached with pushName := pushName }
  pure (changedFrom ContactInfo.pushName previous)

def putBusinessName (user : JID) (businessName : Bytes) : Go ContactSession ContactError (Bool × Bytes) := do
  let previous ← putContact user (fun cached => cached.businessName != businessName)
    (putBusinessNameQuery businessName) fun cached => { cached with businessName := businessName }
  pure (changedFrom ContactInfo.businessName previous)

def putContactName (user : JID) (firstName fullName : Bytes) : Go ContactSession ContactError Unit := do
  let _ ← putContact user (fun cached => cached.firstName != firstName || cached.fullName != fullName)
    (putContactNameQuery firstName fullName) fun cached => { cached with firstName := firstName, fullName := fullName }
  pure ()

def putContactUsername (user : JID) (username : Bytes) : Go ContactSession ContactError Unit := do
  let _ ← putContact user (fun cached => cached.username != username)
    (putContactUsernameQuery username) fun cached => { cached with username := username }
  pure ()

/-! ## Many contacts -/

def contactBatchSize : ℕ := 300

/-- one statement for each chunk -/
def putContactChunks {α : Type} (jid : α → JID) (set : α → ContactRow → ContactRow) :
    ℕ → List α → Go ContactSession ContactError Unit
  | 0, _ => pure ()
  | n + 1, entries => do
    exec .database fun t => some (t.upsertMany jid set (entries.take contactBatchSize))
    putContactChunks jid set n (entries.drop contactBatchSize)

/-- `slices.Chunk` and a mass insert for each chunk -/
def putContactBatches {α : Type} (jid : α → JID) (set : α → ContactRow → ContactRow) (entries : List α) :
    Go ContactSession ContactError Unit :=
  putContactChunks jid set ((entries.length + contactBatchSize - 1) / contactBatchSize) entries

/-- an entry takes the place of the earlier one for its JID -/
def lastWriteWins (acc : GoMap JID ℕ × List ContactUsernameEntry) (entry : ContactUsernameEntry) :
    GoMap JID ℕ × List ContactUsernameEntry :=
  match acc.1.lookup entry.jid with
  | some position => (acc.1, acc.2.set position entry)
  | none => (acc.1.insert entry.jid acc.2.length, acc.2 ++ [entry])

def deduplicateContactUsernamesLastWriteWins (entries : List ContactUsernameEntry) : List ContactUsernameEntry :=
  (entries.foldl lastWriteWins (∅, [])).2

/-- the username goes to the contact if it is cached -/
def cacheUsername (cache : ContactCache) (entry : ContactUsernameEntry) : ContactCache :=
  match cache.lookup entry.jid with
  | some cached => cache.insert entry.jid { cached with username := entry.username, found := true }
  | none => cache

def putManyContactUsernames (entries : List ContactUsernameEntry) : Go ContactSession ContactError Unit :=
  if entries = [] then pure ()
  else do
    transaction .database (putContactBatches ContactUsernameEntry.jid
      (fun entry => putContactUsernameQuery entry.username)
      (deduplicateContactUsernamesLastWriteWins entries))
    update fun cache => (deduplicateContactUsernamesLastWriteWins entries).foldl cacheUsername cache

/-- `exslices.DeduplicateUnsortedOverwriteFunc` for entries with a JID: some of the entries, in some order -/
structure Deduplication where
  overwrite : {α : Type} → (α → JID) → List α → List α
  subset : ∀ {α : Type} (jid : α → JID) (entries : List α), overwrite jid entries ⊆ entries

def ContactEntry.hasUsername (contact : ContactEntry) : Bool := contact.usernameSet || contact.username != []

/-- the entries with a username and those without one -/
def splitContactNameEntries (contacts : List ContactEntry) : List ContactEntry × List ContactEntry :=
  (contacts.filter ContactEntry.hasUsername, contacts.filter fun contact => !contact.hasUsername)

variable (D : Deduplication)

def putAllContactNames (contacts : List ContactEntry) : Go ContactSession ContactError Unit :=
  if contacts = [] then pure ()
  else do
    transaction .database do
      putContactBatches ContactEntry.jid
        (fun contact => putContactNamesQuery contact.firstName contact.fullName contact.username)
        (splitContactNameEntries (D.overwrite ContactEntry.jid contacts)).1
      putContactBatches ContactEntry.jid
        (fun contact => putContactNameQuery contact.firstName contact.fullName)
        (splitContactNameEntries (D.overwrite ContactEntry.jid contacts)).2
    update fun _ => ∅

/-- a contact with another number leaves the cache -/
def forgetRedactedPhone (cache : ContactCache) (entry : RedactedPhoneEntry) : ContactCache :=
  match cache.lookup entry.jid with
  | some cached => if cached.redactedPhone = entry.redactedPhone then cache else cache.erase entry.jid
  | none => cache

def putManyRedactedPhones (entries : List RedactedPhoneEntry) : Go ContactSession ContactError Unit :=
  if entries = [] then pure ()
  else do
    transaction .database (putContactBatches RedactedPhoneEntry.jid
      (fun entry => putRedactedPhoneQuery entry.redactedPhone)
      (D.overwrite RedactedPhoneEntry.jid entries))
    update fun cache => (D.overwrite RedactedPhoneEntry.jid entries).foldl forgetRedactedPhone cache

/-- `Scan`; NULL leaves the zero value -/
def scanJID : Option Bytes → Except ParseJIDError JID
  | none => .ok emptyJID
  | some text =>
    match parseJID text with
    | (jid, none) => .ok jid
    | (_, some e) => .error e

/-- the rows up to the first one that cannot be scanned -/
def scanContacts : List (Option Bytes × ContactRow) → GoMap JID ContactInfo →
    Go ContactSession ContactError (GoMap JID ContactInfo)
  | [], output => pure output
  | row :: rows, output =>
    match scanJID row.1 with
    | .error e => Go.throw (.scanningRow e)
    | .ok jid => do
      setCachedContact jid (contactInfo (some row.2))
      scanContacts rows (output.insert jid (contactInfo (some row.2)))

def getAllContacts : Go ContactSession ContactError (GoMap JID ContactInfo) := do
  let rows ← query .database ContactTable.selectAll
  scanContacts rows ∅

end Hypermeow.Store
