/-
The decrypted-event buffer (`decryptMessages`, `bufferedDecrypt`, `decryptDM`, `decryptGroupMsg` of `message.go` and the
event buffer of `store/sqlstore/store.go`).

Decrypting a Signal message changes the ratchet, so that the same ciphertext cannot be decrypted again. With the buffer
enabled, the plaintext is stored under a hash of the ciphertext in the same transaction as the new ratchet, the handler is
called outside it, and when the handler succeeds the plaintext is cleared and the row stays as a mark.

Model: the world is the committed database and a log of what happened, newest first. Everything that the program does not
decide is a fate given with the child it concerns: whether each database call goes through, fails or the process dies,
before or after the call took effect; what the handler does. A crash ends the handling of a stanza and keeps the database.
Deliveries are handled one after the other. (`handlerQueueLoop` stops waiting for a handler after five minutes; handlers
that then overlap are not part of these runs.) libsignal, protobuf and SHA-256 are parameters.

The results are in `ExactlyOnce`.
-/
import Hypermeow.Lib.Runs
import Hypermeow.Types.JID

namespace Hypermeow.Client

open Lib Types

/-! ## Stanzas, fates and the world -/

inductive SignalError where
  | oldCounter
  | untrustedIdentity
  | other
deriving DecidableEq, Repr

/-- the parts of the program outside the repository, and the client's settings; `ρ` is the Signal store -/
structure DecryptEnv (ρ : Type) where
  enableDecryptedEventBuffer : Bool
  autoTrustIdentity : Bool
  sha256 : Bytes → Bytes
  /-- does libsignal parse the bytes as a message of the type? -/
  parses : (encType content : Bytes) → Bool
  /-- `cipher.DecryptMessage` of a prekey message; `stateless` does not store the session -/
  decryptPreKey : (stateless : Bool) → (sender : JID) → Bytes → ρ → Except SignalError Bytes × ρ
  /-- `cipher.Decrypt` of a session -/
  decryptNormal : (sender : JID) → Bytes → ρ → Except SignalError Bytes × ρ
  /-- `cipher.Decrypt` of a group's sender key -/
  decryptSenderKey : (chat sender : JID) → Bytes → ρ → Except SignalError Bytes × ρ
  clearUntrustedIdentity : JID → ρ → Except SignalError Unit × ρ
  /-- does `proto.Unmarshal` accept the message? -/
  unmarshals : Bytes → Bool
  /-- does `decodeArmadillo` accept the message? -/
  decodesArmadillo : Bytes → Bool
  /-- does the database driver scan an empty blob as nil? -/
  emptyAsNil : Bool

/-- a child of a message stanza -/
structure EncChild where
  tag : Bytes
  encType : Option Bytes
  /-- the content, if it is a byte slice -/
  content : Option Bytes
  version : ℕ
  /-- the attribute `state` is `"false"` -/
  stateless : Bool

/-- what `decryptMessages` uses of the message info; `sender` is the JID of the Signal session -/
structure StanzaInfo where
  chat : JID
  sender : JID
  isGroup : Bool
  senderIsBot : Bool

/-- how a database call ends, and if it does not go through, whether it took effect -/
inductive Fate where
  | done
  | fails (effect : Bool)
  | crash (effect : Bool)
deriving DecidableEq, Repr

inductive HandlerFate where
  | succeeds
  | fails
  /-- a panic, which `decryptMessages` recovers from -/
  | panics
  | crash
deriving DecidableEq, Repr

/-- what the program does not decide about one child -/
structure Fates (ρ : Type) where
  get : Fate
  txn : Fate
  handler : HandlerFate
  /-- what the handler does to the Signal store (sender keys in the message) -/
  handlerEffect : ρ → ρ
  clear : Fate
  /-- the plaintext of a bot message, if it can be decrypted -/
  botMessage : Option Bytes

/-- how a call of `bufferedDecrypt` went -/
inductive BufferCall where
  | readFailed
  | alreadyProcessed
  | buffered (plaintext : Bytes)
  /-- decrypted, and the transaction took effect -/
  | committed (plaintext : Bytes)
  /-- the transaction did not take effect -/
  | rolledBack
deriving DecidableEq, Repr

inductive BufferEvent where
  | decrypt (hash : Bytes) (call : BufferCall)
  /-- a handler call; bot messages have no hash -/
  | handler (hash : Option Bytes) (message : Bytes) (fate : HandlerFate)
  | cleared (hash : Bytes)
deriving DecidableEq, Repr

/-- the committed database: the Signal store and the rows of `whatsmeow_event_buffer` with their plaintext column -/
structure EventDB (ρ : Type) where
  signal : ρ
  eventBuffer : Bytes → Option (Option Bytes)

structure DecryptWorld (ρ : Type) where
  db : EventDB ρ
  log : List BufferEvent

variable {ρ ε : Type}

def note (e : BufferEvent) : Go (DecryptWorld ρ) ε Unit := Go.modify fun w => { w with log := e :: w.log }

def setDB (db : EventDB ρ) : Go (DecryptWorld ρ) ε Unit := Go.modify fun w => { w with db := db }

/-! ## The event buffer -/

inductive DecryptError where
  | notBytes
  | parse
  | getFailed
  | alreadyProcessed
  | signal (e : SignalError)
  | put
  | txn
  | unpad
  | bot
deriving DecidableEq, Repr

/-- the plaintext column as the driver scans it -/
def DecryptEnv.scan (env : DecryptEnv ρ) (column : Option Bytes) : Option Bytes :=
  if env.emptyAsNil ∧ column = some [] then none else column

/-- `INSERT`, which the primary key refuses for a hash that has a row -/
def EventDB.putBufferedEvent (db : EventDB ρ) (hash plaintext : Bytes) : Option (EventDB ρ) :=
  match db.eventBuffer hash with
  | some _ => none
  | none => some { db with eventBuffer := Function.update db.eventBuffer hash (some (some plaintext)) }

/-- `UPDATE … SET plaintext = NULL`, on the row if there is one -/
def EventDB.clearBufferedEventPlaintext (db : EventDB ρ) (hash : Bytes) : EventDB ρ :=
  { db with eventBuffer := Function.update db.eventBuffer hash ((db.eventBuffer hash).map fun _ => none) }

/-- the key of a ciphertext in the buffer -/
def bufferHash (env : DecryptEnv ρ) (ciphertext : Bytes) (extraHashData : List Bytes) : Bytes :=
  env.sha256 (ciphertext ++ extraHashData.flatMap (fun part => 0 :: part) ++ [0, 0])

/-- a decryption with the ratchet -/
abbrev Decryption (ρ : Type) := ρ → Except SignalError Bytes × ρ

/-- the function that runs in the transaction: decrypt, then save the plaintext -/
def decryptAndPut (decrypt : Decryption ρ) (hash : Bytes) (db : EventDB ρ) : Except DecryptError (Bytes × EventDB ρ) :=
  match decrypt db.signal with
  | (.error e, _) => .error (.signal e)
  | (.ok plaintext, signal) =>
    match { db with signal }.putBufferedEvent hash plaintext with
    | none => .error .put
    | some db => .ok (plaintext, db)

/-- the transaction takes effect as a whole, or not at all -/
def settle (hash plaintext : Bytes) (db : EventDB ρ) (effect : Bool) : Go (DecryptWorld ρ) DecryptError Unit :=
  if effect then do
    setDB db
    note (.decrypt hash (.committed plaintext))
  else note (.decrypt hash .rolledBack)

def doDecryptionTxn (decrypt : Decryption ρ) (hash : Bytes) (fate : Fate) : Go (DecryptWorld ρ) DecryptError Bytes := do
  let w ← Go.get
  match decryptAndPut decrypt hash w.db with
  | .error e => do
    note (.decrypt hash .rolledBack)
    Go.throw e
  | .ok (plaintext, db) =>
    match fate with
    | .done => do
      settle hash plaintext db true
      pure plaintext
    | .fails effect => do
      settle hash plaintext db effect
      Go.throw .txn
    | .crash effect => do
      settle hash plaintext db effect
      Go.crash

/-- `GetBufferedEvent`: the row of a hash, if there is one, with the plaintext as it is scanned -/
def getBufferedEvent (env : DecryptEnv ρ) (hash : Bytes) (fate : Fate) :
    Go (DecryptWorld ρ) DecryptError (Option (Option Bytes)) :=
  match fate with
  | .done => do
    let w ← Go.get
    pure ((w.db.eventBuffer hash).map env.scan)
  | .fails _ => do
    note (.decrypt hash .readFailed)
    Go.throw .getFailed
  | .crash _ => Go.crash

/-- without the buffer the ratchet is changed outside a transaction -/
def unbufferedDecrypt (decrypt : Decryption ρ) : Go (DecryptWorld ρ) DecryptError (Bytes × Bytes) := do
  let w ← Go.get
  setDB { w.db with signal := (decrypt w.db.signal).2 }
  match (decrypt w.db.signal).1 with
  | .ok plaintext => pure (plaintext, List.replicate 32 0)
  | .error e => Go.throw (.signal e)

/-- what the row of a hash means for its ciphertext -/
def answer (decrypt : Decryption ρ) (hash : Bytes) (fate : Fate) :
    Option (Option Bytes) → Go (DecryptWorld ρ) DecryptError (Bytes × Bytes)
  | some none => do
    note (.decrypt hash .alreadyProcessed)
    Go.throw .alreadyProcessed
  | some (some plaintext) => do
    note (.decrypt hash (.buffered plaintext))
    pure (plaintext, hash)
  | none => do
    let plaintext ← doDecryptionTxn decrypt hash fate
    pure (plaintext, hash)

/-- the plaintext and the hash of a ciphertext -/
def bufferedDecrypt (env : DecryptEnv ρ) (ciphertext : Bytes) (decrypt : Decryption ρ) (extraHashData : List Bytes)
    (fates : Fates ρ) : Go (DecryptWorld ρ) DecryptError (Bytes × Bytes) :=
  if env.enableDecryptedEventBuffer = false then unbufferedDecrypt decrypt
  else do
    let hash := bufferHash env ciphertext extraHashData
    let buf ← getBufferedEvent env hash fates.get
    answer decrypt hash fates.txn buf

/-! ## Decrypting a stanza -/

def isValidPadding (plaintext : Bytes) : Bool :=
  let lastByte := plaintext.getLastD 0
  (List.replicate lastByte.toNat lastByte).isSuffixOf plaintext

def unpadMessage (plaintext : Bytes) (version : ℕ) : Option Bytes :=
  if version = 3 then some plaintext
  else if plaintext.length = 0 then none
  else if isValidPadding plaintext = false then none
  else some (plaintext.take (plaintext.length - (plaintext.getLastD 0).toNat))

/-- with `AutoTrustIdentity`, a changed identity is cleared and the message decrypted once more -/
def autoTrusting (env : DecryptEnv ρ) (sender : JID) (decrypt : Decryption ρ) : Decryption ρ := fun s =>
  match decrypt s with
  | (.error .untrustedIdentity, s) =>
    if env.autoTrustIdentity then
      match env.clearUntrustedIdentity sender s with
      | (.error e, s) => (.error e, s)
      | (.ok _, s) => decrypt s
    else (.error .untrustedIdentity, s)
  | r => r

/-- the common part of `decryptDM` and `decryptGroupMsg`: parse, decrypt through the buffer, unpad -/
def decryptContent (env : DecryptEnv ρ) (child : EncChild) (encType : Bytes) (decrypt : Bytes → Decryption ρ)
    (extraHashData : List Bytes) (fates : Fates ρ) : Go (DecryptWorld ρ) DecryptError (Bytes × Option Bytes) :=
  match child.content with
  | none => Go.throw .notBytes
  | some content =>
    if env.parses encType content = false then Go.throw .parse
    else do
      let r ← bufferedDecrypt env content (decrypt content) extraHashData fates
      match unpadMessage r.1 child.version with
      | none => Go.throw .unpad
      | some message => pure (message, some r.2)

def decryptDM (env : DecryptEnv ρ) (child : EncChild) (sender : JID) (isPreKey : Bool) (fates : Fates ρ) :
    Go (DecryptWorld ρ) DecryptError (Bytes × Option Bytes) :=
  if isPreKey then
    decryptContent env child (ascii "pkmsg")
      (fun content => autoTrusting env sender (env.decryptPreKey child.stateless sender content))
      [ascii "prekey", sender.string] fates
  else decryptContent env child (ascii "msg") (env.decryptNormal sender) [ascii "normal", sender.string] fates

def decryptGroupMsg (env : DecryptEnv ρ) (child : EncChild) (sender chat : JID) (fates : Fates ρ) :
    Go (DecryptWorld ρ) DecryptError (Bytes × Option Bytes) :=
  decryptContent env child (ascii "skmsg") (env.decryptSenderKey chat sender)
    [ascii "senderkey", chat.string, sender.string] fates

/-- a bot message has its own key and does not go through the buffer -/
def decryptBotMessage (fates : Fates ρ) : Go (DecryptWorld ρ) DecryptError (Bytes × Option Bytes) :=
  match fates.botMessage with
  | some message => pure (message, none)
  | none => Go.throw .bot

/-- the decryption for the type of a child; none for a type that is not handled -/
def decryptEnc (env : DecryptEnv ρ) (info : StanzaInfo) (child : EncChild) (fates : Fates ρ) (encType : Bytes) :
    Option (Go (DecryptWorld ρ) DecryptError (Bytes × Option Bytes)) :=
  if encType = ascii "pkmsg" ∨ encType = ascii "msg" then
    some (decryptDM env child info.sender (encType = ascii "pkmsg") fates)
  else if info.isGroup ∧ encType = ascii "skmsg" then some (decryptGroupMsg env child info.sender info.chat fates)
  else if encType = ascii "msmsg" ∧ info.senderIsBot then some (decryptBotMessage fates)
  else none

/-- does the loop over the children go on? -/
inductive Next where
  | goOn
  | stop
deriving DecidableEq, Repr

/-- `handleDecryptedMessage` or `handleDecryptedArmadillo` of a message that was decoded; true if the handler failed -/
def callHandler (hash : Option Bytes) (message : Bytes) (fates : Fates ρ) : Go (DecryptWorld ρ) Empty Bool := do
  note (.handler hash message fates.handler)
  Go.modify fun w => { w with db := { w.db with signal := fates.handlerEffect w.db.signal } }
  match fates.handler with
  | .succeeds => pure false
  | .fails => pure true
  | .panics => pure true
  | .crash => Go.crash

/-- the effect of the clear on the database -/
def settleClear (hash : Bytes) (effect : Bool) : Go (DecryptWorld ρ) Empty Unit :=
  if effect then do
    Go.modify fun w => { w with db := w.db.clearBufferedEventPlaintext hash }
    note (.cleared hash)
  else pure ()

/-- an error of the clear is logged, and the loop goes on -/
def clearBufferedEvent (hash : Bytes) (fate : Fate) : Go (DecryptWorld ρ) Empty Next :=
  match fate with
  | .done => do
    settleClear hash true
    pure .goOn
  | .fails effect => do
    settleClear hash effect
    pure .goOn
  | .crash effect => do
    settleClear hash effect
    Go.crash

def afterHandler (env : DecryptEnv ρ) (hash : Option Bytes) (fates : Fates ρ) (handlerFailed : Bool) :
    Go (DecryptWorld ρ) Empty Next :=
  if handlerFailed then pure .stop
  else
    match hash with
    | none => pure .goOn
    | some hash =>
      if env.enableDecryptedEventBuffer then clearBufferedEvent hash fates.clear else pure .goOn

/-- the part of the loop body after the decryption, by the version of the message -/
def handleMessage (env : DecryptEnv ρ) (child : EncChild) (fates : Fates ρ) (message : Bytes) (hash : Option Bytes) :
    Go (DecryptWorld ρ) Empty Next :=
  if child.version = 2 then
    if env.unmarshals message = false then pure .goOn
    else do
      let failed ← callHandler hash message fates
      afterHandler env hash fates failed
  else if child.version = 3 then
    if env.decodesArmadillo message = false then afterHandler env hash fates false
    else do
      let failed ← callHandler hash message fates
      afterHandler env hash fates failed
  else afterHandler env hash fates false

/-- an event that was processed and an old counter are skipped, any other error ends the stanza -/
def handleResult (env : DecryptEnv ρ) (child : EncChild) (fates : Fates ρ) :
    Except DecryptError (Bytes × Option Bytes) → Go (DecryptWorld ρ) Empty Next
  | .error .alreadyProcessed => pure .goOn
  | .error (.signal .oldCounter) => pure .goOn
  | .error _ => pure .stop
  | .ok (message, hash) => handleMessage env child fates message hash

/-- one round of the loop over the children -/
def decryptChild (env : DecryptEnv ρ) (info : StanzaInfo) (child : EncChild) (fates : Fates ρ) :
    Go (DecryptWorld ρ) Empty Next :=
  if child.tag ≠ ascii "enc" then pure .goOn
  else
    match child.encType with
    | none => pure .goOn
    | some encType =>
      match decryptEnc env info child fates encType with
      | none => pure .goOn
      | some decrypt => do
        let r ← Go.attempt decrypt
        handleResult env child fates r

def decryptMessages (env : DecryptEnv ρ) (info : StanzaInfo) : List (EncChild × Fates ρ) → Go (DecryptWorld ρ) Empty Unit
  | [] => pure ()
  | (child, fates) :: children => do
    let next ← decryptChild env info child fates
    match next with
    | .goOn => decryptMessages env info children
    | .stop => pure ()

/-- a delivery of a message stanza; nothing is decrypted when the LID of the sender cannot be resolved -/
structure Delivery (ρ : Type) where
  info : StanzaInfo
  lidResolved : Bool
  children : List (EncChild × Fates ρ)

/-- the world after a delivery, and the restart if the process died in it -/
def deliver (env : DecryptEnv ρ) (w : DecryptWorld ρ) (d : Delivery ρ) : DecryptWorld ρ :=
  if d.lidResolved then (decryptMessages env d.info d.children w).2 else w

/-- a fresh store -/
def freshStore (signal : ρ) : DecryptWorld ρ := ⟨⟨signal, fun _ => none⟩, []⟩

end Hypermeow.Client
