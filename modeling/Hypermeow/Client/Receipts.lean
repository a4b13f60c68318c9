/-
Receipts (`handleReceipt`, `handleGroupedReceipt`, `parseReceipt`, `maybeDeferredAck` of `receipt.go`,
`parseMessageSource` of `message.go`).

A receipt says that messages were delivered or read. One for a group without a participant is grouped: it has `participants`
nodes, one for each message, with a `user` child for each receipt. Every receipt becomes an event, which the handlers may
fail to handle. With synchronous acks the stanza is to be acked only if all handlers succeeded, so that the server sends
it again otherwise.

The flag that the deferred ack looks at is assigned once for each `participants` node, and so has only what the last of
them reported.

Model: the results of the event handlers are given by the number of the event. The context is looked at when the ack is due.
The retry handler, which sends its own ack, is a parameter.

Results:
- `handleGroups_spec`: the events, and which failures the flag has in the end.
- `plain_ack_iff`: any other receipt that is not a retry receipt always is.
-/
import Hypermeow.Binary.Attrs

namespace Hypermeow.Client.Receipts

open Lib Types Binary List

/-! ## Where a message is from -/

structure BroadcastRecipient where
  lid : JID
  pn : JID
deriving DecidableEq, Repr

structure MessageSource where
  chat : JID := emptyJID
  sender : JID := emptyJID
  isFromMe : Bool := false
  isGroup : Bool := false
  addressingMode : Bytes := []
  senderAlt : JID := emptyJID
  recipientAlt : JID := emptyJID
  broadcastListOwner : JID := emptyJID
  broadcastRecipients : List BroadcastRecipient := []
deriving DecidableEq, Repr

inductive ParseError where
  | notLoggedIn
  | attrs (errors : List AttrError)
  /-- `ElementMissingError` -/
  | elementMissing (tag inside : Bytes)
deriving DecidableEq, Repr

/-- the client's JIDs; the first is empty while it is not logged in -/
structure OwnJIDs where
  clientID : JID
  clientLID : JID

def OwnJIDs.isUser (own : OwnJIDs) (user : Bytes) : Bool := user = own.clientID.user ∨ user = own.clientLID.user

section Sources

variable (own : OwnJIDs) (node : Node) (source : MessageSource) (from' : JID)

/-- `to` children of a broadcast list's participants -/
def broadcastRecipients (participants : Node) : List BroadcastRecipient :=
  (participants.getChildrenByTag (ascii "to")).map fun child =>
    let mainJID := (Attrs.getJID child.attrs (ascii "jid")).getD emptyJID
    if mainJID.server = hiddenUserServer then
      ⟨mainJID, (Attrs.getJID child.attrs (ascii "peer_recipient_pn")).getD emptyJID⟩
    else ⟨(Attrs.getJID child.attrs (ascii "peer_recipient_lid")).getD emptyJID, mainJID⟩

def parseBroadcastSource : AttrUtility MessageSource := do
  let owner ← AttrUtility.optionalJIDOrEmpty node.attrs (ascii "recipient")
  let participants := node.getOptionalChildByTag [ascii "participants"]
  pure { source with
    broadcastListOwner := owner
    broadcastRecipients := if participants.2 ∧ source.isFromMe then broadcastRecipients participants.1 else [] }

def readParticipant (requireParticipant : Bool) : AttrUtility JID :=
  if requireParticipant then AttrUtility.jid node.attrs (ascii "participant")
  else AttrUtility.optionalJIDOrEmpty node.attrs (ascii "participant")

/-- the PN of the participant, or its LID where the mode is not known to be LID -/
def readParticipantAlt (addressingMode : Bytes) : AttrUtility JID := do
  let altPN ← AttrUtility.optionalJIDOrEmpty node.attrs (ascii "participant_pn")
  if altPN.isEmpty ∧ addressingMode ≠ ascii "lid" then
    AttrUtility.optionalJIDOrEmpty node.attrs (ascii "participant_lid")
  else pure altPN

def groupSource (sender senderAlt : JID) : MessageSource :=
  { source with isGroup := true, chat := from', sender, senderAlt, isFromMe := own.isUser sender.user }

def parseGroupSource (requireParticipant : Bool) : AttrUtility MessageSource := do
  let sender ← readParticipant node requireParticipant
  let senderAlt ← readParticipantAlt node source.addressingMode
  if from'.server = broadcastServer then parseBroadcastSource node (groupSource own source from' sender senderAlt)
  else pure (groupSource own source from' sender senderAlt)

/-- hosted devices count as devices of the plain server -/
def plainServer (jid : JID) : JID :=
  if jid.server = hostedServer then { jid with server := defaultUserServer }
  else if jid.server = hostedLIDServer then { jid with server := hiddenUserServer }
  else jid

def parseOwnSource : AttrUtility MessageSource := do
  let sender := plainServer from'
  let recipient ← AttrUtility.optionalJID node.attrs (ascii "recipient")
  let chat := recipient.getD sender.toNonAD
  let recipientAlt ←
    if chat.server = hiddenUserServer ∨ chat.server = hostedLIDServer then
      AttrUtility.optionalJIDOrEmpty node.attrs (ascii "peer_recipient_pn")
    else AttrUtility.optionalJIDOrEmpty node.attrs (ascii "peer_recipient_lid")
  pure { source with isFromMe := true, sender, chat, recipientAlt }

/-- reads the attributes of another node; earlier errors are forgotten -/
def parseBotSource : AttrUtility MessageSource := do
  set ([] : List AttrError)
  let targetChatJID ← AttrUtility.optionalJID (node.getChildByTag [ascii "meta"]).attrs (ascii "target_chat_jid")
  pure { source with sender := from', chat := (targetChatJID.map JID.toNonAD).getD from' }

def parseUserSource : AttrUtility MessageSource := do
  let sender := plainServer from'
  let chat := sender.toNonAD
  let senderAlt ←
    if sender.server = hiddenUserServer ∨ chat.server = hostedLIDServer then
      AttrUtility.optionalJIDOrEmpty node.attrs (ascii "sender_pn")
    else AttrUtility.optionalJIDOrEmpty node.attrs (ascii "sender_lid")
  pure { source with chat, sender, senderAlt }

/-- the alternative address gets the sender's device -/
def withAltDevice (source : MessageSource) : MessageSource :=
  if ¬source.senderAlt.isEmpty ∧ source.senderAlt.device = 0 then
    { source with senderAlt := { source.senderAlt with device := source.sender.device } }
  else source

def parseSourceFrom (requireParticipant : Bool) : AttrUtility MessageSource :=
  if from'.server = groupServer ∨ from'.server = broadcastServer then
    parseGroupSource own node source from' requireParticipant
  else if from'.server = newsletterServer then pure { source with chat := from', sender := from' }
  else if own.isUser from'.user then parseOwnSource node source from'
  else if from'.isBot then parseBotSource node source from'
  else parseUserSource node source from'

def readMessageSource (requireParticipant : Bool) : AttrUtility MessageSource := do
  let from' ← AttrUtility.jid node.attrs (ascii "from")
  let addressingMode ← AttrUtility.optionalString node.attrs (ascii "addressing_mode")
  let source ← parseSourceFrom own node { addressingMode } from' requireParticipant
  pure (withAltDevice source)

def parseMessageSource (requireParticipant : Bool) : Except ParseError MessageSource :=
  if own.clientID.isEmpty then .error .notLoggedIn
  else
    match readMessageSource own node requireParticipant [] with
    | (source, []) => .ok source
    | (_, errors) => .error (.attrs errors)

end Sources

/-! ## Receipts -/

structure Receipt where
  messageSource : MessageSource
  messageIDs : List Bytes
  timestamp : Int64
  type : Bytes
  messageSender : JID
deriving DecidableEq, Repr

def receiptTypeRetry : Bytes := ascii "retry"

/-- the IDs of a receipt for several messages, or of one -/
def receiptIDs (node : Node) (mainMessageID : Bytes) : List Bytes :=
  match node.getChildren with
  | [list] =>
    if list.tag = ascii "list" then
      mainMessageID :: list.getChildren.filterMap fun item =>
        if item.tag = ascii "item" then Attrs.getString item.attrs (ascii "id") else none
    else [mainMessageID]
  | _ => [mainMessageID]

def readReceipt (node : Node) (messageSource : MessageSource) : AttrUtility Receipt := do
  let timestamp ← AttrUtility.unixTime node.attrs (ascii "t")
  let type ← AttrUtility.optionalString node.attrs (ascii "type")
  let messageSender ← AttrUtility.optionalJIDOrEmpty node.attrs (ascii "recipient")
  pure { messageSource, messageIDs := [], timestamp, type, messageSender }

/-- the receipt, and the `participants` nodes of a grouped one; their attributes are not checked here -/
def parseReceipt (own : OwnJIDs) (node : Node) : Except ParseError (Receipt × Option (List Node)) := do
  let source ← parseMessageSource own node false
  let (receipt, errors) := readReceipt node source []
  if source.isGroup ∧ source.sender.isEmpty then
    let participantTags := node.getChildrenByTag (ascii "participants")
    if participantTags = [] then .error (.elementMissing (ascii "participants") (ascii "grouped receipt"))
    else .ok (receipt, some participantTags)
  else
    match AttrUtility.string node.attrs (ascii "id") errors with
    | (mainMessageID, []) => .ok ({ receipt with messageIDs := receiptIDs node mainMessageID }, none)
    | (_, errors) => .error (.attrs errors)

/-! ## Events and acks -/

inductive HandlerResult where
  | handled
  /-- the handler returned false -/
  | failed
  | panicked
deriving DecidableEq, Repr

/-- what the retry handler finds -/
structure RetryFate where
  alive : Bool
  cancelled : Bool

structure Env where
  own : OwnJIDs
  synchronousAck : Bool
  /-- the results of the handlers, by the number of the event -/
  handlers : ℕ → List HandlerResult
  /-- `ctx.Err() == nil` when the deferred ack looks -/
  alive : Bool
  retry : RetryFate

structure Ack where
  code : ℕ
  /-- sent by a goroutine -/
  background : Bool
deriving DecidableEq, Repr

structure Outcome where
  events : List Receipt
  acks : List Ack
deriving DecidableEq, Repr

def nackParsingError : ℕ := 487

/-- handlers run until one fails; a panic ends the loop as well, but is no failure -/
def handlerFailed : List HandlerResult → Bool
  | [] => false
  | .handled :: results => handlerFailed results
  | .failed :: _ => true
  | .panicked :: _ => false

section Handling

variable (env : Env)

/-- does the event with this number report a failure? -/
def Env.fails (n : ℕ) : Bool := handlerFailed (env.handlers n)

def dispatchEvent (receipt : Receipt) (events : List Receipt) : Bool × List Receipt :=
  (env.fails events.length, events ++ [receipt])

/-- time and sender of a `user` child, if it has both -/
def userFields (child : Node) : Option (Int64 × JID) :=
  if child.tag = ascii "user" then
    let read : AttrUtility (Int64 × JID) := do
      let timestamp ← AttrUtility.unixTime child.attrs (ascii "t")
      let sender ← AttrUtility.jid child.attrs (ascii "jid")
      pure (timestamp, sender)
    match read [] with
    | (fields, []) => some fields
    | (_, _) => none
  else none

/-- the receipt of one user -/
def userReceipt (partialReceipt : Receipt) (fields : Int64 × JID) : Receipt :=
  { partialReceipt with
    timestamp := fields.1
    messageSource := { partialReceipt.messageSource with sender := fields.2 } }

def handleUser (partialReceipt : Receipt) (s : Bool × List Receipt) (child : Node) : Bool × List Receipt :=
  match userFields child with
  | none => s
  | some fields =>
    let (failed, events) := dispatchEvent env (userReceipt partialReceipt fields) s.2
    (failed || s.1, events)

def handleGroupedReceipt (receipt : Receipt) (events : List Receipt) (participants : Node) : Bool × List Receipt :=
  let key := (Attrs.getString participants.attrs (ascii "key")).getD []
  participants.getChildren.foldl (handleUser env { receipt with messageIDs := [key] }) (false, events)

/-- the loop over the `participants` nodes -/
def handleGroups (receipt : Receipt) (participants : List Node) : Bool × List Receipt :=
  participants.foldl (fun s pcp => handleGroupedReceipt env receipt s.2 pcp) (false, [])

def maybeDeferredAck (alive cancelled : Bool) : List Ack :=
  if env.synchronousAck then if ¬alive ∨ cancelled then [] else [⟨0, false⟩]
  else [⟨0, true⟩]

def handleReceipt (node : Node) : Outcome :=
  match parseReceipt env.own node with
  | .error _ => ⟨[], [⟨nackParsingError, true⟩]⟩
  | .ok (receipt, some participants) =>
    let (cancelled, events) := handleGroups env receipt participants
    ⟨events, maybeDeferredAck env env.alive cancelled⟩
  | .ok (receipt, none) =>
    let (cancelled, events) := dispatchEvent env receipt []
    if receipt.type = receiptTypeRetry then ⟨events, maybeDeferredAck env env.retry.alive env.retry.cancelled⟩
    else ⟨events, maybeDeferredAck env env.alive cancelled⟩

end Handling

/-! ## Failures in groups -/

variable {env : Env} {node : Node} {receipt : Receipt} {participants : List Node}

/-- the users in a `participants` node -/
def users (participants : Node) : List (Int64 × JID) := participants.getChildren.filterMap userFields

/-- how many events the nodes become -/
def eventCount (participants : List Node) : ℕ := (participants.map fun pcp => (users pcp).length).sum

/-- one of the events from `start` on, `count` in number, fails -/
def FailsWithin (env : Env) (start count : ℕ) : Prop := ∃ n, start ≤ n ∧ n < start + count ∧ env.fails n = true

theorem not_failsWithin_zero (start : ℕ) : ¬FailsWithin env start 0 := by
  rintro ⟨n, hle, hlt, -⟩
  omega

theorem failsWithin_succ (start count : ℕ) :
    FailsWithin env start (count + 1) ↔ env.fails start = true ∨ FailsWithin env (start + 1) count := by
  constructor
  · rintro ⟨n, hle, hlt, hn⟩
    rcases Nat.eq_or_lt_of_le hle with rfl | hle
    · exact .inl hn
    · exact .inr ⟨n, hle, by omega, hn⟩
  · rintro (hn | ⟨n, hle, hlt, hn⟩)
    · exact ⟨start, le_rfl, by omega, hn⟩
    · exact ⟨n, by omega, by omega, hn⟩

theorem failsWithin_add (start count count' : ℕ) :
    FailsWithin env start (count + count') ↔ FailsWithin env start count ∨ FailsWithin env (start + count) count' := by
  induction count generalizing start with
  | zero => rw [Nat.zero_add, Nat.add_zero, or_iff_right (not_failsWithin_zero start)]
  | succ count ih =>
    rw [Nat.add_right_comm, failsWithin_succ, ih, failsWithin_succ, or_assoc, Nat.add_right_comm start 1 count]
    rfl

/-- the users of one node: one event each, and any failure sets the flag -/
theorem foldl_handleUser (env : Env) (partialReceipt : Receipt) (children : List Node) (s : Bool × List Receipt) :
    (children.foldl (handleUser env partialReceipt) s).2 =
        s.2 ++ (children.filterMap userFields).map (userReceipt partialReceipt) ∧
      ((children.foldl (handleUser env partialReceipt) s).1 = true ↔
        s.1 = true ∨ FailsWithin env s.2.length (children.filterMap userFields).length) := by
  induction children generalizing s with
  | nil =>
    exact ⟨(append_nil _).symm, (or_iff_left (not_failsWithin_zero _)).symm⟩
  | cons child children ih =>
    obtain ⟨hevents, hflag⟩ := ih (handleUser env partialReceipt s child)
    rw [foldl_cons, hevents, hflag]
    unfold handleUser
    cases hf : userFields child with
    | none =>
      rw [filterMap_cons_none hf]
      exact ⟨rfl, Iff.rfl⟩
    | some fields =>
      rw [filterMap_cons_some hf]
      refine ⟨?_, ?_⟩
      · simp [dispatchEvent]
      · rw [length_cons, failsWithin_succ]
        simp only [dispatchEvent, length_append, length_singleton, Bool.or_eq_true]
        exact or_assoc.trans or_left_comm

theorem handleGroupedReceipt_spec (receipt : Receipt) (events : List Receipt) (pcp : Node) :
    (handleGroupedReceipt env receipt events pcp).2.length = events.length + (users pcp).length ∧
      ((handleGroupedReceipt env receipt events pcp).1 = true ↔ FailsWithin env events.length (users pcp).length) := by
  unfold handleGroupedReceipt
  obtain ⟨hevents, hflag⟩ := foldl_handleUser env
    { receipt with messageIDs := [(Attrs.getString pcp.attrs (ascii "key")).getD []] } pcp.getChildren (false, events)
  refine ⟨?_, hflag.trans (or_iff_right Bool.false_ne_true)⟩
  rw [hevents, length_append, length_map]
  rfl

theorem eventCount_snoc (earlier : List Node) (last : Node) :
    eventCount (earlier ++ [last]) = eventCount earlier + (users last).length := by
  rw [eventCount, eventCount, map_append, sum_append]
  rfl

/-- the flag in the end is the last node's -/
theorem handleGroups_spec (env : Env) (receipt : Receipt) (earlier : List Node) (last : Node) :
    (handleGroups env receipt (earlier ++ [last])).2.length = eventCount (earlier ++ [last]) ∧
      ((handleGroups env receipt (earlier ++ [last])).1 = true ↔
        FailsWithin env (eventCount earlier) (users last).length) := by
  have hlength : ∀ groups, (handleGroups env receipt groups).2.length = eventCount groups := by
    intro groups
    induction groups using List.reverseRecOn with
    | nil => rfl
    | append_singleton groups group ih =>
      rw [handleGroups, foldl_append, foldl_cons, foldl_nil, (handleGroupedReceipt_spec ..).1]
      rw [handleGroups] at ih
      rw [ih, eventCount_snoc]
  refine ⟨hlength _, ?_⟩
  rw [handleGroups, foldl_append, foldl_cons, foldl_nil, (handleGroupedReceipt_spec ..).2, ← hlength earlier]
  rfl

/-! ## Grouped receipts -/

/-- a receipt for a group or a broadcast list that names no participant -/
def Grouped (node : Node) : Prop :=
  (((Attrs.getJID node.attrs (ascii "from")).getD emptyJID).server = groupServer ∨
      ((Attrs.getJID node.attrs (ascii "from")).getD emptyJID).server = broadcastServer) ∧
    ((Attrs.getJID node.attrs (ascii "participant")).getD emptyJID).isEmpty

theorem withAltDevice_sender (source : MessageSource) :
    (withAltDevice source).isGroup = source.isGroup ∧ (withAltDevice source).sender = source.sender := by
  unfold withAltDevice
  split_ifs
  · exact ⟨rfl, rfl⟩
  · exact ⟨rfl, rfl⟩

theorem parseGroupSource_sender (own : OwnJIDs) (node : Node) (source : MessageSource) (from' : JID)
    (errors : List AttrError) :
    (parseGroupSource own node source from' false errors).1.isGroup = true ∧
      (parseGroupSource own node source from' false errors).1.sender =
        (Attrs.getJID node.attrs (ascii "participant")).getD emptyJID := by
  have hsender : (readParticipant node false errors).1 = (Attrs.getJID node.attrs (ascii "participant")).getD emptyJID :=
    AttrUtility.fst_optionalJIDOrEmpty ..
  simp only [parseGroupSource, AttrUtility.bind_run, hsender]
  split_ifs
  · exact ⟨rfl, rfl⟩
  · exact ⟨rfl, rfl⟩

theorem readMessageSource_grouped (own : OwnJIDs) (h : Grouped node) (errors : List AttrError) :
    (readMessageSource own node false errors).1.isGroup = true ∧
      (readMessageSource own node false errors).1.sender.isEmpty = true := by
  simp only [readMessageSource, parseSourceFrom, AttrUtility.bind_run, AttrUtility.fst_jid, if_pos h.1,
    AttrUtility.pure_run, withAltDevice_sender, parseGroupSource_sender]
  exact ⟨trivial, h.2⟩

/-- a grouped receipt has `participants` nodes, or is not parsed -/
theorem parseReceipt_grouped (own : OwnJIDs) (h : Grouped node) :
    (∃ e, parseReceipt own node = .error e) ∨
      ∃ receipt participants, parseReceipt own node = .ok (receipt, some participants) ∧ participants ≠ [] := by
  cases hsource : parseMessageSource own node false with
  | error e => exact .inl ⟨e, by rw [parseReceipt, hsource]; rfl⟩
  | ok source =>
    have hgrouped : source.isGroup = true ∧ source.sender.isEmpty = true := by
      unfold parseMessageSource at hsource
      split_ifs at hsource
      have hread := readMessageSource_grouped own h []
      split at hsource
      · rename_i hrun
        cases hsource
        rw [hrun] at hread
        exact hread
      · cases hsource
    have hrun : parseReceipt own node =
        if node.getChildrenByTag (ascii "participants") = [] then
          .error (.elementMissing (ascii "participants") (ascii "grouped receipt"))
        else .ok ((readReceipt node source []).1, some (node.getChildrenByTag (ascii "participants"))) := by
      rw [parseReceipt, hsource]
      exact if_pos hgrouped
    rw [hrun]
    split_ifs with hnone
    · exact .inl ⟨_, rfl⟩
    · exact .inr ⟨_, _, rfl, hnone⟩

/-! ## Which receipts are acked -/

/-- the stanza is acked, not nacked -/
def Outcome.Acked (o : Outcome) : Prop := ∃ ack ∈ o.acks, ack.code = 0

/-- acked exactly when the context is alive and no event failed -/
def AckedProperly (env : Env) (node : Node) : Prop :=
  (handleReceipt env node).Acked ↔
    env.alive = true ∧ ∀ n, n < (handleReceipt env node).events.length → env.fails n = false

/-- a failure in an earlier node comes with one in the last node -/
def FailuresReachLast (env : Env) (participants : List Node) : Prop :=
  ∀ earlier last, participants = earlier ++ [last] → FailsWithin env 0 (eventCount earlier) →
    FailsWithin env (eventCount earlier) (users last).length

theorem acked_maybeDeferredAck (hsync : env.synchronousAck = true) (events : List Receipt) (alive cancelled : Bool) :
    (Outcome.mk events (maybeDeferredAck env alive cancelled)).Acked ↔ alive = true ∧ cancelled = false := by
  unfold Outcome.Acked maybeDeferredAck
  rw [if_pos hsync]
  cases alive <;> cases cancelled <;> simp

theorem no_failure_iff (count : ℕ) : (∀ n, n < count → env.fails n = false) ↔ ¬FailsWithin env 0 count := by
  unfold FailsWithin
  constructor
  · rintro h ⟨n, -, hlt, hn⟩
    rw [h n (by omega)] at hn
    cases hn
  · intro h n hn
    rw [Bool.eq_false_iff]
    exact fun hfails => h ⟨n, Nat.zero_le n, by omega, hfails⟩

/-- **Only the last group counts.** With synchronous acks, for every grouped receipt and all results of the handlers: the
stanza is acked exactly when the context is alive and no event failed, if and only if the context is dead or the stanza can
be parsed and no node before the last has a failure while the last has none. -/
theorem grouped_ack_iff (env : Env) (hsync : env.synchronousAck = true) (node : Node) (hgrouped : Grouped node) :
    AckedProperly env node ↔ (env.alive = true → ∃ receipt participants,
      parseReceipt env.own node = .ok (receipt, some participants) ∧ FailuresReachLast env participants) := by
  unfold AckedProperly
  rcases parseReceipt_grouped env.own hgrouped with ⟨e, hparse⟩ | ⟨receipt, participants, hparse, hne⟩
  · have hrun : handleReceipt env node = ⟨[], [⟨nackParsingError, true⟩]⟩ := by
      rw [handleReceipt, hparse]
    have hnot : ¬Outcome.Acked ⟨[], [⟨nackParsingError, true⟩]⟩ := by
      rintro ⟨ack, hmem, hcode⟩
      rw [mem_singleton.1 hmem] at hcode
      cases hcode
    rw [hrun, iff_false_left hnot, hparse]
    constructor
    · exact fun h halive => absurd ⟨halive, fun n hn => absurd hn (Nat.not_lt_zero n)⟩ h
    · rintro h ⟨halive, -⟩
      obtain ⟨_, _, hok, -⟩ := h halive
      cases hok
  · obtain ⟨earlier, last, rfl⟩ : ∃ earlier last, participants = earlier ++ [last] :=
      ⟨participants.dropLast, participants.getLast hne, (dropLast_append_getLast hne).symm⟩
    obtain ⟨hlength, hflag⟩ := handleGroups_spec env receipt earlier last
    have hrun : handleReceipt env node =
        ⟨(handleGroups env receipt (earlier ++ [last])).2,
          maybeDeferredAck env env.alive (handleGroups env receipt (earlier ++ [last])).1⟩ := by
      rw [handleReceipt, hparse]
    rw [hrun, acked_maybeDeferredAck hsync, no_failure_iff, hlength, eventCount_snoc, failsWithin_add, Nat.zero_add,
      Bool.eq_false_iff, ne_eq, hflag]
    have hreach : FailuresReachLast env (earlier ++ [last]) ↔
        (FailsWithin env 0 (eventCount earlier) → FailsWithin env (eventCount earlier) (users last).length) := by
      constructor
      · exact fun h => h earlier last rfl
      · intro h earlier' last' heq
        obtain ⟨rfl, hlast⟩ := append_inj' heq rfl
        cases hlast
        exact h
    constructor
    · intro h halive
      refine ⟨receipt, _, hparse, hreach.2 fun hearlier => ?_⟩
      by_contra hlast
      exact (h.1 ⟨halive, hlast⟩).2 (.inl hearlier)
    · intro h
      constructor
      · rintro ⟨halive, hlast⟩
        obtain ⟨_, _, hok, hr⟩ := h halive
        cases hparse.symm.trans hok
        exact ⟨halive, fun hfails => hlast (hfails.elim (hreach.1 hr) id)⟩
      · rintro ⟨halive, hnone⟩
        exact ⟨halive, fun hlast => hnone (.inr hlast)⟩

/-- a `participants` node with one user -/
def groupOf (key user : String) : Node :=
  ⟨ascii "participants", some [(ascii "key", .string (ascii key))],
    .nodes [⟨ascii "user", some [(ascii "t", .string (ascii "5")),
      (ascii "jid", .jid (newJID (ascii user) defaultUserServer))], .nil⟩]⟩

/-- receipts for two messages in a group -/
def twoGroups : Node :=
  ⟨ascii "receipt", some [(ascii "from", .jid (newJID (ascii "7") groupServer)), (ascii "id", .string (ascii "r"))],
    .nodes [groupOf "a" "1", groupOf "b" "2"]⟩

/-- a logged in client with one event handler, which fails for the event with the given number -/
def failingAt (n : ℕ) : Env where
  own := ⟨newJID (ascii "3") defaultUserServer, newJID (ascii "4") hiddenUserServer⟩
  synchronousAck := true
  handlers k := [if k = n then .failed else .handled]
  alive := true
  retry := ⟨true, false⟩

theorem grouped_twoGroups : Grouped twoGroups := ⟨by decide +kernel, by decide +kernel⟩

theorem grouped_ack_iff_last : AckedProperly (failingAt 1) twoGroups := by
  refine (grouped_ack_iff (failingAt 1) rfl twoGroups grouped_twoGroups).2 fun _ => ?_
  refine ⟨_, [groupOf "a" "1", groupOf "b" "2"], rfl, fun earlier last heq _ => ?_⟩
  have heq' : [groupOf "a" "1"] ++ [groupOf "b" "2"] = earlier ++ [last] := heq
  obtain ⟨rfl, hlast⟩ := append_inj' heq' rfl
  cases hlast
  have hone : eventCount [groupOf "a" "1"] = 1 ∧ (users (groupOf "b" "2")).length = 1 := by decide +kernel
  rw [hone.1, hone.2]
  exact ⟨1, le_rfl, Nat.lt_succ_self 1, rfl⟩

/-- **A failure in an earlier group is forgotten.** Of two events the first one fails, and the stanza is acked. -/
theorem earlier_failure_acked :
    Grouped twoGroups ∧ (failingAt 0).synchronousAck = true ∧ (failingAt 0).alive = true ∧
      (handleReceipt (failingAt 0) twoGroups).events.length = 2 ∧ (failingAt 0).fails 0 = true ∧
      (handleReceipt (failingAt 0) twoGroups).acks = [⟨0, false⟩] ∧ ¬AckedProperly (failingAt 0) twoGroups := by
  have hevents : (handleReceipt (failingAt 0) twoGroups).events.length = 2 := by decide +kernel
  have hacks : (handleReceipt (failingAt 0) twoGroups).acks = [⟨0, false⟩] := by decide +kernel
  refine ⟨grouped_twoGroups, rfl, rfl, hevents, rfl, hacks, fun h => ?_⟩
  have hacked : (handleReceipt (failingAt 0) twoGroups).Acked := by
    refine ⟨⟨0, false⟩, ?_, rfl⟩
    rw [hacks]
    exact mem_singleton_self _
  have hfirst := (h.1 hacked).2 0 (by rw [hevents]; exact Nat.two_pos)
  cases hfirst

/-- any other receipt has one event; unless it is a retry receipt, it is acked as it should be -/
theorem plain_ack_iff (hsync : env.synchronousAck = true) (hparse : parseReceipt env.own node = .ok (receipt, none))
    (htype : receipt.type ≠ receiptTypeRetry) : AckedProperly env node := by
  have hrun : handleReceipt env node = ⟨[receipt], maybeDeferredAck env env.alive (env.fails 0)⟩ := by
    rw [handleReceipt, hparse]
    exact if_neg htype
  unfold AckedProperly
  rw [hrun, acked_maybeDeferredAck hsync]
  refine and_congr_right fun _ => ⟨fun h n hn => ?_, fun h => h 0 Nat.one_pos⟩
  rw [Nat.lt_one_iff.1 hn]
  exact h

end Hypermeow.Client.Receipts
