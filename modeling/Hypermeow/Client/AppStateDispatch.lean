/-
Applying decoded app state mutations to the device (`appstate.go`).

Every mutation that `DecodePatches` or `ProcessRecovery` returns goes through `dispatchAppState`, which updates the store and
makes an event. What a mutation is about is the first element of its index, a JSON array of strings that the peer chose. The
cases of the switch look at further elements, most of them after a check of the length. A full sync of the contact list
inserts the contacts at once and dispatches the rest.

Model: methods on a device that records the store calls; any of them may fail (`fails`), depending on what was called before.
An index of the array out of range panics. Getters of absent messages give the zero value. The sub-messages of an action
are read by functions that are parameters (`Getters`), and an event has the action itself in their place. The contact,
secret and salt stores are there; the chat settings may be nil. Logging is left out.
-/
import Hypermeow.AppState.Recovery
import Hypermeow.Types.ParseJID

namespace Hypermeow.Client.AppStateDispatch

open Lib Types AppState List

/-! ## Names -/

/-- the kinds of index that `dispatchAppState` knows -/
inductive Index where
  | mute | pin | archive | contact | lidContact | clearChat | deleteChat | star | deleteMessageForMe | markChatAsRead
  | settingPushName | settingUnarchiveChats | userStatusMute | labelEdit | labelAssociationChat
  | labelAssociationMessage | quickReply | wasaRootSecretAction
deriving DecidableEq, Repr

def Index.text : Index → String
  | .mute => "mute"
  | .pin => "pin_v1"
  | .archive => "archive"
  | .contact => "contact"
  | .lidContact => "lid_contact"
  | .clearChat => "clearChat"
  | .deleteChat => "deleteChat"
  | .star => "star"
  | .deleteMessageForMe => "deleteMessageForMe"
  | .markChatAsRead => "markChatAsRead"
  | .settingPushName => "setting_pushName"
  | .settingUnarchiveChats => "setting_unarchiveChats"
  | .userStatusMute => "userStatusMute"
  | .labelEdit => "label_edit"
  | .labelAssociationChat => "label_jid"
  | .labelAssociationMessage => "label_message"
  | .quickReply => "quick_reply"
  | .wasaRootSecretAction => "wasa_root_secret"

def Index.all : List Index :=
  [.mute, .pin, .archive, .contact, .lidContact, .clearChat, .deleteChat, .star, .deleteMessageForMe, .markChatAsRead,
    .settingPushName, .settingUnarchiveChats, .userStatusMute, .labelEdit, .labelAssociationChat,
    .labelAssociationMessage, .quickReply, .wasaRootSecretAction]

/-- the case of the switch that a text selects -/
def Index.ofText (text : String) : Option Index := Index.all.find? fun i => i.text = text

def indexNCTSaltSync : String := "nct_salt_sync"

def waPatchCriticalUnblockLow : Bytes := ascii "critical_unblock_low"

/-! ## Messages, events, store calls -/

structure MuteAction where
  muted : Bool := false
  muteEndTimestamp : ℤ := 0
deriving DecidableEq, Repr

/-- a contact action or a LID contact action -/
structure ContactAction where
  firstName : Bytes := []
  fullName : Bytes := []
  username : Bytes := []
deriving DecidableEq, Repr

structure RootSecretEntry where
  id : Bytes
  rootSecret : Bytes
  isActive : Bool
  epoch : ℕ
deriving DecidableEq, Repr

/-- the sub-messages of an action -/
structure Getters where
  mute : SyncActionValue → MuteAction
  pinned : SyncActionValue → Bool
  archived : SyncActionValue → Bool
  contact : SyncActionValue → ContactAction
  lidContact : SyncActionValue → ContactAction
  pushName : SyncActionValue → Bytes
  nctSalt : SyncActionValue → Bytes
  rootSecrets : SyncActionValue → List RootSecretEntry

/-- a getter of an action that may be nil -/
def getD {α : Type} (get : SyncActionValue → α) (zero : α) (action : Option SyncActionValue) : α :=
  (action.map get).getD zero

/-- what all events carry -/
structure EventInfo where
  /-- in milliseconds -/
  timestamp : ℤ
  action : Option SyncActionValue
  fromFullSync : Bool
deriving DecidableEq, Repr

structure MessageRef where
  chatJID : JID
  senderJID : JID
  isFromMe : Bool
  messageID : String
deriving DecidableEq, Repr

inductive Event where
  | appState (index : List String) (action : Option SyncActionValue)
  | mute (jid : JID) (info : EventInfo)
  | pin (jid : JID) (info : EventInfo)
  | archive (jid : JID) (info : EventInfo)
  | contact (jid : JID) (info : EventInfo)
  | lidContact (jid : JID) (info : EventInfo)
  | clearChat (jid : JID) (deleteMedia : Bool) (info : EventInfo)
  | deleteChat (jid : JID) (deleteMedia : Bool) (info : EventInfo)
  | star (message : MessageRef) (info : EventInfo)
  | deleteForMe (message : MessageRef) (info : EventInfo)
  | markChatAsRead (jid : JID) (info : EventInfo)
  | pushNameSetting (info : EventInfo)
  | unarchiveChatsSetting (info : EventInfo)
  | userStatusMute (jid : JID) (info : EventInfo)
  | labelEdit (labelID : String) (info : EventInfo)
  | labelAssociationChat (jid : JID) (labelID : String) (info : EventInfo)
  | labelAssociationMessage (jid : JID) (labelID messageID : String) (info : EventInfo)
  | quickReply (id : String) (info : EventInfo)
deriving DecidableEq, Repr

inductive MutedUntil where
  /-- the zero time -/
  | notMuted
  | forever
  | until (milliseconds : ℤ)
deriving DecidableEq, Repr

structure ContactEntry where
  jid : JID
  firstName : Bytes
  fullName : Bytes
  username : Bytes
  usernameSet : Bool
deriving DecidableEq, Repr

structure MessageSecretInsert where
  chat : JID
  sender : JID
  id : Bytes
  secret : Bytes
deriving DecidableEq, Repr

inductive StoreCall where
  | putMutedUntil (jid : JID) (mutedUntil : MutedUntil)
  | putPinned (jid : JID) (pinned : Bool)
  | putArchived (jid : JID) (archived : Bool)
  | putContactName (jid : JID) (firstName fullName : Bytes)
  | putContactUsername (jid : JID) (username : Bytes)
  | putAllContactNames (contacts : List ContactEntry)
  | putNCTSalt (salt : Bytes)
  | deleteNCTSalt
  | save
  | putMessageSecrets (secrets : List MessageSecretInsert)
  | putWASARootSecretID (jid : JID) (id : Bytes)
deriving DecidableEq, Repr

/-! ## Model -/

structure Config where
  emitAppStateEventsOnFullSync : Bool
  emitLabelEventsOnFullSync : Bool
  emitQuickReplyEventsOnFullSync : Bool
  ownLID : JID
  /-- `cli.Store.ChatSettings != nil` -/
  hasChatSettings : Bool
  /-- the contact store is a `ContactUsernameStore` -/
  hasUsernames : Bool
  get : Getters
  /-- which store calls fail, after which calls -/
  fails : List StoreCall → StoreCall → Bool

structure Device where
  pushName : Bytes
  calls : List StoreCall
deriving DecidableEq, Repr

/-- a method whose errors are the store calls that failed -/
abbrev Update := Go Device StoreCall

/-- a method that returns no error -/
abbrev Dispatch := Go Device Empty

/-- `index[i]` -/
def indexAt (index : List String) (i : ℕ) : Dispatch String :=
  match index[i]? with
  | some text => pure text
  | none => Go.crash

/-- the JID in a text; the error is ignored -/
def jidOf (text : String) : JID := (parseJID text.toUTF8.data.toList).1

section

variable (cfg : Config)

def call (c : StoreCall) : Update Unit := fun d =>
  (if cfg.fails d.calls c then .err c else .ok (), { d with calls := d.calls ++ [c] })

/-- errors of store updates are logged -/
def logged (update : Update Unit) : Dispatch Unit := do
  let _ ← update.attempt
  pure ()

/-- an update of the chat settings, if there are any -/
def chatSettings (c : StoreCall) : Update Unit := if cfg.hasChatSettings then call cfg c else pure ()

def storeNCTSalt (salt : Bytes) : Update Unit := if salt.length = 0 then pure () else call cfg (.putNCTSalt salt)

def clearNCTSalt : Update Unit := call cfg .deleteNCTSalt

def mutedUntil (act : MuteAction) : MutedUntil :=
  if act.muted then if act.muteEndTimestamp < 0 then .forever else .until act.muteEndTimestamp else .notMuted

/-- the contact actions, of phone numbers and of LIDs -/
def putContact (jid : JID) (act : ContactAction) : Update Unit := do
  call cfg (.putContactName jid act.firstName act.fullName)
  if cfg.hasUsernames then call cfg (.putContactUsername jid act.username) else pure ()

/-- the message that the last elements of an index name -/
def messageAt (index : List String) (chatJID : JID) : Dispatch MessageRef := do
  let messageID ← indexAt index 2
  let fromMe ← indexAt index 3
  let sender ← indexAt index 4
  pure ⟨chatJID, if sender ≠ "0" then jidOf sender else emptyJID, fromMe = "1", messageID⟩

/-- is the element there, and is it `1`? -/
def flagAt (index : List String) (i : ℕ) : Dispatch Bool :=
  if i < index.length then do
    let text ← indexAt index i
    pure (text = "1")
  else pure false

/-- the active secret with the highest epoch, the first of equals -/
def activeSecret (secrets : List RootSecretEntry) : Option RootSecretEntry :=
  secrets.foldl (fun active secret =>
    if secret.isActive && (active.map fun a => decide (a.epoch < secret.epoch)).getD true then some secret else active) none

def putRootSecrets (botJID : JID) (secrets : List RootSecretEntry) : Update Unit := do
  call cfg (.putMessageSecrets (secrets.map fun s => ⟨botJID, cfg.ownLID, s.id, s.rootSecret⟩))
  chatSettings cfg (.putWASARootSecretID botJID (((activeSecret secrets).map (·.id)).getD []))

/-- the cases of the switch over the first element of the index -/
def dispatchIndex (index : List String) (jid : JID) (info : EventInfo) : Index → Dispatch (Option Event)
  | .mute => do
    logged (chatSettings cfg (.putMutedUntil jid (mutedUntil (getD cfg.get.mute {} info.action))))
    pure (some (.mute jid info))
  | .pin => do
    logged (chatSettings cfg (.putPinned jid (getD cfg.get.pinned false info.action)))
    pure (some (.pin jid info))
  | .archive => do
    logged (chatSettings cfg (.putArchived jid (getD cfg.get.archived false info.action)))
    pure (some (.archive jid info))
  | .contact => do
    logged (putContact cfg jid (getD cfg.get.contact {} info.action))
    pure (some (.contact jid info))
  | .lidContact => do
    logged (putContact cfg jid (getD cfg.get.lidContact {} info.action))
    pure (some (.lidContact jid info))
  | .clearChat => do
    let deleteMedia ← flagAt index 3
    pure (some (.clearChat jid deleteMedia info))
  | .deleteChat => do
    let deleteMedia ← flagAt index 2
    pure (some (.deleteChat jid deleteMedia info))
  | .star =>
    if index.length < 5 then pure none
    else do
      let message ← messageAt index jid
      pure (some (.star message info))
  | .deleteMessageForMe =>
    if index.length < 5 then pure none
    else do
      let message ← messageAt index jid
      pure (some (.deleteForMe message info))
  | .markChatAsRead => pure (some (.markChatAsRead jid info))
  | .settingPushName => do
    Go.modify fun d => { d with pushName := getD cfg.get.pushName [] info.action }
    logged (call cfg .save)
    pure (some (.pushNameSetting info))
  | .settingUnarchiveChats => pure (some (.unarchiveChatsSetting info))
  | .userStatusMute => pure (some (.userStatusMute jid info))
  | .labelEdit => do
    -- the one case that looks at a further element without a check
    let labelID ← indexAt index 1
    pure (some (.labelEdit labelID info))
  | .labelAssociationChat =>
    if index.length < 3 then pure none
    else do
      let chat ← indexAt index 2
      let labelID ← indexAt index 1
      pure (some (.labelAssociationChat (jidOf chat) labelID info))
  | .labelAssociationMessage =>
    if index.length < 6 then pure none
    else do
      let chat ← indexAt index 2
      let labelID ← indexAt index 1
      let messageID ← indexAt index 3
      pure (some (.labelAssociationMessage (jidOf chat) labelID messageID info))
  | .quickReply =>
    if index.length < 2 then pure none
    else do
      let id ← indexAt index 1
      pure (some (.quickReply id info))
  | .wasaRootSecretAction =>
    if index.length < 2 then pure none
    else do
      let bot ← indexAt index 1
      logged (putRootSecrets cfg (jidOf bot) (getD cfg.get.rootSecrets [] info.action))
      pure none

/-- a salt is set or removed -/
def dispatchNCTSalt (mutation : Mutation) : Dispatch (Option Event) := do
  match mutation.operation with
  | .SET => logged (storeNCTSalt cfg (getD cfg.get.nctSalt [] mutation.action))
  | .REMOVE => logged (clearNCTSalt cfg)
  pure none

def dispatchAppState (mutation : Mutation) (fullSync : Bool) : Dispatch (Option Event) :=
  if mutation.index = [indexNCTSaltSync] then dispatchNCTSalt cfg mutation
  else if mutation.operation ≠ .SET then pure none
  else do
    let jid := (mutation.index[1]?.map jidOf).getD emptyJID
    let info : EventInfo := ⟨getD (fun a => a.timestamp.getD 0) 0 mutation.action, mutation.action, fullSync⟩
    let first ← indexAt mutation.index 0
    match Index.ofText first with
    | some i => dispatchIndex cfg mutation.index jid info i
    | none => pure none

def shouldEmitFullSyncMutation (index : List String) : Bool :=
  if cfg.emitAppStateEventsOnFullSync then true
  else match index with
    | [] => false
    | first :: _ =>
      if cfg.emitQuickReplyEventsOnFullSync && first == Index.quickReply.text then true
      else if !cfg.emitLabelEventsOnFullSync then false
      else first == Index.labelEdit.text || first == Index.labelAssociationChat.text ||
        first == Index.labelAssociationMessage.text

/-- the contact that a mutation sets, when its index says that it is one -/
def contactEntry (mutation : Mutation) : Option ContactEntry :=
  match mutation.index with
  | first :: second :: _ =>
    let entry (act : ContactAction) : ContactEntry := ⟨jidOf second, act.firstName, act.fullName, act.username, true⟩
    if first = Index.contact.text then some (entry (getD cfg.get.contact {} mutation.action))
    else if first = Index.lidContact.text then some (entry (getD cfg.get.lidContact {} mutation.action))
    else none
  | _ => none

/-- the mutations that are not contacts, and the contacts -/
def filterContacts (mutations : List Mutation) : List Mutation × List ContactEntry :=
  (mutations.filter fun m => (contactEntry cfg m).isNone, mutations.filterMap (contactEntry cfg))

/-- the loop over the mutations; `eventsToDispatch` is a nil pointer when nothing is to be emitted -/
def dispatchMutations (fullSync : Bool) : List Mutation → Option (List Event) → Dispatch (Option (List Event))
  | [], eventsToDispatch => pure eventsToDispatch
  | mutation :: mutations, eventsToDispatch => do
    let emitMutation := eventsToDispatch.isSome && (!fullSync || shouldEmitFullSyncMutation cfg mutation.index)
    let eventsToDispatch :=
      if emitMutation ∧ mutation.operation = .SET then
        eventsToDispatch.map (· ++ [.appState mutation.index mutation.action])
      else eventsToDispatch
    let evt ← dispatchAppState cfg mutation fullSync
    dispatchMutations fullSync mutations (if emitMutation then eventsToDispatch.map (· ++ evt.toList) else eventsToDispatch)

/-- are the contacts of this collection inserted at once? -/
def massInserts (name : Bytes) (fullSync : Bool) : Bool :=
  name == waPatchCriticalUnblockLow && fullSync && !cfg.emitAppStateEventsOnFullSync

def collectEventsToDispatch (name : Bytes) (mutations : List Mutation) (fullSync : Bool)
    (eventsToDispatch : Option (List Event)) : Update (Option (List Event)) :=
  if massInserts cfg name fullSync then do
    call cfg (.putAllContactNames (filterContacts cfg mutations).2)
    (dispatchMutations cfg fullSync (filterContacts cfg mutations).1 eventsToDispatch).mapErr Empty.elim
  else (dispatchMutations cfg fullSync mutations eventsToDispatch).mapErr Empty.elim

end

/-! ## Panics -/

open Go

variable {cfg : Config} {d : Device}

variable {index : List String}

theorem noPanic_indexAt {i : ℕ} : NoPanic (indexAt index i) d ↔ i < index.length := by
  unfold indexAt
  rcases Nat.lt_or_ge i index.length with h | h
  · simp [h]
  · simp [h]

/-- an element that is there, and then what is done with it -/
theorem noPanic_indexAt_then {α : Type} {i : ℕ} {f : String → Dispatch α} (h : i < index.length)
    (hf : ∀ text, NoPanic (f text) d) : NoPanic (indexAt index i >>= f) d := by
  have hrun : indexAt index i d = (.ok index[i], d) := by simp [indexAt, h]
  rw [noPanic_bind_of_ok hrun]
  exact hf _

@[simp] theorem noPanic_call (c : StoreCall) : NoPanic (call cfg c) d := by
  unfold NoPanic call
  split_ifs <;> simp

theorem noPanic_logged {update : Update Unit} (h : NoPanic update d) : NoPanic (logged update) d := by
  unfold NoPanic at h
  unfold logged
  rw [noPanic_bind]
  refine ⟨?_, fun _ _ _ => noPanic_pure _ _⟩
  unfold NoPanic attempt
  rcases hu : update d with ⟨a | e | _, t⟩
  · simp
  · simp
  · exact absurd (congrArg Prod.fst hu) h

/-- an update that never panics, and then an event -/
theorem noPanic_logged_then {update : Update Unit} {r : Option Event} (h : NoPanic update d) :
    NoPanic (logged update >>= fun _ => pure r) d :=
  noPanic_bind.2 ⟨noPanic_logged h, fun _ _ _ => noPanic_pure _ _⟩

theorem noPanic_chatSettings (c : StoreCall) : NoPanic (chatSettings cfg c) d := by
  unfold chatSettings
  split_ifs <;> simp

theorem noPanic_putContact (jid : JID) (act : ContactAction) : NoPanic (putContact cfg jid act) d := by
  refine noPanic_bind.2 ⟨noPanic_call _, fun _ t _ => ?_⟩
  split_ifs <;> simp

theorem noPanic_putRootSecrets (botJID : JID) (secrets : List RootSecretEntry) :
    NoPanic (putRootSecrets cfg botJID secrets) d :=
  noPanic_bind.2 ⟨noPanic_call _, fun _ _ _ => noPanic_chatSettings _⟩

theorem noPanic_flagAt (index : List String) (i : ℕ) : NoPanic (flagAt index i) d := by
  unfold flagAt
  split_ifs with h
  · exact noPanic_indexAt_then h fun _ => noPanic_pure _ _
  · exact noPanic_pure _ _

theorem noPanic_messageAt {chatJID : JID} (h : 4 < index.length) : NoPanic (messageAt index chatJID) d :=
  noPanic_indexAt_then (by omega) fun _ => noPanic_indexAt_then (by omega) fun _ => noPanic_indexAt_then h fun _ =>
    noPanic_pure _ _

/-- a check, and then something that is done when it passes -/
theorem noPanic_unless {α : Type} {c : Prop} [Decidable c] {a : α} {x : Dispatch α} (hx : ¬ c → NoPanic x d) :
    NoPanic (if c then pure a else x) d := by
  split_ifs with h
  · exact noPanic_pure _ _
  · exact hx h

variable {i : Index}

/-- every case but one looks only at elements that it has checked for -/
theorem noPanic_dispatchIndex_of_ne {jid : JID} {info : EventInfo} (hi : i ≠ .labelEdit) :
    NoPanic (dispatchIndex cfg index jid info i) d := by
  cases i with
  | labelEdit => exact absurd rfl hi
  | mute | pin | archive => exact noPanic_logged_then (noPanic_chatSettings _)
  | contact | lidContact => exact noPanic_logged_then (noPanic_putContact _ _)
  | clearChat | deleteChat => exact noPanic_bind.2 ⟨noPanic_flagAt _ _, fun _ _ _ => noPanic_pure _ _⟩
  | markChatAsRead | settingUnarchiveChats | userStatusMute => exact noPanic_pure _ _
  | settingPushName => exact noPanic_bind.2 ⟨noPanic_modify _ _, fun _ _ _ => noPanic_logged_then (noPanic_call _)⟩
  | star | deleteMessageForMe =>
    exact noPanic_unless fun h => noPanic_bind.2 ⟨noPanic_messageAt (by omega), fun _ _ _ => noPanic_pure _ _⟩
  | labelAssociationChat =>
    exact noPanic_unless fun h => noPanic_indexAt_then (by omega) fun _ => noPanic_indexAt_then (by omega) fun _ =>
      noPanic_pure _ _
  | labelAssociationMessage =>
    exact noPanic_unless fun h => noPanic_indexAt_then (by omega) fun _ => noPanic_indexAt_then (by omega) fun _ =>
      noPanic_indexAt_then (by omega) fun _ => noPanic_pure _ _
  | quickReply => exact noPanic_unless fun h => noPanic_indexAt_then (by omega) fun _ => noPanic_pure _ _
  | wasaRootSecretAction =>
    exact noPanic_unless fun h => noPanic_indexAt_then (by omega) fun _ => noPanic_logged_then (noPanic_putRootSecrets _ _)

theorem noPanic_dispatchIndex {jid : JID} {info : EventInfo} :
    NoPanic (dispatchIndex cfg index jid info i) d ↔ (i = .labelEdit → 1 < index.length) := by
  by_cases hi : i = .labelEdit
  · subst hi
    refine ⟨fun h _ => ?_, fun h => noPanic_indexAt_then (h rfl) fun _ => noPanic_pure _ _⟩
    exact noPanic_indexAt.1 (noPanic_bind.1 h).1
  · exact iff_of_true (noPanic_dispatchIndex_of_ne hi) fun h => absurd h hi

/-- `Index.text` is read back -/
theorem ofText_text (i : Index) : Index.ofText i.text = some i := by
  cases i <;> decide

theorem ofText_eq_some {text : String} (h : Index.ofText text = some i) : text = i.text := by
  have := find?_some h
  exact (of_decide_eq_true this).symm

/-- the mutations that can be dispatched: a set has an index, and a label has an ID -/
def Dispatchable (m : Mutation) : Prop := m.operation = .SET → m.index ≠ [] ∧ m.index ≠ [Index.labelEdit.text]

instance (m : Mutation) : Decidable (Dispatchable m) := inferInstanceAs (Decidable (_ → _))

variable {fullSync : Bool}

theorem noPanic_dispatchAppState {m : Mutation} : NoPanic (dispatchAppState cfg m fullSync) d ↔ Dispatchable m := by
  rw [dispatchAppState]
  split_ifs with hsalt hop
  · -- a salt: two elements would not be it
    refine iff_of_true ?_ fun _ => ?_
    · unfold dispatchNCTSalt
      cases m.operation with
      | SET =>
        refine noPanic_logged_then ?_
        unfold storeNCTSalt
        split_ifs <;> simp
      | REMOVE => exact noPanic_logged_then (noPanic_call _)
    · rw [hsalt]
      decide
  · exact iff_of_true (noPanic_pure _ _) fun h => absurd h hop
  · rcases hidx : m.index with _ | ⟨first, rest⟩
    · refine iff_of_false (fun h => ?_) fun h => (h (not_not.1 hop)).1 hidx
      exact absurd (noPanic_indexAt.1 (noPanic_bind.1 h).1) (Nat.not_lt_zero _)
    · have hrun : indexAt (first :: rest) 0 d = (.ok first, d) := rfl
      refine (noPanic_bind_of_ok hrun).trans ?_
      cases hi : Index.ofText first with
      | none =>
        refine iff_of_true (noPanic_pure _ _) fun _ => ⟨by simp [hidx], fun h => ?_⟩
        rw [hidx] at h
        cases h
        cases (ofText_text .labelEdit).symm.trans hi
      | some i =>
        refine noPanic_dispatchIndex.trans ?_
        have hfirst := ofText_eq_some hi
        constructor
        · intro h _
          refine ⟨by simp [hidx], fun heq => ?_⟩
          rw [hidx] at heq
          cases heq
          have hi' : i = .labelEdit := Option.some.inj (hi.symm.trans (ofText_text .labelEdit))
          exact absurd (h hi') (by simp)
        · rintro h rfl
          have := (h (not_not.1 hop)).2
          rw [hidx, hfirst] at this
          cases rest with
          | nil => exact absurd rfl this
          | cons => simp

/-- a contact that is inserted with the others could also have been dispatched -/
theorem dispatchable_of_contactEntry {m : Mutation} (h : (contactEntry cfg m).isNone = false) : Dispatchable m := by
  unfold contactEntry at h
  split at h
  · rename_i hidx
    rw [Dispatchable, hidx]
    simp
  · cases h

theorem noPanic_dispatchMutations {ms : List Mutation} {events : Option (List Event)} :
    NoPanic (dispatchMutations cfg fullSync ms events) d ↔ ∀ m ∈ ms, Dispatchable m := by
  induction ms generalizing events d with
  | nil => simp [dispatchMutations]
  | cons m ms ih =>
    rw [forall_mem_cons]
    refine noPanic_bind.trans ?_
    rw [noPanic_dispatchAppState]
    refine and_congr_right fun hm => ?_
    -- errors are logged, so that the dispatch returns and the loop goes on
    have hno : NoPanic (dispatchAppState cfg m fullSync) d := noPanic_dispatchAppState.2 hm
    obtain ⟨evt, t, hrun⟩ := returns_of_noPanic hno
    constructor
    · intro h
      exact ih.1 (h evt t hrun)
    · intro h evt' t' _
      exact ih.2 h

/-- the contacts cannot be inserted, and nothing is dispatched -/
def Aborts (cfg : Config) (name : Bytes) (mutations : List Mutation) (fullSync : Bool) (d : Device) : Prop :=
  massInserts cfg name fullSync = true ∧ cfg.fails d.calls (.putAllContactNames (filterContacts cfg mutations).2) = true

theorem noPanic_collectEventsToDispatch {name : Bytes} {ms : List Mutation} {events : Option (List Event)} :
    NoPanic (collectEventsToDispatch cfg name ms fullSync events) d ↔
      Aborts cfg name ms fullSync d ∨ ∀ m ∈ ms, Dispatchable m := by
  have hfilter : (∀ m ∈ (filterContacts cfg ms).1, Dispatchable m) ↔ ∀ m ∈ ms, Dispatchable m := by
    constructor
    · intro h m hm
      cases hc : (contactEntry cfg m).isNone with
      | true => exact h m (mem_filter.2 ⟨hm, hc⟩)
      | false => exact dispatchable_of_contactEntry hc
    · intro h m hm
      exact h m (mem_filter.1 hm).1
  unfold collectEventsToDispatch Aborts
  cases massInserts cfg name fullSync with
  | false => simp [noPanic_dispatchMutations]
  | true =>
    rw [if_pos rfl, noPanic_bind, and_iff_right (noPanic_call _)]
    simp only [noPanic_mapErr, noPanic_dispatchMutations, hfilter, true_and]
    cases hf : cfg.fails d.calls (.putAllContactNames (filterContacts cfg ms).2) with
    | true => simp [call, hf]
    | false => simp [call, hf]

/-- **Decoded mutations are applied without a panic** exactly when every set among them has an index, and more than the name of
the kind when it edits a label; or when the contacts of a full sync cannot be inserted, so that none is applied. -/
theorem dispatch_noPanic_iff (cfg : Config) (d : Device) (name : Bytes) (mutations : List Mutation) (fullSync : Bool)
    (eventsToDispatch : Option (List Event)) :
    (∀ m, NoPanic (dispatchAppState cfg m fullSync) d ↔ Dispatchable m) ∧
    (NoPanic (collectEventsToDispatch cfg name mutations fullSync eventsToDispatch) d ↔
      Aborts cfg name mutations fullSync d ∨ ∀ m ∈ mutations, Dispatchable m) :=
  ⟨fun _ => noPanic_dispatchAppState, noPanic_collectEventsToDispatch⟩

/-- a client that emits nothing on a full sync; store calls succeed -/
def quietConfig : Config where
  emitAppStateEventsOnFullSync := false
  emitLabelEventsOnFullSync := false
  emitQuickReplyEventsOnFullSync := false
  ownLID := emptyJID
  hasChatSettings := true
  hasUsernames := true
  get := ⟨fun _ => {}, fun _ => false, fun _ => false, fun _ => {}, fun _ => {}, fun _ => [], fun _ => [], fun _ => []⟩
  fails _ _ := false

def newDevice : Device := ⟨[], []⟩

/-- a set of an index, without an action -/
def setOf (index : List String) : Mutation := ⟨none, .SET, none, 0, index, [], [], 0⟩

theorem dispatch_noPanic_label :
    NoPanic (collectEventsToDispatch quietConfig [] [setOf ["label_edit", "3"], setOf ["mute"]] false (some [])) newDevice :=
  (dispatch_noPanic_iff quietConfig newDevice [] [setOf ["label_edit", "3"], setOf ["mute"]] false (some [])).2.2
    (.inr (by decide))

/-- JSON for two indexes; every action that is decrypted has the empty one -/
def jsonEnv : Env :=
  { plainEnv with
    unmarshalSyncActionData := fun _ => some ⟨ascii "[]", none, [], 0⟩
    unmarshalIndex := fun b =>
      if b = ascii "[]" then some [] else if b = ascii "[\"label_edit\"]" then some ["label_edit"] else none }

/-- a patch with one set, whose MACs are right -/
def onePatch : PatchList :=
  ⟨[], [⟨1, [⟨.SET, ⟨List.replicate 32 0, List.replicate 32 1 ++ List.replicate 32 0, none⟩⟩], List.replicate 32 0,
    List.replicate 32 0, none⟩], none⟩

/-- a recovered collection whose record edits a label without an ID -/
def labelRecovery : SyncdSnapshotRecovery :=
  ⟨1, [], [⟨⟨ascii "[\"label_edit\"]", none, [], 0⟩, none, []⟩], List.replicate 128 0⟩

/-- **A peer can crash the client.** A verified patch with the empty index is decoded and then panics when it is applied, and
so does a recovered label edit without an ID. -/
theorem empty_index_panics :
    (∃ r w, decodePatches jsonEnv noFaults onePatch .zero true freshWorld = (.ok r, w) ∧
      (collectEventsToDispatch quietConfig [] r.2 false (some []) newDevice).1 = .panic) ∧
    ∃ r w, prepareRecovery jsonEnv labelRecovery freshWorld = (.ok r, w) ∧
      (collectEventsToDispatch quietConfig [] r.2.2 true none newDevice).1 = .panic := by
  refine ⟨⟨_, _, rfl, ?_⟩, ⟨_, _, rfl, ?_⟩⟩
  · decide +kernel
  · decide +kernel

end Hypermeow.Client.AppStateDispatch
