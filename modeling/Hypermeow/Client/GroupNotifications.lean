/-
Notifications about changes of a group (`parseGroupChangeWithUsernames`, `parseParticipantList`, `parseParticipant`,
`parseGroupLinkTargetNode` of `group.go`).

A notification has one child for each change. The children are folded into one event: lists of users who joined, left, were
promoted or demoted, and the settings that changed. The first child that cannot be parsed makes the whole notification
fail.

The event of the source has all its fields in one record. Here those that are not about participants are a record of their
own, `GroupSettings`, so that a change of the settings cannot touch the participants.

- `applyChild_participants`: what a child does to the lists of those who joined and left.
- `parseGroupChange_participants`: after all children, each list is that of the last child of its kind.
-/
import Hypermeow.Binary.Attrs
import Hypermeow.Store.LIDMap
import Hypermeow.Store.ContactStore

namespace Hypermeow.Client.Groups

open Lib Types Binary Store List

/-! ## Participants -/

structure AddRequest where
  code : Bytes
  expiration : Int64
deriving DecidableEq, Repr

structure GroupParticipant where
  jid : JID
  phoneNumber : JID
  lid : JID
  username : Bytes
  isAdmin : Bool
  isSuperAdmin : Bool
  displayName : Bytes
  error : Int64
  addRequest : Option AddRequest
deriving DecidableEq, Repr

/-- the request to add a participant that could not be added -/
def parseAddRequest (child : Node) : Option AddRequest :=
  match child.getOptionalChildByTag [ascii "add_request"] with
  | (addRequest, true) =>
    some ⟨(AttrUtility.string addRequest.attrs (ascii "code") []).1,
      (AttrUtility.unixTime addRequest.attrs (ascii "expiration") []).1⟩
  | (_, false) => none

def parseParticipant (child : Node) : AttrUtility GroupParticipant := do
  let pcpType ← AttrUtility.optionalString child.attrs (ascii "type")
  let jid ← AttrUtility.jid child.attrs (ascii "jid")
  let displayName ← AttrUtility.optionalString child.attrs (ascii "display_name")
  let username ← AttrUtility.optionalString child.attrs (ascii "username")
  let (lid, phoneNumber) ←
    if jid.server = hiddenUserServer then do
      pure (jid, ← AttrUtility.optionalJIDOrEmpty child.attrs (ascii "phone_number"))
    else if jid.server = defaultUserServer then do
      pure (← AttrUtility.optionalJIDOrEmpty child.attrs (ascii "lid"), jid)
    else pure (emptyJID, emptyJID)
  let error ← AttrUtility.optionalInt child.attrs (ascii "error")
  pure
    { jid, phoneNumber, lid, username
      isAdmin := pcpType = ascii "admin" ∨ pcpType = ascii "superadmin"
      isSuperAdmin := pcpType = ascii "superadmin"
      displayName, error
      addRequest := if error ≠ 0 then parseAddRequest child else none }

/-- the username of a participant under its LID, if it has both -/
def participantUsername (participant : GroupParticipant) : Option ContactUsernameEntry :=
  let lid :=
    if participant.lid.toNonAD.isEmpty ∧ participant.jid.server = hiddenUserServer then participant.jid.toNonAD
    else participant.lid.toNonAD
  if participant.username = [] ∨ lid.isEmpty then none else some ⟨lid, participant.username⟩

def groupParticipantUsernames (participants : List GroupParticipant) : List ContactUsernameEntry :=
  participants.filterMap participantUsername

/-- the `participant` children that have a JID -/
def participantNodes (node : Node) : List (JID × Node) :=
  node.getChildren.filterMap fun child =>
    if child.tag = ascii "participant" then (Attrs.getJID child.attrs (ascii "jid")).map fun jid => (jid, child)
    else none

/-- the other number of a participant, if it is given -/
def participantPair (jid : JID) (child : Node) : Option LIDMapping :=
  if jid.server = hiddenUserServer then
    (Attrs.getJID child.attrs (ascii "phone_number")).bind fun phoneNumber =>
      if phoneNumber.isEmpty then none else some ⟨jid, phoneNumber⟩
  else if jid.server = defaultUserServer then
    (Attrs.getJID child.attrs (ascii "lid")).bind fun lid => if lid.isEmpty then none else some ⟨lid, jid⟩
  else none

structure ParticipantList where
  participants : List JID
  lidPairs : List LIDMapping
  usernames : List ContactUsernameEntry

def parseParticipantList (node : Node) : ParticipantList where
  participants := (participantNodes node).map Prod.fst
  lidPairs := (participantNodes node).filterMap fun p => participantPair p.1 p.2
  usernames := (participantNodes node).flatMap fun p => groupParticipantUsernames [(parseParticipant p.2 []).1]

/-! ## The event -/

structure GroupName where
  name : Bytes
  nameSetAt : Int64
  nameSetBy : JID := emptyJID
  nameSetByPN : JID := emptyJID
deriving DecidableEq, Repr

structure GroupTopic where
  topic : Bytes
  topicID : Bytes
  topicSetAt : Int64
  topicSetBy : JID
  topicDeleted : Bool
deriving DecidableEq, Repr

structure GroupAnnounce where
  isAnnounce : Bool
  announceVersionID : Bytes
deriving DecidableEq, Repr

structure GroupEphemeral where
  isEphemeral : Bool
  disappearingTimer : UInt32
deriving DecidableEq, Repr

structure GroupDelete where
  deleted : Bool
  deleteReason : Bytes
deriving DecidableEq, Repr

structure GroupLinkTarget where
  jid : JID
  groupName : GroupName
  isDefaultSubGroup : Bool
deriving DecidableEq, Repr

structure GroupLinkChange where
  type : Bytes
  unlinkReason : Bytes
  group : GroupLinkTarget
deriving DecidableEq, Repr

/-- changes that are not about participants -/
structure GroupSettings where
  name : Option GroupName := none
  topic : Option GroupTopic := none
  /-- `GroupLocked.IsLocked` -/
  locked : Option Bool := none
  announce : Option GroupAnnounce := none
  ephemeral : Option GroupEphemeral := none
  /-- `GroupMembershipApprovalMode.IsJoinApprovalRequired` -/
  membershipApprovalMode : Option Bool := none
  delete : Option GroupDelete := none
  link : Option GroupLinkChange := none
  unlink : Option GroupLinkChange := none
  newInviteLink : Option Bytes := none
  suspended : Bool := false
  unsuspended : Bool := false
  unknownChanges : List Node := []

/-- `events.GroupInfo` -/
structure GroupInfo where
  jid : JID
  notify : Bytes
  sender : Option JID
  senderPN : Option JID
  timestamp : Int64
  settings : GroupSettings := {}
  prevParticipantVersionID : Bytes := []
  participantVersionID : Bytes := []
  joinReason : Bytes := []
  join : List JID := []
  leave : List JID := []
  promote : List JID := []
  demote : List JID := []

inductive GroupError where
  /-- `group change doesn't contain required attributes` -/
  | attrs (errors : List AttrError)
  /-- `group change … element doesn't contain required attributes` -/
  | childAttrs (tag : Bytes) (errors : List AttrError)
  /-- `group change description has unexpected body` -/
  | descriptionBody
  /-- `ElementMissingError` -/
  | elementMissing (tag inside : Bytes)
  /-- `failed to parse group link node in group change` -/
  | linkTarget (errors : List AttrError)
  /-- `failed to parse group unlink node in group change` -/
  | unlinkTarget (errors : List AttrError)
  /-- the errors of a create notification -/
  | create
deriving DecidableEq, Repr

/-! ## Settings -/

/-- reading a child: it may fail at once, or collect errors of attributes -/
abbrev ChildReader (α : Type) := ExceptT GroupError (StateM (List AttrError)) α

def readGroupLinkTarget (groupNode : Node) : AttrUtility GroupLinkTarget := do
  let jidKey ← AttrUtility.optionalJIDOrEmpty groupNode.attrs (ascii "jid")
  let jid ←
    if jidKey.isEmpty then do pure (newJID (← AttrUtility.string groupNode.attrs (ascii "id")) groupServer)
    else pure jidKey
  let name ← AttrUtility.optionalString groupNode.attrs (ascii "subject")
  let nameSetAt ← AttrUtility.optionalUnixTime groupNode.attrs (ascii "s_t")
  pure ⟨jid, { name, nameSetAt }, (groupNode.getChildByTag [ascii "default_sub_group"]).tag = ascii "default_sub_group"⟩

/-- the group that is linked or unlinked -/
def parseLinkTarget (child : Node) (inside : Bytes) (failed : List AttrError → GroupError) :
    Except GroupError GroupLinkTarget :=
  match child.getOptionalChildByTag [ascii "group"] with
  | (_, false) => .error (.elementMissing (ascii "group") inside)
  | (groupNode, true) =>
    match readGroupLinkTarget groupNode [] with
    | (target, []) => .ok target
    | (_, errors) => .error (failed errors)

/-- the text of a description that is not deleted -/
def descriptionBody (child : Node) : Except GroupError Bytes :=
  match (child.getChildByTag [ascii "body"]).content with
  | .bytes topic => .ok topic
  | _ => .error .descriptionBody

def readSubject (child : Node) : ChildReader GroupName := do
  let name ← AttrUtility.string child.attrs (ascii "subject")
  let nameSetAt ← AttrUtility.unixTime child.attrs (ascii "s_t")
  let nameSetBy ← AttrUtility.optionalJIDOrEmpty child.attrs (ascii "s_o")
  let nameSetByPN ← AttrUtility.optionalJIDOrEmpty child.attrs (ascii "s_o_pn")
  pure { name, nameSetAt, nameSetBy, nameSetByPN }

def readDescription (evt : GroupInfo) (child : Node) : ChildReader GroupTopic := do
  let isDelete := (child.getOptionalChildByTag [ascii "delete"]).2
  let topic ← if isDelete then pure [] else ExceptT.mk (pure (descriptionBody child))
  let topicID ← AttrUtility.string child.attrs (ascii "id")
  pure ⟨topic, topicID, evt.timestamp, evt.sender.getD emptyJID, isDelete⟩

def inviteLinkPrefix : Bytes := ascii "https://chat.whatsapp.com/"

/-- a child that changes a setting -/
def settingChange (evt : GroupInfo) (child : Node) : ChildReader GroupSettings := do
  let settings := evt.settings
  let isTag (tag : String) : Bool := child.tag = ascii tag
  if isTag "locked" then pure { settings with locked := some true }
  else if isTag "unlocked" then pure { settings with locked := some false }
  else if isTag "delete" then
    let deleteReason ← AttrUtility.optionalString child.attrs (ascii "reason")
    pure { settings with delete := some ⟨true, deleteReason⟩ }
  else if isTag "subject" then
    let name ← readSubject child
    pure { settings with name := some name }
  else if isTag "description" then
    let topic ← readDescription evt child
    pure { settings with topic := some topic }
  else if isTag "announcement" then
    let versionID ← AttrUtility.string child.attrs (ascii "v_id")
    pure { settings with announce := some ⟨true, versionID⟩ }
  else if isTag "not_announcement" then
    let versionID ← AttrUtility.string child.attrs (ascii "v_id")
    pure { settings with announce := some ⟨false, versionID⟩ }
  else if isTag "invite" then
    let code ← AttrUtility.string child.attrs (ascii "code")
    pure { settings with newInviteLink := some (inviteLinkPrefix ++ code) }
  else if isTag "ephemeral" then
    let expiration ← AttrUtility.uint64 child.attrs (ascii "expiration")
    pure { settings with ephemeral := some ⟨true, expiration.toUInt32⟩ }
  else if isTag "not_ephemeral" then pure { settings with ephemeral := some ⟨false, 0⟩ }
  else if isTag "link" then
    let type ← AttrUtility.string child.attrs (ascii "link_type")
    let group ← ExceptT.mk (pure (parseLinkTarget child (ascii "group link") .linkTarget))
    pure { settings with link := some ⟨type, [], group⟩ }
  else if isTag "unlink" then
    let type ← AttrUtility.string child.attrs (ascii "unlink_type")
    let unlinkReason ← AttrUtility.string child.attrs (ascii "unlink_reason")
    let group ← ExceptT.mk (pure (parseLinkTarget child (ascii "group unlink") .unlinkTarget))
    pure { settings with unlink := some ⟨type, unlinkReason, group⟩ }
  else if isTag "membership_approval_mode" then pure { settings with membershipApprovalMode := some true }
  else if isTag "suspended" then pure { settings with suspended := true }
  else if isTag "unsuspended" then pure { settings with unsuspended := true }
  else pure { settings with unknownChanges := settings.unknownChanges ++ [child] }

/-! ## Participants that change -/

/-- the variables of the loop over the children -/
structure GroupChange where
  evt : GroupInfo
  lidPairs : List LIDMapping
  usernames : List ContactUsernameEntry

inductive ParticipantTag where
  | add
  | remove
  | promote
  | demote
deriving DecidableEq, Repr

/-- the tags of changes that are about participants -/
def participantTag (child : Node) : Option ParticipantTag :=
  if child.tag = ascii "add" then some .add
  else if child.tag = ascii "remove" then some .remove
  else if child.tag = ascii "promote" then some .promote
  else if child.tag = ascii "demote" then some .demote
  else none

/-- the list of the kind is replaced; `reason` is read from an `add` only -/
def setParticipants (evt : GroupInfo) (participants : List JID) (reason : Bytes) : ParticipantTag → GroupInfo
  | .add => { evt with joinReason := reason, join := participants }
  | .remove => { evt with leave := participants }
  | .promote => { evt with promote := participants }
  | .demote => { evt with demote := participants }

def participantChange (tag : ParticipantTag) (acc : GroupChange) (child : Node) : AttrUtility GroupChange := do
  let prevParticipantVersionID ← AttrUtility.optionalString child.attrs (ascii "prev_v_id")
  let participantVersionID ← AttrUtility.optionalString child.attrs (ascii "v_id")
  let reason ← if tag = .add then AttrUtility.optionalString child.attrs (ascii "reason") else pure []
  let list := parseParticipantList child
  let evt := { acc.evt with prevParticipantVersionID, participantVersionID }
  pure ⟨setParticipants evt list.participants reason tag, acc.lidPairs ++ list.lidPairs, acc.usernames ++ list.usernames⟩

/-- errors that a child collected make it fail at its end -/
def checked {α : Type} (child : Node) : α × List AttrError → Except GroupError α
  | (a, []) => .ok a
  | (_, errors) => .error (.childAttrs child.tag errors)

/-- one iteration -/
def applyChild (acc : GroupChange) (child : Node) : Except GroupError GroupChange :=
  match participantTag child with
  | some tag => checked child (participantChange tag acc child [])
  | none =>
    match settingChange acc.evt child [] with
    | (.error e, _) => .error e
    | (.ok settings, errors) => checked child ({ acc with evt := { acc.evt with settings } }, errors)

def readGroupInfo (node : Node) : AttrUtility GroupInfo := do
  let jid ← AttrUtility.jid node.attrs (ascii "from")
  let notify ← AttrUtility.optionalString node.attrs (ascii "notify")
  let sender ← AttrUtility.optionalJID node.attrs (ascii "participant")
  let senderPN ← AttrUtility.optionalJID node.attrs (ascii "participant_pn")
  let timestamp ← AttrUtility.unixTime node.attrs (ascii "t")
  pure { jid, notify, sender, senderPN, timestamp }

def parseGroupChangeWithUsernames (node : Node) : Except GroupError GroupChange :=
  match readGroupInfo node [] with
  | (evt, []) => node.getChildren.foldlM applyChild ⟨evt, [], []⟩
  | (_, errors) => .error (.attrs errors)

/-! ## What the event says about participants -/

variable {acc acc' : GroupChange} {child node : Node}

/-- the participants of a child -/
def listed (child : Node) : List JID := (parseParticipantList child).participants

/-- the participants of the last child with the tag, or the list that was there before -/
def lastList (tag : ParticipantTag) (before : List JID) (children : List Node) : List JID :=
  children.foldl (fun list child => if participantTag child = some tag then listed child else list) before

theorem checked_eq_ok {α : Type} {r : α × List AttrError} {a : α} (h : checked child r = .ok a) : a = r.1 := by
  rcases r with ⟨b, _ | _⟩
  · cases h
    rfl
  · cases h

theorem applyChild_participants (h : applyChild acc child = .ok acc') :
    acc'.evt.jid = acc.evt.jid ∧ acc'.evt.join = lastList .add acc.evt.join [child] ∧
      acc'.evt.leave = lastList .remove acc.evt.leave [child] := by
  unfold applyChild at h
  simp only [lastList, foldl_cons, foldl_nil]
  cases htag : participantTag child with
  | some tag =>
    rw [htag] at h
    rw [checked_eq_ok h]
    cases tag <;> exact ⟨rfl, rfl, rfl⟩
  | none =>
    rw [htag] at h
    dsimp only at h
    split at h
    · cases h
    · rw [checked_eq_ok h]
      exact ⟨rfl, rfl, rfl⟩

theorem foldlM_participants {children : List Node} (h : children.foldlM applyChild acc = .ok acc') :
    acc'.evt.jid = acc.evt.jid ∧ acc'.evt.join = lastList .add acc.evt.join children ∧
      acc'.evt.leave = lastList .remove acc.evt.leave children := by
  induction children generalizing acc with
  | nil =>
    cases h
    exact ⟨rfl, rfl, rfl⟩
  | cons child children ih =>
    rw [foldlM_cons] at h
    cases hstep : applyChild acc child with
    | error e =>
      rw [hstep] at h
      cases h
    | ok next =>
      rw [hstep] at h
      obtain ⟨hjid, hjoin, hleave⟩ := applyChild_participants hstep
      obtain ⟨hjid', hjoin', hleave'⟩ := ih h
      rw [hjid', hjoin', hleave', hjid, hjoin, hleave]
      exact ⟨rfl, rfl, rfl⟩

/-- the group of a notification -/
def groupOf (node : Node) : JID := (Attrs.getJID node.attrs (ascii "from")).getD emptyJID

/-- of several children of one kind only the last one is in the event -/
theorem parseGroupChange_participants {change : GroupChange} (h : parseGroupChangeWithUsernames node = .ok change) :
    change.evt.jid = groupOf node ∧ change.evt.join = lastList .add [] node.getChildren ∧
      change.evt.leave = lastList .remove [] node.getChildren := by
  unfold parseGroupChangeWithUsernames at h
  have hjid : (readGroupInfo node []).1.jid = groupOf node := AttrUtility.fst_jid ..
  have hlists : (readGroupInfo node []).1.join = [] ∧ (readGroupInfo node []).1.leave = [] := ⟨rfl, rfl⟩
  split at h
  · rename_i evt hread
    rw [hread] at hjid hlists
    obtain ⟨hj, hjoin, hleave⟩ := foldlM_participants h
    exact ⟨hj.trans hjid, by rw [hjoin, hlists.1], by rw [hleave, hlists.2]⟩
  · cases h

end Hypermeow.Client.Groups
