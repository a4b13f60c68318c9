/-
The cached members of a group (`updateGroupParticipantCache`, `parseGroupNotificationWithUsernames` of `group.go`).

A notification about a group has `add` and `remove` children in the order of the changes. They are first folded into an event
with one list of those who joined and one of those who left, then the cached member list is changed: first everyone who
joined is appended, then everyone who left is replaced by the last member.

Model: `GroupNotifications` for the event. Create notifications are a parameter.

Results:
- `mem_updateMembers`, `nodup_updateMembers`: the member list after an event, as a set and without duplicates.
- `documentOrder`: the members when the children are applied one after the other.
-/
import Hypermeow.Client.GroupNotifications

namespace Hypermeow.Client.Groups

open Lib Types Binary Store List

/-! ## Model -/

structure GroupMetaCache where
  addressingMode : Bytes
  communityAnnouncementGroup : Bool
  members : List JID
deriving DecidableEq, Repr

abbrev GroupCache := GoMap JID GroupMetaCache

/-- who is a member already is not appended again -/
def joinMember (members : List JID) (jid : JID) : List JID := if jid ∈ members then members else members ++ [jid]

/-- the last member takes the place of the one who left -/
def leaveMember (members : List JID) (jid : JID) : List JID :=
  if jid ∈ members then (members.set (members.idxOf jid) (members.getLastD jid)).dropLast else members

def updateMembers (join leave members : List JID) : List JID := leave.foldl leaveMember (join.foldl joinMember members)

def updateGroupParticipantCache (evt : GroupInfo) (cache : GroupCache) : GroupCache :=
  if evt.join = [] ∧ evt.leave = [] then cache
  else
    match cache.lookup evt.jid with
    | none => cache
    | some cached => cache.insert evt.jid { cached with members := updateMembers evt.join evt.leave cached.members }

/-- the event of a notification; `γ` is what a create notification gives -/
inductive GroupEvent (γ : Type) where
  | joined (created : γ)
  | changed (change : GroupChange)

/-- the one child of a create notification -/
def createNode (node : Node) : Option Node :=
  match node.getChildren with
  | [child] => if child.tag = ascii "create" then some child else none
  | _ => none

def parseGroupNotificationWithUsernames {γ : Type} (create : Node → Node → Go GroupCache GroupError γ) (node : Node) :
    Go GroupCache GroupError (GroupEvent γ) :=
  match createNode node with
  | some child => do
    let created ← create node child
    pure (.joined created)
  | none =>
    match parseGroupChangeWithUsernames node with
    | .error e => Go.throw e
    | .ok change => do
      Go.modify (updateGroupParticipantCache change.evt)
      pure (.changed change)

/-! ## Members -/

variable {members join leave : List JID} {jid other : JID} {node : Node}

theorem mem_joinMember : jid ∈ joinMember members other ↔ jid ∈ members ∨ jid = other := by
  unfold joinMember
  split_ifs with h
  · exact ⟨.inl, fun hj => hj.elim id fun he => he ▸ h⟩
  · rw [mem_append, mem_singleton]

theorem nodup_joinMember (jid : JID) (h : members.Nodup) : (joinMember members jid).Nodup := by
  unfold joinMember
  split_ifs with hj
  · exact h
  · exact nodup_append.2 ⟨h, nodup_singleton jid, fun a ha b hb => by
      rw [mem_singleton.1 hb]
      exact fun he => hj (he ▸ ha)⟩

/-- the order changes, but only the one who left is gone -/
theorem leaveMember_perm (members : List JID) (jid : JID) : (leaveMember members jid).Perm (members.erase jid) := by
  unfold leaveMember
  split_ifs with h
  · have hlt : members.idxOf jid < members.length := idxOf_lt_length_of_mem h
    rw [erase_eq_eraseIdx_of_idxOf rfl]
    generalize members.idxOf jid = i at hlt
    rcases eq_nil_or_concat members with rfl | ⟨front, last, rfl⟩
    · cases h
    · rw [concat_eq_append] at hlt ⊢
      rw [getLastD_concat]
      by_cases hi : i < front.length
      · rw [set_append_left _ _ hi, dropLast_concat, eraseIdx_append_of_lt_length hi]
        exact (set_perm_cons_eraseIdx hi last).trans (perm_append_singleton last _).symm
      · have hlast : i = front.length := by
          rw [length_append, length_singleton] at hlt
          omega
        subst hlast
        rw [set_append_right _ _ le_rfl, Nat.sub_self, set_cons_zero, dropLast_concat,
          eraseIdx_append_of_length_le le_rfl, Nat.sub_self]
        simp
  · rw [erase_of_not_mem h]

theorem mem_leaveMember (h : members.Nodup) : jid ∈ leaveMember members other ↔ jid ∈ members ∧ jid ≠ other := by
  rw [(leaveMember_perm members other).mem_iff, h.mem_erase_iff, and_comm]

theorem nodup_leaveMember (jid : JID) (h : members.Nodup) : (leaveMember members jid).Nodup :=
  (leaveMember_perm members jid).nodup_iff.2 (h.erase jid)

theorem foldl_joinMember (h : members.Nodup) :
    (join.foldl joinMember members).Nodup ∧ ∀ jid, jid ∈ join.foldl joinMember members ↔ jid ∈ members ∨ jid ∈ join := by
  induction join generalizing members with
  | nil => exact ⟨h, fun jid => by simp⟩
  | cons first join ih =>
    obtain ⟨hnodup, hmem⟩ := ih (nodup_joinMember first h)
    refine ⟨hnodup, fun jid => ?_⟩
    rw [foldl_cons, hmem, mem_joinMember, mem_cons, or_assoc]

theorem foldl_leaveMember (h : members.Nodup) :
    (leave.foldl leaveMember members).Nodup ∧
      ∀ jid, jid ∈ leave.foldl leaveMember members ↔ jid ∈ members ∧ jid ∉ leave := by
  induction leave generalizing members with
  | nil => exact ⟨h, fun jid => by simp⟩
  | cons first leave ih =>
    obtain ⟨hnodup, hmem⟩ := ih (nodup_leaveMember first h)
    refine ⟨hnodup, fun jid => ?_⟩
    rw [foldl_cons, hmem, mem_leaveMember h, mem_cons, not_or, and_assoc]

theorem nodup_updateMembers (h : members.Nodup) : (updateMembers join leave members).Nodup :=
  (foldl_leaveMember (foldl_joinMember h).1).1

theorem mem_updateMembers (h : members.Nodup) :
    jid ∈ updateMembers join leave members ↔ (jid ∈ members ∨ jid ∈ join) ∧ jid ∉ leave := by
  rw [updateMembers, (foldl_leaveMember (foldl_joinMember h).1).2, (foldl_joinMember h).2]

/-! ## The children in order -/

/-- one child applied to the members -/
def applyInOrder (members : Set JID) (child : Node) : Set JID :=
  match participantTag child with
  | some .add => members ∪ { jid | jid ∈ listed child }
  | some .remove => members \ { jid | jid ∈ listed child }
  | _ => members

/-- the children applied one after the other -/
def documentOrder (old : List JID) (children : List Node) : Set JID := children.foldl applyInOrder { jid | jid ∈ old }

inductive Mention where
  | added
  | removed
deriving DecidableEq, Repr

/-- one child may mention the user -/
def mention (jid : JID) (last : Option Mention) (child : Node) : Option Mention :=
  match participantTag child with
  | some .add => if jid ∈ listed child then some .added else last
  | some .remove => if jid ∈ listed child then some .removed else last
  | _ => last

/-- what the last `add` or `remove` child does that lists the user -/
def lastMention (children : List Node) (jid : JID) : Option Mention := children.foldl (mention jid) none

theorem lastMention_snoc (children : List Node) (child : Node) :
    lastMention (children ++ [child]) jid = mention jid (lastMention children jid) child := by
  rw [lastMention, foldl_append]
  rfl

theorem documentOrder_snoc (old : List JID) (children : List Node) (child : Node) :
    documentOrder old (children ++ [child]) = applyInOrder (documentOrder old children) child := by
  rw [documentOrder, foldl_append]
  rfl

theorem lastList_snoc (tag : ParticipantTag) (children : List Node) (child : Node) :
    lastList tag [] (children ++ [child]) =
      if participantTag child = some tag then listed child else lastList tag [] children := by
  rw [lastList, foldl_append]
  rfl

theorem mem_documentOrder (old : List JID) (children : List Node) :
    jid ∈ documentOrder old children ↔
      lastMention children jid = some .added ∨ lastMention children jid = none ∧ jid ∈ old := by
  induction children using List.reverseRecOn with
  | nil => exact ⟨fun h => .inr ⟨rfl, h⟩, fun h => h.elim (fun h => by cases h) fun h => h.2⟩
  | append_singleton children child ih =>
    rw [documentOrder_snoc, lastMention_snoc]
    unfold applyInOrder mention
    split
    · rw [Set.mem_union, ih]
      by_cases hj : jid ∈ listed child <;> simp [hj]
    · rw [Set.mem_sdiff, ih]
      by_cases hj : jid ∈ listed child <;> simp [hj]
    · exact ih

/-- a user who is in the last list of a kind is mentioned -/
theorem lastMention_ne_none {tag : ParticipantTag} (htag : tag = .add ∨ tag = .remove) {children : List Node}
    (h : jid ∈ lastList tag [] children) : lastMention children jid ≠ none := by
  induction children using List.reverseRecOn with
  | nil => cases h
  | append_singleton children child ih =>
    rw [lastList_snoc] at h
    rw [lastMention_snoc]
    unfold mention
    by_cases hchild : participantTag child = some tag
    · rw [if_pos hchild] at h
      rcases htag with rfl | rfl
      · simp [hchild, h]
      · simp [hchild, h]
    · rw [if_neg hchild] at h
      split
      · split_ifs
        · exact Option.some_ne_none _
        · exact ih h
      · split_ifs
        · exact Option.some_ne_none _
        · exact ih h
      · exact ih h

/-! ## The cache -/

/-- the notification is parsed and its last `add` child lists the user -/
def Joins (node : Node) (jid : JID) : Prop :=
  (∃ change, parseGroupChangeWithUsernames node = .ok change) ∧ jid ∈ lastList .add [] node.getChildren

/-- the notification is parsed and its last `remove` child lists the user -/
def Leaves (node : Node) (jid : JID) : Prop :=
  (∃ change, parseGroupChangeWithUsernames node = .ok change) ∧ jid ∈ lastList .remove [] node.getChildren

/-- the cached list after a notification that does not create a group -/
theorem parseGroupNotification_spec {γ : Type} (create : Node → Node → Go GroupCache GroupError γ)
    (hnode : createNode node = none) {cache : GroupCache} {cached : GroupMetaCache}
    (hcached : cache.lookup (groupOf node) = some cached) (hnodup : cached.members.Nodup) :
    ∃ cached', (parseGroupNotificationWithUsernames create node cache).2.lookup (groupOf node) = some cached' ∧
      cached'.members.Nodup ∧
      ∀ jid, jid ∈ cached'.members ↔ (jid ∈ cached.members ∨ Joins node jid) ∧ ¬Leaves node jid := by
  unfold parseGroupNotificationWithUsernames Joins Leaves
  rw [hnode]
  cases hparse : parseGroupChangeWithUsernames node with
  | error e => exact ⟨cached, hcached, hnodup, fun jid => by simp⟩
  | ok change =>
    obtain ⟨hjid, hjoin, hleave⟩ := parseGroupChange_participants hparse
    have hmem : ∀ jid, jid ∈ updateMembers change.evt.join change.evt.leave cached.members ↔
        (jid ∈ cached.members ∨ jid ∈ lastList .add [] node.getChildren) ∧ jid ∉ lastList .remove [] node.getChildren := by
      intro jid
      rw [mem_updateMembers hnodup, hjoin, hleave]
    have hupdate : (updateGroupParticipantCache change.evt cache).lookup (groupOf node) =
        some { cached with members := updateMembers change.evt.join change.evt.leave cached.members } := by
      unfold updateGroupParticipantCache
      split_ifs with hnone
      · rw [hcached, hnone.1, hnone.2]
        rfl
      · rw [hjid, hcached]
        exact AList.lookup_insert _
    refine ⟨_, hupdate, nodup_updateMembers hnodup, fun jid => ?_⟩
    rw [hmem]
    simp

/-- what the last mention of the user asks for, the event does -/
def Reflected (old : List JID) (node : Node) (jid : JID) : Prop :=
  (lastMention node.getChildren jid = some .added → (jid ∈ old ∨ Joins node jid) ∧ ¬Leaves node jid) ∧
    (lastMention node.getChildren jid = some .removed → Leaves node jid ∨ jid ∉ old ∧ ¬Joins node jid)

/-- **When the cached members follow a notification.** For every cached list without duplicates and every notification that
is not about a new group: the list afterwards has no duplicates and is the old one with the children applied in order, if
and only if for every user whose last mention is an `add`, the user is not in the last `remove` child and is in the last
`add` child or was a member, and for every user whose last mention is a `remove`, the user is in the last `remove` child or
was no member and is not in the last `add` child. -/
theorem group_cache_follows_iff {γ : Type} (create : Node → Node → Go GroupCache GroupError γ) (node : Node)
    (hnode : createNode node = none) (cache : GroupCache) (cached : GroupMetaCache)
    (hcached : cache.lookup (groupOf node) = some cached) (hnodup : cached.members.Nodup) :
    ∃ cached', (parseGroupNotificationWithUsernames create node cache).2.lookup (groupOf node) = some cached' ∧
      cached'.members.Nodup ∧
      ((∀ jid, jid ∈ cached'.members ↔ jid ∈ documentOrder cached.members node.getChildren) ↔
        ∀ jid, Reflected cached.members node jid) := by
  obtain ⟨cached', hlookup, hnodup', hmem⟩ := parseGroupNotification_spec create hnode hcached hnodup
  refine ⟨cached', hlookup, hnodup', forall_congr' fun jid => ?_⟩
  rw [hmem, mem_documentOrder]
  unfold Reflected
  have hjoins : Joins node jid → lastMention node.getChildren jid ≠ none := fun h => lastMention_ne_none (.inl rfl) h.2
  have hleaves : Leaves node jid → lastMention node.getChildren jid ≠ none := fun h => lastMention_ne_none (.inr rfl) h.2
  cases hlast : lastMention node.getChildren jid with
  | none =>
    have hj : ¬Joins node jid := fun h => hjoins h hlast
    have hl : ¬Leaves node jid := fun h => hleaves h hlast
    simp [hj, hl]
  | some m =>
    cases m with
    | added => simp
    | removed =>
      simp only [reduceCtorEq, Option.some.injEq, false_or, false_and, iff_false, false_imp_iff, true_imp_iff, true_and,
        not_and_or, not_or, not_not]
      exact or_comm

/-! ## Notifications -/

def user (name : String) : JID := newJID (ascii name) defaultUserServer

def exampleGroup : JID := newJID (ascii "7") groupServer

/-- a cached group with one member -/
def cachedGroup : GroupMetaCache := ⟨[], false, [user "1"]⟩

def exampleGroups : GroupCache := AList.insert exampleGroup cachedGroup ∅

/-- a child with one participant -/
def changeOf (tag name : String) : Node :=
  ⟨ascii tag, none, .nodes [⟨ascii "participant", some [(ascii "jid", .jid (user name))], .nil⟩]⟩

def groupNotification (children : List Node) : Node :=
  ⟨ascii "notification", some [(ascii "from", .jid exampleGroup), (ascii "t", .string (ascii "5"))], .nodes children⟩

def noCreate (_ _ : Node) : Go GroupCache GroupError Unit := Go.throw .create

/-- the members of the example group after a notification -/
def membersAfter (children : List Node) : Option (List JID) :=
  ((parseGroupNotificationWithUsernames noCreate (groupNotification children) exampleGroups).2.lookup exampleGroup).map
    GroupMetaCache.members

theorem lookup_exampleGroups (children : List Node) :
    exampleGroups.lookup (groupOf (groupNotification children)) = some cachedGroup := AList.lookup_insert ∅

theorem group_cache_follows_iff_add :
    ∃ cached', (parseGroupNotificationWithUsernames noCreate (groupNotification [changeOf "add" "2"]) exampleGroups).2.lookup
        (groupOf (groupNotification [changeOf "add" "2"])) = some cached' ∧ cached'.members.Nodup ∧
      ∀ jid, jid ∈ cached'.members ↔ jid ∈ documentOrder [user "1"] [changeOf "add" "2"] := by
  obtain ⟨cached', hlookup, hnodup, hiff⟩ := group_cache_follows_iff noCreate (groupNotification [changeOf "add" "2"]) rfl
    exampleGroups cachedGroup (lookup_exampleGroups _) (nodup_singleton _)
  refine ⟨cached', hlookup, hnodup, hiff.2 fun jid => ?_⟩
  have hparse : ∃ change, parseGroupChangeWithUsernames (groupNotification [changeOf "add" "2"]) = .ok change := ⟨_, rfl⟩
  have htag : participantTag (changeOf "add" "2") = some .add := by decide
  have hmention : lastMention [changeOf "add" "2"] jid = if jid ∈ listed (changeOf "add" "2") then some .added else none := by
    rw [lastMention, foldl_cons, mention, htag]
    rfl
  have hleave : ¬Leaves (groupNotification [changeOf "add" "2"]) jid := fun h => not_mem_nil h.2
  have hjoin : jid ∈ listed (changeOf "add" "2") → Joins (groupNotification [changeOf "add" "2"]) jid := fun h => ⟨hparse, h⟩
  have hchildren : (groupNotification [changeOf "add" "2"]).getChildren = [changeOf "add" "2"] := rfl
  unfold Reflected
  rw [hchildren, hmention]
  by_cases h : jid ∈ listed (changeOf "add" "2")
  · rw [if_pos h]
    exact ⟨fun _ => ⟨.inr (hjoin h), hleave⟩, fun h => by cases h⟩
  · rw [if_neg h]
    exact ⟨fun h => absurd h.symm (Option.some_ne_none _), fun h => absurd h.symm (Option.some_ne_none _)⟩

/-- **Children are lost.** Users 2 and 3 are added by two children, and user 2 does not become a member. User 1 is removed
and added again, and is no member afterwards. -/
theorem second_add_lost :
    cachedGroup.members.Nodup ∧
    (createNode (groupNotification [changeOf "add" "2", changeOf "add" "3"]) = none ∧
      membersAfter [changeOf "add" "2", changeOf "add" "3"] = some [user "1", user "3"] ∧
      user "2" ∈ documentOrder cachedGroup.members [changeOf "add" "2", changeOf "add" "3"]) ∧
    (createNode (groupNotification [changeOf "remove" "1", changeOf "add" "1"]) = none ∧
      membersAfter [changeOf "remove" "1", changeOf "add" "1"] = some [] ∧
      user "1" ∈ documentOrder cachedGroup.members [changeOf "remove" "1", changeOf "add" "1"]) := by
  refine ⟨nodup_singleton _, ⟨rfl, by decide +kernel, ?_⟩, ⟨rfl, by decide +kernel, ?_⟩⟩
  · exact (mem_documentOrder ..).2 (.inl (by decide +kernel))
  · exact (mem_documentOrder ..).2 (.inl (by decide +kernel))

end Hypermeow.Client.Groups
