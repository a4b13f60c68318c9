/-
A group message is sent while the members of the group change (`getCachedGroupData`, `updateGroupParticipantCache` of
`group.go`, the group part of `SendMessage` in `send.go`).

A sender gets a pointer to the cached group under the lock, and reads the member list after the lock is released: first the
slice, then one member after the other. Updates change the array of the same slice in place. A user who joins is written
behind the last member while there is room; the place of a user who leaves is overwritten with the last member. Then the
new slice is assigned.

Model: backing arrays, the slice of the cached group, the rest of the update that holds the lock, and the sender. One action
is one access to the shared memory, in any order that the lock allows. When an array is full the runtime picks how much room
the next one gets.

Results:
- `Inv.members`: between updates the slice has the members after the updates so far, as `updateMembers` computes them.
-/
import Hypermeow.Client.GroupCache
import Hypermeow.Lib.Runs

namespace Hypermeow.Client.GroupSend

open Lib Types Client.Groups List Option

/-! ## Model -/

/-- the first `len` elements of an array -/
structure Slice where
  array : ℕ
  len : ℕ
deriving DecidableEq, Repr

/-- what is left to do of an update -/
inductive Op where
  | join (jid : JID)
  | leave (jid : JID)
deriving DecidableEq, Repr

inductive Sender where
  | start
  /-- has the pointer to the cached group -/
  | obtained
  /-- has the slice, and has read some members -/
  | reading (slice : Slice) (read : List JID)
deriving DecidableEq, Repr

structure St where
  arrays : ℕ → List JID
  /-- how many arrays there are -/
  allocated : ℕ
  /-- `cached.Members` -/
  header : Slice
  /-- the rest of the update that holds the lock -/
  ops : List Op
  /-- the slice that the update assigns next -/
  pending : Option Slice
  /-- the updates so far, joins and leaves, in the order in which they got the lock -/
  started : List (List JID × List JID)
  sender : Sender

inductive Action where
  | update (join leave : List JID)
  /-- the next access of the update; `room` is for an array that has to be allocated -/
  | advance (room : ℕ)
  | obtain
  | readHeader
  | readElement

/-- nobody holds the lock -/
def St.free (s : St) : Bool := s.ops.isEmpty && s.pending.isNone

def contents (arrays : ℕ → List JID) (slice : Slice) : List JID := (arrays slice.array).take slice.len

/-- the first access for one user -/
inductive Effect where
  | skip
  /-- an element is written, then the slice is assigned -/
  | write (index : ℕ) (value : JID) (len : ℕ)
  /-- the members move to a new array -/
  | allocate (array : List JID) (len : ℕ)

def effect (s : St) (room : ℕ) : Op → Effect
  | .join jid =>
    if jid ∈ contents s.arrays s.header then .skip
    else if s.header.len < (s.arrays s.header.array).length then .write s.header.len jid (s.header.len + 1)
    else .allocate (contents s.arrays s.header ++ jid :: List.replicate room emptyJID) (s.header.len + 1)
  | .leave jid =>
    let members := contents s.arrays s.header
    if jid ∈ members then .write (members.idxOf jid) (members.getLastD jid) (s.header.len - 1) else .skip

def applyEffect (s : St) (rest : List Op) : Effect → St
  | .skip => { s with ops := rest }
  | .write index value len =>
    { s with
      arrays := Function.update s.arrays s.header.array ((s.arrays s.header.array).set index value)
      ops := rest
      pending := some ⟨s.header.array, len⟩ }
  | .allocate array len =>
    { s with
      arrays := Function.update s.arrays s.allocated array
      allocated := s.allocated + 1
      ops := rest
      pending := some ⟨s.allocated, len⟩ }

def advance (s : St) (room : ℕ) : St :=
  match s.pending with
  | some header => { s with header, pending := none }
  | none =>
    match s.ops with
    | [] => s
    | op :: rest => applyEffect s rest (effect s room op)

def step (s : St) : Action → St
  | .update join leave =>
    if s.free then
      { s with ops := join.map .join ++ leave.map .leave, started := s.started ++ [(join, leave)] }
    else s
  | .advance room => advance s room
  | .obtain =>
    match s.sender with
    | .start => if s.free then { s with sender := .obtained } else s
    | _ => s
  | .readHeader =>
    match s.sender with
    | .obtained => { s with sender := .reading s.header [] }
    | _ => s
  | .readElement =>
    match s.sender with
    | .reading slice read =>
      if read.length < slice.len then
        { s with sender := .reading slice (read ++ [(s.arrays slice.array).getD read.length emptyJID]) }
      else s
    | _ => s

/-- a cached group, and a sender that has not begun -/
def init (members spare : List JID) : St where
  arrays _ := members ++ spare
  allocated := 1
  header := ⟨0, members.length⟩
  ops := []
  pending := none
  started := []
  sender := .start

/-! ## Updates -/

/-- the members after some updates -/
def membersAfter (initial : List JID) (updates : List (List JID × List JID)) : List JID :=
  updates.foldl (fun members u => updateMembers u.1 u.2 members) initial

def applyOp (members : List JID) : Op → List JID
  | .join jid => joinMember members jid
  | .leave jid => leaveMember members jid

theorem foldl_applyOp (join leave members : List JID) :
    (join.map Op.join ++ leave.map Op.leave).foldl applyOp members = updateMembers join leave members := by
  rw [foldl_append, foldl_map, foldl_map]
  rfl

variable {s : St} {initial members : List JID} {slice : Slice} {read : List JID}

/-- the slice is in an array that exists -/
def Valid (s : St) (slice : Slice) : Prop := slice.array < s.allocated ∧ slice.len ≤ (s.arrays slice.array).length

theorem length_contents (h : Valid s slice) : (contents s.arrays slice).length = slice.len := by
  rw [contents, length_take]
  exact Nat.min_eq_left h.2

theorem contents_set (arrays : ℕ → List JID) (array index : ℕ) (value : JID) (slice : Slice) :
    contents (Function.update arrays array ((arrays array).set index value)) slice =
      if slice.array = array then (contents arrays slice).set index value else contents arrays slice := by
  unfold contents
  split_ifs with h
  · subst h
    rw [Function.update_self, take_set]
  · rw [Function.update_of_ne h]

theorem take_set_self {l : List JID} {n : ℕ} (h : n < l.length) (a : JID) : (l.set n a).take (n + 1) = l.take n ++ [a] := by
  rw [take_add_one, getElem?_set_self h, take_set_of_le le_rfl]
  rfl

/-- the slice that the first access for a user leads to has the members with the user joined or gone -/
def EffectRight (s : St) (members : List JID) : Effect → Prop
  | .skip => contents s.arrays s.header = members
  | .write index value len =>
    len ≤ (s.arrays s.header.array).length ∧ ((s.arrays s.header.array).set index value).take len = members
  | .allocate array len => len ≤ array.length ∧ array.take len = members

theorem effect_join (hv : Valid s s.header) (room : ℕ) (jid : JID) :
    EffectRight s (joinMember (contents s.arrays s.header) jid) (effect s room (.join jid)) := by
  unfold effect joinMember
  dsimp only
  by_cases hmem : jid ∈ contents s.arrays s.header
  · rw [if_pos hmem, if_pos hmem]
    exact rfl
  · rw [if_neg hmem, if_neg hmem]
    by_cases hroom : s.header.len < (s.arrays s.header.array).length
    · rw [if_pos hroom]
      exact ⟨hroom, take_set_self hroom jid⟩
    · have hlen : (contents s.arrays s.header ++ [jid]).length = s.header.len + 1 := by
        rw [length_append, length_contents hv]
        rfl
      have harray : contents s.arrays s.header ++ jid :: List.replicate room emptyJID =
          contents s.arrays s.header ++ [jid] ++ List.replicate room emptyJID := by
        rw [append_assoc, singleton_append]
      rw [if_neg hroom, harray]
      refine ⟨?_, take_left' hlen⟩
      rw [length_append, hlen]
      exact Nat.le_add_right _ _

theorem effect_leave (hv : Valid s s.header) (room : ℕ) (jid : JID) :
    EffectRight s (leaveMember (contents s.arrays s.header) jid) (effect s room (.leave jid)) := by
  unfold effect leaveMember
  dsimp only
  by_cases hmem : jid ∈ contents s.arrays s.header
  · rw [if_pos hmem, if_pos hmem]
    refine ⟨(Nat.sub_le ..).trans hv.2, ?_⟩
    have hshort : contents s.arrays ⟨s.header.array, s.header.len - 1⟩ =
        (contents s.arrays s.header).take (s.header.len - 1) := by
      rw [contents, contents, take_take, Nat.min_eq_left (Nat.sub_le ..)]
    rw [dropLast_eq_take, length_set, length_contents hv, take_set, take_set, ← hshort]
    rfl
  · rw [if_neg hmem, if_neg hmem]
    exact rfl

theorem effect_right (hv : Valid s s.header) (room : ℕ) (op : Op) :
    EffectRight s (applyOp (contents s.arrays s.header) op) (effect s room op) := by
  cases op with
  | join jid => exact effect_join hv room jid
  | leave jid => exact effect_leave hv room jid

/-! ## Invariant -/

/-- what the sender reads if nothing is written any more -/
def view (s : St) (slice : Slice) (read : List JID) : List JID := read ++ (contents s.arrays slice).drop read.length

/-- the sender is about to read the members after some of the updates -/
def SenderInv (initial : List JID) (s : St) : Prop :=
  ∀ slice read, s.sender = .reading slice read → Valid s slice ∧ read.length ≤ slice.len ∧
    ∃ k, k ≤ s.started.length ∧ view s slice read = membersAfter initial (s.started.take k)

structure Inv (initial : List JID) (s : St) : Prop where
  header : Valid s s.header
  pending : ∀ slice, s.pending = some slice → Valid s slice
  /-- with the rest of the update, the members are those after all updates so far -/
  members : s.ops.foldl applyOp (contents s.arrays (s.pending.getD s.header)) = membersAfter initial s.started
  sender : SenderInv initial s

/-- the slice is read between updates, and no write changes a place that the sender has still to read -/
def undisturbed (s : St) : Action → Bool
  | .readHeader => s.free
  | .advance room =>
    match s.pending, s.ops, s.sender with
    | none, op :: _, .reading slice read =>
      match effect s room op with
      | .write index value _ =>
        !(slice.array = s.header.array && read.length ≤ index && index < slice.len) ||
          (s.arrays s.header.array).getD index emptyJID = value
      | _ => true
    | _, _, _ => true
  | _ => true

theorem free_iff : s.free = true ↔ s.ops = [] ∧ s.pending = none := by
  rw [St.free, Bool.and_eq_true, List.isEmpty_iff, isNone_iff_eq_none]

/-- a write that the sender does not notice -/
theorem view_set {index : ℕ} {value : JID} {s' : St}
    (harrays : s'.arrays = Function.update s.arrays s.header.array ((s.arrays s.header.array).set index value))
    (hv : Valid s slice)
    (h : slice.array = s.header.array → read.length ≤ index → index < slice.len →
      (s.arrays s.header.array).getD index emptyJID = value) : view s' slice read = view s slice read := by
  unfold view
  rw [harrays, contents_set]
  split_ifs with harray
  · congr 1
    rcases Nat.lt_or_ge index read.length with hlt | hge
    · exact drop_set_of_lt hlt
    rcases Nat.lt_or_ge index slice.len with hlt | hlen
    · -- the place is unread, and already has the value
      have hin : index < (s.arrays s.header.array).length := by
        rw [← harray]
        exact hlt.trans_le hv.2
      have hsame := h harray hge hlt
      rw [getD_eq_getElem?_getD, getElem?_eq_getElem hin, getD_some] at hsame
      have hvalue : (contents s.arrays slice)[index]? = some value := by
        rw [contents, getElem?_take_of_lt hlt, harray, getElem?_eq_getElem hin, hsame]
      obtain ⟨hi, rfl⟩ := List.getElem?_eq_some_iff.1 hvalue
      rw [set_getElem_self hi]
    · rw [set_eq_of_length_le (by rw [length_contents hv]; exact hlen)]
  · rfl

/-- reading the next member does not change what is read in the end -/
theorem view_read (hv : Valid s slice) (hlt : read.length < slice.len) :
    view s slice (read ++ [(s.arrays slice.array).getD read.length emptyJID]) = view s slice read := by
  have hin : read.length < (s.arrays slice.array).length := hlt.trans_le hv.2
  have hcontents : read.length < (contents s.arrays slice).length := by
    rw [length_contents hv]
    exact hlt
  have hnext : (contents s.arrays slice).get ⟨read.length, hcontents⟩ =
      (s.arrays slice.array).getD read.length emptyJID := by
    rw [getD_eq_getElem?_getD, getElem?_eq_getElem hin, getD_some]
    exact getElem_take
  unfold view
  rw [drop_eq_getElem_cons hcontents, ← hnext, length_append, append_assoc]
  rfl

theorem membersAfter_snoc (initial : List JID) (updates : List (List JID × List JID)) (u : List JID × List JID) :
    membersAfter initial (updates ++ [u]) = updateMembers u.1 u.2 (membersAfter initial updates) := by
  rw [membersAfter, foldl_append]
  rfl

/-! ## One access -/

/-- an array is written or added; slices stay valid -/
theorem Valid.set {index : ℕ} {value : JID} {s' : St} (hallocated : s'.allocated = s.allocated)
    (harrays : s'.arrays = Function.update s.arrays s.header.array ((s.arrays s.header.array).set index value))
    (hv : Valid s slice) : Valid s' slice := by
  refine ⟨hallocated ▸ hv.1, ?_⟩
  rw [harrays]
  by_cases h : slice.array = s.header.array
  · rw [h, Function.update_self, length_set, ← h]
    exact hv.2
  · rw [Function.update_of_ne h]
    exact hv.2

section Effects

variable {op : Op} {rest : List Op}

/-- the members, said with the next user taken off the rest of the update -/
theorem Inv.members_cons (h : Inv initial s) (hp : s.pending = none) (hops : s.ops = op :: rest) :
    rest.foldl applyOp (applyOp (contents s.arrays s.header) op) = membersAfter initial s.started := by
  have hmembers := h.members
  rw [hp, hops, getD_none, foldl_cons] at hmembers
  exact hmembers

theorem skip_inv (h : Inv initial s) (hp : s.pending = none) (hops : s.ops = op :: rest)
    (hr : EffectRight s (applyOp (contents s.arrays s.header) op) .skip) : Inv initial (applyEffect s rest .skip) := by
  have hmembers := h.members_cons hp hops
  rw [← hr] at hmembers
  refine ⟨h.header, h.pending, ?_, h.sender⟩
  change rest.foldl applyOp (contents s.arrays (s.pending.getD s.header)) = membersAfter initial s.started
  rw [hp]
  exact hmembers

theorem write_inv {index len : ℕ} {value : JID} (h : Inv initial s) (hp : s.pending = none) (hops : s.ops = op :: rest)
    (hr : EffectRight s (applyOp (contents s.arrays s.header) op) (.write index value len))
    (hok : ∀ slice read, s.sender = .reading slice read → slice.array = s.header.array → read.length ≤ index →
      index < slice.len → (s.arrays s.header.array).getD index emptyJID = value) :
    Inv initial (applyEffect s rest (.write index value len)) where
  header := Valid.set (s := s) rfl rfl h.header
  pending := by
    rintro _ ⟨⟩
    refine ⟨h.header.1, ?_⟩
    simp only [applyEffect, Function.update_self, length_set]
    exact hr.1
  members := by
    simp only [applyEffect, getD_some, contents, Function.update_self]
    rw [hr.2]
    exact h.members_cons hp hops
  sender := by
    intro slice read hsender
    obtain ⟨hv, hle, k, hk, hview⟩ := h.sender slice read hsender
    refine ⟨Valid.set (s := s) rfl rfl hv, hle, k, hk, ?_⟩
    rw [view_set rfl hv (hok slice read hsender)]
    exact hview

/-- a new array is nobody's slice yet -/
theorem Valid.allocate {array : List JID} {s' : St} (hallocated : s'.allocated = s.allocated + 1)
    (harrays : s'.arrays = Function.update s.arrays s.allocated array) (hv : Valid s slice) :
    Valid s' slice ∧ contents s'.arrays slice = contents s.arrays slice := by
  have hne : slice.array ≠ s.allocated := hv.1.ne
  unfold Valid contents
  rw [harrays, Function.update_of_ne hne, hallocated]
  exact ⟨⟨hv.1.trans (Nat.lt_succ_self _), hv.2⟩, rfl⟩

theorem allocate_inv {array : List JID} {len : ℕ} (h : Inv initial s) (hp : s.pending = none) (hops : s.ops = op :: rest)
    (hr : EffectRight s (applyOp (contents s.arrays s.header) op) (.allocate array len)) :
    Inv initial (applyEffect s rest (.allocate array len)) where
  header := (Valid.allocate (s := s) rfl rfl h.header).1
  pending := by
    rintro _ ⟨⟩
    refine ⟨Nat.lt_succ_self _, ?_⟩
    simp only [applyEffect, Function.update_self]
    exact hr.1
  members := by
    simp only [applyEffect, getD_some, contents, Function.update_self]
    rw [hr.2]
    exact h.members_cons hp hops
  sender := by
    intro slice read hsender
    obtain ⟨hv, hle, k, hk, hview⟩ := h.sender slice read hsender
    have hkeep : Valid (applyEffect s rest (.allocate array len)) slice ∧
        contents (applyEffect s rest (.allocate array len)).arrays slice = contents s.arrays slice :=
      Valid.allocate rfl rfl hv
    obtain ⟨hv', hcontents⟩ := hkeep
    refine ⟨hv', hle, k, hk, ?_⟩
    rw [view, hcontents]
    exact hview

end Effects

section

variable (h : Inv initial s)
include h

theorem advance_inv (room : ℕ) (hok : undisturbed s (.advance room) = true) : Inv initial (advance s room) := by
  cases hp : s.pending with
  | some slice =>
    have hrun : advance s room = { s with header := slice, pending := none } := by
      rw [advance, hp]
    have hmembers := h.members
    rw [hp] at hmembers
    rw [hrun]
    exact ⟨h.pending slice hp, fun _ h => (some_ne_none _ h.symm).elim, hmembers, h.sender⟩
  | none =>
    cases hops : s.ops with
    | nil =>
      have hrun : advance s room = s := by
        rw [advance, hp, hops]
      rw [hrun]
      exact h
    | cons op rest =>
      have hrun : advance s room = applyEffect s rest (effect s room op) := by
        rw [advance, hp, hops]
      have hright := effect_right h.header room op
      rw [hrun]
      cases heffect : effect s room op with
      | skip => exact skip_inv h hp hops (heffect ▸ hright)
      | allocate array len => exact allocate_inv h hp hops (heffect ▸ hright)
      | write index value len =>
        refine write_inv h hp hops (heffect ▸ hright) fun slice read hsender harray hge hlt => ?_
        simp only [undisturbed, hp, hops, hsender, heffect] at hok
        simpa [harray, hge, hlt] using hok

/-- between updates the slice has the members after the updates so far -/
theorem Inv.contents_eq (hfree : s.free = true) : contents s.arrays s.header = membersAfter initial s.started := by
  obtain ⟨hops, hp⟩ := free_iff.1 hfree
  have hmembers := h.members
  rw [hops, hp] at hmembers
  exact hmembers

/-- an update gets the lock: the members are those with all of it, the sender's are those of the same updates as before -/
theorem update_inv (hfree : s.free = true) (join leave : List JID) :
    Inv initial
      { s with ops := join.map .join ++ leave.map .leave, started := s.started ++ [(join, leave)] } := by
  refine ⟨h.header, h.pending, ?_, fun slice read hsender => ?_⟩
  · rw [(free_iff.1 hfree).2, foldl_applyOp, membersAfter_snoc, ← h.contents_eq hfree]
    rfl
  · obtain ⟨hv, hle, k, hk, hview⟩ := h.sender slice read hsender
    refine ⟨hv, hle, k, ?_, ?_⟩
    · rw [length_append]
      exact hk.trans (Nat.le_add_right _ _)
    · rw [take_append_of_le_length hk]
      exact hview

theorem readHeader_inv (hfree : s.free = true) : Inv initial { s with sender := .reading s.header [] } := by
  refine ⟨h.header, h.pending, h.members, ?_⟩
  rintro _ _ ⟨⟩
  refine ⟨h.header, Nat.zero_le _, s.started.length, le_rfl, ?_⟩
  rw [take_length, ← h.contents_eq hfree]
  rfl

theorem readElement_inv (hsender : s.sender = .reading slice read) (hlt : read.length < slice.len) :
    Inv initial
      { s with sender := .reading slice (read ++ [(s.arrays slice.array).getD read.length emptyJID]) } := by
  refine ⟨h.header, h.pending, h.members, ?_⟩
  rintro _ _ ⟨⟩
  obtain ⟨hv, hle, k, hk, hview⟩ := h.sender slice read hsender
  refine ⟨hv, ?_, k, hk, (view_read hv hlt).trans hview⟩
  rw [length_append]
  exact hlt

end

theorem step_inv (s : St) (a : Action) (hok : undisturbed s a = true) (h : Inv initial s) : Inv initial (step s a) := by
  cases a with
  | update join leave =>
    unfold step
    dsimp only
    split_ifs with hfree
    · exact update_inv h hfree join leave
    · exact h
  | advance room => exact advance_inv h room hok
  | obtain =>
    unfold step
    dsimp only
    split
    · split_ifs
      · exact ⟨h.header, h.pending, h.members, fun _ _ h => by cases h⟩
      · exact h
    · exact h
  | readHeader =>
    unfold step
    dsimp only
    split
    · exact readHeader_inv h hok
    · exact h
  | readElement =>
    unfold step
    dsimp only
    split
    · rename_i slice read hsender
      split_ifs with hlt
      · exact readElement_inv h hsender hlt
      · exact h
    · exact h

/-! ## Whole runs -/

theorem init_inv (members spare : List JID) : Inv members (init members spare) where
  header := by
    refine ⟨Nat.one_pos, ?_⟩
    simp [init]
  pending _ h := (some_ne_none _ h.symm).elim
  members := take_left
  sender _ _ h := by cases h

theorem nodup_membersAfter (h : initial.Nodup) (updates : List (List JID × List JID)) :
    (membersAfter initial updates).Nodup := by
  induction updates using List.reverseRecOn with
  | nil => exact h
  | append_singleton updates u ih =>
    rw [membersAfter_snoc]
    exact nodup_updateMembers ih

/-- **What an undisturbed sender reads.** In every run in which the sender reads the slice between updates and no write
changes a place that the sender has still to read: what the sender has read in the end has no member twice and is the list
of members after the first `k` updates, for some `k`. -/
theorem sender_reads_membership (members spare : List JID) (hnodup : members.Nodup) (actions : List Action)
    (hal : Along step (fun s a => undisturbed s a = true) (init members spare) actions) (slice : Slice) (read : List JID)
    (hsender : (run step (init members spare) actions).sender = .reading slice read) (hdone : read.length = slice.len) :
    read.Nodup ∧ ∃ k, k ≤ (run step (init members spare) actions).started.length ∧
      read = membersAfter members ((run step (init members spare) actions).started.take k) := by
  have hinv : Inv members (run step (init members spare) actions) :=
    run_inv (fun s a => step_inv s a) (init_inv members spare) hal
  obtain ⟨hv, -, k, hk, hview⟩ := hinv.sender slice read hsender
  have hread : read = membersAfter members ((run step (init members spare) actions).started.take k) := by
    rw [← hview, view, drop_of_length_le, append_nil]
    rw [length_contents hv, hdone]
  refine ⟨?_, k, hk, hread⟩
  rw [hread]
  exact nodup_membersAfter hnodup _

/-! ## Runs -/

/-- three members -/
def three : List JID := [user "1", user "2", user "3"]

/-- the sender reads one member; then an update with at most three accesses; then the sender reads the others -/
def readDuring (join leave : List JID) : List Action :=
  [.obtain, .readHeader, .readElement, .update join leave, .advance 0, .advance 0, .advance 0, .advance 0, .readElement,
    .readElement]

def senderAfter (actions : List Action) : Sender := (run step (init three []) actions).sender

theorem sender_reads_membership_removed :
    [user "1", user "2", user "3"].Nodup ∧ ∃ k,
      k ≤ (run step (init three []) (readDuring [] [user "1"])).started.length ∧ [user "1", user "2", user "3"] =
        membersAfter three ((run step (init three []) (readDuring [] [user "1"])).started.take k) := by
  refine sender_reads_membership three [] (by decide) (readDuring [] [user "1"]) ?_ ⟨0, 3⟩ [user "1", user "2", user "3"]
    ?_ rfl
  · decide +kernel
  · decide +kernel

/-- the sender reads the first member, who then leaves before another one joins -/
def readAcross : List Action :=
  [.obtain, .readHeader, .readElement, .update [] [user "1"], .advance 0, .advance 0, .update [user "4"] [], .advance 0,
    .advance 0, .readElement, .readElement]

theorem started_readAcross :
    (run step (init three []) readAcross).started = [([], [user "1"]), ([user "4"], [])] := by
  decide +kernel

/-- **The sender is disturbed.** While the sender is at the second of three members, the second one leaves: the sender reads
the third twice. While it is there, the first one leaves and a fourth joins: the sender reads the first and the fourth, who
were never members together. -/
theorem sender_disturbed :
    three.Nodup ∧
    senderAfter (readDuring [] [user "2"]) = .reading ⟨0, 3⟩ [user "1", user "3", user "3"] ∧
    senderAfter readAcross = .reading ⟨0, 3⟩ [user "1", user "2", user "4"] ∧
    ∀ k, user "1" ∉ membersAfter three ((run step (init three []) readAcross).started.take k) ∨
      user "4" ∉ membersAfter three ((run step (init three []) readAcross).started.take k) := by
  refine ⟨by decide, by decide +kernel, by decide +kernel, fun k => ?_⟩
  rw [started_readAcross]
  rcases k with _ | _ | k
  · exact .inr (by decide +kernel)
  · exact .inl (by decide +kernel)
  · rw [take_of_length_le (by simp)]
    exact .inl (by decide +kernel)

end Hypermeow.Client.GroupSend
