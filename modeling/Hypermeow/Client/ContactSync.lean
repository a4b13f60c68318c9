/-
A full sync of the contact list against the same mutations one at a time (`appstate.go`, `store/sqlstore/store.go`).

On a full sync `collectEventsToDispatch` takes the contacts out of the mutations (`filterContacts`), stores them all at once
and dispatches the rest. Otherwise every mutation goes through `dispatchAppState`. The two differ: `filterContacts` does not
look at the operation of a mutation, and the mass insert keeps the first entry of a contact where single calls leave the last.

Model: the device records the calls of the store; `performed` runs those of the contact store. No call fails, and the store
has usernames, as the SQL store does. A mutation that makes the dispatch panic ends it (`reached`).

Results:
- `contactOps_dispatchMutations`, `contactOps_collect`: the calls of the two ways.
-/
import Hypermeow.Client.AppStateDispatch
import Hypermeow.Store.ContactNames

namespace Hypermeow.Client.ContactSync

open Lib Types Client.AppStateDispatch Go List
open AppState (Mutation)
open Store (ContactOp ContactSession ContactTable Deduplication DistinctTexts NoNullNames SameNames entryOps
  storedNames)

/-! ## Calls of the contact store -/

/-- the entry that the store gets -/
def storeContact (entry : AppStateDispatch.ContactEntry) : Store.ContactEntry :=
  ⟨entry.jid, entry.firstName, entry.fullName, entry.username, entry.usernameSet⟩

def contactOp : StoreCall → Option ContactOp
  | .putContactName jid firstName fullName => some (.putContactName jid firstName fullName)
  | .putContactUsername jid username => some (.putContactUsername jid username)
  | .putAllContactNames contacts => some (.putAllContactNames (contacts.map storeContact))
  | _ => none

def contactOps (d : Device) : List ContactOp := d.calls.filterMap contactOp

/-- the contact store after the calls that a device has made -/
def performed (D : Deduplication) (d : Device) (s : ContactSession) : ContactSession :=
  run (ContactSession.step D) s (contactOps d)

/-! ## Contacts in mutations -/

section

variable (cfg : Config)

/-- is it the index of a contact, with a JID? -/
def isContactIndex : List String → Bool
  | first :: _ :: _ => first = Index.contact.text || first = Index.lidContact.text
  | _ => false

/-- every contact index has a JID, and it can be parsed -/
def Parseable (mutations : List Mutation) : Prop :=
  ∀ m ∈ mutations, ∀ first rest, m.index = first :: rest →
    first = Index.contact.text ∨ first = Index.lidContact.text →
      ∃ second rest', rest = second :: rest' ∧ (parseJID second.toUTF8.data.toList).2 = none

/-- the contacts of a list of mutations, whatever the operations -/
def contacts (mutations : List Mutation) : List Store.ContactEntry :=
  (mutations.filterMap (contactEntry cfg)).map storeContact

/-- the contact that a mutation sets -/
def setEntry (m : Mutation) : Option AppStateDispatch.ContactEntry :=
  if m.operation = .SET then contactEntry cfg m else none

/-- the mutations before the first one that panics -/
def reached (mutations : List Mutation) : List Mutation := mutations.takeWhile fun m => decide (Dispatchable m)

/-- the contacts that are set one at a time -/
def sets (mutations : List Mutation) : List Store.ContactEntry :=
  ((reached mutations).filterMap (setEntry cfg)).map storeContact

end

/-! ## What a dispatch adds -/

/-- usernames are stored and no store call fails -/
structure StoresAll (cfg : Config) : Prop where
  usernames : cfg.hasUsernames = true
  succeeds : ∀ calls c, cfg.fails calls c = false

variable {cfg : Config} {ε α : Type}

/-- the calls of the contact store that a method makes -/
def Adds (x : Go Device ε α) (ops : List ContactOp) : Prop := ∀ d, contactOps (x d).2 = contactOps d ++ ops

theorem adds_pure (a : α) : Adds (pure a : Go Device ε α) [] := fun d => (append_nil (contactOps d)).symm

theorem adds_call (c : StoreCall) : Adds (call cfg c) (contactOp c).toList := by
  intro d
  show (d.calls ++ [c]).filterMap contactOp = d.calls.filterMap contactOp ++ (contactOp c).toList
  rw [filterMap_append]
  cases h : contactOp c <;> simp [h]

theorem Adds.nil_bind {β : Type} {x : Go Device ε α} {k : α → Go Device ε β} (hx : Adds x []) (hk : ∀ a, Adds (k a) []) :
    Adds (x >>= k) [] := by
  intro d
  have h := hx d
  rw [bind_run]
  rcases hr : x d with ⟨a | e | _, t⟩ <;> rw [hr] at h
  · exact (hk a t).trans (by rw [append_nil, h])
  · exact h
  · exact h

theorem Adds.nil_ite {c : Prop} [Decidable c] {x y : Go Device ε α} (hx : Adds x []) (hy : Adds y []) :
    Adds (if c then x else y) [] := by
  split_ifs
  · exact hx
  · exact hy

/-- an error is logged, and the calls were made -/
theorem Adds.logged {update : Update Unit} {ops : List ContactOp} (h : Adds update ops) : Adds (logged update) ops := by
  intro d
  have hd := h d
  unfold AppStateDispatch.logged
  rw [bind_run, Go.attempt]
  rcases hr : update d with ⟨a | e | _, t⟩ <;> rw [hr] at hd <;> exact hd

/-- an update, and then an event -/
theorem Adds.logged_then {update : Update Unit} {ops : List ContactOp} (h : Adds update ops) (r : Option Event) :
    Adds (AppStateDispatch.logged update >>= fun _ => pure r) ops := by
  intro d
  have hd := h.logged d
  rw [bind_run]
  rcases hr : AppStateDispatch.logged update d with ⟨a | e | _, t⟩ <;> rw [hr] at hd <;> exact hd

theorem adds_indexAt (index : List String) (i : ℕ) : Adds (indexAt index i) [] := by
  intro d
  unfold indexAt
  cases index[i]? <;> exact (append_nil _).symm

theorem adds_messageAt (index : List String) (chatJID : JID) : Adds (messageAt index chatJID) [] :=
  (adds_indexAt index 2).nil_bind fun _ => (adds_indexAt index 3).nil_bind fun _ => (adds_indexAt index 4).nil_bind fun _ =>
    adds_pure _

theorem adds_flagAt (index : List String) (i : ℕ) : Adds (flagAt index i) [] :=
  .nil_ite ((adds_indexAt index i).nil_bind fun _ => adds_pure _) (adds_pure _)

/-- a call that is none of the contact store -/
theorem adds_other {c : StoreCall} (h : contactOp c = none) : Adds (call cfg c) [] := by
  have hadds : Adds (call cfg c) (contactOp c).toList := adds_call c
  rwa [h] at hadds

theorem adds_chatSettings {c : StoreCall} (h : contactOp c = none) : Adds (chatSettings cfg c) [] :=
  .nil_ite (adds_other h) (adds_pure _)

theorem adds_putRootSecrets (botJID : JID) (secrets : List RootSecretEntry) : Adds (putRootSecrets cfg botJID secrets) [] :=
  (adds_other rfl).nil_bind fun _ => adds_chatSettings rfl

/-- a contact action makes the two calls for its contact -/
theorem adds_putContact (hcfg : StoresAll cfg) (jid : JID) (act : ContactAction) : Adds (putContact cfg jid act)
      (entryOps (storeContact ⟨jid, act.firstName, act.fullName, act.username, true⟩)) := by
  intro d
  have hname : call cfg (.putContactName jid act.firstName act.fullName) d =
      (.ok (), { d with calls := d.calls ++ [.putContactName jid act.firstName act.fullName] }) := by
    rw [call, hcfg.succeeds]
    rfl
  unfold AppStateDispatch.putContact
  rw [bind_ok hname, hcfg.usernames, if_pos rfl, adds_call]
  simp [contactOps, contactOp, entryOps, storeContact]

/-- the cases of the switch that have nothing to do with contacts -/
theorem adds_dispatchIndex_of_ne {index : List String} {jid : JID} {info : EventInfo} {i : Index} (hcontact : i ≠ .contact)
    (hlid : i ≠ .lidContact) : Adds (dispatchIndex cfg index jid info i) [] := by
  cases i with
  | contact => exact absurd rfl hcontact
  | lidContact => exact absurd rfl hlid
  | mute | pin | archive => exact (adds_chatSettings rfl).logged_then _
  | clearChat | deleteChat => exact (adds_flagAt _ _).nil_bind fun _ => adds_pure _
  | markChatAsRead | settingUnarchiveChats | userStatusMute => exact adds_pure _
  | settingPushName =>
    refine Adds.nil_bind (fun d => (append_nil _).symm) fun _ => (adds_other rfl).logged_then _
  | star | deleteMessageForMe => exact .nil_ite (adds_pure _) ((adds_messageAt _ _).nil_bind fun _ => adds_pure _)
  | labelEdit => exact (adds_indexAt _ _).nil_bind fun _ => adds_pure _
  | labelAssociationChat =>
    exact .nil_ite (adds_pure _) ((adds_indexAt _ _).nil_bind fun _ => (adds_indexAt _ _).nil_bind fun _ => adds_pure _)
  | labelAssociationMessage =>
    exact .nil_ite (adds_pure _) ((adds_indexAt _ _).nil_bind fun _ => (adds_indexAt _ _).nil_bind fun _ =>
      (adds_indexAt _ _).nil_bind fun _ => adds_pure _)
  | quickReply => exact .nil_ite (adds_pure _) ((adds_indexAt _ _).nil_bind fun _ => adds_pure _)
  | wasaRootSecretAction =>
    exact .nil_ite (adds_pure _) ((adds_indexAt _ _).nil_bind fun _ => (adds_putRootSecrets _ _).logged_then _)

/-- a contact that a mutation sets is stored under the JID of its index -/
theorem adds_dispatchIndex_contact (hcfg : StoresAll cfg) {index : List String} {jid : JID} {info : EventInfo} :
    Adds (dispatchIndex cfg index jid info .contact)
      (entryOps (storeContact ⟨jid, (getD cfg.get.contact {} info.action).firstName,
        (getD cfg.get.contact {} info.action).fullName, (getD cfg.get.contact {} info.action).username, true⟩)) ∧
    Adds (dispatchIndex cfg index jid info .lidContact)
      (entryOps (storeContact ⟨jid, (getD cfg.get.lidContact {} info.action).firstName,
        (getD cfg.get.lidContact {} info.action).fullName, (getD cfg.get.lidContact {} info.action).username, true⟩)) :=
  ⟨(adds_putContact hcfg _ _).logged_then _, (adds_putContact hcfg _ _).logged_then _⟩

theorem adds_dispatchNCTSalt (m : Mutation) : Adds (dispatchNCTSalt cfg m) [] := by
  unfold dispatchNCTSalt
  cases m.operation with
  | SET => exact Adds.logged_then (.nil_ite (adds_pure _) (adds_other rfl)) none
  | REMOVE => exact Adds.logged_then (adds_other rfl) none

/-! ## What a list of mutations adds -/

theorem contactEntry_contact {m : Mutation} {second : String} {rest : List String}
    (h : m.index = Index.contact.text :: second :: rest) :
    contactEntry cfg m = some ⟨jidOf second, (getD cfg.get.contact {} m.action).firstName,
      (getD cfg.get.contact {} m.action).fullName, (getD cfg.get.contact {} m.action).username, true⟩ := by
  unfold contactEntry
  rw [h]
  exact if_pos rfl

theorem contactEntry_lidContact {m : Mutation} {second : String} {rest : List String}
    (h : m.index = Index.lidContact.text :: second :: rest) :
    contactEntry cfg m = some ⟨jidOf second, (getD cfg.get.lidContact {} m.action).firstName,
      (getD cfg.get.lidContact {} m.action).fullName, (getD cfg.get.lidContact {} m.action).username, true⟩ := by
  unfold contactEntry
  rw [h]
  exact (if_neg (by decide)).trans (if_pos rfl)

theorem contactEntry_eq_none {m : Mutation} {first : String} {rest : List String} (h : m.index = first :: rest)
    (hcontact : first ≠ Index.contact.text) (hlid : first ≠ Index.lidContact.text) : contactEntry cfg m = none := by
  unfold contactEntry
  rw [h]
  cases rest with
  | nil => rfl
  | cons second rest => exact (if_neg hcontact).trans (if_neg hlid)

theorem contactEntry_eq_none_of_ofText {m : Mutation} {first : String} {rest : List String} (h : m.index = first :: rest)
    (hcontact : Index.ofText first ≠ some .contact) (hlid : Index.ofText first ≠ some .lidContact) :
    contactEntry cfg m = none := by
  refine contactEntry_eq_none h ?_ ?_
  · rintro rfl
    exact hcontact (ofText_text .contact)
  · rintro rfl
    exact hlid (ofText_text .lidContact)

/-- the case of the switch that the index selects -/
theorem adds_dispatchIndex (hcfg : StoresAll cfg)
    {m : Mutation} (hparse : Parseable [m]) {first : String} {rest : List String} (hindex : m.index = first :: rest)
    {i : Index} (hi : Index.ofText first = some i) {info : EventInfo} (hinfo : info.action = m.action) :
    Adds (dispatchIndex cfg (first :: rest) (((first :: rest)[1]?.map jidOf).getD emptyJID) info i)
      ((contactEntry cfg m).toList.flatMap fun entry => entryOps (storeContact entry)) := by
  have hfirst := ofText_eq_some hi
  by_cases hcontact : i = .contact
  · subst hcontact
    obtain ⟨second, rest', rfl, -⟩ := hparse m (mem_singleton_self m) first rest hindex (.inl hfirst)
    rw [hfirst] at hindex
    rw [contactEntry_contact hindex, ← hinfo]
    exact (adds_dispatchIndex_contact hcfg).1
  by_cases hlid : i = .lidContact
  · subst hlid
    obtain ⟨second, rest', rfl, -⟩ := hparse m (mem_singleton_self m) first rest hindex (.inr hfirst)
    rw [hfirst] at hindex
    rw [contactEntry_lidContact hindex, ← hinfo]
    exact (adds_dispatchIndex_contact hcfg).2
  rw [contactEntry_eq_none_of_ofText hindex]
  · exact adds_dispatchIndex_of_ne hcontact hlid
  · rw [hi]
    exact fun heq => hcontact (Option.some.inj heq)
  · rw [hi]
    exact fun heq => hlid (Option.some.inj heq)

/-- **What one mutation adds.** The calls of its contact, if it sets one. -/
theorem adds_dispatchAppState (hcfg : StoresAll cfg) {m : Mutation} (hparse : Parseable [m]) (fullSync : Bool) :
    Adds (dispatchAppState cfg m fullSync) ((setEntry cfg m).toList.flatMap fun entry => entryOps (storeContact entry)) := by
  unfold dispatchAppState setEntry
  by_cases hsalt : m.index = [indexNCTSaltSync]
  · have hentry : contactEntry cfg m = none := by
      unfold contactEntry
      rw [hsalt]
    rw [if_pos hsalt, hentry, ite_self]
    exact adds_dispatchNCTSalt m
  rw [if_neg hsalt]
  by_cases hset : m.operation = .SET
  · rw [if_neg (not_not.2 hset), if_pos hset]
    intro d
    rcases hindex : m.index with _ | ⟨first, rest⟩
    · have hentry : contactEntry cfg m = none := by
        unfold contactEntry
        rw [hindex]
      rw [hentry]
      exact (append_nil _).symm
    · have hrun : indexAt (first :: rest) 0 d = (.ok first, d) := rfl
      rw [bind_ok hrun]
      cases hi : Index.ofText first with
      | none =>
        rw [contactEntry_eq_none_of_ofText hindex (by simp [hi]) (by simp [hi])]
        exact adds_pure none d
      | some i => exact adds_dispatchIndex hcfg hparse hindex hi rfl d
  · rw [if_pos hset, if_neg hset]
    exact adds_pure none

theorem Parseable.of_mem {ms : List Mutation} (h : Parseable ms) {m : Mutation} (hm : m ∈ ms) : Parseable [m] := by
  intro m' hm'
  rw [mem_singleton.1 hm']
  exact h m hm

theorem sets_cons_of_dispatchable {m : Mutation} (ms : List Mutation) (h : Dispatchable m) :
    sets cfg (m :: ms) = (setEntry cfg m).toList.map storeContact ++ sets cfg ms := by
  unfold sets reached
  rw [takeWhile_cons, if_pos (decide_eq_true h)]
  cases hset : setEntry cfg m <;> simp [hset]

theorem sets_cons_of_not_dispatchable {m : Mutation} (ms : List Mutation) (h : ¬Dispatchable m) :
    sets cfg (m :: ms) = [] := by
  unfold sets reached
  rw [takeWhile_cons, if_neg (by simpa using h)]
  rfl

theorem setEntry_of_not_dispatchable {m : Mutation} (h : ¬Dispatchable m) : setEntry cfg m = none := by
  have hentry : contactEntry cfg m = none := by
    by_contra hne
    refine h (dispatchable_of_contactEntry (show (contactEntry cfg m).isNone = false from ?_))
    exact Bool.eq_false_iff.2 fun hnone => hne (Option.isNone_iff_eq_none.1 hnone)
  rw [setEntry, hentry, ite_self]

/-- **One at a time.** The calls for the contacts that are set, in order, up to a mutation that panics. -/
theorem contactOps_dispatchMutations (hcfg : StoresAll cfg)
    (fullSync : Bool) {ms : List Mutation} (hparse : Parseable ms) (events : Option (List Event)) (d : Device) :
    contactOps (dispatchMutations cfg fullSync ms events d).2 = contactOps d ++ (sets cfg ms).flatMap entryOps := by
  induction ms generalizing events d with
  | nil => exact (append_nil _).symm
  | cons m ms ih =>
    have hadds := adds_dispatchAppState hcfg (hparse.of_mem mem_cons_self) fullSync d
    by_cases hm : Dispatchable m
    · obtain ⟨evt, t, hrun⟩ := returns_of_noPanic (noPanic_dispatchAppState.2 hm)
      obtain ⟨events', hrest⟩ : ∃ events', dispatchMutations cfg fullSync (m :: ms) events d =
          dispatchMutations cfg fullSync ms events' t := ⟨_, bind_ok hrun⟩
      rw [hrun] at hadds
      rw [hrest, ih (fun m' hm' => hparse m' (mem_cons_of_mem m hm')), hadds, sets_cons_of_dispatchable ms hm,
        flatMap_append, flatMap_map, append_assoc]
    · have hpanics : (dispatchAppState cfg m fullSync d).1 = .panic :=
        not_not.1 fun hno => hm (noPanic_dispatchAppState.1 hno)
      have hstop : (dispatchMutations cfg fullSync (m :: ms) events d).2 = (dispatchAppState cfg m fullSync d).2 := by
        unfold dispatchMutations
        rw [bind_run]
        rcases hr : dispatchAppState cfg m fullSync d with ⟨a | e | _, t⟩
        · rw [hr] at hpanics
          cases hpanics
        · exact e.elim
        · rfl
      rw [hstop, hadds, setEntry_of_not_dispatchable hm, sets_cons_of_not_dispatchable ms hm]
      rfl

/-- what is passed on has no contacts -/
theorem sets_filterContacts (ms : List Mutation) : sets cfg (filterContacts cfg ms).1 = [] := by
  unfold sets
  rw [filterMap_eq_nil_iff.2]
  · rfl
  · intro m hm
    have hmem : m ∈ (filterContacts cfg ms).1 := (takeWhile_sublist _).subset hm
    have hnone : contactEntry cfg m = none := Option.isNone_iff_eq_none.1 (mem_filter.1 hmem).2
    rw [setEntry, hnone, ite_self]

theorem mapErr_state {σ ε' : Type} (f : ε → ε') (x : Go σ ε α) (d : σ) : (Go.mapErr f x d).2 = (x d).2 := by
  rw [Go.mapErr]
  rcases x d with ⟨_ | _ | _, t⟩ <;> rfl

/-- **All at once.** One call for all contacts. -/
theorem contactOps_collect (hcfg : StoresAll cfg)
    (hquiet : cfg.emitAppStateEventsOnFullSync = false) {ms : List Mutation} (hparse : Parseable ms)
    (events : Option (List Event)) (d : Device) :
    contactOps (collectEventsToDispatch cfg waPatchCriticalUnblockLow ms true events d).2 =
      contactOps d ++ [.putAllContactNames (contacts cfg ms)] := by
  have hmass : massInserts cfg waPatchCriticalUnblockLow true = true := by
    rw [massInserts, hquiet, beq_self_eq_true]
    rfl
  have hcall : call cfg (.putAllContactNames (filterContacts cfg ms).2) d =
      (.ok (), { d with calls := d.calls ++ [.putAllContactNames (filterContacts cfg ms).2] }) := by
    rw [call, hcfg.succeeds]
    rfl
  have hrest : Parseable (filterContacts cfg ms).1 := fun m hm => hparse m (mem_filter.1 hm).1
  unfold collectEventsToDispatch
  rw [if_pos hmass, bind_ok hcall, mapErr_state, contactOps_dispatchMutations hcfg true hrest,
    sets_filterContacts]
  simp [contactOps, contactOp, contacts, filterContacts]

/-! ## The two ways compared -/

theorem sets_subset (ms : List Mutation) : sets cfg ms ⊆ contacts cfg ms := by
  intro entry hmem
  obtain ⟨e, he, rfl⟩ := mem_map.1 hmem
  obtain ⟨m, hm, hset⟩ := mem_filterMap.1 he
  refine mem_map.2 ⟨e, mem_filterMap.2 ⟨m, (takeWhile_sublist _).subset hm, ?_⟩, rfl⟩
  unfold setEntry at hset
  split_ifs at hset
  exact hset

theorem usernameSet_contacts {ms : List Mutation} {entry : Store.ContactEntry} (h : entry ∈ contacts cfg ms) :
    entry.usernameSet = true := by
  obtain ⟨e, he, rfl⟩ := mem_map.1 h
  obtain ⟨m, -, hentry⟩ := mem_filterMap.1 he
  unfold contactEntry at hentry
  split at hentry
  · dsimp only at hentry
    split_ifs at hentry <;> cases hentry <;> rfl
  · cases hentry

theorem filterContacts_fst (cfg : Config) (ms : List Mutation) :
    (filterContacts cfg ms).1 = ms.filter fun m => !isContactIndex m.index := by
  refine filter_congr fun m _ => ?_
  rcases hindex : m.index with _ | ⟨first, _ | ⟨second, rest⟩⟩
  · rw [contactEntry, hindex]
    rfl
  · rw [contactEntry, hindex]
    rfl
  · by_cases hcontact : first = Index.contact.text
    · rw [hcontact] at hindex
      rw [contactEntry_contact hindex, hcontact]
      rfl
    by_cases hlid : first = Index.lidContact.text
    · rw [hlid] at hindex
      rw [contactEntry_lidContact hindex, hlid]
      rfl
    · rw [contactEntry_eq_none hindex hcontact hlid, isContactIndex, decide_eq_false hcontact, decide_eq_false hlid]
      rfl

section Compared

variable {D : Deduplication} {s : ContactSession} {ms : List Mutation}

theorem performed_bulk (hcfg : StoresAll cfg)
    (hquiet : cfg.emitAppStateEventsOnFullSync = false) (hparse : Parseable ms) (pushName : Bytes)
    (events : Option (List Event)) :
    performed D (collectEventsToDispatch cfg waPatchCriticalUnblockLow ms true events ⟨pushName, []⟩).2 s =
      (Store.putAllContactNames D (contacts cfg ms) s).2 := by
  unfold performed
  rw [contactOps_collect hcfg hquiet hparse]
  rfl

theorem performed_single (hcfg : StoresAll cfg)
    (hparse : Parseable ms) (pushName : Bytes) (events : Option (List Event)) :
    performed D (dispatchMutations cfg true ms events ⟨pushName, []⟩).2 s =
      run (Store.storeEntry D) s (sets cfg ms) := by
  unfold performed
  rw [contactOps_dispatchMutations hcfg true hparse]
  exact run_flatMap entryOps s (sets cfg ms)

/-- the names that single calls leave for a contact: those of its last set, or those that were stored. A contact without a
server is stored elsewhere. -/
def namesOneByOne (t : ContactTable) (sets : List Store.ContactEntry) (jid : JID) : Store.Names :=
  (if jid.server = [] then none else lastWrite (fun entry => some entry.jid) Store.ContactEntry.names sets jid).getD
    (storedNames t jid.string)

/-- the first mutation of each contact has the names that single calls leave, and no contact without a server has names -/
structure Consistent (t : ContactTable) (contacts sets : List Store.ContactEntry) : Prop where
  first : ∀ entry, contacts.find? (fun e => e.jid = entry.jid) = some entry →
    entry.names = namesOneByOne t sets entry.jid
  noServer : NoNullNames sets

/-- where texts are different, the last entry with a text is the last one with a JID -/
theorem lastWrite_text {contacts sets : List Store.ContactEntry}
    (hdistinct : DistinctTexts fun jid => ∃ e ∈ contacts, e.jid = jid) (hsets : sets ⊆ contacts)
    {entry : Store.ContactEntry} (hmem : entry ∈ contacts) :
    lastWrite (fun e : Store.ContactEntry => e.jid.value) Store.ContactEntry.names sets entry.jid.string =
      if entry.jid.server = [] then none
      else lastWrite (fun e : Store.ContactEntry => some e.jid) Store.ContactEntry.names sets entry.jid := by
  have hsame : ∀ e ∈ sets.reverse, e.jid.string = entry.jid.string ↔ e.jid = entry.jid := by
    intro e he
    refine ⟨fun hstring => ?_, fun hjid => by rw [hjid]⟩
    exact hdistinct _ _ ⟨e, hsets (mem_reverse.1 he), rfl⟩ ⟨entry, hmem, rfl⟩ hstring
  unfold lastWrite
  split_ifs with hserver
  · rw [Option.map_eq_none_iff, find?_eq_none]
    intro e he hvalue
    obtain ⟨hserver', hstring⟩ := Store.value_eq_some.1 (of_decide_eq_true hvalue)
    exact hserver' (by rw [(hsame e he).1 hstring, hserver])
  · congr 1
    refine find?_congr fun e he => ?_
    rw [decide_eq_decide]
    constructor
    · intro hvalue
      exact congrArg some ((hsame e he).1 (Store.value_eq_some.1 hvalue).2)
    · intro hjid
      have hjid : e.jid = entry.jid := Option.some.inj hjid
      exact Store.value_eq_some.2 ⟨by rwa [hjid], by rw [hjid]⟩

theorem find?_text {contacts : List Store.ContactEntry}
    (hdistinct : DistinctTexts fun jid => ∃ e ∈ contacts, e.jid = jid) {entry : Store.ContactEntry}
    (hmem : entry ∈ contacts) : (contacts.find? fun e => e.jid.string = entry.jid.string) =
      contacts.find? fun e => e.jid = entry.jid := by
  refine find?_congr fun e he => ?_
  rw [decide_eq_decide]
  exact ⟨hdistinct _ _ ⟨e, he, rfl⟩ ⟨entry, hmem, rfl⟩, fun heq => by rw [heq]⟩

/-- the names that the two ways leave are the same iff the mutations are consistent -/
theorem sameNames_iff {contacts sets : List Store.ContactEntry} (hD : D.KeepsFirst) (hs : s.Agrees)
    (hdistinct : DistinctTexts fun jid => ∃ e ∈ contacts, e.jid = jid) (hsets : sets ⊆ contacts)
    (husername : ∀ entry ∈ contacts, entry.usernameSet = true) :
    SameNames (Store.putAllContactNames D contacts s).2.tables (run (Store.storeEntry D) s sets).tables ↔
      Consistent s.tables contacts sets := by
  have hagrees : Store.ContactsAgreeOn (fun jid => ∃ e ∈ contacts, e.jid = jid) s :=
    ⟨hs.1, fun user info _ hl => hs.2 user info hl⟩
  have hjids : ∀ entry ∈ sets, ∃ e ∈ contacts, e.jid = entry.jid := fun entry hmem => ⟨entry, hsets hmem, rfl⟩
  obtain ⟨hbulkNull, hbulk⟩ := Store.putAllContactNames_names hD hs.1 husername hdistinct
  constructor
  · rintro ⟨hnames, hnull⟩
    have hblank : NoNullNames sets := by
      by_contra hnot
      have hlt := Store.storeEntries_null (D := D) hdistinct hagrees hjids hnot
      have hlength := congrArg List.length hnull
      rw [length_map, length_map, hbulkNull] at hlength
      omega
    obtain ⟨-, hsingle⟩ := Store.storeEntries_names (D := D) hdistinct hagrees hjids hblank
    refine ⟨fun entry hfirst => ?_, hblank⟩
    have hmem := mem_of_find?_eq_some hfirst
    have htext := hnames entry.jid.string
    rw [hbulk, hsingle, find?_text hdistinct hmem, hfirst, lastWrite_text hdistinct hsets hmem] at htext
    exact htext
  · rintro ⟨hfirst, hblank⟩
    obtain ⟨hsingleNull, hsingle⟩ := Store.storeEntries_names (D := D) hdistinct hagrees hjids hblank
    refine ⟨fun text => ?_, by rw [hbulkNull, hsingleNull]⟩
    rw [hbulk, hsingle]
    cases hfind : contacts.find? fun e => decide (e.jid.string = text) with
    | some entry =>
      have hmem := mem_of_find?_eq_some hfind
      have htext : entry.jid.string = text := by simpa using find?_some hfind
      subst htext
      rw [find?_text hdistinct hmem] at hfind
      rw [lastWrite_text hdistinct hsets hmem]
      exact hfirst entry hfind
    | none =>
      have hnone : lastWrite (fun e : Store.ContactEntry => e.jid.value) Store.ContactEntry.names sets text = none := by
        unfold lastWrite
        rw [Option.map_eq_none_iff, find?_eq_none]
        intro e he hvalue
        refine find?_eq_none.1 hfind e (hsets (mem_reverse.1 he)) (decide_eq_true ?_)
        exact (Store.value_eq_some.1 (of_decide_eq_true hvalue)).2
      rw [hnone]
      rfl

/-- **A full sync and single dispatches.** The contacts of the mutations have parseable JIDs with different texts, no call
fails, and the cache of the contact store is right. Then the full sync stores the names and usernames that the same mutations
store one at a time, and passes the other mutations on in order, iff the first mutation of each contact, set or removed, has
the names of the last one that sets it before a mutation panics, or those that were stored if none does; and if no mutation
sets a name for a JID without a server. -/
theorem bulk_contacts_iff (D : Deduplication) (hD : D.KeepsFirst) (cfg : Config) (husernames : cfg.hasUsernames = true)
    (hfails : ∀ calls c, cfg.fails calls c = false) (hquiet : cfg.emitAppStateEventsOnFullSync = false)
    (ms : List Mutation) (hparse : Parseable ms)
    (hdistinct : DistinctTexts fun jid => ∃ e ∈ contacts cfg ms, e.jid = jid) (s : ContactSession) (hs : s.Agrees)
    (pushName : Bytes) (events : Option (List Event)) :
    (SameNames
        (performed D (collectEventsToDispatch cfg waPatchCriticalUnblockLow ms true events ⟨pushName, []⟩).2 s).tables
        (performed D (dispatchMutations cfg true ms events ⟨pushName, []⟩).2 s).tables ∧
      (filterContacts cfg ms).1 = ms.filter fun m => !isContactIndex m.index) ↔
    Consistent s.tables (contacts cfg ms) (sets cfg ms) := by
  rw [performed_bulk ⟨husernames, hfails⟩ hquiet hparse, performed_single ⟨husernames, hfails⟩ hparse,
    sameNames_iff hD hs hdistinct (sets_subset ms) fun entry hmem => usernameSet_contacts hmem]
  exact and_iff_left (filterContacts_fst cfg ms)

end Compared

/-! ## Examples -/

/-- the full name of a contact is all that its action has -/
def contactConfig : Config :=
  { quietConfig with get := { quietConfig.get with contact := fun action => { fullName := action.fields } } }

def contactMutation (operation : AppState.Operation) (jid name : String) : Mutation :=
  { setOf [Index.contact.text, jid] with operation, action := some ⟨none, ascii name⟩ }

/-- the names of a contact after a full sync, and after single dispatches, into an empty table -/
def fullSyncNames (ms : List Mutation) (text : String) : Store.Names × Store.Names :=
  (storedNames (performed Store.keepFirst
      (collectEventsToDispatch contactConfig waPatchCriticalUnblockLow ms true none newDevice).2
      Store.newContactStore).tables (ascii text),
    storedNames (performed Store.keepFirst (dispatchMutations contactConfig true ms none newDevice).2
      Store.newContactStore).tables (ascii text))

/-- a contact that is set to the same name twice -/
def twice : List Mutation :=
  [contactMutation .SET "1@s.whatsapp.net" "A", contactMutation .SET "1@s.whatsapp.net" "A"]

def one : Store.ContactEntry := ⟨newJID (ascii "1") defaultUserServer, [], ascii "A", [], true⟩

theorem contacts_twice : contacts contactConfig twice = [one, one] ∧ sets contactConfig twice = [one, one] := by
  decide +kernel

theorem parseable_twice : Parseable twice := by
  intro m hm first rest hindex _
  have hindex' : m.index = [Index.contact.text, "1@s.whatsapp.net"] := by
    simp only [twice, mem_cons, not_mem_nil, or_false, or_self] at hm
    rw [hm]
    rfl
  rw [hindex'] at hindex
  cases hindex
  exact ⟨_, [], rfl, by decide +kernel⟩

theorem bulk_contacts_iff_twice :
    SameNames
      (performed Store.keepFirst
        (collectEventsToDispatch contactConfig waPatchCriticalUnblockLow twice true none ⟨[], []⟩).2
        Store.newContactStore).tables
      (performed Store.keepFirst (dispatchMutations contactConfig true twice none ⟨[], []⟩).2 Store.newContactStore).tables := by
  have hone : ∀ entry ∈ contacts contactConfig twice, entry = one := by
    rw [contacts_twice.1]
    intro entry hmem
    simpa using hmem
  have hdistinct : DistinctTexts fun jid => ∃ e ∈ contacts contactConfig twice, e.jid = jid := by
    rintro a b ⟨e, he, rfl⟩ ⟨e', he', rfl⟩ -
    rw [hone e he, hone e' he']
  have hconsistent : Consistent Store.newContactStore.tables (contacts contactConfig twice) (sets contactConfig twice) := by
    refine ⟨fun entry hfirst => ?_, fun entry hmem hserver => ?_⟩
    · rw [hone entry (mem_of_find?_eq_some hfirst), contacts_twice.2]
      decide +kernel
    · rw [hone entry (sets_subset twice hmem)] at hserver
      cases hserver
  exact ((bulk_contacts_iff Store.keepFirst Store.keepFirst_keepsFirst contactConfig rfl (fun _ _ => rfl) rfl twice
    parseable_twice hdistinct Store.newContactStore ⟨rfl, fun _ _ hl => by cases hl⟩ [] none).2 hconsistent).1

/-- **A contact that is removed is stored.** A full sync stores the name of a contact whose only mutation removes it, which
a single dispatch does not; and of two names of a contact it stores the first, where single dispatches leave the second. -/
theorem removed_contact_stored :
    fullSyncNames [contactMutation .REMOVE "1@s.whatsapp.net" "A"] "1@s.whatsapp.net" =
      (([], ascii "A", []), ([], [], [])) ∧
    fullSyncNames [contactMutation .SET "1@s.whatsapp.net" "A", contactMutation .SET "1@s.whatsapp.net" "B"]
      "1@s.whatsapp.net" = (([], ascii "A", []), ([], ascii "B", [])) := by
  decide +kernel

end Hypermeow.Client.ContactSync
