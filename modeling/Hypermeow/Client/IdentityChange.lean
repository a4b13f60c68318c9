/-
What an identity change deletes (`deleteIdentityChangeState` in `notification.go`).

When a user gets a new identity key, the sessions and identities of all of its devices are deleted. In the tables a device
is an address: the user's number, an underscore and the domain of its server unless that is 0, a colon, the device number.
A user has two servers, the plain one and the hosted one, and is known as a phone number (PN) and as a LID, so there are
four families of addresses. The other number is looked up in the LID map.

Three tests decide what is deleted: which names are made of the number and the domains, which rows are in the range from
`name:` to `name;`, and which cached addresses start with `name:`.

Model: a client with a Signal store of its own; the LID map may be missing. Deletions that fail are logged.

Results:
- `mem_identityChangeSignalUsers`: the names made of a user are those of its JIDs, and no other user has them.
- `stateAt_deleteSignalUsers`: rows and cache entry of an address after the deletions.
-/
import Hypermeow.Store.IdentityAgreement
import Hypermeow.Store.LIDCalls

namespace Hypermeow.Client.IdentityChange

open Lib Types Store Session Go List GoMap

/-! ## Model -/

/-- the phone numbers' servers -/
def isPNServer (server : Bytes) : Bool := server = defaultUserServer ∨ server = hostedServer

def isLIDServer (server : Bytes) : Bool := server = hiddenUserServer ∨ server = hostedLIDServer

def identityChangeSignalUsers (jid : JID) : List Bytes :=
  if isPNServer jid.server then [jid.user, jid.user ++ ascii "_128"]
  else if isLIDServer jid.server then [jid.user ++ ascii "_1", jid.user ++ ascii "_129"]
  else [jid.signalAddressUser]

/-- the JID under which the LID map knows the sender; the empty JID if there is none -/
def alternateOf (sender : JID) : Go LIDStore LIDError JID :=
  if isPNServer sender.server then LIDStore.getLIDForPN (newJID sender.user defaultUserServer)
  else if isLIDServer sender.server then LIDStore.getPNForLID (newJID sender.user hiddenUserServer)
  else pure emptyJID

/-- `slices.Compact`: of equal neighbours only one stays -/
def compact : List Bytes → List Bytes
  | [] => []
  | [user] => [user]
  | user :: next :: users => if user = next then compact (next :: users) else user :: compact (next :: users)

/-- errors are logged -/
def deleteSignalUsers : List Bytes → Go SignalSession Empty Unit
  | [] => pure ()
  | user :: users => do
    let _ ← (deleteAllIdentities user).attempt
    let _ ← (deleteAllSessions user).attempt
    deleteSignalUsers users

structure Stores where
  /-- `cli.Store.LIDs`, if it is not nil -/
  lids : Option LIDStore
  signal : SignalSession

/-- the names of the sender, and those of its alternate if the lookup finds one -/
def signalUsers (sender : JID) : Outcome LIDError JID → List Bytes
  | .ok alternate =>
    if alternate.isEmpty then identityChangeSignalUsers sender
    else identityChangeSignalUsers sender ++ identityChangeSignalUsers alternate
  | _ => identityChangeSignalUsers sender

def deleteIdentityChangeState (sender : JID) (s : Stores) : Stores :=
  match s.lids with
  | none => { s with signal := (deleteSignalUsers (compact (identityChangeSignalUsers sender)) s.signal).2 }
  | some lids =>
    { lids := some (alternateOf sender lids).2
      signal := (deleteSignalUsers (compact (signalUsers sender (alternateOf sender lids).1)) s.signal).2 }

/-! ## Names -/

/-- a user is a decimal number -/
def Decimal (user : Bytes) : Prop := user.all isDigit = true

/-- the domains under which a PN is addressed -/
def IsPNDomain (agent : UInt8) : Prop := agent = whatsAppDomain ∨ agent = hostedDomain

def IsLIDDomain (agent : UInt8) : Prop := agent = lidDomain ∨ agent = hostedLIDDomain

/-- the same number, for both a PN or for both a LID, on the plain or the hosted server -/
def SameUser (a b : JID) : Prop :=
  a.user = b.user ∧
    (IsPNDomain a.actualAgent ∧ IsPNDomain b.actualAgent ∨ IsLIDDomain a.actualAgent ∧ IsLIDDomain b.actualAgent)

variable {jid other sender : JID} {user user' : Bytes} {address : Bytes}

theorem mem_compact (users : List Bytes) : user ∈ compact users ↔ user ∈ users := by
  induction users using compact.induct with
  | case1 => rfl
  | case2 => rfl
  | case3 next users ih =>
    rw [compact, if_pos rfl, ih]
    simp
  | case4 first next users hne ih =>
    rw [compact, if_neg hne, mem_cons, mem_cons (a := user) (b := first), ih]

/-- what follows the number in the name of an address -/
def domainSuffix (agent : UInt8) : Bytes := if agent ≠ 0 then ascii "_" ++ formatUint agent.toNat else []

theorem signalAddressUser_eq (jid : JID) : jid.signalAddressUser = jid.user ++ domainSuffix jid.actualAgent := by
  unfold JID.signalAddressUser domainSuffix
  split_ifs
  · exact append_assoc ..
  · exact (append_nil _).symm

theorem domainSuffix_injective : Function.Injective domainSuffix := by
  intro a b h
  unfold domainSuffix at h
  split_ifs at h with ha hb hb
  · exact UInt8.toNat_inj.1 (formatUint_injective (append_cancel_left h))
  · exact absurd h (by simp [ascii])
  · exact absurd h.symm (by simp [ascii])
  · rw [not_not.1 ha, not_not.1 hb]

theorem takeWhile_name (hu : Decimal user) (agent : UInt8) :
    (user ++ domainSuffix agent).takeWhile isDigit = user := by
  have hstop : (domainSuffix agent).takeWhile isDigit = [] := by
    unfold domainSuffix
    split_ifs
    · rfl
    · rfl
  rw [takeWhile_append_of_pos fun b hb => all_eq_true.1 hu b hb, hstop, append_nil]

/-- the number ends where the domain begins -/
theorem name_inj (hu : Decimal user) (hu' : Decimal user') {agent agent' : UInt8} :
    user ++ domainSuffix agent = user' ++ domainSuffix agent' ↔ user = user' ∧ agent = agent' := by
  constructor
  · intro h
    have huser : user = user' := by
      rw [← takeWhile_name hu agent, h, takeWhile_name hu' agent']
    subst huser
    exact ⟨rfl, domainSuffix_injective (append_cancel_left h)⟩
  · rintro ⟨rfl, rfl⟩
    rfl

theorem colon_not_mem_name (hu : Decimal user) (agent : UInt8) : colon ∉ user ++ domainSuffix agent := by
  intro h
  rcases mem_append.1 h with h | h
  · exact absurd (all_eq_true.1 hu _ h) (by decide)
  · unfold domainSuffix at h
    split_ifs at h
    · rcases mem_append.1 h with h | h
      · exact absurd h (by decide)
      · exact notMem_formatUint rfl _ h
    · exact not_mem_nil h

/-- the number with the two domains of a PN, or with those of a LID -/
theorem identityChangeSignalUsers_eq (hs : IsADServer jid.server) :
    ∃ a b, identityChangeSignalUsers jid = [jid.user ++ domainSuffix a, jid.user ++ domainSuffix b] ∧
      ∀ agent, agent = a ∨ agent = b ↔
        IsPNDomain agent ∧ IsPNDomain jid.actualAgent ∨ IsLIDDomain agent ∧ IsLIDDomain jid.actualAgent := by
  rcases jid with ⟨user, rawAgent, device, integrator, server⟩
  have hpn : ∀ domain, IsPNDomain domain → ∀ agent, agent = whatsAppDomain ∨ agent = hostedDomain ↔
      IsPNDomain agent ∧ IsPNDomain domain ∨ IsLIDDomain agent ∧ IsLIDDomain domain := by
    rintro _ (rfl | rfl) agent <;> simp [IsPNDomain, IsLIDDomain, whatsAppDomain, lidDomain, hostedDomain, hostedLIDDomain]
  have hlid : ∀ domain, IsLIDDomain domain → ∀ agent, agent = lidDomain ∨ agent = hostedLIDDomain ↔
      IsPNDomain agent ∧ IsPNDomain domain ∨ IsLIDDomain agent ∧ IsLIDDomain domain := by
    rintro _ (rfl | rfl) agent <;> simp [IsPNDomain, IsLIDDomain, whatsAppDomain, lidDomain, hostedDomain, hostedLIDDomain]
  have hplain : user ++ domainSuffix whatsAppDomain = user := append_nil user
  rcases hs with rfl | rfl | rfl | rfl
  · refine ⟨whatsAppDomain, hostedDomain, ?_, hpn _ (.inl rfl)⟩
    rw [hplain]
    rfl
  · exact ⟨lidDomain, hostedLIDDomain, rfl, hlid _ (.inl rfl)⟩
  · refine ⟨whatsAppDomain, hostedDomain, ?_, hpn _ (.inr rfl)⟩
    rw [hplain]
    rfl
  · exact ⟨lidDomain, hostedLIDDomain, rfl, hlid _ (.inr rfl)⟩

theorem mem_identityChangeSignalUsers (hs : IsADServer jid.server) (hu : Decimal jid.user) (hu' : Decimal other.user) :
    other.signalAddressUser ∈ identityChangeSignalUsers jid ↔ SameUser other jid := by
  obtain ⟨a, b, hnames, hagents⟩ := identityChangeSignalUsers_eq hs
  rw [hnames, mem_pair, signalAddressUser_eq, name_inj hu' hu, name_inj hu' hu, ← and_or_left, hagents]
  rfl

theorem colon_not_mem_of_mem (hs : IsADServer jid.server) (hu : Decimal jid.user)
    (h : user ∈ identityChangeSignalUsers jid) : colon ∉ user := by
  obtain ⟨a, b, hnames, -⟩ := identityChangeSignalUsers_eq hs
  rw [hnames, mem_pair] at h
  rcases h with rfl | rfl
  · exact colon_not_mem_name hu a
  · exact colon_not_mem_name hu b

/-! ## One user's rows -/

/-- what the stores have for an address -/
structure AddressState where
  session : Option Bytes
  identity : Option Key
  /-- the cached entry; `some none` says that there is no key -/
  cached : Option (Option Key)

def stateAt (s : SignalSession) (address : Bytes) : AddressState :=
  ⟨s.tables.sessions.lookup address, identityRow s address, s.memory.identityCache.lookup address⟩

namespace AddressState

def withoutSession (a : AddressState) : AddressState := { a with session := none }

def withoutIdentity (a : AddressState) : AddressState := { a with identity := none, cached := a.cached.map fun _ => none }

/-- no rows and no cached key -/
def Cleared (a : AddressState) : Prop := a.session = none ∧ a.identity = none ∧ ∀ key, a.cached ≠ some (some key)

theorem cleared_without (a : AddressState) : a.withoutIdentity.withoutSession.Cleared := by
  refine ⟨rfl, rfl, fun key h => ?_⟩
  obtain ⟨entry, -, hentry⟩ := Option.map_eq_some_iff.1 h
  cases hentry

end AddressState

variable {s s' s'' : SignalSession}

/-- a deletion: addresses of `user` are changed by `f` unless the database fails, other addresses not at all -/
structure Deletes (user : Bytes) (f : AddressState → AddressState) (s s' : SignalSession) : Prop where
  quiet : s.Quiet → s'.Quiet
  own : s.Quiet → ∀ address, user ++ [colon] <+: address → stateAt s' address = f (stateAt s address)
  others : ∀ address, ¬user ++ [colon] <+: address → stateAt s' address = stateAt s address

theorem Deletes.of_fails {f : AddressState → AddressState} (h : s.NextFails) : Deletes user f s s.called where
  quiet hq := absurd h hq.not_fails
  own hq := absurd h hq.not_fails
  others _ _ := rfl

/-- the session after `deleteAllIdentities` -/
def deletedIdentities (user : Bytes) (s : SignalSession) : SignalSession :=
  { s with
    tables := { s.tables with identityKeys := s.tables.identityKeys.deleteWhere (inSignalAddressRange user) }
    memory := { s.memory with
      identityDeleteGen := s.memory.identityDeleteGen + 1
      identityCache := forgetIdentities user s.memory.identityCache } }

theorem attempt_deleteAllIdentities (user : Bytes) (s : SignalSession) :
    ∃ r s', (Go.attempt (deleteAllIdentities user) : Go SignalSession Empty _) s = (.ok r, s') ∧
      Deletes user AddressState.withoutIdentity s s' := by
  by_cases hf : s.NextFails
  · have hrun : deleteAllIdentities user s = (.err .database, s.called) := by
      unfold deleteAllIdentities
      rw [bind_err (exec_of_fails hf)]
    exact ⟨_, s.called, attempt_eq_error.2 hrun, .of_fails hf⟩
  · have hrun : deleteAllIdentities user s = (.ok (), deletedIdentities user s.called) := by
      unfold deleteAllIdentities bumpDeleteGen
      rw [bind_ok (exec_update _ hf), bind_ok (update_run ..), update_run]
      rfl
    refine ⟨_, _, attempt_eq_ok.2 hrun, ?_⟩
    refine ⟨fun hq => ?_, fun _ address h => ?_, fun address h => ?_⟩
    · exact congrArg List.tail hq
    · simp only [stateAt, identityRow, AddressState.withoutIdentity, AddressState.mk.injEq]
      refine ⟨rfl, ?_, ?_⟩
      · exact (lookup_deleteWhere ..).trans (if_pos (inSignalAddressRange_iff.2 h))
      · refine (lookup_forgetIdentities ..).trans ?_
        cases hc : s.memory.identityCache.lookup address with
        | none => exact (if_neg fun hm => (AList.lookup_eq_none.1 hc) hm.1).trans hc
        | some entry => exact if_pos ⟨mem_of_lookup hc, h⟩
    · simp only [stateAt, identityRow, AddressState.mk.injEq]
      refine ⟨rfl, ?_, ?_⟩
      · exact (lookup_deleteWhere ..).trans (if_neg fun hr => h (inSignalAddressRange_iff.1 hr))
      · exact (lookup_forgetIdentities ..).trans (if_neg fun hm => h hm.2)

theorem attempt_deleteAllSessions (user : Bytes) (s : SignalSession) :
    ∃ r s', (Go.attempt (deleteAllSessions user) : Go SignalSession Empty _) s = (.ok r, s') ∧
      Deletes user AddressState.withoutSession s s' := by
  by_cases hf : s.NextFails
  · exact ⟨_, s.called, attempt_eq_error.2 (exec_of_fails hf), .of_fails hf⟩
  · refine ⟨_, _, attempt_eq_ok.2 (exec_update _ hf), ?_⟩
    refine ⟨fun hq => ?_, fun _ address h => ?_, fun address h => ?_⟩
    · exact congrArg List.tail hq
    · simp only [stateAt, identityRow, AddressState.withoutSession, AddressState.mk.injEq]
      exact ⟨(lookup_deleteWhere ..).trans (if_pos (inSignalAddressRange_iff.2 h)), rfl, rfl⟩
    · simp only [stateAt, identityRow, AddressState.mk.injEq]
      exact ⟨(lookup_deleteWhere ..).trans (if_neg fun hr => h (inSignalAddressRange_iff.1 hr)), rfl, rfl⟩

/-! ## All users' rows -/

/-- the address belongs to one of the users -/
def Reaches (users : List Bytes) (address : Bytes) : Prop := ∃ user ∈ users, user ++ [colon] <+: address

/-- the loop over the users: their addresses are cleared unless the database fails, other addresses are untouched -/
theorem deleteSignalUsers_spec (users : List Bytes) (s : SignalSession) :
    ∃ s', deleteSignalUsers users s = (.ok (), s') ∧
      (∀ address, ¬Reaches users address → stateAt s' address = stateAt s address) ∧
      (s.Quiet → ∀ address, Reaches users address ∨ (stateAt s address).Cleared → (stateAt s' address).Cleared) := by
  induction users generalizing s with
  | nil =>
    refine ⟨s, rfl, fun _ _ => rfl, ?_⟩
    rintro - address (⟨user, hmem, -⟩ | h)
    · cases hmem
    · exact h
  | cons user users ih =>
    obtain ⟨r, s₁, hrun₁, hdel₁⟩ := attempt_deleteAllIdentities user s
    obtain ⟨r', s₂, hrun₂, hdel₂⟩ := attempt_deleteAllSessions user s₁
    obtain ⟨s', hrun, hothers, hown⟩ := ih s₂
    refine ⟨s', ?_, fun address h => ?_, fun hq address h => ?_⟩
    · rw [deleteSignalUsers, bind_ok hrun₁, bind_ok hrun₂]
      exact hrun
    · have hnot : ¬user ++ [colon] <+: address := fun hp => h ⟨user, mem_cons_self, hp⟩
      rw [hothers address fun ⟨u, hu, hp⟩ => h ⟨u, mem_cons_of_mem user hu, hp⟩, hdel₂.others address hnot,
        hdel₁.others address hnot]
    · have hq₁ := hdel₁.quiet hq
      refine hown (hdel₂.quiet hq₁) address ?_
      by_cases hp : user ++ [colon] <+: address
      · refine .inr ?_
        rw [hdel₂.own hq₁ address hp, hdel₁.own hq address hp]
        exact AddressState.cleared_without _
      · rcases h with ⟨u, hu, hpu⟩ | hc
        · rcases mem_cons.1 hu with rfl | hu
          · exact absurd hpu hp
          · exact .inl ⟨u, hu, hpu⟩
        · refine .inr ?_
          rw [hdel₂.others address hp, hdel₁.others address hp]
          exact hc

/-! ## The sender and its alternate -/

/-- the user that a lookup found, the empty one standing for nothing -/
def found (target server : Bytes) : Option JID := if target = [] then none else some (newJID target server)

/-- the JID that the LID map has for the number of the sender -/
def mappedAlternate (lids : LIDStore) (sender : JID) : Option JID :=
  if isPNServer sender.server then found (lids.lookedUp .pn sender.user) hiddenUserServer
  else found (lids.lookedUp .lid sender.user) defaultUserServer

/-- the sender, or its alternate in the LID map -/
def Concerned (s : Stores) (sender jid : JID) : Prop :=
  jid = sender ∨ ∃ lids, s.lids = some lids ∧ mappedAlternate lids sender = some jid

/-- the LID map answers with decimal numbers, and its database does not fail -/
def Answers (s : Stores) (sender : JID) : Prop :=
  ∀ lids, s.lids = some lids → lids.Quiet ∧ ∀ alternate, mappedAlternate lids sender = some alternate → Decimal alternate.user

theorem server_cases {server : Bytes} (hs : IsADServer server) :
    isPNServer server = true ∨ isPNServer server = false ∧ isLIDServer server = true := by
  rcases hs with rfl | rfl | rfl | rfl <;> decide

theorem targetJID_eq (user server target targetServer : Bytes) :
    LIDStore.targetJID (newJID user server) targetServer target = (found target targetServer).getD emptyJID := by
  unfold LIDStore.targetJID found
  split_ifs
  · rfl
  · rfl

theorem alternateOf_answer {lids : LIDStore} (hs : IsADServer sender.server) (hq : lids.Quiet) :
    (alternateOf sender lids).1 = .ok ((mappedAlternate lids sender).getD emptyJID) := by
  unfold alternateOf mappedAlternate
  rcases server_cases hs with hpn | ⟨hpn, hlid⟩
  · obtain ⟨lids', hrun⟩ := LIDStore.getLIDForPN_answer hq
      (show (newJID sender.user defaultUserServer).server = defaultUserServer from rfl)
    rw [if_pos hpn, if_pos hpn, hrun, targetJID_eq]
    rfl
  · obtain ⟨lids', hrun⟩ := LIDStore.getPNForLID_answer hq
      (show (newJID sender.user hiddenUserServer).server = hiddenUserServer from rfl)
    rw [hpn, hlid, if_neg Bool.false_ne_true, if_pos rfl, if_neg Bool.false_ne_true, hrun, targetJID_eq]
    rfl

theorem found_eq_some {target server : Bytes} (h : found target server = some jid) : jid.server = server := by
  unfold found at h
  split_ifs at h
  cases h
  rfl

theorem isADServer_of_mapped {lids : LIDStore} (h : mappedAlternate lids sender = some jid) : IsADServer jid.server := by
  unfold mappedAlternate at h
  split_ifs at h
  · exact .inr (.inl (found_eq_some h))
  · exact .inl (found_eq_some h)

/-- the names of the sender and those of its alternate -/
theorem mem_signalUsers (lids : LIDStore) (sender : JID) :
    user ∈ signalUsers sender (.ok ((mappedAlternate lids sender).getD emptyJID)) ↔
      user ∈ identityChangeSignalUsers sender ∨
        ∃ jid, mappedAlternate lids sender = some jid ∧ user ∈ identityChangeSignalUsers jid := by
  unfold signalUsers
  cases hm : mappedAlternate lids sender with
  | none => simp [emptyJID, JID.isEmpty]
  | some alternate =>
    have hserver : ¬alternate.isEmpty = true := by
      rcases isADServer_of_mapped hm with h | h | h | h <;> rw [JID.isEmpty, h] <;> decide
    simp [hserver]

/-- the names that are deleted are those of the sender and of its alternate -/
theorem deleteIdentityChangeState_signal (st : Stores) (hs : IsADServer sender.server) (ha : Answers st sender) :
    ∃ users, (deleteIdentityChangeState sender st).signal = (deleteSignalUsers users st.signal).2 ∧
      ∀ user, user ∈ users ↔ ∃ jid, Concerned st sender jid ∧ user ∈ identityChangeSignalUsers jid := by
  unfold deleteIdentityChangeState Concerned
  cases hl : st.lids with
  | none =>
    refine ⟨_, rfl, fun user => ?_⟩
    simp [mem_compact]
  | some lids =>
    refine ⟨_, rfl, fun user => ?_⟩
    rw [mem_compact, alternateOf_answer hs (ha lids hl).1, mem_signalUsers]
    simp [or_and_right, exists_or]

theorem reaches_iff {st : Stores} {users : List Bytes} (hs : IsADServer sender.server) (hu : Decimal sender.user)
    (ha : Answers st sender) (hu' : Decimal other.user)
    (husers : ∀ user, user ∈ users ↔ ∃ jid, Concerned st sender jid ∧ user ∈ identityChangeSignalUsers jid) :
    Reaches users other.signalAddress.string ↔ ∃ jid, Concerned st sender jid ∧ SameUser other jid := by
  have hplain : ∀ jid, Concerned st sender jid → IsADServer jid.server ∧ Decimal jid.user := by
    rintro jid (rfl | ⟨lids, hl, hm⟩)
    · exact ⟨hs, hu⟩
    · exact ⟨isADServer_of_mapped hm, (ha lids hl).2 jid hm⟩
  have hother : colon ∉ other.signalAddressUser := by
    rw [signalAddressUser_eq]
    exact colon_not_mem_name hu' _
  constructor
  · rintro ⟨user, hmem, hprefix⟩
    obtain ⟨jid, hc, hname⟩ := (husers user).1 hmem
    obtain ⟨hserver, hdecimal⟩ := hplain jid hc
    have heq : other.signalAddressUser = user :=
      (prefix_address_eq (colon_not_mem_of_mem hserver hdecimal hname) hother).1 hprefix
    rw [← heq] at hname
    exact ⟨jid, hc, (mem_identityChangeSignalUsers hserver hdecimal hu').1 hname⟩
  · rintro ⟨jid, hc, hsame⟩
    obtain ⟨hserver, hdecimal⟩ := hplain jid hc
    have hname := (mem_identityChangeSignalUsers hserver hdecimal hu').2 hsame
    exact ⟨_, (husers _).2 ⟨jid, hc, hname⟩, (prefix_address_eq hother hother).2 rfl⟩

/-- **Identity change clears one user.** Of the sender and of its alternate, under every domain, no row stays and no key
is cached. Every address of another user keeps its rows and its cache entry, also when the database fails. -/
theorem identity_change_exact (st : Stores) (sender other : JID) (hs : IsADServer sender.server)
    (hu : Decimal sender.user) (ha : Answers st sender) (hu' : Decimal other.user) :
    ((∃ jid, Concerned st sender jid ∧ SameUser other jid) → st.signal.Quiet →
      (stateAt (deleteIdentityChangeState sender st).signal other.signalAddress.string).Cleared) ∧
    ((¬∃ jid, Concerned st sender jid ∧ SameUser other jid) →
      stateAt (deleteIdentityChangeState sender st).signal other.signalAddress.string =
        stateAt st.signal other.signalAddress.string) := by
  obtain ⟨users, hsignal, husers⟩ := deleteIdentityChangeState_signal st hs ha
  obtain ⟨s', hrun, hothers, hown⟩ := deleteSignalUsers_spec users st.signal
  rw [hsignal, hrun, ← reaches_iff hs hu ha hu' husers]
  exact ⟨fun h hq => hown hq _ (.inl h), hothers _⟩

/-- PN 12 with LID 3; sessions of a hosted device of the PN, of a device of the LID, and of PN 123 -/
def pairAndNeighbour : Stores where
  lids := some ⟨⟨AList.singleton (ascii "12") (ascii "3"), AList.singleton (ascii "3") (ascii "12"), false⟩,
    ⟨[], nodup_nil, nodup_nil⟩, [], []⟩
  signal := ⟨newSQLStore, ⟨GoMap.insertAll [ascii "12_128:5", ascii "3_1:0", ascii "123:0"] (fun _ => ascii "data") ∅, ∅, ∅⟩,
    [], []⟩

theorem identity_change_exact_neighbour :
    (stateAt (deleteIdentityChangeState (newJID (ascii "12") defaultUserServer) pairAndNeighbour).signal
      (ascii "12_128:5")).Cleared ∧
    (stateAt (deleteIdentityChangeState (newJID (ascii "12") defaultUserServer) pairAndNeighbour).signal
      (ascii "3_1:0")).Cleared ∧
    (stateAt (deleteIdentityChangeState (newJID (ascii "12") defaultUserServer) pairAndNeighbour).signal
      (ascii "123:0")).session = some (ascii "data") := by
  have hmapped : ∀ lids, pairAndNeighbour.lids = some lids → lids.Quiet ∧
      mappedAlternate lids (newJID (ascii "12") defaultUserServer) = some (newJID (ascii "3") hiddenUserServer) := by
    intro lids hl
    cases hl
    exact ⟨rfl, by decide +kernel⟩
  have hanswers : Answers pairAndNeighbour (newJID (ascii "12") defaultUserServer) := by
    intro lids hl
    refine ⟨(hmapped lids hl).1, fun alternate ha => ?_⟩
    rw [(hmapped lids hl).2] at ha
    cases ha
    rfl
  have hexact := fun other => identity_change_exact pairAndNeighbour (newJID (ascii "12") defaultUserServer) other
    (.inl rfl) rfl hanswers
  refine ⟨?_, ?_, ?_⟩
  · exact (hexact { user := ascii "12", device := 5, server := hostedServer } rfl).1
      ⟨_, .inl rfl, rfl, .inl ⟨.inr rfl, .inl rfl⟩⟩ rfl
  · exact (hexact (newJID (ascii "3") hiddenUserServer) rfl).1
      ⟨_, .inr ⟨_, rfl, (hmapped _ rfl).2⟩, rfl, .inr ⟨.inl rfl, .inl rfl⟩⟩ rfl
  · have hkept := (hexact (newJID (ascii "123") defaultUserServer) rfl).2 ?_
    · exact (congrArg AddressState.session hkept).trans (by decide +kernel)
    · rintro ⟨jid, rfl | ⟨lids, hl, hm⟩, huser, -⟩
      · exact absurd huser (by decide)
      · rw [(hmapped lids hl).2] at hm
        cases hm
        exact absurd huser (by decide)

end Hypermeow.Client.IdentityChange
