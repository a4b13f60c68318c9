/-
The contact cache and the rows of the table.

`Agrees`: every cached contact is what reading its row gives. A statement changes the row of one text, so it leaves the
contact of every JID alone that is bound as another text (`readContact_upsert_of_ne`). What is left is that the call tells the
cache about the JID it was given.

`Careful`: the conditions under which each call does. The JIDs that are written have a server, and no other JID with the same
text is cached. A redacted number that is empty is not written for a contact that is cached as not found. When all contacts
are read, the JID that is read from a row's text has this text, and no row has the key NULL.

- `integrator_goes_stale`, `null_contact_cached`, `device_zero_cached`: each of the other conditions is needed.
-/
import Hypermeow.Lib.Runs
import Hypermeow.Store.ContactStore

namespace Hypermeow.Store

open Lib Types Session Go List

/-! ## Runs -/

inductive ContactOp where
  | putPushName (user : JID) (pushName : Bytes)
  | putBusinessName (user : JID) (businessName : Bytes)
  | putContactName (user : JID) (firstName fullName : Bytes)
  | putContactUsername (user : JID) (username : Bytes)
  | putManyContactUsernames (entries : List ContactUsernameEntry)
  | putAllContactNames (contacts : List ContactEntry)
  | putManyRedactedPhones (entries : List RedactedPhoneEntry)
  | getContact (user : JID)
  | getAllContacts

/-- the JID has a server, and no other JID with its text is cached -/
def OnlyCached (cache : ContactCache) (user : JID) : Prop :=
  user.server ≠ [] ∧ ∀ other ∈ cache.keys, other.string = user.string → other = user

instance (cache : ContactCache) (user : JID) : Decidable (OnlyCached cache user) :=
  inferInstanceAs (Decidable (_ ∧ _))

/-- an empty number is not written for a contact that is cached as not found -/
def TellsPhone (cache : ContactCache) (entry : RedactedPhoneEntry) : Prop :=
  entry.redactedPhone = [] → ∀ cached ∈ cache.lookup entry.jid, cached.found = true

instance (cache : ContactCache) (entry : RedactedPhoneEntry) : Decidable (TellsPhone cache entry) :=
  inferInstanceAs (Decidable (_ → _))

variable (D : Deduplication)

namespace ContactSession

/-- the session after a call -/
def step (s : ContactSession) : ContactOp → ContactSession
  | .putPushName user pushName => (putPushName user pushName s).2
  | .putBusinessName user businessName => (putBusinessName user businessName s).2
  | .putContactName user firstName fullName => (putContactName user firstName fullName s).2
  | .putContactUsername user username => (putContactUsername user username s).2
  | .putManyContactUsernames entries => (putManyContactUsernames entries s).2
  | .putAllContactNames contacts => (putAllContactNames D contacts s).2
  | .putManyRedactedPhones entries => (putManyRedactedPhones D entries s).2
  | .getContact user => (getContact user s).2
  | .getAllContacts => (getAllContacts s).2

/-- the key of the row is a text, and the JID that is read from it is bound as this text -/
def ReadsBack (row : Option Bytes × ContactRow) : Prop :=
  match scanJID row.1 with
  | .ok jid => row.1.isSome = true ∧ jid.value = row.1
  | .error _ => True

instance (row : Option Bytes × ContactRow) : Decidable (ReadsBack row) := by
  unfold ReadsBack
  split <;> infer_instance

/-- the conditions under which a call tells the cache what it does to the table -/
def Careful (s : ContactSession) : ContactOp → Prop
  | .putPushName user _ => OnlyCached s.memory user
  | .putBusinessName user _ => OnlyCached s.memory user
  | .putContactName user _ _ => OnlyCached s.memory user
  | .putContactUsername user _ => OnlyCached s.memory user
  | .putManyContactUsernames entries => ∀ entry ∈ entries, OnlyCached s.memory entry.jid
  | .putAllContactNames _ => True
  | .putManyRedactedPhones entries => ∀ entry ∈ entries, OnlyCached s.memory entry.jid ∧ TellsPhone s.memory entry
  | .getContact _ => True
  | .getAllContacts => ∀ row ∈ s.tables.selectAll, ReadsBack row

instance (s : ContactSession) (op : ContactOp) : Decidable (s.Careful op) := by
  cases op <;> unfold Careful <;> infer_instance

/-- the result of the call: a contact is what reading its row gives, a name has changed exactly if the stored one has -/
def Answers (s : ContactSession) : ContactOp → Prop
  | .getContact user => ∃ s', getContact user s = (.ok (readContact s.tables user), s')
  | .putPushName user pushName =>
    ∃ changed previousName s', putPushName user pushName s = (.ok (changed, previousName), s') ∧
      (changed = true ↔ (readContact s'.tables user).pushName ≠ (readContact s.tables user).pushName)
  | .putBusinessName user businessName =>
    ∃ changed previousName s', putBusinessName user businessName s = (.ok (changed, previousName), s') ∧
      (changed = true ↔ (readContact s'.tables user).businessName ≠ (readContact s.tables user).businessName)
  | _ => True

end ContactSession

/-! ## Statements -/

section Statements

variable {t : ContactTable} {user : JID} {text : Bytes} {set : ContactRow → ContactRow} {assign : ContactInfo → ContactInfo}

/-- assigning to a contact is reading what the statement stored -/
def Tracks (set : ContactRow → ContactRow) (assign : ContactInfo → ContactInfo) : Prop :=
  ∀ row : Option ContactRow, contactInfo (some (set (row.getD {}))) = { assign (contactInfo row) with found := true }

theorem value_of_server (h : user.server ≠ []) : user.value = some user.string :=
  if_neg fun hlen => h (length_eq_zero_iff.1 hlen)

theorem readContact_upsert_of_ne (h : user.value ≠ some text) :
    readContact (t.upsert (some text) set) user = readContact t user := by
  unfold readContact ContactTable.select
  cases hv : user.value with
  | none => rfl
  | some text' =>
    have hne : text' ≠ text := fun he => h (by rw [hv, he])
    change contactInfo ((t.rows.insert text _).lookup text') = contactInfo (t.rows.lookup text')
    rw [AList.lookup_insert_ne hne]

theorem readContact_upsert_self (h : user.value = some text) (htracks : Tracks set assign) :
    readContact (t.upsert (some text) set) user = { assign (readContact t user) with found := true } := by
  unfold readContact ContactTable.select
  rw [h]
  change contactInfo ((t.rows.insert text _).lookup text) = { assign (contactInfo (t.rows.lookup text)) with found := true }
  rw [AList.lookup_insert]
  exact htracks _

/-- a contact that is not found has no fields -/
theorem readContact_eq_of_not_found (h : (readContact t user).found = false) : readContact t user = {} := by
  unfold readContact at h ⊢
  cases hrow : t.select user.value with
  | none => rfl
  | some row =>
    rw [hrow] at h
    cases h

end Statements

/-! ## The cache after a statement -/

section Cache

variable {cache cache' : ContactCache} {t : ContactTable} {user other : JID} {info : ContactInfo}
  {set : ContactRow → ContactRow} {assign : ContactInfo → ContactInfo}

/-- every cached contact is what reading its row gives -/
def CacheAgrees (cache : ContactCache) (t : ContactTable) : Prop :=
  ∀ user info, cache.lookup user = some info → info = readContact t user

theorem CacheAgrees.putBounded {limit first : ℕ} (h : CacheAgrees cache t) (hinfo : info = readContact t user) :
    CacheAgrees (cache.putBounded limit first user info) t := by
  intro other cached hl
  rcases GoMap.lookup_putBounded hl with ⟨rfl, rfl⟩ | ⟨_, hl⟩
  · exact hinfo
  · exact h other cached hl

theorem OnlyCached.mono (h : OnlyCached cache user) (hkeys : ∀ other ∈ cache'.keys, other = user ∨ other ∈ cache.keys) :
    OnlyCached cache' user := by
  refine ⟨h.1, fun other hmem hstring => ?_⟩
  rcases hkeys other hmem with rfl | hmem
  · rfl
  · exact h.2 other hmem hstring

/-- the statement leaves the cached contacts of other JIDs alone -/
theorem CacheAgrees.upsert_of_ne (h : CacheAgrees cache t) (honly : OnlyCached cache user)
    (hl : cache.lookup other = some info) (hne : other ≠ user) :
    info = readContact (t.upsert (some user.string) set) other := by
  rw [readContact_upsert_of_ne]
  · exact h other info hl
  · intro hv
    refine hne (honly.2 other (AList.mem_keys.1 (GoMap.mem_of_lookup hl)) ?_)
    unfold JID.value at hv
    split_ifs at hv
    exact Option.some.inj hv

/-- the statement, and then the same assignment to the cached contact -/
theorem CacheAgrees.write (h : CacheAgrees cache t) (honly : OnlyCached cache user) (htracks : Tracks set assign)
    (hinfo : info = readContact t user) :
    CacheAgrees (cache.insert user { assign info with found := true }) (t.upsert (some user.string) set) := by
  intro other cached hl
  rw [GoMap.lookup_insert_eq] at hl
  split_ifs at hl with heq
  · cases hl
    rw [heq, readContact_upsert_self (value_of_server honly.1) htracks, hinfo]
  · exact h.upsert_of_ne honly hl heq

/-! ## Many contacts -/

theorem tracks_username (username : Bytes) :
    Tracks (putContactUsernameQuery username) fun cached => { cached with username := username } := by
  intro row
  cases row <;> rfl

theorem tracks_redactedPhone (redactedPhone : Bytes) :
    Tracks (putRedactedPhoneQuery redactedPhone) fun cached => { cached with redactedPhone := redactedPhone } := by
  intro row
  cases row <;> rfl

variable {entry : ContactUsernameEntry}

theorem mem_keys_cacheUsername : other ∈ (cacheUsername cache entry).keys ↔ other ∈ cache.keys := by
  unfold cacheUsername
  cases hl : cache.lookup entry.jid with
  | none => rfl
  | some cached =>
    have hmem := AList.mem_keys.1 (GoMap.mem_of_lookup hl)
    rw [← AList.mem_keys, AList.mem_insert, ← AList.mem_keys]
    exact or_iff_right_of_imp fun heq => heq ▸ AList.mem_keys.2 hmem

theorem CacheAgrees.cacheUsername (h : CacheAgrees cache t) (honly : OnlyCached cache entry.jid) :
    CacheAgrees (cacheUsername cache entry)
      (t.upsert (some entry.jid.string) (putContactUsernameQuery entry.username)) := by
  unfold Store.cacheUsername
  cases hl : cache.lookup entry.jid with
  | some cached => exact h.write honly (tracks_username entry.username) (h entry.jid cached hl)
  | none =>
    intro other cached hcached
    refine h.upsert_of_ne honly hcached fun heq => ?_
    rw [heq, hl] at hcached
    cases hcached

/-- the statements and the assignments to the cached contacts, entry by entry -/
theorem CacheAgrees.cacheUsernames (entries : List ContactUsernameEntry) (h : CacheAgrees cache t)
    (honly : ∀ entry ∈ entries, OnlyCached cache entry.jid) :
    CacheAgrees (entries.foldl Store.cacheUsername cache)
      (t.upsertMany ContactUsernameEntry.jid (fun entry => putContactUsernameQuery entry.username) entries) := by
  induction entries generalizing cache t with
  | nil => exact h
  | cons entry entries ih =>
    refine ih (h.cacheUsername (honly entry mem_cons_self)) fun e he => ?_
    refine (honly e (mem_cons_of_mem entry he)).mono fun other hmem => .inr ?_
    exact mem_keys_cacheUsername.1 hmem

theorem within_forgetRedactedPhone (cache : ContactCache) (entry : RedactedPhoneEntry) :
    GoMap.Within (forgetRedactedPhone cache entry) cache := by
  unfold forgetRedactedPhone
  split
  · split_ifs
    · exact .refl cache
    · exact GoMap.within_erase _ cache
  · exact .refl cache

/-- a contact that stays in the cache has a row with this number already -/
theorem CacheAgrees.forgetRedactedPhone {entry : RedactedPhoneEntry} (h : CacheAgrees cache t)
    (honly : OnlyCached cache entry.jid) (htells : TellsPhone cache entry) :
    CacheAgrees (forgetRedactedPhone cache entry)
      (t.upsert (some entry.jid.string) (putRedactedPhoneQuery entry.redactedPhone)) := by
  intro other cached hl
  have hold := within_forgetRedactedPhone cache entry other cached hl
  by_cases heq : other = entry.jid
  · subst heq
    have hread := h entry.jid cached hold
    rw [readContact_upsert_self (value_of_server honly.1) (tracks_redactedPhone entry.redactedPhone), ← hread]
    unfold Store.forgetRedactedPhone at hl
    simp only [hold] at hl
    split_ifs at hl with hphone
    · have hfound : cached.found = true := by
        by_contra hnot
        have hnone := readContact_eq_of_not_found (hread ▸ Bool.eq_false_of_not_eq_true hnot)
        have hempty : entry.redactedPhone = [] := by rw [← hphone, hread, hnone]
        exact hnot (htells hempty cached hold)
      rw [← hphone, ← hfound]
    · rw [AList.lookup_erase] at hl
      cases hl
  · exact h.upsert_of_ne honly hold heq

theorem CacheAgrees.forgetRedactedPhones (entries : List RedactedPhoneEntry) (h : CacheAgrees cache t)
    (hentries : ∀ entry ∈ entries, OnlyCached cache entry.jid ∧ TellsPhone cache entry) :
    CacheAgrees (entries.foldl Store.forgetRedactedPhone cache)
      (t.upsertMany RedactedPhoneEntry.jid (fun entry => putRedactedPhoneQuery entry.redactedPhone) entries) := by
  induction entries generalizing cache t with
  | nil => exact h
  | cons entry entries ih =>
    obtain ⟨honly, htells⟩ := hentries entry mem_cons_self
    have hwithin := within_forgetRedactedPhone cache entry
    refine ih (h.forgetRedactedPhone honly htells) fun e he => ?_
    obtain ⟨honly, htells⟩ := hentries e (mem_cons_of_mem entry he)
    refine ⟨honly.mono fun other hmem => .inr ?_, fun hempty cached hl => ?_⟩
    · exact AList.mem_keys.1 (hwithin.mem (AList.mem_keys.2 hmem))
    · exact htells hempty cached (hwithin e.jid cached hl)

theorem mem_of_mem_deduplicate {entries : List ContactUsernameEntry}
    (h : entry ∈ deduplicateContactUsernamesLastWriteWins entries) : entry ∈ entries := by
  have hfold : ∀ acc : GoMap JID ℕ × List ContactUsernameEntry, entry ∈ (entries.foldl lastWriteWins acc).2 →
      entry ∈ acc.2 ∨ entry ∈ entries := by
    clear h
    induction entries with
    | nil => exact fun acc h => .inl h
    | cons e entries ih =>
      intro acc h
      rcases ih _ h with h | h
      · unfold lastWriteWins at h
        split at h
        · rcases mem_or_eq_of_mem_set h with h | rfl
          · exact .inl h
          · exact .inr mem_cons_self
        · rcases mem_append.1 h with h | h
          · exact .inl h
          · exact .inr (mem_singleton.1 h ▸ mem_cons_self)
      · exact .inr (mem_cons_of_mem e h)
  rcases hfold (∅, []) h with h | h
  · cases h
  · exact h

end Cache

/-! ## Calls -/

section Calls

variable {s : ContactSession} {user : JID} {differs : ContactInfo → Bool} {set : ContactRow → ContactRow}
  {assign : ContactInfo → ContactInfo}

/-- the cached contacts are right, and no call fails -/
def ContactSession.Agrees (s : ContactSession) : Prop := s.Quiet ∧ CacheAgrees s.memory s.tables

/-- the contact that a call compares with -/
def ContactSession.seen (s : ContactSession) (user : JID) : ContactInfo :=
  (s.memory.lookup user).getD (readContact s.tables user)

theorem getContact_run (hs : s.Quiet) (user : JID) :
    ∃ cache picks, getContact user s = (.ok (s.seen user), { s with memory := cache, picks := picks }) ∧
      ∀ other info, cache.lookup other = some info →
        other = user ∧ info = s.seen user ∨ other ≠ user ∧ s.memory.lookup other = some info := by
  unfold getContact ContactSession.seen
  rw [get_bind]
  cases hl : s.memory.lookup user with
  | some cached =>
    refine ⟨s.memory, s.picks, rfl, fun other info h => ?_⟩
    by_cases heq : other = user
    · rw [heq, hl] at h
      exact .inl ⟨heq, (Option.some.inj h).symm⟩
    · exact .inr ⟨heq, h⟩
  | none =>
    refine ⟨s.memory.putBounded maxContactCacheEntries (s.picks.headD 0) user (readContact s.tables user), s.picks.tail,
      ?_, fun other info h => GoMap.lookup_putBounded h⟩
    dsimp only
    rw [bind_ok (call_ok hs)]
    rfl

/-- what a call for one contact returns, and what it does to the table and to the cache -/
theorem putContact_run (user : JID) (differs : ContactInfo → Bool) (set : ContactRow → ContactRow)
    (assign : ContactInfo → ContactInfo) (hs : s.Quiet) :
    ∃ s', putContact user differs set assign s =
        (.ok (if differs (s.seen user) then some (s.seen user) else none), s') ∧ s'.Quiet ∧
      s'.tables = (if differs (s.seen user) then s.tables.upsert user.value set else s.tables) ∧
      ∀ other info, s'.memory.lookup other = some info →
        other = user ∧ info = (if differs (s.seen user) then { assign (s.seen user) with found := true } else s.seen user) ∨
        other ≠ user ∧ s.memory.lookup other = some info := by
  obtain ⟨cache, picks, hget, hcache⟩ := getContact_run hs user
  unfold putContact
  rw [bind_ok hget]
  split_ifs with hdiffers
  · refine ⟨⟨cache.insert user { assign (s.seen user) with found := true }, s.tables.upsert user.value set, s.faults,
      picks⟩, ?_, hs, rfl, fun other info hl => ?_⟩
    · rw [bind_ok (exec_update_ok _ (show Quiet { s with memory := cache, picks := picks } from hs))]
      rfl
    · rw [GoMap.lookup_insert_eq] at hl
      split_ifs at hl with heq
      · exact .inl ⟨heq, (Option.some.inj hl).symm⟩
      · rcases hcache other info hl with ⟨hother, -⟩ | hold
        · exact absurd hother heq
        · exact .inr hold
  · exact ⟨_, rfl, hs, rfl, hcache⟩

theorem ContactSession.Agrees.seen_eq (h : s.Agrees) (user : JID) : s.seen user = readContact s.tables user := by
  unfold ContactSession.seen
  cases hl : s.memory.lookup user with
  | none => rfl
  | some info => exact h.2 user info hl

theorem getContact_ok (h : s.Agrees) (user : JID) :
    ∃ cache picks, getContact user s = (.ok (readContact s.tables user), { s with memory := cache, picks := picks }) ∧
      CacheAgrees cache s.tables := by
  obtain ⟨cache, picks, hget, hcache⟩ := getContact_run h.1 user
  rw [h.seen_eq] at hget hcache
  refine ⟨cache, picks, hget, fun other info hl => ?_⟩
  rcases hcache other info hl with ⟨rfl, rfl⟩ | ⟨-, hold⟩
  · rfl
  · exact h.2 other info hold

/-- a contact that differs is stored and returned as it was, another one is left alone -/
theorem putContact_ok (differs : ContactInfo → Bool) (h : s.Agrees) (honly : OnlyCached s.memory user)
    (htracks : Tracks set assign) :
    ∃ previous s', putContact user differs set assign s = (.ok previous, s') ∧ s'.Agrees ∧
      (if differs (readContact s.tables user) then
        previous = some (readContact s.tables user) ∧
          readContact s'.tables user = { assign (readContact s.tables user) with found := true }
      else previous = none ∧ s'.tables = s.tables) := by
  obtain ⟨s', hrun, hquiet, htables, hcache⟩ := putContact_run user differs set assign h.1
  have hvalue := value_of_server honly.1
  rw [h.seen_eq] at hrun htables hcache
  refine ⟨_, s', hrun, ⟨hquiet, fun other info hl => ?_⟩, ?_⟩
  · rw [htables]
    split_ifs at hcache ⊢
    · rw [hvalue]
      rcases hcache other info hl with ⟨rfl, rfl⟩ | ⟨hne, hold⟩
      · exact (readContact_upsert_self hvalue htracks).symm
      · exact h.2.upsert_of_ne honly hold hne
    · rcases hcache other info hl with ⟨rfl, rfl⟩ | ⟨-, hold⟩
      · rfl
      · exact h.2 other info hold
  · rw [htables]
    split_ifs
    · exact ⟨rfl, by rw [hvalue, readContact_upsert_self hvalue htracks]⟩
    · exact ⟨rfl, rfl⟩

theorem putContact_agrees {β : Type} (result : Option ContactInfo → β) (h : s.Agrees) (honly : OnlyCached s.memory user)
    (htracks : Tracks set assign) :
    ((do let previous ← putContact user differs set assign
         pure (result previous) : Go ContactSession ContactError β) s).2.Agrees := by
  obtain ⟨previous, s', hrun, hs', -⟩ := putContact_ok differs h honly htracks
  rw [bind_ok hrun]
  exact hs'

/-- a call that writes one name says that it has changed exactly if the stored name has -/
theorem putContact_changed (name : ContactInfo → Bytes) {new : Bytes} (h : s.Agrees) (honly : OnlyCached s.memory user)
    (htracks : Tracks set assign) (hnew : ∀ info, name { assign info with found := true } = new) :
    ∃ previous s', putContact user (fun cached => name cached != new) set assign s = (.ok previous, s') ∧
      ((changedFrom name previous).1 = true ↔ name (readContact s'.tables user) ≠ name (readContact s.tables user)) := by
  obtain ⟨previous, s', hrun, -, hcase⟩ := putContact_ok _ h honly htracks
  refine ⟨previous, s', hrun, ?_⟩
  split_ifs at hcase with hdiffers
  · rw [hcase.1, hcase.2, hnew]
    exact iff_of_true rfl (bne_iff_ne.1 hdiffers).symm
  · rw [hcase.1, hcase.2]
    exact iff_of_false Bool.false_ne_true fun hne => hne rfl

theorem tracks_pushName (pushName : Bytes) :
    Tracks (putPushNameQuery pushName) fun cached => { cached with pushName := pushName } := by
  intro row
  cases row <;> rfl

theorem tracks_businessName (businessName : Bytes) :
    Tracks (putBusinessNameQuery businessName) fun cached => { cached with businessName := businessName } := by
  intro row
  cases row <;> rfl

theorem tracks_contactName (firstName fullName : Bytes) :
    Tracks (putContactNameQuery firstName fullName)
      fun cached => { cached with firstName := firstName, fullName := fullName } := by
  intro row
  cases row <;> rfl

/-! ## Calls for many contacts -/

variable {α : Type}

theorem upsertMany_append (jid : α → JID) (set : α → ContactRow → ContactRow) (xs ys : List α)
    (t : ContactTable) : t.upsertMany jid set (xs ++ ys) = (t.upsertMany jid set xs).upsertMany jid set ys :=
  foldl_append

theorem putContactChunks_ok (jid : α → JID) (set : α → ContactRow → ContactRow) (n : ℕ) (entries : List α)
    (h : s.Quiet) : putContactChunks jid set n entries s =
      (.ok (), { s with tables := s.tables.upsertMany jid set (entries.take (contactBatchSize * n)) }) := by
  induction n generalizing s entries with
  | zero => rfl
  | succ n ih =>
    have htake : entries.take (contactBatchSize * (n + 1)) =
        entries.take contactBatchSize ++ (entries.drop contactBatchSize).take (contactBatchSize * n) := by
      rw [← take_add, Nat.mul_succ, Nat.add_comm]
    unfold putContactChunks
    rw [bind_ok (exec_update_ok _ h), htake, upsertMany_append]
    exact ih (entries.drop contactBatchSize)
      (show Quiet { s with tables := s.tables.upsertMany jid set (entries.take contactBatchSize) } from h)

/-- the chunks together are all entries -/
theorem putContactBatches_ok (jid : α → JID) (set : α → ContactRow → ContactRow) (entries : List α)
    (h : s.Quiet) : putContactBatches jid set entries s =
      (.ok (), { s with tables := s.tables.upsertMany jid set entries }) := by
  have hlen : entries.length ≤ contactBatchSize * ((entries.length + contactBatchSize - 1) / contactBatchSize) := by
    unfold contactBatchSize
    omega
  unfold putContactBatches
  rw [putContactChunks_ok jid set _ entries h, take_of_length_le hlen]

/-- where no call fails, the tables alone change -/
def SetsTables (x : Go ContactSession ContactError Unit) : Prop :=
  ∀ s, s.Quiet → ∃ t, x s = (.ok (), { s with tables := t })

theorem setsTables_batches (jid : α → JID) (set : α → ContactRow → ContactRow) (entries : List α) :
    SetsTables (putContactBatches jid set entries) := fun _ h => ⟨_, putContactBatches_ok jid set entries h⟩

theorem SetsTables.seq {x y : Go ContactSession ContactError Unit} (hx : SetsTables x) (hy : SetsTables y) :
    SetsTables (do x; y) := by
  intro s hs
  obtain ⟨t, hxrun⟩ := hx s hs
  obtain ⟨t', hyrun⟩ := hy { s with tables := t } hs
  exact ⟨t', (bind_ok hxrun).trans hyrun⟩

theorem putManyContactUsernames_agrees {entries : List ContactUsernameEntry} (h : s.Agrees)
    (honly : ∀ entry ∈ entries, OnlyCached s.memory entry.jid) : (putManyContactUsernames entries s).2.Agrees := by
  unfold putManyContactUsernames
  split_ifs
  · exact h
  · rw [bind_ok (transaction_ok h.1 (putContactBatches_ok _ _ _ h.1) h.1)]
    exact ⟨h.1, h.2.cacheUsernames _ fun entry hmem => honly entry (mem_of_mem_deduplicate hmem)⟩

theorem putAllContactNames_agrees (contacts : List ContactEntry) (h : s.Agrees) :
    (putAllContactNames D contacts s).2.Agrees := by
  unfold putAllContactNames
  split_ifs
  · exact h
  · obtain ⟨t, hbody⟩ := (setsTables_batches ContactEntry.jid _ _).seq (setsTables_batches ContactEntry.jid _ _) s h.1
    rw [bind_ok (transaction_ok h.1 hbody h.1)]
    refine ⟨h.1, fun user info hl => ?_⟩
    cases hl

theorem putManyRedactedPhones_agrees {entries : List RedactedPhoneEntry} (h : s.Agrees)
    (hentries : ∀ entry ∈ entries, OnlyCached s.memory entry.jid ∧ TellsPhone s.memory entry) :
    (putManyRedactedPhones D entries s).2.Agrees := by
  unfold putManyRedactedPhones
  split_ifs
  · exact h
  · rw [bind_ok (transaction_ok h.1 (putContactBatches_ok _ _ _ h.1) h.1)]
    exact ⟨h.1, h.2.forgetRedactedPhones _ fun entry hmem => hentries entry (D.subset _ entries hmem)⟩

theorem select_of_mem_selectAll {t : ContactTable} {text : Bytes} {row : ContactRow}
    (h : (some text, row) ∈ t.selectAll) : t.select (some text) = some row := by
  unfold ContactTable.selectAll at h
  rcases mem_append.1 h with h | h
  · obtain ⟨r, hr, heq⟩ := mem_map.1 h
    cases heq
    exact GoMap.mem_rows.1 hr
  · obtain ⟨r, -, heq⟩ := mem_map.1 h
    cases heq

theorem scanContacts_agrees (rows : List (Option Bytes × ContactRow)) (output : GoMap JID ContactInfo) (h : s.Agrees)
    (hrows : ∀ row ∈ rows, row ∈ s.tables.selectAll ∧ ContactSession.ReadsBack row) :
    (scanContacts rows output s).2.Agrees := by
  induction rows generalizing s output with
  | nil => exact h
  | cons row rows ih =>
    obtain ⟨hmem, hreads⟩ := hrows row mem_cons_self
    unfold scanContacts
    unfold ContactSession.ReadsBack at hreads
    cases hscan : scanJID row.1 with
    | error e => exact h
    | ok jid =>
      rw [hscan] at hreads
      obtain ⟨text, htext⟩ := Option.isSome_iff_exists.1 hreads.1
      have hselect : s.tables.select (some text) = some row.2 := select_of_mem_selectAll (by rwa [← htext])
      have hread : contactInfo (some row.2) = readContact s.tables jid := by
        rw [readContact, hreads.2, htext, hselect]
      have hnext : ContactSession.Agrees { s with
          memory := s.memory.putBounded maxContactCacheEntries (s.picks.headD 0) jid (contactInfo (some row.2))
          picks := s.picks.tail } := ⟨h.1, h.2.putBounded hread⟩
      exact ih (output.insert jid (contactInfo (some row.2))) hnext fun r hr => hrows r (mem_cons_of_mem row hr)

theorem getAllContacts_agrees (h : s.Agrees) (hrows : ∀ row ∈ s.tables.selectAll, ContactSession.ReadsBack row) :
    (getAllContacts s).2.Agrees := by
  obtain ⟨rows, picks, hquery, hperm⟩ := query_ok (e := ContactError.database) (f := ContactTable.selectAll) h.1
  unfold getAllContacts
  rw [bind_ok hquery]
  have hs : ContactSession.Agrees { s with picks := picks } := h
  exact scanContacts_agrees rows ∅ hs fun row hmem => ⟨hperm.mem_iff.1 hmem, hrows row (hperm.mem_iff.1 hmem)⟩

end Calls

/-! ## Transparency -/

variable {D} {s : ContactSession} {op : ContactOp}

/-- a careful call keeps the agreement -/
theorem agrees_step (hop : s.Careful op) (h : s.Agrees) : (ContactSession.step D s op).Agrees := by
  cases op with
  | putPushName user pushName =>
    exact putContact_agrees (changedFrom ContactInfo.pushName) h hop (tracks_pushName pushName)
  | putBusinessName user businessName =>
    exact putContact_agrees (changedFrom ContactInfo.businessName) h hop (tracks_businessName businessName)
  | putContactName user firstName fullName =>
    exact putContact_agrees (fun _ => ()) h hop (tracks_contactName firstName fullName)
  | putContactUsername user username => exact putContact_agrees (fun _ => ()) h hop (tracks_username username)
  | putManyContactUsernames entries => exact putManyContactUsernames_agrees h hop
  | putAllContactNames contacts => exact putAllContactNames_agrees D contacts h
  | putManyRedactedPhones entries => exact putManyRedactedPhones_agrees D h hop
  | getContact user =>
    obtain ⟨cache, picks, hrun, hagrees⟩ := getContact_ok h user
    change (getContact user s).2.Agrees
    rw [hrun]
    exact ⟨h.1, hagrees⟩
  | getAllContacts => exact getAllContacts_agrees h hop

/-- where cache and rows agree, a careful call returns what the rows say -/
theorem answers_of_agrees (hop : s.Careful op) (h : s.Agrees) : s.Answers op := by
  cases op with
  | getContact user =>
    obtain ⟨_, _, hrun, -⟩ := getContact_ok h user
    exact ⟨_, hrun⟩
  | putPushName user pushName =>
    obtain ⟨previous, s', hrun, hchanged⟩ := putContact_changed ContactInfo.pushName h hop
      (tracks_pushName pushName) fun _ => rfl
    exact ⟨_, _, s', bind_ok hrun, hchanged⟩
  | putBusinessName user businessName =>
    obtain ⟨previous, s', hrun, hchanged⟩ := putContact_changed ContactInfo.businessName h hop
      (tracks_businessName businessName) fun _ => rfl
    exact ⟨_, _, s', bind_ok hrun, hchanged⟩
  | _ => exact trivial

/-- **The contact cache is transparent for careful calls.** A new store over any table, no call of the database fails,
evictions and the order of rows are arbitrary. Along a run of careful calls, every `GetContact` returns what reading the row
gives, and `PutPushName` and `PutBusinessName` say that the name has changed exactly if the stored name has. -/
theorem contact_cache_transparent (D : Deduplication) (t : ContactTable) (picks : List ℕ) (ops : List ContactOp)
    (hops : Along (ContactSession.step D) ContactSession.Careful ⟨∅, t, [], picks⟩ ops) (n : ℕ) (op : ContactOp)
    (hop : ops[n]? = some op) :
    (run (ContactSession.step D) ⟨∅, t, [], picks⟩ (ops.take n)).Answers op := by
  have hstart : ContactSession.Agrees ⟨∅, t, [], picks⟩ := ⟨rfl, fun user info hl => by cases hl⟩
  have hagrees := run_inv_take (fun s op hop h => agrees_step (D := D) hop h) hstart hops n
  exact answers_of_agrees (hops.get hop) hagrees

/-! ## Examples -/

/-- the first entry of each JID -/
def firstEntries {α : Type} (jid : α → JID) (entries : List α) : List α :=
  (entries.reverse.pwFilter fun a b => jid a ≠ jid b).reverse

theorem firstEntries_subset {α : Type} (jid : α → JID) (entries : List α) : firstEntries jid entries ⊆ entries := by
  intro entry hmem
  exact mem_reverse.1 (pwFilter_subset _ (mem_reverse.1 hmem))

def keepFirst : Deduplication := ⟨firstEntries, firstEntries_subset⟩

def newContactStore : ContactSession := ⟨∅, ⟨∅, []⟩, [], []⟩

def contact : JID := newJID (ascii "491761234567") defaultUserServer

/-- a number and a name for a contact that was not found -/
theorem contact_cache_transparent_number :
    let ops := [ContactOp.getContact contact, .putManyRedactedPhones [⟨contact, ascii "+49"⟩],
      .putPushName contact (ascii "A"), .getContact contact]
    ∃ s', getContact contact (run (ContactSession.step keepFirst) newContactStore (ops.take 3)) =
      (.ok { found := true, pushName := ascii "A", redactedPhone := ascii "+49" }, s') := by
  intro ops
  have hcareful : Along (ContactSession.step keepFirst) ContactSession.Careful newContactStore ops := by decide +kernel
  have hread : readContact (run (ContactSession.step keepFirst) newContactStore (ops.take 3)).tables contact =
      { found := true, pushName := ascii "A", redactedPhone := ascii "+49" } := by decide +kernel
  rw [← hread]
  exact contact_cache_transparent keepFirst ⟨∅, []⟩ [] ops hcareful 3 (.getContact contact) rfl

/-- **An empty redacted number hides a contact.** The contact is cached as not found. The row that is inserted for it has the
number that is cached, so it stays cached as not found. -/
theorem empty_redacted_phone_hides_contact :
    let s := run (ContactSession.step keepFirst) newContactStore
      [.getContact contact, .putManyRedactedPhones [⟨contact, []⟩]]
    (getContact contact s).1 = .ok { found := false } ∧ readContact s.tables contact = { found := true } := by
  decide +kernel

/-- the integrator is not part of the text: a name that is stored for one JID is stored for both -/
theorem integrator_goes_stale :
    let other : JID := { contact with integrator := 1 }
    let s := run (ContactSession.step keepFirst) newContactStore [.getContact contact, .putPushName other (ascii "A")]
    (getContact contact s).1 = .ok {} ∧ readContact s.tables contact = { found := true, pushName := ascii "A" } := by
  decide +kernel

/-- a JID without a server is bound as NULL, and no query finds the row -/
theorem null_contact_cached :
    let s := run (ContactSession.step keepFirst) newContactStore [.putPushName emptyJID (ascii "A")]
    (getContact emptyJID s).1 = .ok { found := true, pushName := ascii "A" } ∧ readContact s.tables emptyJID = {} := by
  decide +kernel

/-- a row whose text is read as a JID with another text -/
theorem device_zero_cached :
    let zero := newJID (contact.user ++ ascii ":0") defaultUserServer
    let s := run (ContactSession.step keepFirst) newContactStore [.putPushName zero (ascii "A"), .getAllContacts]
    (getContact contact s).1 = .ok { found := true, pushName := ascii "A" } ∧ readContact s.tables contact = {} := by
  decide +kernel

end Hypermeow.Store
