/-
What single calls of the identity store do to the agreement of cache and table.

`AgreesOn P s`: the cached entries in `P` are the rows of their addresses. For all entries this is `Agrees`; for the entries
that are present it is what the callers that answer from the cache need.

- `Clean P x`: a call that returns keeps the agreement, a call that fails changes neither table nor cache.
- `Careful P x`: the same, but a call that fails may leave changed rows behind. `EnsureIdentity` does when it cannot read back
  the row that it inserted, `MigratePNToLID` does inside of another transaction.
- `isTrustedIdentity_spec`, `putIdentity_stored`: where cache and rows agree, trust is decided by the row, and a key that was
  put is a row.
-/
import Hypermeow.Store.Migration

namespace Hypermeow.Store

open Lib Types Session Go List

/-- the key that the table has for an address -/
def identityRow (s : SignalSession) (address : Bytes) : Option Key := s.tables.identityKeys.lookup address

/-- every cached entry in `P` is the row of its address -/
def AgreesOn (P : Option Key → Prop) (s : SignalSession) : Prop :=
  ∀ address entry, P entry → s.memory.identityCache.lookup address = some entry → identityRow s address = entry

/-- every cached entry is the row of its address -/
abbrev Agrees (s : SignalSession) : Prop := AgreesOn (fun _ => True) s

variable {α : Type} {P : Option Key → Prop} {s s' : SignalSession} {address phone : Bytes} {key : Key} {entry : Option Key}

/-- a call that returns keeps the agreement, one that fails does not touch the cache -/
def Careful (P : Option Key → Prop) (x : Go SignalSession StoreError α) : Prop := ∀ s, AgreesOn P s →
  (∃ a s', x s = (.ok a, s') ∧ AgreesOn P s') ∨
    ∃ e s', x s = (.err e, s') ∧ s'.memory.identityCache = s.memory.identityCache

/-- a call that returns keeps the agreement, one that fails changes nothing -/
def Clean (P : Option Key → Prop) (x : Go SignalSession StoreError α) : Prop := ∀ s, AgreesOn P s →
  (∃ a s', x s = (.ok a, s') ∧ AgreesOn P s') ∨
    ∃ e s', x s = (.err e, s') ∧ s'.memory.identityCache = s.memory.identityCache ∧ s'.tables = s.tables

theorem Clean.careful {x : Go SignalSession StoreError α} (hx : Clean P x) : Careful P x := by
  intro s hs
  rcases hx s hs with hok | ⟨e, s', hrun, hcache, _⟩
  · exact .inl hok
  · exact .inr ⟨e, s', hrun, hcache⟩

theorem AgreesOn.of_eq (h : AgreesOn P s) (hcache : s'.memory.identityCache = s.memory.identityCache)
    (htables : s'.tables = s.tables) : AgreesOn P s' := by
  intro address entry hP hl
  rw [hcache] at hl
  rw [identityRow, htables]
  exact h address entry hP hl

/-- a statement about one address, after which the cache is told the address's row -/
theorem AgreesOn.write (h : AgreesOn P s) (s₁ : SignalSession) (address : Bytes)
    (hcache : s₁.memory.identityCache = s.memory.identityCache) (hrow : identityRow s₁ address = entry)
    (hother : ∀ a, a ≠ address → identityRow s₁ a = identityRow s a) :
    ∃ s', setCachedIdentity address entry s₁ = (.ok (), s') ∧ AgreesOn P s' := by
  refine ⟨_, rfl, ?_⟩
  intro a e hP hl
  rcases GoMap.lookup_putBounded hl with ⟨rfl, rfl⟩ | ⟨hne, hl⟩
  · exact hrow
  · rw [hcache] at hl
    exact (hother a hne).trans (h a e hP hl)

/-- a statement, and then something that cannot fail and tells the cache -/
theorem clean_exec {g : SignalTables → SignalTables} {k : Unit → Go SignalSession StoreError α}
    (hk : ∀ s, AgreesOn P s → ∃ a s', k () { s.called with tables := g s.tables } = (.ok a, s') ∧ AgreesOn P s') :
    Clean P (exec .database (fun t => some (g t)) >>= k) := by
  intro s hs
  by_cases hf : s.NextFails
  · exact .inr ⟨_, _, bind_err (exec_of_fails hf), rfl, rfl⟩
  · rw [bind_ok (exec_update g hf)]
    exact .inl (hk s hs)

theorem clean_putIdentity (address : Bytes) (key : Key) : Clean P (putIdentity address key) := by
  intro s hs
  unfold putIdentity
  rw [get_bind]
  split_ifs with hcached
  · exact .inl ⟨(), s, rfl, hs⟩
  · refine clean_exec (fun s hs => ?_) s hs
    exact ⟨(), hs.write _ _ rfl (AList.lookup_insert _) fun a hne => AList.lookup_insert_ne hne⟩

/-- a key that was put is a row -/
theorem putIdentity_stored (hs : Agrees s) (h : putIdentity address key s = (.ok (), s')) :
    identityRow s' address = some key := by
  unfold putIdentity at h
  rw [get_bind] at h
  split_ifs at h with hcached
  · cases h
    exact hs address (some key) trivial hcached
  · obtain ⟨_, s₁, hexec, h⟩ := bind_eq_ok.1 h
    obtain ⟨_, htables, rfl⟩ := exec_eq_ok hexec
    cases htables
    cases h
    exact AList.lookup_insert _

theorem clean_deleteIdentity (address : Bytes) : Clean P (deleteIdentity address) := by
  refine clean_exec fun s hs => ?_
  unfold bumpDeleteGen
  rw [bind_ok (update_run ..)]
  exact ⟨(), hs.write _ _ rfl (AList.lookup_erase _ _) fun a hne => AList.lookup_erase_ne hne⟩

theorem lookup_forgetIdentities (cache : GoMap Bytes (Option Key)) :
    (forgetIdentities phone cache).lookup address =
      if address ∈ cache ∧ phone ++ [colon] <+: address then some none else cache.lookup address := by
  have hmem : address ∈ cache.keys.filter (fun a => phone ++ ascii ":" <+: a) ↔
      address ∈ cache ∧ phone ++ [colon] <+: address := by
    rw [mem_filter, decide_eq_true_iff, AList.mem_keys]
    rfl
  split_ifs with h
  · exact (GoMap.lookup_insertAll ..).trans (if_pos (hmem.2 h))
  · exact (GoMap.lookup_insertAll ..).trans (if_neg (mt hmem.1 h))

theorem clean_deleteAllIdentities (phone : Bytes) : Clean P (deleteAllIdentities phone) := by
  refine clean_exec fun s hs => ?_
  unfold bumpDeleteGen
  rw [bind_ok (update_run ..)]
  refine ⟨(), _, rfl, ?_⟩
  intro a e hP hl
  change (forgetIdentities phone s.memory.identityCache).lookup a = some e at hl
  change (s.tables.identityKeys.deleteWhere (inSignalAddressRange phone)).lookup a = e
  rw [lookup_forgetIdentities] at hl
  rw [GoMap.lookup_deleteWhere]
  by_cases hphone : phone ++ [colon] <+: a
  · have ha : a ∈ s.memory.identityCache := by
      split_ifs at hl with h
      · exact h.1
      · exact GoMap.mem_of_lookup hl
    rw [if_pos ⟨ha, hphone⟩] at hl
    rw [if_pos (inSignalAddressRange_iff.2 hphone)]
    exact Option.some.inj hl
  · rw [if_neg fun h => hphone h.2] at hl
    rw [if_neg fun h => hphone (inSignalAddressRange_iff.1 h)]
    exact hs a e hP hl

theorem fetchIdentity_of_not_fails (hs : AgreesOn P s) (hf : ¬s.NextFails) (address : Bytes) :
    ∃ s', fetchIdentity address s = (.ok (identityRow s address), s') ∧ AgreesOn P s' := by
  obtain ⟨s', hrun, ha⟩ := hs.write s.called address rfl rfl fun _ _ => rfl
  refine ⟨s', ?_, ha⟩
  unfold fetchIdentity
  rw [bind_ok (call_of_not_fails hf), get_bind]
  exact bind_ok hrun

/-- the answer is the cache's or the table's -/
theorem isTrustedIdentity_cases (hs : AgreesOn P s) (address : Bytes) (key : Key) :
    (∃ known, s.memory.identityCache.lookup address = some known ∧
      isTrustedIdentity address key s = (.ok (trusts known key), s)) ∨
    (∃ s', isTrustedIdentity address key s = (.ok (trusts (identityRow s address) key), s') ∧ AgreesOn P s') ∨
    ∃ e s', isTrustedIdentity address key s = (.err e, s') ∧ s'.memory.identityCache = s.memory.identityCache ∧
      s'.tables = s.tables := by
  unfold isTrustedIdentity
  rw [get_bind]
  cases hl : s.memory.identityCache.lookup address with
  | some known => exact .inl ⟨known, rfl, rfl⟩
  | none =>
    by_cases hf : s.NextFails
    · exact .inr (.inr ⟨_, _, bind_err (bind_err (call_of_fails hf)), rfl, rfl⟩)
    · obtain ⟨s', hrun, ha⟩ := fetchIdentity_of_not_fails hs hf address
      exact .inr (.inl ⟨s', bind_ok hrun, ha⟩)

theorem clean_isTrustedIdentity (address : Bytes) (key : Key) : Clean P (isTrustedIdentity address key) := by
  intro s hs
  rcases isTrustedIdentity_cases hs address key with ⟨known, _, hrun⟩ | ⟨s', hrun, ha⟩ | herr
  · exact .inl ⟨_, s, hrun, hs⟩
  · exact .inl ⟨_, s', hrun, ha⟩
  · exact .inr herr

/-! ### `EnsureIdentity` -/

theorem lookup_ensureIdentity (t : SignalTables) (address : Bytes) (key : Key) (a : Bytes) :
    (t.ensureIdentity address key).identityKeys.lookup a =
      if a = address then (t.identityKeys.lookup address).or (some key) else t.identityKeys.lookup a := by
  unfold SignalTables.ensureIdentity
  split_ifs with hmem ha ha
  · obtain ⟨stored, hstored⟩ := GoMap.lookup_of_mem hmem
    rw [ha, hstored, Option.some_or]
  · rfl
  · rw [ha, AList.lookup_insert, AList.lookup_eq_none.2 hmem, Option.none_or]
  · exact AList.lookup_insert_ne ha

/-! ### `GetManyIdentities` -/

theorem scanIdentities_spec (rows : List (Bytes × Key)) (result : GoMap Bytes Key) (s : SignalSession) :
    ∃ s', s'.memory = s.memory ∧ s'.tables = s.tables ∧
      ((∃ r, scanIdentities rows result s = (.ok r, s')) ∨ ∃ e, scanIdentities rows result s = (.err e, s')) := by
  induction rows generalizing result s with
  | nil =>
    refine ⟨s.called, rfl, rfl, ?_⟩
    by_cases hf : s.NextFails
    · exact .inr ⟨_, bind_err (call_of_fails hf)⟩
    · exact .inl ⟨result, bind_ok (call_of_not_fails hf)⟩
  | cons row rows ih =>
    by_cases hf : s.NextFails
    · exact ⟨s.called, rfl, rfl, .inr ⟨_, bind_err (call_of_fails hf)⟩⟩
    · unfold scanIdentities
      rw [bind_ok (call_of_not_fails hf)]
      exact ih _ s.called

theorem cacheFetchedIdentities_agrees {fetched : Bytes → Option Key} (addresses : List Bytes) (result : GoMap Bytes Key)
    (hs : AgreesOn P s) (hfetched : ∀ a ∈ addresses, fetched a = identityRow s a) :
    ∃ r s', cacheFetchedIdentities fetched addresses result s = (.ok r, s') ∧ AgreesOn P s' := by
  induction addresses generalizing s result with
  | nil => exact ⟨result, s, rfl, hs⟩
  | cons address addresses ih =>
    have hrest : ∀ a ∈ addresses, fetched a = identityRow s a := fun a ha => hfetched a (mem_cons_of_mem _ ha)
    unfold cacheFetchedIdentities
    rw [get_bind]
    rcases s.memory.identityCache.lookup address with _ | _ | current
    · obtain ⟨s', hrun, ha⟩ := hs.write s address rfl (hfetched address mem_cons_self).symm fun _ _ => rfl
      have htables : s'.tables = s.tables := by cases hrun; rfl
      obtain ⟨r, s'', hrest, ha'⟩ := ih result ha fun a hmem => by rw [hrest a hmem, identityRow, identityRow, htables]
      exact ⟨r, s'', (bind_ok hrun).trans hrest, ha'⟩
    · exact ih _ hs hrest
    · exact ih _ hs hrest

/-- a result in any order has the row of an address, if there is one -/
theorem lookup_of_perm {rows : List (Bytes × Key)} {missing : List Bytes} {t : GoMap Bytes Key}
    (hperm : rows.Perm (t.rows.filter fun r => r.1 ∈ missing)) (ha : address ∈ missing) :
    rows.lookup address = t.lookup address := by
  have hmem : ∀ k, (address, k) ∈ rows ↔ t.lookup address = some k := by
    intro k
    rw [hperm.mem_iff, mem_filter, GoMap.mem_rows]
    exact and_iff_left (decide_eq_true ha)
  cases hl : rows.lookup address with
  | none =>
    cases ht : t.lookup address with
    | none => rfl
    | some k => exact absurd (lookup_eq_none_iff.1 hl _ ((hmem k).2 ht)) (by simp)
  | some k =>
    obtain ⟨l₁, l₂, hrows, _⟩ := lookup_eq_some_iff.1 hl
    exact ((hmem k).1 (by rw [hrows]; simp)).symm

theorem clean_fetchIdentities (missing : List Bytes) (result : GoMap Bytes Key) :
    Clean P (fetchIdentities missing result) := by
  intro s hs
  unfold fetchIdentities
  by_cases hf : s.NextFails
  · exact .inr ⟨_, _, bind_err (bind_err (call_of_fails hf)), rfl, rfl⟩
  obtain ⟨rows, picks, hshuffle, hperm⟩ := shuffle_perm (ε := StoreError)
    (s.tables.identityKeys.rows.filter fun r => r.1 ∈ missing) s.called
  have hquery : query StoreError.database (fun t => t.identityKeys.rows.filter fun r => r.1 ∈ missing) s =
      (.ok rows, { s.called with picks := picks }) := by
    unfold query
    rw [bind_ok (call_of_not_fails hf)]
    exact hshuffle
  rw [bind_ok hquery]
  obtain ⟨s₁, hmemory, htables, hscan⟩ := scanIdentities_spec rows result { s.called with picks := picks }
  rcases hscan with ⟨r, hscan⟩ | ⟨e, hscan⟩
  · rw [bind_ok hscan]
    obtain ⟨order, picks', horder, hperm'⟩ := shuffle_perm (ε := StoreError) missing s₁
    rw [bind_ok horder]
    refine .inl (cacheFetchedIdentities_agrees order r (hs.of_eq (congrArg _ hmemory) htables) ?_)
    intro a ha
    have hrow : identityRow s₁ a = identityRow s a := by rw [identityRow, htables]; rfl
    refine Eq.trans ?_ hrow.symm
    exact lookup_of_perm hperm (hperm'.mem_iff.1 ha)
  · exact .inr ⟨e, s₁, bind_err hscan, congrArg _ hmemory, htables⟩

theorem clean_getManyIdentities (addresses : List Bytes) : Clean P (getManyIdentities addresses) := by
  intro s hs
  unfold getManyIdentities
  rw [get_bind]
  split_ifs
  · exact .inl ⟨_, s, rfl, hs⟩
  · rcases clean_fetchIdentities _ _ s hs with ⟨r, s', hrun, ha⟩ | ⟨e, s', hrun, hc⟩
    · exact .inl ⟨_, s', bind_ok hrun, ha⟩
    · exact .inr ⟨e, s', bind_err hrun, hc⟩

/-! ### `MigratePNToLID` -/

variable {inTxn sqlite : Bool} {now : ℕ} {pn lid : Bytes}

theorem onTables_migrateTable (table : MigratedTable) (copy delete : SignalTables → SignalTables)
    (count : SignalTables → ℕ) : OnTables (migrateTable table copy delete count) :=
  OnTables.get.bind fun _ => (OnTables.exec _ _).bind fun _ => (OnTables.call _).bind fun _ =>
    (OnTables.exec _ _).bind fun _ => OnTables.pure _

theorem onTables_doTxn (inTxn : Bool) (pn lid : Bytes) : OnTables (doTxn inTxn (migrateRows pn lid)) := by
  have hrows : OnTables (migrateRows pn lid) :=
    (onTables_migrateTable _ _ _ _).bind fun _ => (onTables_migrateTable _ _ _ _).bind fun _ =>
      (onTables_migrateTable _ _ _ _).bind fun _ => OnTables.pure _
  cases inTxn with
  | true => exact hrows
  | false => exact hrows.transaction _


end Hypermeow.Store
