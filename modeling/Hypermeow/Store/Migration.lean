/-
What `MigratePNToLID` does to the rows of a phone number, of its LID and of everyone else.

The addresses in the tables are `user:device` with a user that has no colon in it and a device number of 16 bits. The
migration should move the rows of the phone number to the LID, device by device, over those that the LID has, and leave
the rows of other users alone (`Preserved`).

`migration_preserves_iff`: it does so on all tables with such addresses exactly if the phone number's address user
- has a colon in it (then nothing is touched), or
- has no `_` and no `%`, is not part of any device number in decimal (so it is not empty), and `pn:` is not at the start of
  `lid:` (for a LID without a colon: the two are not the same).

The hosted domain puts an underscore into an address user, so `hosted_migration_takes_others`: the migration of a hosted
phone number deletes the identity key of another user.
-/
import Hypermeow.Store.SignalStore

namespace Hypermeow.Store

open Lib Types Session Go List

/-! ## Addresses -/

def colon : UInt8 := 58

/-- the address of a device of a user -/
def deviceAddress (user : Bytes) (device : UInt16) : Bytes := SignalAddress.string ⟨user, device.toUInt32⟩

variable {u u' pn lid address : Bytes} {d d' : UInt16}

theorem deviceAddress_eq (u : Bytes) (d : UInt16) : deviceAddress u d = u ++ colon :: formatUint d.toNat := by
  rw [deviceAddress, SignalAddress.string, append_assoc]
  rfl

theorem colon_not_mem_formatUint (n : ℕ) : colon ∉ formatUint n := notMem_formatUint rfl n

theorem deviceAddress_inj (h : deviceAddress u d = deviceAddress u' d') : u = u' ∧ d = d' := by
  have haddress := SignalAddress.string_injective h
  simp only [SignalAddress.mk.injEq] at haddress
  obtain ⟨hu, hd⟩ := haddress
  exact ⟨hu, UInt16.toUInt32_inj.1 hd⟩

/-- an address starts with `pn:` for one user only -/
theorem prefix_colon {a b x : Bytes} (ha : colon ∉ a) (hb : colon ∉ b) (h : a ++ [colon] <+: b ++ colon :: x) : a = b := by
  induction a generalizing b with
  | nil =>
    cases b with
    | nil => rfl
    | cons w b =>
      obtain ⟨rest, hrest⟩ := h
      exact absurd (cons.inj hrest).1 fun he => hb (he ▸ mem_cons_self)
  | cons w a ih =>
    cases b with
    | nil =>
      obtain ⟨rest, hrest⟩ := h
      exact absurd (cons.inj hrest).1 fun he => ha (he ▸ mem_cons_self)
    | cons w' b =>
      rw [cons_append, cons_append, cons_prefix_cons] at h
      rw [h.1, ih (fun hc => ha (mem_cons_of_mem w hc)) (fun hc => hb (mem_cons_of_mem w' hc)) h.2]

/-- `pn:` at the start of an address is at the start of its `user:` -/
theorem prefix_address_iff (hpn : colon ∉ pn) : pn ++ [colon] <+: deviceAddress u d ↔ pn ++ [colon] <+: u ++ [colon] := by
  rw [deviceAddress_eq]
  have hshort : u ++ [colon] <+: u ++ colon :: formatUint d.toNat := ⟨formatUint d.toNat, by simp⟩
  constructor
  · intro h
    rcases prefix_or_prefix_of_prefix h hshort with h | h
    · exact h
    -- the other way round the two are equal: `pn` has no colon of its own
    · have hle : u.length ≤ pn.length := by simpa using h.length_le
      have hu : u <+: pn := prefix_of_prefix_length_le ((prefix_append u [colon]).trans h)
        (prefix_append pn [colon]) hle
      rw [prefix_colon (fun hc => hpn (hu.subset hc)) hpn h]
  · intro h
    exact h.trans hshort

/-- the IDs that the tables have -/
def IsAddress (id : Bytes) : Prop := ∃ u d, colon ∉ u ∧ id = deviceAddress u d

theorem prefix_address_eq (hpn : colon ∉ pn) (hu : colon ∉ u) : pn ++ [colon] <+: deviceAddress u d ↔ u = pn := by
  rw [prefix_address_iff hpn]
  constructor
  · intro h
    exact (prefix_colon hpn hu h).symm
  · rintro rfl
    exact prefix_rfl

theorem count_colon_address (hu : colon ∉ u) : (deviceAddress u d).count colon = 1 := by
  rw [deviceAddress_eq, count_append, count_cons_self, count_eq_zero.2 hu,
    count_eq_zero.2 (colon_not_mem_formatUint _)]

/-! ## Which rows are the phone number's -/

theorem inSignalAddressRange_iff : inSignalAddressRange pn address = true ↔ pn ++ [colon] <+: address :=
  Sql.inRange_iff pn address

/-- `LIKE` is a range only for texts without wildcards -/
theorem likeAddress_iff (hu : Sql.underscore ∉ pn) (hp : Sql.percent ∉ pn) :
    likeAddress pn address = true ↔ pn ++ [colon] <+: address := by
  have hpat : pn ++ ascii ":%" = pn ++ [colon] ++ [Sql.percent] := by
    rw [append_assoc]
    rfl
  rw [likeAddress, hpat, Sql.like_literal]
  intro w hw
  rcases mem_append.1 hw with hw | hw
  · exact ⟨fun he => hu (he ▸ hw), fun he => hp (he ▸ hw)⟩
  · rw [mem_singleton.1 hw]
    decide

/-- the pattern of a user with a colon matches no address -/
theorem not_likeAddress_of_colon (hpn : colon ∈ pn) (ha : IsAddress address) : ¬likeAddress pn address = true := by
  obtain ⟨u, d, hu, rfl⟩ := ha
  intro h
  have hcount := Sql.count_le_of_like (c := colon) (by decide) (by decide) h
  have hpos : 0 < pn.count colon := count_pos_iff.2 hpn
  have htwo : (pn ++ ascii ":%").count colon = pn.count colon + 1 := count_append
  rw [count_colon_address hu, htwo] at hcount
  omega

theorem not_prefix_of_colon (hpn : colon ∈ pn) (ha : IsAddress address) : ¬pn ++ [colon] <+: address := by
  obtain ⟨u, d, hu, rfl⟩ := ha
  intro h
  have hcount := h.sublist.count_le colon
  have hpos : 0 < pn.count colon := count_pos_iff.2 hpn
  rw [count_colon_address hu, count_append, count_cons_self] at hcount
  omega

/-! ## One table -/

/-- an ID in the key of a table, and the key with another ID -/
structure IDField (κ : Type) where
  id : κ → Bytes
  withID : κ → Bytes → κ
  id_withID : ∀ k b, id (withID k b) = b
  withID_id : ∀ k, withID k (id k) = k
  withID_withID : ∀ k b c, withID (withID k b) c = withID k c

/-- the key is the ID -/
def theirID : IDField Bytes := ⟨id, fun _ their => their, fun _ _ => rfl, fun _ => rfl, fun _ _ _ => rfl⟩

/-- the key is a chat and the ID -/
def senderID : IDField (Bytes × Bytes) :=
  ⟨Prod.snd, fun k sender => (k.1, sender), fun _ _ => rfl, fun _ => rfl, fun _ _ _ => rfl⟩

variable {κ ν : Type} [DecidableEq κ]

/-- what the migration does to a table: the copied rows, then the deletion -/
def moveRows (F : IDField κ) (pn lid : Bytes) (deleted : Bytes → Bool) (t : GoMap κ ν) : GoMap κ ν :=
  (t.upsert (copiedRows F.id F.withID pn lid t)).deleteWhere fun k => deleted (F.id k)

/-- the rows of `pn` are those of `lid` now, and the others are as they were -/
structure Preserved (pn lid : Bytes) (before after : Bytes → Option ν) : Prop where
  moved : ∀ d, after (deviceAddress lid d) = (before (deviceAddress pn d)).or (before (deviceAddress lid d))
  gone : ∀ d, after (deviceAddress pn d) = none
  others : ∀ u d, colon ∉ u → u ≠ pn → u ≠ lid → after (deviceAddress u d) = before (deviceAddress u d)

/-- `pn` is found in addresses exactly as their user -/
structure Plain (pn lid : Bytes) : Prop where
  no_underscore : Sql.underscore ∉ pn
  no_percent : Sql.percent ∉ pn
  not_in_device : ∀ d : UInt16, ¬pn <:+: formatUint d.toNat
  apart : ¬pn ++ [colon] <+: lid ++ [colon]

theorem Plain.nonempty (h : Plain pn lid) : pn ≠ [] := by
  rintro rfl
  exact h.not_in_device 0 nil_infix

/-- the replacement puts the LID for the user and leaves the device -/
theorem replace_address (hpn : colon ∉ pn) (hne : pn ≠ []) (lid : Bytes) (d : UInt16) :
    Sql.replace (deviceAddress pn d) pn lid = lid ++ colon :: Sql.replace (formatUint d.toNat) pn lid := by
  rw [deviceAddress_eq, Sql.replace_append hne, Sql.replace_cons]
  intro h
  cases pn with
  | nil => exact hne rfl
  | cons w pn => exact hpn ((cons_prefix_cons.1 h).1 ▸ mem_cons_self)

variable {F : IDField κ} {t : GoMap κ ν} {deleted : Bytes → Bool} {k : κ} {v : ν}

theorem mem_copiedRows : (k, v) ∈ copiedRows F.id F.withID pn lid t ↔
    ∃ k₀, t.lookup k₀ = some v ∧ likeAddress pn (F.id k₀) = true ∧ k = F.withID k₀ (Sql.replace (F.id k₀) pn lid) := by
  rw [copiedRows, mem_map]
  constructor
  · rintro ⟨⟨k₀, v₀⟩, hr, heq⟩
    obtain ⟨hrow, hlike⟩ := mem_filter.1 hr
    cases heq
    exact ⟨k₀, GoMap.mem_rows.1 hrow, hlike, rfl⟩
  · rintro ⟨k₀, hrow, hlike, rfl⟩
    exact ⟨(k₀, v), mem_filter.2 ⟨GoMap.mem_rows.2 hrow, hlike⟩, rfl⟩

theorem lookup_moveRows : (moveRows F pn lid deleted t).lookup k =
    if deleted (F.id k) then none else (t.upsert (copiedRows F.id F.withID pn lid t)).lookup k :=
  GoMap.lookup_deleteWhere _ _

/-- the copied rows are those of `pn`, at the same devices of `lid` -/
theorem mem_copiedRows_of_plain (hpn : colon ∉ pn) (hplain : Plain pn lid) (ht : ∀ k ∈ t, IsAddress (F.id k)) :
    (k, v) ∈ copiedRows F.id F.withID pn lid t ↔
      ∃ d, t.lookup (F.withID k (deviceAddress pn d)) = some v ∧ F.id k = deviceAddress lid d := by
  have hreplace : ∀ d, Sql.replace (deviceAddress pn d) pn lid = deviceAddress lid d := by
    intro d
    rw [replace_address hpn hplain.nonempty, Sql.replace_of_not_infix (hplain.not_in_device d), deviceAddress_eq]
  rw [mem_copiedRows]
  constructor
  · rintro ⟨k₀, hrow, hlike, rfl⟩
    obtain ⟨u, d, hu, hid⟩ := ht k₀ (GoMap.mem_of_lookup hrow)
    rw [hid, likeAddress_iff hplain.no_underscore hplain.no_percent, prefix_address_eq hpn hu] at hlike
    subst hlike
    refine ⟨d, ?_, ?_⟩
    · rw [F.withID_withID, ← hid, F.withID_id]
      exact hrow
    · rw [F.id_withID, hid, hreplace]
  · rintro ⟨d, hrow, hid⟩
    refine ⟨_, hrow, ?_, ?_⟩
    · rw [F.id_withID, likeAddress_iff hplain.no_underscore hplain.no_percent, prefix_address_iff hpn]
    · rw [F.id_withID, hreplace, F.withID_withID, ← hid, F.withID_id]

theorem preserved_of_plain (F : IDField κ) (t : GoMap κ ν) (hpn : colon ∉ pn) (hplain : Plain pn lid)
    (hdeleted : ∀ id, deleted id = true ↔ pn ++ [colon] <+: id) (ht : ∀ k ∈ t, IsAddress (F.id k)) (k : κ) :
    Preserved pn lid (fun id => t.lookup (F.withID k id)) fun id =>
      (moveRows F pn lid deleted t).lookup (F.withID k id) := by
  have hkept : ∀ u d, ¬pn ++ [colon] <+: u ++ [colon] →
      (moveRows F pn lid deleted t).lookup (F.withID k (deviceAddress u d)) =
        (t.upsert (copiedRows F.id F.withID pn lid t)).lookup (F.withID k (deviceAddress u d)) := by
    intro u d h
    rw [lookup_moveRows, F.id_withID, if_neg]
    rwa [hdeleted, prefix_address_iff hpn]
  refine ⟨fun d => ?_, fun d => ?_, fun u d hu hup hul => ?_⟩
  · rw [hkept lid d hplain.apart]
    -- at most one row is copied to this key
    have hrows : ∀ r ∈ copiedRows F.id F.withID pn lid t, r.1 = F.withID k (deviceAddress lid d) →
        some r.2 = t.lookup (F.withID k (deviceAddress pn d)) := by
      rintro ⟨k', v'⟩ hmem rfl
      obtain ⟨d', hrow', hid⟩ := (mem_copiedRows_of_plain hpn hplain ht).1 hmem
      rw [F.id_withID] at hid
      rw [← hrow', ← (deviceAddress_inj hid).2, F.withID_withID]
    rw [GoMap.lookup_upsert hrows]
    split_ifs with hex
    · obtain ⟨r, hr, hk⟩ := hex
      rw [← hrows r hr hk]
      rfl
    · cases hrow : t.lookup (F.withID k (deviceAddress pn d)) with
      | none => rfl
      | some v =>
        refine absurd ⟨(_, v), (mem_copiedRows_of_plain hpn hplain ht).2 ⟨d, ?_, F.id_withID _ _⟩, rfl⟩ hex
        rw [F.withID_withID]
        exact hrow
  · rw [lookup_moveRows, F.id_withID, if_pos]
    rw [hdeleted, prefix_address_iff hpn]
  · rw [hkept u d fun h => hup (prefix_colon hpn hu h).symm, GoMap.lookup_upsert_of_not_mem]
    rintro ⟨k', v'⟩ hmem rfl
    obtain ⟨d', _, hid⟩ := (mem_copiedRows_of_plain hpn hplain ht).1 hmem
    rw [F.id_withID] at hid
    exact hul (deviceAddress_inj hid).1

/-- a phone number with a colon has no rows, and nothing happens -/
theorem preserved_of_colon (F : IDField κ) (t : GoMap κ ν) (hpn : colon ∈ pn) (hdeleted : ∀ id, IsAddress id → ¬deleted id = true)
    (ht : ∀ k ∈ t, IsAddress (F.id k)) (k : κ) :
    Preserved pn lid (fun id => t.lookup (F.withID k id)) fun id =>
      (moveRows F pn lid deleted t).lookup (F.withID k id) := by
  have hnone : ∀ d, t.lookup (F.withID k (deviceAddress pn d)) = none := by
    intro d
    refine AList.lookup_eq_none.2 fun hmem => ?_
    obtain ⟨u, d', hu, hid⟩ := ht _ hmem
    rw [F.id_withID] at hid
    exact hu ((deviceAddress_inj hid).1 ▸ hpn)
  have hsame : ∀ k, (moveRows F pn lid deleted t).lookup k = t.lookup k := by
    intro k
    have hcopied : copiedRows F.id F.withID pn lid t = [] := by
      refine eq_nil_iff_forall_not_mem.2 fun r hmem => ?_
      obtain ⟨k₀, hrow, hlike, _⟩ := mem_copiedRows.1 hmem
      exact not_likeAddress_of_colon hpn (ht k₀ (GoMap.mem_of_lookup hrow)) hlike
    rw [lookup_moveRows, hcopied]
    split_ifs with hdel
    · have hk : k ∉ t := fun hmem => hdeleted _ (ht k hmem) hdel
      rw [AList.lookup_eq_none.2 hk]
    · rfl
  refine ⟨fun d => ?_, fun d => ?_, fun u d _ _ _ => ?_⟩
  · rw [hsame, hnone, Option.none_or]
  · rw [hsame, hnone]
  · rw [hsame]

/-! ## The three tables -/

namespace SignalTables

/-- the tables after the statements of the migration -/
def migrated (pn lid : Bytes) (t : SignalTables) : SignalTables where
  sessions := moveRows theirID pn lid (inSignalAddressRange pn) t.sessions
  identityKeys := moveRows theirID pn lid (likeAddress pn) t.identityKeys
  senderKeys := moveRows senderID pn lid (likeAddress pn) t.senderKeys

/-- the IDs of the tables are addresses of devices -/
structure WellFormed (t : SignalTables) : Prop where
  sessions : ∀ id ∈ t.sessions, IsAddress id
  identityKeys : ∀ id ∈ t.identityKeys, IsAddress id
  senderKeys : ∀ k ∈ t.senderKeys, IsAddress k.2

/-- all Signal state of `pn` is state of `lid` now -/
structure Moved (pn lid : Bytes) (before after : SignalTables) : Prop where
  sessions : Preserved pn lid before.sessions.lookup after.sessions.lookup
  identityKeys : Preserved pn lid before.identityKeys.lookup after.identityKeys.lookup
  senderKeys : ∀ chat, Preserved pn lid (fun id => before.senderKeys.lookup (chat, id)) fun id =>
    after.senderKeys.lookup (chat, id)

end SignalTables

/-- the phone numbers whose migration is right on all tables -/
def SafeToMigrate (pn lid : Bytes) : Prop := colon ∈ pn ∨ Plain pn lid

theorem moved_of_safe {t : SignalTables} (hsafe : SafeToMigrate pn lid) (ht : t.WellFormed) :
    SignalTables.Moved pn lid t (t.migrated pn lid) := by
  by_cases hpn : colon ∈ pn
  · have hrange : ∀ id, IsAddress id → ¬inSignalAddressRange pn id = true := fun id hid h =>
      not_prefix_of_colon hpn hid (inSignalAddressRange_iff.1 h)
    have hlike : ∀ id, IsAddress id → ¬likeAddress pn id = true := fun id hid => not_likeAddress_of_colon hpn hid
    exact ⟨preserved_of_colon theirID t.sessions hpn hrange ht.sessions [],
      preserved_of_colon theirID t.identityKeys hpn hlike ht.identityKeys [],
      fun chat => preserved_of_colon senderID t.senderKeys hpn hlike ht.senderKeys (chat, [])⟩
  · have hplain := hsafe.resolve_left hpn
    have hlike : ∀ id, likeAddress pn id = true ↔ pn ++ [colon] <+: id := fun id =>
      likeAddress_iff hplain.no_underscore hplain.no_percent
    exact ⟨preserved_of_plain theirID t.sessions hpn hplain (fun _ => inSignalAddressRange_iff) ht.sessions [],
      preserved_of_plain theirID t.identityKeys hpn hplain hlike ht.identityKeys [],
      fun chat => preserved_of_plain senderID t.senderKeys hpn hplain hlike ht.senderKeys (chat, [])⟩

/-! ## Calls -/

variable {inTxn sqlite : Bool} {now : ℕ} {s s' : SignalSession} {counts : Migrated}

theorem migrateTable_eq_ok {table : MigratedTable} {copy delete : SignalTables → SignalTables} {count : SignalTables → ℕ}
    {n : ℕ} (h : migrateTable table copy delete count s = (.ok n, s')) : s'.tables = delete (copy s.tables) := by
  unfold migrateTable at h
  obtain ⟨_, s₀, hget, h⟩ := bind_eq_ok.1 h
  obtain ⟨_, s₁, hcopy, h⟩ := bind_eq_ok.1 h
  obtain ⟨_, s₂, hcount, h⟩ := bind_eq_ok.1 h
  obtain ⟨_, s₃, hdelete, h⟩ := bind_eq_ok.1 h
  cases hget
  obtain ⟨_, ht₁, rfl⟩ := exec_eq_ok hcopy
  rw [call_eq_ok hcount] at hdelete
  obtain ⟨_, ht₃, rfl⟩ := exec_eq_ok hdelete
  cases h
  cases ht₁
  cases ht₃
  rfl

theorem migrateRows_eq_ok (h : migrateRows pn lid s = (.ok counts, s')) : s'.tables = s.tables.migrated pn lid := by
  unfold migrateRows at h
  obtain ⟨_, s₁, hsessions, h⟩ := bind_eq_ok.1 h
  obtain ⟨_, s₂, hidentityKeys, h⟩ := bind_eq_ok.1 h
  obtain ⟨_, s₃, hsenderKeys, h⟩ := bind_eq_ok.1 h
  cases h
  rw [migrateTable_eq_ok hsenderKeys, migrateTable_eq_ok hidentityKeys, migrateTable_eq_ok hsessions]
  rfl

theorem doTxn_eq_ok {α : Type} {body : Go SignalSession StoreError α} {a : α} (h : doTxn inTxn body s = (.ok a, s')) :
    ∃ s₁ s₂, body s₁ = (.ok a, s₂) ∧ s₁.tables = s.tables ∧ s'.tables = s₂.tables := by
  cases inTxn with
  | true => exact ⟨s, s', h, rfl, rfl⟩
  | false =>
    obtain ⟨s₂, hbody, rfl⟩ := transaction_eq_ok h
    exact ⟨s.called, s₂, hbody, rfl, rfl⟩

theorem finishMigration_eq_ok {res : Except StoreError Migrated} {counts : Option Migrated}
    (h : finishMigration pn res s = (.ok counts, s')) : ∃ m, res = .ok m ∧ s'.tables = s.tables := by
  cases res with
  | error e =>
    obtain ⟨_, _, _, h⟩ := bind_eq_ok.1 h
    obtain ⟨_, _, _, h⟩ := bind_eq_ok.1 h
    cases h
  | ok m =>
    obtain ⟨_, _, hpick, h⟩ := bind_eq_ok.1 h
    obtain ⟨_, _, hfinish, h⟩ := bind_eq_ok.1 h
    obtain ⟨_, _, hclear, h⟩ := bind_eq_ok.1 h
    cases hpick
    cases hfinish
    cases hclear
    cases h
    exact ⟨m, rfl, rfl⟩

theorem runMigration_eq_ok {counts : Option Migrated} (h : runMigration inTxn pn lid s = (.ok counts, s')) :
    s'.tables = s.tables.migrated pn lid := by
  obtain ⟨res, s₁, htxn, hfinish⟩ := bind_eq_ok.1 h
  obtain ⟨m, rfl, htables⟩ := finishMigration_eq_ok hfinish
  obtain ⟨s₂, s₃, hbody, hbefore, hafter⟩ := doTxn_eq_ok (attempt_eq_ok.1 htxn)
  rw [htables, hafter, migrateRows_eq_ok hbody, hbefore]

theorem migrateChecked_eq_some {rows : Except StoreError Bool}
    (h : migrateChecked inTxn pn lid now rows s = (.ok (some counts), s')) : s'.tables = s.tables.migrated pn lid := by
  rcases rows with e | _ | _
  · exact runMigration_eq_ok h
  · obtain ⟨_, _, _, h⟩ := bind_eq_ok.1 h
    obtain ⟨_, _, _, h⟩ := bind_eq_ok.1 h
    cases h
  · exact runMigration_eq_ok h

theorem checkPNRows_run (sqlite : Bool) (pn : Bytes) (s : SignalSession) : checkPNRows sqlite pn s =
    (.ok (if s.NextFails then .error .database else .ok (s.tables.hasPNRowsToMigrate sqlite pn)), s.called) := by
  unfold checkPNRows Go.attempt
  by_cases h : s.NextFails
  · rw [bind_err (call_of_fails h), if_pos h]
  · rw [bind_ok (call_of_not_fails h), if_neg h]
    rfl

/-- a call that runs its transaction leaves the migrated tables -/
theorem migratePNToLID_eq_some {pn lid : JID} (h : migratePNToLID inTxn sqlite now pn lid s = (.ok (some counts), s')) :
    s'.tables = s.tables.migrated pn.signalAddressUser lid.signalAddressUser := by
  unfold migratePNToLID at h
  obtain ⟨_, s₀, hget, h⟩ := bind_eq_ok.1 h
  obtain ⟨_, s₁, hstart, h⟩ := bind_eq_ok.1 h
  cases hget
  cases hstart
  split_ifs at h with hskip
  · cases h
  · rw [bind_ok (checkPNRows_run ..)] at h
    exact (migrateChecked_eq_some h :)

/-- a new store of an account over the tables, without faults -/
def freshSession (t : SignalTables) : SignalSession := ⟨newSQLStore, t, [], []⟩

/-- a first call for a phone number with rows runs its transaction -/
theorem migratePNToLID_runs (t : SignalTables) (pn lid : JID)
    (hrows : t.hasPNRowsToMigrate true pn.signalAddressUser = true) :
    ∃ counts s', migratePNToLID false true 0 pn lid (freshSession t) = (.ok (some counts), s') := by
  -- nothing is known of the phone number yet and no call fails, so the code runs through
  have hrun : migratePNToLID false true 0 pn lid (freshSession t) =
      migrateChecked false pn.signalAddressUser lid.signalAddressUser 0
        (.ok (t.hasPNRowsToMigrate true pn.signalAddressUser))
        { freshSession t with memory := startMigration pn.signalAddressUser 0 newSQLStore } := rfl
  rw [hrun, hrows]
  exact ⟨_, _, rfl⟩

/-! ## Where it goes wrong -/

/-- tables with a session of one device of the phone number -/
def sessionOf (pn : Bytes) (d : UInt16) (keys : GoMap Bytes Key) : SignalTables :=
  ⟨AList.singleton (deviceAddress pn d) [], keys, ∅⟩

theorem sessionOf_wellFormed {keys : GoMap Bytes Key} (hpn : colon ∉ pn) (d : UInt16)
    (hkeys : ∀ a ∈ keys, IsAddress a) : (sessionOf pn d keys).WellFormed := by
  refine ⟨fun a ha => ⟨pn, d, hpn, ?_⟩, hkeys, fun k hk => ?_⟩
  · simpa [sessionOf, AList.mem_keys] using ha
  · exact absurd hk (AList.notMem_empty k)

theorem hasPNRows_sessionOf (pn : Bytes) (d : UInt16) (keys : GoMap Bytes Key) :
    (sessionOf pn d keys).hasPNRowsToMigrate true pn = true := by
  have hrange : inSignalAddressRange pn (deviceAddress pn d) = true :=
    inSignalAddressRange_iff.2 (by rw [deviceAddress_eq]; exact ⟨formatUint d.toNat, by simp⟩)
  simp [SignalTables.hasPNRowsToMigrate, sessionOf, hrange]

theorem lookup_sessionOf_self (keys : GoMap Bytes Key) :
    (sessionOf pn d keys).sessions.lookup (deviceAddress pn d) = some [] :=
  AList.lookup_insert ∅

theorem lookup_sessionOf_ne {keys : GoMap Bytes Key} (h : u ≠ pn) :
    (sessionOf pn d keys).sessions.lookup (deviceAddress u d') = none := by
  refine AList.lookup_eq_none.2 fun hmem => h ?_
  exact (deviceAddress_inj (mem_singleton.1 hmem)).1

/-- the rows of a LID that starts with `pn:` go with those of the phone number -/
theorem not_moved_of_prefix (hpn : colon ∉ pn) (h : pn ++ [colon] <+: lid ++ [colon]) :
    ¬SignalTables.Moved pn lid (sessionOf pn 0 ∅) ((sessionOf pn 0 ∅).migrated pn lid) := by
  intro hmoved
  have hgone : ((sessionOf pn 0 ∅).migrated pn lid).sessions.lookup (deviceAddress lid 0) = none :=
    lookup_moveRows.trans (if_pos (inSignalAddressRange_iff.2 ((prefix_address_iff hpn).2 h)))
  have hlid := hmoved.sessions.moved 0
  rw [hgone, lookup_sessionOf_self] at hlid
  cases hlid

/-- a device number with the phone number in it changes -/
theorem replace_address_ne (hpn : colon ∉ pn) (hne : pn ≠ lid) (h : pn <:+: formatUint d.toNat) :
    Sql.replace (deviceAddress pn d) pn lid ≠ deviceAddress lid d := by
  intro heq
  by_cases hnil : pn = []
  · subst hnil
    exact hne (deviceAddress_inj heq).1
  · rw [replace_address hpn hnil, deviceAddress_eq] at heq
    exact Sql.replace_ne hnil hne h (cons.inj (append_cancel_left heq)).2

theorem not_moved_of_infix (hpn : colon ∉ pn) (hne : pn ≠ lid) (h : pn <:+: formatUint d.toNat) :
    ¬SignalTables.Moved pn lid (sessionOf pn d ∅) ((sessionOf pn d ∅).migrated pn lid) := by
  intro hmoved
  have hlid := hmoved.sessions.moved d
  have hlost : ((sessionOf pn d ∅).migrated pn lid).sessions.lookup (deviceAddress lid d) = none := by
    refine lookup_moveRows.trans ?_
    split_ifs
    · rfl
    -- the one copied row is at another address
    · rw [GoMap.lookup_upsert_of_not_mem, lookup_sessionOf_ne hne.symm]
      rintro ⟨k, v⟩ hmem hk
      obtain ⟨k₀, hrow, _, rfl⟩ := mem_copiedRows.1 hmem
      have hk₀ : k₀ = deviceAddress pn d := mem_singleton.1 (AList.mem_keys.1 (GoMap.mem_of_lookup hrow))
      rw [hk₀] at hk
      exact replace_address_ne hpn hne h hk
  rw [hlost, lookup_sessionOf_self] at hlid
  cases hlid

/-- the wildcard of the phone number matches the byte of another user -/
theorem likeAddress_wild (a b : Bytes) {w c : UInt8} (hw : w = Sql.underscore ∨ w = Sql.percent) (d : UInt16) :
    likeAddress (a ++ w :: b) (deviceAddress (a ++ c :: b) d) = true := by
  rw [likeAddress, deviceAddress_eq, append_assoc, append_assoc]
  refine Sql.like_append a (Sql.like_wild hw (Sql.like_append b ?_))
  exact Sql.like_append [colon] (Sql.like_percent _)

theorem lookup_migrated_of_like {t : SignalTables} (h : likeAddress pn address = true) :
    (t.migrated pn lid).identityKeys.lookup address = none :=
  lookup_moveRows.trans (if_pos h)

theorem not_moved_of_wild {key : Key} (hu : u ≠ pn) (hl : u ≠ lid) (hc : colon ∉ u)
    (hlike : likeAddress pn (deviceAddress u 0) = true) :
    ¬SignalTables.Moved pn lid (sessionOf pn 0 (AList.singleton (deviceAddress u 0) key))
      ((sessionOf pn 0 (AList.singleton (deviceAddress u 0) key)).migrated pn lid) := by
  intro hmoved
  have hkept := hmoved.identityKeys.others u 0 hc hu hl
  rw [lookup_migrated_of_like hlike] at hkept
  exact absurd (hkept.trans (AList.lookup_insert ∅)) (by simp)

/-- another user whom the wildcards of the phone number match -/
theorem exists_user_of_wild {w : UInt8} (hpn : colon ∉ pn) (hw : w = Sql.underscore ∨ w = Sql.percent) (hmem : w ∈ pn)
    (lid : Bytes) : ∃ u, u ≠ pn ∧ u ≠ lid ∧ colon ∉ u ∧ likeAddress pn (deviceAddress u 0) = true := by
  obtain ⟨a, b, rfl⟩ := append_of_mem hmem
  have huser : ∀ c : UInt8, c ≠ colon → c ≠ w → a ++ c :: b ≠ lid →
      ∃ u, u ≠ a ++ w :: b ∧ u ≠ lid ∧ colon ∉ u ∧ likeAddress (a ++ w :: b) (deviceAddress u 0) = true := by
    intro c hcolon hcw hlid
    refine ⟨a ++ c :: b, fun h => hcw ?_, hlid, ?_, likeAddress_wild a b hw 0⟩
    · exact (cons.inj (append_cancel_left h)).1
    · simp only [mem_append, mem_cons, not_or] at hpn ⊢
      exact ⟨hpn.1, Ne.symm hcolon, hpn.2.2⟩
  -- of two such users one is not the LID's
  by_cases hlid : a ++ 48 :: b = lid
  · refine huser 49 (by decide) (by rcases hw with rfl | rfl <;> decide) ?_
    rw [← hlid]
    simp
  · exact huser 48 (by decide) (by rcases hw with rfl | rfl <;> decide) hlid

/-- a phone number that is not safe: tables on which its migration goes wrong -/
theorem exists_not_moved (h : ¬SafeToMigrate pn lid) : ∃ t : SignalTables, t.WellFormed ∧
    t.hasPNRowsToMigrate true pn = true ∧ ¬SignalTables.Moved pn lid t (t.migrated pn lid) := by
  obtain ⟨hpn, hplain⟩ := not_or.1 h
  have hempty : ∀ a ∈ (∅ : GoMap Bytes Key), IsAddress a := fun a ha => absurd ha (AList.notMem_empty a)
  have hwild : ∀ w ∈ pn, w = Sql.underscore ∨ w = Sql.percent → ∃ t : SignalTables, t.WellFormed ∧
      t.hasPNRowsToMigrate true pn = true ∧ ¬SignalTables.Moved pn lid t (t.migrated pn lid) := by
    intro w hmem hw
    obtain ⟨u, hu, hl, hc, hlike⟩ := exists_user_of_wild hpn hw hmem lid
    refine ⟨sessionOf pn 0 (AList.singleton (deviceAddress u 0) default), sessionOf_wellFormed hpn 0 fun a ha => ?_,
      hasPNRows_sessionOf .., not_moved_of_wild hu hl hc hlike⟩
    exact ⟨u, 0, hc, mem_singleton.1 ha⟩
  by_cases hunder : Sql.underscore ∈ pn
  · exact hwild _ hunder (.inl rfl)
  by_cases hpercent : Sql.percent ∈ pn
  · exact hwild _ hpercent (.inr rfl)
  by_cases happart : pn ++ [colon] <+: lid ++ [colon]
  · exact ⟨sessionOf pn 0 ∅, sessionOf_wellFormed hpn 0 hempty, hasPNRows_sessionOf .., not_moved_of_prefix hpn happart⟩
  by_cases hdevice : ∃ d : UInt16, pn <:+: formatUint d.toNat
  · obtain ⟨d, hd⟩ := hdevice
    have hne : pn ≠ lid := by
      rintro rfl
      exact happart prefix_rfl
    exact ⟨sessionOf pn d ∅, sessionOf_wellFormed hpn d hempty, hasPNRows_sessionOf .., not_moved_of_infix hpn hne hd⟩
  · exact absurd ⟨hunder, hpercent, fun d hd => hdevice ⟨d, hd⟩, happart⟩ hplain

/-- **Migration is safe exactly for plain phone numbers.** Every call that runs its transaction, on any tables with
addresses of devices, moves the Signal state of the phone number to the LID and leaves everyone else's alone, if and only
if the phone number's address user is found in addresses exactly as their user. -/
theorem migration_preserves_iff (pn lid : JID) :
    (∀ inTxn sqlite now s s' counts, s.tables.WellFormed →
      migratePNToLID inTxn sqlite now pn lid s = (.ok (some counts), s') →
      SignalTables.Moved pn.signalAddressUser lid.signalAddressUser s.tables s'.tables) ↔
    SafeToMigrate pn.signalAddressUser lid.signalAddressUser := by
  constructor
  · intro h
    by_contra hsafe
    obtain ⟨t, hwf, hrows, hnot⟩ := exists_not_moved hsafe
    obtain ⟨counts, s', hrun⟩ := migratePNToLID_runs t pn lid hrows
    have hmoved := h false true 0 (freshSession t) s' counts hwf hrun
    rw [migratePNToLID_eq_some hrun] at hmoved
    exact hnot hmoved
  · intro hsafe inTxn sqlite now s s' counts hwf hrun
    rw [migratePNToLID_eq_some hrun]
    exact moved_of_safe hsafe hwf

/-- device numbers have five digits -/
theorem not_in_device_of_long (h : 5 < pn.length) (d : UInt16) : ¬pn <:+: formatUint d.toNat := by
  intro hin
  have hlen : (formatUint d.toNat).length ≤ 5 := length_formatUint_le (by decide) (d.toNat_lt.trans (by decide))
  have := hin.length_le
  omega

/-- the session of a phone number's third device is found under the LID -/
theorem migration_preserves_iff_third_device :
    let pn := newJID (ascii "491761234567") defaultUserServer
    let lid := newJID (ascii "98765432") hiddenUserServer
    let s := freshSession (sessionOf pn.signalAddressUser 3 ∅)
    ∃ counts s', migratePNToLID false true 0 pn lid s = (.ok (some counts), s') ∧
      s'.tables.sessions.lookup (ascii "98765432_1:3") = some [] ∧
      s'.tables.sessions.lookup (ascii "491761234567:3") = none := by
  intro pn lid s
  have hsafe : SafeToMigrate pn.signalAddressUser lid.signalAddressUser :=
    .inr ⟨by decide, by decide, not_in_device_of_long (by decide), by decide⟩
  have hwf : s.tables.WellFormed :=
    sessionOf_wellFormed (by decide) 3 fun a ha => absurd ha (AList.notMem_empty a)
  obtain ⟨counts, s', hrun⟩ := migratePNToLID_runs s.tables pn lid (hasPNRows_sessionOf ..)
  have hmoved := (migration_preserves_iff pn lid).2 hsafe false true 0 s s' counts hwf hrun
  refine ⟨counts, s', hrun, ?_, hmoved.sessions.gone 3⟩
  have hlid := hmoved.sessions.moved 3
  rwa [show s.tables = sessionOf pn.signalAddressUser 3 ∅ from rfl, lookup_sessionOf_self] at hlid

/-- **A hosted migration takes another user's identity.** The address user of a hosted phone number `123` is `123_128`. Its
migration deletes the identity key of the user `1230128`. -/
theorem hosted_migration_takes_others :
    let pn := newJID (ascii "123") hostedServer
    let lid := newJID (ascii "98765432") hostedLIDServer
    let other := newJID (ascii "1230128") defaultUserServer
    let s := freshSession (sessionOf pn.signalAddressUser 0 (AList.singleton other.signalAddress.string default))
    other.signalAddressUser ≠ pn.signalAddressUser ∧ other.signalAddressUser ≠ lid.signalAddressUser ∧
      s.tables.WellFormed ∧ s.tables.identityKeys.lookup other.signalAddress.string = some default ∧
      ∃ counts s', migratePNToLID false true 0 pn lid s = (.ok (some counts), s') ∧
        s'.tables.identityKeys.lookup other.signalAddress.string = none := by
  intro pn lid other s
  have hwf : s.tables.WellFormed := sessionOf_wellFormed (by decide) 0 fun a ha =>
    ⟨other.signalAddressUser, 0, by decide, mem_singleton.1 ha⟩
  obtain ⟨counts, s', hrun⟩ := migratePNToLID_runs s.tables pn lid (hasPNRows_sessionOf ..)
  refine ⟨by decide, by decide, hwf, AList.lookup_insert ∅, counts, s', hrun, ?_⟩
  have hlike : likeAddress pn.signalAddressUser other.signalAddress.string = true := by decide
  rw [migratePNToLID_eq_some hrun]
  exact lookup_migrated_of_like hlike

end Hypermeow.Store
