/-
Maps with a bound on their number of entries.

A map is an association list without duplicate keys, `AList`. An iteration over a map may start anywhere: `someKey first m`
is the key that it starts at, where `first` is whatever the runtime picked. A new key of a full map takes the place of some
other key.

- `at0`: the value of a key, with the zero value for a key that is not there.
- `Within m' m`: every entry of `m'` is an entry of `m`. Deleting keys leaves a map within the old one.
- `putBounded`: a bounded insert; what it leaves (`lookup_putBounded`) and that it keeps the bound.
- `insertAll`: one insert for each key of a list.
- `rows`, `upsert`, `mapValues`, `deleteWhere`: a map as a table with a primary key, and what its statements do to a lookup.
-/
import Mathlib.Data.List.AList
import Mathlib.Tactic

namespace Hypermeow.Lib

open List AList

/-- steps that set what is seen to one value, or leave it -/
theorem foldl_ite {α β γ : Type} {f : β → α → β} {g : β → γ} {p : α → Prop} [DecidablePred p] {v : γ} {l : List α}
    (h : ∀ b, ∀ a ∈ l, g (f b a) = if p a then v else g b) (b : β) :
    g (l.foldl f b) = if ∃ a ∈ l, p a then v else g b := by
  induction l generalizing b with
  | nil => simp
  | cons a l ih =>
    rw [foldl_cons, ih fun b a' ha' => h b a' (mem_cons_of_mem a ha'), h b a mem_cons_self]
    by_cases ha : p a <;> by_cases hl : ∃ a' ∈ l, p a' <;> simp [ha, hl]

/-- a map from `κ` to `ν` -/
abbrev GoMap (κ ν : Type) := AList fun _ : κ => ν

namespace GoMap

variable {κ ν : Type} [DecidableEq κ] {m m' m'' : GoMap κ ν} {k k' : κ} {v w : ν}

/-- `m[k]` -/
def at0 [Inhabited ν] (m : GoMap κ ν) (k : κ) : ν := (m.lookup k).getD default

/-- the key at which an iteration over the map starts -/
def someKey (first : ℕ) (m : GoMap κ ν) : Option κ := m.keys[first % m.keys.length]?

theorem mem_of_lookup (h : m.lookup k = some v) : k ∈ m := lookup_isSome.1 (by rw [h]; rfl)

theorem lookup_of_mem (h : k ∈ m) : ∃ v, m.lookup k = some v := Option.isSome_iff_exists.1 (lookup_isSome.2 h)

omit [DecidableEq κ] in
theorem mem_of_someKey {first : ℕ} (h : someKey first m = some k) : k ∈ m :=
  mem_keys.2 (mem_of_getElem? h)

omit [DecidableEq κ] in
/-- an iteration over a map with entries has a first key -/
theorem exists_someKey (first : ℕ) (h : 0 < m.keys.length) : ∃ k, someKey first m = some k :=
  ⟨_, getElem?_eq_getElem (Nat.mod_lt first h)⟩

theorem at0_of_lookup [Inhabited ν] (h : m.lookup k = some v) : m.at0 k = v := by rw [at0, h]; rfl

/-- a value that is not the zero value comes from an entry -/
theorem lookup_of_at0_ne [Inhabited ν] (h : m.at0 k ≠ default) : m.lookup k = some (m.at0 k) := by
  unfold at0 at h ⊢
  cases hl : m.lookup k with
  | none => rw [hl] at h; exact absurd rfl h
  | some v => rfl

theorem lookup_insert_eq : (m.insert k v).lookup k' = if k' = k then some v else m.lookup k' := by
  split_ifs with h
  · rw [h, lookup_insert]
  · rw [lookup_insert_ne h]

theorem lookup_erase_eq : (m.erase k).lookup k' = if k' = k then none else m.lookup k' := by
  split_ifs with h
  · rw [h, lookup_erase]
  · rw [lookup_erase_ne h]

/-! ## Fewer entries -/

/-- every entry of `m'` is an entry of `m` -/
def Within (m' m : GoMap κ ν) : Prop := ∀ k v, m'.lookup k = some v → m.lookup k = some v

theorem Within.refl (m : GoMap κ ν) : Within m m := fun _ _ h => h

theorem Within.trans (h₁ : Within m'' m') (h₂ : Within m' m) : Within m'' m := fun k v h => h₂ k v (h₁ k v h)

theorem within_erase (k : κ) (m : GoMap κ ν) : Within (m.erase k) m := by
  intro k' v h
  rw [lookup_erase_eq] at h
  split_ifs at h with hk
  exact h

theorem Within.mem (h : Within m' m) (hk : k ∈ m') : k ∈ m := by
  obtain ⟨v, hv⟩ := lookup_of_mem hk
  exact mem_of_lookup (h k v hv)

theorem Within.keys_length_le (h : Within m' m) : m'.keys.length ≤ m.keys.length :=
  (m'.keys_nodup.subperm fun _ hk => mem_keys.1 (h.mem (mem_keys.2 hk))).length_le

theorem keys_length_erase (h : k ∈ m) : (m.erase k).keys.length + 1 = m.keys.length := by
  rw [keys_erase, length_erase_of_mem (mem_keys.1 h)]
  exact Nat.sub_add_cancel (length_pos_of_mem (mem_keys.1 h))

/-- an insert needs room for one entry beside the others -/
theorem keys_length_insert : (m.insert k v).keys.length = (m.erase k).keys.length + 1 := by
  rw [keys_insert, keys_erase, length_cons]

theorem Within.erase (h : Within m' m) (k : κ) : Within (m'.erase k) (m.erase k) := by
  intro k' v hv
  rw [lookup_erase_eq] at hv ⊢
  split_ifs at hv ⊢ with hk
  exact h k' v hv

theorem Within.keys_length_insert_le (h : Within m' m) (k : κ) (v w : ν) :
    (m'.insert k v).keys.length ≤ (m.insert k w).keys.length := by
  rw [keys_length_insert, keys_length_insert]
  exact Nat.succ_le_succ (h.erase k).keys_length_le

theorem keys_length_insert_of_mem (h : k ∈ m) : (m.insert k v).keys.length = m.keys.length := by
  rw [keys_length_insert, keys_length_erase h]

theorem keys_length_insert_le : (m.insert k v).keys.length ≤ m.keys.length + 1 := by
  rw [keys_length_insert]
  exact Nat.succ_le_succ (within_erase k m).keys_length_le

/-! ## Bounded inserts -/

/-- a new key of a full map takes the place of the key that an iteration meets first -/
def putBounded (limit first : ℕ) (m : GoMap κ ν) (k : κ) (v : ν) : GoMap κ ν :=
  if k ∉ m ∧ limit ≤ m.keys.length then
    match someKey first m with
    | some old => (m.erase old).insert k v
    | none => m.insert k v
  else m.insert k v

/-- the new entry is there, the others are old ones -/
theorem putBounded_eq (limit first : ℕ) (m : GoMap κ ν) (k : κ) (v : ν) :
    ∃ m', Within m' m ∧ putBounded limit first m k v = m'.insert k v := by
  unfold putBounded
  split_ifs
  · split
    · exact ⟨_, within_erase _ m, rfl⟩
    · exact ⟨m, .refl m, rfl⟩
  · exact ⟨m, .refl m, rfl⟩

theorem lookup_putBounded {limit first : ℕ} (h : (putBounded limit first m k v).lookup k' = some w) :
    (k' = k ∧ w = v) ∨ (k' ≠ k ∧ m.lookup k' = some w) := by
  obtain ⟨m', hm, he⟩ := putBounded_eq limit first m k v
  rw [he, lookup_insert_eq] at h
  split_ifs at h with hk
  · cases h
    exact .inl ⟨hk, rfl⟩
  · exact .inr ⟨hk, hm _ _ h⟩

/-! ## Many inserts -/

/-- `m[k] = f(k)` for each key of the list -/
def insertAll (ks : List κ) (f : κ → ν) (m : GoMap κ ν) : GoMap κ ν := ks.foldl (fun m k => m.insert k (f k)) m

theorem lookup_insertAll (ks : List κ) (f : κ → ν) (m : GoMap κ ν) :
    (insertAll ks f m).lookup k = if k ∈ ks then some (f k) else m.lookup k := by
  have hstep : ∀ (m : GoMap κ ν), ∀ a ∈ ks, (m.insert a (f a)).lookup k = if k = a then some (f k) else m.lookup k := by
    intro m a _
    rw [lookup_insert_eq]
    split_ifs with h
    · rw [h]
    · rfl
  simpa [insertAll] using foldl_ite hstep m

/-! ## Maps as tables -/

/-- the entries as rows -/
def rows (m : GoMap κ ν) : List (κ × ν) := m.entries.map fun e => (e.1, e.2)

theorem mem_rows : (k, v) ∈ m.rows ↔ m.lookup k = some v := by
  rw [← Option.mem_def, mem_lookup_iff, rows, mem_map]
  constructor
  · rintro ⟨e, he, heq⟩
    cases heq
    exact he
  · intro he
    exact ⟨_, he, rfl⟩

/-- `INSERT … ON CONFLICT DO UPDATE` of each row; of two rows for one key the later one stays -/
def upsert (m : GoMap κ ν) (rows : List (κ × ν)) : GoMap κ ν := rows.foldl (fun m r => m.insert r.1 r.2) m

/-- the rows for a key, when they agree on its value -/
theorem lookup_upsert {rows : List (κ × ν)} {o : Option ν} (h : ∀ r ∈ rows, r.1 = k → some r.2 = o) (m : GoMap κ ν) :
    (m.upsert rows).lookup k = if ∃ r ∈ rows, r.1 = k then o else m.lookup k := by
  refine foldl_ite (g := fun m : GoMap κ ν => m.lookup k) (fun m r hr => ?_) m
  rw [lookup_insert_eq]
  by_cases hk : r.1 = k
  · rw [if_pos hk.symm, if_pos hk, h r hr hk]
  · rw [if_neg (Ne.symm hk), if_neg hk]

theorem lookup_upsert_of_not_mem {rows : List (κ × ν)} (h : ∀ r ∈ rows, r.1 ≠ k) (m : GoMap κ ν) :
    (m.upsert rows).lookup k = m.lookup k := by
  rw [lookup_upsert (o := none) fun r hr hk => absurd hk (h r hr), if_neg]
  rintro ⟨r, hr, hk⟩
  exact h r hr hk

/-- `UPDATE … SET`: a new value for each row -/
def mapValues (f : κ → ν → ν) (m : GoMap κ ν) : GoMap κ ν :=
  ⟨m.entries.map (Sigma.map id f), NodupKeys.map₂ f m.entries m.nodupKeys⟩

theorem lookup_mapValues (f : κ → ν → ν) (m : GoMap κ ν) : (m.mapValues f).lookup k = (m.lookup k).map (f k) :=
  dlookup_map₂ k

theorem mem_mapValues {f : κ → ν → ν} : k ∈ m.mapValues f ↔ k ∈ m := by
  rw [← lookup_isSome, lookup_mapValues, Option.isSome_map, lookup_isSome]

/-- `DELETE … WHERE` -/
def deleteWhere (p : κ → Bool) (m : GoMap κ ν) : GoMap κ ν := (m.keys.filter p).foldl (fun m k => m.erase k) m

theorem lookup_foldl_erase (ks : List κ) (m : GoMap κ ν) :
    (ks.foldl (fun m k => m.erase k) m).lookup k = if k ∈ ks then none else m.lookup k := by
  have hstep : ∀ (m : GoMap κ ν), ∀ a ∈ ks, (m.erase a).lookup k = if k = a then none else m.lookup k :=
    fun _ _ _ => lookup_erase_eq
  simpa using foldl_ite hstep m

theorem lookup_deleteWhere (p : κ → Bool) (m : GoMap κ ν) :
    (m.deleteWhere p).lookup k = if p k then none else m.lookup k := by
  rw [deleteWhere, lookup_foldl_erase]
  by_cases hp : p k = true
  · rw [if_pos hp]
    split_ifs with hk
    · rfl
    · refine lookup_eq_none.2 fun hmem => hk (mem_filter.2 ⟨mem_keys.1 hmem, hp⟩)
  · rw [if_neg hp, if_neg fun hk => hp (mem_filter.1 hk).2]

end GoMap

end Hypermeow.Lib
