/-
What the maps of the LID map have to do with its table.

`find` is the direct query and `put` the two statements of a write; `find_put` says what a write does to the queries. A map
is `Faithful` to a table if it says of each of its users what the query says, and `Filled` if it says it of every user. A
row that the table has can be inserted (`Faithful.cacheRow`); a row that is written is inserted along with the write
(`Faithful.put`, `Filled.put`). `Cached` is a list of insertions with any evictions.
-/
import Hypermeow.Store.LIDCache

namespace Hypermeow.Store

open Lib Types List

variable {m m' : CachedLIDMap} {t : LIDTable} {side : Side} {row : LIDRow} {rows : List LIDRow} {u v : Bytes}

/-! ## Queries and writes of the table -/

@[simp] theorem Side.other_other (side : Side) : side.other.other = side := by cases side <;> rfl

namespace LIDTable

theorem nodup_source (t : LIDTable) (side : Side) : (t.rows.map (·.source side)).Nodup := by
  cases side with
  | pn => exact t.unique
  | lid => exact t.primaryKey

variable {r : LIDRow}

/-- a side of a row determines the row -/
theorem eq_of_source (side : Side) {r' : LIDRow} (hr : r ∈ t.rows) (hr' : r' ∈ t.rows) (h : r.source side = r'.source side) :
    r = r' := inj_on_of_nodup_map (t.nodup_source side) hr hr' h

theorem find_eq_none : t.find side u = none ↔ ∀ r ∈ t.rows, r.source side ≠ u := by
  simp [find]

theorem find_of_mem (h : row ∈ t.rows) : t.find side (row.source side) = some (row.target side) := by
  unfold find
  cases hf : t.rows.find? fun r => r.source side = row.source side with
  | none => exact absurd rfl (of_decide_eq_false (Bool.not_eq_true _ ▸ find?_eq_none.1 hf row h))
  | some r =>
    have hs : r.source side = row.source side := by simpa using find?_some hf
    rw [eq_of_source side (mem_of_find?_eq_some hf) h hs]
    rfl

theorem find_eq_some : t.find side u = some v ↔ ∃ r ∈ t.rows, r.source side = u ∧ r.target side = v := by
  constructor
  · intro h
    obtain ⟨r, hr, hv⟩ := Option.map_eq_some_iff.1 h
    exact ⟨r, mem_of_find?_eq_some hr, by simpa using find?_some hr, hv⟩
  · rintro ⟨r, hr, rfl, rfl⟩
    exact find_of_mem hr

/-- a query from the other side -/
theorem find_other : t.find side u = some v ↔ t.find side.other v = some u := by
  simp only [find_eq_some, LIDRow.target, Side.other_other]
  exact exists_congr fun r => and_congr_right fun _ => And.comm

/-- the two statements of `unlockedPutLIDMapping` -/
def put (t : LIDTable) (row : LIDRow) : LIDTable :=
  ((t.deleteExistingLIDMapping row.lid row.pn).putLIDMapping row.lid row.pn).getD t

variable {lid pn : Bytes}

theorem mem_upserted : r ∈ t.upserted lid pn ↔ r = ⟨lid, pn⟩ ∨ (r ∈ t.rows ∧ r.lid ≠ lid) := by
  unfold upserted
  split_ifs with h
  · obtain ⟨r₀, hr₀, hlid⟩ := any_eq_true.1 h
    have hlid : r₀.lid = lid := by simpa using hlid
    rw [mem_map]
    constructor
    · rintro ⟨q, hq, rfl⟩
      split_ifs with hl
      · exact .inl rfl
      · exact .inr ⟨hq, hl⟩
    · rintro (rfl | ⟨hr, hl⟩)
      · exact ⟨r₀, hr₀, if_pos hlid⟩
      · exact ⟨r, hr, if_neg hl⟩
  · have hnone : ∀ q ∈ t.rows, q.lid ≠ lid := by simpa using h
    rw [mem_append, mem_singleton, or_comm]
    exact or_congr_right ⟨fun hr => ⟨hr, hnone r hr⟩, fun hr => hr.1⟩

theorem mem_deleteExisting :
    r ∈ (t.deleteExistingLIDMapping lid pn).rows ↔ r ∈ t.rows ∧ (r.pn = pn → r.lid = lid) := by
  unfold deleteExistingLIDMapping
  rw [mem_filter, decide_eq_true_iff, not_and']
  exact and_congr_right fun _ => imp_congr_right fun _ => not_ne_iff

/-- the insert violates no constraint once the other rows of the PN are gone -/
theorem putLIDMapping_of_unused (h : ∀ r ∈ t.rows, r.pn = pn → r.lid = lid) :
    ∃ t', t.putLIDMapping lid pn = some t' ∧ t'.rows = t.upserted lid pn := by
  have hlids : ((t.upserted lid pn).map (·.lid)).Nodup := by
    unfold upserted
    split_ifs with hany
    · rw [map_map]
      have hsame : ((fun r : LIDRow => r.lid) ∘ fun r => if r.lid = lid then ⟨lid, pn⟩ else r) = (·.lid) := by
        funext r
        simp only [Function.comp]
        split_ifs with hr
        · exact hr.symm
        · rfl
      rw [hsame]
      exact t.primaryKey
    · rw [map_append, map_singleton]
      refine nodup_append_comm.1 (nodup_cons.2 ⟨?_, t.primaryKey⟩)
      simpa using hany
  have hpns : ((t.upserted lid pn).map (·.pn)).Nodup := by
    refine Nodup.map_on ?_ hlids.of_map
    intro r hr r' hr' heq
    rcases mem_upserted.1 hr with rfl | ⟨hr, hlid⟩ <;> rcases mem_upserted.1 hr' with rfl | ⟨hr', hlid'⟩
    · rfl
    · exact absurd (h r' hr' heq.symm) hlid'
    · exact absurd (h r hr heq) hlid
    · exact eq_of_source .pn hr hr' heq
  unfold putLIDMapping
  rw [dif_pos ⟨hlids, hpns⟩]
  exact ⟨_, rfl, rfl⟩

/-- both statements succeed -/
theorem put_eq (t : LIDTable) (row : LIDRow) :
    (t.deleteExistingLIDMapping row.lid row.pn).putLIDMapping row.lid row.pn = some (t.put row) := by
  obtain ⟨t', h, -⟩ := putLIDMapping_of_unused (t := t.deleteExistingLIDMapping row.lid row.pn)
    fun r hr => (mem_deleteExisting.1 hr).2
  rw [put, h]
  rfl

/-- the row is there, and of the others those that share no user with it -/
theorem mem_put : r ∈ (t.put row).rows ↔ r = row ∨ (r ∈ t.rows ∧ ∀ side, r.source side ≠ row.source side) := by
  obtain ⟨t', h, hrows⟩ := putLIDMapping_of_unused (t := t.deleteExistingLIDMapping row.lid row.pn)
    fun r hr => (mem_deleteExisting.1 hr).2
  rw [put, h, Option.getD_some, hrows, mem_upserted, mem_deleteExisting, and_assoc]
  refine or_congr_right (and_congr_right fun _ => ⟨?_, fun hne => ⟨fun hpn => absurd hpn (hne .pn), hne .lid⟩⟩)
  rintro ⟨hpn, hlid⟩ side
  cases side with
  | pn => exact fun he => hlid (hpn he)
  | lid => exact hlid

/-- the query after a write -/
theorem find_put (t : LIDTable) (row : LIDRow) (side : Side) (u : Bytes) :
    (t.put row).find side u =
      if u = row.source side then some (row.target side)
      else if t.find side u = some (row.target side) then none else t.find side u := by
  split_ifs with hu hlost
  · rw [hu]
    exact find_of_mem (mem_put.2 (.inl rfl))
  -- the row of `u` had the target that now belongs to another user
  · refine find_eq_none.2 fun r hr he => ?_
    rcases mem_put.1 hr with rfl | ⟨hr, hne⟩
    · exact hu he.symm
    · have htarget : some (r.target side) = some (row.target side) := by rw [← find_of_mem hr, he, hlost]
      exact hne side.other (Option.some.inj htarget)
  · cases hfind : t.find side u with
    | none =>
      refine find_eq_none.2 fun r hr he => ?_
      rcases mem_put.1 hr with rfl | ⟨hr, -⟩
      · exact hu he.symm
      · exact find_eq_none.1 hfind r hr he
    | some w =>
      obtain ⟨r, hr, hs, ht⟩ := find_eq_some.1 hfind
      refine find_eq_some.2 ⟨r, mem_put.2 (.inr ⟨hr, fun side' he => ?_⟩), hs, ht⟩
      by_cases hside : side' = side
      · subst hside
        exact hu (hs.symm.trans he)
      · have hother : side' = side.other := by cases side <;> cases side' <;> simp_all [Side.other]
        subst hother
        exact hlost (by rw [hfind, ← ht]; exact congrArg some he)

/-- no user in the table is empty -/
def Users (t : LIDTable) : Prop := ∀ r ∈ t.rows, ∀ side, r.source side ≠ []

theorem Users.put (h : t.Users) (hrow : ∀ side, row.source side ≠ []) : (t.put row).Users := by
  intro r hr side
  rcases mem_put.1 hr with rfl | ⟨hr, -⟩
  · exact hrow side
  · exact h r hr side

theorem Users.find_ne (h : t.Users) (hfind : t.find side u = some v) : u ≠ [] ∧ v ≠ [] := by
  obtain ⟨r, hr, rfl, rfl⟩ := find_eq_some.1 hfind
  exact ⟨h r hr side, h r hr side.other⟩

end LIDTable

/-! ## Insertions, seen from one side -/

namespace CachedLIDMap

/-- `cacheMappingLocked` for a row -/
def cacheRow (m : CachedLIDMap) (row : LIDRow) (first first' : ℕ) : CachedLIDMap :=
  m.cacheMappingLocked row.lid row.pn first first'

variable {first first' : ℕ}

theorem Mirrored.other (h : m.Mirrored) (hu : u ≠ []) (hv : v ≠ []) :
    (m.sourceToTarget side).lookup u = some v ↔ (m.sourceToTarget side.other).lookup v = some u := by
  cases side with
  | pn => exact h u v hu hv
  | lid => exact (h v u hv hu).symm

theorem sourceToTarget_cacheRow (m : CachedLIDMap) (row : LIDRow) (first first' : ℕ) (side : Side) :
    (m.cacheRow row first first').sourceToTarget side =
      ((m.beforeInsert row.lid row.pn first first').sourceToTarget side).insert (row.source side) (row.target side) := by
  rw [cacheRow, cacheMappingLocked_eq]
  cases side <;> rfl

theorem cacheRow_cacheFilled : (m.cacheRow row first first').cacheFilled = m.cacheFilled := by
  rw [cacheRow, cacheMappingLocked_eq]

theorem Mirrored.cacheRow (h : m.Mirrored) : (m.cacheRow row first first').Mirrored :=
  (((h.detach row.lid row.pn).makeRoom .pn row.pn first).makeRoom .lid row.lid first').insert

theorem lookup_cacheRow_self (m : CachedLIDMap) (row : LIDRow) (first first' : ℕ) (side : Side) :
    ((m.cacheRow row first first').sourceToTarget side).lookup (row.source side) = some (row.target side) := by
  rw [sourceToTarget_cacheRow, AList.lookup_insert]

/-- the entries after an insertion: the new one, and old ones -/
theorem lookup_cacheRow (h : ((m.cacheRow row first first').sourceToTarget side).lookup u = some v) :
    (u = row.source side ∧ v = row.target side) ∨
      (u ≠ row.source side ∧ (m.sourceToTarget side).lookup u = some v) := by
  rw [sourceToTarget_cacheRow, GoMap.lookup_insert_eq] at h
  split_ifs at h with hu
  · cases h
    exact .inl ⟨hu, rfl⟩
  · exact .inr ⟨hu, beforeInsert_within m row.lid row.pn first first' side u v h⟩

theorem lookup_detach (h : ((m.detach row.lid row.pn).sourceToTarget side).lookup u = some v)
    (hne : u ≠ row.source side) :
    (m.sourceToTarget side).lookup u = some v ∧
      ¬(u ≠ [] ∧ v = row.target side ∧ (m.sourceToTarget side.other).lookup v = some u) := by
  cases side with
  | pn =>
    obtain ⟨hold, hnot⟩ := lookup_detached.1 h
    refine ⟨hold, fun hc => hnot ⟨hc.1, hne, hc.2.1, ?_⟩⟩
    refine GoMap.at0_of_lookup (lookup_detached.2 ⟨?_, fun hd => hd.2.1 rfl⟩)
    rw [← hc.2.2, hc.2.1]
    rfl
  | lid =>
    obtain ⟨hold, hnot⟩ := lookup_detached.1 h
    refine ⟨hold, fun hc => hnot ⟨hc.1, hne, hc.2.1, GoMap.at0_of_lookup ?_⟩⟩
    rw [← hc.2.2, hc.2.1]
    rfl

/-- an entry that is detached leads to a user of the new pair -/
theorem lookup_detach_of_ne (h : (m.sourceToTarget side).lookup u = some v) (hne : v ≠ row.target side) :
    ((m.detach row.lid row.pn).sourceToTarget side).lookup u = some v := by
  cases side with
  | pn => exact lookup_detached.2 ⟨h, fun hc => hne hc.2.2.1⟩
  | lid => exact lookup_detached.2 ⟨h, fun hc => hne hc.2.2.1⟩

/-- there is room if the users of the map and the new one are among few enough -/
theorem makeRoom_eq_self {key : Bytes} (users : List Bytes) (hkey : key ∈ users)
    (hsub : ∀ u ∈ m.sourceToTarget side, u ≠ key → u ∈ users) (hlen : users.length ≤ maxLIDCacheEntries) :
    m.makeRoom side key first = m := by
  refine if_neg fun hfull => ?_
  have hnodup : (key :: (m.sourceToTarget side).keys).Nodup :=
    nodup_cons.2 ⟨fun hmem => hfull.1 (AList.mem_keys.2 hmem), (m.sourceToTarget side).keys_nodup⟩
  have hsubset : key :: (m.sourceToTarget side).keys ⊆ users := by
    refine cons_subset.2 ⟨hkey, fun u hu => hsub u (AList.mem_keys.2 hu) ?_⟩
    rintro rfl
    exact hfull.1 (AList.mem_keys.2 hu)
  have hle : (m.sourceToTarget side).keys.length + 1 ≤ users.length := (hnodup.subperm hsubset).length_le
  have := hfull.2
  omega

/-- an insertion with room for the new pair evicts nothing -/
theorem beforeInsert_eq_detach
    (hroom : ∀ side n, (m.detach row.lid row.pn).makeRoom side (row.source side) n = m.detach row.lid row.pn)
    (first first' : ℕ) : m.beforeInsert row.lid row.pn first first' = m.detach row.lid row.pn := by
  have hpn : (m.detach row.lid row.pn).makeRoom .pn row.pn first = m.detach row.lid row.pn := hroom .pn first
  rw [beforeInsert, hpn]
  exact hroom .lid first'

end CachedLIDMap

/-! ## Maps that agree with a table -/

/-- the entry says of the user what the query says; an empty target says that there is no row -/
def LIDTable.Backs (t : LIDTable) (side : Side) (user target : Bytes) : Prop :=
  t.find side user = if target = [] then none else some target

instance (t : LIDTable) (side : Side) (user target : Bytes) : Decidable (t.Backs side user target) :=
  inferInstanceAs (Decidable (_ = _))

/-- every cached pair is a row, every cached miss has none -/
def Faithful (m : CachedLIDMap) (t : LIDTable) : Prop :=
  ∀ side user target, (m.sourceToTarget side).lookup user = some target → t.Backs side user target

/-- the maps have exactly the rows -/
def Filled (m : CachedLIDMap) (t : LIDTable) : Prop := ∀ side user, (m.sourceToTarget side).lookup user = t.find side user

theorem LIDTable.Backs.eq_find (h : t.Backs side u v) : v = (t.find side u).getD [] := by
  rw [h]
  split_ifs with hv
  · exact hv
  · rfl

variable {first first' : ℕ}

/-- **Reading.** a row of the table can be cached -/
theorem Faithful.cacheRow (h : Faithful m t) (hu : t.Users) (hrow : row ∈ t.rows) :
    Faithful (m.cacheRow row first first') t := by
  intro side user target hl
  rcases CachedLIDMap.lookup_cacheRow hl with ⟨rfl, rfl⟩ | ⟨-, hold⟩
  · have htarget : row.target side ≠ [] := hu row hrow side.other
    rw [LIDTable.Backs, if_neg htarget]
    exact LIDTable.find_of_mem hrow
  · exact h side user target hold

theorem CachedLIDMap.cacheMissLocked_cacheFilled (m : CachedLIDMap) (side : Side) (u : Bytes) (first : ℕ) :
    (m.cacheMissLocked side u first).cacheFilled = m.cacheFilled := by
  unfold CachedLIDMap.cacheMissLocked
  dsimp only
  split_ifs
  · rfl
  · cases side with
    | pn => exact CachedLIDMap.makeRoom_cacheFilled
    | lid => exact CachedLIDMap.makeRoom_cacheFilled

/-- a user without a row can be remembered as such -/
theorem Faithful.cacheMiss (h : Faithful m t) (hnone : t.find side u = none) (first : ℕ) :
    Faithful (m.cacheMissLocked side u first) t := by
  unfold CachedLIDMap.cacheMissLocked
  dsimp only
  split_ifs with hin
  · exact h
  have hold : ∀ side', GoMap.Within ((m.makeRoom side u first).sourceToTarget side') (m.sourceToTarget side') :=
    CachedLIDMap.makeRoom_within m side u first
  have hself : ∀ user target, (((m.makeRoom side u first).sourceToTarget side).insert u []).lookup user = some target →
      t.Backs side user target := by
    intro user target hl
    rw [GoMap.lookup_insert_eq] at hl
    split_ifs at hl with hu
    · cases hl
      rw [LIDTable.Backs, if_pos rfl, hu]
      exact hnone
    · exact h side user target (hold side user target hl)
  intro side' user target hl
  cases side with
  | pn =>
    cases side' with
    | pn => exact hself user target hl
    | lid => exact h .lid user target (hold .lid user target hl)
  | lid =>
    cases side' with
    | pn => exact h .pn user target (hold .pn user target hl)
    | lid => exact hself user target hl

/-- after an insertion no other user leads to a user of the new pair -/
theorem CachedLIDMap.Mirrored.target_ne (hm : m.Mirrored) (hu : u ≠ []) (hv : v ≠ [])
    (hl : ((m.cacheRow row first first').sourceToTarget side).lookup u = some v) (hne : u ≠ row.source side) :
    v ≠ row.target side := by
  intro htarget
  have hback := (hm.cacheRow.other hu hv).1 hl
  have hself := CachedLIDMap.lookup_cacheRow_self m row first first' side.other
  rw [LIDRow.target, Side.other_other] at hself
  rw [htarget, LIDRow.target, hself] at hback
  exact hne (Option.some.inj hback).symm

/-- **Writing.** the maps follow the table -/
theorem Faithful.put (h : Faithful m t) (hm : m.Mirrored) (hu : t.Users)
    (hrow : ∀ side, row.source side ≠ []) : Faithful (m.cacheRow row first first') (t.put row) := by
  intro side user target hl
  unfold LIDTable.Backs
  rw [LIDTable.find_put]
  rcases CachedLIDMap.lookup_cacheRow hl with ⟨rfl, rfl⟩ | ⟨hne, hold⟩
  · have htarget : row.target side ≠ [] := hrow side.other
    rw [if_pos rfl, if_neg htarget]
  rw [if_neg hne, h side user target hold]
  have hlost : ¬(if target = [] then none else some target) = some (row.target side) := by
    intro he
    split_ifs at he with ht
    have hfind := h side user target hold
    rw [LIDTable.Backs, if_neg ht] at hfind
    exact hm.target_ne (hu.find_ne hfind).1 ht hl hne (Option.some.inj he)
  rw [if_neg hlost]

theorem Filled.lookup_detach (h : Filled m t) (hu : t.Users) (hne : u ≠ row.source side) :
    ((m.detach row.lid row.pn).sourceToTarget side).lookup u = (t.put row).find side u := by
  rw [LIDTable.find_put, if_neg hne]
  split_ifs with hlost
  · cases hl : ((m.detach row.lid row.pn).sourceToTarget side).lookup u with
    | none => rfl
    | some w =>
      obtain ⟨hold, hnot⟩ := CachedLIDMap.lookup_detach hl hne
      have hw : w = row.target side := by
        rw [h side u, hlost] at hold
        exact (Option.some.inj hold).symm
      refine absurd ⟨(hu.find_ne hlost).1, hw, ?_⟩ hnot
      rw [h side.other w, hw]
      exact LIDTable.find_other.1 hlost
  · cases hf : t.find side u with
    | none =>
      cases hl : ((m.detach row.lid row.pn).sourceToTarget side).lookup u with
      | none => rfl
      | some w =>
        have hold := (CachedLIDMap.lookup_detach hl hne).1
        rw [h side u, hf] at hold
        cases hold
    | some w =>
      refine CachedLIDMap.lookup_detach_of_ne ((h side u).trans hf) fun hw => hlost ?_
      rw [hf, hw]

/-- nothing is evicted while the table fits into the maps -/
theorem Filled.put (h : Filled m t) (hu : t.Users)
    (hlen : (t.put row).rows.length ≤ maxLIDCacheEntries) : Filled (m.cacheRow row first first') (t.put row) := by
  have hroom : ∀ side n, (m.detach row.lid row.pn).makeRoom side (row.source side) n = m.detach row.lid row.pn := by
    intro side n
    refine CachedLIDMap.makeRoom_eq_self ((t.put row).rows.map (·.source side)) ?_ ?_ ?_
    · exact mem_map_of_mem (LIDTable.mem_put.2 (.inl rfl))
    · intro u hmem hne
      obtain ⟨v, hv⟩ := GoMap.lookup_of_mem hmem
      rw [h.lookup_detach hu hne] at hv
      obtain ⟨r, hr, hs, -⟩ := LIDTable.find_eq_some.1 hv
      exact mem_map.2 ⟨r, hr, hs⟩
    · rw [length_map]
      exact hlen
  have hbefore := CachedLIDMap.beforeInsert_eq_detach hroom first first'
  intro side user
  rw [CachedLIDMap.sourceToTarget_cacheRow, hbefore, GoMap.lookup_insert_eq]
  split_ifs with hs
  · rw [LIDTable.find_put, if_pos hs]
  · exact h.lookup_detach hu hs

/-! ## Lists of insertions -/

/-- the maps after the rows were inserted one after the other, with any evictions -/
inductive Cached : CachedLIDMap → List LIDRow → CachedLIDMap → Prop
  | nil (m : CachedLIDMap) : Cached m [] m
  | cons {m m' : CachedLIDMap} {row : LIDRow} {rows : List LIDRow} (first first' : ℕ)
      (h : Cached (m.cacheRow row first first') rows m') : Cached m (row :: rows) m'

namespace Cached

section

variable (h : Cached m rows m')
include h

theorem append {m'' : CachedLIDMap} {rows' : List LIDRow} (h' : Cached m' rows' m'') :
    Cached m (rows ++ rows') m'' := by
  induction h with
  | nil => exact h'
  | cons first first' _ ih => exact .cons first first' (ih h')

theorem inv (hm : m.CacheInv) : m'.CacheInv := by
  induction h with
  | nil => exact hm
  | cons first first' _ ih => exact ih (hm.cacheMappingLocked _ _ first first')

theorem cacheFilled : m'.cacheFilled = m.cacheFilled := by
  induction h with
  | nil => rfl
  | cons first first' _ ih => exact ih.trans CachedLIDMap.cacheRow_cacheFilled

/-- an entry that is there afterwards was inserted or was there before -/
theorem lookup (hl : (m'.sourceToTarget side).lookup u = some v) :
    (∃ r ∈ rows, u = r.source side ∧ v = r.target side) ∨ (m.sourceToTarget side).lookup u = some v := by
  induction h with
  | nil => exact .inr hl
  | cons first first' _ ih =>
    rcases ih hl with ⟨r, hr, hs⟩ | hold
    · exact .inl ⟨r, mem_cons_of_mem _ hr, hs⟩
    · rcases CachedLIDMap.lookup_cacheRow hold with hs | ⟨-, hold⟩
      · exact .inl ⟨_, mem_cons_self, hs⟩
      · exact .inr hold

theorem faithful (hu : t.Users) (hrows : ∀ r ∈ rows, r ∈ t.rows) (hf : Faithful m t) : Faithful m' t := by
  induction h with
  | nil => exact hf
  | cons first first' _ ih =>
    refine ih (fun r hr => hrows r (mem_cons_of_mem _ hr)) ?_
    exact hf.cacheRow hu (hrows _ mem_cons_self)

theorem faithful_put (hm : m.Mirrored) (hu : t.Users)
    (hrows : ∀ r ∈ rows, ∀ side, r.source side ≠ []) (hf : Faithful m t) : Faithful m' (rows.foldl LIDTable.put t) := by
  induction h generalizing t with
  | nil => exact hf
  | cons first first' _ ih =>
    have hrow := hrows _ mem_cons_self
    exact ih hm.cacheRow (hu.put hrow) (fun r hr => hrows r (mem_cons_of_mem _ hr)) (hf.put hm hu hrow)

theorem filled_put (hu : t.Users) (hrows : ∀ r ∈ rows, ∀ side, r.source side ≠ [])
    (hlen : ∀ pre ∈ rows.inits, (pre.foldl LIDTable.put t).rows.length ≤ maxLIDCacheEntries) (hf : Filled m t) :
    Filled m' (rows.foldl LIDTable.put t) := by
  induction h generalizing t with
  | nil => exact hf
  | @cons m m' row rows first first' _ ih =>
    refine ih (hu.put (hrows _ mem_cons_self)) (fun r hr => hrows r (mem_cons_of_mem _ hr)) ?_ ?_
    · intro pre hpre
      exact hlen (row :: pre) (by simpa using hpre)
    · exact hf.put hu (hlen [row] (by simp))

end

end Cached

theorem LIDTable.users_foldl_put (hu : t.Users) (hrows : ∀ r ∈ rows, ∀ side, r.source side ≠ []) :
    (rows.foldl LIDTable.put t).Users := by
  induction rows generalizing t with
  | nil => exact hu
  | cons row rows ih =>
    exact ih (hu.put (hrows _ mem_cons_self)) fun r hr => hrows r (mem_cons_of_mem _ hr)

/-! ## Rows that share no user -/

/-- no user of the one row is the user of the other on the same side -/
def LIDRow.Apart (r r' : LIDRow) : Prop := ∀ side, r.source side ≠ r'.source side

namespace LIDTable

def empty : LIDTable := ⟨[], by simp, by simp⟩

theorem find_congr {t' : LIDTable} (h : ∀ r, r ∈ t.rows ↔ r ∈ t'.rows) : t.find side u = t'.find side u := by
  refine Option.ext fun v => ?_
  rw [find_eq_some, find_eq_some]
  exact exists_congr fun r => and_congr_left fun _ => h r

theorem pairwise_apart (t : LIDTable) : t.rows.Pairwise LIDRow.Apart := by
  refine ((pairwise_map.1 t.unique).and (pairwise_map.1 t.primaryKey)).imp ?_
  rintro r r' ⟨hpn, hlid⟩ side
  cases side with
  | pn => exact hpn
  | lid => exact hlid

/-- rows that share no user with each other or with the table are just added -/
theorem mem_foldl_put {r : LIDRow} (hrows : rows.Pairwise LIDRow.Apart) (hnew : ∀ r ∈ t.rows, ∀ r' ∈ rows, r.Apart r') :
    r ∈ (rows.foldl put t).rows ↔ r ∈ t.rows ∨ r ∈ rows := by
  induction rows generalizing t with
  | nil => simp
  | cons row rows ih =>
    obtain ⟨hrow, hrows⟩ := pairwise_cons.1 hrows
    have hput : ∀ q, q ∈ (t.put row).rows ↔ q = row ∨ q ∈ t.rows := by
      intro q
      rw [mem_put]
      exact or_congr_right (and_iff_left_of_imp fun hq => hnew q hq row mem_cons_self)
    rw [foldl_cons, ih hrows, hput, mem_cons]
    · tauto
    · intro q hq r' hr'
      rcases (hput q).1 hq with rfl | hq
      · exact hrow r' hr'
      · exact hnew q hq r' (mem_cons_of_mem _ hr')

theorem length_put_le (t : LIDTable) (row : LIDRow) : (t.put row).rows.length ≤ t.rows.length + 1 := by
  have hsub : (t.put row).rows ⊆ row :: t.rows := by
    intro r hr
    rcases mem_put.1 hr with rfl | ⟨hr, -⟩
    · exact mem_cons_self
    · exact mem_cons_of_mem _ hr
  exact ((t.put row).primaryKey.of_map.subperm hsub).length_le

theorem length_foldl_put_le (t : LIDTable) (rows : List LIDRow) :
    (rows.foldl put t).rows.length ≤ t.rows.length + rows.length := by
  induction rows generalizing t with
  | nil => exact le_rfl
  | cons row rows ih =>
    calc ((row :: rows).foldl put t).rows.length
        ≤ (t.put row).rows.length + rows.length := ih (t.put row)
      _ ≤ t.rows.length + 1 + rows.length := Nat.add_le_add_right (length_put_le t row) _
      _ = t.rows.length + (row :: rows).length := by rw [length_cons]; omega

end LIDTable

/-- the maps that were filled from an empty state with all rows of a table that fits -/
theorem Cached.filled {m₀ : CachedLIDMap} (h : Cached m₀ rows m) (hempty : ∀ side, m₀.sourceToTarget side = ∅)
    (hu : t.Users) (hperm : rows.Perm t.rows) (hlen : rows.length ≤ maxLIDCacheEntries) : Filled m t := by
  have hrows : ∀ r ∈ rows, ∀ side, r.source side ≠ [] := fun r hr => hu r (hperm.mem_iff.1 hr)
  have hfilled : Filled m (rows.foldl LIDTable.put .empty) := by
    refine h.filled_put (t := .empty) (by simp [LIDTable.Users, LIDTable.empty]) hrows ?_ ?_
    · intro pre hpre
      calc (pre.foldl LIDTable.put .empty).rows.length
          ≤ LIDTable.empty.rows.length + pre.length := LIDTable.length_foldl_put_le _ pre
        _ = pre.length := Nat.zero_add _
        _ ≤ rows.length := ((mem_inits pre rows).1 hpre).length_le
        _ ≤ maxLIDCacheEntries := hlen
    · intro side user
      rw [hempty side, AList.lookup_empty]
      rfl
  intro side user
  rw [hfilled side user]
  refine LIDTable.find_congr fun r => ?_
  have hpair : rows.Pairwise LIDRow.Apart := by
    refine (hperm.pairwise_iff fun hap side => ?_).2 t.pairwise_apart
    exact (hap side).symm
  rw [LIDTable.mem_foldl_put hpair (by simp [LIDTable.empty]), hperm.mem_iff]
  simp [LIDTable.empty]

end Hypermeow.Store
