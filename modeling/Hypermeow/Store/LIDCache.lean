/-
The two maps of the LID map mirror each other and stay within their bound.

For users that are not empty, the map from PNs has `p ↦ l` exactly when the map from LIDs has `l ↦ p`; each map has at most
`maxLIDCacheEntries` entries. Inserting a pair detaches the users that were paired with either side before, may evict an
entry on each side, and then both maps have the pair. An eviction takes an entry out of both maps, so it changes the
two sides of one equivalence together (`evict_pair`); everything else only shrinks the maps (`evict_within`).

`lid_cache_invariant`: this holds after every sequence of insertions, misses and evictions, whatever is evicted, and after
every sequence of calls of the methods, whatever the database does.
-/
import Hypermeow.Lib.Runs
import Hypermeow.Store.LIDMap

namespace Hypermeow.Store

open Lib Types Option GoMap

variable {m : CachedLIDMap} {side side' : Side} {first first' : ℕ} {p l lid pn user : Bytes}

/-! ## Evictions -/

/-- `p` leads to `l` when `l` leads to `p` -/
def IsPair (P L : UserCache) (p l : Bytes) : Prop := P.lookup p = some l ↔ L.lookup l = some p

variable {P L : UserCache}

theorem IsPair.symm (h : IsPair P L p l) : IsPair L P l p := Iff.symm h

/-- an entry for a new user that says that there is no row leaves the pairs alone -/
theorem IsPair.insert_miss (h : IsPair P L p l) (hnew : user ∉ P) (hl : l ≠ []) :
    IsPair (P.insert user []) L p l := by
  unfold IsPair
  rw [lookup_insert_eq]
  split_ifs with hp
  · refine iff_of_false (fun he => hl (some.inj he).symm) fun hL => hnew ?_
    exact hp ▸ mem_of_lookup (h.2 hL)
  · exact h

theorem evictLIDCacheEntry_within (first : ℕ) (P L : UserCache) :
    GoMap.Within (evictLIDCacheEntry first P L).1 P ∧ GoMap.Within (evictLIDCacheEntry first P L).2 L := by
  unfold evictLIDCacheEntry
  split
  · exact ⟨.refl P, .refl L⟩
  · refine ⟨within_erase _ P, ?_⟩
    dsimp only
    split_ifs
    · exact within_erase _ L
    · exact .refl L

/-- an entry that goes takes its mirror image along, so a pair stays a pair -/
theorem evictLIDCacheEntry_pair (h : IsPair P L p l) (hl : l ≠ []) :
    IsPair (evictLIDCacheEntry first P L).1 (evictLIDCacheEntry first P L).2 p l := by
  unfold evictLIDCacheEntry
  split
  · exact h
  rename_i source hsource
  obtain ⟨target, htarget⟩ := lookup_of_mem (mem_of_someKey hsource)
  rw [at0_of_lookup htarget]
  unfold IsPair
  dsimp only
  rw [lookup_erase_eq]
  split_ifs with hp hmirror hmirror
  -- the evicted entry is the one of `p`
  · rw [lookup_erase_eq]
    split_ifs with hlt
    · exact iff_of_false (by simp) (by simp)
    · refine iff_of_false (by simp) fun hL => hlt ?_
      have hP := h.2 hL
      rw [hp, htarget] at hP
      exact (some.inj hP).symm
  · refine iff_of_false (by simp) fun hL => hmirror ?_
    have hP := h.2 hL
    rw [hp, htarget] at hP
    cases hP
    exact ⟨hl, (at0_of_lookup hL).trans hp⟩
  -- the evicted entry is another one
  · rw [lookup_erase_eq]
    split_ifs with hlt
    · refine iff_of_false (fun hP => hp ?_) (by simp)
      have hL := at0_of_lookup (h.1 hP)
      rw [hlt, hmirror.2] at hL
      exact hL.symm
    · exact h
  · exact h

theorem evictLIDCacheEntry_length (first : ℕ) (L : UserCache) (h : 0 < P.keys.length) :
    (evictLIDCacheEntry first P L).1.keys.length + 1 = P.keys.length := by
  obtain ⟨source, hsource⟩ := exists_someKey first h
  unfold evictLIDCacheEntry
  rw [hsource]
  exact keys_length_erase (mem_of_someKey hsource)

/-- what `detached` leaves -/
theorem lookup_detached {cache reverse : UserCache} {source target k v : Bytes} :
    (detached cache reverse source target).lookup k = some v ↔
      reverse.lookup k = some v ∧ ¬(k ≠ [] ∧ k ≠ target ∧ v = source ∧ GoMap.at0 cache source = k) := by
  unfold detached
  dsimp only
  split_ifs with h
  · rw [lookup_erase_eq]
    split_ifs with hk
    · refine iff_of_false (by simp) fun hv => hv.2 ?_
      subst hk
      exact ⟨h.1, h.2.1, (at0_of_lookup hv.1).symm.trans h.2.2, rfl⟩
    · exact ⟨fun hv => ⟨hv, fun hc => hk hc.2.2.2.symm⟩, fun hv => hv.1⟩
  · refine ⟨fun hv => ⟨hv, ?_⟩, fun hv => hv.1⟩
    rintro ⟨hk, hne, rfl, rfl⟩
    exact h ⟨hk, hne, at0_of_lookup hv⟩

namespace CachedLIDMap

theorem sourceToTarget_pn (m : CachedLIDMap) : m.sourceToTarget .pn = m.pnToLIDCache := rfl

theorem sourceToTarget_lid (m : CachedLIDMap) : m.sourceToTarget .lid = m.lidToPNCache := rfl

/-- the entries of `m'` are entries of `m`, on both sides -/
def Within (m' m : CachedLIDMap) : Prop := ∀ side, GoMap.Within (m'.sourceToTarget side) (m.sourceToTarget side)

theorem Within.refl (m : CachedLIDMap) : Within m m := fun _ => .refl _

theorem Within.trans {m₁ m₂ m₃ : CachedLIDMap} (h₁ : Within m₁ m₂) (h₂ : Within m₂ m₃) : Within m₁ m₃ :=
  fun side => (h₁ side).trans (h₂ side)

theorem evict_within (m : CachedLIDMap) (side : Side) (first : ℕ) : Within (m.evict side first) m := by
  intro side'
  have h := evictLIDCacheEntry_within first (m.sourceToTarget side) (m.sourceToTarget side.other)
  cases side with
  | pn =>
    cases side' with
    | pn => exact h.1
    | lid => exact h.2
  | lid =>
    cases side' with
    | pn => exact h.2
    | lid => exact h.1

theorem evict_pair (hp : p ≠ []) (hl : l ≠ []) (h : IsPair m.pnToLIDCache m.lidToPNCache p l) :
    IsPair (m.evict side first).pnToLIDCache (m.evict side first).lidToPNCache p l := by
  cases side with
  | pn => exact evictLIDCacheEntry_pair h hl
  | lid => exact (evictLIDCacheEntry_pair h.symm hp).symm

theorem evict_length (first : ℕ) (h : 0 < (m.sourceToTarget side).keys.length) :
    ((m.evict side first).sourceToTarget side).keys.length + 1 = (m.sourceToTarget side).keys.length := by
  cases side with
  | pn => exact evictLIDCacheEntry_length first _ h
  | lid => exact evictLIDCacheEntry_length first _ h

theorem makeRoom_within (m : CachedLIDMap) (side : Side) (key : Bytes) (first : ℕ) :
    Within (m.makeRoom side key first) m := by
  unfold makeRoom
  split_ifs
  · exact evict_within m side first
  · exact .refl m

theorem makeRoom_pair (hp : p ≠ []) (hl : l ≠ []) (h : IsPair m.pnToLIDCache m.lidToPNCache p l) :
    IsPair (m.makeRoom side user first).pnToLIDCache (m.makeRoom side user first).lidToPNCache p l := by
  unfold makeRoom
  split_ifs
  · exact evict_pair hp hl h
  · exact h

/-- after `makeRoom` the key can be inserted -/
theorem makeRoom_fits (key : Bytes) (first : ℕ) (value : Bytes)
    (h : (m.sourceToTarget side).keys.length ≤ maxLIDCacheEntries) :
    (((m.makeRoom side key first).sourceToTarget side).insert key value).keys.length ≤ maxLIDCacheEntries := by
  unfold makeRoom
  split_ifs with hfull
  · have hpos : 0 < (m.sourceToTarget side).keys.length := lt_of_lt_of_le (by decide) hfull.2
    calc (((m.evict side first).sourceToTarget side).insert key value).keys.length
        ≤ ((m.evict side first).sourceToTarget side).keys.length + 1 := keys_length_insert_le
      _ = (m.sourceToTarget side).keys.length := evict_length first hpos
      _ ≤ maxLIDCacheEntries := h
  · by_cases hk : key ∈ m.sourceToTarget side
    · rw [keys_length_insert_of_mem hk]
      exact h
    · have hroom : (m.sourceToTarget side).keys.length < maxLIDCacheEntries := by
        by_contra hge
        exact hfull ⟨hk, not_lt.1 hge⟩
      exact keys_length_insert_le.trans hroom

@[simp] theorem makeRoom_cacheFilled : (m.makeRoom side user first).cacheFilled = m.cacheFilled := by
  unfold makeRoom
  split_ifs
  · cases side <;> rfl
  · rfl

/-! ## Insertions -/

/-- for users that are not empty, each map is the inverse of the other -/
def Mirrored (m : CachedLIDMap) : Prop := ∀ p l, p ≠ [] → l ≠ [] → IsPair m.pnToLIDCache m.lidToPNCache p l

/-- the same for the users other than `pn` and `lid`, and nothing else leads to these two -/
structure MirroredOff (m : CachedLIDMap) (lid pn : Bytes) : Prop where
  inverse : ∀ p l, p ≠ [] → l ≠ [] → p ≠ pn → l ≠ lid → IsPair m.pnToLIDCache m.lidToPNCache p l
  lidFree : ∀ p, p ≠ [] → lid ≠ [] → p ≠ pn → m.pnToLIDCache.lookup p ≠ some lid
  pnFree : ∀ l, l ≠ [] → pn ≠ [] → l ≠ lid → m.lidToPNCache.lookup l ≠ some pn

theorem detach_within (m : CachedLIDMap) (lid pn : Bytes) : Within (m.detach lid pn) m := by
  intro side
  cases side with
  | pn => exact fun k v h => (lookup_detached.1 h).1
  | lid => exact fun k v h => (lookup_detached.1 h).1

/-- the users that were paired with the new pair's users are no longer paired with them -/
theorem Mirrored.detach (h : m.Mirrored) (lid pn : Bytes) : (m.detach lid pn).MirroredOff lid pn where
  inverse p l hp hl hpn hlid := by
    have hP : (m.detach lid pn).pnToLIDCache.lookup p = some l ↔ m.pnToLIDCache.lookup p = some l :=
      lookup_detached.trans (and_iff_left fun hc => hlid hc.2.2.1)
    have hL : (m.detach lid pn).lidToPNCache.lookup l = some p ↔ m.lidToPNCache.lookup l = some p :=
      lookup_detached.trans (and_iff_left fun hc => hpn hc.2.2.1)
    exact hP.trans ((h p l hp hl).trans hL.symm)
  lidFree p hp hlid hpn hP := by
    obtain ⟨hP, hnot⟩ := lookup_detached.1 hP
    have hL : (detached m.pnToLIDCache m.lidToPNCache pn lid).lookup lid = some p :=
      lookup_detached.2 ⟨(h p lid hp hlid).1 hP, fun hc => hc.2.1 rfl⟩
    exact hnot ⟨hp, hpn, rfl, at0_of_lookup hL⟩
  pnFree l hl hpn hlid hL := by
    obtain ⟨hL, hnot⟩ := lookup_detached.1 hL
    exact hnot ⟨hl, hlid, rfl, at0_of_lookup ((h pn l hpn hl).2 hL)⟩

theorem MirroredOff.makeRoom (h : m.MirroredOff lid pn) (side : Side) (key : Bytes) (first : ℕ) :
    (m.makeRoom side key first).MirroredOff lid pn where
  inverse p l hp hl hpn hlid := makeRoom_pair hp hl (h.inverse p l hp hl hpn hlid)
  lidFree p hp hlid hpn hP := h.lidFree p hp hlid hpn (makeRoom_within m side key first .pn _ _ hP)
  pnFree l hl hpn hlid hL := h.pnFree l hl hpn hlid (makeRoom_within m side key first .lid _ _ hL)

theorem MirroredOff.insert (h : m.MirroredOff lid pn) :
    Mirrored { m with pnToLIDCache := m.pnToLIDCache.insert pn lid, lidToPNCache := m.lidToPNCache.insert lid pn } := by
  intro p l hp hl
  unfold IsPair
  dsimp only
  rw [lookup_insert_eq, lookup_insert_eq]
  split_ifs with hpn hlid hlid
  · rw [hpn, hlid]
    simp
  · subst hpn
    exact iff_of_false (fun he => hlid (some.inj he).symm) (h.pnFree l hl hp hlid)
  · subst hlid
    exact iff_of_false (h.lidFree p hp hl hpn) fun he => hpn (some.inj he).symm
  · exact h.inverse p l hp hl hpn hlid

/-- the maps before the last step of `cacheMappingLocked` -/
def beforeInsert (m : CachedLIDMap) (lid pn : Bytes) (first first' : ℕ) : CachedLIDMap :=
  ((m.detach lid pn).makeRoom .pn pn first).makeRoom .lid lid first'

theorem cacheMappingLocked_eq (m : CachedLIDMap) (lid pn : Bytes) (first first' : ℕ) :
    m.cacheMappingLocked lid pn first first' =
      ⟨(m.beforeInsert lid pn first first').pnToLIDCache.insert pn lid,
        (m.beforeInsert lid pn first first').lidToPNCache.insert lid pn, m.cacheFilled⟩ := by
  unfold cacheMappingLocked beforeInsert
  simp only [makeRoom_cacheFilled]
  rfl

theorem beforeInsert_within (m : CachedLIDMap) (lid pn : Bytes) (first first' : ℕ) :
    Within (m.beforeInsert lid pn first first') m :=
  ((makeRoom_within _ _ _ _).trans (makeRoom_within _ _ _ _)).trans (detach_within m lid pn)

/-- right after an insertion both maps have the pair -/
theorem lookup_cacheMappingLocked (m : CachedLIDMap) (lid pn : Bytes) (first first' : ℕ) :
    (m.cacheMappingLocked lid pn first first').pnToLIDCache.lookup pn = some lid ∧
      (m.cacheMappingLocked lid pn first first').lidToPNCache.lookup lid = some pn := by
  rw [cacheMappingLocked_eq]
  exact ⟨AList.lookup_insert _, AList.lookup_insert _⟩

/-! ## The invariant -/

/-- the two maps mirror each other and keep to their bound -/
structure CacheInv (m : CachedLIDMap) : Prop where
  mirrored : m.Mirrored
  bounded : ∀ side, (m.sourceToTarget side).keys.length ≤ maxLIDCacheEntries

theorem CacheInv.empty (filled : Bool) : CacheInv ⟨∅, ∅, filled⟩ where
  mirrored p l _ _ := by simp [IsPair]
  bounded side := by cases side <;> exact Nat.zero_le _

theorem Within.bounded {m' : CachedLIDMap} (h : Within m' m) (side : Side)
    (hm : (m.sourceToTarget side).keys.length ≤ maxLIDCacheEntries) :
    (m'.sourceToTarget side).keys.length ≤ maxLIDCacheEntries := (h side).keys_length_le.trans hm

theorem CacheInv.evict (h : m.CacheInv) (side : Side) (first : ℕ) : (m.evict side first).CacheInv where
  mirrored p l hp hl := evict_pair hp hl (h.mirrored p l hp hl)
  bounded side' := (evict_within m side first).bounded side' (h.bounded side')

theorem CacheInv.cacheMappingLocked (h : m.CacheInv) (lid pn : Bytes) (first first' : ℕ) :
    (m.cacheMappingLocked lid pn first first').CacheInv where
  mirrored := (((h.mirrored.detach lid pn).makeRoom .pn pn first).makeRoom .lid lid first').insert
  bounded side := by
    have hdetach := (detach_within m lid pn).bounded
    rw [cacheMappingLocked_eq]
    cases side with
    | pn =>
      -- the second eviction can only shrink the map further
      have hshrink := makeRoom_within ((m.detach lid pn).makeRoom .pn pn first) .lid lid first' .pn
      have hroom := makeRoom_fits pn first lid (hdetach .pn (h.bounded .pn))
      rw [sourceToTarget_pn] at hroom ⊢
      rw [sourceToTarget_pn, sourceToTarget_pn] at hshrink
      exact (hshrink.keys_length_insert_le pn lid lid).trans hroom
    | lid =>
      have hroom := (makeRoom_within (m.detach lid pn) .pn pn first).bounded .lid (hdetach .lid (h.bounded .lid))
      have hfits := makeRoom_fits lid first' pn hroom
      rw [sourceToTarget_lid] at hfits ⊢
      exact hfits

theorem CacheInv.cacheMissLocked (h : m.CacheInv) (side : Side) (source : Bytes) (first : ℕ) :
    (m.cacheMissLocked side source first).CacheInv := by
  unfold CachedLIDMap.cacheMissLocked
  dsimp only
  split_ifs with hin
  · exact h
  have hwithin := makeRoom_within m side source first
  have hnew : source ∉ (m.makeRoom side source first).sourceToTarget side := fun hmem => hin ((hwithin side).mem hmem)
  have hpair : Mirrored (m.makeRoom side source first) := fun p l hp hl => makeRoom_pair hp hl (h.mirrored p l hp hl)
  have hfits := makeRoom_fits source first [] (h.bounded side)
  cases side with
  | pn =>
    refine ⟨fun p l hp hl => (hpair p l hp hl).insert_miss hnew hl, fun side' => ?_⟩
    cases side' with
    | pn => exact hfits
    | lid => exact hwithin.bounded .lid (h.bounded .lid)
  | lid =>
    refine ⟨fun p l hp hl => ((hpair p l hp hl).symm.insert_miss hnew hp).symm, fun side' => ?_⟩
    cases side' with
    | pn => exact hwithin.bounded .pn (h.bounded .pn)
    | lid => exact hfits

end CachedLIDMap

/-- a call of one of the three functions that change the maps -/
inductive CacheOp where
  | mapping (lid pn : Bytes) (first first' : ℕ)
  | miss (side : Side) (source : Bytes) (first : ℕ)
  | evict (side : Side) (first : ℕ)

def cacheStep (m : CachedLIDMap) : CacheOp → CachedLIDMap
  | .mapping lid pn first first' => m.cacheMappingLocked lid pn first first'
  | .miss side source first => m.cacheMissLocked side source first
  | .evict side first => m.evict side first

theorem cacheStep_inv (m : CachedLIDMap) (op : CacheOp) (h : m.CacheInv) : (cacheStep m op).CacheInv := by
  cases op with
  | mapping lid pn first first' => exact h.cacheMappingLocked lid pn first first'
  | miss side source first => exact h.cacheMissLocked side source first
  | evict side first => exact h.evict side first

/-! ## The methods keep it -/

namespace LIDStore

open Session

theorem cacheMapping_keeps (lid pn : Bytes) : KeepsMemory CachedLIDMap.CacheInv (cacheMapping lid pn) := by
  refine KeepsMemory.pick.bind fun first => KeepsMemory.pick.bind fun first' => KeepsMemory.update ?_
  intro m h
  exact h.cacheMappingLocked lid pn first first'

theorem cacheMiss_keeps (side : Side) (source : Bytes) : KeepsMemory CachedLIDMap.CacheInv (cacheMiss side source) := by
  refine KeepsMemory.pick.bind fun first => KeepsMemory.update ?_
  intro m h
  exact h.cacheMissLocked side source first

theorem scanManyLids_keeps {ρ : Type} (fn : ρ → LIDRow → ρ) (rows : List LIDRow) (acc : ρ) :
    KeepsMemory CachedLIDMap.CacheInv (scanManyLids fn rows acc) := by
  induction rows generalizing acc with
  | nil => exact (KeepsMemory.call _).bind fun _ => .pure _
  | cons row rows ih =>
    exact (KeepsMemory.call _).bind fun _ => (cacheMapping_keeps _ _).bind fun _ => (ih _).bind fun _ => .pure _

theorem scanQuery_keeps {ρ : Type} (fn : ρ → LIDRow → ρ) (select : LIDRow → Bool) (acc : ρ) :
    KeepsMemory CachedLIDMap.CacheInv (scanQuery fn select acc) :=
  (KeepsMemory.query _ _).bind fun rows => scanManyLids_keeps fn rows acc

theorem setFilled_keeps (filled : Bool) : KeepsMemory CachedLIDMap.CacheInv (setFilled filled) :=
  KeepsMemory.update fun _ h => ⟨h.mirrored, fun side => by cases side; exact h.bounded .pn; exact h.bounded .lid⟩

theorem fillCache_keeps : KeepsMemory CachedLIDMap.CacheInv fillCache := by
  refine (KeepsMemory.update fun m _ => .empty m.cacheFilled).bind fun _ => ?_
  refine (scanQuery_keeps _ _ _).attempt.bind fun res => ?_
  cases res with
  | ok r => exact setFilled_keeps _
  | error e => exact (setFilled_keeps _).bind fun _ => .throw e

theorem fetchLIDMapping_keeps (source : JID) (targetServer : Bytes) (side : Side) :
    KeepsMemory CachedLIDMap.CacheInv (fetchLIDMapping source targetServer side) := by
  refine (KeepsMemory.call _).bind fun _ => KeepsMemory.get.bind fun s => .ite ?_ ?_
  · exact (cacheMiss_keeps _ _).bind fun _ => .pure _
  · unfold cacheFound
    exact (KeepsMemory.ite (cacheMapping_keeps _ _) (cacheMapping_keeps _ _)).bind fun _ => .pure _

theorem getLIDMapping_keeps (source : JID) (targetServer : Bytes) (side : Side) :
    KeepsMemory CachedLIDMap.CacheInv (getLIDMapping source targetServer side) :=
  KeepsMemory.get.bind fun _ => .ite (.pure _) (fetchLIDMapping_keeps _ _ _)

theorem scanBatches_keeps (devices : List JID) (batches : List (List Bytes)) (acc : List Bytes × GoMap JID JID) :
    KeepsMemory CachedLIDMap.CacheInv (scanBatches devices batches acc) := by
  induction batches generalizing acc with
  | nil => exact .pure _
  | cons batch batches ih => exact (scanQuery_keeps _ _ _).bind fun r => ih r.2

theorem cacheMisses_keeps (lids : List Bytes) : KeepsMemory CachedLIDMap.CacheInv (cacheMisses lids) := by
  induction lids with
  | nil => exact .pure _
  | cons lid lids ih => exact (cacheMiss_keeps _ _).bind fun _ => ih

theorem getManyPNsForLIDs_keeps (postgres : Bool) (lids : List JID) :
    KeepsMemory CachedLIDMap.CacheInv (getManyPNsForLIDs postgres lids) := by
  refine KeepsMemory.get.bind fun _ => .ite (.pure _) (KeepsMemory.get.bind fun _ => .ite (.pure _) ?_)
  exact (scanBatches_keeps _ _ _).bind fun r => (cacheMisses_keeps _).bind fun _ => .pure _

theorem unlockedPutLIDMapping_keeps (lid pn : JID) :
    KeepsMemory CachedLIDMap.CacheInv (unlockedPutLIDMapping lid pn) :=
  .ite (.throw _) ((KeepsMemory.exec _ _).bind fun _ => (KeepsMemory.exec _ _).bind fun _ => cacheMapping_keeps _ _)

theorem putAll_keeps (mappings : List LIDMapping) : KeepsMemory CachedLIDMap.CacheInv (putAll mappings) := by
  induction mappings with
  | nil => exact .pure _
  | cons mapping mappings ih => exact (unlockedPutLIDMapping_keeps _ _).bind fun _ => ih

theorem runOp_keeps (op : LIDOp) : KeepsMemory CachedLIDMap.CacheInv (runOp op) := by
  cases op with
  | fillCache => exact fillCache_keeps.bind fun _ => .pure _
  | putLIDMapping lid pn =>
    refine (KeepsMemory.ite (.throw _) (KeepsMemory.get.bind fun _ => .ite (.pure _) ?_)).bind fun _ => .pure _
    exact (unlockedPutLIDMapping_keeps lid pn).transaction _
  | putManyLIDMappings mappings =>
    refine (KeepsMemory.get.bind fun _ => .ite (.pure _) ?_).bind fun _ => .pure _
    exact (putAll_keeps _).transaction _
  | getLIDForPN pn => exact (KeepsMemory.ite (.throw _) (getLIDMapping_keeps _ _ _)).bind fun _ => .pure _
  | getPNForLID lid => exact (KeepsMemory.ite (.throw _) (getLIDMapping_keeps _ _ _)).bind fun _ => .pure _
  | getManyLIDsForPNs pns =>
    refine (KeepsMemory.get.bind fun _ => .ite (.pure _) ?_).bind fun _ => .pure _
    exact (scanQuery_keeps _ _ _).bind fun _ => .pure _
  | getManyPNsForLIDs postgres lids => exact (getManyPNsForLIDs_keeps postgres lids).bind fun _ => .pure _

theorem run_inv_memory (s : LIDStore) (ops : List LIDOp) (h : s.memory.CacheInv) :
    (run step s ops).memory.CacheInv := by
  induction ops generalizing s with
  | nil => exact h
  | cons op ops ih => exact ih _ (runOp_keeps op s h)

end LIDStore

/-- **The LID cache is a bounded pair of inverse maps.** After every sequence of insertions, misses and evictions from
empty maps, with any choice of evicted entries, the maps are inverse to each other off the empty user, each within its
bound, and an insertion leaves its pair in both. The maps of a store are such maps after every sequence of calls,
whatever fails. -/
theorem lid_cache_invariant :
    (∀ ops : List CacheOp, (run cacheStep newCachedLIDMap ops).CacheInv ∧
      ∀ lid pn first first',
        let m := cacheStep (run cacheStep newCachedLIDMap ops) (.mapping lid pn first first')
        m.pnToLIDCache.lookup pn = some lid ∧ m.lidToPNCache.lookup lid = some pn) ∧
    ∀ (table : LIDTable) (faults : List Bool) (picks : List ℕ) (ops : List LIDOp),
      (run LIDStore.step ⟨newCachedLIDMap, table, faults, picks⟩ ops).memory.CacheInv := by
  have hempty : newCachedLIDMap.CacheInv := .empty false
  refine ⟨fun ops => ⟨?_, fun lid pn first first' => ?_⟩, fun table faults picks ops => ?_⟩
  · induction ops using List.reverseRecOn with
    | nil => exact hempty
    | append_singleton ops op ih =>
      rw [run_append]
      exact cacheStep_inv _ op ih
  · exact CachedLIDMap.lookup_cacheMappingLocked _ lid pn first first'
  · exact LIDStore.run_inv_memory _ ops hempty

end Hypermeow.Store
