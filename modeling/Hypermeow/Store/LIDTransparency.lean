/-
The LID map answers like its table.

Without failures a call inserts rows into the maps: the rows that it reads, or those that it writes (`Scanned`, `Written`). So
between two calls the maps are `Transparent`: they mirror each other, are faithful to the table, and are filled when
`cacheFilled` says so.

Results:
- `filled_cache_forgets`: after `FillCache`, writing one mapping more than the maps can hold evicts an entry, `cacheFilled`
  stays set, and a lookup of the evicted user finds nothing although the table has its row.
-/
import Hypermeow.Store.LIDCalls

namespace Hypermeow.Store

open Lib Types Go List LIDTable

variable {t : LIDTable} {side : Side} {row : LIDRow} {rows : List LIDRow} {u v : Bytes}

namespace LIDStore

open Session

variable {s s' : LIDStore}

/-! ## Reading -/

/-- the maps and the table of a store between two calls -/
structure Transparent (s : LIDStore) : Prop where
  users : s.tables.Users
  inv : s.memory.CacheInv
  faithful : Faithful s.memory s.tables
  filled : s.memory.cacheFilled = true → Filled s.memory s.tables
  quiet : s.Quiet

section

variable (h : Transparent s)
include h

theorem Transparent.scanned (hnot : s.memory.cacheFilled = false) (hs : Scanned s rows s')
    (hrows : ∀ r ∈ rows, r ∈ s.tables.rows) : Transparent s' where
  users := hs.tables ▸ h.users
  inv := hs.cached.inv h.inv
  faithful := hs.tables ▸ hs.cached.faithful h.users hrows h.faithful
  filled hfilled := by
    rw [hs.cached.cacheFilled, hnot] at hfilled
    cases hfilled
  quiet := hs.quiet

/-- what the maps say of a user, when they say something -/
theorem Transparent.at0_eq
    (hin : u ∈ s.memory.sourceToTarget side ∨ s.memory.cacheFilled = true) :
    GoMap.at0 (s.memory.sourceToTarget side) u = (s.tables.find side u).getD [] := by
  rcases hin with hin | hfilled
  · obtain ⟨v, hv⟩ := GoMap.lookup_of_mem hin
    rw [GoMap.at0_of_lookup hv]
    exact (h.faithful side u v hv).eq_find
  · rw [GoMap.at0, h.filled hfilled side u]
    rfl

/-- a cached pair is a row -/
theorem Transparent.find_of_at0 (hne : GoMap.at0 (s.memory.sourceToTarget side) u ≠ []) :
    s.tables.find side u = some (GoMap.at0 (s.memory.sourceToTarget side) u) := by
  have hl := GoMap.lookup_of_at0_ne hne
  have hb := h.faithful side u _ hl
  rwa [LIDTable.Backs, if_neg hne] at hb

theorem cacheMiss_run (hnot : s.memory.cacheFilled = false) (hnone : s.tables.find side u = none) :
    ∃ s', cacheMiss side u s = (.ok (), s') ∧ Transparent s' ∧ s'.tables = s.tables ∧ s'.memory.cacheFilled = false := by
  have hkept := (CachedLIDMap.cacheMissLocked_cacheFilled s.memory side u (s.picks.headD 0)).trans hnot
  refine ⟨_, rfl, ⟨h.users, h.inv.cacheMissLocked side u _, h.faithful.cacheMiss hnone _, fun hf => ?_, h.quiet⟩, rfl,
    hkept⟩
  exact absurd (hkept.symm.trans hf) (by decide)

theorem cacheMisses_run {lids : List Bytes} (hnot : s.memory.cacheFilled = false)
    (hnone : ∀ lid ∈ lids, s.tables.find .lid lid = none) :
    ∃ s', cacheMisses lids s = (.ok (), s') ∧ Transparent s' ∧ s'.tables = s.tables := by
  induction lids generalizing s with
  | nil => exact ⟨s, rfl, h, rfl⟩
  | cons lid lids ih =>
    obtain ⟨s₁, hmiss, h₁, htables, hnot₁⟩ := cacheMiss_run h hnot (hnone lid mem_cons_self)
    obtain ⟨s₂, hrest, h₂, htables₂⟩ :=
      ih h₁ hnot₁ fun l hl => htables ▸ hnone l (mem_cons_of_mem _ hl)
    refine ⟨s₂, ?_, h₂, htables₂.trans htables⟩
    rw [cacheMisses, bind_ok hmiss]
    exact hrest

/-- a lookup returns what the query finds -/
theorem getLIDMapping_run (source : JID) (targetServer : Bytes) (side : Side)
    (hserver : targetServer = hiddenUserServer ↔ side = .pn) :
    ∃ s', getLIDMapping source targetServer side s =
        (.ok (targetJID source targetServer ((s.tables.find side source.user).getD [])), s') ∧
      Transparent s' ∧ s'.tables = s.tables := by
  rw [getLIDMapping, get_bind]
  split_ifs with hin
  · rw [h.at0_eq hin]
    exact ⟨s, rfl, h, rfl⟩
  · have hnot : s.memory.cacheFilled = false := Bool.eq_false_iff.2 fun hf => hin (.inr hf)
    obtain ⟨s', hrun, ⟨hempty, hmiss⟩ | ⟨r, hr, hscan⟩⟩ := fetchLIDMapping_spec h.quiet hserver
    · have hnone : s.tables.find side source.user = none := by
        cases hfind : s.tables.find side source.user with
        | none => rfl
        | some target =>
          rw [hfind] at hempty
          exact absurd hempty (h.users.find_ne hfind).2
      obtain ⟨s'', hmiss', h', htables, -⟩ := cacheMiss_run h hnot hnone
      rw [hmiss] at hmiss'
      cases hmiss'
      exact ⟨s', hrun, h', htables⟩
    · exact ⟨s', hrun, h.scanned hnot hscan (by simpa using hr), hscan.tables⟩

end

/-! ## Reading many -/

/-- the user that a result has for a JID -/
def userOf (result : GoMap JID JID) (jid : JID) : Option Bytes := (result.lookup jid).map (·.user)

/-- a filled map has a pair for every user with a row -/
theorem Transparent.find_of_filled (h : Transparent s) (hfilled : s.memory.cacheFilled = true)
    (hempty : GoMap.at0 (s.memory.sourceToTarget side) u = []) : s.tables.find side u = none := by
  rw [h.at0_eq (.inr hfilled)] at hempty
  cases hfind : s.tables.find side u with
  | none => rfl
  | some v =>
    rw [hfind] at hempty
    exact absurd hempty (h.users.find_ne hfind).2

/-- a user that the database is not asked for and who has no other one in the map has no row -/
theorem Transparent.find_of_not_asked (h : Transparent s) (hasked : ¬Asked s.memory side u)
    (hempty : GoMap.at0 (s.memory.sourceToTarget side) u = []) : s.tables.find side u = none := by
  by_cases hfilled : s.memory.cacheFilled = true
  · exact h.find_of_filled hfilled hempty
  · cases side with
    | pn => exact absurd ⟨hempty, hfilled⟩ hasked
    | lid =>
      have hin : u ∈ s.memory.lidToPNCache := by
        by_contra hc
        exact hasked ⟨hc, hfilled⟩
      -- a remembered miss
      obtain ⟨v, hv⟩ := GoMap.lookup_of_mem hin
      have hb := h.faithful .lid u v hv
      rwa [LIDTable.Backs, if_pos ((GoMap.at0_of_lookup hv).symm.trans hempty)] at hb

/-- the maps and the rows that were asked for together answer like the query -/
theorem Transparent.user_manyAnswer (h : Transparent s) (side : Side) (targetServer : Bytes) (jid : JID) :
    (manyAnswer s side targetServer jid).map (·.user) = s.tables.find side jid.user := by
  unfold manyAnswer
  split_ifs with hasked hempty
  · rw [Option.map_map]
    exact Option.map_id'
  · exact (h.find_of_not_asked hasked hempty).symm
  · rw [h.find_of_at0 hempty, Option.map_some, targetJID, if_neg hempty]

theorem Transparent.fetched (h : Transparent s) (hf : s' = s ∨ Fetched s s') : Transparent s' ∧ s'.tables = s.tables := by
  rcases hf with rfl | ⟨hnot, rows, s₁, lids, hrows, hscan, hnone, hmisses⟩
  · exact ⟨h, rfl⟩
  · have h₁ : Transparent s₁ := h.scanned hnot hscan hrows
    obtain ⟨s₂, hrun, h₂, htables⟩ := cacheMisses_run h₁ (hscan.cached.cacheFilled.trans hnot) (hscan.tables ▸ hnone)
    rw [hmisses] at hrun
    cases hrun
    exact ⟨h₂, htables.trans hscan.tables⟩

/-- the users found for a list of JIDs are those that the query finds for the JIDs of the server -/
def AnswersAll (t : LIDTable) (side : Side) (server : Bytes) (jids : List JID) (found : GoMap JID JID) : Prop :=
  ∀ jid, userOf found jid = if jid ∈ jids ∧ jid.server = server then t.find side jid.user else none

section

variable (h : Transparent s)
include h

theorem Transparent.answersAll {server targetServer : Bytes} {jids : List JID}
    {found : GoMap JID JID} (hfound : ∀ jid, found.lookup jid =
      if jid ∈ jids ∧ jid.server = server then manyAnswer s side targetServer jid else none) :
    AnswersAll s.tables side server jids found := by
  intro jid
  rw [userOf, hfound]
  split_ifs
  · exact h.user_manyAnswer side targetServer jid
  · rfl

theorem getManyLIDsForPNs_run (pns : List JID) :
    ∃ found s', getManyLIDsForPNs pns s = (.ok found, s') ∧ AnswersAll s.tables .pn defaultUserServer pns found ∧
      Transparent s' ∧ s'.tables = s.tables := by
  obtain ⟨found, s', hrun, hfound, hfetched⟩ := getManyLIDsForPNs_spec h.quiet pns
  exact ⟨found, s', hrun, h.answersAll hfound, h.fetched hfetched⟩

theorem getManyPNsForLIDs_run (postgres : Bool) (lids : List JID) :
    ∃ found s', getManyPNsForLIDs postgres lids s = (.ok found, s') ∧
      AnswersAll s.tables .lid hiddenUserServer lids found ∧ Transparent s' ∧ s'.tables = s.tables := by
  obtain ⟨found, s', hrun, hfound, hfetched⟩ := getManyPNsForLIDs_spec h.quiet postgres lids
  exact ⟨found, s', hrun, h.answersAll hfound, h.fetched hfetched⟩

/-! ## Writing and filling -/

theorem Transparent.written (hw : Written s rows s') (hrows : ∀ r ∈ rows, ∀ side, r.source side ≠ [])
    (hlen : s.memory.cacheFilled = true →
      ∀ pre ∈ rows.inits, (pre.foldl LIDTable.put s.tables).rows.length ≤ maxLIDCacheEntries) : Transparent s' where
  users := hw.tables ▸ users_foldl_put h.users hrows
  inv := hw.cached.inv h.inv
  faithful := hw.tables ▸ hw.cached.faithful_put h.inv.mirrored h.users hrows h.faithful
  filled hfilled := by
    rw [hw.cached.cacheFilled] at hfilled
    rw [hw.tables]
    exact hw.cached.filled_put h.users hrows (hlen hfilled) (h.filled hfilled)
  quiet := hw.quiet

theorem Transparent.filledCache :
    ∃ s', fillCache s = (.ok (), s') ∧ Transparent s' ∧ s'.tables = s.tables ∧
      s'.memory.cacheFilled = decide (s.tables.rows.length ≤ maxLIDCacheEntries) := by
  obtain ⟨rows, s', hrun, hperm, hquiet, htables, m, hcached, hmemory⟩ := fillCache_run h.quiet
  have hempty : ∀ side, CachedLIDMap.sourceToTarget ⟨∅, ∅, s.memory.cacheFilled⟩ side = ∅ := by
    intro side
    cases side <;> rfl
  have hside : ∀ side, s'.memory.sourceToTarget side = m.sourceToTarget side := by
    intro side
    rw [hmemory]
    cases side <;> rfl
  have hfaithful : Faithful m s.tables := by
    refine hcached.faithful h.users (fun r hr => hperm.mem_iff.1 hr) fun side user target hl => ?_
    rw [hempty side] at hl
    cases hl
  have hinv : s'.memory.CacheInv := by
    have hkept := fillCache_keeps s h.inv
    rwa [hrun] at hkept
  refine ⟨s', hrun, ⟨htables ▸ h.users, hinv, ?_, ?_, hquiet⟩, htables, ?_⟩
  · intro side user target hl
    rw [hside side] at hl
    rw [htables]
    exact hfaithful side user target hl
  · intro hfilled side user
    rw [hside side, htables]
    rw [hmemory] at hfilled
    exact hcached.filled hempty h.users hperm (of_decide_eq_true hfilled) side user
  · rw [hmemory, hperm.length_eq]

end

/-! ## Runs -/

/-- the rows that a call writes -/
def writes (m : CachedLIDMap) : LIDOp → List LIDRow
  | .putLIDMapping lid pn => (toWrite m [⟨lid, pn⟩]).map rowOf
  | .putManyLIDMappings mappings => (toWrite m mappings).map rowOf
  | _ => []

/-- the call writes no empty user, and while `cacheFilled` is set the table never outgrows the maps -/
def Fits (s : LIDStore) (op : LIDOp) : Prop :=
  (∀ r ∈ writes s.memory op, ∀ side, r.source side ≠ []) ∧
    (s.memory.cacheFilled = true →
      ∀ pre ∈ (writes s.memory op).inits, (pre.foldl LIDTable.put s.tables).rows.length ≤ maxLIDCacheEntries)

/-- the user of a single answer; no JID is no answer -/
def foundUser (jid : JID) : Option Bytes := if jid.isEmpty then none else some jid.user

/-- a lookup finds what the direct query finds -/
def Answers (t : LIDTable) (outcome : Outcome LIDError LIDAnswer) : LIDOp → Prop
  | .getLIDForPN pn => pn.server = defaultUserServer →
    ∃ found, outcome = .ok (.jid found) ∧ foundUser found = t.find .pn pn.user
  | .getPNForLID lid => lid.server = hiddenUserServer →
    ∃ found, outcome = .ok (.jid found) ∧ foundUser found = t.find .lid lid.user
  | .getManyLIDsForPNs pns => ∃ found, outcome = .ok (.jids found) ∧ AnswersAll t .pn defaultUserServer pns found
  | .getManyPNsForLIDs _ lids => ∃ found, outcome = .ok (.jids found) ∧ AnswersAll t .lid hiddenUserServer lids found
  | _ => True

theorem foundUser_targetJID {source : JID} {targetServer : Bytes} (hu : t.Users) (hserver : targetServer ≠ []) :
    foundUser (targetJID source targetServer ((t.find side u).getD [])) = t.find side u := by
  cases hfind : t.find side u with
  | none => rfl
  | some target =>
    rw [Option.getD_some, targetJID, if_neg (hu.find_ne hfind).2, foundUser, if_neg]
    simp [JID.isEmpty, hserver]

/-- one call: the answer is right and the maps stay transparent -/
theorem runOp_spec (h : Transparent s) (op : LIDOp) (hfits : Fits s op) :
    Answers s.tables (runOp op s).1 op ∧ Transparent (runOp op s).2 := by
  cases op with
  | fillCache =>
    obtain ⟨s', hrun, h', -⟩ := h.filledCache
    rw [runOp, bind_ok hrun]
    exact ⟨trivial, h'⟩
  | putLIDMapping lid pn =>
    by_cases hs : OnServers ⟨lid, pn⟩
    · obtain ⟨s', hrun, hw⟩ := putManyLIDMappings_run h.quiet [⟨lid, pn⟩]
      rw [runOp, putLIDMapping_eq_many hs, bind_ok hrun]
      exact ⟨trivial, h.written hw hfits.1 hfits.2⟩
    · have hinvalid : lid.server ≠ hiddenUserServer ∨ pn.server ≠ defaultUserServer := not_and_or.1 hs
      rw [runOp, putLIDMapping, if_pos hinvalid, bind_err (throw_run _ s)]
      exact ⟨trivial, h⟩
  | putManyLIDMappings mappings =>
    obtain ⟨s', hrun, hw⟩ := putManyLIDMappings_run h.quiet mappings
    rw [runOp, bind_ok hrun]
    exact ⟨trivial, h.written hw hfits.1 hfits.2⟩
  | getLIDForPN pn =>
    by_cases hserver : pn.server = defaultUserServer
    · obtain ⟨s', hrun, h', -⟩ := getLIDMapping_run h pn hiddenUserServer .pn (iff_of_true rfl rfl)
      rw [runOp, getLIDForPN, if_neg (not_not.2 hserver), bind_ok hrun]
      exact ⟨fun _ => ⟨_, rfl, foundUser_targetJID h.users (by decide)⟩, h'⟩
    · rw [runOp, getLIDForPN, if_pos hserver, bind_err (throw_run _ s)]
      exact ⟨fun hc => absurd hc hserver, h⟩
  | getPNForLID lid =>
    by_cases hserver : lid.server = hiddenUserServer
    · obtain ⟨s', hrun, h', -⟩ :=
        getLIDMapping_run h lid defaultUserServer .lid (iff_of_false (by decide) (by decide))
      rw [runOp, getPNForLID, if_neg (not_not.2 hserver), bind_ok hrun]
      exact ⟨fun _ => ⟨_, rfl, foundUser_targetJID h.users (by decide)⟩, h'⟩
    · rw [runOp, getPNForLID, if_pos hserver, bind_err (throw_run _ s)]
      exact ⟨fun hc => absurd hc hserver, h⟩
  | getManyLIDsForPNs pns =>
    obtain ⟨found, s', hrun, hfound, h', -⟩ := getManyLIDsForPNs_run h pns
    rw [runOp, bind_ok hrun]
    exact ⟨⟨found, rfl, hfound⟩, h'⟩
  | getManyPNsForLIDs postgres lids =>
    obtain ⟨found, s', hrun, hfound, h', -⟩ := getManyPNsForLIDs_run h postgres lids
    rw [runOp, bind_ok hrun]
    exact ⟨⟨found, rfl, hfound⟩, h'⟩

/-- a new store over a table, with a database that does not fail -/
def start (table : LIDTable) (picks : List ℕ) : LIDStore := ⟨newCachedLIDMap, table, [], picks⟩

theorem transparent_start (table : LIDTable) (hu : table.Users) (picks : List ℕ) : Transparent (start table picks) where
  users := hu
  inv := .empty false
  faithful side user target hl := by cases side <;> cases hl
  filled hf := by cases hf
  quiet := rfl

/-- **The LID map answers like its table**, in every run in which the table keeps to the size of the maps while
`cacheFilled` is set and no empty user is written: each call finds what the direct query of that moment finds. -/
theorem lid_map_transparent (table : LIDTable) (hu : table.Users) (picks : List ℕ) (ops : List LIDOp)
    (hfits : Along step Fits (start table picks) ops) (n : ℕ) (op : LIDOp) (hop : ops[n]? = some op) :
    Answers (run step (start table picks) (ops.take n)).tables
      (runOp op (run step (start table picks) (ops.take n))).1 op := by
  have hstep : ∀ s op, Fits s op → Transparent s → Transparent (step s op) :=
    fun s op hok hs => (runOp_spec hs op hok).2
  have h := run_inv_take hstep (transparent_start table hu picks) hfits n
  exact (runOp_spec h op (hfits.get hop)).1

/-- a filled store, one write and a lookup -/
theorem lid_map_transparent_filled :
    let lid := newJID (ascii "7") hiddenUserServer
    let pn := newJID (ascii "5") defaultUserServer
    let ops := [.fillCache, .putLIDMapping lid pn, .getLIDForPN pn]
    Along step Fits (start .empty []) ops ∧
      Answers (run step (start .empty []) (ops.take 2)).tables
        (runOp (.getLIDForPN pn) (run step (start .empty []) (ops.take 2))).1 (.getLIDForPN pn) := by
  intro lid pn ops
  have hwrites : writes (step (start .empty []) .fillCache).memory (.putLIDMapping lid pn) = [⟨ascii "7", ascii "5"⟩] := by
    decide +kernel
  have hfits : Along step Fits (start .empty []) ops := by
    refine ⟨⟨by simp [writes], fun hf => by cases hf⟩, ⟨?_, fun _ => ?_⟩, ⟨by simp [writes], fun _ => ?_⟩, trivial⟩
    · rw [hwrites]
      intro r hr side
      rw [mem_singleton.1 hr]
      cases side <;> decide
    · rw [hwrites]
      intro pre hpre
      refine (length_foldl_put_le _ pre).trans ?_
      have hle := ((mem_inits _ _).1 hpre).length_le
      have hrows : (step (start .empty []) .fillCache).tables.rows.length = 0 := rfl
      rw [hrows]
      exact (Nat.add_le_add_left hle 0).trans (by decide)
    · decide +kernel
  exact ⟨hfits, lid_map_transparent .empty (by simp [LIDTable.Users, LIDTable.empty]) [] ops hfits 2 _ rfl⟩

/-! ## A filled map that forgets -/

/-- one mapping more than the maps can hold -/
def overfull : List LIDMapping :=
  (List.range (maxLIDCacheEntries + 1)).map fun i =>
    ⟨newJID (formatUint i) hiddenUserServer, newJID (formatUint i) defaultUserServer⟩

theorem eraseDups_of_nodup {α : Type} [DecidableEq α] {xs : List α} (h : xs.Nodup) : xs.eraseDups = xs := by
  induction xs with
  | nil => rfl
  | cons x xs ih =>
    obtain ⟨hx, hxs⟩ := nodup_cons.1 h
    have hfilter : xs.filter (fun b => !b == x) = xs := by
      refine filter_eq_self.2 fun b hb => ?_
      have hne : b ≠ x := fun he => hx (he ▸ hb)
      simpa using hne
    rw [eraseDups_cons, hfilter, ih hxs]

theorem pairwise_overfull : (overfull.map rowOf).Pairwise LIDRow.Apart := by
  unfold overfull
  rw [map_map, pairwise_map]
  refine nodup_range.imp fun hne side he => hne (formatUint_injective ?_)
  cases side <;> exact he

theorem toWrite_overfull {m : CachedLIDMap} (hempty : ∀ user, m.pnToLIDCache.lookup user = none) :
    toWrite m overfull = overfull := by
  have hnodup : overfull.Nodup := by
    refine (pairwise_map.1 pairwise_overfull).imp fun hap he => ?_
    exact hap .pn (congrArg (fun mapping => (rowOf mapping).source .pn) he)
  have hall : overfull.filter (fun mapping =>
      (mapping.lid.server = hiddenUserServer ∧ mapping.pn.server = defaultUserServer) ∧
        ¬isCached m mapping.lid mapping.pn = true) = overfull := by
    refine filter_eq_self.2 fun mapping hm => ?_
    obtain ⟨i, -, rfl⟩ := mem_map.1 hm
    simp [newJID, isCached, hempty]
  rw [toWrite, hall, eraseDups_of_nodup hnodup]

/-- the maps cannot have all of its users -/
theorem exists_forgotten {m : CachedLIDMap} (h : m.CacheInv) :
    ∃ i < maxLIDCacheEntries + 1, formatUint i ∉ m.pnToLIDCache := by
  by_contra hall
  have hsub : (List.range (maxLIDCacheEntries + 1)).map formatUint ⊆ m.pnToLIDCache.keys := by
    intro user huser
    obtain ⟨i, hi, rfl⟩ := mem_map.1 huser
    by_contra hnot
    exact hall ⟨i, mem_range.1 hi, fun hmem => hnot (AList.mem_keys.1 hmem)⟩
  have hle := ((nodup_range.map formatUint_injective).subperm hsub).length_le
  rw [length_map, length_range] at hle
  exact absurd (hle.trans (h.bounded .pn)) (Nat.not_succ_le_self _)

/-- **A filled map forgets.** After `FillCache` and a batch with one mapping more than the maps can hold, some user of the
table is not found. -/
theorem filled_cache_forgets :
    let s := run step (start .empty []) [.fillCache, .putManyLIDMappings overfull]
    ∃ pn lid, pn.server = defaultUserServer ∧ s.tables.find .pn pn.user = some lid ∧
      (runOp (.getLIDForPN pn) s).1 = .ok (.jid emptyJID) := by
  have hstart := transparent_start .empty (by simp [LIDTable.Users, LIDTable.empty]) []
  obtain ⟨s₁, hfill, h₁, htables, hfilled⟩ := hstart.filledCache
  have hempty : ∀ user, s₁.memory.pnToLIDCache.lookup user = none := by
    intro user
    have hl := h₁.filled (by rw [hfilled]; rfl) .pn user
    rw [htables] at hl
    exact hl
  obtain ⟨s₂, hput, hw⟩ := putManyLIDMappings_run h₁.quiet overfull
  rw [toWrite_overfull hempty] at hw
  have hrun : run step (start .empty []) [.fillCache, .putManyLIDMappings overfull] = s₂ := by
    have hstep₁ : step (start .empty []) .fillCache = s₁ := by rw [step, runOp, bind_ok hfill]; rfl
    have hstep₂ : step s₁ (.putManyLIDMappings overfull) = s₂ := by rw [step, runOp, bind_ok hput]; rfl
    rw [run_cons, run_cons, run_nil, hstep₁, hstep₂]
  obtain ⟨i, hi, hforgotten⟩ := exists_forgotten (hw.cached.inv h₁.inv)
  intro s
  have hs : s = s₂ := hrun
  clear_value s
  refine ⟨newJID (formatUint i) defaultUserServer, formatUint i, rfl, ?_, ?_⟩
  · have hrow : (⟨formatUint i, formatUint i⟩ : LIDRow) ∈ s.tables.rows := by
      rw [hs, hw.tables, mem_foldl_put pairwise_overfull (by simp [htables, start, LIDTable.empty])]
      refine .inr (mem_map.2 ⟨⟨_, _⟩, mem_map.2 ⟨i, mem_range.2 hi, rfl⟩, rfl⟩)
    exact find_eq_some.2 ⟨_, hrow, rfl, rfl⟩
  · have hcache : s.memory.cacheFilled = true := by
      rw [hs, hw.cached.cacheFilled, hfilled]
      rfl
    have hmiss : GoMap.at0 (s.memory.sourceToTarget .pn) (formatUint i) = [] := by
      rw [GoMap.at0, hs, show s₂.memory.sourceToTarget .pn = s₂.memory.pnToLIDCache from rfl,
        AList.lookup_eq_none.2 hforgotten]
      rfl
    have hget : getLIDForPN (newJID (formatUint i) defaultUserServer) s = (.ok emptyJID, s) := by
      rw [getLIDForPN, if_neg (by simp [newJID]), getLIDMapping, bind_ok (get_run s), if_pos (.inr hcache)]
      rw [newJID, hmiss]
      rfl
    rw [runOp, bind_ok hget]
    rfl

end LIDStore

end Hypermeow.Store
