/-
The methods of the LID map when no call of the database fails.

A call inserts rows into the maps: the rows that it reads (`Scanned`) or those that it writes (`Written`). What a lookup
returns is given in closed form for any maps and any table, also for maps that do not agree with the table:
- `getLIDMapping_answer`: one JID, `lookedUp` of its user.
- `getManyLIDsForPNs_spec`, `getManyPNsForLIDs_spec`: `manyAnswer` for each JID of the list. The JIDs that the maps do not
  answer (`Asked`) get the JID that their row gives.
-/
import Hypermeow.Store.LIDAgreement

namespace Hypermeow.Store

open Lib Types Go List LIDTable

variable {t : LIDTable} {side : Side} {row : LIDRow} {rows : List LIDRow} {u v : Bytes}

namespace LIDStore

open Session

variable {s s' : LIDStore} {ρ : Type}

/-! ## Rows and maps -/

/-- no call failed, the table is the same and the rows were inserted into the maps -/
structure Scanned (s : LIDStore) (rows : List LIDRow) (s' : LIDStore) : Prop where
  quiet : s'.Quiet
  tables : s'.tables = s.tables
  cached : Cached s.memory rows s'.memory

theorem Scanned.refl (h : s.Quiet) : Scanned s [] s := ⟨h, rfl, .nil _⟩

theorem Scanned.append {s'' : LIDStore} {rows' : List LIDRow} (h : Scanned s rows s') (h' : Scanned s' rows' s'') :
    Scanned s (rows ++ rows') s'' := ⟨h'.quiet, h'.tables.trans h.tables, h.cached.append h'.cached⟩

theorem cacheMapping_run (row : LIDRow) (h : s.Quiet) :
    ∃ s', cacheMapping row.lid row.pn s = (.ok (), s') ∧ Scanned s [row] s' :=
  ⟨_, rfl, h, rfl, .cons _ _ (.nil _)⟩

theorem scanManyLids_run (fn : ρ → LIDRow → ρ) (rows : List LIDRow) (acc : ρ) (h : s.Quiet) :
    ∃ s', scanManyLids fn rows acc s = (.ok (rows.length, rows.foldl fn acc), s') ∧ Scanned s rows s' := by
  induction rows generalizing acc s with
  | nil =>
    refine ⟨s, ?_, .refl h⟩
    rw [scanManyLids, bind_ok (call_ok h)]
    rfl
  | cons row rows ih =>
    obtain ⟨s₁, hrow, hscan⟩ := cacheMapping_run row h
    obtain ⟨s₂, hrows, hscan'⟩ := ih (fn acc row) hscan.quiet
    refine ⟨s₂, ?_, hscan.append hscan'⟩
    rw [scanManyLids, bind_ok (call_ok h), bind_ok hrow, bind_ok hrows]
    rfl

theorem scanQuery_run (fn : ρ → LIDRow → ρ) (select : LIDRow → Bool) (acc : ρ) (h : s.Quiet) :
    ∃ rows s', scanQuery fn select acc s = (.ok (rows.length, rows.foldl fn acc), s') ∧
      rows.Perm (s.tables.rows.filter select) ∧ Scanned s rows s' := by
  obtain ⟨rows, picks, hquery, hperm⟩ := query_ok (e := LIDError.database) (f := fun t => t.rows.filter select) h
  obtain ⟨s', hscan, hs'⟩ := scanManyLids_run (s := { s with picks := picks }) fn rows acc h
  refine ⟨rows, s', ?_, hperm, hs'.quiet, hs'.tables, hs'.cached⟩
  rw [scanQuery, bind_ok hquery]
  exact hscan

theorem scanBatches_run (devices : List JID) (batches : List (List Bytes)) (acc : List Bytes × GoMap JID JID)
    (h : s.Quiet) :
    ∃ rows s', scanBatches devices batches acc s = (.ok (rows.foldl (addFound devices) acc), s') ∧
      (∀ r, r ∈ rows ↔ r ∈ s.tables.rows ∧ r.lid ∈ batches.flatten) ∧ Scanned s rows s' := by
  induction batches generalizing acc s with
  | nil => exact ⟨[], s, rfl, by simp, .refl h⟩
  | cons batch batches ih =>
    obtain ⟨rows, s₁, hbatch, hperm, hscan⟩ := scanQuery_run (addFound devices) (fun row => row.lid ∈ batch) acc h
    obtain ⟨rows', s₂, hrest, hmem, hscan'⟩ := ih (rows.foldl (addFound devices) acc) hscan.quiet
    refine ⟨rows ++ rows', s₂, ?_, fun r => ?_, hscan.append hscan'⟩
    · rw [scanBatches, bind_ok hbatch, foldl_append]
      exact hrest
    · rw [mem_append, hperm.mem_iff, hmem, hscan.tables, flatten_cons, mem_append, mem_filter,
        decide_eq_true_iff, and_or_left]

/-! ## Reading one -/

/-- the user that a lookup finds; the empty user stands for nothing -/
def lookedUp (s : LIDStore) (side : Side) (user : Bytes) : Bytes :=
  if user ∈ s.memory.sourceToTarget side ∨ s.memory.cacheFilled then GoMap.at0 (s.memory.sourceToTarget side) user
  else (s.tables.find side user).getD []

variable {targetServer : Bytes}

theorem cacheFound_run {source : JID} {target : Bytes} (h : s.Quiet)
    (hserver : targetServer = hiddenUserServer ↔ side = .pn) (hfind : s.tables.find side source.user = some target) :
    ∃ r ∈ s.tables.rows, ∃ s', cacheFound source targetServer target s = (.ok (), s') ∧ Scanned s [r] s' := by
  obtain ⟨r, hr, hs, ht⟩ := find_eq_some.1 hfind
  refine ⟨r, hr, ?_⟩
  obtain ⟨s', hrun, hscan⟩ := cacheMapping_run r h
  refine ⟨s', ?_, hscan⟩
  unfold cacheFound
  cases side with
  | pn =>
    rw [if_pos (hserver.2 rfl), ← hs, ← ht]
    exact hrun
  | lid =>
    rw [if_neg (fun hc => Side.noConfusion (hserver.1 hc)), ← hs, ← ht]
    exact hrun

/-- the query, and what is inserted into the maps after it -/
theorem fetchLIDMapping_spec {source : JID} (h : s.Quiet) (hserver : targetServer = hiddenUserServer ↔ side = .pn) :
    ∃ s', fetchLIDMapping source targetServer side s =
        (.ok (targetJID source targetServer ((s.tables.find side source.user).getD [])), s') ∧
      (((s.tables.find side source.user).getD [] = [] ∧ cacheMiss side source.user s = (.ok (), s')) ∨
        ∃ r ∈ s.tables.rows, Scanned s [r] s') := by
  rw [fetchLIDMapping, bind_ok (call_ok h), get_bind]
  by_cases hempty : (s.tables.find side source.user).getD [] = []
  · refine ⟨(cacheMiss side source.user s).2, ?_, .inl ⟨hempty, rfl⟩⟩
    rw [hempty, if_pos rfl]
    rfl
  · cases hfind : s.tables.find side source.user with
    | none =>
      rw [hfind] at hempty
      exact absurd rfl hempty
    | some target =>
      rw [hfind, Option.getD_some] at hempty
      obtain ⟨r, hr, s', hrun, hscan⟩ := cacheFound_run h hserver hfind
      refine ⟨s', ?_, .inr ⟨r, hr, hscan⟩⟩
      rw [Option.getD_some, if_neg hempty, bind_ok hrun]
      rfl

theorem getLIDMapping_answer (h : s.Quiet) (source : JID) (targetServer : Bytes) (side : Side)
    (hserver : targetServer = hiddenUserServer ↔ side = .pn) :
    ∃ s', getLIDMapping source targetServer side s =
      (.ok (targetJID source targetServer (lookedUp s side source.user)), s') := by
  rw [getLIDMapping, get_bind, lookedUp]
  split_ifs with hin
  · exact ⟨s, rfl⟩
  · obtain ⟨s', hrun, -⟩ := fetchLIDMapping_spec h hserver
    exact ⟨s', hrun⟩

theorem getLIDForPN_answer (h : s.Quiet) {pn : JID} (hserver : pn.server = defaultUserServer) :
    ∃ s', getLIDForPN pn s = (.ok (targetJID pn hiddenUserServer (lookedUp s .pn pn.user)), s') := by
  rw [getLIDForPN, if_neg (not_not.2 hserver)]
  exact getLIDMapping_answer h pn hiddenUserServer .pn (iff_of_true rfl rfl)

theorem getPNForLID_answer (h : s.Quiet) {lid : JID} (hserver : lid.server = hiddenUserServer) :
    ∃ s', getPNForLID lid s = (.ok (targetJID lid defaultUserServer (lookedUp s .lid lid.user)), s') := by
  rw [getPNForLID, if_neg (not_not.2 hserver)]
  exact getLIDMapping_answer h lid defaultUserServer .lid (iff_of_false (by decide) (by decide))

/-! ## Reading many -/

/-- the database is asked for the user: for a PN also when the map says that there is no row -/
def Asked (m : CachedLIDMap) (side : Side) (user : Bytes) : Prop :=
  (match side with
    | .pn => GoMap.at0 m.pnToLIDCache user = []
    | .lid => user ∉ m.lidToPNCache) ∧ ¬m.cacheFilled

instance (m : CachedLIDMap) (side : Side) (user : Bytes) : Decidable (Asked m side user) := by
  cases side <;> exact inferInstanceAs (Decidable (_ ∧ _))

/-- the JID that a row gives for a JID of its user -/
def rowAnswer (targetServer : Bytes) (jid : JID) (target : Bytes) : JID := { jid with server := targetServer, user := target }

/-- what a call for many JIDs has for one of them -/
def manyAnswer (s : LIDStore) (side : Side) (targetServer : Bytes) (jid : JID) : Option JID :=
  if Asked s.memory side jid.user then (s.tables.find side jid.user).map (rowAnswer targetServer jid)
  else if GoMap.at0 (s.memory.sourceToTarget side) jid.user = [] then none
  else some (targetJID jid targetServer (GoMap.at0 (s.memory.sourceToTarget side) jid.user))

/-- a user that the database is asked for has no other one in the map -/
theorem Asked.at0_eq {m : CachedLIDMap} (h : Asked m side u) : GoMap.at0 (m.sourceToTarget side) u = [] := by
  cases side with
  | pn => exact h.1
  | lid =>
    by_contra hc
    exact h.1 (GoMap.mem_of_lookup (GoMap.lookup_of_at0_ne hc))

theorem lookup_addCached (m : CachedLIDMap) (side : Side) (targetServer : Bytes) (devices : List JID)
    (result : GoMap JID JID) (jid : JID) :
    (addCached m side targetServer devices result).lookup jid =
      if jid ∈ devices ∧ GoMap.at0 (m.sourceToTarget side) jid.user ≠ [] then
        some (targetJID jid targetServer (GoMap.at0 (m.sourceToTarget side) jid.user))
      else result.lookup jid := by
  unfold addCached
  rw [GoMap.lookup_insertAll]
  simp only [mem_filter, decide_eq_true_iff]

theorem lookup_addDevices (side : Side) (targetServer : Bytes) (devices : List JID) (result : GoMap JID JID)
    (row : LIDRow) (jid : JID) :
    (addDevices side targetServer devices result row).lookup jid =
      if jid ∈ devices ∧ jid.user = row.source side then some (rowAnswer targetServer jid (row.target side))
      else result.lookup jid := by
  unfold addDevices
  rw [GoMap.lookup_insertAll]
  simp only [mem_filter, decide_eq_true_iff]
  rfl

/-- what the rows answer -/
theorem lookup_rows {devices : List JID} (hrows : ∀ r ∈ rows, r ∈ t.rows) (result : GoMap JID JID) (jid : JID) :
    (rows.foldl (addDevices side targetServer devices) result).lookup jid =
      if jid ∈ devices ∧ ∃ r ∈ rows, r.source side = jid.user then
        (t.find side jid.user).map (rowAnswer targetServer jid)
      else result.lookup jid := by
  have hstep : ∀ (result : GoMap JID JID), ∀ row ∈ rows, (addDevices side targetServer devices result row).lookup jid =
      if jid ∈ devices ∧ row.source side = jid.user then (t.find side jid.user).map (rowAnswer targetServer jid)
      else result.lookup jid := by
    intro result row hrow
    rw [lookup_addDevices]
    by_cases hu : row.source side = jid.user
    · rw [← hu, find_of_mem (hrows row hrow)]
      simp
    · rw [if_neg fun hc => hu hc.2.symm, if_neg fun hc => hu hc.2]
  rw [foldl_ite hstep]
  refine if_congr ?_ rfl rfl
  constructor
  · rintro ⟨row, hrow, hjid, hu⟩
    exact ⟨hjid, row, hrow, hu⟩
  · rintro ⟨hjid, row, hrow, hu⟩
    exact ⟨row, hrow, hjid, hu⟩

/-- the answers of the maps and those of the rows that were asked for -/
theorem lookup_answers {valid missing : List JID} {result : GoMap JID JID}
    (hmissing : ∀ jid, jid ∈ missing ↔ jid ∈ valid ∧ Asked s.memory side jid.user)
    (hrows : ∀ r, r ∈ rows ↔ r ∈ s.tables.rows ∧ r.source side ∈ missing.map (·.user))
    (hresult : ∀ jid, result.lookup jid = (addCached s.memory side targetServer valid ∅).lookup jid) (jid : JID) :
    (rows.foldl (addDevices side targetServer missing) result).lookup jid =
      if jid ∈ valid then manyAnswer s side targetServer jid else none := by
  rw [lookup_rows fun r hr => ((hrows r).1 hr).1, hresult, lookup_addCached, manyAnswer]
  by_cases hvalid : jid ∈ valid
  · rw [if_pos hvalid]
    by_cases hasked : Asked s.memory side jid.user
    · have hjid : jid ∈ missing := (hmissing jid).2 ⟨hvalid, hasked⟩
      have hempty : ¬(jid ∈ valid ∧ GoMap.at0 (s.memory.sourceToTarget side) jid.user ≠ []) :=
        fun hc => hc.2 hasked.at0_eq
      rw [if_pos hasked, if_neg hempty]
      split_ifs with hrow
      · rfl
      · have hnone : s.tables.find side jid.user = none := by
          refine find_eq_none.2 fun r hr hs => hrow ⟨hjid, r, (hrows r).2 ⟨hr, ?_⟩, hs⟩
          exact mem_map.2 ⟨jid, hjid, hs.symm⟩
        rw [hnone]
        rfl
    · have hjid : ¬(jid ∈ missing ∧ ∃ r ∈ rows, r.source side = jid.user) :=
        fun hc => hasked ((hmissing jid).1 hc.1).2
      rw [if_neg hasked, if_neg hjid]
      by_cases hempty : GoMap.at0 (s.memory.sourceToTarget side) jid.user = []
      · rw [if_neg fun hc => hc.2 hempty, if_pos hempty]
        rfl
      · rw [if_pos ⟨hvalid, hempty⟩, if_neg hempty]
  · rw [if_neg hvalid, if_neg fun hc => hvalid ((hmissing jid).1 hc.1).1, if_neg fun hc => hvalid hc.1]
    rfl

/-- what a call for many JIDs does to the store: rows of the table are read, and users without one are remembered -/
def Fetched (s s' : LIDStore) : Prop :=
  s.memory.cacheFilled = false ∧ ∃ rows s₁ lids, (∀ r ∈ rows, r ∈ s.tables.rows) ∧ Scanned s rows s₁ ∧
    (∀ lid ∈ lids, s.tables.find .lid lid = none) ∧ cacheMisses lids s₁ = (.ok (), s')

theorem getManyLIDsForPNs_spec (h : s.Quiet) (pns : List JID) :
    ∃ found s', getManyLIDsForPNs pns s = (.ok found, s') ∧
      (∀ jid, found.lookup jid =
        if jid ∈ pns ∧ jid.server = defaultUserServer then manyAnswer s .pn hiddenUserServer jid else none) ∧
      (s' = s ∨ Fetched s s') := by
  rw [getManyLIDsForPNs, get_bind]
  generalize hvalid : pns.filter (fun pn => pn.server = defaultUserServer) = valid
  generalize hmissing : valid.filter (fun pn => GoMap.at0 s.memory.pnToLIDCache pn.user = [] ∧
    ¬s.memory.cacheFilled = true) = missing
  have hmem : ∀ jid, jid ∈ valid ↔ jid ∈ pns ∧ jid.server = defaultUserServer := by
    intro jid
    rw [← hvalid, mem_filter, decide_eq_true_iff]
  have hmiss : ∀ jid, jid ∈ missing ↔ jid ∈ valid ∧ Asked s.memory .pn jid.user := by
    intro jid
    rw [← hmissing, mem_filter, decide_eq_true_iff]
    rfl
  split_ifs with hnone
  · refine ⟨_, s, rfl, fun jid => ?_, .inl rfl⟩
    rw [if_congr (hmem jid).symm rfl rfl]
    have hrows : ∀ r, r ∈ ([] : List LIDRow) ↔ r ∈ s.tables.rows ∧ r.source .pn ∈ missing.map (·.user) := by
      simp [hnone]
    exact lookup_answers hmiss hrows (fun _ => rfl) jid
  · obtain ⟨jid₀, hjid₀⟩ := exists_mem_of_ne_nil _ hnone
    have hnot : s.memory.cacheFilled = false := Bool.eq_false_iff.2 ((hmiss jid₀).1 hjid₀).2.2
    obtain ⟨rows, s', hrun, hperm, hscan⟩ := scanQuery_run (addDevices .pn hiddenUserServer missing)
      (fun row => row.pn ∈ missing.map (·.user)) (addCached s.memory .pn hiddenUserServer valid ∅) h
    have hrows : ∀ r, r ∈ rows ↔ r ∈ s.tables.rows ∧ r.source .pn ∈ missing.map (·.user) := by
      intro r
      rw [hperm.mem_iff, mem_filter, decide_eq_true_iff]
      rfl
    refine ⟨rows.foldl (addDevices .pn hiddenUserServer missing) (addCached s.memory .pn hiddenUserServer valid ∅), s',
      ?_, fun jid => ?_, .inr ⟨hnot, rows, s', [], fun r hr => ((hrows r).1 hr).1, hscan, ?_, rfl⟩⟩
    · rw [bind_ok hrun]
      rfl
    · rw [if_congr (hmem jid).symm rfl rfl]
      exact lookup_answers hmiss hrows (fun _ => rfl) jid
    · intro lid hlid
      cases hlid

theorem foldl_addFound (devices : List JID) (rows : List LIDRow) (acc : List Bytes × GoMap JID JID) :
    (∀ lid, lid ∈ (rows.foldl (addFound devices) acc).1 ↔ lid ∈ acc.1 ∨ ∃ r ∈ rows, r.lid = lid) ∧
      (rows.foldl (addFound devices) acc).2 = rows.foldl (addDevices .lid defaultUserServer devices) acc.2 := by
  induction rows generalizing acc with
  | nil => simp
  | cons row rows ih =>
    obtain ⟨hfound, hresult⟩ := ih (addFound devices acc row)
    refine ⟨fun lid => ?_, hresult⟩
    rw [foldl_cons, hfound lid, exists_mem_cons_iff, addFound, mem_cons, eq_comm]
    tauto

/-- every element is in a chunk, and the chunks have no others -/
theorem mem_chunks {n : ℕ} (hn : 0 < n) (xs : List Bytes) (x : Bytes) : x ∈ (chunks n xs).flatten ↔ x ∈ xs := by
  simp only [chunks, mem_flatten, mem_map, mem_range]
  constructor
  · rintro ⟨_, ⟨i, -, rfl⟩, hx⟩
    exact mem_of_mem_drop (mem_of_mem_take hx)
  · intro hx
    obtain ⟨j, hj, rfl⟩ := getElem_of_mem hx
    refine ⟨_, ⟨j / n, ?_, rfl⟩, ?_⟩
    · rw [Nat.div_lt_iff_lt_mul hn, Nat.mul_comm]
      have hdiv := Nat.div_add_mod (xs.length + n - 1) n
      have hmod := Nat.mod_lt (xs.length + n - 1) hn
      omega
    · have hmod : j % n < n := Nat.mod_lt j hn
      refine mem_of_getElem? (i := j % n) ?_
      rw [getElem?_take_of_lt hmod, getElem?_drop, Nat.mul_comm, Nat.div_add_mod]
      exact getElem?_eq_getElem hj

theorem mem_lidBatches (postgres : Bool) (lids : List Bytes) (lid : Bytes) :
    lid ∈ (lidBatches postgres lids).flatten ↔ lid ∈ lids := by
  unfold lidBatches
  split_ifs
  · simp
  · exact mem_chunks (by decide) lids lid

/-- remembering that users have no row always succeeds -/
theorem cacheMisses_ok (lids : List Bytes) (s : LIDStore) : ∃ s', cacheMisses lids s = (.ok (), s') := by
  induction lids generalizing s with
  | nil => exact ⟨s, rfl⟩
  | cons lid lids ih => exact ih (cacheMiss .lid lid s).2

theorem fetchPNsForLIDs_spec {valid missing : List JID} (h : s.Quiet) (postgres : Bool)
    (hmiss : ∀ jid, jid ∈ missing ↔ jid ∈ valid ∧ Asked s.memory .lid jid.user) (hne : missing ≠ []) :
    ∃ found s', fetchPNsForLIDs postgres missing (addCached s.memory .lid defaultUserServer valid ∅) s =
        (.ok found, s') ∧
      (∀ jid, found.lookup jid = if jid ∈ valid then manyAnswer s .lid defaultUserServer jid else none) ∧
      Fetched s s' := by
  obtain ⟨jid₀, hjid₀⟩ := exists_mem_of_ne_nil _ hne
  have hnot : s.memory.cacheFilled = false := Bool.eq_false_iff.2 ((hmiss jid₀).1 hjid₀).2.2
  rw [fetchPNsForLIDs, get_bind]
  -- the second look at the map finds what the first one found
  have hsame : ∀ jid, (addCached s.memory .lid defaultUserServer missing
      (addCached s.memory .lid defaultUserServer valid ∅)).lookup jid =
        (addCached s.memory .lid defaultUserServer valid ∅).lookup jid := by
    intro jid
    rw [lookup_addCached, if_neg]
    rintro ⟨hj, hc⟩
    exact hc ((hmiss jid).1 hj).2.at0_eq
  generalize addCached s.memory .lid defaultUserServer missing
    (addCached s.memory .lid defaultUserServer valid ∅) = result' at hsame ⊢
  generalize hquery : ((missing.map (·.user)).eraseDups.filter fun lid =>
    decide (lid ∉ s.memory.lidToPNCache ∧ ¬s.memory.cacheFilled = true)) = queryLIDs
  have hmem : ∀ lid, lid ∈ queryLIDs ↔ lid ∈ missing.map (·.user) := by
    intro lid
    rw [← hquery, mem_filter, mem_eraseDups, decide_eq_true_iff, and_iff_left_iff_imp]
    intro hlid
    obtain ⟨jid, hj, rfl⟩ := mem_map.1 hlid
    exact ((hmiss jid).1 hj).2
  rw [if_neg (ne_nil_of_mem ((hmem jid₀.user).2 (mem_map_of_mem hjid₀)))]
  obtain ⟨rows, s₁, hrun, hrows, hscan⟩ := scanBatches_run missing (lidBatches postgres queryLIDs) ([], result') h
  have hrows' : ∀ r, r ∈ rows ↔ r ∈ s.tables.rows ∧ r.source .lid ∈ missing.map (·.user) := by
    intro r
    rw [hrows, mem_lidBatches, hmem]
    rfl
  obtain ⟨hfound, hanswers⟩ := foldl_addFound missing rows ([], result')
  generalize hlids : queryLIDs.filter (fun lid => lid ∉ (rows.foldl (addFound missing) ([], result')).1) = lids
  have hnone : ∀ lid ∈ lids, s.tables.find .lid lid = none := by
    intro lid hlid
    rw [← hlids, mem_filter, decide_eq_true_iff, hfound] at hlid
    refine find_eq_none.2 fun r hr hs => hlid.2 (.inr ⟨r, (hrows' r).2 ⟨hr, ?_⟩, hs⟩)
    rw [hs]
    exact (hmem lid).1 hlid.1
  obtain ⟨s₂, hmisses⟩ := cacheMisses_ok lids s₁
  refine ⟨(rows.foldl (addFound missing) ([], result')).2, s₂, ?_, fun jid => ?_,
    hnot, rows, s₁, lids, fun r hr => ((hrows r).1 hr).1, hscan, hnone, hmisses⟩
  · rw [bind_ok hrun, hlids, bind_ok hmisses]
    rfl
  · rw [hanswers]
    exact lookup_answers hmiss hrows' hsame jid

theorem getManyPNsForLIDs_spec (h : s.Quiet) (postgres : Bool) (lids : List JID) :
    ∃ found s', getManyPNsForLIDs postgres lids s = (.ok found, s') ∧
      (∀ jid, found.lookup jid =
        if jid ∈ lids ∧ jid.server = hiddenUserServer then manyAnswer s .lid defaultUserServer jid else none) ∧
      (s' = s ∨ Fetched s s') := by
  rw [getManyPNsForLIDs, get_bind]
  generalize hvalid : lids.filter (fun lid => lid.server = hiddenUserServer) = valid
  generalize hmissing : valid.filter (fun lid => lid.user ∉ s.memory.lidToPNCache ∧
    ¬s.memory.cacheFilled = true) = missing
  have hmem : ∀ jid, jid ∈ valid ↔ jid ∈ lids ∧ jid.server = hiddenUserServer := by
    intro jid
    rw [← hvalid, mem_filter, decide_eq_true_iff]
  have hmiss : ∀ jid, jid ∈ missing ↔ jid ∈ valid ∧ Asked s.memory .lid jid.user := by
    intro jid
    rw [← hmissing, mem_filter, decide_eq_true_iff]
    rfl
  split_ifs with hnone
  · refine ⟨_, s, rfl, fun jid => ?_, .inl rfl⟩
    rw [if_congr (hmem jid).symm rfl rfl]
    have hrows : ∀ r, r ∈ ([] : List LIDRow) ↔ r ∈ s.tables.rows ∧ r.source .lid ∈ missing.map (·.user) := by
      simp [hnone]
    exact lookup_answers hmiss hrows (fun _ => rfl) jid
  · obtain ⟨found, s', hrun, hfound, hfetched⟩ := fetchPNsForLIDs_spec h postgres hmiss hnone
    refine ⟨found, s', hrun, fun jid => ?_, .inr hfetched⟩
    rw [if_congr (hmem jid).symm rfl rfl]
    exact hfound jid

/-! ## Writing -/

/-- no call failed, the rows were written one after the other and inserted into the maps -/
structure Written (s : LIDStore) (rows : List LIDRow) (s' : LIDStore) : Prop where
  quiet : s'.Quiet
  tables : s'.tables = rows.foldl LIDTable.put s.tables
  cached : Cached s.memory rows s'.memory

theorem Written.refl (h : s.Quiet) : Written s [] s := ⟨h, rfl, .nil _⟩

theorem Written.append {s'' : LIDStore} {rows' : List LIDRow} (h : Written s rows s') (h' : Written s' rows' s'') :
    Written s (rows ++ rows') s'' := by
  refine ⟨h'.quiet, ?_, h.cached.append h'.cached⟩
  rw [h'.tables, h.tables, foldl_append]

/-- the servers that `PutLIDMapping` takes -/
def OnServers (mapping : LIDMapping) : Prop :=
  mapping.lid.server = hiddenUserServer ∧ mapping.pn.server = defaultUserServer

def rowOf (mapping : LIDMapping) : LIDRow := ⟨mapping.lid.user, mapping.pn.user⟩

variable {mapping : LIDMapping}

theorem unlockedPutLIDMapping_run (h : s.Quiet) (hs : OnServers mapping) :
    ∃ s', unlockedPutLIDMapping mapping.lid mapping.pn s = (.ok (), s') ∧ Written s [rowOf mapping] s' := by
  have hvalid : ¬(mapping.lid.server ≠ hiddenUserServer ∨ mapping.pn.server ≠ defaultUserServer) :=
    not_or.2 ⟨not_not.2 hs.1, not_not.2 hs.2⟩
  obtain ⟨s', hrun, hscan⟩ := cacheMapping_run (s := { s with tables := s.tables.put (rowOf mapping) }) (rowOf mapping) h
  refine ⟨s', ?_, hscan.quiet, hscan.tables, hscan.cached⟩
  have hdelete := exec_ok (e := LIDError.database)
    (f := fun t => some (t.deleteExistingLIDMapping mapping.lid.user mapping.pn.user)) h rfl
  have hinsert := exec_ok (e := LIDError.database) (f := fun t => t.putLIDMapping mapping.lid.user mapping.pn.user)
    (s := { s with tables := s.tables.deleteExistingLIDMapping mapping.lid.user mapping.pn.user }) h
    (put_eq s.tables (rowOf mapping))
  rw [unlockedPutLIDMapping, if_neg hvalid, bind_ok hdelete, bind_ok hinsert]
  exact hrun

theorem putAll_run {mappings : List LIDMapping} (h : s.Quiet) (hs : ∀ mapping ∈ mappings, OnServers mapping) :
    ∃ s', putAll mappings s = (.ok (), s') ∧ Written s (mappings.map rowOf) s' := by
  induction mappings generalizing s with
  | nil => exact ⟨s, rfl, .refl h⟩
  | cons mapping mappings ih =>
    obtain ⟨s₁, hone, hwritten⟩ := unlockedPutLIDMapping_run h (hs mapping mem_cons_self)
    obtain ⟨s₂, hrest, hwritten'⟩ := ih hwritten.quiet fun x hx => hs x (mem_cons_of_mem _ hx)
    refine ⟨s₂, ?_, hwritten.append hwritten'⟩
    rw [putAll, bind_ok hone]
    exact hrest

theorem mem_toWrite {m : CachedLIDMap} {mappings : List LIDMapping} :
    mapping ∈ toWrite m mappings ↔
      mapping ∈ mappings ∧ OnServers mapping ∧ ¬isCached m mapping.lid mapping.pn = true := by
  rw [toWrite, mem_eraseDups, mem_filter, decide_eq_true_iff]
  rfl

theorem putManyLIDMappings_run (h : s.Quiet) (mappings : List LIDMapping) :
    ∃ s', putManyLIDMappings mappings s = (.ok (), s') ∧
      Written s ((toWrite s.memory mappings).map rowOf) s' := by
  rw [putManyLIDMappings, get_bind]
  split_ifs with hnone
  · rw [hnone]
    exact ⟨s, rfl, .refl h⟩
  · obtain ⟨s', hrun, hwritten⟩ := putAll_run h fun x hx => (mem_toWrite.1 hx).2.1
    exact ⟨s', transaction_ok h hrun hwritten.quiet, hwritten⟩

theorem toWrite_singleton (hs : OnServers mapping) (m : CachedLIDMap) :
    toWrite m [mapping] = if isCached m mapping.lid mapping.pn then [] else [mapping] := by
  unfold toWrite
  split_ifs with hc
  · simp [hs.1, hs.2, hc]
  · rw [filter_eq_self.2 (by simp [hs.1, hs.2, hc])]
    rfl

/-- a single mapping is written like a batch of one -/
theorem putLIDMapping_eq_many (hs : OnServers mapping) :
    putLIDMapping mapping.lid mapping.pn = putManyLIDMappings [mapping] := by
  have hvalid : ¬(mapping.lid.server ≠ hiddenUserServer ∨ mapping.pn.server ≠ defaultUserServer) :=
    not_or.2 ⟨not_not.2 hs.1, not_not.2 hs.2⟩
  have hone : putAll [mapping] = unlockedPutLIDMapping mapping.lid mapping.pn := bind_pure_unit
  funext s
  rw [putLIDMapping, if_neg hvalid, putManyLIDMappings, get_bind, get_bind,
    toWrite_singleton hs]
  by_cases hc : isCached s.memory mapping.lid mapping.pn = true
  · rw [if_pos hc, if_pos hc, if_pos rfl]
  · rw [if_neg hc, if_neg hc, if_neg (cons_ne_nil _ _), hone]

/-! ## Filling -/

theorem fillCache_run (h : s.Quiet) :
    ∃ rows s', fillCache s = (.ok (), s') ∧ rows.Perm s.tables.rows ∧ s'.Quiet ∧ s'.tables = s.tables ∧
      ∃ m, Cached ⟨∅, ∅, s.memory.cacheFilled⟩ rows m ∧
        s'.memory = { m with cacheFilled := decide (rows.length ≤ maxLIDCacheEntries) } := by
  obtain ⟨rows, s₁, hrun, hperm, hscan⟩ := scanQuery_run
    (s := { s with memory := ⟨∅, ∅, s.memory.cacheFilled⟩ }) (fun (_ : Unit) _ => ()) (fun _ => true) () h
  refine ⟨rows, { s₁ with memory := { s₁.memory with cacheFilled := decide (rows.length ≤ maxLIDCacheEntries) } },
    ?_, ?_, hscan.quiet, hscan.tables, s₁.memory, hscan.cached, rfl⟩
  · rw [fillCache, bind_ok (update_run _ s)]
    have hattempt : (Go.attempt (scanQuery (fun (_ : Unit) _ => ()) (fun _ => true) ()) :
        Go LIDStore LIDError (Except LIDError (ℕ × Unit))) { s with memory := ⟨∅, ∅, s.memory.cacheFilled⟩ } =
        (.ok (.ok (rows.length, rows.foldl (fun (_ : Unit) _ => ()) ())), s₁) := by
      rw [Go.attempt, hrun]
    rw [bind_ok hattempt]
    rfl
  · simpa using hperm

end LIDStore

end Hypermeow.Store
