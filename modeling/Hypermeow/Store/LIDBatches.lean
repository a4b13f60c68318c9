/-
Batches of LID lookups and LID writes, compared with one call for each element.

Lookups: a call for many JIDs answers from the maps where it can and asks the database for the rest. An answer from the maps
has the device of the JID, as the answer to a single lookup has. An answer from a row is a copy of the JID with another
user and server, so it also has the agent and the integrator of the JID. Beside that, the call for PNs asks again for a
user whom the maps remember as having no row.

Writes: a batch drops the mappings that the maps have when it starts, and repeated ones, and writes the rest in order. Calls
for one mapping after the other drop a mapping if the maps have it when its turn comes.

Results:
- `mem_foldl_put_iff`: which rows a list of writes leaves: the last write that names a LID or a PN decides.
-/
import Hypermeow.Store.LIDCalls

namespace Hypermeow.Store

open Lib Types List LIDTable CachedLIDMap AList

namespace LIDStore

open Session

variable {s s' : LIDStore} {side : Side} {jid : JID} {t : LIDTable} {row : LIDRow} {rows : List LIDRow} {u v : Bytes}

/-! ## Lookups -/

/-- the JID that a lookup returns; the empty JID stands for none -/
def foundJID : Outcome LIDError JID → Option JID
  | .ok jid => if jid.isEmpty then none else some jid
  | _ => none

/-- a row that the database is asked for has a user to answer with, the maps do not say that it is missing, and the JID
has no agent and no integrator -/
def PlainlyAnswered (s : LIDStore) (side : Side) (jid : JID) : Prop :=
  ∀ target, Asked s.memory side jid.user → s.tables.find side jid.user = some target →
    jid.user ∉ s.memory.sourceToTarget side ∧ target ≠ [] ∧ jid.rawAgent = 0 ∧ jid.integrator = 0

variable {targetServer : Bytes}

theorem foundJID_targetJID {target : Bytes} (hserver : targetServer ≠ []) :
    foundJID (.ok (targetJID jid targetServer target)) =
      if target = [] then none else some (targetJID jid targetServer target) := by
  unfold foundJID targetJID
  split_ifs with htarget
  · rfl
  · simp [JID.isEmpty, hserver]

/-- the answer of a row is the one of a single lookup if there is nothing else to copy from the JID -/
theorem rowAnswer_eq_iff {target : Bytes} (htarget : target ≠ []) :
    rowAnswer targetServer jid target = targetJID jid targetServer target ↔ jid.rawAgent = 0 ∧ jid.integrator = 0 := by
  rw [targetJID, if_neg htarget, rowAnswer, JID.mk.injEq]
  simp

theorem manyAnswer_eq_iff (hserver : targetServer ≠ []) :
    manyAnswer s side targetServer jid =
        foundJID (.ok (targetJID jid targetServer (lookedUp s side jid.user))) ↔
      PlainlyAnswered s side jid := by
  rw [foundJID_targetJID hserver, manyAnswer, PlainlyAnswered]
  by_cases hasked : Asked s.memory side jid.user
  · rw [if_pos hasked]
    cases hfind : s.tables.find side jid.user with
    | none =>
      -- neither of the two calls finds a user
      have hnone : lookedUp s side jid.user = [] := by
        rw [lookedUp, hasked.at0_eq, hfind]
        exact ite_self _
      rw [if_pos hnone]
      simp
    | some target =>
      by_cases hmem : jid.user ∈ s.memory.sourceToTarget side
      · have hnone : lookedUp s side jid.user = [] := by
          rw [lookedUp, if_pos (.inl hmem), hasked.at0_eq]
        rw [if_pos hnone]
        exact iff_of_false (by simp) fun h => (h target hasked rfl).1 hmem
      · have hfound : lookedUp s side jid.user = target := by
          rw [lookedUp, if_neg (not_or.2 ⟨hmem, hasked.2⟩), hfind, Option.getD_some]
        rw [hfound, Option.map_some]
        by_cases htarget : target = []
        · rw [if_pos htarget]
          exact iff_of_false (by simp) fun h => (h target hasked rfl).2.1 htarget
        · rw [if_neg htarget, Option.some.injEq, rowAnswer_eq_iff htarget]
          simp [hasked, hmem, htarget]
  · have hmaps : lookedUp s side jid.user = GoMap.at0 (s.memory.sourceToTarget side) jid.user := by
      rw [lookedUp]
      split_ifs with hin
      · rfl
      · -- a user whom the maps do not have is asked for
        refine absurd ?_ hasked
        have hmem : jid.user ∉ s.memory.sourceToTarget side := fun hc => hin (.inl hc)
        cases side with
        | pn => exact ⟨by_contra fun hc => hmem (GoMap.mem_of_lookup (GoMap.lookup_of_at0_ne hc)),
            fun hc => hin (.inr hc)⟩
        | lid => exact ⟨hmem, fun hc => hin (.inr hc)⟩
    rw [if_neg hasked, hmaps]
    exact iff_of_true rfl fun _ h => absurd h hasked

/-- **Batch lookups answer like single ones exactly where a row has nothing else to copy.** For every state of the maps and
the table and every list, as long as no call of the database fails: the map that a call for many JIDs returns has for each
JID on the right server what a single lookup returns in that state, if and only if each of these JIDs is plainly answered. -/
theorem batch_lookups_iff (s : LIDStore) (hquiet : s.Quiet) :
    (∀ pns, ∃ found s', getManyLIDsForPNs pns s = (.ok found, s') ∧
      ((∀ pn ∈ pns, pn.server = defaultUserServer → found.lookup pn = foundJID (getLIDForPN pn s).1) ↔
        ∀ pn ∈ pns, pn.server = defaultUserServer → PlainlyAnswered s .pn pn)) ∧
    ∀ postgres lids, ∃ found s', getManyPNsForLIDs postgres lids s = (.ok found, s') ∧
      ((∀ lid ∈ lids, lid.server = hiddenUserServer → found.lookup lid = foundJID (getPNForLID lid s).1) ↔
        ∀ lid ∈ lids, lid.server = hiddenUserServer → PlainlyAnswered s .lid lid) := by
  constructor
  · intro pns
    obtain ⟨found, s', hrun, hfound, -⟩ := getManyLIDsForPNs_spec hquiet pns
    refine ⟨found, s', hrun, forall₂_congr fun pn hpn => forall_congr' fun hserver => ?_⟩
    obtain ⟨s₁, hsingle⟩ := getLIDForPN_answer hquiet hserver
    rw [hfound, if_pos ⟨hpn, hserver⟩, hsingle]
    exact manyAnswer_eq_iff (by decide)
  · intro postgres lids
    obtain ⟨found, s', hrun, hfound, -⟩ := getManyPNsForLIDs_spec hquiet postgres lids
    refine ⟨found, s', hrun, forall₂_congr fun lid hlid => forall_congr' fun hserver => ?_⟩
    obtain ⟨s₁, hsingle⟩ := getPNForLID_answer hquiet hserver
    rw [hfound, if_pos ⟨hlid, hserver⟩, hsingle]
    exact manyAnswer_eq_iff (by decide)

/-- one known pair that is not cached -/
def onePair : LIDStore := ⟨newCachedLIDMap, LIDTable.empty.put ⟨ascii "2", ascii "1"⟩, [], []⟩

theorem batch_lookups_iff_plain :
    ∃ found s', getManyLIDsForPNs [newJID (ascii "1") defaultUserServer, newJID (ascii "3") defaultUserServer] onePair =
        (.ok found, s') ∧
      found.lookup (newJID (ascii "1") defaultUserServer) = some (newJID (ascii "2") hiddenUserServer) ∧
      found.lookup (newJID (ascii "3") defaultUserServer) = none := by
  obtain ⟨found, s', hrun, hiff⟩ := (batch_lookups_iff onePair rfl).1
    [newJID (ascii "1") defaultUserServer, newJID (ascii "3") defaultUserServer]
  have hanswers := hiff.2 fun pn hpn _ target _ hfind => by
    rcases mem_pair.1 hpn with rfl | rfl
    · exact ⟨notMem_empty _, by rintro rfl; revert hfind; decide +kernel, rfl, rfl⟩
    · exact absurd hfind (by revert target; decide +kernel)
  refine ⟨found, s', hrun, ?_, ?_⟩
  · rw [hanswers _ (by simp) rfl]
    decide +kernel
  · rw [hanswers _ (by simp) rfl]
    decide +kernel

/-- **The agent and the integrator are copied.** The database answers for a PN with an agent and for a LID with an
integrator: the JIDs in the result have them, those of single lookups do not. -/
theorem agent_copied :
    (∃ found s', getManyLIDsForPNs [⟨ascii "1", 7, 3, 0, defaultUserServer⟩] onePair = (.ok found, s') ∧
      found.lookup ⟨ascii "1", 7, 3, 0, defaultUserServer⟩ = some ⟨ascii "2", 7, 3, 0, hiddenUserServer⟩ ∧
      foundJID (getLIDForPN ⟨ascii "1", 7, 3, 0, defaultUserServer⟩ onePair).1 =
        some ⟨ascii "2", 0, 3, 0, hiddenUserServer⟩) ∧
    ∃ found s', getManyPNsForLIDs false [⟨ascii "2", 0, 3, 5, hiddenUserServer⟩] onePair = (.ok found, s') ∧
      found.lookup ⟨ascii "2", 0, 3, 5, hiddenUserServer⟩ = some ⟨ascii "1", 0, 3, 5, defaultUserServer⟩ ∧
      foundJID (getPNForLID ⟨ascii "2", 0, 3, 5, hiddenUserServer⟩ onePair).1 =
        some ⟨ascii "1", 0, 3, 0, defaultUserServer⟩ := by
  constructor
  · obtain ⟨found, s', hrun, hfound, -⟩ :=
      getManyLIDsForPNs_spec (s := onePair) rfl [⟨ascii "1", 7, 3, 0, defaultUserServer⟩]
    refine ⟨found, s', hrun, ?_, by decide +kernel⟩
    rw [hfound]
    decide +kernel
  · obtain ⟨found, s', hrun, hfound, -⟩ :=
      getManyPNsForLIDs_spec (s := onePair) rfl false [⟨ascii "2", 0, 3, 5, hiddenUserServer⟩]
    refine ⟨found, s', hrun, ?_, by decide +kernel⟩
    rw [hfound]
    decide +kernel

end LIDStore

/-! ## The rows after a list of writes -/

/-- the rows have the LID or the PN in common -/
def LIDRow.shares (r r' : LIDRow) : Bool := r.lid = r'.lid ∨ r.pn = r'.pn

/-- the last row of the list that has one of the users of the row -/
def lastNaming (rows : List LIDRow) (r : LIDRow) : Option LIDRow := rows.reverse.find? r.shares

/-- the last row that names one of its users is the row itself, or no row does and the table has it -/
def Left (t : LIDTable) (rows : List LIDRow) (r : LIDRow) : Prop :=
  lastNaming rows r = some r ∨ (lastNaming rows r = none ∧ r ∈ t.rows)

section Rows

variable {t t' : LIDTable} {r row : LIDRow} {rows : List LIDRow} {side : Side} {u v : Bytes}

theorem LIDRow.shares_eq_false : r.shares row = false ↔ ∀ side, r.source side ≠ row.source side := by
  rw [LIDRow.shares, decide_eq_false_iff_not, not_or]
  constructor
  · rintro ⟨hlid, hpn⟩ side
    cases side with
    | pn => exact hpn
    | lid => exact hlid
  · intro h
    exact ⟨h .lid, h .pn⟩

theorem LIDRow.shares_self (r : LIDRow) : r.shares r = true := by simp [LIDRow.shares]

theorem lastNaming_concat (rows : List LIDRow) (row r : LIDRow) :
    lastNaming (rows ++ [row]) r = if r.shares row then some row else lastNaming rows r := by
  rw [lastNaming, reverse_append, reverse_singleton, singleton_append, find?_cons]
  cases hr : r.shares row with
  | true => rfl
  | false => rfl

/-- **The last write decides.** -/
theorem mem_foldl_put_iff : r ∈ (rows.foldl LIDTable.put t).rows ↔ Left t rows r := by
  induction rows using List.reverseRecOn with
  | nil => simp [Left, lastNaming]
  | append_singleton rows row ih =>
    rw [foldl_append, foldl_cons, foldl_nil, mem_put, ih, Left, Left, lastNaming_concat]
    cases hr : r.shares row with
    | true =>
      have hnot : ¬∀ side, r.source side ≠ row.source side := by
        rw [← LIDRow.shares_eq_false, hr]
        exact Bool.noConfusion
      simp [hnot, eq_comm]
    | false =>
      have hne : r ≠ row := by
        rintro rfl
        rw [LIDRow.shares_self] at hr
        cases hr
      simp [hne, LIDRow.shares_eq_false.1 hr]

end Rows

/-! ## States -/

/-- every cached pair is a row -/
def Backed (m : CachedLIDMap) (t : LIDTable) : Prop :=
  ∀ side u v, (m.sourceToTarget side).lookup u = some v → v ≠ [] → t.find side u = some v

section Backed

variable {m m' : CachedLIDMap} {t : LIDTable} {row : LIDRow} {rows : List LIDRow} {side : Side} {u v : Bytes}

theorem Backed.put {first first' : ℕ} (h : Backed m t) (hm : m.Mirrored) (hu : t.Users) :
    Backed (m.cacheRow row first first') (t.put row) := by
  intro side user target hl htarget
  rw [find_put]
  rcases lookup_cacheRow hl with ⟨rfl, rfl⟩ | ⟨hne, hold⟩
  · rw [if_pos rfl]
  · have hfind := h side user target hold htarget
    rw [if_neg hne, hfind, if_neg]
    intro hc
    exact hm.target_ne (hu.find_ne hfind).1 htarget hl hne (Option.some.inj hc)

theorem Cached.backed_put (h : Cached m rows m') (hm : m.Mirrored) (hu : t.Users)
    (hrows : ∀ r ∈ rows, ∀ side, r.source side ≠ []) (hb : Backed m t) : Backed m' (rows.foldl LIDTable.put t) := by
  induction h generalizing t with
  | nil => exact hb
  | cons first first' _ ih =>
    have hrow := hrows _ mem_cons_self
    exact ih hm.cacheRow (hu.put hrow) (fun r hr => hrows r (mem_cons_of_mem _ hr)) (hb.put hm hu)

end Backed

namespace LIDStore

open Session

variable {s s' : LIDStore} {side : Side} {mapping : LIDMapping} {mappings : List LIDMapping} {rows : List LIDRow}
  {u v : Bytes}

/-- a state of the maps and the table: the maps mirror each other and keep to their bound, every cached pair is a row, no
user in the table is empty, and no call of the database fails -/
structure Consistent (s : LIDStore) : Prop where
  inv : s.memory.CacheInv
  backed : Backed s.memory s.tables
  users : s.tables.Users
  quiet : s.Quiet

/-- a LID and a PN, each with a user -/
def Valid (mapping : LIDMapping) : Prop := OnServers mapping ∧ ∀ side, (rowOf mapping).source side ≠ []

theorem Consistent.written (h : Consistent s) (hw : Written s rows s') (hrows : ∀ r ∈ rows, ∀ side, r.source side ≠ []) :
    Consistent s' where
  inv := hw.cached.inv h.inv
  backed := hw.tables ▸ hw.cached.backed_put h.inv.mirrored h.users hrows h.backed
  users := hw.tables ▸ users_foldl_put h.users hrows
  quiet := hw.quiet

/-! ## One mapping after the other -/

/-- `PutLIDMapping` for each mapping -/
def putEach : List LIDMapping → Go LIDStore LIDError Unit
  | [] => pure ()
  | mapping :: mappings => do
    putLIDMapping mapping.lid mapping.pn
    putEach mappings

end LIDStore

/-! ## What the maps say after the writes -/

/-- there is room for so many more entries in each map -/
def Room (m : CachedLIDMap) (n : ℕ) : Prop := ∀ side, (m.sourceToTarget side).keys.length + n ≤ maxLIDCacheEntries

section Room

variable {m m' : CachedLIDMap} {t : LIDTable} {row : LIDRow} {rows : List LIDRow} {side : Side} {u v : Bytes}
  {first first' n : ℕ}

theorem Room.mono {k : ℕ} (h : Room m n) (hk : k ≤ n) : Room m k :=
  fun side => (Nat.add_le_add_left hk _).trans (h side)

/-- with room for it an insertion evicts nothing -/
theorem Room.beforeInsert (h : Room m (n + 1)) :
    m.beforeInsert row.lid row.pn first first' = m.detach row.lid row.pn := by
  refine beforeInsert_eq_detach (fun side first => if_neg fun hfull => ?_) first first'
  have hwithin := (detach_within m row.lid row.pn side).keys_length_le
  have hroom := h side
  have := hfull.2
  omega

theorem Room.cacheRow (h : Room m (n + 1)) : Room (m.cacheRow row first first') n := by
  intro side
  rw [sourceToTarget_cacheRow, h.beforeInsert]
  have hwithin := (detach_within m row.lid row.pn side).keys_length_le
  have hinsert := GoMap.keys_length_insert_le (m := (m.detach row.lid row.pn).sourceToTarget side)
    (k := row.source side) (v := row.target side)
  have hroom := h side
  omega

/-- the entry of a user whose row survives the write stays as it is -/
theorem Room.lookup_cacheRow (h : Room m (n + 1)) (hb : Backed m t) (hrow : ∀ side, row.source side ≠ [])
    (hne : u ≠ row.source side) (hfind : (t.put row).find side u ≠ none) :
    ((m.cacheRow row first first').sourceToTarget side).lookup u = (m.sourceToTarget side).lookup u := by
  rw [sourceToTarget_cacheRow, h.beforeInsert, GoMap.lookup_insert_eq, if_neg hne]
  cases hl : (m.sourceToTarget side).lookup u with
  | none =>
    cases hd : ((m.detach row.lid row.pn).sourceToTarget side).lookup u with
    | none => rfl
    | some w =>
      rw [detach_within m row.lid row.pn side u w hd] at hl
      cases hl
  | some w =>
    refine lookup_detach_of_ne hl ?_
    rintro rfl
    rw [find_put, if_neg hne, hb side u _ hl (hrow side.other), if_pos rfl] at hfind
    exact hfind rfl

end Room

namespace LIDStore

open Session

variable {s s₁ s₂ : LIDStore} {side : Side} {mappings : List LIDMapping} {rows rows₁ rows₂ : List LIDRow} {u : Bytes}

/-- the maps say that the user has no row -/
def Denied (s : LIDStore) (side : Side) (u : Bytes) : Prop :=
  (s.memory.sourceToTarget side).lookup u = some [] ∨ (u ∉ s.memory.sourceToTarget side ∧ s.memory.cacheFilled = true)

/-- the tables have the same rows -/
def SameRows (s₁ s₂ : LIDStore) : Prop := ∀ r, r ∈ s₁.tables.rows ↔ r ∈ s₂.tables.rows

/-- single lookups give the same answers -/
def SameLookups (s₁ s₂ : LIDStore) : Prop :=
  ∀ jid, foundJID (getLIDForPN jid s₁).1 = foundJID (getLIDForPN jid s₂).1 ∧
    foundJID (getPNForLID jid s₁).1 = foundJID (getPNForLID jid s₂).1

/-! ## Batches of writes -/

/-- the mappings that a batch writes and all of its mappings leave the same pairs -/
def LastWritesKept (s : LIDStore) (mappings : List LIDMapping) : Prop :=
  ∀ r, Left s.tables ((toWrite s.memory mappings).map rowOf) r ↔ Left s.tables (mappings.map rowOf) r

/-- no entry that matters is evicted: there is room for the mappings, or the maps deny no row and are not marked as
complete -/
def Steady (s : LIDStore) (mappings : List LIDMapping) : Prop :=
  Room s.memory mappings.length ∨ (s.memory.cacheFilled = false ∧ Faithful s.memory s.tables)

/-- a mapping of numbers to evaluate -/
def mappingOf (lid pn : String) : LIDMapping := ⟨newJID (ascii lid) hiddenUserServer, newJID (ascii pn) defaultUserServer⟩

/-- one known pair, which is cached -/
def cachedPair : LIDStore :=
  ⟨newCachedLIDMap.cacheRow ⟨ascii "2", ascii "1"⟩ 0 0, LIDTable.empty.put ⟨ascii "2", ascii "1"⟩, [], []⟩

end LIDStore

end Hypermeow.Store
