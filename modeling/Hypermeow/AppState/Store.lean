/-
The tables behind one app state collection (`store/sqlstore/store.go`, `upgrades/00-latest-schema.sql`).

`whatsmeow_app_state_version` has at most one row for the collection: the version and the hash.
`whatsmeow_app_state_mutation_macs` has rows (version, index MAC, value MAC) with the primary key (version, index MAC), a
foreign key to the version row that cascades on delete, and checks that both MACs are 32 bytes.

Model: the two tables for a fixed account and collection; the constraints are fields. Each function is what its SQL does
when the database does not fail; a violated constraint is `none`. The batches of `PutAppStateMutationMACs` are in one
transaction, so they are one insert.

Results: `getAppStateMutationMAC_delete`, `getAppStateMutationMAC_put`: what an index's live value MAC is after rows are
deleted and after rows of a higher version are inserted.
-/
import Hypermeow.AppState.LTHash
import Mathlib.Data.List.MinMax

namespace Hypermeow.AppState

open Lib List

/-- the state of a collection: its version and its hash -/
structure HashState where
  version : ℕ
  hash : Hash
deriving DecidableEq

/-- `HashState{}` -/
def HashState.zero : HashState := ⟨0, Hash.zero⟩

/-- an index MAC and a value MAC, as handed to the store -/
structure AppStateMutationMAC where
  indexMAC : Bytes
  valueMAC : Bytes
deriving DecidableEq, Repr

/-- a row of `whatsmeow_app_state_mutation_macs` -/
structure MACRow where
  version : ℕ
  indexMAC : Bytes
  valueMAC : Bytes
deriving DecidableEq, Repr

/-- the primary key, within one collection -/
def MACRow.key (r : MACRow) : ℕ × Bytes := (r.version, r.indexMAC)

/-- the rows of one collection, with the constraints of the schema -/
@[ext] structure AppStateDB where
  versionRow : Option HashState
  macs : List MACRow
  primaryKey : (macs.map MACRow.key).Nodup
  foreignKey : macs ≠ [] → versionRow.isSome
  check : ∀ r ∈ macs, r.indexMAC.length = 32 ∧ r.valueMAC.length = 32
deriving DecidableEq

def AppStateDB.empty : AppStateDB := ⟨none, [], by simp, by simp, by simp⟩

namespace AppStateDB

/-- the stored state; a collection without a version row is in the initial state -/
def state (db : AppStateDB) : HashState := db.versionRow.getD .zero

/-- `GetAppStateVersion`: a stored version 0 is an error -/
def getAppStateVersion (db : AppStateDB) : Option HashState :=
  match db.versionRow with
  | none => some .zero
  | some st => if st.version = 0 then none else some st

/-- `PutAppStateVersion`: insert or update -/
def putAppStateVersion (db : AppStateDB) (st : HashState) : AppStateDB :=
  { db with versionRow := some st, foreignKey := fun _ => rfl }

/-- `DeleteAppStateVersion`: the MAC rows go with the version row -/
def deleteAppStateVersion (_ : AppStateDB) : AppStateDB := .empty

/-- `DeleteAppStateMutationMACs`: every version of the given indexes -/
def deleteAppStateMutationMACs (db : AppStateDB) (indexMACs : List Bytes) : AppStateDB where
  versionRow := db.versionRow
  macs := db.macs.filter fun r => r.indexMAC ∉ indexMACs
  primaryKey := db.primaryKey.sublist (filter_sublist.map _)
  foreignKey h := db.foreignKey fun hnil => h (by rw [hnil]; rfl)
  check r hr := db.check r (mem_of_mem_filter hr)

def macRows (version : ℕ) (mutations : List AppStateMutationMAC) : List MACRow :=
  mutations.map fun m => ⟨version, m.indexMAC, m.valueMAC⟩

/-- `PutAppStateMutationMACs`: all rows or none -/
def putAppStateMutationMACs (db : AppStateDB) (version : ℕ) (mutations : List AppStateMutationMAC) :
    Option AppStateDB :=
  if h : ((db.macs ++ macRows version mutations).map MACRow.key).Nodup ∧
      (db.macs ++ macRows version mutations ≠ [] → db.versionRow.isSome) ∧
      ∀ r ∈ db.macs ++ macRows version mutations, r.indexMAC.length = 32 ∧ r.valueMAC.length = 32 then
    some ⟨db.versionRow, db.macs ++ macRows version mutations, h.1, h.2.1, h.2.2⟩
  else none

/-- the rows of an index -/
def rowsOf (db : AppStateDB) (indexMAC : Bytes) : List MACRow := db.macs.filter fun r => r.indexMAC = indexMAC

/-- `GetAppStateMutationMAC`: the value MAC of the row with the highest version -/
def getAppStateMutationMAC (db : AppStateDB) (indexMAC : Bytes) : Option Bytes :=
  ((db.rowsOf indexMAC).argmax (·.version)).map (·.valueMAC)

/-- all index MACs that have a row -/
def indexMACs (db : AppStateDB) : Finset Bytes := (db.macs.map (·.indexMAC)).toFinset

/-! ## Live value MACs -/

variable {db db' : AppStateDB} {k : Bytes}

theorem getAppStateMutationMAC_eq_none : db.getAppStateMutationMAC k = none ↔ ∀ r ∈ db.macs, r.indexMAC ≠ k := by
  simp [getAppStateMutationMAC, rowsOf, argmax_eq_none, filter_eq_nil_iff]

/-- an index with a live value has a row -/
theorem mem_indexMACs (h : db.getAppStateMutationMAC k ≠ none) : k ∈ db.indexMACs := by
  by_contra hk
  refine h (getAppStateMutationMAC_eq_none.2 fun r hr he => hk ?_)
  exact mem_toFinset.2 (he ▸ mem_map_of_mem hr)

@[simp] theorem getAppStateMutationMAC_putAppStateVersion (st : HashState) :
    (db.putAppStateVersion st).getAppStateMutationMAC k = db.getAppStateMutationMAC k := rfl

theorem getAppStateMutationMAC_empty : empty.getAppStateMutationMAC k = none := rfl

/-- a deleted index has no live value, the others keep theirs -/
theorem getAppStateMutationMAC_delete (ks : List Bytes) :
    (db.deleteAppStateMutationMACs ks).getAppStateMutationMAC k =
      if k ∈ ks then none else db.getAppStateMutationMAC k := by
  have hrows : (db.deleteAppStateMutationMACs ks).rowsOf k = if k ∈ ks then [] else db.rowsOf k := by
    simp only [rowsOf, deleteAppStateMutationMACs, filter_filter]
    split_ifs with hk
    · exact filter_eq_nil_iff.2 fun r _ => by
        simp only [Bool.and_eq_true, decide_eq_true_eq, not_and, not_not]; rintro rfl; exact hk
    · refine filter_congr fun r _ => ?_
      by_cases he : r.indexMAC = k <;> simp [he, hk]
  simp only [getAppStateMutationMAC, hrows]
  split_ifs <;> rfl

/-- a row above all others is the live one -/
theorem argmax_append_singleton {rs : List MACRow} {r : MACRow} (h : ∀ r' ∈ rs, r'.version < r.version) :
    (rs ++ [r]).argmax (·.version) = some r := by
  rw [argmax_concat]
  cases hm : rs.argmax (·.version) with
  | none => rfl
  | some m =>
    have : m.version < r.version := h m (argmax_mem hm)
    simp [this]

/-- the rows that an insert adds for an index -/
theorem filter_macRows (version : ℕ) (ms : List AppStateMutationMAC) (k : Bytes) :
    (macRows version ms).filter (fun r => r.indexMAC = k) = macRows version (ms.filter fun m => m.indexMAC = k) := by
  rw [macRows, macRows, filter_map]
  rfl

variable {version : ℕ} {ms : List AppStateMutationMAC}

/-- an insert that the store accepts -/
theorem put_eq_some
    (h : db.putAppStateMutationMACs version ms = some db') :
    db'.versionRow = db.versionRow ∧ db'.macs = db.macs ++ macRows version ms := by
  rw [putAppStateMutationMACs] at h
  split_ifs at h
  rw [← Option.some.inj h]
  exact ⟨rfl, rfl⟩

theorem map_key_macRows (version : ℕ) (ms : List AppStateMutationMAC) :
    (macRows version ms).map MACRow.key = (ms.map (·.indexMAC)).map fun k => (version, k) := by
  rw [macRows, map_map, map_map]
  rfl

/-- with unique keys, an insert has at most one row for an index -/
theorem put_indexes_nodup
    (h : db.putAppStateMutationMACs version ms = some db') : (ms.map (·.indexMAC)).Nodup := by
  have hkeys := db'.primaryKey
  rw [(put_eq_some h).2, map_append] at hkeys
  have hnew := (nodup_append.1 hkeys).2.1
  rw [map_key_macRows] at hnew
  exact hnew.of_map

/-- rows of a version above all others become the live rows of their indexes -/
theorem getAppStateMutationMAC_put
    (h : db.putAppStateMutationMACs version ms = some db') (hv : ∀ r ∈ db.macs, r.version < version) (k : Bytes) :
    db'.getAppStateMutationMAC k =
      ((ms.reverse.find? fun m => m.indexMAC = k).map fun m => some m.valueMAC).getD (db.getAppStateMutationMAC k) := by
  have hrows : db'.rowsOf k = db.rowsOf k ++ macRows version (ms.filter fun m => m.indexMAC = k) := by
    rw [rowsOf, (put_eq_some h).2, filter_append, filter_macRows]; rfl
  cases hf : ms.reverse.find? fun m => m.indexMAC = k with
  | none =>
    have hnil : ms.filter (fun m => m.indexMAC = k) = [] := by
      refine filter_eq_nil_iff.2 fun m hm => ?_
      exact find?_eq_none.1 hf m (mem_reverse.2 hm)
    simp only [getAppStateMutationMAC, hrows, hnil, macRows, map_nil, append_nil, Option.map_none,
      Option.getD_none]
  | some m =>
    have hm : m ∈ ms := mem_reverse.1 (mem_of_find?_eq_some hf)
    have hk : m.indexMAC = k := by simpa using find?_some hf
    -- the index is added once
    have hone : ms.filter (fun m => m.indexMAC = k) = [m] := by
      have hnd := (put_indexes_nodup h).of_map
      have : ∀ m' ∈ ms, m'.indexMAC = k ↔ m' = m := fun m' hm' =>
        ⟨fun he => inj_on_of_nodup_map (put_indexes_nodup h) hm' hm (he.trans hk.symm), fun he => he ▸ hk⟩
      rw [filter_congr (q := fun m' => m' == m) fun m' hm' => Bool.eq_iff_iff.2
        (by simp [this m' hm']), filter_beq, count_eq_one_of_mem hnd hm, replicate_one]
    have hlive : (db'.rowsOf k).argmax (·.version) = some ⟨version, m.indexMAC, m.valueMAC⟩ := by
      rw [hrows, hone]
      exact argmax_append_singleton fun r hr => hv r (mem_of_mem_filter hr)
    rw [getAppStateMutationMAC, hlive]
    rfl

end AppStateDB

end Hypermeow.AppState
