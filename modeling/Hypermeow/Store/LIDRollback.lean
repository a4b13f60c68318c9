/-
What a failed write leaves in the maps of the LID map.

`unlockedPutLIDMapping` inserts its pair into the maps as soon as its two statements have run, inside the transaction. When
a later statement or the commit fails, the table is rolled back and the maps are not.
-/
import Hypermeow.Store.LIDTransparency

namespace Hypermeow.Store.LIDStore

open Lib Types Session Go List LIDTable

variable {s s' : LIDStore} {o : Outcome LIDError Unit} {e : LIDError}

/-- the mappings of a loop whose two statements run, when the calls fail as given -/
def executed : List Bool → List LIDMapping → List LIDMapping
  | _, [] => []
  | faults, mapping :: mappings =>
    if faults.headD false ∨ faults.tail.headD false then [] else mapping :: executed faults.tail.tail mappings

/-- the mappings of a transaction whose two statements run; the first call is the begin -/
def executedInTxn (faults : List Bool) (mappings : List LIDMapping) : List LIDMapping :=
  if faults.headD false then [] else executed faults.tail mappings

variable {mappings : List LIDMapping}

/-! ## The calls -/

/-- the mappings that a call is given to write -/
def given : LIDOp → Option (List LIDMapping)
  | .putLIDMapping lid pn => some [⟨lid, pn⟩]
  | .putManyLIDMappings mappings => some mappings
  | _ => none

/-- the pairs whose statements run in a call that writes the mappings -/
def executedRows (s : LIDStore) (mappings : List LIDMapping) : List LIDRow :=
  (executedInTxn s.faults (toWrite s.memory mappings)).map rowOf

/-- a store over the rows, whose next commit of one mapping fails -/
def beforeFailedCommit (table : LIDTable) : LIDStore := ⟨newCachedLIDMap, table, [false, false, false, true], []⟩

end Hypermeow.Store.LIDStore
