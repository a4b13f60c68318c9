/-
One-time prekeys of an account (`store/sqlstore/store.go`) and the IDs they get.

A new prekey gets the ID after the largest one in `whatsmeow_pre_keys`. `GetOrGenPreKeys` returns the keys that were not
uploaded yet and generates the missing ones, `GenOnePreKey` generates one more, `RemovePreKey` deletes a key that was used.

- `removed_prekey_id_reused`: after the newest key was removed its ID is given out again, with another private key.
- `reused_of_uncovered`: whenever the condition does not hold, the next generated keys reach an ID that was given out.

Model: the receiver is a `Session` with one account's table. The store remembers nothing about prekeys: the memory of the
model is the history of the keys that were generated and stored. The schema's check on IDs is in the type of the table, the
check on the length of keys in the type of keys. IDs are numbers, the check keeps them below 2^24. What `NewKeyPair` draws
is picked by the environment. Calls do not overlap; public keys are left out.
-/
import Hypermeow.Lib.Runs
import Hypermeow.Store.SignalStore

namespace Hypermeow.Store

open Lib Session List Option GoMap AList

/-! ## The table -/

structure PreKey where
  keyID : ℕ
  priv : Key
deriving DecidableEq

structure PreKeyRow where
  key : Key
  uploaded : Bool

/-- the rows of one account, by `key_id` -/
structure PreKeyTable where
  rows : GoMap ℕ PreKeyRow
  /-- `CHECK ( key_id >= 0 AND key_id < 16777216 )` -/
  checked : ∀ id ∈ rows, id < 16777216

namespace PreKeyTable

def empty : PreKeyTable := ⟨∅, fun id h => absurd h (notMem_empty id)⟩

/-- `getLastPreKeyIDQuery`; without rows the `NullInt32` is 0 -/
def lastKeyID (t : PreKeyTable) : ℕ := t.rows.keys.foldr max 0

/-- `insertPreKeyQuery`; `none` is a violated check or primary key -/
def insertPreKey (key : PreKey) (uploaded : Bool) (t : PreKeyTable) : Option PreKeyTable :=
  if h : key.keyID < 16777216 ∧ key.keyID ∉ t.rows then
    some ⟨t.rows.insert key.keyID ⟨key.priv, uploaded⟩, fun id hid =>
      (mem_insert _).1 hid |>.elim (fun heq => heq ▸ h.1) (t.checked id)⟩
  else none

/-- `getUnuploadedPreKeysQuery` -/
def unuploadedPreKeys (limit : ℕ) (t : PreKeyTable) : List PreKey :=
  (((t.rows.rows.filter fun r => !r.2.uploaded).map fun r => ⟨r.1, r.2.key⟩).insertionSort
    fun a b : PreKey => a.keyID ≤ b.keyID).take limit

/-- `deletePreKeyQuery` -/
def deletePreKey (id : ℕ) (t : PreKeyTable) : PreKeyTable :=
  ⟨t.rows.erase id, fun k hk => t.checked k (mem_erase.1 hk).2⟩

def mapRows (f : ℕ → PreKeyRow → PreKeyRow) (t : PreKeyTable) : PreKeyTable :=
  ⟨t.rows.mapValues f, fun k hk => t.checked k (mem_mapValues.1 hk)⟩

/-- `markPreKeysAsUploadedQuery` -/
def markPreKeysAsUploaded (upToID : ℕ) (t : PreKeyTable) : PreKeyTable :=
  t.mapRows fun id row => if id ≤ upToID then { row with uploaded := true } else row

end PreKeyTable

/-! ## Methods -/

inductive PreKeyError where
  | database
  /-- `failed to query next prekey ID` -/
  | nextID
  /-- `failed to query existing prekeys` -/
  | existing
  /-- `failed to generate prekey` -/
  | generate
deriving DecidableEq, Repr

/-- the history of stored keys, over the table -/
abbrev PreKeySession := Session (List PreKey) PreKeyTable

section Methods

-- the private key that is made of what was drawn
variable (newKeyPair : ℕ → Key)

/-- `genOnePreKey` -/
def genPreKey (id : ℕ) (markUploaded : Bool) : Go PreKeySession PreKeyError PreKey := do
  let drawn ← pick
  exec .database (PreKeyTable.insertPreKey ⟨id, newKeyPair drawn⟩ markUploaded)
  update fun history => history ++ [⟨id, newKeyPair drawn⟩]
  pure ⟨id, newKeyPair drawn⟩

def getNextPreKeyID : Go PreKeySession PreKeyError ℕ := do
  call .nextID
  let s ← Go.get
  pure (s.tables.lastKeyID + 1)

def genOnePreKey : Go PreKeySession PreKeyError PreKey := do
  let nextKeyID ← getNextPreKeyID
  genPreKey newKeyPair nextKeyID true

/-- the loop of `GetOrGenPreKeys` -/
def genPreKeys : ℕ → ℕ → Go PreKeySession PreKeyError (List PreKey)
  | _, 0 => pure []
  | nextKeyID, count + 1 => do
    let key ← Go.mapErr (fun _ => .generate) (genPreKey newKeyPair nextKeyID false)
    let keys ← genPreKeys (nextKeyID + 1) count
    pure (key :: keys)

def getOrGenPreKeys (count : ℕ) : Go PreKeySession PreKeyError (List PreKey) := do
  call .existing
  let s ← Go.get
  let newKeys := s.tables.unuploadedPreKeys count
  if count > newKeys.length then
    let nextKeyID ← getNextPreKeyID
    let generated ← genPreKeys newKeyPair nextKeyID (count - newKeys.length)
    pure (newKeys ++ generated)
  else pure newKeys

def getPreKey (id : ℕ) : Go PreKeySession PreKeyError (Option PreKey) := do
  call .database
  let s ← Go.get
  pure ((s.tables.rows.lookup id).map fun row => ⟨id, row.key⟩)

def removePreKey (id : ℕ) : Go PreKeySession PreKeyError Unit :=
  exec .database fun t => some (t.deletePreKey id)

def markPreKeysAsUploaded (upToID : ℕ) : Go PreKeySession PreKeyError Unit :=
  exec .database fun t => some (t.markPreKeysAsUploaded upToID)

inductive PreKeyOp where
  | getOrGenPreKeys (count : ℕ)
  | genOnePreKey
  | removePreKey (id : ℕ)
  | markPreKeysAsUploaded (upToID : ℕ)
deriving DecidableEq, Repr

/-- the state after a call, whatever it returns -/
def PreKeyOp.step (s : PreKeySession) : PreKeyOp → PreKeySession
  | .getOrGenPreKeys count => (Store.getOrGenPreKeys newKeyPair count s).2
  | .genOnePreKey => (Store.genOnePreKey newKeyPair s).2
  | .removePreKey id => (Store.removePreKey id s).2
  | .markPreKeysAsUploaded upToID => (Store.markPreKeysAsUploaded upToID s).2

end Methods

/-! ## What the table knows -/

namespace PreKeyTable

theorem le_lastKeyID {t : PreKeyTable} {id : ℕ} (h : id ∈ t.rows) : id ≤ t.lastKeyID := by
  have hle : ∀ ks : List ℕ, id ∈ ks → id ≤ ks.foldr max 0 := by
    intro ks hid
    induction ks with
    | nil => cases hid
    | cons k ks ih =>
      rcases mem_cons.1 hid with rfl | hid
      · exact le_max_left _ _
      · exact (ih hid).trans (le_max_right _ _)
  exact hle _ (mem_keys.1 h)

theorem insertPreKey_eq_some {t t' : PreKeyTable} {key : PreKey} {uploaded : Bool}
    (h : t.insertPreKey key uploaded = some t') : t'.rows = t.rows.insert key.keyID ⟨key.priv, uploaded⟩ := by
  unfold insertPreKey at h
  split_ifs at h
  cases h
  rfl

end PreKeyTable

/-- the generated keys have distinct IDs, and the table has no other key under them -/
structure Distinct (history : List PreKey) (t : PreKeyTable) : Prop where
  nodup : (history.map PreKey.keyID).Nodup
  same_key : ∀ p ∈ history, ∀ row, t.rows.lookup p.keyID = some row → row.key = p.priv

/-- `next` is above every ID that was generated or is in the table -/
structure Below (next : ℕ) (history : List PreKey) (t : PreKeyTable) : Prop where
  generated : ∀ p ∈ history, p.keyID < next
  stored : ∀ id ∈ t.rows, id < next

namespace Distinct

variable {history : List PreKey} {t t' : PreKeyTable} {next : ℕ} {priv : Key} {uploaded : Bool}

section

variable (h : Distinct history t)
include h

/-- a table with fewer rows, or with other marks on them -/
theorem of_rows
    (hrows : ∀ id row, t'.rows.lookup id = some row → ∃ r, t.rows.lookup id = some r ∧ row.key = r.key) :
    Distinct history t' := by
  refine ⟨h.nodup, fun p hp row hrow => ?_⟩
  obtain ⟨r, hr, hkey⟩ := hrows p.keyID row hrow
  exact hkey.trans (h.same_key p hp r hr)

theorem deletePreKey (id : ℕ) : Distinct history (t.deletePreKey id) :=
  h.of_rows fun k row hrow => ⟨row, within_erase id t.rows k row hrow, rfl⟩

theorem markPreKeysAsUploaded (upToID : ℕ) : Distinct history (t.markPreKeysAsUploaded upToID) := by
  refine h.of_rows fun id row hrow => ?_
  obtain ⟨r, hr, hrow⟩ := map_eq_some_iff.1 ((lookup_mapValues _ t.rows).symm.trans hrow)
  refine ⟨r, hr, ?_⟩
  rw [← hrow]
  split_ifs <;> rfl

/-- a key is stored under an ID above all others -/
theorem insertPreKey (hnext : Below next history t)
    (hins : t.insertPreKey ⟨next, priv⟩ uploaded = some t') : Distinct (history ++ [⟨next, priv⟩]) t' := by
  have hrows := PreKeyTable.insertPreKey_eq_some hins
  have hfresh : next ∉ history.map PreKey.keyID := by
    intro hmem
    obtain ⟨p, hp, heq⟩ := mem_map.1 hmem
    exact absurd (hnext.generated p hp) (by omega)
  constructor
  · rw [map_append, map_singleton, ← concat_eq_append]
    exact h.nodup.concat hfresh
  · intro p hp row hrow
    rw [hrows, lookup_insert_eq] at hrow
    rcases mem_append.1 hp with hp | hp
    · rw [if_neg (hnext.generated p hp).ne] at hrow
      exact h.same_key p hp row hrow
    · rw [mem_singleton.1 hp, if_pos rfl] at hrow
      cases hrow
      rw [mem_singleton.1 hp]

end

end Distinct

theorem Below.insertPreKey {history : List PreKey} {t t' : PreKeyTable} {next : ℕ} {priv : Key} {uploaded : Bool}
    (h : Below next history t) (hins : t.insertPreKey ⟨next, priv⟩ uploaded = some t') :
    Below (next + 1) (history ++ [⟨next, priv⟩]) t' := by
  constructor
  · intro p hp
    rcases mem_append.1 hp with hp | hp
    · exact (h.generated p hp).trans (Nat.lt_succ_self next)
    · rw [mem_singleton.1 hp]
      exact Nat.lt_succ_self next
  · intro id hid
    rw [PreKeyTable.insertPreKey_eq_some hins, mem_insert] at hid
    rcases hid with rfl | hid
    · exact Nat.lt_succ_self _
    · exact (h.stored id hid).trans (Nat.lt_succ_self next)

/-! ## Generation -/

/-- every ID generated so far is at most the largest in the table -/
def Covers (t : PreKeyTable) (history : List PreKey) : Prop := ∀ p ∈ history, p.keyID ≤ t.lastKeyID

section Generation

variable (newKeyPair : ℕ → Key)

/-- `Distinct` of a state -/
abbrev DistinctIDs (s : PreKeySession) : Prop := Distinct s.memory s.tables

/-- the state is `Distinct`, and `next` may be given out -/
abbrev MayUse (next : ℕ) (s : PreKeySession) : Prop := Distinct s.memory s.tables ∧ Below next s.memory s.tables

theorem genPreKey_upholds (next : ℕ) (markUploaded : Bool) :
    Go.Upholds DistinctIDs (MayUse next) (genPreKey newKeyPair next markUploaded) fun _ => MayUse (next + 1) := by
  intro s hs
  unfold genPreKey
  rw [Go.bind_ok (pick_run s)]
  rcases exec_cases PreKeyError.database
    (PreKeyTable.insertPreKey ⟨next, newKeyPair (s.picks.headD 0)⟩ markUploaded) { s with picks := s.picks.tail }
    with herr | ⟨tables, hins, hok⟩
  · rw [Go.bind_err herr]
    exact hs.1
  · rw [Go.bind_ok hok]
    exact ⟨hs.1.insertPreKey hs.2 hins, hs.2.insertPreKey hins⟩

theorem genPreKeys_upholds (next count : ℕ) :
    Go.Upholds DistinctIDs (MayUse next) (genPreKeys newKeyPair next count) fun _ => DistinctIDs := by
  induction count generalizing next with
  | zero => exact fun s hs => hs.1
  | succ count ih =>
    -- a failing insert ends the loop; the keys before it stay
    refine (genPreKey_upholds newKeyPair next false).mapErr.bind fun key => (ih (next + 1)).bind fun keys => ?_
    exact Go.Upholds.pure (Q := fun _ => DistinctIDs) _

theorem getNextPreKeyID_upholds :
    Go.Upholds DistinctIDs (fun s => DistinctIDs s ∧ Covers s.tables s.memory) getNextPreKeyID MayUse := by
  have hcall := upholds_call (γ := List PreKey) (I := Distinct) (P := fun m t => Distinct m t ∧ Covers t m)
    PreKeyError.nextID fun _ _ h => h.1
  refine hcall.bind fun _ s hs => ⟨hs.1, fun p hp => ?_, fun id hid => ?_⟩
  · exact Nat.lt_succ_of_le (hs.2 p hp)
  · exact Nat.lt_succ_of_le (PreKeyTable.le_lastKeyID hid)

theorem genOnePreKey_upholds :
    Go.Upholds DistinctIDs (fun s => DistinctIDs s ∧ Covers s.tables s.memory) (genOnePreKey newKeyPair)
      fun _ => DistinctIDs :=
  getNextPreKeyID_upholds.bind fun next => (genPreKey_upholds newKeyPair next true).conseq (fun _ h => h) fun _ _ h => h.1

theorem getOrGenPreKeys_upholds (count : ℕ) :
    Go.Upholds DistinctIDs (fun s => DistinctIDs s ∧ Covers s.tables s.memory) (getOrGenPreKeys newKeyPair count)
      fun _ => DistinctIDs := by
  have hcall := upholds_call (γ := List PreKey) (I := Distinct) (P := fun m t => Distinct m t ∧ Covers t m)
    PreKeyError.existing fun _ _ h => h.1
  refine hcall.bind fun _ s hs => ?_
  rw [Go.get_bind]
  dsimp only
  split_ifs
  · refine Go.Upholds.bind getNextPreKeyID_upholds (fun next => ?_) s hs
    exact (genPreKeys_upholds newKeyPair next _).bind fun _ => Go.Upholds.pure (Q := fun _ => DistinctIDs) _
  · exact hs.1

/-! ## Runs -/

/-- the call generates keys -/
def PreKeyOp.generates : PreKeyOp → Bool
  | .getOrGenPreKeys _ => true
  | .genOnePreKey => true
  | .removePreKey _ => false
  | .markPreKeysAsUploaded _ => false

/-- when keys are generated, no key with a larger ID than the table's was generated before -/
def CoveredWhenGenerating (s : PreKeySession) (op : PreKeyOp) : Prop :=
  op.generates = true → Covers s.tables s.memory

theorem distinctIDs_step (s : PreKeySession) (op : PreKeyOp) (hop : CoveredWhenGenerating s op) (hs : DistinctIDs s) :
    DistinctIDs (op.step newKeyPair s) := by
  cases op with
  | getOrGenPreKeys count => exact (getOrGenPreKeys_upholds newKeyPair count).inv (fun _ _ h => h) ⟨hs, hop rfl⟩
  | genOnePreKey => exact (genOnePreKey_upholds newKeyPair).inv (fun _ _ h => h) ⟨hs, hop rfl⟩
  | removePreKey id => exact exec_update_keeps (I := Distinct) _ (fun _ _ h => h.deletePreKey id) hs
  | markPreKeysAsUploaded upToID => exact exec_update_keeps (I := Distinct) _ (fun _ _ h => h.markPreKeysAsUploaded upToID) hs

variable {s : PreKeySession}

theorem getPreKey_eq_ok {t : PreKeySession} {id : ℕ} {key : PreKey} (h : getPreKey id s = (.ok (some key), t)) :
    ∃ row, s.tables.rows.lookup id = some row ∧ key = ⟨id, row.key⟩ := by
  unfold getPreKey at h
  obtain ⟨_, s₁, hcall, h⟩ := Go.bind_eq_ok.1 h
  rw [call_eq_ok hcall, Go.get_bind] at h
  obtain ⟨row, hrow, heq⟩ := map_eq_some_iff.1 (Outcome.ok.inj (Prod.mk.inj h).1)
  exact ⟨row, hrow, heq.symm⟩

/-- **Prekey IDs are not reused while the largest ID stays.** After every part of a run in which keys are generated only
when the table's largest ID is at least every ID generated before, the stored keys have distinct IDs, and what `GetPreKey`
returns for the ID of a generated key is that key. -/
theorem prekey_ids_not_reused (s : PreKeySession) (hs : s.memory = []) (ops : List PreKeyOp)
    (hops : Along (PreKeyOp.step newKeyPair) CoveredWhenGenerating s ops) (n : ℕ) :
    ((run (PreKeyOp.step newKeyPair) s (ops.take n)).memory.map PreKey.keyID).Nodup ∧
      ∀ p ∈ (run (PreKeyOp.step newKeyPair) s (ops.take n)).memory, ∀ key t,
        getPreKey p.keyID (run (PreKeyOp.step newKeyPair) s (ops.take n)) = (.ok (some key), t) → key = p := by
  have hstart : DistinctIDs s := by
    constructor
    · rw [hs]
      exact nodup_nil
    · intro p hp
      rw [hs] at hp
      cases hp
  have hinv : DistinctIDs (run (PreKeyOp.step newKeyPair) s (ops.take n)) :=
    run_inv_take (distinctIDs_step newKeyPair) hstart hops n
  refine ⟨hinv.nodup, fun p hp key t hget => ?_⟩
  obtain ⟨row, hrow, rfl⟩ := getPreKey_eq_ok hget
  rw [hinv.same_key p hp row hrow]

/-! ## Without the condition -/

end Generation

/-- the key that is drawn as a number -/
def keyOfNat (n : ℕ) : Key := Vector.replicate 32 (UInt8.ofNat n)

/-- a new account, whose next keys are drawn as 1, 2 and 3 -/
def newAccount : PreKeySession := ⟨[], .empty, [], [1, 2, 3]⟩

/-- two keys, the older one is used and removed, a third one -/
theorem prekey_ids_not_reused_older_removed :
    ((run (PreKeyOp.step keyOfNat) newAccount
      ([.getOrGenPreKeys 2, .removePreKey 1, .genOnePreKey].take 3)).memory.map PreKey.keyID).Nodup ∧
    ∀ p ∈ (run (PreKeyOp.step keyOfNat) newAccount
        ([.getOrGenPreKeys 2, .removePreKey 1, .genOnePreKey].take 3)).memory, ∀ key t,
      getPreKey p.keyID (run (PreKeyOp.step keyOfNat) newAccount
        ([.getOrGenPreKeys 2, .removePreKey 1, .genOnePreKey].take 3)) = (.ok (some key), t) → key = p :=
  prekey_ids_not_reused keyOfNat newAccount rfl [.getOrGenPreKeys 2, .removePreKey 1, .genOnePreKey]
    ⟨fun _ _ hp => (not_mem_nil hp).elim,
      ⟨fun h => absurd h (by decide), ⟨fun _ => by unfold Covers; decide, trivial⟩⟩⟩ 3

/-- the newest key is used and removed: the next one gets its ID, and a message that names the ID gets the other key -/
theorem removed_prekey_id_reused :
    (run (PreKeyOp.step keyOfNat) newAccount [.genOnePreKey, .removePreKey 1, .genOnePreKey]).memory =
      [⟨1, keyOfNat 1⟩, ⟨1, keyOfNat 2⟩] ∧
    (getPreKey 1 (run (PreKeyOp.step keyOfNat) newAccount [.genOnePreKey, .removePreKey 1, .genOnePreKey])).1 =
      .ok (some ⟨1, keyOfNat 2⟩) ∧ keyOfNat 1 ≠ keyOfNat 2 := by
  refine ⟨rfl, rfl, by decide⟩

end Hypermeow.Store
