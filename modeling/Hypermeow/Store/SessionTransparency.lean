/-
Is the session cache transparent?

The same calls of a device run twice: under a context from `WithCachedSessions`, with `PutCachedSessions` at the end, and
under a context without a cache. No call of the database fails.

`Related` is what the two runs have in common after every call. An entry of the cache is absent, or clean and the row of both
tables, or dirty and the row of the run without cache, or it is left over: the address was deleted after its session was cached.
A deletion does not reach the cache, so a left over entry goes on answering, and a dirty one is written back.

- `deleted_of_leftOver`: a left over session was deleted and has not been stored since.
-/
import Hypermeow.Lib.Runs
import Hypermeow.Store.SessionCache

namespace Hypermeow.Store

open Lib Session Go List AList

/-! ## Runs -/

inductive SessionOp (σ : Type) where
  | load (address : Bytes)
  | store (address : Bytes) (record : σ)
  | contains (address : Bytes)
  | delete (address : Bytes)

inductive SessionAnswer (σ : Type) where
  | record (r : σ)
  | found (b : Bool)
  | done

section Transparency

variable {σ : Type} (Z : SessionSerializer σ)

def SessionOp.run : SessionOp σ → Go (DeviceSession σ) SessionError (SessionAnswer σ)
  | .load address => do
    let r ← loadSession Z address
    pure (.record r)
  | .store address record => do
    storeSession Z address record
    pure .done
  | .contains address => do
    let b ← containsSession address
    pure (.found b)
  | .delete address => do
    deleteSession address
    pure .done

def runSessionOps : List (SessionOp σ) → Go (DeviceSession σ) SessionError (List (SessionAnswer σ))
  | [] => pure []
  | op :: ops => do
    let answer ← op.run Z
    let answers ← runSessionOps ops
    pure (answer :: answers)

/-- the calls under a context from `WithCachedSessions`, and `PutCachedSessions` -/
def runCachedSessionOps (native : Bool) (addresses : List Bytes) (ops : List (SessionOp σ)) :
    Go (DeviceSession σ) SessionError (List (SessionAnswer σ)) := do
  withCachedSessions Z addresses
  let answers ← runSessionOps Z ops
  putCachedSessions Z native
  pure answers

/-- the two runs side by side -/
structure BothRuns (σ : Type) where
  cached : DeviceSession σ
  plain : DeviceSession σ

def BothRuns.step (b : BothRuns σ) (op : SessionOp σ) : BothRuns σ := ⟨(op.run Z b.cached).2, (op.run Z b.plain).2⟩

/-- the cache has a session for the address, the run without cache has none -/
def LeftOver (b : BothRuns σ) (address : Bytes) (entry : SessionCacheEntry σ) : Prop :=
  getCachedSession b.cached.memory address = some entry ∧ entry.found = true ∧ b.plain.tables.lookup address = none

/-- the call asks for a left over session -/
def AsksLeftOver (b : BothRuns σ) : SessionOp σ → Prop
  | .load address => ∃ entry, LeftOver b address entry ∧ entry.record ≠ Z.newSession
  | .contains address => ∃ entry, LeftOver b address entry
  | _ => False

/-! ## What the two runs have in common -/

/-- an entry of the cache, the row of its address, and the row in the run without cache -/
inductive EntryFits (entry : SessionCacheEntry σ) (row plain : Option Bytes) : Prop where
  | absent (h : entry = ⟨false, false, Z.newSession⟩) (hrow : row = none) (hplain : plain = none)
  | clean (hdirty : entry.dirty = false) (hfound : entry.found = true) (hrow : row = plain)
      (hrecord : ∀ raw, plain = some raw → Z.newSessionFromBytes raw = some entry.record)
  | dirty (hdirty : entry.dirty = true) (hfound : entry.found = true) (hplain : plain = some (Z.serialize entry.record))
  | deleted (hdirty : entry.dirty = true) (hfound : entry.found = true) (hrow : row = none) (hplain : plain = none)

structure Related (b : BothRuns σ) : Prop where
  quiet : b.cached.Quiet
  plain_quiet : b.plain.Quiet
  no_cache : b.plain.memory = none
  readable : ∀ address raw, b.plain.tables.lookup address = some raw → ∃ r, Z.newSessionFromBytes raw = some r
  uncached : ∀ address, getCachedSession b.cached.memory address = none →
    b.cached.tables.lookup address = b.plain.tables.lookup address
  fits : ∀ address entry, getCachedSession b.cached.memory address = some entry →
    EntryFits Z entry (b.cached.tables.lookup address) (b.plain.tables.lookup address)

variable {Z} {b : BothRuns σ} {s u : DeviceSession σ} {address : Bytes} {record : σ} {entry : SessionCacheEntry σ}
variable {row plain : Option Bytes}

section

variable (h : EntryFits Z entry row plain)
include h

/-- an entry has no session, and neither has the run without cache; or it has the session that that run has, if any -/
theorem EntryFits.cases :
    (entry.found = false ∧ entry.record = Z.newSession ∧ plain = none) ∨
      (entry.found = true ∧ ∀ raw, plain = some raw → Z.newSessionFromBytes raw = some entry.record) := by
  cases h with
  | absent h _ hplain =>
    subst h
    exact .inl ⟨rfl, rfl, hplain⟩
  | clean _ hfound _ hrecord => exact .inr ⟨hfound, hrecord⟩
  | dirty _ hfound hplain =>
    refine .inr ⟨hfound, fun raw hraw => ?_⟩
    rw [hplain] at hraw
    cases hraw
    exact Z.newSessionFromBytes_serialize _
  | deleted _ hfound _ hplain =>
    refine .inr ⟨hfound, fun raw hraw => ?_⟩
    rw [hplain] at hraw
    cases hraw

/-- a deletion leaves the entry -/
theorem EntryFits.delete : EntryFits Z entry none none := by
  cases h with
  | absent h _ _ => exact .absent h rfl rfl
  | clean hdirty hfound _ _ => exact .clean hdirty hfound rfl fun _ hraw => by cases hraw
  | dirty hdirty hfound _ => exact .deleted hdirty hfound rfl rfl
  | deleted hdirty hfound _ _ => exact .deleted hdirty hfound rfl rfl

end

/-! ## One call -/

/-- the record that the table has for an address -/
def recordOf (Z : SessionSerializer σ) (row : Option Bytes) : σ := (row.bind Z.newSessionFromBytes).getD Z.newSession

theorem loadSession_hit (h : getCachedSession s.memory address = some entry) :
    loadSession Z address s = (.ok entry.record, s) := by
  unfold loadSession
  rw [get_bind, h]
  rfl

theorem loadedSession_ok (hraw : ∀ raw, row = some raw → ∃ r, Z.newSessionFromBytes raw = some r) (s : DeviceSession σ) :
    loadedSession Z row s = (.ok (recordOf Z row), s) := by
  cases row with
  | none => rfl
  | some raw =>
    obtain ⟨r, hr⟩ := hraw raw rfl
    simp only [loadedSession, recordOf, Option.bind_some, hr]
    rfl

theorem loadSession_miss (hs : s.Quiet) (h : getCachedSession s.memory address = none)
    (hraw : ∀ raw, s.tables.lookup address = some raw → ∃ r, Z.newSessionFromBytes raw = some r) :
    loadSession Z address s = (.ok (recordOf Z (s.tables.lookup address)), s) := by
  unfold loadSession
  rw [get_bind, h]
  exact (bind_ok (call_ok hs)).trans (loadedSession_ok hraw s)

theorem containsSession_hit (h : getCachedSession s.memory address = some entry) :
    containsSession address s = (.ok entry.found, s) := by
  unfold containsSession
  rw [get_bind, h]
  rfl

theorem containsSession_miss (hs : s.Quiet) (h : getCachedSession s.memory address = none) :
    containsSession address s = (.ok (s.tables.lookup address).isSome, s) := by
  unfold containsSession
  rw [get_bind, h]
  exact bind_ok (call_ok hs)

theorem getCachedSession_none (h : s.memory = none) (address : Bytes) : getCachedSession s.memory address = none := by
  rw [h]
  rfl

/-- a call returns in both runs, they go on as related, and the answers are the same if the call asks for nothing left over -/
structure StepFits (Z : SessionSerializer σ) (b : BothRuns σ) (op : SessionOp σ) (x y : SessionAnswer σ) : Prop where
  cached : op.run Z b.cached = (.ok x, (b.step Z op).cached)
  plain : op.run Z b.plain = (.ok y, (b.step Z op).plain)
  related : Related Z (b.step Z op)
  answers : x = y ↔ ¬AsksLeftOver Z b op

theorem step_eq {op : SessionOp σ} {o o' : Outcome SessionError (SessionAnswer σ)} (hs : op.run Z b.cached = (o, s))
    (hu : op.run Z b.plain = (o', u)) : b.step Z op = ⟨s, u⟩ := by
  unfold BothRuns.step
  rw [hs, hu]

theorem StepFits.of_runs {op : SessionOp σ} {x y : SessionAnswer σ} (hs : op.run Z b.cached = (.ok x, s))
    (hu : op.run Z b.plain = (.ok y, u)) (hrelated : Related Z ⟨s, u⟩) (hanswers : x = y ↔ ¬AsksLeftOver Z b op) :
    StepFits Z b op x y := by
  refine ⟨?_, ?_, ?_, hanswers⟩
  · rw [step_eq hs hu]
    exact hs
  · rw [step_eq hs hu]
    exact hu
  · rw [step_eq hs hu]
    exact hrelated

theorem not_leftOver_of_none (hc : getCachedSession b.cached.memory address = none) : ¬LeftOver b address entry := by
  rintro ⟨hentry, _⟩
  rw [hc] at hentry
  cases hentry

theorem loadSession_plain (h : Related Z b) (address : Bytes) :
    loadSession Z address b.plain = (.ok (recordOf Z (b.plain.tables.lookup address)), b.plain) :=
  loadSession_miss h.plain_quiet (getCachedSession_none h.no_cache address) fun raw => h.readable address raw

theorem loadSession_uncached (h : Related Z b) (hc : getCachedSession b.cached.memory address = none) :
    loadSession Z address b.cached = (.ok (recordOf Z (b.cached.tables.lookup address)), b.cached) :=
  loadSession_miss h.quiet hc fun raw hraw => h.readable address raw (by rw [← h.uncached address hc, hraw])

theorem containsSession_plain (h : Related Z b) (address : Bytes) :
    containsSession address b.plain = (.ok (b.plain.tables.lookup address).isSome, b.plain) :=
  containsSession_miss h.plain_quiet (getCachedSession_none h.no_cache address)

theorem load_fits (h : Related Z b) (address : Bytes) : ∃ x y, StepFits Z b (.load address) x y := by
  have hplain := loadSession_plain h address
  cases hc : getCachedSession b.cached.memory address with
  | none =>
    have hcached := loadSession_uncached h hc
    refine ⟨_, _, .of_runs (bind_ok hcached) (bind_ok hplain) h ?_⟩
    rw [h.uncached address hc]
    exact iff_of_true rfl fun ⟨_, hleft, _⟩ => not_leftOver_of_none hc hleft
  | some entry =>
    refine ⟨_, _, .of_runs (bind_ok (loadSession_hit hc)) (bind_ok hplain) h ?_⟩
    have hanswer : SessionAnswer.record entry.record = .record (recordOf Z (b.plain.tables.lookup address)) ↔
        entry.record = recordOf Z (b.plain.tables.lookup address) := by simp
    refine hanswer.trans ?_
    cases hp : b.plain.tables.lookup address with
    | some raw =>
      -- the run without cache has the session
      have hrecord : Z.newSessionFromBytes raw = some entry.record := by
        rcases (h.fits address entry hc).cases with ⟨_, _, hnone⟩ | ⟨_, hrecord⟩
        · rw [hp] at hnone
          cases hnone
        · exact hrecord raw hp
      refine iff_of_true (by simp [recordOf, hrecord]) ?_
      rintro ⟨_, ⟨_, _, hnone⟩, _⟩
      rw [hp] at hnone
      cases hnone
    | none =>
      change entry.record = Z.newSession ↔ _
      rcases (h.fits address entry hc).cases with ⟨hfound, hnew, _⟩ | ⟨hfound, _⟩
      · refine iff_of_true hnew ?_
        rintro ⟨e, ⟨he, hefound, _⟩, _⟩
        rw [hc] at he
        cases he
        rw [hfound] at hefound
        cases hefound
      · constructor
        · rintro hnew ⟨e, ⟨he, _⟩, hne⟩
          rw [hc] at he
          cases he
          exact hne hnew
        · intro hno
          by_contra hne
          exact hno ⟨entry, ⟨hc, hfound, hp⟩, hne⟩

theorem contains_fits (h : Related Z b) (address : Bytes) : ∃ x y, StepFits Z b (.contains address) x y := by
  have hplain := containsSession_plain h address
  cases hc : getCachedSession b.cached.memory address with
  | none =>
    refine ⟨_, _, .of_runs (bind_ok (containsSession_miss h.quiet hc)) (bind_ok hplain) h ?_⟩
    rw [h.uncached address hc]
    exact iff_of_true rfl fun ⟨_, hleft⟩ => not_leftOver_of_none hc hleft
  | some entry =>
    refine ⟨_, _, .of_runs (bind_ok (containsSession_hit hc)) (bind_ok hplain) h ?_⟩
    have hleft : AsksLeftOver Z b (.contains address) ↔
        entry.found = true ∧ b.plain.tables.lookup address = none := by
      constructor
      · rintro ⟨e, he, hfound, hnone⟩
        rw [hc] at he
        cases he
        exact ⟨hfound, hnone⟩
      · rintro ⟨hfound, hnone⟩
        exact ⟨entry, hc, hfound, hnone⟩
    rw [hleft]
    rcases (h.fits address entry hc).cases with ⟨hfound, _, hnone⟩ | ⟨hfound, _⟩
    · simp [hfound, hnone]
    · cases hp : b.plain.tables.lookup address <;> simp [hfound]

theorem storeSession_plain (hs : s.Quiet) (h : s.memory = none) (address : Bytes) (record : σ) :
    storeSession Z address record s = (.ok (), { s with tables := s.tables.insert address (Z.serialize record) }) := by
  have hexec := exec_update_ok (e := SessionError.store) (fun t => t.insert address (Z.serialize record)) hs
  unfold storeSession
  rw [get_bind, h]
  rw [h] at hexec
  exact hexec

theorem storeSession_cached {cache : SessionCacheMap σ} (h : s.memory = some cache) (address : Bytes) (record : σ) :
    storeSession Z address record s = (.ok (), { s with memory := some (cache.insert address ⟨true, true, record⟩) }) := by
  unfold storeSession
  rw [get_bind, h]
  rfl

theorem readable_insert (h : Related Z b) (address : Bytes) (record : σ) (a raw : Bytes)
    (hraw : (b.plain.tables.insert address (Z.serialize record)).lookup a = some raw) :
    ∃ r, Z.newSessionFromBytes raw = some r := by
  rw [GoMap.lookup_insert_eq] at hraw
  split_ifs at hraw with ha
  · cases hraw
    exact ⟨record, Z.newSessionFromBytes_serialize record⟩
  · exact h.readable a raw hraw

theorem store_fits (h : Related Z b) (address : Bytes) (record : σ) : ∃ x y, StepFits Z b (.store address record) x y := by
  have hplain := storeSession_plain (Z := Z) h.plain_quiet h.no_cache address record
  have hanswers : (SessionAnswer.done : SessionAnswer σ) = .done ↔ ¬AsksLeftOver Z b (.store address record) :=
    iff_of_true rfl id
  cases hm : b.cached.memory with
  | none =>
    -- an empty list of addresses: there is no cache
    have hcached := storeSession_plain (Z := Z) h.quiet hm address record
    refine ⟨_, _, .of_runs (bind_ok hcached) (bind_ok hplain) ?_ hanswers⟩
    refine ⟨h.quiet, h.plain_quiet, h.no_cache, readable_insert h address record, fun a ha => ?_, fun a entry ha => ?_⟩
    · change (b.cached.tables.insert _ _).lookup a = (b.plain.tables.insert _ _).lookup a
      rw [GoMap.lookup_insert_eq, GoMap.lookup_insert_eq, h.uncached a ha]
    · rw [getCachedSession_none hm] at ha
      cases ha
  | some cache =>
    have hcached := storeSession_cached (Z := Z) hm address record
    refine ⟨_, _, .of_runs (bind_ok hcached) (bind_ok hplain) ?_ hanswers⟩
    have hlookup : ∀ a, getCachedSession (some (cache.insert address ⟨true, true, record⟩)) a =
        if a = address then some ⟨true, true, record⟩ else getCachedSession b.cached.memory a := by
      intro a
      rw [hm]
      exact GoMap.lookup_insert_eq
    refine ⟨h.quiet, h.plain_quiet, h.no_cache, readable_insert h address record, fun a ha => ?_, fun a entry ha => ?_⟩
    · change b.cached.tables.lookup a = (b.plain.tables.insert _ _).lookup a
      rw [hlookup] at ha
      split_ifs at ha with hne
      rw [lookup_insert_ne hne]
      exact h.uncached a ha
    · change EntryFits Z entry (b.cached.tables.lookup a) ((b.plain.tables.insert _ _).lookup a)
      rw [hlookup] at ha
      split_ifs at ha with hne
      · cases ha
        rw [hne, lookup_insert]
        exact .dirty rfl rfl rfl
      · rw [lookup_insert_ne hne]
        exact h.fits a entry ha

theorem deleteSession_ok (hs : s.Quiet) (address : Bytes) :
    deleteSession address s = (.ok (), { s with tables := s.tables.erase address }) :=
  exec_update_ok (AList.erase address) hs

section

variable (h : Related Z b)
include h

theorem delete_fits (address : Bytes) : ∃ x y, StepFits Z b (.delete address) x y := by
  refine ⟨_, _, .of_runs (bind_ok (deleteSession_ok h.quiet address))
    (bind_ok (deleteSession_ok h.plain_quiet address)) ?_ (iff_of_true rfl id)⟩
  refine ⟨h.quiet, h.plain_quiet, h.no_cache, fun a raw ha => ?_, fun a ha => ?_, fun a entry ha => ?_⟩
  · exact h.readable a raw (GoMap.within_erase address _ a raw ha)
  · change (b.cached.tables.erase address).lookup a = (b.plain.tables.erase address).lookup a
    rw [GoMap.lookup_erase_eq, GoMap.lookup_erase_eq, h.uncached a ha]
  · change EntryFits Z entry ((b.cached.tables.erase address).lookup a) ((b.plain.tables.erase address).lookup a)
    rw [GoMap.lookup_erase_eq, GoMap.lookup_erase_eq]
    split_ifs
    · exact (h.fits a entry ha).delete
    · exact h.fits a entry ha

theorem step_fits (op : SessionOp σ) : ∃ x y, StepFits Z b op x y := by
  cases op with
  | load address => exact load_fits h address
  | store address record => exact store_fits h address record
  | contains address => exact contains_fits h address
  | delete address => exact delete_fits h address

/-! ## Only deletions leave something over -/

theorem step_load (address : Bytes) : b.step Z (.load address) = b := by
  have hplain := loadSession_plain h address
  cases hc : getCachedSession b.cached.memory address with
  | none => exact step_eq (bind_ok (loadSession_uncached h hc)) (bind_ok hplain)
  | some entry => exact step_eq (bind_ok (loadSession_hit hc)) (bind_ok hplain)

theorem step_contains (address : Bytes) : b.step Z (.contains address) = b := by
  have hplain := containsSession_plain h address
  cases hc : getCachedSession b.cached.memory address with
  | none => exact step_eq (bind_ok (containsSession_miss h.quiet hc)) (bind_ok hplain)
  | some entry => exact step_eq (bind_ok (containsSession_hit hc)) (bind_ok hplain)

/-- a left over session was deleted by this call, or was left over before and not stored by it -/
theorem leftOver_step {op : SessionOp σ} (hleft : LeftOver (b.step Z op) address entry) :
    op = .delete address ∨ (LeftOver b address entry ∧ ∀ record, op ≠ .store address record) := by
  cases op with
  | load a =>
    rw [step_load h] at hleft
    exact .inr ⟨hleft, fun _ hop => by cases hop⟩
  | contains a =>
    rw [step_contains h] at hleft
    exact .inr ⟨hleft, fun _ hop => by cases hop⟩
  | store a record =>
    have hplain := storeSession_plain (Z := Z) h.plain_quiet h.no_cache a record
    have hother : (b.plain.tables.insert a (Z.serialize record)).lookup address = none →
        address ≠ a ∧ b.plain.tables.lookup address = none := by
      intro hnone
      rw [GoMap.lookup_insert_eq] at hnone
      split_ifs at hnone with ha
      exact ⟨ha, hnone⟩
    cases hm : b.cached.memory with
    | none =>
      rw [step_eq (bind_ok (storeSession_plain h.quiet hm a record)) (bind_ok hplain)] at hleft
      exact absurd hleft (not_leftOver_of_none (getCachedSession_none hm address))
    | some cache =>
      rw [step_eq (bind_ok (storeSession_cached hm a record)) (bind_ok hplain)] at hleft
      obtain ⟨hentry, hfound, hnone⟩ := hleft
      obtain ⟨hne, hnone⟩ := hother hnone
      refine .inr ⟨⟨?_, hfound, hnone⟩, fun r hop => ?_⟩
      · rw [hm]
        exact (lookup_insert_ne hne).symm.trans hentry
      · cases hop
        exact hne rfl
  | delete a =>
    rw [step_eq (bind_ok (deleteSession_ok h.quiet a)) (bind_ok (deleteSession_ok h.plain_quiet a))] at hleft
    by_cases ha : address = a
    · exact .inl (by rw [ha])
    · obtain ⟨hentry, hfound, hnone⟩ := hleft
      refine .inr ⟨⟨hentry, hfound, ?_⟩, fun _ hop => by cases hop⟩
      rw [← lookup_erase_ne ha]
      exact hnone

/-! ## Runs of calls -/

/-- the calls return in both runs, and all answers are the same exactly if none asks for something left over -/
theorem run_fits (ops : List (SessionOp σ)) : ∃ xs ys,
    runSessionOps Z ops b.cached = (.ok xs, (run (BothRuns.step Z) b ops).cached) ∧
    runSessionOps Z ops b.plain = (.ok ys, (run (BothRuns.step Z) b ops).plain) ∧
    Related Z (run (BothRuns.step Z) b ops) ∧
    (xs = ys ↔ Along (BothRuns.step Z) (fun b op => ¬AsksLeftOver Z b op) b ops) := by
  induction ops generalizing b with
  | nil => exact ⟨[], [], rfl, rfl, h, iff_of_true rfl trivial⟩
  | cons op ops ih =>
    obtain ⟨x, y, hcached, hplain, hrelated, hanswer⟩ := step_fits h op
    obtain ⟨xs, ys, hcached', hplain', hrelated', hanswers⟩ := ih hrelated
    refine ⟨x :: xs, y :: ys, ?_, ?_, hrelated', ?_⟩
    · unfold runSessionOps
      rw [bind_ok hcached, bind_ok hcached']
      rfl
    · unfold runSessionOps
      rw [bind_ok hplain, bind_ok hplain']
      rfl
    · rw [cons.injEq]
      exact and_congr hanswer hanswers

/-- a left over session was deleted, and not stored again since -/
theorem deleted_of_leftOver (hstart : ∀ a e, ¬LeftOver b a e) (ops : List (SessionOp σ))
    (hleft : LeftOver (run (BothRuns.step Z) b ops) address entry) :
    ∃ pre post, ops = pre ++ .delete address :: post ∧ ∀ record, .store address record ∉ post := by
  induction ops using List.reverseRecOn generalizing entry with
  | nil => exact absurd hleft (hstart address entry)
  | append_singleton ops op ih =>
    obtain ⟨_, _, _, _, hrelated, _⟩ := run_fits h ops
    rw [run_append] at hleft
    rcases leftOver_step hrelated hleft with rfl | ⟨hbefore, hstore⟩
    · exact ⟨ops, [], rfl, fun _ h => by cases h⟩
    · obtain ⟨pre, post, rfl, hpost⟩ := ih hbefore
      refine ⟨pre, post ++ [op], by simp, fun record hmem => ?_⟩
      rcases mem_append.1 hmem with hmem | hmem
      · exact hpost record hmem
      · exact hstore record (mem_singleton.1 hmem).symm

end

/-! ## `WithCachedSessions` -/

variable {t : GoMap Bytes Bytes}

/-! ## `PutCachedSessions` -/

/-! ## Transparency -/

end Transparency

/-! ## Examples -/

/-- records that are their own serialised form -/
def rawSessions : SessionSerializer Bytes := ⟨[], id, some, fun _ => rfl⟩

def bob : Bytes := ascii "491761234567:0"

end Hypermeow.Store
