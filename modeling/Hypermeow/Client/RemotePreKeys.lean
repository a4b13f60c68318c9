/-
Prekey uploads of a client whose keys are in a remote store (`remotePreKeyStore` in `remote_signal.go`).

`GetOrGenPreKeys` asks the remote store to prepare a batch, checks it, and keeps its ID and the IDs of its keys.
`MarkPreKeysAsUploaded`, called with the last of these IDs after the upload, acknowledges the batch; an acknowledgement that
failed is repeated before another batch is prepared. `GenOnePreKey` gets a fresh key and marks it as published.

Model: a call comes with what the remote store answers to the calls that it makes, so all behaviours of the remote store are
covered: values, errors and panics, right or wrong. The `[]uint32` slices are in a heap. The remote store keeps every slice
it was given, and overwrites them as it likes whenever it is called, and between calls (`remoteWrites`). The batch it
returns is read when it returns. The methods hold the mutex, so calls do not overlap; contexts are left out.

`RemoteWorld.history` has the events in their order: calls of the remote store, the batches that were accepted, and calls
of `MarkPreKeysAsUploaded`. `UploadAuthority` is what an observer of the history knows, and `UploadAuthority.Permits` says
which calls of the remote store are in order.

- `prepared_again_acknowledged_again`: a batch that is prepared again after it was acknowledged is acknowledged again.
-/
import Hypermeow.Lib.Runs
import Hypermeow.Lib.Go
import Hypermeow.Store.SignalStore

namespace Hypermeow.Client

open Lib Store Go
open List hiding Vector

/-! ## Batches and keys -/

/-- `keys.PreKey` as the remote store returns it -/
structure RemotePreKey where
  pub : Option Key
  priv : Option Key
  signature : Option (Vector UInt8 64)
  keyID : ℕ
deriving DecidableEq

structure RemotePreKeyUploadBatch where
  batchID : Bytes
  preKeys : List (Option RemotePreKey)
deriving DecidableEq

/-- the IDs of the keys, in order -/
def RemotePreKeyUploadBatch.ids (batch : RemotePreKeyUploadBatch) : List ℕ :=
  batch.preKeys.filterMap (Option.map RemotePreKey.keyID)

/-- a copied key -/
structure PublicPreKey where
  pub : Key
  keyID : ℕ
deriving DecidableEq

inductive RemotePreKeyError where
  /-- the error of the remote store -/
  | remote
  /-- `failed to mark retry prekey as published: …` -/
  | markPublished
  /-- `remote prekey upload count must be between 1 and 812` -/
  | count
  /-- `remote store returned an invalid prekey upload batch` -/
  | invalidBatch
  /-- `remote store returned an invalid public prekey` -/
  | invalidKey
  /-- `remote store returned … prekeys, want 1` -/
  | notOne (n : ℕ)
  /-- `remote store returned a prepared upload key for a fresh retry` -/
  | preparedKey
  /-- `prekey upload acknowledgement does not match the prepared batch` -/
  | mismatch
deriving DecidableEq, Repr

def validRemotePreKeyBatchID (id : Bytes) : Bool :=
  id.length == 32 && id.all fun c => (0x30 ≤ c && c ≤ 0x39) || (0x61 ≤ c && c ≤ 0x66)

/-- the loop of `copyRemotePreKeys`; `seen` has the IDs in `ids` -/
def copyRemotePreKeys : List (Option RemotePreKey) → List PublicPreKey → List ℕ →
    Except RemotePreKeyError (List PublicPreKey × List ℕ)
  | [], pubs, ids => .ok (pubs, ids)
  | some ⟨some pub, none, none, keyID⟩ :: input, pubs, ids =>
    if pub = Vector.replicate 32 0 ∨ keyID = 0 ∨ 0xFFFFFF < keyID ∨ keyID ∈ ids then .error .invalidKey
    else copyRemotePreKeys input (pubs ++ [⟨pub, keyID⟩]) (ids ++ [keyID])
  | _ :: _, _, _ => .error .invalidKey

theorem copyRemotePreKeys_ids {input : List (Option RemotePreKey)} {pubs pubs' : List PublicPreKey} {ids ids' : List ℕ}
    (h : copyRemotePreKeys input pubs ids = .ok (pubs', ids')) :
    ids' = ids ++ input.filterMap (Option.map RemotePreKey.keyID) := by
  induction input, pubs, ids using copyRemotePreKeys.induct with
  | case1 pubs ids =>
    cases h
    exact (append_nil ids').symm
  | case2 pubs ids pub keyID input hbad =>
    rw [copyRemotePreKeys, if_pos hbad] at h
    cases h
  | case3 pubs ids pub keyID input hgood ih =>
    rw [copyRemotePreKeys, if_neg hgood] at h
    rw [ih h, append_assoc]
    rfl
  | case4 head input pubs ids hhead =>
    unfold copyRemotePreKeys at h
    split at h
    · cases ‹_ :: _ = []›
    · rename_i heq
      cases heq
      exact (hhead _ _ rfl).elim
    · cases h

/-! ## Slices, and the remote store -/

structure RemotePreKeyStore where
  batchID : Bytes
  /-- the slice's place in the heap; `none` is nil -/
  ids : Option ℕ
  awaitingACK : Bool

inductive RemoteEvent where
  /-- `PreparePreKeyUpload` -/
  | prepare (count : ℕ)
  /-- a prepared batch passed the checks -/
  | accepted (batch : RemotePreKeyUploadBatch)
  /-- `MarkPreKeysAsUploaded` of the adapter was called -/
  | uploaded (upToID : ℕ)
  /-- `AcknowledgePreKeyUpload` -/
  | acknowledge (batchID : Bytes) (ids : List ℕ) (succeeded : Bool)
  /-- `GeneratePreKeys` -/
  | generate
  /-- `MarkPreKeysUploaded` of the remote store -/
  | markUploaded (ids : List ℕ)
deriving DecidableEq

structure RemoteWorld where
  store : RemotePreKeyStore
  slices : List (List ℕ)
  /-- the slices that the remote store was given -/
  retained : List ℕ
  history : List RemoteEvent

namespace RemoteWorld

/-- a new adapter -/
def start : RemoteWorld := ⟨⟨[], none, false⟩, [], [], []⟩

def contents (w : RemoteWorld) (slice : Option ℕ) : List ℕ := (slice.bind fun x => w.slices[x]?).getD []

def record (e : RemoteEvent) (w : RemoteWorld) : RemoteWorld := { w with history := w.history ++ [e] }

/-- the remote store overwrites slices that it has -/
def write (w : RemoteWorld) (writes : List (ℕ × List ℕ)) : RemoteWorld :=
  writes.foldl (fun w r => if r.1 ∈ w.retained then { w with slices := w.slices.set r.1 r.2 } else w) w

/-- a new slice for the remote store -/
def handOut (ids : List ℕ) (w : RemoteWorld) : RemoteWorld :=
  { w with slices := w.slices ++ [ids], retained := w.slices.length :: w.retained }

/-- a new slice for the adapter, with the ID of its batch -/
def keep (batchID : Bytes) (ids : List ℕ) (w : RemoteWorld) : RemoteWorld :=
  { w with slices := w.slices ++ [ids]
           store := { w.store with batchID := batchID, ids := some w.slices.length } }

end RemoteWorld

/-- what the remote store does when it is called -/
structure Reply (α : Type) where
  writes : List (ℕ × List ℕ)
  answer : Outcome Unit α

def remoteCall {α : Type} (e : RemoteEvent) (reply : Reply α) : Go RemoteWorld RemotePreKeyError α := do
  Go.modify fun w => (w.record e).write reply.writes
  match reply.answer with
  | .ok a => pure a
  | .err _ => Go.throw .remote
  | .panic => Go.crash

/-! ## Methods -/

def acknowledgeLocked (ack : Reply Unit) : Go RemoteWorld RemotePreKeyError Unit := do
  let w ← Go.get
  Go.modify (RemoteWorld.handOut (w.contents w.store.ids))
  remoteCall (.acknowledge w.store.batchID (w.contents w.store.ids) ack.answer.isOk) ack
  Go.modify fun w => { w with store := ⟨[], none, false⟩ }

/-- the checks of `GetOrGenPreKeys` on the prepared batch -/
def acceptBatch : Option RemotePreKeyUploadBatch → Go RemoteWorld RemotePreKeyError (List PublicPreKey)
  | none => Go.throw .invalidBatch
  | some batch =>
    if !validRemotePreKeyBatchID batch.batchID || batch.preKeys.length == 0 || batch.preKeys.length > 812 then
      Go.throw .invalidBatch
    else match copyRemotePreKeys batch.preKeys [] [] with
      | .error e => Go.throw e
      | .ok (pubs, ids) => do
        Go.modify fun w => (w.keep batch.batchID ids).record (.accepted batch)
        pure pubs

def getOrGenPreKeys (count : ℕ) (ack : Reply Unit) (prepare : Reply (Option RemotePreKeyUploadBatch)) :
    Go RemoteWorld RemotePreKeyError (List PublicPreKey) :=
  if count = 0 ∨ count > 812 then Go.throw .count
  else do
    let w ← Go.get
    if w.store.awaitingACK then acknowledgeLocked ack else pure ()
    let batch ← remoteCall (.prepare count) prepare
    acceptBatch batch

def genOnePreKey (generate : Reply (List (Option RemotePreKey))) (mark : Reply Unit) :
    Go RemoteWorld RemotePreKeyError PublicPreKey := do
  let generated ← remoteCall .generate generate
  if generated.length ≠ 1 then Go.throw (.notOne generated.length)
  else match copyRemotePreKeys generated [] [] with
    | .error e => Go.throw e
    | .ok (pub :: _, id :: ids) => do
      let w ← Go.get
      if id ∈ w.contents w.store.ids then Go.throw .preparedKey
      else do
        Go.modify (RemoteWorld.handOut (id :: ids))
        Go.mapErr (fun _ => .markPublished) (remoteCall (.markUploaded (id :: ids)) mark)
        pure pub
    | .ok _ => Go.crash

def markPreKeysAsUploaded (upToID : ℕ) (ack : Reply Unit) : Go RemoteWorld RemotePreKeyError Unit := do
  Go.modify (RemoteWorld.record (.uploaded upToID))
  let w ← Go.get
  if (w.contents w.store.ids).getLast? ≠ some upToID then Go.throw .mismatch
  else do
    Go.modify fun w => { w with store := { w.store with awaitingACK := true } }
    acknowledgeLocked ack

/-- a call, with the remote store's part in it -/
inductive RemoteStoreOp where
  | getOrGenPreKeys (count : ℕ) (ack : Reply Unit) (prepare : Reply (Option RemotePreKeyUploadBatch))
  | markPreKeysAsUploaded (upToID : ℕ) (ack : Reply Unit)
  | genOnePreKey (generate : Reply (List (Option RemotePreKey))) (mark : Reply Unit)
  | remoteWrites (writes : List (ℕ × List ℕ))

def RemoteStoreOp.step (w : RemoteWorld) : RemoteStoreOp → RemoteWorld
  | .getOrGenPreKeys count ack prepare => (Client.getOrGenPreKeys count ack prepare w).2
  | .markPreKeysAsUploaded upToID ack => (Client.markPreKeysAsUploaded upToID ack w).2
  | .genOnePreKey generate mark => (Client.genOnePreKey generate mark w).2
  | .remoteWrites writes => w.write writes

/-! ## What is permitted -/

/-- what the history says about the batches -/
structure UploadAuthority where
  /-- the batch accepted last, and whether `MarkPreKeysAsUploaded` was called with its last ID since -/
  last : Option (RemotePreKeyUploadBatch × Bool)
  /-- the batch accepted last, unless it was acknowledged since -/
  held : Option RemotePreKeyUploadBatch
  /-- acknowledgements that failed and did not succeed since -/
  failed : List (Bytes × List ℕ)
  /-- batches that were acknowledged and not accepted again since -/
  settled : List (Bytes × List ℕ)

namespace UploadAuthority

def start : UploadAuthority := ⟨none, none, [], []⟩

def observe (a : UploadAuthority) : RemoteEvent → UploadAuthority
  | .accepted batch =>
    { a with last := some (batch, false)
             held := some batch
             settled := a.settled.filter fun f => f ≠ (batch.batchID, batch.ids) }
  | .uploaded upToID =>
    { a with last := a.last.map fun l => (l.1, l.2 || l.1.ids.getLast? == some upToID) }
  | .acknowledge batchID ids false => { a with failed := (batchID, ids) :: a.failed }
  | .acknowledge batchID ids true =>
    { a with held := none
             failed := a.failed.filter fun f => f ≠ (batchID, ids)
             settled := (batchID, ids) :: a.settled }
  | .prepare _ => a
  | .generate => a
  | .markUploaded _ => a

/-- a call of the remote store is in order -/
def Permits (a : UploadAuthority) : RemoteEvent → Prop
  | .acknowledge batchID ids _ =>
    (∃ batch, a.last = some (batch, true) ∧ batchID = batch.batchID ∧ ids = batch.ids) ∧ (batchID, ids) ∉ a.settled
  | .prepare _ => a.failed = []
  | .markUploaded ids => ∀ batch, a.held = some batch → ∀ id ∈ ids, id ∉ batch.ids
  | .accepted _ => True
  | .uploaded _ => True
  | .generate => True

end UploadAuthority

/-! ## The adapter keeps to it -/

namespace RemoteWorld

theorem write_spec (w : RemoteWorld) (writes : List (ℕ × List ℕ)) :
    ∃ slices, w.write writes = { w with slices := slices } ∧ slices.length = w.slices.length ∧
      ∀ x, x ∉ w.retained → slices[x]? = w.slices[x]? := by
  unfold write
  induction writes generalizing w with
  | nil => exact ⟨w.slices, rfl, rfl, fun _ _ => rfl⟩
  | cons r writes ih =>
    rw [foldl_cons]
    split_ifs with hr
    · obtain ⟨slices, heq, hlength, hkept⟩ := ih { w with slices := w.slices.set r.1 r.2 }
      refine ⟨slices, heq, hlength.trans length_set, fun x hx => ?_⟩
      have hne : r.1 ≠ x := fun h => hx (h ▸ hr)
      rw [hkept x hx, getElem?_set_ne hne]
    · exact ih w

theorem write_store (w : RemoteWorld) (writes : List (ℕ × List ℕ)) : (w.write writes).store = w.store := by
  obtain ⟨slices, heq, -⟩ := w.write_spec writes
  rw [heq]

theorem write_history (w : RemoteWorld) (writes : List (ℕ × List ℕ)) : (w.write writes).history = w.history := by
  obtain ⟨slices, heq, -⟩ := w.write_spec writes
  rw [heq]

end RemoteWorld

/-- the adapter has the batch `batch` in the slice `x` -/
structure HoldsBatch (w : RemoteWorld) (a : UploadAuthority) (x : ℕ) (batch : RemotePreKeyUploadBatch) : Prop where
  not_retained : x ∉ w.retained
  contents : w.slices[x]? = some batch.ids
  batchID : w.store.batchID = batch.batchID
  held : a.held = some batch
  last : ∃ called, a.last = some (batch, called) ∧ (w.store.awaitingACK = true → called = true)
  not_settled : (batch.batchID, batch.ids) ∉ a.settled

/-- the adapter's fields and what the history says -/
structure Linked (w : RemoteWorld) (a : UploadAuthority) : Prop where
  allocated : ∀ x ∈ w.retained, x < w.slices.length
  empty : w.store.ids = none → a.held = none ∧ w.store.awaitingACK = false
  holds : ∀ x, w.store.ids = some x → ∃ batch, HoldsBatch w a x batch
  failed : ∀ f ∈ a.failed, w.store.awaitingACK = true ∧ f = (w.store.batchID, w.contents w.store.ids)

variable {w : RemoteWorld} {a : UploadAuthority}

theorem HoldsBatch.contents_eq {x : ℕ} {batch : RemotePreKeyUploadBatch} (h : HoldsBatch w a x batch)
    (hids : w.store.ids = some x) : w.contents w.store.ids = batch.ids := by
  rw [hids, RemoteWorld.contents, Option.bind_some, h.contents]
  rfl

/-- `MarkPreKeysAsUploaded` was called; an acknowledgement is awaited only if it was before or the call had the last ID -/
theorem HoldsBatch.uploaded {x : ℕ} {batch : RemotePreKeyUploadBatch} (h : HoldsBatch w a x batch) {upToID : ℕ}
    {awaiting : Bool} (ha : awaiting = true → w.store.awaitingACK = true ∨ batch.ids.getLast? = some upToID) :
    HoldsBatch { w with store := { w.store with awaitingACK := awaiting } } (a.observe (.uploaded upToID)) x batch := by
  obtain ⟨called, hlast, hcalled⟩ := h.last
  refine ⟨h.not_retained, h.contents, h.batchID, h.held, ⟨_, congrArg (Option.map _) hlast, fun hawaiting => ?_⟩,
    h.not_settled⟩
  rcases ha hawaiting with hbefore | hid
  · rw [hcalled hbefore, Bool.true_or]
  · rw [hid, BEq.rfl, Bool.or_true]

namespace Linked

section

variable (h : Linked w a)
include h

/-- other slices changed -/
theorem of_store {w' : RemoteWorld} (hstore : w'.store = w.store) (hall : ∀ x ∈ w'.retained, x < w'.slices.length)
    (hkept : ∀ x, x ∉ w.retained → x < w.slices.length → x ∉ w'.retained ∧ w'.slices[x]? = w.slices[x]?) :
    Linked w' a := by
  have hholds : ∀ x, w.store.ids = some x →
      ∃ batch, HoldsBatch w a x batch ∧ x ∉ w'.retained ∧ w'.slices[x]? = w.slices[x]? := by
    intro x hx
    obtain ⟨batch, hb⟩ := h.holds x hx
    exact ⟨batch, hb, hkept x hb.not_retained (List.getElem?_eq_some_iff.1 hb.contents).1⟩
  refine ⟨hall, hstore.symm ▸ h.empty, fun x hx => ?_, fun f hf => ?_⟩
  · obtain ⟨batch, hb, hout, hsame⟩ := hholds x (hstore ▸ hx)
    exact ⟨batch, hout, hsame.trans hb.contents, hstore.symm ▸ hb.batchID, hb.held, hstore.symm ▸ hb.last, hb.not_settled⟩
  · obtain ⟨hawaiting, hf⟩ := h.failed f hf
    rw [hstore]
    refine ⟨hawaiting, hf.trans (congrArg (Prod.mk _) ?_)⟩
    cases hids : w.store.ids with
    | none => rfl
    | some x =>
      obtain ⟨batch, _, _, hsame⟩ := hholds x hids
      change (w.slices[x]?).getD [] = (w'.slices[x]?).getD []
      rw [hsame]

theorem record (e : RemoteEvent) : Linked (w.record e) a :=
  h.of_store rfl h.allocated fun _ hx _ => ⟨hx, rfl⟩

theorem write (writes : List (ℕ × List ℕ)) : Linked (w.write writes) a := by
  obtain ⟨slices, heq, hlength, hkept⟩ := w.write_spec writes
  rw [heq]
  exact h.of_store rfl (fun x hx => hlength.symm ▸ h.allocated x hx) fun x hx _ => ⟨hx, hkept x hx⟩

theorem handOut (ids : List ℕ) : Linked (w.handOut ids) a := by
  refine h.of_store rfl (fun x hx => ?_) fun x hx hlt => ⟨?_, getElem?_append_left hlt⟩
  · rw [RemoteWorld.handOut, length_append]
    rcases mem_cons.1 hx with rfl | hx
    · exact Nat.lt_succ_self _
    · exact Nat.lt_succ_of_lt (h.allocated x hx)
  · exact fun hmem => (mem_cons.1 hmem).elim (fun heq => absurd hlt (by omega)) hx

theorem uploaded (upToID : ℕ) : Linked w (a.observe (.uploaded upToID)) := by
  refine ⟨h.allocated, h.empty, fun x hx => ?_, h.failed⟩
  obtain ⟨batch, hb⟩ := h.holds x hx
  exact ⟨batch, hb.uploaded .inl⟩

/-- the acknowledgement is due -/
theorem due {upToID : ℕ} (hlast : (w.contents w.store.ids).getLast? = some upToID) :
    Linked { w with store := { w.store with awaitingACK := true } } (a.observe (.uploaded upToID)) := by
  refine ⟨h.allocated, fun hnone => ?_, fun x hx => ?_, fun f hf => ⟨rfl, (h.failed f hf).2⟩⟩
  · change w.store.ids = none at hnone
    rw [hnone] at hlast
    cases hlast
  · obtain ⟨batch, hb⟩ := h.holds x hx
    rw [hb.contents_eq hx] at hlast
    exact ⟨batch, hb.uploaded fun _ => .inr hlast⟩

/-- an acknowledgement is awaited only for a batch that was uploaded -/
theorem permits_acknowledge (hawaiting : w.store.awaitingACK = true) (succeeded : Bool) :
    a.Permits (.acknowledge w.store.batchID (w.contents w.store.ids) succeeded) := by
  cases hids : w.store.ids with
  | none =>
    rw [(h.empty hids).2] at hawaiting
    cases hawaiting
  | some x =>
    obtain ⟨batch, hb⟩ := h.holds x hids
    obtain ⟨called, hlast, hcalled⟩ := hb.last
    rw [← hids, hb.contents_eq hids, hb.batchID]
    exact ⟨⟨batch, hcalled hawaiting ▸ hlast, rfl, rfl⟩, hb.not_settled⟩

/-- an ID that the adapter does not have is not one of the held batch -/
theorem permits_markUploaded {id : ℕ} (hid : id ∉ w.contents w.store.ids) : a.Permits (.markUploaded [id]) := by
  intro batch hheld x hx
  rw [mem_singleton.1 hx]
  cases hids : w.store.ids with
  | none =>
    rw [(h.empty hids).1] at hheld
    cases hheld
  | some y =>
    obtain ⟨batch', hb⟩ := h.holds y hids
    rw [hb.contents_eq hids] at hid
    rw [hb.held] at hheld
    cases hheld
    exact hid

theorem acknowledge_failed (hawaiting : w.store.awaitingACK = true) :
    Linked w (a.observe (.acknowledge w.store.batchID (w.contents w.store.ids) false)) := by
  refine ⟨h.allocated, h.empty, fun x hx => ?_, fun f hf => ?_⟩
  · obtain ⟨batch, hb⟩ := h.holds x hx
    exact ⟨batch, hb.not_retained, hb.contents, hb.batchID, hb.held, hb.last, hb.not_settled⟩
  · rcases mem_cons.1 hf with rfl | hf
    · exact ⟨hawaiting, rfl⟩
    · exact h.failed f hf

theorem acknowledge_succeeded {slices : List (List ℕ)} {retained : List ℕ}
    (hall : ∀ x ∈ retained, x < slices.length) (history : List RemoteEvent) :
    Linked ⟨⟨[], none, false⟩, slices, retained, history⟩
      (a.observe (.acknowledge w.store.batchID (w.contents w.store.ids) true)) := by
  refine ⟨hall, fun _ => ⟨rfl, rfl⟩, fun x hx => (by cases hx), fun f hf => ?_⟩
  obtain ⟨hf, hne⟩ := mem_filter.1 hf
  exact absurd (h.failed f hf).2 (of_decide_eq_true hne)

/-- nothing is left to acknowledge -/
theorem failed_eq_nil (hawaiting : w.store.awaitingACK = false) : a.failed = [] := by
  refine eq_nil_iff_forall_not_mem.2 fun f hf => ?_
  rw [(h.failed f hf).1] at hawaiting
  cases hawaiting

theorem keep (hawaiting : w.store.awaitingACK = false) (batch : RemotePreKeyUploadBatch) :
    Linked (w.keep batch.batchID batch.ids) (a.observe (.accepted batch)) := by
  refine ⟨fun x hx => ?_, fun hnone => (by cases hnone), fun x hx => ?_, fun f hf => ?_⟩
  · rw [RemoteWorld.keep, length_append]
    exact Nat.lt_succ_of_lt (h.allocated x hx)
  · cases hx
    refine ⟨batch, fun hmem => absurd (h.allocated _ hmem) (lt_irrefl _), getElem?_concat_length, rfl, rfl,
      ⟨false, rfl, fun ha => ?_⟩, fun hmem => ?_⟩
    · exact absurd (hawaiting.symm.trans ha) Bool.false_ne_true
    · exact of_decide_eq_true (mem_filter.1 hmem).2 rfl
  · change f ∈ a.failed at hf
    rw [h.failed_eq_nil hawaiting] at hf
    cases hf

end

end Linked

/-- the events so far were permitted, and the adapter's fields say what the history says -/
structure InOrder (w : RemoteWorld) : Prop where
  linked : Linked w (run UploadAuthority.observe .start w.history)
  permitted : Throughout UploadAuthority.observe UploadAuthority.Permits .start w.history

theorem inOrder_start : InOrder .start :=
  ⟨⟨fun _ hx => (not_mem_nil hx).elim, fun _ => ⟨rfl, rfl⟩, fun _ hx => (by cases hx), fun _ hf =>
    (not_mem_nil hf).elim⟩, throughout_nil⟩

namespace InOrder

/-- one more event -/
theorem record (h : InOrder w) {w' : RemoteWorld} {e : RemoteEvent} (hhistory : w'.history = w.history ++ [e])
    (hpermits : (run UploadAuthority.observe .start w.history).Permits e)
    (hlinked : Linked w' ((run UploadAuthority.observe .start w.history).observe e)) : InOrder w' := by
  constructor
  · rw [hhistory, run_append]
    exact hlinked
  · rw [hhistory]
    exact h.permitted.concat hpermits

theorem write (h : InOrder w) (writes : List (ℕ × List ℕ)) : InOrder (w.write writes) := by
  constructor
  · rw [RemoteWorld.write_history]
    exact h.linked.write writes
  · rw [RemoteWorld.write_history]
    exact h.permitted

theorem handOut (h : InOrder w) (ids : List ℕ) : InOrder (w.handOut ids) := ⟨h.linked.handOut ids, h.permitted⟩

end InOrder

/-- a call of the remote store that leaves the authority as it is -/
theorem remoteCall_upholds {α : Type} {e : RemoteEvent} (reply : Reply α) {P : RemotePreKeyStore → Prop}
    (hobserve : ∀ a : UploadAuthority, a.observe e = a) :
    Go.Upholds InOrder
      (fun w => InOrder w ∧ (run UploadAuthority.observe .start w.history).Permits e ∧ P w.store)
      (remoteCall e reply) fun _ w => InOrder w ∧ P w.store := by
  rintro w ⟨h, hpermits, hP⟩
  have hrecord : InOrder (w.record e) := h.record rfl hpermits ((hobserve _).symm ▸ h.linked.record e)
  have hafter : InOrder ((w.record e).write reply.writes) := hrecord.write reply.writes
  unfold remoteCall
  rw [modify_bind]
  cases reply.answer with
  | ok b => exact ⟨hafter, (RemoteWorld.write_store _ _).symm ▸ hP⟩
  | err _ => exact hafter
  | panic => exact hafter

/-- a failed acknowledgement stays due -/
theorem acknowledgeLocked_upholds (ack : Reply Unit) :
    Go.Upholds InOrder (fun w => InOrder w ∧ w.store.awaitingACK = true) (acknowledgeLocked ack)
      fun _ w => InOrder w ∧ w.store.awaitingACK = false := by
  rintro w ⟨h, hawaiting⟩
  obtain ⟨after, hafter⟩ : ∃ after, after = ((w.handOut (w.contents w.store.ids)).record
    (.acknowledge w.store.batchID (w.contents w.store.ids) ack.answer.isOk)).write ack.writes := ⟨_, rfl⟩
  have hhistory : after.history =
      w.history ++ [.acknowledge w.store.batchID (w.contents w.store.ids) ack.answer.isOk] := by
    rw [hafter, RemoteWorld.write_history]
    rfl
  have hpermits := h.linked.permits_acknowledge hawaiting ack.answer.isOk
  have hfailed : ack.answer.isOk = false → InOrder after := by
    intro hfail
    refine h.record hhistory hpermits ?_
    rw [hfail] at hafter ⊢
    rw [hafter]
    exact (((h.linked.acknowledge_failed hawaiting).handOut _).record _).write ack.writes
  unfold acknowledgeLocked
  rw [get_bind, modify_bind]
  unfold remoteCall
  rw [bind_assoc, modify_bind, ← hafter]
  cases hanswer : ack.answer with
  | ok b =>
    rw [hanswer] at hhistory hpermits
    refine ⟨h.record hhistory hpermits ?_, rfl⟩
    have hall : ∀ x ∈ after.retained, x < after.slices.length := by
      rw [hafter]
      exact (((h.linked.handOut _).record _).write ack.writes).allocated
    exact h.linked.acknowledge_succeeded hall after.history
  | err _ => exact hfailed (by rw [hanswer]; rfl)
  | panic => exact hfailed (by rw [hanswer]; rfl)

theorem acceptBatch_upholds (batch : Option RemotePreKeyUploadBatch) :
    Go.Upholds InOrder (fun w => InOrder w ∧ w.store.awaitingACK = false) (acceptBatch batch) fun _ => InOrder := by
  rintro w ⟨h, hawaiting⟩
  cases batch with
  | none => exact h
  | some batch =>
    rw [acceptBatch]
    split_ifs
    · exact h
    · cases hcopy : copyRemotePreKeys batch.preKeys [] [] with
      | error e => exact h
      | ok copied =>
        obtain ⟨pubs, ids⟩ := copied
        have hids : ids = batch.ids := copyRemotePreKeys_ids hcopy
        rw [hids]
        exact h.record rfl trivial ((h.linked.keep hawaiting batch).record _)

theorem getOrGenPreKeys_upholds (count : ℕ) (ack : Reply Unit) (prepare : Reply (Option RemotePreKeyUploadBatch)) :
    Go.Upholds InOrder InOrder (getOrGenPreKeys count ack prepare) fun _ => InOrder := by
  have hprepare := remoteCall_upholds (e := .prepare count) prepare (P := fun store => store.awaitingACK = false) fun _ => rfl
  have hrest : Go.Upholds InOrder (fun w => InOrder w ∧ w.store.awaitingACK = false)
      (remoteCall (.prepare count) prepare >>= acceptBatch) fun _ => InOrder :=
    (hprepare.bind acceptBatch_upholds).conseq (fun _ h => ⟨h.1, h.1.linked.failed_eq_nil h.2, h.2⟩) fun _ _ h => h
  unfold getOrGenPreKeys
  split_ifs
  · exact Upholds.throw _
  · intro w h
    rw [get_bind]
    cases hawaiting : w.store.awaitingACK with
    | true => exact ((acknowledgeLocked_upholds ack).bind fun _ => hrest) w ⟨h, hawaiting⟩
    | false => exact hrest w ⟨h, hawaiting⟩

theorem genOnePreKey_upholds (generate : Reply (List (Option RemotePreKey))) (mark : Reply Unit) :
    Go.Upholds InOrder InOrder (genOnePreKey generate mark) fun _ => InOrder := by
  have hgenerate := remoteCall_upholds (e := .generate) generate (P := fun _ => True) fun _ => rfl
  refine Upholds.bind (hgenerate.conseq (fun w h => ⟨h, trivial, trivial⟩) fun _ w h => h.1) fun generated => ?_
  split_ifs with hone
  · exact Upholds.throw _
  · cases hcopy : copyRemotePreKeys generated [] [] with
    | error e => exact Upholds.throw _
    | ok copied =>
      obtain ⟨_ | ⟨pub, pubs⟩, _ | ⟨id, ids⟩⟩ := copied
      · exact Upholds.crash
      · exact Upholds.crash
      · exact Upholds.crash
      · obtain rfl : ids = [] := by
          have hlength : (id :: ids).length ≤ generated.length := by
            rw [copyRemotePreKeys_ids hcopy]
            exact length_filterMap_le _ _
          rw [not_not.1 hone] at hlength
          exact eq_nil_of_length_eq_zero (Nat.le_zero.1 (Nat.le_of_succ_le_succ hlength))
        intro w h
        dsimp only
        rw [get_bind]
        split_ifs with hid
        · exact h
        · rw [modify_bind]
          have hmark := remoteCall_upholds (e := .markUploaded [id]) mark (P := fun _ => True) fun _ => rfl
          refine (hmark.mapErr.bind (R := fun _ => InOrder) fun _ w h => h.1) _ ⟨h.handOut [id], ?_, trivial⟩
          exact h.linked.permits_markUploaded hid

theorem markPreKeysAsUploaded_upholds (upToID : ℕ) (ack : Reply Unit) :
    Go.Upholds InOrder InOrder (markPreKeysAsUploaded upToID ack) fun _ => InOrder := by
  intro w h
  unfold markPreKeysAsUploaded
  rw [modify_bind, get_bind]
  split_ifs with hlast
  · exact h.record rfl trivial ((h.linked.uploaded upToID).record _)
  · have hdue : InOrder { w.record (.uploaded upToID) with store := { w.store with awaitingACK := true } } :=
      h.record rfl trivial ((h.linked.due (not_not.1 hlast)).record _)
    exact (acknowledgeLocked_upholds ack).conseq (fun _ h => h) (fun _ _ h => h.1) _ ⟨hdue, rfl⟩

theorem inOrder_step (w : RemoteWorld) (op : RemoteStoreOp) (h : InOrder w) : InOrder (op.step w) := by
  cases op with
  | getOrGenPreKeys count ack prepare => exact (getOrGenPreKeys_upholds count ack prepare).inv (fun _ _ h => h) h
  | markPreKeysAsUploaded upToID ack => exact (markPreKeysAsUploaded_upholds upToID ack).inv (fun _ _ h => h) h
  | genOnePreKey generate mark => exact (genOnePreKey_upholds generate mark).inv (fun _ _ h => h) h
  | remoteWrites writes => exact h.write writes

/-- **The adapter acknowledges what it was given, and nothing else.** For every sequence of calls and every behaviour of the
remote store, each event of the history was permitted: an acknowledgement has the ID and all key IDs of the batch accepted
last, after `MarkPreKeysAsUploaded` was called with its last ID, and that batch was not acknowledged since it was accepted; no
batch is prepared while a failed acknowledgement has not succeeded; no ID of the held batch is marked as published. -/
theorem remote_calls_permitted (ops : List RemoteStoreOp) :
    Throughout UploadAuthority.observe UploadAuthority.Permits .start (run RemoteStoreOp.step .start ops).history := by
  have h : InOrder (run RemoteStoreOp.step .start ops) := run_inv_all inOrder_step inOrder_start ops
  exact h.permitted

/-- the one key of the batch below -/
def oneKey : RemotePreKey := ⟨some (Vector.replicate 32 1), none, none, 7⟩

/-- a batch with one key -/
def oneKeyBatch : RemotePreKeyUploadBatch := ⟨List.replicate 32 0x61, [some oneKey]⟩

/-- the batch is prepared, uploaded and acknowledged -/
def uploadOneKey : List RemoteStoreOp :=
  [.getOrGenPreKeys 50 ⟨[], .ok ()⟩ ⟨[], .ok (some oneKeyBatch)⟩, .markPreKeysAsUploaded 7 ⟨[], .ok ()⟩]

/-- a remote store that prepares a batch again after it was acknowledged gets a second acknowledgement for it -/
theorem prepared_again_acknowledged_again :
    (run RemoteStoreOp.step .start (uploadOneKey ++ uploadOneKey)).history =
      [.prepare 50, .accepted oneKeyBatch, .uploaded 7, .acknowledge oneKeyBatch.batchID [7] true,
        .prepare 50, .accepted oneKeyBatch, .uploaded 7, .acknowledge oneKeyBatch.batchID [7] true] := by
  decide

end Hypermeow.Client
