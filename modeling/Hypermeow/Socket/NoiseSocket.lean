/-
The encrypted frame stream over a frame socket (`socket/noisesocket.go`): which counter seals the frame that goes out
k-th.

`SendFrame` holds `writeLock` while it seals the plaintext with the write counter and increments the counter. The write
itself runs in a goroutine of its own, and `SendFrame` waits for that goroutine or for its context, whichever comes
first. The lock is released on return, so after a cancelled wait the goroutine goes on without it. The receiver opens the
k-th frame with counter k.

Model: a scheduler picks the next action. `call` starts a `SendFrame`, `enter` is its critical section (context check,
seal, counter, spawn), `write` is one goroutine's `FrameSocket.SendFrame`, `returnDone` and `returnCancelled` are the
two branches of the select, `cancel` ends a call's context at any moment. A websocket write is one message; when it fails
the connection is gone (`writeFails`), as it is after `disconnect`. Counters are `uint32` and wrap. Each frame on the
wire carries the counter and the plaintext it was sealed with, as ghost data.
-/
import Hypermeow.Lib.Runs
import Hypermeow.Socket.FrameSocket

namespace Hypermeow.Socket

open Lib Go List Option

/-- the authenticated cipher of one direction; the key is fixed -/
structure AEAD where
  sealWith : Bytes → Bytes → Bytes
  openWith : Bytes → Bytes → Option Bytes
  /-- `Open` undoes `Seal` under the same nonce -/
  open_seal : ∀ iv p, openWith iv (sealWith iv p) = some p

/-- twelve bytes, the counter in the last four -/
def generateIV (count : UInt32) : Bytes := List.replicate 8 0 ++ beBytes 4 count.toNat

/-- where a `SendFrame` call is -/
inductive Phase where
  | waiting
  | selecting
  | returned
deriving DecidableEq, Repr

structure Call where
  plaintext : Bytes
  /-- `ctx.Err() != nil` -/
  cancelled : Bool
  phase : Phase
deriving DecidableEq, Repr

/-- a sealed frame: in a write goroutine, then on the wire -/
structure Sealed where
  call : ℕ
  counter : UInt32
  plaintext : Bytes
  ciphertext : Bytes
deriving DecidableEq, Repr

structure NoiseSocket where
  fs : FrameSocket
  writeCounter : UInt32
  /-- the call that holds `writeLock` -/
  writeLock : Option ℕ
  calls : List Call
  /-- write goroutines that have not run `FrameSocket.SendFrame` yet -/
  writers : List Sealed
  /-- calls whose `doneChan` has a result -/
  done : List ℕ
  /-- the encrypted frames written to the connection, in order -/
  wire : List Sealed
deriving DecidableEq, Repr

inductive NoiseOp where
  | call (plaintext : Bytes)
  | cancel (i : ℕ)
  | enter (i : ℕ)
  | write (j : ℕ)
  | writeFails (j : ℕ)
  | returnDone (i : ℕ)
  | returnCancelled (i : ℕ)
  | disconnect
deriving DecidableEq, Repr

/-- a noise socket right after the handshake: the frame socket has sent its header -/
def newNoiseSocket : NoiseSocket := ⟨{ newFrameSocket with header := none }, 0, none, [], [], [], []⟩

def setPhase (calls : List Call) (i : ℕ) (p : Phase) : List Call := calls.modify i fun c => { c with phase := p }

/-- the frame call `i` seals when it enters: its plaintext under the current counter -/
def sealFor (A : AEAD) (s : NoiseSocket) (i : ℕ) (plaintext : Bytes) : Sealed :=
  ⟨i, s.writeCounter, plaintext, A.sealWith (generateIV s.writeCounter) plaintext⟩

def noiseStep (A : AEAD) (s : NoiseSocket) : NoiseOp → NoiseSocket
  | .call p => { s with calls := s.calls ++ [⟨p, false, .waiting⟩] }
  | .cancel i => { s with calls := s.calls.modify i fun c => { c with cancelled := true } }
  | .enter i =>
    match s.calls[i]? with
    | some ⟨p, cancelled, .waiting⟩ =>
      if s.writeLock ≠ none then s
      else if cancelled then { s with calls := setPhase s.calls i .returned }
      else { s with
        writeLock := some i, writeCounter := s.writeCounter + 1, calls := setPhase s.calls i .selecting,
        writers := s.writers ++ [sealFor A s i p] }
    | _ => s
  | .write j =>
    match s.writers[j]? with
    | none => s
    | some w =>
      match sendFrame w.ciphertext s.fs with
      | (.ok _, fs) => { s with
        fs := fs, writers := s.writers.eraseIdx j, done := s.done ++ [w.call], wire := s.wire ++ [w] }
      | (_, fs) => { s with fs := fs, writers := s.writers.eraseIdx j, done := s.done ++ [w.call] }
  | .writeFails j =>
    match s.writers[j]? with
    | none => s
    | some w => { s with
      fs := { s.fs with conn := none }, writers := s.writers.eraseIdx j, done := s.done ++ [w.call] }
  | .returnDone i =>
    if s.writeLock = some i ∧ i ∈ s.done then { s with writeLock := none, calls := setPhase s.calls i .returned } else s
  | .returnCancelled i =>
    if s.writeLock = some i ∧ (s.calls[i]?.any (·.cancelled)) then
      { s with writeLock := none, calls := setPhase s.calls i .returned }
    else s
  | .disconnect => { s with fs := { s.fs with conn := none } }

/-! ## The receiver -/

structure NoiseReceiver where
  readCounter : UInt32
  /-- what `onFrame` was called with -/
  delivered : List Bytes
deriving DecidableEq, Repr

def receiveEncryptedFrame (A : AEAD) (r : NoiseReceiver) (ciphertext : Bytes) : NoiseReceiver :=
  match A.openWith (generateIV r.readCounter) ciphertext with
  | none => { r with readCounter := r.readCounter + 1 }
  | some plaintext => ⟨r.readCounter + 1, r.delivered ++ [plaintext]⟩

def receiveAll (A : AEAD) (r : NoiseReceiver) (frames : List Bytes) : NoiseReceiver :=
  frames.foldl (receiveEncryptedFrame A) r

/-! ## The order of the counters -/

/-- the k-th frame on the wire is sealed with counter k (a `uint32`) -/
def CountersInOrder (wire : List Sealed) : Prop := ∀ k w, wire[k]? = some w → w.counter = UInt32.ofNat k

/-- every frame on the wire is its plaintext under its counter -/
def WellSealed (A : AEAD) (frames : List Sealed) : Prop :=
  ∀ w ∈ frames, w.ciphertext = A.sealWith (generateIV w.counter) w.plaintext

/-- the condition on a step: a frame is sealed only while no earlier write is pending, and fits the frame layer -/
def SealsAlone (A : AEAD) (s : NoiseSocket) : NoiseOp → Prop
  | .enter i => ∀ p, s.calls[i]? = some ⟨p, false, .waiting⟩ → s.writeLock = none →
      s.writers = [] ∧ (sealFor A s i p).ciphertext.length < frameMaxSize
  | _ => True

structure NoiseInv (A : AEAD) (s : NoiseSocket) : Prop where
  order : CountersInOrder s.wire
  sealed : WellSealed A (s.wire ++ s.writers)
  one : s.writers.length ≤ 1
  /-- while the connection lives, every counter below the current one is on the wire or in the one pending write -/
  count : s.fs.conn ≠ none → s.writeCounter = UInt32.ofNat (s.wire.length + s.writers.length)
  next : s.fs.conn ≠ none → ∀ w ∈ s.writers, w.counter = UInt32.ofNat s.wire.length
  fits : ∀ w ∈ s.writers, w.ciphertext.length < frameMaxSize

theorem noiseInv_init (A : AEAD) : NoiseInv A newNoiseSocket where
  order := by intro k w h; simp [newNoiseSocket] at h
  sealed := by intro w hw; simp [newNoiseSocket] at hw
  one := by simp [newNoiseSocket]
  count := by intro _; rfl
  next := by intro _ w hw; simp [newNoiseSocket] at hw
  fits := by intro w hw; simp [newNoiseSocket] at hw

/-- the invariant reads the wire, the pending writes, the counter and whether there is a connection, nothing else -/
theorem NoiseInv.congr {A : AEAD} {s t : NoiseSocket} (h : NoiseInv A s) (hw : t.wire = s.wire)
    (hp : t.writers = s.writers) (hc : t.writeCounter = s.writeCounter) (hn : t.fs.conn ≠ none → s.fs.conn ≠ none) :
    NoiseInv A t := by
  refine ⟨?_, ?_, ?_, fun hl => ?_, fun hl => ?_, ?_⟩
  · rw [hw]; exact h.order
  · rw [hw, hp]; exact h.sealed
  · rw [hp]; exact h.one
  · rw [hc, hw, hp]; exact h.count (hn hl)
  · rw [hw, hp]; exact h.next (hn hl)
  · rw [hp]; exact h.fits

/-- without a connection and a pending write only the wire counts -/
theorem NoiseInv.lost {A : AEAD} {s t : NoiseSocket} (h : NoiseInv A s) (hw : t.wire = s.wire) (hp : t.writers = [])
    (hn : t.fs.conn = none) : NoiseInv A t := by
  refine ⟨by rw [hw]; exact h.order, fun v hv => ?_, by simp [hp], fun hl => absurd hn hl, fun hl => absurd hn hl, by simp [hp]⟩
  rw [hw, hp, append_nil] at hv
  exact h.sealed v (mem_append_left _ hv)

theorem countersInOrder_snoc {wire : List Sealed} {w : Sealed} (h : CountersInOrder wire)
    (hw : w.counter = UInt32.ofNat wire.length) : CountersInOrder (wire ++ [w]) := by
  intro k v hk
  rcases Nat.lt_trichotomy k wire.length with hlt | heq | hgt
  · rw [getElem?_append_left hlt] at hk; exact h k v hk
  · subst heq
    simp only [getElem?_concat_length, some.injEq] at hk
    subst hk; exact hw
  · rw [getElem?_eq_none (by simp; omega)] at hk; cases hk

/-- the pending write, when there is one -/
theorem NoiseInv.writer_eq {A : AEAD} {s : NoiseSocket} (h : NoiseInv A s) {j : ℕ} {w : Sealed}
    (hj : s.writers[j]? = some w) : s.writers = [w] ∧ j = 0 := by
  obtain ⟨hlt, hget⟩ := List.getElem?_eq_some_iff.1 hj
  have hlen := h.one
  match hs : s.writers, hlt, hget with
  | [v], hlt, hget =>
    simp only [length_singleton, Nat.lt_one_iff] at hlt
    subst hlt
    simp only [getElem_cons_zero] at hget
    exact ⟨by rw [hget], rfl⟩
  | _ :: _ :: _, _, _ => rw [hs] at hlen; simp at hlen

theorem noiseStep_inv (A : AEAD) (s : NoiseSocket) (o : NoiseOp) (ho : SealsAlone A s o) (h : NoiseInv A s) :
    NoiseInv A (noiseStep A s o) := by
  cases o with
  | call p => exact h.congr rfl rfl rfl id
  | cancel i => exact h.congr rfl rfl rfl id
  | enter i =>
    simp only [noiseStep]
    split
    · rename_i p cancelled hi
      split_ifs with hl hc
      · exact h
      · exact h.congr rfl rfl rfl id
      · simp only [ne_eq, not_not] at hl
        simp only [Bool.not_eq_true] at hc
        subst hc
        obtain ⟨hempty, hfit⟩ := ho p hi hl
        refine ⟨h.order, ?_, ?_, fun hn => ?_, fun hn w hw => ?_, fun w hw => ?_⟩
        · intro w hw
          rw [← append_assoc] at hw
          rcases mem_append.1 hw with hw | hw
          · exact h.sealed w hw
          · simp only [mem_singleton] at hw; subst hw; rfl
        · simp [hempty]
        · have := h.count hn
          simp only [hempty, length_nil, Nat.add_zero] at this
          simp only [hempty, nil_append, length_singleton, this]
          simp
        · simp only [hempty, nil_append, mem_singleton] at hw
          subst hw
          have := h.count hn
          simpa [hempty, sealFor] using this
        · simp only [hempty, nil_append, mem_singleton] at hw
          subst hw; exact hfit
    · exact h
  | write j =>
    simp only [noiseStep]
    cases hj : s.writers[j]? with
    | none => exact h
    | some w =>
      obtain ⟨hone, rfl⟩ := h.writer_eq hj
      cases hconn : s.fs.conn with
      | none =>
        -- the connection is gone: the goroutine gets an error and the wire stays as it is
        obtain ⟨e, hrun⟩ : ∃ e, sendFrame w.ciphertext s.fs = (.err e, s.fs) := sendFrame_refused (.inl hconn)
        simp only [hrun]
        exact h.lost rfl (by simp [hone]) hconn
      | some written =>
        simp only [sendFrame_run hconn (h.fits w (by simp [hone]))]
        have hlive : s.fs.conn ≠ none := by simp [hconn]
        refine ⟨countersInOrder_snoc h.order (h.next hlive w (by simp [hone])), ?_, ?_, fun _ => ?_, ?_, ?_⟩
        · simpa [hone] using h.sealed
        · simp [hone]
        · simpa [hone] using h.count hlive
        · simp [hone]
        · simp [hone]
  | writeFails j =>
    simp only [noiseStep]
    cases hj : s.writers[j]? with
    | none => exact h
    | some w =>
      obtain ⟨hone, rfl⟩ := h.writer_eq hj
      exact h.lost rfl (by simp [hone]) rfl
  | returnDone i =>
    simp only [noiseStep]
    split_ifs
    · exact h.congr rfl rfl rfl id
    · exact h
  | returnCancelled i =>
    simp only [noiseStep]
    split_ifs
    · exact h.congr rfl rfl rfl id
    · exact h
  | disconnect => exact h.congr rfl rfl rfl (fun hn => absurd rfl hn)

/-! ## The receiver opens what is in order -/

theorem receiveAll_inOrder (A : AEAD) (wire : List Sealed) (n : ℕ) (r : NoiseReceiver)
    (hr : r.readCounter = UInt32.ofNat n) (ho : ∀ k w, wire[k]? = some w → w.counter = UInt32.ofNat (n + k))
    (hs : WellSealed A wire) :
    receiveAll A r (wire.map (·.ciphertext)) =
      ⟨UInt32.ofNat (n + wire.length), r.delivered ++ wire.map (·.plaintext)⟩ := by
  induction wire generalizing n r with
  | nil => cases r; simp_all [receiveAll]
  | cons w wire ih =>
    have hw : w.counter = UInt32.ofNat n := ho 0 w rfl
    have hopen : receiveEncryptedFrame A r w.ciphertext = ⟨UInt32.ofNat (n + 1), r.delivered ++ [w.plaintext]⟩ := by
      rw [receiveEncryptedFrame, hs w mem_cons_self, hw, hr, A.open_seal]
      simp
    have hrest := ih (n + 1) ⟨UInt32.ofNat (n + 1), r.delivered ++ [w.plaintext]⟩ rfl
      (fun k v hk => by rw [ho (k + 1) v hk]; congr 1; omega) (fun v hv => hs v (mem_cons_of_mem w hv))
    simp only [receiveAll, map_cons, foldl_cons, hopen] at hrest ⊢
    rw [hrest]
    simp [Nat.add_comm, Nat.add_left_comm]

/-! ## What the connection got -/

/-- the messages of the connection are the frames of the wire, length-prefixed -/
def WireWritten (s : NoiseSocket) : Prop :=
  s.fs.header = none ∧ ∀ written, s.fs.conn = some written → written = s.wire.map fun w => frameBytes w.ciphertext

theorem noiseStep_written (A : AEAD) (s : NoiseSocket) (o : NoiseOp) (h : WireWritten s) :
    WireWritten (noiseStep A s o) := by
  cases o with
  | enter i =>
    simp only [noiseStep]
    split
    · split_ifs <;> exact h
    · exact h
  | write j =>
    simp only [noiseStep]
    cases hj : s.writers[j]? with
    | none => exact h
    | some w =>
      by_cases hrefused : s.fs.conn = none ∨ frameMaxSize ≤ w.ciphertext.length
      · obtain ⟨e, hrun⟩ := sendFrame_refused hrefused
        simp only [hrun]
        exact h
      · obtain ⟨hconn, hfit⟩ := not_or.1 hrefused
        obtain ⟨written, hconn⟩ := Option.ne_none_iff_exists'.1 hconn
        simp only [sendFrame_run hconn (Nat.not_le.1 hfit)]
        refine ⟨rfl, fun out hout => ?_⟩
        simp only [some.injEq] at hout
        rw [← hout, h.2 written hconn, h.1, map_append, map_singleton]
        rfl
  | writeFails j =>
    simp only [noiseStep]
    split
    · exact h
    · exact ⟨h.1, by simp⟩
  | returnDone i => simp only [noiseStep]; split_ifs <;> exact h
  | returnCancelled i => simp only [noiseStep]; split_ifs <;> exact h
  | disconnect => exact ⟨h.1, by simp [noiseStep]⟩
  | _ => exact h

theorem run_written (A : AEAD) (ops : List NoiseOp) : WireWritten (run (noiseStep A) newNoiseSocket ops) := by
  have hal : ∀ s, Along (noiseStep A) (fun _ _ => True) s ops := by
    induction ops with
    | nil => exact fun _ => trivial
    | cons o ops ih => exact fun s => ⟨trivial, ih _⟩
  exact run_inv (fun s o _ => noiseStep_written A s o) ⟨rfl, by simp [newNoiseSocket, newFrameSocket]⟩ (hal _)

/-! ## Main results -/

/-- **Counters in order.** In every run whose frames are sealed only while no earlier write is pending and fit the frame
layer, and in every state on the way: what the connection got is the wire, its k-th frame is sealed with counter k, and
the receiver opens every frame. -/
theorem counters_in_order (A : AEAD) (ops : List NoiseOp)
    (hal : Along (noiseStep A) (SealsAlone A) newNoiseSocket ops) (n : ℕ) :
    let s := run (noiseStep A) newNoiseSocket (ops.take n)
    WireWritten s ∧ CountersInOrder s.wire ∧
      receiveAll A ⟨0, []⟩ (s.wire.map (·.ciphertext)) = ⟨UInt32.ofNat s.wire.length, s.wire.map (·.plaintext)⟩ := by
  intro s
  have hinv : NoiseInv A s := run_inv_take (noiseStep_inv A) (noiseInv_init A) hal n
  have hrecv := receiveAll_inOrder A s.wire 0 ⟨0, []⟩ rfl (fun k w hk => by rw [hinv.order k w hk, Nat.zero_add])
    (fun w hw => hinv.sealed w (mem_append_left _ hw))
  refine ⟨run_written A _, hinv.order, ?_⟩
  rw [hrecv]
  simp

/-- a cipher that puts the nonce in front and checks it -/
def nonceFirst : AEAD where
  sealWith iv p := iv ++ p
  openWith iv c := if iv.isPrefixOf c then some (c.drop iv.length) else none
  open_seal := by intro iv p; simp

/-- two sends, each written before it returns -/
theorem counters_in_order_two :
    let ops := [.call [1], .call [2], .enter 0, .write 0, .returnDone 0, .enter 1, .write 0, .returnDone 1]
    CountersInOrder (run (noiseStep nonceFirst) newNoiseSocket (ops.take 8)).wire ∧
      ((run (noiseStep nonceFirst) newNoiseSocket (ops.take 8)).wire.map (·.counter)) = [0, 1] := by
  intro ops
  have hal : Along (noiseStep nonceFirst) (SealsAlone nonceFirst) newNoiseSocket ops := by
    refine ⟨trivial, trivial, ?_, trivial, trivial, ?_, trivial, trivial, trivial⟩
    · intro p hp _
      have : p = [1] := by simpa [noiseStep, newNoiseSocket] using hp.symm
      subst this
      exact ⟨rfl, by decide⟩
    · intro p hp _
      have : (⟨[2], false, .waiting⟩ : Call) = ⟨p, false, .waiting⟩ := some.inj hp
      cases this
      exact ⟨rfl, by decide⟩
  exact ⟨(counters_in_order nonceFirst ops hal 8).2.1, by decide⟩

/-- **A frame is overtaken.** The first call seals with counter 0 and returns on its cancelled context while its write is
pending. The second call seals with counter 1 and its goroutine writes first. The receiver opens neither frame. -/
theorem overtaken_frame :
    let s := run (noiseStep nonceFirst) newNoiseSocket
      [.call [1], .call [2], .enter 0, .cancel 0, .returnCancelled 0, .enter 1, .write 1, .write 0]
    s.wire.map (·.counter) = [1, 0] ∧ ¬ CountersInOrder s.wire ∧
      (receiveAll nonceFirst ⟨0, []⟩ (s.wire.map (·.ciphertext))).delivered = [] := by
  refine ⟨by decide, fun h => ?_, by decide⟩
  exact absurd (h 0 ⟨1, 1, [2], generateIV 1 ++ [2]⟩ (by decide)) (by decide)

end Hypermeow.Socket
