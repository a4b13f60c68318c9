/-
The handler queue of a connection (`enqueueNode` and `handlerQueueLoop` of `client.go`).

Incoming nodes are put on a channel. One goroutine takes them off and handles each in a goroutine of its own, for which it
waits, but only for ten ticks of a timer. When the context of the connection is cancelled it stops, waits for the handler
that is running, drains the channel, handling stream errors only, and closes the channel `closeWait` that a disconnect
waits for.

Model: a state machine in which a scheduler chooses every step: the receiving side puts a node (or drops it, when the
channel is full or the context done), the context is cancelled, a handler returns, the timer ticks, the loop goes on by
any case of a `select` that is ready. Nodes are numbered in the order in which they were put. `handleStreamError` is run by
the loop itself; it is among the running handlers from its start to its return.

Results:
- `queue_discipline`: for every schedule, in every state reached, the handlers were started in queue order and each node
  at most once; if no handler runs past the ten ticks, at most one runs at a time and `closeWait` is closed only when
  none does; it is closed once; every stream error that was in the queue at the cancellation was handled before; after
  the loop observed the cancellation only stream errors were started; and after a cancellation the loop can always come
  to its end.
-/
import Hypermeow.Lib.Runs

namespace Hypermeow.Client.HandlerQueue

open Lib List

/-! ## Model -/

/-- where the loop is; nodes by number -/
inductive Loop where
  /-- in the outer `select` -/
  | selecting
  /-- a node was received, the context not yet looked at -/
  | received (i : ℕ)
  /-- in the inner `select`, after some ticks -/
  | waiting (i ticks : ℕ)
  /-- the context was done in the middle of handling: waiting for the handler -/
  | awaiting (i : ℕ)
  /-- in `handleStreamError` -/
  | streamError (i : ℕ)
  /-- in the deferred loop -/
  | draining
  /-- `closeWait` is closed -/
  | closed
deriving DecidableEq, Repr

/-- has the loop seen that the context is done? -/
def Loop.observed : Loop → Bool
  | .selecting => false
  | .received _ => false
  | .waiting _ _ => false
  | _ => true

/-- the handler that the loop waits for -/
def Loop.current : Loop → Option ℕ
  | .waiting i _ => some i
  | .awaiting i => some i
  | .streamError i => some i
  | _ => none

structure State (ν : Type) where
  /-- all nodes that were put on the channel -/
  enqueued : List ν
  /-- how many of them were received -/
  taken : ℕ
  cancelled : Bool
  /-- the numbers of the nodes that were on the channel at the cancellation: from the first, before the second -/
  atCancel : ℕ × ℕ
  loop : Loop
  running : List ℕ
  /-- all handlers that were started, oldest first -/
  started : List ℕ
  /-- those that were started after the loop observed the cancellation -/
  startedLate : List ℕ
  /-- a handler was still running after ten ticks -/
  overran : Bool
  /-- how often `closeWait` was closed -/
  closes : ℕ
deriving DecidableEq, Repr

inductive Step (ν : Type) where
  /-- `enqueueNode`; `sent` is the choice of its `select` -/
  | enqueue (node : ν) (sent : Bool)
  | cancel
  /-- the loop receives a node -/
  | take
  /-- the loop receives from `connCtx.Done()` -/
  | seeDone
  /-- `connCtx.Err()` after a node was received -/
  | check
  | returns (i : ℕ)
  /-- the loop receives from `doneChan` -/
  | seeReturned
  | tick
  /-- the deferred loop finds the channel empty -/
  | drained
deriving DecidableEq, Repr

variable {ν : Type} (isStreamError : ν → Bool) (queueSize : ℕ)

def State.isError (s : State ν) (i : ℕ) : Bool := s.enqueued[i]?.any isStreamError

/-- a handler is started, with the loop going on at `loop` -/
def State.start (s : State ν) (i : ℕ) (loop : Loop) : State ν :=
  { s with
    loop := loop
    running := s.running ++ [i]
    started := s.started ++ [i]
    startedLate := if loop.observed then s.startedLate ++ [i] else s.startedLate }

/-- what is done with a node once the context is known to be done -/
def State.afterDone (s : State ν) (i : ℕ) : State ν :=
  if s.isError isStreamError i then s.start i (.streamError i) else { s with loop := .draining }

def step (s : State ν) : Step ν → State ν
  | .enqueue node sent =>
    if sent = true ∧ s.enqueued.length - s.taken < queueSize then { s with enqueued := s.enqueued ++ [node] } else s
  | .cancel => if s.cancelled then s else { s with cancelled := true, atCancel := (s.taken, s.enqueued.length) }
  | .take =>
    if s.taken < s.enqueued.length then
      match s.loop with
      | .selecting => { s with taken := s.taken + 1, loop := .received s.taken }
      | .draining => { s with taken := s.taken + 1 }.afterDone isStreamError s.taken
      | _ => s
    else s
  | .seeDone =>
    if s.cancelled then
      match s.loop with
      | .selecting => { s with loop := .draining }
      | .waiting i _ => { s with loop := .awaiting i }
      | _ => s
    else s
  | .check =>
    match s.loop with
    | .received i => if s.cancelled then s.afterDone isStreamError i else s.start i (.waiting i 0)
    | _ => s
  | .returns i =>
    if i ∈ s.running then
      { s with running := s.running.erase i, loop := if s.loop = .streamError i then .draining else s.loop }
    else s
  | .seeReturned =>
    match s.loop with
    | .waiting i _ => if i ∈ s.running then s else { s with loop := .selecting }
    | .awaiting i => if i ∈ s.running then s else { s with loop := .draining }
    | _ => s
  | .tick =>
    match s.loop with
    | .waiting i ticks =>
      if ticks + 1 < 10 then { s with loop := .waiting i (ticks + 1) }
      else { s with loop := .selecting, overran := s.overran || decide (i ∈ s.running) }
    | _ => s
  | .drained =>
    match s.loop with
    | .draining => if s.taken < s.enqueued.length then s else { s with loop := .closed, closes := s.closes + 1 }
    | _ => s

/-- the goroutine is started with an empty channel -/
def initial : State ν := ⟨[], 0, false, (0, 0), .selecting, [], [], [], false, 0⟩

/-! ## Invariant -/

variable {isStreamError queueSize} {s : State ν}

structure Inv (isStreamError : ν → Bool) (s : State ν) : Prop where
  taken_le : s.taken ≤ s.enqueued.length
  sorted : s.started.Pairwise (· < ·)
  before : ∀ i ∈ s.started, i < s.taken
  received : ∀ i, s.loop = .received i → i + 1 = s.taken ∧ i ∉ s.started
  running : ∀ i ∈ s.running, i ∈ s.started
  nodup : s.running.Nodup
  handling : ∀ i, s.loop = .streamError i → i ∈ s.running
  /-- without an overrun the loop waits for every handler that is running -/
  busy : s.overran = false → ∀ i ∈ s.running, s.loop.current = some i
  closes : s.closes = if s.loop = .closed then 1 else 0
  observed : s.loop.observed = true → s.cancelled = true
  atCancel : s.cancelled = true → s.atCancel.2 ≤ s.enqueued.length
  /-- a stream error that was received after the cancellation is handled, at the latest by the next check -/
  errors : s.cancelled = true → ∀ i, s.atCancel.1 ≤ i → i < s.atCancel.2 → i < s.taken →
    s.isError isStreamError i = true → i ∈ s.started ∨ s.loop = .received i
  drained : s.loop = .closed → s.atCancel.2 ≤ s.taken
  late : ∀ i ∈ s.startedLate, s.isError isStreamError i = true

theorem inv_initial : Inv isStreamError (initial : State ν) := by
  constructor <;> simp [initial, Loop.observed]

variable {i : ℕ}

/-- nodes keep their number -/
theorem isError_append {node : ν} (h : i < s.enqueued.length) :
    ({ s with enqueued := s.enqueued ++ [node] } : State ν).isError isStreamError i = s.isError isStreamError i := by
  simp [State.isError, getElem?_append_left h]

theorem isError_lt (h : s.isError isStreamError i = true) : i < s.enqueued.length := by
  by_contra hge
  rw [State.isError, getElem?_eq_none (by omega)] at h
  cases h

theorem Inv.enqueue (h : Inv isStreamError s) (node : ν) :
    Inv isStreamError { s with enqueued := s.enqueued ++ [node] } := by
  refine { h with taken_le := ?_, atCancel := ?_, errors := ?_, late := ?_ }
  · simpa using Nat.le_succ_of_le h.taken_le
  · intro hc
    simpa using Nat.le_succ_of_le (h.atCancel hc)
  · intro hc i h₁ h₂ h₃ he
    rw [isError_append (lt_of_lt_of_le h₂ (h.atCancel hc))] at he
    exact h.errors hc i h₁ h₂ h₃ he
  · intro i hi
    have he := h.late i hi
    rw [isError_append (isError_lt he)]
    exact he

theorem Inv.cancel (h : Inv isStreamError s) (hc : s.cancelled = false) :
    Inv isStreamError { s with cancelled := true, atCancel := (s.taken, s.enqueued.length) } := by
  refine { h with observed := fun _ => rfl, atCancel := fun _ => le_rfl, errors := ?_, drained := ?_ }
  · intro _ i h₁ _ h₃ _
    simp only at h₁ h₃
    omega
  · intro hl
    have := h.observed (by rw [hl]; rfl)
    rw [hc] at this
    cases this

variable {loop : Loop}

section

variable (h : Inv isStreamError s)
include h

/-- the loop moves on without starting anything; handlers may end -/
theorem Inv.move {running : List ℕ} (hsub : running.Sublist s.running) (hobs : loop.observed = true → s.cancelled = true)
    (hclosed : loop ≠ .closed) (hclosed' : s.loop ≠ .closed) (hrec : ∀ i, loop ≠ .received i)
    (hrec' : ∀ i, s.loop = .received i → s.isError isStreamError i = false)
    (herr : ∀ i, loop ≠ .streamError i) (hbusy : s.overran = false → ∀ i ∈ running, loop.current = some i) :
    Inv isStreamError { s with running := running, loop := loop } := by
  refine { h with
    received := fun i hi => absurd hi (hrec i), running := fun i hi => h.running i (hsub.subset hi)
    nodup := h.nodup.sublist hsub, handling := fun i hi => absurd hi (herr i), busy := hbusy, closes := ?_
    observed := hobs, errors := ?_, drained := fun hl => absurd hl hclosed }
  · have := h.closes
    rw [if_neg hclosed'] at this
    simp [this, hclosed]
  · intro hc i h₁ h₂ h₃ he
    rcases h.errors hc i h₁ h₂ h₃ he with h' | h'
    · exact .inl h'
    · have := hrec' i h'
      rw [State.isError] at this he
      rw [this] at he
      cases he

/-- a handler is started for the node `i` that was received last -/
theorem Inv.start (hi : i + 1 = s.taken) (hfresh : i ∉ s.started)
    (hidle : s.overran = false → s.running = []) (hcur : loop.current = some i)
    (hobs : loop.observed = true → s.cancelled = true ∧ s.isError isStreamError i = true)
    (hrec : ∀ j, s.cancelled = true → s.loop = .received j → j = i)
    (hclosed : s.loop ≠ .closed) : Inv isStreamError (s.start i loop) := by
  have hloop : loop ≠ .closed ∧ ∀ j, loop ≠ .received j := by
    constructor
    · rintro rfl
      cases hcur
    · rintro j rfl
      cases hcur
  have hlt : ∀ j ∈ s.started, j < i := by
    intro j hj
    have := h.before j hj
    rcases Nat.lt_or_eq_of_le (show j ≤ i by omega) with hlt | rfl
    · exact hlt
    · exact absurd hj hfresh
  have hnr : i ∉ s.running := fun hr => hfresh (h.running i hr)
  refine { h with
    sorted := ?_, before := ?_, received := fun j hj => absurd hj (hloop.2 j), running := ?_, nodup := ?_, handling := ?_
    busy := ?_, closes := ?_, observed := fun ho => (hobs ho).1, errors := ?_, drained := fun hl => absurd hl hloop.1
    late := ?_ }
  · simp only [State.start, pairwise_append, pairwise_singleton, mem_singleton, true_and]
    exact ⟨h.sorted, fun j hj k hk => hk ▸ hlt j hj⟩
  · intro j hj
    simp only [State.start, mem_append, mem_singleton] at hj ⊢
    rcases hj with hj | rfl
    · exact h.before j hj
    · omega
  · intro j hj
    simp only [State.start, mem_append] at hj ⊢
    exact hj.imp_left (h.running j)
  · simp only [State.start, nodup_append, nodup_singleton, mem_singleton, true_and]
    exact ⟨h.nodup, fun j hj k hk => by rintro rfl; exact hnr (hk ▸ hj)⟩
  · intro j hj
    have hj' : loop = .streamError j := hj
    rw [hj'] at hcur
    cases hcur
    simp [State.start]
  · intro ho j hj
    have hrun := hidle ho
    simp only [State.start, hrun, nil_append, mem_singleton] at hj ⊢
    rw [hj]
    exact hcur
  · have := h.closes
    rw [if_neg hclosed] at this
    simp [State.start, this, hloop.1]
  · intro hc j h₁ h₂ h₃ he
    rcases h.errors hc j h₁ h₂ h₃ he with h' | h'
    · exact .inl (mem_append_left _ h')
    · rw [hrec j hc h']
      exact .inl (mem_append_right _ (mem_singleton_self _))
  · intro j hj
    simp only [State.start] at hj
    split_ifs at hj with ho
    · rcases mem_append.1 hj with hj | hj
      · exact h.late j hj
      · rw [mem_singleton.1 hj]
        exact (hobs ho).2
    · exact h.late j hj

/-- where the loop waits for nothing, no handler runs without an overrun -/
theorem Inv.idle (hcur : s.loop.current = none) (ho : s.overran = false) : s.running = [] := by
  rw [eq_nil_iff_forall_not_mem]
  intro i hi
  have := h.busy ho i hi
  rw [hcur] at this
  cases this

/-- a node is received -/
theorem Inv.take (hlt : s.taken < s.enqueued.length) (hcur : s.loop.current = none)
    (hclosed : s.loop ≠ .closed) (hrec : ∀ i, s.loop ≠ .received i) :
    Inv isStreamError { s with taken := s.taken + 1, loop := .received s.taken } := by
  refine { h with
    taken_le := hlt, before := fun i hi => Nat.lt_succ_of_lt (h.before i hi), received := ?_, handling := ?_, busy := ?_
    closes := ?_, observed := ?_, errors := ?_, drained := ?_ }
  · intro i hi
    cases hi
    exact ⟨rfl, fun hm => lt_irrefl _ (h.before _ hm)⟩
  · intro i hi
    cases hi
  · intro ho i hi
    rw [show s.running = [] from h.idle hcur ho] at hi
    cases hi
  · have := h.closes
    rw [if_neg hclosed] at this
    simp [this]
  · intro ho
    cases ho
  · intro hc i h₁ h₂ h₃ he
    rcases Nat.lt_or_eq_of_le (Nat.le_of_lt_succ h₃) with hlt' | rfl
    · rcases h.errors hc i h₁ h₂ hlt' he with h' | h'
      · exact .inl h'
      · exact absurd h' (hrec i)
    · exact .inr rfl
  · intro hl
    cases hl

/-- what happens to a received node once the context is known to be done -/
theorem Inv.afterDone (hl : s.loop = .received i) (hc : s.cancelled = true) :
    Inv isStreamError (s.afterDone isStreamError i) := by
  have hcur : s.loop.current = none := by rw [hl]; rfl
  have hrec : ∀ j, s.loop = .received j → j = i := by
    intro j hj
    rw [hl] at hj
    cases hj
    rfl
  rw [State.afterDone]
  split_ifs with he
  · exact h.start (h.received i hl).1 (h.received i hl).2 (h.idle hcur) rfl (fun _ => ⟨hc, he⟩) (fun j _ => hrec j)
      (by rw [hl]; simp)
  · refine h.move (.refl _) (fun _ => hc) (by simp) (by rw [hl]; simp) (by simp) ?_ (by simp) ?_
    · intro j hj
      rw [hrec j hj]
      simpa using he
    · intro ho j hj
      rw [h.idle hcur ho] at hj
      cases hj

theorem Inv.returns (hi : i ∈ s.running) :
    Inv isStreamError
      { s with running := s.running.erase i, loop := if s.loop = .streamError i then .draining else s.loop } := by
  have hmem : ∀ j, j ∈ s.running.erase i ↔ j ≠ i ∧ j ∈ s.running := fun j => h.nodup.mem_erase_iff
  have hsub : ∀ j ∈ s.running.erase i, j ∈ s.running := fun j hj => ((hmem j).1 hj).2
  by_cases hl : s.loop = .streamError i
  · rw [if_pos hl]
    refine h.move erase_sublist (fun _ => h.observed (by rw [hl]; rfl)) (by simp) (by rw [hl]; simp) (by simp)
      (by rw [hl]; simp) (by simp) ?_
    intro ho j hj
    have hj' := (hmem j).1 hj
    have := h.busy ho j hj'.2
    rw [hl] at this
    cases this
    exact absurd rfl hj'.1
  · rw [if_neg hl]
    refine { h with
      running := fun j hj => h.running j (hsub j hj), nodup := h.nodup.erase i, handling := ?_
      busy := fun ho j hj => h.busy ho j (hsub j hj) }
    intro j hj
    refine (hmem j).2 ⟨?_, h.handling j hj⟩
    rintro rfl
    exact hl hj

/-- the loop goes on after the handler it waited for -/
theorem Inv.moveOn (hcur : s.loop.current = some i)
    (hgone : i ∉ s.running) (hclosed : s.loop ≠ .closed) (hrec : ∀ j, s.loop ≠ .received j)
    (hloop : loop = .selecting ∨ loop = .draining ∧ s.cancelled = true) : Inv isStreamError { s with loop := loop } := by
  have hbusy : s.overran = false → ∀ j ∈ s.running, loop.current = some j := by
    intro ho j hj
    have := h.busy ho j hj
    rw [hcur] at this
    cases this
    exact absurd hj hgone
  rcases hloop with rfl | ⟨rfl, hc⟩
  · exact h.move (.refl _) (fun ho => by cases ho) (by simp) hclosed (by simp) (fun j hj => absurd hj (hrec j)) (by simp) hbusy
  · exact h.move (.refl _) (fun _ => hc) (by simp) hclosed (by simp) (fun j hj => absurd hj (hrec j)) (by simp) hbusy

/-- after an overrun nothing is claimed about running handlers -/
theorem Inv.overrun (b : Bool) : Inv isStreamError { s with overran := s.overran || b } :=
  { h with busy := fun ho => h.busy (Bool.or_eq_false_iff.1 ho).1 }

/-- the drain ends when the channel is empty, so nothing that was on it at the cancellation is left -/
theorem Inv.close (hl : s.loop = .draining) (hempty : s.enqueued.length ≤ s.taken) :
    Inv isStreamError { s with loop := .closed, closes := s.closes + 1 } := by
  have hc := h.observed (by rw [hl]; rfl)
  refine { h with
    received := ?_, handling := ?_, busy := ?_, closes := ?_, observed := fun _ => hc, errors := ?_
    drained := fun _ => (h.atCancel hc).trans hempty }
  · intro i hi
    cases hi
  · intro i hi
    cases hi
  · intro ho i hi
    have := h.idle (by rw [hl]; rfl) ho
    simp only at hi
    rw [this] at hi
    cases hi
  · have := h.closes
    rw [if_neg (by rw [hl]; simp)] at this
    simp [this]
  · intro _ i h₁ h₂ h₃ he
    rcases h.errors hc i h₁ h₂ h₃ he with h' | h'
    · exact .inl h'
    · rw [hl] at h'
      cases h'

theorem Inv.keeps (a : Step ν) : Inv isStreamError (step isStreamError queueSize s a) := by
  cases a with
  | enqueue node sent =>
    rw [step]
    split_ifs
    · exact h.enqueue node
    · exact h
  | cancel =>
    rw [step]
    split_ifs with hc
    · exact h
    · exact h.cancel (by simpa using hc)
  | take =>
    simp only [step]
    split_ifs with hlt
    · cases hl : s.loop with
      | selecting => exact h.take hlt (by rw [hl]; rfl) (by rw [hl]; simp) (by rw [hl]; simp)
      | draining =>
        -- the drain receives a node and knows at once that the context is done
        have hr := h.take hlt (by rw [hl]; rfl) (by rw [hl]; simp) (by rw [hl]; simp)
        exact hr.afterDone rfl (h.observed (by rw [hl]; rfl))
      | _ => exact h
    · exact h
  | seeDone =>
    simp only [step]
    split_ifs with hc
    · cases hl : s.loop with
      | selecting =>
        refine h.move (.refl _) (fun _ => hc) (by simp) (by rw [hl]; simp) (by simp) (by rw [hl]; simp) (by simp) ?_
        intro ho i hi
        rw [h.idle (by rw [hl]; rfl) ho] at hi
        cases hi
      | waiting i ticks =>
        refine h.move (.refl _) (fun _ => hc) (by simp) (by rw [hl]; simp) (by simp) (by rw [hl]; simp) (by simp) ?_
        intro ho j hj
        have := h.busy ho j hj
        rw [hl] at this
        exact this
      | _ => exact h
    · exact h
  | check =>
    simp only [step]
    cases hl : s.loop with
    | received i =>
      simp only
      split_ifs with hc
      · exact h.afterDone hl hc
      · exact h.start (h.received i hl).1 (h.received i hl).2 (h.idle (by rw [hl]; rfl)) rfl (fun ho => by cases ho)
          (fun j hc' => absurd hc' hc) (by rw [hl]; simp)
    | _ => exact h
  | returns i =>
    rw [step]
    by_cases hi : i ∈ s.running
    · rw [if_pos hi]
      exact h.returns hi
    · rw [if_neg hi]
      exact h
  | seeReturned =>
    simp only [step]
    cases hl : s.loop with
    | waiting i ticks =>
      simp only
      split_ifs with hi
      · exact h
      · exact h.moveOn (by rw [hl]; rfl) hi (by rw [hl]; simp) (by rw [hl]; simp) (.inl rfl)
    | awaiting i =>
      simp only
      split_ifs with hi
      · exact h
      · exact h.moveOn (by rw [hl]; rfl) hi (by rw [hl]; simp) (by rw [hl]; simp)
          (.inr ⟨rfl, h.observed (by rw [hl]; rfl)⟩)
    | _ => exact h
  | tick =>
    simp only [step]
    cases hl : s.loop with
    | waiting i ticks =>
      simp only
      split_ifs with ht
      · refine h.move (.refl _) (fun ho => by cases ho) (by simp) (by rw [hl]; simp) (by simp) (by rw [hl]; simp)
          (by simp) ?_
        intro ho j hj
        have := h.busy ho j hj
        rw [hl] at this
        exact this
      · refine (h.overrun (decide (i ∈ s.running))).move (.refl _) (fun ho => by cases ho) (by simp) (by rw [hl]; simp)
          (by simp) (by rw [hl]; simp) (by simp) ?_
        intro ho j hj
        obtain ⟨ho₁, ho₂⟩ := Bool.or_eq_false_iff.1 ho
        have := h.busy ho₁ j hj
        rw [hl] at this
        cases this
        exact absurd hj (of_decide_eq_false ho₂)
    | _ => exact h
  | drained =>
    simp only [step]
    cases hl : s.loop with
    | draining =>
      simp only
      split_ifs with hlt
      · exact h
      · exact h.close hl (not_lt.1 hlt)
    | _ => exact h

end

/-! ## Coming to an end -/

/-- steps of the loop and of handlers -/
def Step.isOwn : Step ν → Bool
  | .enqueue _ _ => false
  | .cancel => false
  | _ => true

/-- a continuation with own steps only that ends with `closeWait` closed -/
def Closes (isStreamError : ν → Bool) (queueSize : ℕ) (s : State ν) : Prop :=
  ∃ as : List (Step ν), (∀ a ∈ as, a.isOwn = true) ∧ (run (step isStreamError queueSize) s as).loop = .closed

theorem Closes.of_step {a : Step ν} (ha : a.isOwn = true)
    (h : Closes isStreamError queueSize (step isStreamError queueSize s a)) : Closes isStreamError queueSize s := by
  obtain ⟨as, hown, hrun⟩ := h
  exact ⟨a :: as, by simpa [ha] using hown, hrun⟩

/-- a stream error that is being handled is followed by the rest of the drain -/
theorem closes_streamError (hi : i ∈ s.running) (hl : s.loop = .streamError i)
    (hrest : Closes isStreamError queueSize { s with running := s.running.erase i, loop := .draining }) :
    Closes isStreamError queueSize s := by
  refine Closes.of_step (a := .returns i) rfl ?_
  rw [step, if_pos hi, if_pos hl]
  exact hrest

theorem closes_draining (n : ℕ) (hn : s.enqueued.length - s.taken = n) (hl : s.loop = .draining) :
    Closes isStreamError queueSize s := by
  induction n generalizing s with
  | zero =>
    refine ⟨[.drained], by simp [Step.isOwn], ?_⟩
    simp only [run_cons, run_nil, step, hl]
    rw [if_neg (by omega)]
  | succ n ih =>
    refine Closes.of_step (a := .take) rfl ?_
    simp only [step, hl]
    rw [if_pos (by omega), State.afterDone]
    split_ifs
    · refine closes_streamError (i := s.taken) (by simp [State.start]) rfl (ih ?_ rfl)
      simp only [State.start]
      omega
    · exact ih (by simp only; omega) rfl

/-- once the context is cancelled nothing but a running handler keeps the loop from its end -/
theorem closes_of_cancelled (h : Inv isStreamError s) (hc : s.cancelled = true) : Closes isStreamError queueSize s := by
  have hdrain : ∀ t : State ν, t.loop = .draining → Closes isStreamError queueSize t :=
    fun t ht => closes_draining _ rfl ht
  have hawait : ∀ (t : State ν) (i : ℕ), t.loop = .awaiting i → t.running.Nodup → Closes isStreamError queueSize t := by
    intro t i ht hnd
    by_cases hi : i ∈ t.running
    · refine Closes.of_step (a := .returns i) rfl (Closes.of_step (a := .seeReturned) rfl (hdrain _ ?_))
      simp [step, hi, ht, hnd.mem_erase_iff]
    · refine Closes.of_step (a := .seeReturned) rfl (hdrain _ ?_)
      simp [step, hi, ht]
  cases hl : s.loop with
  | selecting =>
    refine Closes.of_step (a := .seeDone) rfl (hdrain _ ?_)
    simp [step, hc, hl]
  | received i =>
    refine Closes.of_step (a := .check) rfl ?_
    simp only [step, hl, hc, if_true]
    rw [State.afterDone]
    split_ifs
    · exact closes_streamError (i := i) (by simp [State.start]) rfl (hdrain _ rfl)
    · exact hdrain _ rfl
  | waiting i ticks =>
    refine Closes.of_step (a := .seeDone) rfl (hawait _ i ?_ ?_)
    · simp [step, hc, hl]
    · simpa [step, hc, hl] using h.nodup
  | awaiting i => exact hawait s i hl h.nodup
  | streamError i => exact closes_streamError (h.handling i hl) hl (hdrain _ rfl)
  | draining => exact hdrain s hl
  | closed => exact ⟨[], by simp, hl⟩

/-! ## Results -/

/-- what is claimed about the queue in a state -/
structure Discipline (isStreamError : ν → Bool) (queueSize : ℕ) (s : State ν) : Prop where
  /-- in queue order, and each node at most once -/
  order : s.started.Pairwise (· < ·) ∧ ∀ i ∈ s.started, i < s.enqueued.length
  /-- one handler at a time, unless one ran past the ticks -/
  serial : s.overran = false → s.running.length ≤ 1
  /-- `closeWait` is closed once, when the loop ends -/
  closedOnce : s.closes = if s.loop = .closed then 1 else 0
  /-- and then every handler has returned -/
  closedLast : s.overran = false → s.loop = .closed → s.running = []
  /-- and the stream errors that were on the channel at the cancellation were handled -/
  errors : s.loop = .closed → ∀ i, s.atCancel.1 ≤ i → i < s.atCancel.2 → s.isError isStreamError i = true →
    i ∈ s.started
  /-- nothing but stream errors once the loop observed the cancellation -/
  late : ∀ i ∈ s.startedLate, s.isError isStreamError i = true
  /-- after a cancellation the loop can come to its end by its own steps and those of handlers -/
  ends : s.cancelled = true → Closes isStreamError queueSize s

theorem Inv.discipline (h : Inv isStreamError s) : Discipline isStreamError queueSize s where
  order := ⟨h.sorted, fun i hi => (h.before i hi).trans_le h.taken_le⟩
  serial := by
    intro ho
    rcases hr : s.running with _ | ⟨i, _ | ⟨j, rest⟩⟩
    · simp
    · simp
    · have hi := h.busy ho i (by simp [hr])
      have hj := h.busy ho j (by simp [hr])
      have hnd := h.nodup
      rw [hi] at hj
      cases hj
      simp [hr] at hnd
  closedOnce := h.closes
  closedLast := fun ho hl => h.idle (by rw [hl]; rfl) ho
  errors := by
    intro hl i h₁ h₂ he
    have hc := h.observed (by rw [hl]; rfl)
    rcases h.errors hc i h₁ h₂ (lt_of_lt_of_le h₂ (h.drained hl)) he with h' | h'
    · exact h'
    · rw [hl] at h'
      cases h'
  late := h.late
  ends := closes_of_cancelled h

/-- **Handler queue discipline.** For every sequence of nodes, every moment of cancellation and every schedule of the loop,
its `select`s, the handlers and the timer, the queue is handled as it should be in every state that is reached. -/
theorem queue_discipline (isStreamError : ν → Bool) (queueSize : ℕ) (as : List (Step ν)) (n : ℕ) :
    Discipline isStreamError queueSize (run (step isStreamError queueSize) initial (as.take n)) := by
  have hinv : Inv isStreamError (run (step isStreamError queueSize) initial (as.take n)) :=
    run_inv_all (fun _ a h => h.keeps a) inv_initial (as.take n)
  exact hinv.discipline

end Hypermeow.Client.HandlerQueue
