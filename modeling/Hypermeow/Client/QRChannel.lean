/-
The QR channel: goroutines that send on one channel and close it (`qrchan.go`, `dispatchEvent` of `client.go`).

`emitQRs` runs once for each QR event and sends one code after the other. `handleEvent` is called by the goroutines that
dispatch events, several at once. The flag `closed` decides who closes the output: whoever sets it sends the last item, if
there is one, and closes the channel. All others look at the flag first and then send, or close `stopQRs`, without it.

Model: a state machine; the scheduler chooses the steps. A goroutine takes one step for each access to the flag and to a
channel; what `emitQRs` does between taking the mutex and its send is one step, since only holders of the mutex see it. A
`select` takes any case that is ready. When timeouts pass, when the context ends, when a disconnect is expected, what sending
the confirmation of a passkey returns and when the reader reads are choices of the scheduler. A send on a closed channel and a
second close panic: the model notes the breach and ends the goroutine (`dispatchEvent` recovers, `emitQRs` does not).

Results:
- `Ordered`: what the flags say about the goroutines in each phase. `Ordered.enter` to `Ordered.close` are the ways in which
  a goroutine changes its phase, each with what it needs.
-/
import Hypermeow.Lib.Decimal
import Hypermeow.Lib.Runs

namespace Hypermeow.Client.QRChannel

open Lib List

/-! ## Items and events -/

inductive Item where
  | code (code : Bytes) (timeout : ℕ)
  | error (message : Bytes)
  | passkeyRequest (request : Bytes)
  | passkeyConfirmation (confirmation : Bytes)
  | success
  | timeout
  | unexpectedEvent
  | clientOutdated
  | scannedWithoutMultidevice
deriving DecidableEq, Repr

inductive Event where
  | qr (codes : List Bytes)
  | rotateADVSecret (newSecret : Bytes)
  | qrScannedWithoutMultidevice
  | pairPasskeyRequest (request : Bytes)
  | pairPasskeyConfirmation (skipHandoffUX : Bool) (confirmation : Bytes)
  | pairPasskeyError (message : Bytes)
  | clientOutdated
  | pairSuccess
  | pairError (message : Bytes)
  | disconnected
  | connected
  | connectFailure
  | loggedOut
  | temporaryBan
  | other
deriving DecidableEq, Repr

/-- the item with which an event ends the channel -/
def Event.outputType : Event → Option Item
  | .clientOutdated => some .clientOutdated
  | .pairSuccess => some .success
  | .pairError message => some (.error message)
  | .disconnected => some .timeout
  | .connected => some .unexpectedEvent
  | .connectFailure => some .unexpectedEvent
  | .loggedOut => some .unexpectedEvent
  | .temporaryBan => some .unexpectedEvent
  | _ => none

/-- `strings.SplitN` at a comma -/
def splitN : ℕ → Bytes → List Bytes
  | 0, _ => []
  | 1, text => [text]
  | n + 2, text =>
    match text.dropWhile (· ≠ 44) with
    | [] => [text]
    | _ :: rest => text.takeWhile (· ≠ 44) :: splitN (n + 1) rest

/-- the code with another secret -/
def rotateCode (newSecret code : Bytes) : Bytes :=
  if (splitN 5 code).length = 5 then [44].intercalate ((splitN 5 code).set 3 newSecret) else code

/-! ## Goroutines -/

inductive Thread where
  | done
  /-- `handleEvent`, before it looks at `closed` -/
  | checking (evt : Event)
  /-- before the mutex -/
  | rotating (newSecret : Bytes)
  /-- in `SendPasskeyConfirmation` -/
  | confirming
  /-- before `output <- item` -/
  | sending (item : Item)
  /-- before `close(stopQRs)` -/
  | stopping (item : Item)
  /-- before `close()` -/
  | ending (item : Item)
  /-- `emitQRs`, at the top of its loop -/
  | looping (codes : List Bytes)
  /-- has looked at `closed`, before the mutex -/
  | locking (code : Bytes) (codes : List Bytes)
  /-- with the mutex, before the send -/
  | emitting (code : Bytes) (codes : List Bytes) (timeout : ℕ)
  /-- the output did not accept the code, before `close()` -/
  | refused
  | waiting (code : Bytes) (codes : List Bytes)
  /-- the context is done, before `close()` -/
  | cancelled (codes : List Bytes)
  /-- has set `closed`, before the last item is sent -/
  | finishing (item : Item)
  /-- has set `closed`, before `close(output)`; `emitQRs` goes on with its loop when the context is done -/
  | closing (codes : Option (List Bytes))
deriving DecidableEq, Repr

inductive Breach where
  | sendOnClosedOutput
  | outputClosedTwice
  | stopClosedTwice
  | sendAfterTerminal
deriving DecidableEq, Repr

structure State where
  closed : Bool
  /-- what is in the output channel -/
  output : List Item
  outputClosed : Bool
  stopClosed : Bool
  rotateAdv : Bool
  /-- the new secret -/
  pendingRotation : Option Bytes
  locked : Bool
  expectedDisconnect : Bool
  ctxDone : Bool
  /-- a terminal item was sent -/
  terminated : Bool
  breaches : List Breach
  threads : List Thread
deriving DecidableEq, Repr

/-- the choices of a `select` and of the surroundings -/
inductive Pick where
  | timeout
  | stopQRs
  | expectedDisconnect
  | rotateAdv
  | ctxDone
  | confirmationFails (message : Bytes)
deriving DecidableEq, Repr

inductive Step where
  /-- `dispatchEvent` calls `handleEvent` -/
  | dispatch (evt : Event)
  | act (i : ℕ) (pick : Pick)
  /-- the reader takes an item -/
  | read
  | cancel
  | expectDisconnect (expected : Bool)
deriving DecidableEq, Repr

namespace State

variable (s : State)

def setThread (i : ℕ) (t : Thread) : State := { s with threads := s.threads.set i t }

def spawn (t : Thread) : State := { s with threads := s.threads ++ [t] }

/-- the goroutine panics -/
def breach (i : ℕ) (b : Breach) : State := { s with breaches := b :: s.breaches }.setThread i .done

/-- the size of the channel -/
def outputSize : ℕ := 8

/-- `output <- item`; in a full channel the goroutine waits -/
def send (i : ℕ) (item : Item) (terminal : Bool) (next : Thread) : State :=
  if s.outputClosed then s.breach i .sendOnClosedOutput
  else if s.output.length < outputSize then
    { s with
      output := s.output ++ [item]
      terminated := s.terminated || terminal
      breaches := if s.terminated then .sendAfterTerminal :: s.breaches else s.breaches }.setThread i next
  else s

/-- `close()`: was the flag set by this call? -/
def close (i : ℕ) (won lost : Thread) : State :=
  if s.closed then s.setThread i lost else { s with closed := true }.setThread i won

/-- the cases of `handleEvent` -/
def handleEvent (i : ℕ) : Event → State
  | .qr codes => (s.setThread i .done).spawn (.looping codes)
  | .rotateADVSecret newSecret => s.setThread i (.rotating newSecret)
  | .qrScannedWithoutMultidevice => s.setThread i (.sending .scannedWithoutMultidevice)
  | .pairPasskeyRequest request => s.setThread i (.sending (.passkeyRequest request))
  | .pairPasskeyConfirmation skipHandoffUX confirmation =>
    s.setThread i (if skipHandoffUX then .confirming else .sending (.passkeyConfirmation confirmation))
  | .pairPasskeyError message => s.setThread i (.sending (.error message))
  | evt =>
    match evt.outputType with
    | some item => s.setThread i (.stopping item)
    | none => s.setThread i .done

/-- what `emitQRs` does with the mutex before its send: the codes get the new secret -/
def lockAndRotate (i : ℕ) (code : Bytes) (codes : List Bytes) : State :=
  { s with locked := true, pendingRotation := none, rotateAdv := false }.setThread i
    (.emitting (s.pendingRotation.elim code fun newSecret => rotateCode newSecret code)
      (s.pendingRotation.elim codes fun newSecret => codes.map (rotateCode newSecret))
      (if (code :: codes).length = 6 then 60 else 20))

/-- the next step of a goroutine -/
def act (i : ℕ) (pick : Pick) : Thread → State
  | .done => s
  | .checking evt => if s.closed then s.setThread i .done else s.handleEvent i evt
  | .rotating newSecret =>
    if s.locked then s else { s with pendingRotation := some newSecret, rotateAdv := true }.setThread i .done
  | .confirming =>
    match pick with
    | .confirmationFails message => s.setThread i (.sending (.error message))
    | _ => s.setThread i .done
  | .sending item => s.send i item false .done
  | .stopping item =>
    if s.stopClosed then s.breach i .stopClosedTwice
    else { s with stopClosed := true }.setThread i (.ending item)
  | .ending item => s.close i (.finishing item) .done
  | .looping [] => s.close i (.finishing .timeout) .done
  | .looping (code :: codes) => s.setThread i (if s.closed then .done else .locking code codes)
  | .locking code codes => if s.locked then s else s.lockAndRotate i code codes
  | .emitting code codes timeout =>
    if s.outputClosed = false ∧ outputSize ≤ s.output.length then { s with locked := false }.setThread i .refused
    else { s with locked := false }.send i (.code code timeout) false (.waiting code codes)
  | .refused => s.close i (.closing none) .done
  | .waiting code codes =>
    match pick with
    | .timeout => s.setThread i (.looping codes)
    | .stopQRs => if s.stopClosed then s.setThread i .done else s
    | .expectedDisconnect => if s.expectedDisconnect then s.setThread i .done else s
    | .rotateAdv => if s.rotateAdv then { s with rotateAdv := false }.setThread i (.looping (code :: codes)) else s
    | .ctxDone => if s.ctxDone then s.setThread i (.cancelled codes) else s
    | .confirmationFails _ => s
  | .cancelled codes => s.close i (.closing (some codes)) (.looping codes)
  | .finishing item => s.send i item true (.closing none)
  | .closing codes =>
    if s.outputClosed then s.breach i .outputClosedTwice
    else { s with outputClosed := true }.setThread i (codes.elim .done .looping)

def step : Step → State
  | .dispatch evt => s.spawn (.checking evt)
  | .act i pick => (s.threads[i]?).elim s (s.act i pick)
  | .read => { s with output := s.output.tail }
  | .cancel => { s with ctxDone := true }
  | .expectDisconnect expected => { s with expectedDisconnect := expected }

end State

def initial : State :=
  { closed := false, output := [], outputClosed := false, stopClosed := false, rotateAdv := false, pendingRotation := none,
    locked := false, expectedDisconnect := false, ctxDone := false, terminated := false, breaches := [], threads := [] }

/-! ## Phases -/

/-- how far a goroutine is on its way to a send or a close -/
inductive Phase where
  | idle
  /-- has looked at `closed` and will send -/
  | sending
  /-- will close `stopQRs` -/
  | stopping
  /-- has closed `stopQRs` and will call `close()` -/
  | ending
  /-- has set `closed` and will send the last item -/
  | finishing
  /-- has set `closed` and will close the output -/
  | closing
deriving DecidableEq, Repr

def Thread.phase : Thread → Phase
  | .sending _ => .sending
  | .confirming => .sending
  | .locking _ _ => .sending
  | .emitting _ _ _ => .sending
  | .stopping _ => .stopping
  | .ending _ => .ending
  | .finishing _ => .finishing
  | .closing _ => .closing
  | _ => .idle

/-- the goroutines in a phase -/
def State.count (s : State) (p : Phase) : ℕ := s.threads.countP fun t => t.phase = p

/-- does the next step of the goroutine call `close()`? -/
def Thread.callsClose : Thread → Bool
  | .ending _ => true
  | .looping codes => codes.isEmpty
  | .refused => true
  | .cancelled _ => true
  | _ => false

/-- is the goroutine about to look at `closed` for a terminal event? -/
def Thread.checksTerminal : Thread → Bool
  | .checking evt => evt.outputType.isSome
  | _ => false

/-- nobody sets `closed` while another goroutine is between its look at the flag and its send; no terminal event passes the
flag while another one is between the flag and `close()` -/
def Orderly (s : State) : Step → Prop
  | .act i _ => s.closed = false → ∀ t ∈ s.threads[i]?,
    (t.callsClose = true → s.count .sending = 0) ∧
    (t.checksTerminal = true → s.count .stopping = 0 ∧ s.count .ending = 0)
  | _ => True

instance (s : State) (a : Step) : Decidable (Orderly s a) := by
  cases a <;> unfold Orderly <;> infer_instance

/-! ## The protocol -/

/-- a goroutine goes from one phase to another -/
def Moves (n n' : Phase → ℕ) (a b : Phase) : Prop :=
  ∀ p, n' p + (if a = p then 1 else 0) = n p + if b = p then 1 else 0

/-- the phases other than `idle`, which nothing depends on -/
theorem Moves.counts {n n' : Phase → ℕ} {a b : Phase} (hm : Moves n n' a b) :
    n' .sending + (if a = .sending then 1 else 0) = n .sending + (if b = .sending then 1 else 0) ∧
    n' .stopping + (if a = .stopping then 1 else 0) = n .stopping + (if b = .stopping then 1 else 0) ∧
    n' .ending + (if a = .ending then 1 else 0) = n .ending + (if b = .ending then 1 else 0) ∧
    n' .finishing + (if a = .finishing then 1 else 0) = n .finishing + (if b = .finishing then 1 else 0) ∧
    n' .closing + (if a = .closing then 1 else 0) = n .closing + (if b = .closing then 1 else 0) :=
  ⟨hm .sending, hm .stopping, hm .ending, hm .finishing, hm .closing⟩

/-- what the flags say about the number of goroutines in each phase -/
@[mk_iff]
structure Ordered (closed outputClosed stopClosed terminated : Bool) (n : Phase → ℕ) : Prop where
  /-- nobody sends once the flag is set -/
  sending : closed.toNat = 1 → n .sending = 0
  /-- one terminal event at a time, and it finds `stopQRs` open -/
  stopping : n .stopping + n .ending ≤ 1 ∧ n .stopping + stopClosed.toNat ≤ 1
  stopClosed : stopClosed.toNat ≤ closed.toNat + n .ending
  /-- whoever has set the flag is the only one to close the output -/
  winner : n .finishing + n .closing + outputClosed.toNat ≤ closed.toNat
  terminated : terminated.toNat + n .finishing ≤ closed.toNat

namespace Ordered

variable {closed outputClosed stopClosed terminated : Bool} {n n' : Phase → ℕ}

section

variable (h : Ordered closed outputClosed stopClosed terminated n)
include h

/-- a goroutine comes, goes on or ends without a word -/
theorem congr (hn : ∀ p, p ≠ .idle → n' p = n p) : Ordered closed outputClosed stopClosed terminated n' := by
  have hs := hn .sending (by decide)
  have ht := hn .stopping (by decide)
  have he := hn .ending (by decide)
  have hf := hn .finishing (by decide)
  have hc := hn .closing (by decide)
  rw [ordered_iff] at h ⊢
  omega

theorem stay {a : Phase} (hm : Moves n n' a a) :
    Ordered closed outputClosed stopClosed terminated n' := h.congr fun p _ => Nat.add_right_cancel (hm p)

/-- a goroutine has looked at the flag and will send -/
theorem enter (hopen : closed = false)
    (hm : Moves n n' .idle .sending) : Ordered closed outputClosed stopClosed terminated n' := by
  have hcounts := hm.counts
  simp only [reduceCtorEq, if_true, if_false] at hcounts
  rw [← Bool.toNat_eq_zero] at hopen
  rw [ordered_iff] at h ⊢
  omega

/-- a goroutine has sent, or will not -/
theorem leave (hm : Moves n n' .sending .idle) : Ordered closed outputClosed stopClosed terminated n' := by
  have hcounts := hm.counts
  simp only [reduceCtorEq, if_true, if_false] at hcounts
  rw [ordered_iff] at h ⊢
  omega

/-- while a goroutine will send, the output is open and the last item is not sent -/
theorem of_sending (hpos : 0 < n .sending) : outputClosed = false ∧ terminated = false := by
  obtain ⟨h₁, -, -, h₅, h₆⟩ := h
  have hle := closed.toNat_le
  rw [← Bool.toNat_eq_zero, ← Bool.toNat_eq_zero]
  omega

/-- a terminal event has passed the flag -/
theorem begin (hopen : closed = false)
    (hm : Moves n n' .idle .stopping) (hstopping : n .stopping = 0) (hending : n .ending = 0) :
    Ordered closed outputClosed stopClosed terminated n' := by
  have hcounts := hm.counts
  simp only [reduceCtorEq, if_true, if_false] at hcounts
  rw [← Bool.toNat_eq_zero] at hopen
  rw [ordered_iff] at h ⊢
  omega

theorem of_stopping (hpos : 0 < n .stopping) : stopClosed = false := by
  have h₃ := h.stopping.2
  rw [← Bool.toNat_eq_zero]
  omega

/-- `stopQRs` is closed -/
theorem stop (hm : Moves n n' .stopping .ending) : Ordered closed outputClosed true terminated n' := by
  have hcounts := hm.counts
  simp only [reduceCtorEq, if_true, if_false] at hcounts
  have htrue := Bool.toNat_true
  rw [ordered_iff] at h ⊢
  omega

/-- the flag is set, and the output will be closed, perhaps after a last item -/
theorem win {a b : Phase} (hopen : closed = false)
    (hm : Moves n n' a b) (ha : a = .idle ∨ a = .ending) (hb : b = .finishing ∨ b = .closing)
    (hsending : n .sending = 0) : Ordered true outputClosed stopClosed terminated n' := by
  have hcounts := hm.counts
  have htrue := Bool.toNat_true
  rw [← Bool.toNat_eq_zero] at hopen
  have hstop := stopClosed.toNat_le
  rw [ordered_iff] at h ⊢
  rcases ha with rfl | rfl <;> rcases hb with rfl | rfl <;>
    simp only [reduceCtorEq, if_true, if_false] at hcounts <;> omega

/-- the flag was set before -/
theorem lose (hset : closed = true)
    (hm : Moves n n' .ending .idle) : Ordered closed outputClosed stopClosed terminated n' := by
  have hcounts := hm.counts
  simp only [reduceCtorEq, if_true, if_false] at hcounts
  rw [← Bool.toNat_eq_one] at hset
  have hstop := stopClosed.toNat_le
  rw [ordered_iff] at h ⊢
  omega

/-- whoever will send the last item finds the output open, and has sent none before -/
theorem of_finishing (hpos : 0 < n .finishing) : outputClosed = false ∧ terminated = false := by
  obtain ⟨-, -, -, h₅, h₆⟩ := h
  have hle := closed.toNat_le
  rw [← Bool.toNat_eq_zero, ← Bool.toNat_eq_zero]
  omega

/-- the last item is sent -/
theorem last (hm : Moves n n' .finishing .closing) : Ordered closed outputClosed stopClosed true n' := by
  have hcounts := hm.counts
  simp only [reduceCtorEq, if_true, if_false] at hcounts
  have htrue := Bool.toNat_true
  have hle := closed.toNat_le
  rw [ordered_iff] at h ⊢
  omega

theorem of_closing (hpos : 0 < n .closing) : outputClosed = false := by
  have h₅ := h.winner
  have hle := closed.toNat_le
  rw [← Bool.toNat_eq_zero]
  omega

/-- the output is closed -/
theorem close (hm : Moves n n' .closing .idle) : Ordered closed true stopClosed terminated n' := by
  have hcounts := hm.counts
  simp only [reduceCtorEq, if_true, if_false] at hcounts
  have htrue := Bool.toNat_true
  have hle := closed.toNat_le
  rw [ordered_iff] at h ⊢
  omega

end

end Ordered

/-! ## The goroutines follow the protocol -/

variable {s : State} {i : ℕ} {t u : Thread}

/-- no breach, and the flags fit the goroutines -/
def Inv (s : State) : Prop :=
  s.breaches = [] ∧ Ordered s.closed s.outputClosed s.stopClosed s.terminated s.count

theorem inv_initial : Inv initial := by
  refine ⟨rfl, ?_, ⟨?_, ?_⟩, ?_, ?_, ?_⟩ <;> decide

theorem moves_setThread (hi : s.threads[i]? = some t) (u : Thread) :
    Moves s.count (s.setThread i u).count t.phase u.phase := by
  intro p
  obtain ⟨hlt, ht⟩ := List.getElem?_eq_some_iff.1 hi
  have hset := countP_set (p := fun t : Thread => decide (t.phase = p)) (a := u) hlt
  rw [ht] at hset
  simp only [decide_eq_true_eq] at hset
  change (s.threads.set i u).countP _ + _ = s.threads.countP _ + _
  rw [hset]
  split_ifs with h₁ h₂ h₂
  · have hpos : 0 < s.threads.countP fun t => decide (t.phase = p) :=
      countP_pos_iff.2 ⟨t, mem_of_getElem? hi, decide_eq_true h₁⟩
    omega
  · have hpos : 0 < s.threads.countP fun t => decide (t.phase = p) :=
      countP_pos_iff.2 ⟨t, mem_of_getElem? hi, decide_eq_true h₁⟩
    omega
  · omega
  · omega

theorem count_pos (hi : s.threads[i]? = some t) : 0 < s.count t.phase :=
  countP_pos_iff.2 ⟨t, mem_of_getElem? hi, decide_eq_true rfl⟩

theorem count_spawn (s : State) (t : Thread) {p : Phase} (hp : t.phase ≠ p) : (s.spawn t).count p = s.count p := by
  unfold State.spawn State.count
  rw [countP_append, countP_singleton]
  simp [hp]

theorem Inv.spawn (h : Inv s) (ht : t.phase = .idle) : Inv (s.spawn t) :=
  ⟨h.1, h.2.congr fun _ hp => count_spawn s t fun he => hp (he ▸ ht)⟩

/-- a step that leaves phase and flags alone -/
theorem Inv.stay (h : Inv s) (hi : s.threads[i]? = some t) (hu : u.phase = t.phase) : Inv (s.setThread i u) :=
  ⟨h.1, h.2.stay (hu ▸ moves_setThread hi u)⟩

theorem Inv.enter (h : Inv s) (hi : s.threads[i]? = some t) (hopen : s.closed = false) (ht : t.phase = .idle)
    (hu : u.phase = .sending) : Inv (s.setThread i u) := by
  have hm := moves_setThread hi u
  rw [ht, hu] at hm
  exact ⟨h.1, h.2.enter hopen hm⟩

theorem Inv.leave (h : Inv s) (hi : s.threads[i]? = some t) (ht : t.phase = .sending) (hu : u.phase = .idle) :
    Inv (s.setThread i u) := by
  have hm := moves_setThread hi u
  rw [ht, hu] at hm
  exact ⟨h.1, h.2.leave hm⟩

/-- a send on the open channel before the last item: it is sent, or the goroutine waits -/
theorem send_of_open (item : Item) (terminal : Bool) (hopen : s.outputClosed = false) (hnot : s.terminated = false) :
    s.send i item terminal u = s ∨
      s.send i item terminal u = { s with output := s.output ++ [item], terminated := terminal }.setThread i u := by
  by_cases hroom : s.output.length < State.outputSize
  · exact .inr (by simp [State.send, hopen, hnot, hroom])
  · exact .inl (by simp [State.send, hopen, hroom])

variable {item : Item}

section

variable (h : Inv s)
include h

/-- a code or another item that does not end the channel -/
theorem Inv.send (hi : s.threads[i]? = some t) (ht : t.phase = .sending) (hu : u.phase = .idle) :
    Inv (s.send i item false u) := by
  obtain ⟨hopen, hnot⟩ := h.2.of_sending (ht ▸ count_pos hi)
  have hleft := (h.leave hi ht hu).2
  rcases send_of_open item false hopen hnot with heq | heq
  · rw [heq]
    exact h
  · rw [heq]
    refine ⟨h.1, ?_⟩
    change Ordered s.closed s.outputClosed s.stopClosed s.terminated _ at hleft
    rw [hnot] at hleft
    exact hleft

/-- the last item -/
theorem Inv.sendLast (hi : s.threads[i]? = some t) (ht : t.phase = .finishing)
    (hu : u.phase = .closing) : Inv (s.send i item true u) := by
  obtain ⟨hopen, hnot⟩ := h.2.of_finishing (ht ▸ count_pos hi)
  have hm := moves_setThread hi u
  rw [ht, hu] at hm
  rcases send_of_open item true hopen hnot with heq | heq
  · rw [heq]
    exact h
  · rw [heq]
    exact ⟨h.1, h.2.last hm⟩

theorem Inv.close {won lost : Thread} (hi : s.threads[i]? = some t)
    (hsending : s.closed = false → s.count .sending = 0) (ht : t.phase = .idle ∨ t.phase = .ending)
    (hwon : won.phase = .finishing ∨ won.phase = .closing) (hlost : lost.phase = .idle) : Inv (s.close i won lost) := by
  unfold State.close
  split_ifs with hclosed
  · rcases ht with ht | ht
    · exact h.stay hi (hlost.trans ht.symm)
    · have hm := moves_setThread hi lost
      rw [ht, hlost] at hm
      exact ⟨h.1, h.2.lose hclosed hm⟩
  · have hopen := Bool.eq_false_of_not_eq_true hclosed
    exact ⟨h.1, h.2.win hopen (moves_setThread hi won) ht hwon (hsending hopen)⟩

theorem Inv.stop (hi : s.threads[i]? = some (.stopping item)) (pick : Pick) :
    Inv (s.act i pick (.stopping item)) := by
  have hopen := h.2.of_stopping (count_pos hi)
  have hstopped := h.2.stop (moves_setThread hi (.ending item))
  unfold State.act
  dsimp only
  rw [hopen]
  exact ⟨h.1, hstopped⟩

theorem Inv.closeOutput {codes : Option (List Bytes)} (hi : s.threads[i]? = some (.closing codes))
    (pick : Pick) : Inv (s.act i pick (.closing codes)) := by
  have hopen := h.2.of_closing (count_pos hi)
  have hidle : (codes.elim Thread.done .looping).phase = .idle := by cases codes <;> rfl
  have hm := moves_setThread hi (codes.elim .done .looping)
  rw [hidle] at hm
  unfold State.act
  dsimp only
  rw [hopen]
  exact ⟨h.1, h.2.close hm⟩

/-- a terminal event passes the flag while no other one is on its way -/
theorem Inv.begin (hi : s.threads[i]? = some t) (ht : t.phase = .idle)
    (hopen : s.closed = false) (hstopping : s.count .stopping = 0) (hending : s.count .ending = 0) :
    Inv (s.setThread i (.stopping item)) := by
  have hm := moves_setThread hi (.stopping item)
  rw [ht] at hm
  exact ⟨h.1, h.2.begin hopen hm hstopping hending⟩

theorem Inv.handleEvent {evt : Event} (hi : s.threads[i]? = some (.checking evt)) (hopen : s.closed = false)
    (hterminal : evt.outputType.isSome = true → s.count .stopping = 0 ∧ s.count .ending = 0) :
    Inv (s.handleEvent i evt) := by
  have hdone : Inv (s.setThread i .done) := h.stay hi rfl
  have hsend : ∀ item, Inv (s.setThread i (.sending item)) := fun item => h.enter hi hopen rfl rfl
  have hend : ∀ item, evt.outputType.isSome = true → Inv (s.setThread i (.stopping item)) := fun item hsome =>
    h.begin hi rfl hopen (hterminal hsome).1 (hterminal hsome).2
  cases evt with
  | qr codes => exact hdone.spawn rfl
  | rotateADVSecret newSecret => exact h.stay hi rfl
  | qrScannedWithoutMultidevice => exact hsend _
  | pairPasskeyRequest request => exact hsend _
  | pairPasskeyConfirmation skipHandoffUX confirmation =>
    cases skipHandoffUX with
    | true => exact h.enter hi hopen rfl rfl
    | false => exact hsend _
  | pairPasskeyError message => exact hsend _
  | other => exact hdone
  | clientOutdated => exact hend _ rfl
  | pairSuccess => exact hend _ rfl
  | pairError message => exact hend _ rfl
  | disconnected => exact hend _ rfl
  | connected => exact hend _ rfl
  | connectFailure => exact hend _ rfl
  | loggedOut => exact hend _ rfl
  | temporaryBan => exact hend _ rfl

theorem Inv.wait {code : Bytes} {codes : List Bytes} (hi : s.threads[i]? = some (.waiting code codes))
    (pick : Pick) : Inv (s.act i pick (.waiting code codes)) := by
  have hidle : ∀ u : Thread, u.phase = .idle → Inv (s.setThread i u) := fun u hu => h.stay hi hu
  unfold State.act
  cases pick with
  | timeout => exact hidle _ rfl
  | stopQRs =>
    dsimp only
    split_ifs
    · exact hidle _ rfl
    · exact h
  | expectedDisconnect =>
    dsimp only
    split_ifs
    · exact hidle _ rfl
    · exact h
  | rotateAdv =>
    dsimp only
    split_ifs
    · exact hidle (.looping (code :: codes)) rfl
    · exact h
  | ctxDone =>
    dsimp only
    split_ifs
    · exact hidle _ rfl
    · exact h
  | confirmationFails message => exact h

/-- one step of a goroutine -/
theorem Inv.act (hi : s.threads[i]? = some t)
    (hok : s.closed = false → (t.callsClose = true → s.count .sending = 0) ∧
      (t.checksTerminal = true → s.count .stopping = 0 ∧ s.count .ending = 0)) (pick : Pick) : Inv (s.act i pick t) := by
  cases t with
  | done => exact h
  | checking evt =>
    unfold State.act
    dsimp only
    split_ifs with hclosed
    · exact h.stay hi rfl
    · have hopen := Bool.eq_false_of_not_eq_true hclosed
      exact h.handleEvent hi hopen (hok hopen).2
  | rotating newSecret =>
    unfold State.act
    dsimp only
    split_ifs
    · exact h
    · exact h.stay hi (u := .done) rfl
  | confirming =>
    cases pick with
    | confirmationFails message => exact h.stay hi rfl
    | _ => exact h.leave hi rfl rfl
  | sending item => exact h.send hi rfl rfl
  | stopping item => exact h.stop hi pick
  | ending item => exact h.close hi (fun hopen => (hok hopen).1 rfl) (.inr rfl) (.inl rfl) rfl
  | looping codes =>
    cases codes with
    | nil => exact h.close hi (fun hopen => (hok hopen).1 rfl) (.inl rfl) (.inl rfl) rfl
    | cons code codes =>
      unfold State.act
      dsimp only
      split_ifs with hclosed
      · exact h.stay hi rfl
      · exact h.enter hi (Bool.eq_false_of_not_eq_true hclosed) rfl rfl
  | locking code codes =>
    unfold State.act
    dsimp only
    split_ifs
    · exact h
    · exact h.stay hi (u := .emitting _ _ _) rfl
  | emitting code codes timeout =>
    have hunlocked : Inv { s with locked := false } := h
    unfold State.act
    dsimp only
    split_ifs
    · exact hunlocked.leave hi rfl rfl
    · exact hunlocked.send hi rfl rfl
  | refused => exact h.close hi (fun hopen => (hok hopen).1 rfl) (.inl rfl) (.inr rfl) rfl
  | waiting code codes => exact h.wait hi pick
  | cancelled codes => exact h.close hi (fun hopen => (hok hopen).1 rfl) (.inl rfl) (.inr rfl) rfl
  | finishing item => exact h.sendLast hi rfl rfl
  | closing codes => exact h.closeOutput hi pick

theorem Inv.step {a : Step} (ha : Orderly s a) : Inv (s.step a) := by
  cases a with
  | dispatch evt => exact h.spawn rfl
  | act i pick =>
    unfold State.step
    dsimp only
    cases hi : s.threads[i]? with
    | none => exact h
    | some t => exact h.act hi (fun hopen => ha hopen t hi) pick
  | read => exact h
  | cancel => exact h
  | expectDisconnect expected => exact h

end

/-- **The QR channel is safe in orderly runs.** Any number of events and of goroutines, any schedule, any reader. No item is
sent on the closed output or after a terminal item, and neither channel is closed twice, as long as nobody sets `closed` while
another goroutine is between its look at the flag and its send, and no terminal event passes the flag while another one is
between the flag and `close()`. -/
theorem qr_channel_safe (steps : List Step) (hsteps : Along State.step Orderly initial steps) :
    (run State.step initial steps).breaches = [] :=
  (run_inv (fun _ _ ha h => h.step ha) inv_initial hsteps).1

/-! ## Examples -/

/-- a code, a passkey request and the end of the pairing, one after the other -/
theorem qr_channel_safe_pairing :
    (run State.step initial [.dispatch (.qr [ascii "1,2,3,4,5"]), .act 0 .timeout, .act 1 .timeout, .act 1 .timeout,
      .act 1 .timeout, .dispatch (.pairPasskeyRequest []), .act 2 .timeout, .act 2 .timeout, .dispatch .pairSuccess,
      .act 3 .timeout, .act 3 .timeout, .act 3 .timeout, .act 3 .timeout, .act 3 .timeout]).breaches = [] :=
  qr_channel_safe _ (by decide)

/-- **`stopQRs` is closed twice.** Two terminal events pass the flag before either of them sets it. -/
theorem stop_closed_twice :
    (run State.step initial [.dispatch .disconnected, .dispatch (.pairError []), .act 0 .timeout, .act 1 .timeout,
      .act 0 .timeout, .act 1 .timeout]).breaches = [.stopClosedTwice] := by
  decide

/-- **A code is sent on the closed output.** `emitQRs` has looked at the flag when a terminal event sets it and closes the
output. This panic is not recovered. -/
theorem sent_on_closed_output :
    (run State.step initial [.dispatch (.qr [ascii "1,2,3,4,5"]), .act 0 .timeout, .act 1 .timeout, .dispatch .disconnected,
      .act 2 .timeout, .act 2 .timeout, .act 2 .timeout, .act 2 .timeout, .act 2 .timeout, .act 1 .timeout,
      .act 1 .timeout]).breaches = [.sendOnClosedOutput] := by
  decide

/-- **An item is sent after the terminal one**, between the last item and the end of the channel -/
theorem sent_after_terminal :
    (run State.step initial [.dispatch (.pairPasskeyRequest []), .act 0 .timeout, .dispatch .disconnected, .act 1 .timeout,
      .act 1 .timeout, .act 1 .timeout, .act 1 .timeout, .act 0 .timeout]).breaches = [.sendAfterTerminal] := by
  decide

end Hypermeow.Client.QRChannel
