/-
Disconnecting against reconnecting in the background (`unlockedConnect`, `onDisconnect`, `finishDisconnect`,
`autoReconnect`, `Disconnect` of `client.go`, `keepAliveLoop` of `keepalive.go`, the 515 stream error of
`connectionevents.go`).

`Disconnect` sets the event `expectedDisconnect`, which the background goroutines look at before they reconnect. A connect
clears the event. `autoReconnect` waits for the event or a timeout and then takes the socket lock to connect;
`keepAliveLoop` disconnects, clears the event without the lock and starts `autoReconnect`.

Model: a state machine; the scheduler chooses the steps of the application, of the connections and of the goroutines. What
is done under the socket lock is one step, except for `Disconnect`, which holds the lock while goroutines that do not need
it go on. A `select` may take any case that is ready: the wait of `autoReconnect` may end with its timeout although the
event was set, and a keepalive may time out although its connection was closed. Delays, contexts given by the application
and what a hook says are choices of the scheduler. `final` says that the application called `Disconnect`, that the call
returned and that since then neither it nor the restart of a 515 connected; `broken` that another goroutine opened a
socket while that was so.

Results:
- `disconnect_final`: no goroutine opens a socket after `Disconnect`, in every run in which a wait does not time out while
  a disconnect is expected, the keepalive of a closed connection does not time out, and `Disconnect` does not return
  while the event was cleared again or a goroutine is already on its way to connect.
-/
import Hypermeow.Lib.Runs

namespace Hypermeow.Client.Disconnect

open Lib List

/-! ## Model -/

/-- `autoReconnect` -/
inductive Reconnecting where
  | waiting
  /-- past the wait, before or at the socket lock -/
  | connecting
  /-- connecting failed -/
  | failed
deriving DecidableEq, Repr

/-- `keepAliveLoop` -/
inductive KeepingAlive where
  | idle
  /-- has decided to force a reconnect -/
  | givingUp
  /-- in `Disconnect`, with the lock -/
  | disconnecting
  /-- before `resetExpectedDisconnect` -/
  | resetting
  /-- before `go autoReconnect` -/
  | spawning
deriving DecidableEq, Repr

/-- the goroutine of a 515 stream error -/
inductive Restarting where
  | pending
  | disconnecting
  | connecting
deriving DecidableEq, Repr

inductive Thread where
  | autoReconnect (pc : Reconnecting)
  | keepAlive (conn : ℕ) (pc : KeepingAlive)
  | finishDisconnect (remote : Bool) (queueWait : Option ℕ)
  | restart (pc : Restarting)
  /-- `Disconnect` called by the application, with the lock -/
  | disconnect
deriving DecidableEq, Repr

structure State where
  /-- `expectedDisconnect` -/
  expected : Bool
  forceAutoReconnect : Bool
  /-- is the socket lock held across steps? -/
  locked : Bool
  /-- `cli.socket`; connections by number -/
  socket : Option ℕ
  /-- connections that are connected, whose context is not done -/
  alive : List ℕ
  handlerQueueWait : Option ℕ
  nextConn : ℕ
  threads : List Thread
  final : Bool
  broken : Bool
deriving DecidableEq, Repr

/-- what the environment says to a connect: the client may not connect, the dial fails, the socket opens and is closed
again because the handshake fails, or a socket opens -/
inductive Dial where
  | refused
  | failed
  | handshakeFailed
  | opened
deriving DecidableEq, Repr

inductive Step where
  /-- `ConnectContext`; `initial` is `InitialAutoReconnect` and a retryable error -/
  | connect (dial : Dial) (queueClosed initial : Bool)
  | disconnect (queueClosed : Bool)
  | disconnectReturns (i : ℕ)
  | resetConnection
  /-- `expectDisconnect` elsewhere -/
  | expectDisconnect
  /-- a connection is closed by the other side or by an error -/
  | connectionLost (k : ℕ)
  | onDisconnect (k : ℕ) (remote : Bool)
  /-- `finishDisconnect` after its wait; `ctxDone` when the wait ended with the context -/
  | finishDisconnect (i : ℕ) (ctxDone : Bool)
  /-- the wait of `autoReconnect` ends with the event or the context -/
  | waitCancelled (i : ℕ)
  | waitTimesOut (i : ℕ)
  | reconnect (i : ℕ) (dial : Dial) (queueClosed : Bool)
  /-- after an error; `hookStops` is the answer of `AutoReconnectHook` -/
  | retry (i : ℕ) (hookStops : Bool)
  /-- keepalives failed for too long -/
  | giveUp (i : ℕ)
  /-- the keepalive loop ends with the connection -/
  | keepAliveEnds (i : ℕ)
  | keepAliveDisconnects (i : ℕ) (queueClosed : Bool)
  | keepAliveDisconnected (i : ℕ)
  | keepAliveResets (i : ℕ)
  | keepAliveSpawns (i : ℕ)
  | streamError515
  | restartDisconnects (i : ℕ) (queueClosed : Bool)
  | restartDisconnected (i : ℕ)
  | restartConnects (i : ℕ) (dial : Dial) (queueClosed : Bool)
deriving DecidableEq, Repr

namespace State

variable (s : State)

def setThread (i : ℕ) (t : Thread) : State := { s with threads := s.threads.set i t }

def endThread (i : ℕ) : State := { s with threads := s.threads.eraseIdx i }

def spawn (t : Thread) : State := { s with threads := s.threads ++ [t] }

/-- `queueClosed` says whether the handler queue ended within the five seconds -/
def unlockedDisconnect (queueClosed : Bool) : State :=
  { s with
    socket := none
    alive := s.alive.filter fun k => some k ≠ s.socket
    handlerQueueWait := if queueClosed then none else s.handlerQueueWait }

def resetExpectedDisconnect : State := { s with expected := false, forceAutoReconnect := false }

/-- `expectDisconnect` and `unlockedDisconnect`, with the lock taken and kept -/
def lockAndDisconnect (queueClosed : Bool) : State :=
  { s with expected := true, forceAutoReconnect := false, locked := true }.unlockedDisconnect queueClosed

/-- a new socket with its keepalive loop -/
def openSocket : State :=
  { s with
    socket := some s.nextConn
    alive := s.nextConn :: s.alive
    handlerQueueWait := some s.nextConn
    nextConn := s.nextConn + 1 }.spawn (.keepAlive s.nextConn .idle)

/-- is the current socket connected? -/
def isConnected : Bool :=
  match s.socket with
  | some k => decide (k ∈ s.alive)
  | none => false

/-- `unlockedConnect`, the state it leaves -/
def unlockedConnect (dial : Dial) (queueClosed : Bool) : State :=
  if dial = .refused ∨ s.isConnected then s
  else
    let s := if s.socket ≠ none ∨ s.handlerQueueWait ≠ none then s.unlockedDisconnect queueClosed else s
    let s := s.resetExpectedDisconnect
    if dial = .opened then s.openSocket else s

/-- does it open a socket? -/
def opens (dial : Dial) : Bool := decide (dial = .opened ∨ dial = .handshakeFailed) && !s.isConnected

end State

/-- `autoReconnect` can be started: it is enabled and the client is paired -/
structure Config where
  autoReconnect : Bool
deriving DecidableEq, Repr

/-- `go cli.autoReconnect(ctx)` -/
def State.spawnReconnect (c : Config) (s : State) : State :=
  if c.autoReconnect then s.spawn (.autoReconnect .waiting) else s

def step (c : Config) (s : State) : Step → State
  | .connect dial queueClosed initial =>
    if s.locked then s
    else
      let t := { s with final := false }.unlockedConnect dial queueClosed
      if (dial = .failed ∨ dial = .handshakeFailed) ∧ s.isConnected = false ∧ initial = true then t.spawnReconnect c
      else t
  | .disconnect queueClosed => if s.locked then s else (s.lockAndDisconnect queueClosed).spawn .disconnect
  | .disconnectReturns i =>
    if s.threads[i]? = some .disconnect ∧ s.locked then { s with locked := false, final := true }.endThread i else s
  | .resetConnection =>
    if s.locked then s
    else { s with forceAutoReconnect := true, alive := s.alive.filter fun k => some k ≠ s.socket }
  | .expectDisconnect => { s with expected := true, forceAutoReconnect := false }
  | .connectionLost k => { s with alive := s.alive.filter fun j => j ≠ k }
  | .onDisconnect k remote =>
    if s.locked ∨ k ∈ s.alive then s
    else if s.socket = some k then { s with socket := none }.spawn (.finishDisconnect remote s.handlerQueueWait)
    else s
  | .finishDisconnect i ctxDone =>
    match s.threads[i]? with
    | some (.finishDisconnect remote queueWait) =>
      let t := s.endThread i
      if ctxDone then t
      else if s.locked then s
      else if s.socket ≠ none ∨ s.handlerQueueWait ≠ queueWait then t
      else if s.expected then t
      else if s.forceAutoReconnect || remote then { t with forceAutoReconnect := false }.spawnReconnect c
      else { t with forceAutoReconnect := false }
    | _ => s
  | .waitCancelled i => if s.threads[i]? = some (.autoReconnect .waiting) then s.endThread i else s
  | .waitTimesOut i =>
    if s.threads[i]? = some (.autoReconnect .waiting) then s.setThread i (.autoReconnect .connecting) else s
  | .reconnect i dial queueClosed =>
    if s.threads[i]? = some (.autoReconnect .connecting) ∧ s.locked = false then
      let t := { s with broken := s.broken || (s.opens dial && s.final) }
      -- it returns once there is a socket, also one that was connected before
      if dial = .opened ∨ dial ≠ .refused ∧ s.isConnected then (t.endThread i).unlockedConnect dial queueClosed
      else (t.setThread i (.autoReconnect .failed)).unlockedConnect dial queueClosed
    else s
  | .retry i hookStops =>
    if s.threads[i]? = some (.autoReconnect .failed) then
      if s.expected || hookStops then s.endThread i else s.setThread i (.autoReconnect .waiting)
    else s
  | .giveUp i =>
    match s.threads[i]? with
    | some (.keepAlive k .idle) => if c.autoReconnect then s.setThread i (.keepAlive k .givingUp) else s
    | _ => s
  | .keepAliveEnds i =>
    match s.threads[i]? with
    | some (.keepAlive k .idle) => if k ∈ s.alive then s else s.endThread i
    | _ => s
  | .keepAliveDisconnects i queueClosed =>
    match s.threads[i]? with
    | some (.keepAlive k .givingUp) =>
      if s.locked then s else (s.lockAndDisconnect queueClosed).setThread i (.keepAlive k .disconnecting)
    | _ => s
  | .keepAliveDisconnected i =>
    match s.threads[i]? with
    | some (.keepAlive k .disconnecting) => { s with locked := false }.setThread i (.keepAlive k .resetting)
    | _ => s
  | .keepAliveResets i =>
    match s.threads[i]? with
    | some (.keepAlive k .resetting) => s.resetExpectedDisconnect.setThread i (.keepAlive k .spawning)
    | _ => s
  | .keepAliveSpawns i =>
    match s.threads[i]? with
    | some (.keepAlive k .spawning) => (s.setThread i (.keepAlive k .idle)).spawnReconnect c
    | _ => s
  | .streamError515 => s.spawn (.restart .pending)
  | .restartDisconnects i queueClosed =>
    if s.threads[i]? = some (.restart .pending) ∧ s.locked = false then
      (s.lockAndDisconnect queueClosed).setThread i (.restart .disconnecting)
    else s
  | .restartDisconnected i =>
    if s.threads[i]? = some (.restart .disconnecting) then
      { s with locked := false }.setThread i (.restart .connecting)
    else s
  | .restartConnects i dial queueClosed =>
    if s.threads[i]? = some (.restart .connecting) ∧ s.locked = false then
      ({ s with final := false }.endThread i).unlockedConnect dial queueClosed
    else s

def initial : State := ⟨false, false, false, none, [], none, 0, [], false, false⟩

/-! ## The condition -/

/-- a goroutine that will connect, or start one that does, without looking at the event again -/
def Thread.committed : Thread → Bool
  | .autoReconnect pc => decide (pc = .connecting)
  | .keepAlive _ pc => decide (pc ≠ .idle)
  | _ => false

/-- a wait does not time out while a disconnect is expected; the keepalive of a closed connection does not time out;
`Disconnect` returns with the event set and no goroutine on its way to connect -/
def StepOk (s : State) : Step → Prop
  | .waitTimesOut _ => s.expected = false
  | .giveUp i => ∀ k pc, s.threads[i]? = some (.keepAlive k pc) → k ∈ s.alive
  | .disconnectReturns _ => s.expected = true ∧ ∀ t ∈ s.threads, t.committed = false
  | _ => True

/-! ## Invariant -/

variable {c : Config} {s : State}

structure Inv (s : State) : Prop where
  broken : s.broken = false
  /-- only the current socket is connected -/
  alive : ∀ k ∈ s.alive, s.socket = some k
  locked : s.locked = true → s.alive = []
  /-- after `Disconnect` the event stays set, nothing is on its way to connect and no connection is left -/
  final : s.final = true → s.expected = true ∧ (∀ t ∈ s.threads, t.committed = false) ∧ s.alive = []

theorem inv_initial : Inv initial := by
  constructor <;> simp [initial]

variable {i : ℕ} {t : Thread}

section

variable (h : Inv s)
include h

theorem Inv.not_final (hi : s.threads[i]? = some t) (hc : t.committed = true) : s.final = false := by
  rw [← Bool.not_eq_true]
  intro hf
  have := (h.final hf).2.1 t (mem_of_getElem? hi)
  rw [hc] at this
  cases this

/-- with a goroutine on its way to connect it is not after a `Disconnect` -/
theorem Inv.of_committed {p : Prop} (hi : s.threads[i]? = some t)
    (hc : t.committed = true) (hf : s.final = true) : p := by
  rw [h.not_final hi hc] at hf
  cases hf

theorem Inv.setThread (i : ℕ) (ht : s.final = true → t.committed = false) : Inv (s.setThread i t) := by
  refine ⟨h.broken, h.alive, h.locked, fun hf => ⟨(h.final hf).1, ?_, (h.final hf).2.2⟩⟩
  intro u hu
  rcases mem_or_eq_of_mem_set hu with hu | rfl
  · exact (h.final hf).2.1 u hu
  · exact ht hf

theorem Inv.endThread (i : ℕ) : Inv (s.endThread i) :=
  ⟨h.broken, h.alive, h.locked, fun hf =>
    ⟨(h.final hf).1, fun u hu => (h.final hf).2.1 u (mem_of_mem_eraseIdx hu), (h.final hf).2.2⟩⟩

theorem Inv.spawn (ht : s.final = true → t.committed = false) : Inv (s.spawn t) := by
  refine ⟨h.broken, h.alive, h.locked, fun hf => ⟨(h.final hf).1, ?_, (h.final hf).2.2⟩⟩
  intro u hu
  rcases mem_append.1 hu with hu | hu
  · exact (h.final hf).2.1 u hu
  · rw [mem_singleton.1 hu]
    exact ht hf

theorem Inv.spawnReconnect : Inv (s.spawnReconnect c) := by
  rw [State.spawnReconnect]
  split_ifs
  · exact h.spawn fun _ => rfl
  · exact h

/-- connections that are closed -/
theorem Inv.filter (p : ℕ → Bool) : Inv { s with alive := s.alive.filter p } := by
  refine ⟨h.broken, fun k hk => h.alive k (mem_of_mem_filter hk), fun hl => ?_, fun hf => ?_⟩
  · simp [h.locked hl]
  · obtain ⟨he, ht, ha⟩ := h.final hf
    exact ⟨he, ht, by simp [ha]⟩

theorem Inv.force (b : Bool) : Inv { s with forceAutoReconnect := b } :=
  ⟨h.broken, h.alive, h.locked, h.final⟩

theorem Inv.expect : Inv { s with expected := true, forceAutoReconnect := false } :=
  ⟨h.broken, h.alive, h.locked, fun hf => ⟨rfl, (h.final hf).2⟩⟩

theorem Inv.notFinal : Inv { s with final := false } :=
  ⟨h.broken, h.alive, h.locked, fun hf => by cases hf⟩

theorem Inv.reset (hf : s.final = false) : Inv s.resetExpectedDisconnect :=
  ⟨h.broken, h.alive, h.locked, fun hf' => by rw [State.resetExpectedDisconnect, hf] at hf'; cases hf'⟩

/-- a connection that is open is the one of the socket, so without it none is open -/
theorem Inv.alive_eq_nil (hno : ∀ k ∈ s.alive, s.socket ≠ some k) : s.alive = [] := by
  rw [eq_nil_iff_forall_not_mem]
  intro k hk
  exact hno k hk (h.alive k hk)

/-- after a disconnect no connection is left -/
theorem Inv.alive_disconnected : (s.alive.filter fun k => some k ≠ s.socket) = [] := by
  rw [filter_eq_nil_iff]
  intro k hk
  simp [h.alive k hk]

theorem Inv.unlockedDisconnect (queueClosed : Bool) : Inv (s.unlockedDisconnect queueClosed) := by
  have ha : (s.unlockedDisconnect queueClosed).alive = [] := h.alive_disconnected
  refine ⟨h.broken, ?_, fun _ => ha, fun hf => ⟨(h.final hf).1, (h.final hf).2.1, ha⟩⟩
  rw [ha]
  simp

theorem Inv.lockAndDisconnect (queueClosed : Bool) : Inv (s.lockAndDisconnect queueClosed) := by
  have ha : (s.lockAndDisconnect queueClosed).alive = [] := h.alive_disconnected
  refine ⟨h.broken, ?_, fun _ => ha, fun hf => ⟨rfl, (h.final hf).2.1, ha⟩⟩
  rw [ha]
  simp

theorem Inv.unlock : Inv { s with locked := false } :=
  ⟨h.broken, h.alive, fun hl => (by cases hl), h.final⟩

theorem Inv.openSocket (ha : s.alive = []) (hl : s.locked = false) (hf : s.final = false) : Inv s.openSocket := by
  refine Inv.spawn ?_ fun _ => rfl
  refine ⟨h.broken, ?_, fun hl' => ?_, fun hf' => ?_⟩
  · simp [ha]
  · rw [show s.locked = true from hl'] at hl
    cases hl
  · rw [show s.final = true from hf'] at hf
    cases hf

theorem Inv.unlockedConnect (hl : s.locked = false) (hf : s.final = false) (dial : Dial)
    (queueClosed : Bool) : Inv (s.unlockedConnect dial queueClosed) := by
  rw [State.unlockedConnect]
  split_ifs with hr hs ho ho
  · exact h
  · exact ((h.unlockedDisconnect queueClosed).reset hf).openSocket h.alive_disconnected hl hf
  · exact (h.unlockedDisconnect queueClosed).reset hf
  · have ha : s.alive = [] := h.alive_eq_nil fun k _ hk => hs (.inl (by rw [hk]; simp))
    exact (h.reset hf).openSocket ha hl hf
  · exact h.reset hf

/-- a goroutine connects that was on its way -/
theorem Inv.background (hi : s.threads[i]? = some t) (hc : t.committed = true)
    (b : Bool) : Inv { s with broken := s.broken || (b && s.final) } := by
  have hf := h.not_final hi hc
  refine ⟨?_, h.alive, h.locked, h.final⟩
  simp [h.broken, hf]

theorem Inv.keeps (a : Step) (hok : StepOk s a) : Inv (step c s a) := by
  cases a with
  | connect dial queueClosed initial =>
    simp only [step]
    split_ifs with hl hi
    · exact h
    · exact (h.notFinal.unlockedConnect (by simpa using hl) rfl _ _).spawnReconnect
    · exact h.notFinal.unlockedConnect (by simpa using hl) rfl _ _
  | disconnect queueClosed =>
    simp only [step]
    split_ifs
    · exact h
    · exact (h.lockAndDisconnect queueClosed).spawn fun _ => rfl
  | disconnectReturns i =>
    simp only [step]
    split_ifs with hi
    · refine Inv.endThread ?_ i
      exact ⟨h.broken, h.alive, h.unlock.locked, fun _ => ⟨hok.1, hok.2, h.locked hi.2⟩⟩
    · exact h
  | resetConnection =>
    simp only [step]
    split_ifs
    · exact h
    · exact (h.filter _).force true
  | expectDisconnect => exact h.expect
  | connectionLost k => exact h.filter _
  | onDisconnect k remote =>
    simp only [step]
    split_ifs with hl hk
    · exact h
    · rw [not_or] at hl
      have ha : s.alive = [] := by
        refine h.alive_eq_nil fun j hj hs => ?_
        rw [hk] at hs
        cases hs
        exact hl.2 hj
      refine Inv.spawn ?_ fun _ => rfl
      refine ⟨h.broken, ?_, fun _ => ha, h.final⟩
      simp [ha]
    · exact h
  | finishDisconnect i ctxDone =>
    simp only [step]
    split
    · split_ifs with h₁ h₂ h₃ h₄ h₅
      · exact h.endThread i
      · exact h
      · exact h.endThread i
      · exact h.endThread i
      · exact ((h.endThread i).force false).spawnReconnect
      · exact (h.endThread i).force false
    · exact h
  | waitCancelled i =>
    simp only [step]
    split_ifs
    · exact h.endThread i
    · exact h
  | waitTimesOut i =>
    simp only [step]
    split_ifs
    · refine h.setThread i fun hf => ?_
      have := (h.final hf).1
      rw [show s.expected = false from hok] at this
      cases this
    · exact h
  | reconnect i dial queueClosed =>
    simp only [step]
    split_ifs with hi hret
    · exact ((h.background hi.1 rfl _).endThread i).unlockedConnect hi.2 (h.not_final hi.1 rfl) _ _
    · exact ((h.background hi.1 rfl _).setThread i fun _ => rfl).unlockedConnect hi.2 (h.not_final hi.1 rfl) _ _
    · exact h
  | retry i hookStops =>
    simp only [step]
    split_ifs
    · exact h.endThread i
    · exact h.setThread i fun _ => rfl
    · exact h
  | giveUp i =>
    simp only [step]
    split
    · next k hi =>
      split_ifs
      · refine h.setThread i fun hf => ?_
        have hk := hok k _ hi
        rw [(h.final hf).2.2] at hk
        cases hk
      · exact h
    · exact h
  | keepAliveEnds i =>
    simp only [step]
    split
    · split_ifs
      · exact h
      · exact h.endThread i
    · exact h
  | keepAliveDisconnects i queueClosed =>
    simp only [step]
    split
    · next k hi =>
      split_ifs
      · exact h
      · exact (h.lockAndDisconnect queueClosed).setThread i (h.of_committed hi rfl)
    · exact h
  | keepAliveDisconnected i =>
    simp only [step]
    split
    · next k hi =>
      exact h.unlock.setThread i (h.of_committed hi rfl)
    · exact h
  | keepAliveResets i =>
    simp only [step]
    split
    · next k hi =>
      exact (h.reset (h.not_final hi rfl)).setThread i (h.of_committed hi rfl)
    · exact h
  | keepAliveSpawns i =>
    simp only [step]
    split
    · exact (h.setThread i fun _ => rfl).spawnReconnect
    · exact h
  | streamError515 => exact h.spawn fun _ => rfl
  | restartDisconnects i queueClosed =>
    simp only [step]
    split_ifs with hi
    · exact (h.lockAndDisconnect queueClosed).setThread i fun _ => rfl
    · exact h
  | restartDisconnected i =>
    simp only [step]
    split_ifs with hi
    · exact h.unlock.setThread i fun _ => rfl
    · exact h
  | restartConnects i dial queueClosed =>
    simp only [step]
    split_ifs with hi
    · exact (h.notFinal.endThread i).unlockedConnect hi.2 rfl _ _
    · exact h

end

/-! ## Results -/

/-- **Disconnect is final**, along every run whose steps meet the condition: in no state that is reached has a goroutine
opened a socket after `Disconnect` returned and before the application, or the restart of a 515, connected again. -/
theorem disconnect_final (c : Config) (as : List Step) (hok : Along (step c) StepOk initial as) (n : ℕ) :
    (run (step c) initial (as.take n)).broken = false :=
  (run_inv_take (I := Inv) (fun _ a hok h => h.keeps a hok) inv_initial hok n).broken

/-- a connection is lost, `autoReconnect` waits and is cancelled by `Disconnect` -/
def cancelledReconnect : List Step :=
  [.connect .opened true false, .connectionLost 0, .onDisconnect 0 true, .finishDisconnect 1 false, .keepAliveEnds 0,
    .disconnect true, .disconnectReturns 1, .waitCancelled 0]

theorem disconnect_final_cancelled :
    (run (step ⟨true⟩) initial (cancelledReconnect.take 8)).broken = false ∧
      (run (step ⟨true⟩) initial (cancelledReconnect.take 8)).threads = [] := by
  refine ⟨disconnect_final ⟨true⟩ cancelledReconnect ?_ 8, by decide⟩
  refine along_of_get fun n a ha => ?_
  rcases n with _ | _ | _ | _ | _ | _ | _ | _ | n
  all_goals first
    | (cases ha; exact trivial)
    | (cases ha; exact ⟨by decide, by decide⟩)
    | cases ha

/-- the reconnect is past its wait when `Disconnect` is called, and connects after it returned -/
theorem reconnect_after_disconnect :
    (run (step ⟨true⟩) initial [.connect .opened true false, .connectionLost 0, .onDisconnect 0 true,
      .finishDisconnect 1 false, .waitTimesOut 1, .disconnect true, .disconnectReturns 2,
      .reconnect 1 .opened true]).broken = true := by
  decide

theorem State.broken_unlockedConnect (dial : Dial) (queueClosed : Bool) :
    (s.unlockedConnect dial queueClosed).broken = s.broken := by
  rw [State.unlockedConnect]
  split_ifs <;> rfl

/-- the condition at the return of `Disconnect` is needed: a goroutine that is past its wait can open a socket next -/
theorem unsafe_return_breaks {j : ℕ} (h : Inv s) (hi : s.threads[i]? = some .disconnect) (hl : s.locked = true)
    (hj : (s.threads.eraseIdx i)[j]? = some (.autoReconnect .connecting)) (queueClosed : Bool) :
    (run (step c) s [.disconnectReturns i, .reconnect j .opened queueClosed]).broken = true := by
  have hret : step c s (.disconnectReturns i) = { s with locked := false, final := true }.endThread i := by
    simp only [step]
    rw [if_pos ⟨hi, hl⟩]
  have hdead : ({ s with locked := false, final := true }.endThread i).isConnected = false := by
    simp only [State.isConnected, State.endThread, h.locked hl]
    cases s.socket <;> rfl
  rw [run_cons, hret, run_cons, run_nil]
  generalize ht : ({ s with locked := false, final := true }.endThread i) = t at hdead
  have hthread : t.threads[j]? = some (.autoReconnect .connecting) := by
    rw [← ht]
    exact hj
  have hlocked : t.locked = false := by rw [← ht]; rfl
  have hfinal : t.final = true := by rw [← ht]; rfl
  simp only [step]
  rw [if_pos ⟨hthread, hlocked⟩, if_pos (.inl trivial), State.broken_unlockedConnect]
  simp [State.endThread, State.opens, hdead, hfinal]

end Hypermeow.Client.Disconnect
