/-
The frame layer of the websocket connection (`socket/framesocket.go`).

`SendFrame` writes one websocket message per frame: the connection header (first frame only), three bytes of length, the
frame. `processData` takes websocket messages of any size and sends complete frames on the `Frames` channel. Between
calls it keeps a partial length (`partialHeader`), or a buffer for the announced length (`incoming`, `incomingLength`)
with the bytes that have arrived (`receivedLength`).

Model: every index and slice of the source is checked (`Slice`), so a bound out of range is a panic. The loop of
`processData` runs on fuel, one unit per iteration, and reports whether it came to an end. Writing to the open websocket
appends a message. Sending on `Frames` appends to `frames`.

Results:
- `processIter_spec`: one iteration is in range, consumes at least one byte of the message and keeps `Holds`.
-/
import Hypermeow.Lib.Slice
import Hypermeow.Lib.Framing

namespace Hypermeow.Socket

open Lib Go List Option Slice

def frameMaxSize : ℕ := 1 <<< 24

def frameLengthSize : ℕ := 3

/-- `'W', 'A'`, the magic value and the token dictionary version -/
def waConnHeader : Bytes := [87, 65, 6, 3]

inductive SocketErr where
  | socketClosed
  | frameTooLarge (got max : ℕ)
deriving DecidableEq, Repr

@[ext] structure FrameSocket where
  /-- `Header`, nil once it has been sent -/
  header : Option Bytes
  incomingLength : ℕ
  receivedLength : ℕ
  incoming : Option Bytes
  partialHeader : Option Bytes
  /-- what was sent on `Frames`, oldest first -/
  frames : List Bytes
  /-- messages written to the websocket, oldest first; `none` when there is no connection -/
  conn : Option (List Bytes)
deriving DecidableEq, Repr

/-- a connected socket that has sent and received nothing -/
def newFrameSocket : FrameSocket := ⟨some waConnHeader, 0, 0, none, none, [], some []⟩

/-! ## Sending -/

/-- the three length bytes of a frame -/
def lengthBytes (dataLength : ℕ) : Bytes :=
  [UInt8.ofNat (dataLength >>> 16), UInt8.ofNat (dataLength >>> 8), UInt8.ofNat dataLength]

def sendFrame (data : Bytes) : Go FrameSocket SocketErr Unit := do
  let fs ← Go.get
  match fs.conn with
  | none => Go.throw .socketClosed
  | some written =>
    if frameMaxSize ≤ data.length then Go.throw (.frameTooLarge data.length frameMaxSize)
    else
      let wholeFrame := fs.header.getD [] ++ lengthBytes data.length ++ data
      Go.modify fun fs => { fs with header := none, conn := some (written ++ [wholeFrame]) }

/-- `SendFrame` for each frame in turn -/
def sendFrames : List Bytes → Go FrameSocket SocketErr Unit
  | [] => pure ()
  | f :: fs => do
    sendFrame f
    sendFrames fs

/-- everything the connection was given, in order -/
def FrameSocket.wire (fs : FrameSocket) : Bytes := (fs.conn.getD []).flatten

/-! ## Receiving -/

def frameComplete : Go FrameSocket SocketErr Unit :=
  Go.modify fun fs => { fs with
    incoming := none, partialHeader := none, incomingLength := 0, receivedLength := 0,
    frames := fs.frames ++ [fs.incoming.getD []] }

/-- one iteration of the loop of `processData`: the message that is left -/
def processIter (msg : Bytes) : Go FrameSocket SocketErr Bytes := do
  let fs ← Go.get
  let msg := fs.partialHeader.getD [] ++ msg
  Go.modify fun fs => { fs with partialHeader := none }
  match fs.incoming with
  | none =>
    if frameLengthSize ≤ msg.length then
      let b0 ← Slice.index msg 0
      let b1 ← Slice.index msg 1
      let b2 ← Slice.index msg 2
      let length := (b0.toNat <<< 16) + (b1.toNat <<< 8) + b2.toNat
      Go.modify fun fs => { fs with incomingLength := length }
      let msg ← Slice.since msg frameLengthSize
      Go.modify fun fs => { fs with receivedLength := msg.length }
      if length ≤ msg.length then
        let body ← Slice.upTo msg length
        Go.modify fun fs => { fs with incoming := some body }
        let msg ← Slice.since msg length
        frameComplete
        pure msg
      else
        let buf ← Slice.copyAt (List.replicate length 0) 0 msg
        Go.modify fun fs => { fs with incoming := some buf }
        pure []
    else
      Go.modify fun fs => { fs with partialHeader := some msg }
      pure []
  | some incoming =>
    -- the bounds are differences of two lengths, so they are taken over the integers
    if fs.incomingLength ≤ fs.receivedLength + msg.length then
      let head ← Slice.upTo msg ((fs.incomingLength : ℤ) - fs.receivedLength)
      let buf ← Slice.copyAt incoming fs.receivedLength head
      Go.modify fun fs => { fs with incoming := some buf }
      let msg ← Slice.since msg ((fs.incomingLength : ℤ) - fs.receivedLength)
      frameComplete
      pure msg
    else
      let buf ← Slice.copyAt incoming fs.receivedLength msg
      Go.modify fun fs => { fs with incoming := some buf, receivedLength := fs.receivedLength + msg.length }
      pure []

/-- `for len(msg) > 0`, at most `fuel` times: whether the loop came to its end -/
def processLoop : ℕ → Bytes → Go FrameSocket SocketErr Bool
  | 0, msg => pure msg.isEmpty
  | fuel + 1, msg => if msg.isEmpty then pure true else do
    let msg ← processIter msg
    processLoop fuel msg

def processData (msg : Bytes) : Go FrameSocket SocketErr Bool := processLoop msg.length msg

/-- websocket messages in order, as `readPump` hands them over -/
def feed : List Bytes → Go FrameSocket SocketErr Bool
  | [] => pure true
  | msg :: msgs => do
    let done ← processData msg
    let rest ← feed msgs
    pure (done && rest)

/-! ## The abstract stream -/

/-- three bytes of length, then the frame -/
def framing : Framing UInt8 where
  size := frameLengthSize
  size_pos := by decide
  len := beNat

/-- one length-prefixed frame -/
def frameBytes (f : Bytes) : Bytes := lengthBytes f.length ++ f

theorem lengthBytes_eq (n : ℕ) : lengthBytes n = beBytes 3 n := by
  simp [lengthBytes, beBytes, Nat.shiftRight_eq_div_pow]

theorem beNat_lengthBytes {n : ℕ} (h : n < frameMaxSize) : beNat (lengthBytes n) = n := by
  rw [lengthBytes_eq, beNat_beBytes h]

theorem length_lengthBytes (n : ℕ) : (lengthBytes n).length = 3 := rfl

theorem beNat_three (b0 b1 b2 : UInt8) : (b0.toNat <<< 16) + (b1.toNat <<< 8) + b2.toNat = beNat [b0, b1, b2] := by
  simp only [beNat, List.foldl, Nat.shiftLeft_eq]
  ring

theorem beNat_three_lt (b0 b1 b2 : UInt8) : beNat [b0, b1, b2] < frameMaxSize := by
  have h0 := b0.toNat_lt
  have h1 := b1.toNat_lt
  have h2 := b2.toNat_lt
  simp only [beNat, List.foldl, frameMaxSize]
  omega

/-- deframing the stream of frames below the size limit -/
theorem deframe_frames (fs : List Bytes) (h : ∀ f ∈ fs, f.length < frameMaxSize) :
    framing.deframe (fs.flatMap frameBytes) = (fs, []) :=
  framing.deframe_encode (fun f => lengthBytes f.length) fs (fun _ _ => rfl) (fun f hf => beNat_lengthBytes (h f hf))

/-- **What the receive state stands for.** `Holds fs p`: the bytes received since the last complete frame are `p`. Either
nothing is pending, or one or two length bytes, or a length and part of its body. -/
inductive Holds (fs : FrameSocket) : Bytes → Prop
  | idle (h1 : fs.incoming = none) (h2 : fs.partialHeader = none) (h3 : fs.incomingLength = 0)
      (h4 : fs.receivedLength = 0) : Holds fs []
  | header {p : Bytes} (h1 : fs.incoming = none) (h2 : fs.partialHeader = some p) (h3 : fs.incomingLength = 0)
      (h4 : fs.receivedLength = 0) (hp : 0 < p.length) (hl : p.length < 3) : Holds fs p
  | body {buf : Bytes} (h1 : fs.incoming = some buf) (h2 : fs.partialHeader = none)
      (h3 : fs.incomingLength = buf.length) (h4 : fs.receivedLength < buf.length) (h5 : buf.length < frameMaxSize) :
      Holds fs (lengthBytes buf.length ++ buf.take fs.receivedLength)

variable {fs : FrameSocket} {p : Bytes}

theorem Holds.not_complete (h : Holds fs p) : ¬ framing.Complete p := by
  rintro ⟨hs, hc⟩
  cases h with
  | idle => simp [framing, frameLengthSize] at hs
  | header _ _ _ _ hp hl => simp only [framing, frameLengthSize] at hs; omega
  | @body buf _ _ _ h4 h5 =>
    have htake : (lengthBytes buf.length ++ buf.take fs.receivedLength).take 3 = lengthBytes buf.length := rfl
    simp only [framing, frameLengthSize, htake, beNat_lengthBytes h5, length_append, length_lengthBytes,
      length_take] at hc
    omega

/-- the four receive variables as `NewFrameSocket` leaves them -/
def FrameSocket.Initial (fs : FrameSocket) : Prop :=
  fs.incoming = none ∧ fs.partialHeader = none ∧ fs.incomingLength = 0 ∧ fs.receivedLength = 0

theorem FrameSocket.Initial.holds (h : fs.Initial) : Holds fs [] := .idle h.1 h.2.1 h.2.2.1 h.2.2.2

/-- with nothing pending the receive state is the initial one -/
theorem Holds.initial (h : Holds fs []) : fs.Initial := by
  generalize hq : ([] : Bytes) = p at h
  cases h with
  | idle h1 h2 h3 h4 => exact ⟨h1, h2, h3, h4⟩
  | header _ _ _ _ hp _ => subst hq; simp at hp
  | body => simp [lengthBytes] at hq

theorem lengthBytes_beNat (b0 b1 b2 : UInt8) : lengthBytes (beNat [b0, b1, b2]) = [b0, b1, b2] := by
  have h0 := b0.toNat_lt
  have h1 := b1.toNat_lt
  have h2 := b2.toNat_lt
  simp only [lengthBytes, beNat, List.foldl, Nat.shiftRight_eq_div_pow, cons.injEq, and_true,
    ← UInt8.toNat_inj, UInt8.toNat_ofNat']
  refine ⟨?_, ?_, ?_⟩ <;> omega

/-! ## One iteration -/

/-- what an iteration does to the stream: it delivers `new` and leaves `p'` pending and `msg'` unread -/
structure Consumed (fs fs' : FrameSocket) (p msg p' msg' : Bytes) (new : List Bytes) : Prop where
  holds : Holds fs' p'
  shorter : msg'.length < msg.length
  frames : fs'.frames = fs.frames ++ new
  header : fs'.header = fs.header
  conn : fs'.conn = fs.conn
  stream : framing.deframe (p ++ msg) =
    (new ++ (framing.deframe (p' ++ msg')).1, (framing.deframe (p' ++ msg')).2)

variable {msg : Bytes}

section Length

variable (h1 : fs.incoming = none) (h2 : fs.partialHeader.getD [] = p)
include h1 h2

/-- fewer than three length bytes: they are kept for the next message -/
theorem processIter_short (hl : (p ++ msg).length < 3) :
    processIter msg fs = (.ok [], { fs with partialHeader := some (p ++ msg) }) := by
  have hl' : ¬ frameLengthSize ≤ (p ++ msg).length := by simp only [frameLengthSize]; omega
  simp only [processIter, bind_run, get_run, modify_run, h1, h2, if_neg hl', pure_run]

variable {rest : Bytes} {b0 b1 b2 : UInt8} (hm : p ++ msg = b0 :: b1 :: b2 :: rest)
include hm

/-- a length and its whole body: the frame is delivered -/
theorem processIter_frame (hl : beNat [b0, b1, b2] ≤ rest.length) :
    processIter msg fs = (.ok (rest.drop (beNat [b0, b1, b2])), { fs with
      incoming := none, partialHeader := none, incomingLength := 0, receivedLength := 0,
      frames := fs.frames ++ [rest.take (beNat [b0, b1, b2])] }) := by
  have h3 : frameLengthSize ≤ (b0 :: b1 :: b2 :: rest).length := by simp [frameLengthSize]
  simp only [processIter, bind_run, get_run, modify_run, h1, h2, hm, if_pos h3, Slice.index,
    getElem?_cons_zero, getElem?_cons_succ, pure_run, beNat_three, since_run h3]
  have hd : (b0 :: b1 :: b2 :: rest).drop frameLengthSize = rest := rfl
  simp only [hd, if_pos hl, upTo_run hl, since_run hl, bind_run, modify_run, frameComplete,
    pure_run, getD_some]

/-- a length and part of its body: a buffer is allocated and filled from the front -/
theorem processIter_start (hl : rest.length < beNat [b0, b1, b2]) :
    processIter msg fs = (.ok [], { fs with
      incoming := some (rest ++ List.replicate (beNat [b0, b1, b2] - rest.length) 0), partialHeader := none,
      incomingLength := beNat [b0, b1, b2], receivedLength := rest.length }) := by
  have h3 : frameLengthSize ≤ (b0 :: b1 :: b2 :: rest).length := by simp [frameLengthSize]
  simp only [processIter, bind_run, get_run, modify_run, h1, h2, hm, if_pos h3, Slice.index,
    getElem?_cons_zero, getElem?_cons_succ, pure_run, beNat_three, since_run h3]
  have hd : (b0 :: b1 :: b2 :: rest).drop frameLengthSize = rest := rfl
  have hc (s : FrameSocket) : (Slice.copyAt (List.replicate (beNat [b0, b1, b2]) 0) ((0 : ℕ) : ℤ) rest :
      Go FrameSocket SocketErr Bytes) s = _ := copyAt_run (Nat.zero_le _) s
  simp only [Nat.cast_zero] at hc
  simp only [hd, if_neg (Nat.not_le.2 hl), hc, bind_run, modify_run, pure_run, take_zero,
    nil_append, length_replicate, Nat.sub_zero, Nat.zero_add, drop_replicate,
    take_of_length_le hl.le]

end Length

/-- the rest of the body: the buffer is completed and delivered -/
theorem processIter_finish {buf : Bytes} (h1 : fs.incoming = some buf)
    (h2 : fs.partialHeader = none) (h3 : fs.incomingLength = buf.length) (h4 : fs.receivedLength < buf.length)
    (hl : buf.length ≤ fs.receivedLength + msg.length) :
    processIter msg fs = (.ok (msg.drop (buf.length - fs.receivedLength)), { fs with
      incoming := none, partialHeader := none, incomingLength := 0, receivedLength := 0,
      frames := fs.frames ++ [buf.take fs.receivedLength ++ msg.take (buf.length - fs.receivedLength)] }) := by
  have hk : buf.length - fs.receivedLength ≤ msg.length := by omega
  have hcast : (buf.length : ℤ) - fs.receivedLength = ((buf.length - fs.receivedLength : ℕ) : ℤ) := by omega
  simp only [processIter, bind_run, get_run, modify_run, h1, h2, h3, getD_none, nil_append,
    if_pos hl, hcast, upTo_run hk, since_run hk, copyAt_run h4.le, frameComplete, pure_run,
    getD_some, take_take, length_take, Nat.min_self, Nat.min_eq_left hk]
  rw [drop_of_length_le (by omega : buf.length ≤ fs.receivedLength + (buf.length - fs.receivedLength)),
    append_nil]

/-- more of the body, not all of it -/
theorem processIter_more {buf : Bytes} (h1 : fs.incoming = some buf)
    (h2 : fs.partialHeader = none) (h3 : fs.incomingLength = buf.length) (h4 : fs.receivedLength < buf.length)
    (hl : fs.receivedLength + msg.length < buf.length) :
    processIter msg fs = (.ok [], { fs with
      incoming := some (buf.take fs.receivedLength ++ (msg ++ buf.drop (fs.receivedLength + msg.length))),
      partialHeader := none, receivedLength := fs.receivedLength + msg.length }) := by
  simp only [processIter, bind_run, get_run, modify_run, h1, h2, h3, getD_none, nil_append,
    if_neg (Nat.not_le.2 hl), copyAt_run h4.le, pure_run]
  rw [take_of_length_le (by omega : msg.length ≤ buf.length - fs.receivedLength)]

/-- an iteration that finds a length and possibly part of a body at the front of `p ++ msg` -/
theorem processIter_length (h : Holds fs p) (h1 : fs.incoming = none)
    (h2 : fs.partialHeader.getD [] = p) (hp : p.length < 3) (hm : msg ≠ []) :
    ∃ fs' msg' p' new, processIter msg fs = (.ok msg', fs') ∧ Consumed fs fs' p msg p' msg' new := by
  have hpos : 0 < msg.length := length_pos_of_ne_nil hm
  have hzero : fs.incomingLength = 0 ∧ fs.receivedLength = 0 := by
    cases h with
    | idle _ _ h3 h4 => exact ⟨h3, h4⟩
    | header _ _ h3 h4 => exact ⟨h3, h4⟩
    | body h1' => rw [h1] at h1'; cases h1'
  match hcat : p ++ msg with
  | [] | [_] | [_, _] =>
    have hl : (p ++ msg).length < 3 := by rw [hcat]; simp
    have hlen : 0 < (p ++ msg).length := by rw [length_append]; omega
    have hpend : Holds { fs with partialHeader := some (p ++ msg) } (p ++ msg) :=
      .header h1 rfl hzero.1 hzero.2 hlen hl
    refine ⟨_, _, p ++ msg, [], processIter_short h1 h2 hl, hpend, hpos, by simp, rfl, rfl, ?_⟩
    rw [append_nil, nil_append]
  | b0 :: b1 :: b2 :: rest =>
    have hrest : rest.length < msg.length := by
      have := congrArg List.length hcat
      simp only [length_append, length_cons] at this
      omega
    by_cases hl : beNat [b0, b1, b2] ≤ rest.length
    · refine ⟨_, _, [], [rest.take (beNat [b0, b1, b2])], processIter_frame h1 h2 hcat hl, .idle rfl rfl rfl rfl, ?_,
        rfl, rfl, rfl, ?_⟩
      · rw [length_drop]; omega
      · have hb : framing.len [b0, b1, b2] = (rest.take (beNat [b0, b1, b2])).length := by
          rw [length_take, Nat.min_eq_left hl]; rfl
        have hsplit : p ++ msg = [b0, b1, b2] ++ rest.take (beNat [b0, b1, b2]) ++ rest.drop (beNat [b0, b1, b2]) := by
          rw [hcat, append_assoc, take_append_drop]; rfl
        rw [hsplit, framing.deframe_frame _ rfl hb]
        rfl
    · have hl' := Nat.not_le.1 hl
      set buf := rest ++ List.replicate (beNat [b0, b1, b2] - rest.length) 0 with hbuf
      have hblen : buf.length = beNat [b0, b1, b2] := by
        rw [hbuf, length_append, length_replicate]; omega
      have hpend : Holds { fs with
          incoming := some buf, partialHeader := none, incomingLength := beNat [b0, b1, b2],
          receivedLength := rest.length } (lengthBytes buf.length ++ buf.take rest.length) :=
        .body rfl rfl hblen.symm (by rw [hblen]; exact hl') (by rw [hblen]; exact beNat_three_lt b0 b1 b2)
      refine ⟨_, _, _, [], processIter_start h1 h2 hcat hl', hpend, hpos, by simp, rfl, rfl, ?_⟩
      rw [hblen, lengthBytes_beNat, hbuf, take_left, hcat, append_nil, nil_append]
      rfl

/-- **One iteration.** It stays in range, shortens the message, and deframes the stream a bit further. -/
theorem processIter_spec (h : Holds fs p) (hm : msg ≠ []) :
    ∃ fs' msg' p' new, processIter msg fs = (.ok msg', fs') ∧ Consumed fs fs' p msg p' msg' new := by
  have hpos : 0 < msg.length := length_pos_of_ne_nil hm
  cases h with
  | idle h1 h2 h3 h4 => exact processIter_length (.idle h1 h2 h3 h4) h1 (by rw [h2]; rfl) (by simp) hm
  | header h1 h2 h3 h4 hp hl => exact processIter_length (.header h1 h2 h3 h4 hp hl) h1 (by rw [h2]; rfl) hl hm
  | @body buf h1 h2 h3 h4 h5 =>
    by_cases hl : buf.length ≤ fs.receivedLength + msg.length
    · refine ⟨_, _, [], [buf.take fs.receivedLength ++ msg.take (buf.length - fs.receivedLength)],
        processIter_finish h1 h2 h3 h4 hl, .idle rfl rfl rfl rfl, ?_, rfl, rfl, rfl, ?_⟩
      · rw [length_drop]; omega
      · have hb : framing.len (lengthBytes buf.length) =
            (buf.take fs.receivedLength ++ msg.take (buf.length - fs.receivedLength)).length := by
          rw [show framing.len (lengthBytes buf.length) = buf.length from beNat_lengthBytes h5]
          simp only [length_append, length_take]
          omega
        have hsplit : lengthBytes buf.length ++ buf.take fs.receivedLength ++ msg =
            lengthBytes buf.length ++ (buf.take fs.receivedLength ++ msg.take (buf.length - fs.receivedLength)) ++
              msg.drop (buf.length - fs.receivedLength) := by
          simp only [append_assoc, take_append_drop]
        rw [hsplit, framing.deframe_frame _ rfl hb]
        rfl
    · have hl' := Nat.not_le.1 hl
      set buf' := buf.take fs.receivedLength ++ (msg ++ buf.drop (fs.receivedLength + msg.length)) with hbuf
      have hblen : buf'.length = buf.length := by
        simp only [hbuf, length_append, length_take, length_drop]; omega
      have hpend : Holds { fs with
          incoming := some buf', partialHeader := none, receivedLength := fs.receivedLength + msg.length }
          (lengthBytes buf'.length ++ buf'.take (fs.receivedLength + msg.length)) :=
        .body rfl rfl (h3.trans hblen.symm) (by rw [hblen]; exact hl') (by rw [hblen]; exact h5)
      have htake : buf'.take (fs.receivedLength + msg.length) = buf.take fs.receivedLength ++ msg := by
        rw [hbuf, ← append_assoc, take_left']
        simp only [length_append, length_take]
        omega
      refine ⟨_, _, _, [], processIter_more h1 h2 h3 h4 hl', hpend, hpos, by simp, rfl, rfl, ?_⟩
      rw [hblen, htake, append_nil, nil_append, append_assoc]

/-! ## Whole messages and whole runs -/

/-- what a message, or a run of messages, does: the frames of the stream are delivered, the rest stays pending -/
structure Delivered (fs fs' : FrameSocket) (p stream : Bytes) : Prop where
  holds : Holds fs' (framing.deframe (p ++ stream)).2
  frames : fs'.frames = fs.frames ++ (framing.deframe (p ++ stream)).1
  header : fs'.header = fs.header
  conn : fs'.conn = fs.conn

theorem Delivered.nil (h : Holds fs p) : Delivered fs fs p [] := by
  have hd : framing.deframe (p ++ []) = ([], p) := by
    rw [append_nil]; exact framing.deframe_of_not_complete h.not_complete
  refine ⟨?_, ?_, rfl, rfl⟩
  · rw [hd]; exact h
  · rw [hd]; simp

theorem processLoop_spec (fuel : ℕ) (h : Holds fs p) (hf : msg.length ≤ fuel) :
    ∃ fs', processLoop fuel msg fs = (.ok true, fs') ∧ Delivered fs fs' p msg := by
  induction fuel generalizing fs p msg with
  | zero =>
    have hnil : msg = [] := eq_nil_of_length_eq_zero (by omega)
    subst hnil
    exact ⟨fs, rfl, .nil h⟩
  | succ fuel ih =>
    by_cases hm : msg = []
    · subst hm; exact ⟨fs, rfl, .nil h⟩
    · obtain ⟨fs1, msg1, p1, new, hrun, c⟩ := processIter_spec h hm
      obtain ⟨fs2, hrun2, d⟩ := ih c.holds (by have := c.shorter; omega : msg1.length ≤ fuel)
      refine ⟨fs2, ?_, ?_, ?_, d.header.trans c.header, d.conn.trans c.conn⟩
      · have he : msg.isEmpty = false := by simpa using hm
        simp only [processLoop, he, Bool.false_eq_true, if_false]
        rw [bind_ok hrun, hrun2]
      · rw [c.stream]; exact d.holds
      · rw [c.stream, d.frames, c.frames, append_assoc]

/-- **`processData` refines deframing.** It comes to its end, in range, delivers the complete frames of what was
pending followed by the message, and keeps the rest. -/
theorem processData_spec (msg : Bytes) (h : Holds fs p) :
    ∃ fs', processData msg fs = (.ok true, fs') ∧ Delivered fs fs' p msg :=
  processLoop_spec msg.length h le_rfl

theorem feed_spec (msgs : List Bytes) (h : Holds fs p) :
    ∃ fs', feed msgs fs = (.ok true, fs') ∧ Delivered fs fs' p msgs.flatten := by
  induction msgs generalizing fs p with
  | nil => exact ⟨fs, rfl, .nil h⟩
  | cons msg msgs ih =>
    obtain ⟨fs1, hrun1, d1⟩ := processData_spec msg h
    obtain ⟨fs2, hrun2, d2⟩ := ih d1.holds
    have hcut := framing.deframe_append (p ++ msg) msgs.flatten
    rw [append_assoc] at hcut
    refine ⟨fs2, ?_, ?_, ?_, d2.header.trans d1.header, d2.conn.trans d1.conn⟩
    · simp only [feed]
      rw [bind_ok hrun1, bind_ok hrun2]
      rfl
    · rw [flatten_cons, hcut]; exact d2.holds
    · rw [flatten_cons, hcut, d2.frames, d1.frames, append_assoc]

/-! ## Sending and receiving -/

/-- a frame that fits goes out on a connection that is open -/
theorem sendFrame_run {data : Bytes} {written : List Bytes} (hc : fs.conn = some written)
    (hlt : data.length < frameMaxSize) : sendFrame data fs = (.ok (), { fs with
      header := none, conn := some (written ++ [fs.header.getD [] ++ frameBytes data]) }) := by
  simp only [sendFrame, bind_run, get_run, hc, if_neg (Nat.not_le.2 hlt), modify_run, frameBytes, append_assoc]

theorem sendFrame_refused {data : Bytes} (h : fs.conn = none ∨ frameMaxSize ≤ data.length) :
    ∃ e, sendFrame data fs = (.err e, fs) := by
  rw [sendFrame, Go.get_bind]
  cases hc : fs.conn with
  | none => exact ⟨_, rfl⟩
  | some written => exact ⟨_, congrFun (if_pos (h.resolve_left (by simp [hc]))) fs⟩

theorem sendFrames_later (frames : List Bytes) (hf : ∀ f ∈ frames, f.length < frameMaxSize) (fs : FrameSocket)
    (written : List Bytes) (hh : fs.header = none) (hc : fs.conn = some written) :
    sendFrames frames fs = (.ok (), { fs with header := none, conn := some (written ++ frames.map frameBytes) }) := by
  induction frames generalizing fs written with
  | nil => simp [sendFrames, ← hc, ← hh]
  | cons f frames ih =>
    simp only [sendFrames]
    rw [bind_ok (sendFrame_run hc (hf f mem_cons_self)), ih (fun g hg => hf g (mem_cons_of_mem f hg)) _ _ rfl rfl, hh]
    simp

/-- the first frame carries the connection header, the later ones do not -/
theorem sendFrames_first (f : Bytes) (frames : List Bytes) (hf : ∀ g ∈ f :: frames, g.length < frameMaxSize) :
    sendFrames (f :: frames) newFrameSocket = (.ok (), { newFrameSocket with
      header := none, conn := some ((waConnHeader ++ frameBytes f) :: frames.map frameBytes) }) := by
  simp only [sendFrames]
  rw [bind_ok (sendFrame_run rfl (hf f mem_cons_self)),
    sendFrames_later frames (fun g hg => hf g (mem_cons_of_mem f hg)) _ _ rfl rfl]
  rfl

/-- **Reassembly.** For every list of frames below the size limit: the socket writes the connection header once,
followed by the length-prefixed frames (and nothing at all when there is no frame); a receiver in its initial state
that gets the length-prefixed part in any pieces delivers exactly the frames and is in its initial state again. And
whatever bytes arrive, in whatever pieces, the receiver comes to the end of them without a bound out of range. -/
theorem frames_reassemble (frames : List Bytes) (hf : ∀ f ∈ frames, f.length < frameMaxSize) :
    (∃ s, sendFrames frames newFrameSocket = (.ok (), s) ∧
      s.wire = if frames = [] then [] else waConnHeader ++ frames.flatMap frameBytes) ∧
    (∀ (msgs : List Bytes) (fs : FrameSocket), fs.Initial → msgs.flatten = frames.flatMap frameBytes →
      feed msgs fs = (.ok true, { fs with frames := fs.frames ++ frames })) ∧
    ∀ (msgs : List Bytes) (fs : FrameSocket), fs.Initial → ∃ s, feed msgs fs = (.ok true, s) := by
  refine ⟨?_, fun msgs fs hi hcut => ?_, fun msgs fs hi => ?_⟩
  · cases frames with
    | nil => exact ⟨newFrameSocket, rfl, rfl⟩
    | cons f frames =>
      refine ⟨_, sendFrames_first f frames hf, ?_⟩
      simp [FrameSocket.wire, flatMap_def]
  · obtain ⟨fs', hrun, d⟩ := feed_spec msgs hi.holds
    have hd : framing.deframe ([] ++ msgs.flatten) = (frames, []) := by
      rw [nil_append, hcut]; exact deframe_frames frames hf
    have hh := d.holds
    have hfr := d.frames
    rw [hd] at hh hfr
    obtain ⟨i1, i2, i3, i4⟩ := hh.initial
    obtain ⟨j1, j2, j3, j4⟩ := hi
    have hfs : fs' = { fs with frames := fs.frames ++ frames } :=
      FrameSocket.ext d.header (i3.trans j3.symm) (i4.trans j4.symm) (i1.trans j1.symm) (i2.trans j2.symm) hfr d.conn
    rw [hrun, hfs]
  · obtain ⟨fs', hrun, -⟩ := feed_spec msgs hi.holds
    exact ⟨fs', hrun⟩

/-- two frames, one of them empty, cut inside a length and inside a body -/
theorem frames_reassemble_cut :
    feed [[0], [0, 2, 7], [9, 0, 0, 0]] newFrameSocket = (.ok true, { newFrameSocket with frames := [[7, 9], []] }) :=
  (frames_reassemble [[7, 9], []] (by decide)).2.1 [[0], [0, 2, 7], [9, 0, 0, 0]] newFrameSocket
    ⟨rfl, rfl, rfl, rfl⟩ (by decide)

/-- the connection header goes out with the first frame: without a frame nothing is written -/
theorem no_frame_no_header :
    ¬ (∃ s, sendFrames [] newFrameSocket = (.ok (), s) ∧
      s.wire = waConnHeader ++ ([] : List Bytes).flatMap frameBytes) := by
  rintro ⟨s, hs, hw⟩
  have : s = newFrameSocket := by
    simp only [sendFrames, pure_run, Prod.mk.injEq, true_and] at hs
    exact hs.symm
  subst this
  exact absurd hw (by decide)

end Hypermeow.Socket
