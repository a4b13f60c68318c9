/-
Nodes on their way through a connection (`Unpack` of `binary/unpack.go`, `handleFrame` of `client.go`).

One side marshals nodes, seals and frames them, in any number of `SendFrame` calls at once. The bytes arrive in pieces that are
cut anywhere and may end early. The other side puts frames together, opens, unpacks and decodes them.

`nodes_delivered`: the nodes that have arrived are the first ones, in the order in which they were sealed.
-/
import Hypermeow.Binary.RoundTrip
import Hypermeow.Socket.NoiseSocket

namespace Hypermeow.Client

open Lib Go Binary Socket List

/-- `zlib` decompresses, or fails -/
def unpack (zlib : Bytes → Option Bytes) : Bytes → Option Bytes
  | [] => none
  | dataType :: data => if 0 < 2 &&& dataType then zlib data else some data

/-- the node that `handleFrame` goes on with; anything else is only logged -/
def handleFrame (zlib : Bytes → Option Bytes) (data : Bytes) : Option Node :=
  match (unpack zlib data).map Binary.unmarshal with
  | some (.ok (node, none)) => some node
  | _ => none

/-- the nodes of what arrived -/
def receiveNodes (A : AEAD) (zlib : Bytes → Option Bytes) (pieces : List Bytes) : List (Option Node) :=
  (receiveAll A ⟨0, []⟩ (feed pieces newFrameSocket).2.frames).delivered.map (handleFrame zlib)

variable {A : AEAD} {zlib : Bytes → Option Bytes} {s : NoiseSocket} {written pieces : List Bytes} {n : Node}

theorem handleFrame_marshal {data : Bytes} (h : n.Wire) (hn : marshal n = .ok data) : handleFrame zlib data = some n.canon := by
  obtain ⟨e, hw, hr⟩ := roundTrip_node n h
  have hread := hr e.length le_rfl [] []
  simp only [nil_append, append_nil, length_nil, Nat.zero_add] at hread
  have hunmarshal : Binary.unmarshal e = .ok (n.canon, none) := by
    unfold Binary.unmarshal newDecoder
    rw [bind_ok hread, get_bind, pure_run]
    simp
  unfold marshal at hn
  rw [bind_ok (hw newEncoder)] at hn
  cases hn
  simp [newEncoder, handleFrame, unpack, hunmarshal]

/-- only what a goroutine was going to write gets on the wire -/
theorem mem_wire_noiseStep (o : NoiseOp) : ∀ w ∈ (noiseStep A s o).wire, w ∈ s.wire ∨ w ∈ s.writers := by
  cases o with
  | write j =>
    simp only [noiseStep]
    cases hj : s.writers[j]? with
    | none => exact fun w => .inl
    | some v =>
      simp only
      split
      · intro w hw
        refine (mem_append.1 hw).imp_right fun hv => ?_
        rw [mem_singleton.1 hv]
        exact mem_of_getElem? hj
      · exact fun w => .inl
  | _ =>
    simp only [noiseStep]
    repeat' split
    all_goals exact fun w => .inl

/-- the frames of what arrived are the first ones on the wire -/
theorem feed_written (hs : WireWritten s) (hfit : ∀ w ∈ s.wire, w.ciphertext.length < frameMaxSize)
    (hconn : s.fs.conn = some written) (harrived : pieces.flatten <+: written.flatten) : ∃ k,
      (feed pieces newFrameSocket).2.frames = (s.wire.take k).map (·.ciphertext) ∧
        (pieces.flatten = written.flatten → k = s.wire.length) := by
  have hall : framing.deframe written.flatten = (s.wire.map (·.ciphertext), []) := by
    rw [hs.2 written hconn, ← deframe_frames _ (forall_mem_map.2 hfit), flatMap_map, flatMap_def]
  have hnew : newFrameSocket.Initial := ⟨rfl, rfl, rfl, rfl⟩
  obtain ⟨fs', hrun, hfed⟩ := feed_spec pieces hnew.holds
  obtain ⟨rest, hrest⟩ := harrived
  have hcut := framing.deframe_append pieces.flatten rest
  rw [hrest, hall] at hcut
  have hfirst : s.wire.map (·.ciphertext) = (framing.deframe pieces.flatten).1 ++ _ := congrArg Prod.fst hcut
  refine ⟨(framing.deframe pieces.flatten).1.length, ?_, fun heq => ?_⟩
  · rw [hrun, map_take, hfirst, take_left]
    exact hfed.frames
  · rw [heq, hall, length_map]

/-- **Nodes arrive.** For every order of the steps of any number of `SendFrame` calls that hand over nodes, while frames are
sealed alone: what has arrived of the bytes, in whatever pieces, gives the first nodes, and all of the bytes all nodes. -/
theorem nodes_delivered (A : AEAD) (zlib : Bytes → Option Bytes) (ops : List NoiseOp) (nodes : List Node)
    (written pieces : List Bytes) (hal : Along (noiseStep A) (SealsAlone A) newNoiseSocket ops)
    (hsent : Forall₂ (fun w n => n.Wire ∧ marshal n = .ok w.plaintext) (run (noiseStep A) newNoiseSocket ops).wire nodes)
    (hconn : (run (noiseStep A) newNoiseSocket ops).fs.conn = some written)
    (harrived : pieces.flatten <+: written.flatten) :
    ∃ k, receiveNodes A zlib pieces = (nodes.take k).map (fun n => some n.canon) ∧
      (pieces.flatten = written.flatten → k = nodes.length) := by
  set s := run (noiseStep A) newNoiseSocket ops
  have hinv : NoiseInv A s ∧ ∀ w ∈ s.wire, w.ciphertext.length < frameMaxSize := by
    refine run_inv (I := fun s => NoiseInv A s ∧ ∀ w ∈ s.wire, w.ciphertext.length < frameMaxSize)
      (fun s o ho h => ⟨noiseStep_inv A s o ho h.1, fun w hw => ?_⟩) ⟨noiseInv_init A, by simp [newNoiseSocket]⟩ hal
    exact (mem_wire_noiseStep o w hw).elim (h.2 w) (h.1.fits w)
  obtain ⟨k, hframes, hk⟩ := feed_written (run_written A ops) hinv.2 hconn harrived
  have horder : ∀ j w, (s.wire.take k)[j]? = some w → w.counter = UInt32.ofNat (0 + j) := by
    intro j w hw
    rw [getElem?_take] at hw
    split_ifs at hw
    rw [hinv.1.order j w hw, Nat.zero_add]
  have hopened := receiveAll_inOrder A (s.wire.take k) 0 ⟨0, []⟩ rfl horder
    fun w hw => hinv.1.sealed w (mem_append_left _ (mem_of_mem_take hw))
  refine ⟨k, ?_, fun heq => (hk heq).trans hsent.length_eq⟩
  rw [receiveNodes, hframes, hopened, nil_append, ← forall₂_eq_eq_eq, forall₂_map_left_iff, forall₂_map_left_iff,
    forall₂_map_right_iff]
  exact (forall₂_take k hsent).imp fun w n h => handleFrame_marshal h.1 h.2

/-- a node whose frame is cut inside its length -/
theorem nodes_delivered_ping :
    ∃ k, receiveNodes nonceFirst some [[0], [0, 16] ++ generateIV 0 ++ [0, 248, 1, 86]] =
      ([⟨ascii "ping", none, .nil⟩].take k).map (fun n : Node => some n.canon) ∧ k = 1 := by
  have hal : Along (noiseStep nonceFirst) (SealsAlone nonceFirst) newNoiseSocket
      [.call [0, 248, 1, 86], .enter 0, .write 0] := by
    refine ⟨trivial, fun p hp _ => ?_, trivial, trivial⟩
    cases hp
    exact ⟨rfl, by decide⟩
  have hwire : Node.Wire ⟨ascii "ping", none, .nil⟩ := by
    simp only [Node.Wire, Value.Wire, WireAttrs]
    decide +kernel
  obtain ⟨k, hnodes, hk⟩ := nodes_delivered nonceFirst some _ _ _ [[0], [0, 16] ++ generateIV 0 ++ [0, 248, 1, 86]] hal
    (.cons ⟨hwire, by decide +kernel⟩ .nil) rfl ⟨[], rfl⟩
  exact ⟨k, hnodes, hk rfl⟩

end Hypermeow.Client
