/-
JIDs that come from the wire and go back to it (`binary/decoder.go`, `binary/encoder.go`, `types/jid.go`).

The four JID readers build JIDs of four shapes. `writeJID` chooses a form from the server, the device and the agent, and it
need not be the form that was read: a pair with a hosted server is written with its domain byte, a domain byte with
device 0 as a pair. `readADJID` keeps a byte that is no domain as the agent of the JID, and `writeJID` writes the domain of
the server in its place.

Results:
- `ReadFromWire.shape`: what the readers can return.
-/
import Hypermeow.Binary.RoundTrip

namespace Hypermeow.Binary

open Lib Types Binary.Token Go Option

/-! ## What the readers return -/

/-- one of the four readers returns the JID, from some bytes -/
def ReadFromWire (jid : JID) : Prop :=
  ∃ (fuel : ℕ) (r r' : Cursor UInt8), readJIDPair (read fuel) r = (.ok jid, r') ∨ readADJID (read fuel) r = (.ok jid, r') ∨
    readFBJID (read fuel) r = (.ok jid, r') ∨ readInteropJID (read fuel) r = (.ok jid, r')

/-- the shapes of JIDs from the wire -/
structure WireShape (jid : JID) : Prop where
  rawAgent : jid.rawAgent ≠ 0 → jid.server = defaultUserServer
  integrator : jid.server ≠ interopServer → jid.integrator = 0
  device_ad : IsADServer jid.server → jid.device ≤ 255
  device_pair : ¬ IsADServer jid.server → jid.server ≠ messengerServer → jid.server ≠ interopServer → jid.device = 0

theorem wireShape_newJID (user server : Bytes) : WireShape (newJID user server) where
  rawAgent h := absurd rfl h
  integrator _ := rfl
  device_ad _ := (by decide : (0 : UInt16) ≤ 255)
  device_pair _ _ _ := rfl

/-- a domain byte gives a JID of one of the four domain servers, with a device of one byte -/
theorem wireShape_newADJID (user : Bytes) (agent device : UInt8) : WireShape (newADJID user agent device) := by
  have hdevice : device.toUInt16 ≤ 255 := by
    have := device.toNat_lt
    rw [UInt16.le_iff_toNat_le, UInt8.toNat_toUInt16]
    change device.toNat ≤ 255
    omega
  unfold newADJID
  split_ifs
  · exact ⟨fun h => absurd rfl h, fun _ => rfl, fun _ => hdevice, fun h => absurd (.inr (.inl rfl)) h⟩
  · exact ⟨fun h => absurd rfl h, fun _ => rfl, fun _ => hdevice, fun h => absurd (.inr (.inr (.inl rfl))) h⟩
  · exact ⟨fun h => absurd rfl h, fun _ => rfl, fun _ => hdevice, fun h => absurd (.inr (.inr (.inr rfl))) h⟩
  · exact ⟨fun _ => rfl, fun _ => rfl, fun _ => hdevice, fun h => absurd (.inl rfl) h⟩

variable {jid : JID}

theorem ReadFromWire.shape (h : ReadFromWire jid) : WireShape jid := by
  obtain ⟨fuel, r, r', h | h | h | h⟩ := h
  · obtain ⟨user, _, -, h⟩ := bind_eq_ok.1 h
    obtain ⟨server, _, -, h⟩ := bind_eq_ok.1 h
    obtain ⟨serverStr, _, -, h⟩ := bind_eq_ok.1 h
    obtain ⟨userStr, _, -, h⟩ := bind_eq_ok.1 h
    cases h
    exact wireShape_newJID _ _
  · obtain ⟨agent, _, -, h⟩ := bind_eq_ok.1 h
    obtain ⟨device, _, -, h⟩ := bind_eq_ok.1 h
    obtain ⟨user, _, -, h⟩ := bind_eq_ok.1 h
    obtain ⟨userStr, _, -, h⟩ := bind_eq_ok.1 h
    cases h
    exact wireShape_newADJID _ _ _
  · obtain ⟨user, _, -, h⟩ := bind_eq_ok.1 h
    obtain ⟨device, _, -, h⟩ := bind_eq_ok.1 h
    obtain ⟨server, _, -, h⟩ := bind_eq_ok.1 h
    obtain ⟨_, _, -, h⟩ := bind_eq_ok.1 h
    obtain ⟨userStr, _, -, h⟩ := bind_eq_ok.1 h
    cases h
    have hserver : ¬ IsADServer messengerServer := by decide
    exact ⟨fun h => absurd rfl h, fun _ => rfl, fun h => absurd h hserver, fun _ h => absurd rfl h⟩
  · obtain ⟨user, _, -, h⟩ := bind_eq_ok.1 h
    obtain ⟨device, _, -, h⟩ := bind_eq_ok.1 h
    obtain ⟨integrator, _, -, h⟩ := bind_eq_ok.1 h
    obtain ⟨server, _, -, h⟩ := bind_eq_ok.1 h
    obtain ⟨_, _, -, h⟩ := bind_eq_ok.1 h
    obtain ⟨userStr, _, -, h⟩ := bind_eq_ok.1 h
    cases h
    have hserver : ¬ IsADServer interopServer := by decide
    exact ⟨fun h => absurd rfl h, fun h => absurd rfl h, fun h => absurd h hserver, fun _ _ h => absurd rfl h⟩

/-! ## What the writer accepts -/

theorem writable_of_writeString {s buf buf' : Bytes} (h : writeString s buf = (.ok (), buf')) : Writable s := by
  by_cases hc : isCompact s = true
  · exact .inl hc
  · right
    simp only [isCompact, Bool.or_eq_true, not_or, Bool.not_eq_true, isSome_eq_false_iff,
      isNone_iff_eq_none] at hc
    obtain ⟨⟨⟨hi, hdi⟩, hn⟩, hh⟩ := hc
    simp only [writeString, hi, hdi, hn, hh] at h
    obtain ⟨_, _, hlen, -⟩ := bind_eq_ok.1 h
    unfold writeByteLength at hlen
    split_ifs at hlen with h₁ h₂ h₃
    · omega
    · omega
    · exact h₃
    · cases hlen

theorem writable_of_writeJID {buf buf' : Bytes} (h : writeJID jid buf = (.ok (), buf')) :
    Writable jid.user ∧ Writable jid.server := by
  unfold writeJID at h
  split_ifs at h with had hm hi
  · obtain ⟨_, _, -, h⟩ := bind_eq_ok.1 h
    obtain ⟨_, _, -, h⟩ := bind_eq_ok.1 h
    obtain ⟨_, _, -, h⟩ := bind_eq_ok.1 h
    refine ⟨writable_of_writeString h, ?_⟩
    rcases isADServer_of_isWrittenAsAD had with hs | hs | hs | hs <;> rw [hs] <;> exact .inr (by decide)
  · obtain ⟨_, _, -, h⟩ := bind_eq_ok.1 h
    obtain ⟨_, _, hu, h⟩ := bind_eq_ok.1 h
    exact ⟨writable_of_writeString hu, by rw [hm]; exact .inr (by decide)⟩
  · obtain ⟨_, _, -, h⟩ := bind_eq_ok.1 h
    obtain ⟨_, _, hu, h⟩ := bind_eq_ok.1 h
    exact ⟨writable_of_writeString hu, by rw [hi]; exact .inr (by decide)⟩
  · obtain ⟨_, _, -, h⟩ := bind_eq_ok.1 h
    obtain ⟨_, _, hu, h⟩ := bind_eq_ok.1 h
    refine ⟨?_, writable_of_writeString h⟩
    unfold writePairUser at hu
    split_ifs at hu with h0
    · exact .inr (by omega)
    · exact writable_of_writeString hu

/-- the agent of a user on the default server is not written -/
theorem writeJID_noAgent (h : jid.server = defaultUserServer) :
    writeJID jid = writeJID { jid with rawAgent := 0 } := by
  rcases jid with ⟨user, rawAgent, device, integrator, server⟩
  cases h
  rfl

/-! ## The round trip -/

/-- **JIDs from the wire re-encode to themselves** exactly when they have no agent of their own and their user and server
can be written. -/
theorem wire_jid_kept_iff (jid : JID) (h : ReadFromWire jid) (asString : Bool) :
    RoundTrip (writeJID jid) (fun fuel => read fuel asString) (.jid jid) ↔
      jid.rawAgent = 0 ∧ Writable jid.user ∧ Writable jid.server := by
  have hshape := h.shape
  constructor
  · intro hrt
    have hrt' := hrt
    obtain ⟨e, hw, -⟩ := hrt'
    obtain ⟨hu, hs⟩ := writable_of_writeJID (hw [])
    refine ⟨?_, hu, hs⟩
    by_contra hne
    have hserver := hshape.rawAgent hne
    -- without the agent the same is written, and read back without it
    have hform : WireForm { jid with rawAgent := 0 } :=
      ⟨rfl, hshape.integrator, hshape.device_ad, hshape.device_pair⟩
    have hback := roundTrip_writeJID_of_form hform hu hs asString
    rw [← writeJID_noAgent hserver] at hback
    have heq : jid = { jid with rawAgent := 0 } := by
      have := hrt.unique hback
      injection this
    exact hne (congrArg JID.rawAgent heq)
  · rintro ⟨ha, hu, hs⟩
    exact roundTrip_writeJID_of_form ⟨ha, hshape.integrator, hshape.device_ad, hshape.device_pair⟩ hu hs asString

/-- a group JID is read from a pair -/
theorem wire_jid_kept_group :
    ReadFromWire (newJID (ascii "1") groupServer) ∧
      RoundTrip (writeJID (newJID (ascii "1") groupServer)) (fun fuel => read fuel true)
        (.jid (newJID (ascii "1") groupServer)) := by
  have hread : ReadFromWire (newJID (ascii "1") groupServer) :=
    ⟨9, ⟨[252, 1, 49, 252, 4, 103, 46, 117, 115], 0⟩, ⟨[252, 1, 49, 252, 4, 103, 46, 117, 115], 9⟩, .inl rfl⟩
  exact ⟨hread, (wire_jid_kept_iff _ hread true).2 ⟨rfl, .inr (by decide), .inr (by decide)⟩⟩

/-- device 3 of a user, with agent 5 -/
def agentJID : JID := { user := ascii "1", rawAgent := 5, device := 3, server := defaultUserServer }

/-- **An agent is lost.** The JID is read from an AD form, written in the same form, and comes back without its agent. -/
theorem agent_lost :
    readADJID (read 5) ⟨[5, 3, 252, 1, 49], 0⟩ = (.ok agentJID, ⟨[5, 3, 252, 1, 49], 5⟩) ∧
      RoundTrip (writeJID agentJID) (fun fuel => read fuel true) (.jid { agentJID with rawAgent := 0 }) ∧
      ¬ RoundTrip (writeJID agentJID) (fun fuel => read fuel true) (.jid agentJID) := by
  have hwire : WireJID { agentJID with rawAgent := 0 } := by
    constructor <;> decide
  have hback := roundTrip_writeJID hwire true
  rw [← writeJID_noAgent rfl] at hback
  refine ⟨rfl, hback, fun hrt => ?_⟩
  have := hrt.unique hback
  injection this with heq
  exact absurd heq (by decide)

end Hypermeow.Binary
