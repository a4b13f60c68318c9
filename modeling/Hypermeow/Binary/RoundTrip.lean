/-
Round trip of the binary XML format.

What `Marshal` writes for a node tree is read back as the same tree in canonical form, whatever bytes follow. The
canonical form (`Node.canon`) is what the format can carry of a tree: integers, booleans and byte strings in attributes
are strings, empty attributes do not exist, an empty list is nil, and a content string without a form of its own is
bytes. `Node.Wire` collects the limits of the format: tags that are neither empty nor `"0"`, list headers of at most 16
bits, lengths below 2^31 - 1, and JIDs with no more data than their wire form has room for (`WireJID`).

- `roundTrip_writeJID`: the four JID forms.
- `roundTrip_node`, with values, lists and attributes by mutual induction over the tree.
-/
import Hypermeow.Binary.Strings

namespace Hypermeow.Binary

open Lib Types Binary.Token Go List

/-! ## JIDs -/

/-- the JIDs that have a wire form -/
structure WireJID (jid : JID) : Prop where
  user : jid.user.length < 2 ^ 31 - 1
  server : jid.server.length < 2 ^ 31 - 1
  rawAgent : jid.rawAgent = 0
  integrator : jid.server ≠ interopServer → jid.integrator = 0
  device_ad : IsADServer jid.server → jid.device ≤ 255
  device_pair : ¬ IsADServer jid.server → jid.server ≠ messengerServer → jid.server ≠ interopServer → jid.device = 0

variable {jid : JID}

theorem isADServer_of_isWrittenAsAD (h : isWrittenAsAD jid) : IsADServer jid.server := by
  rcases h with ⟨h | h, _⟩ | h | h
  · exact .inl h
  · exact .inr (.inl h)
  · exact .inr (.inr (.inl h))
  · exact .inr (.inr (.inr h))

/-- the JIDs with no more data than their wire form has room for, whatever the lengths of their user and server -/
structure WireForm (jid : JID) : Prop where
  rawAgent : jid.rawAgent = 0
  integrator : jid.server ≠ interopServer → jid.integrator = 0
  device_ad : IsADServer jid.server → jid.device ≤ 255
  device_pair : ¬ IsADServer jid.server → jid.server ≠ messengerServer → jid.server ≠ interopServer → jid.device = 0

theorem WireJID.form (h : WireJID jid) : WireForm jid :=
  ⟨h.rawAgent, h.integrator, h.device_ad, h.device_pair⟩

/-- a JID that is written as a pair has nothing but its user and its server -/
theorem WireForm.eq_newJID (h : WireForm jid) (had : ¬ isWrittenAsAD jid) (hm : jid.server ≠ messengerServer)
    (hi : jid.server ≠ interopServer) : jid = newJID jid.user jid.server := by
  have hdevice : jid.device = 0 := by
    by_cases hs : IsADServer jid.server
    · -- with a device it would have been written with its domain
      by_contra hne
      apply had
      have hpos : 0 < jid.device := UInt16.pos_iff_ne_zero.2 hne
      rcases hs with hs | hs | hs | hs
      · exact .inl ⟨.inl hs, hpos⟩
      · exact .inl ⟨.inr hs, hpos⟩
      · exact .inr (.inl hs)
      · exact .inr (.inr hs)
    · exact h.device_pair hs hm hi
  have hagent := h.rawAgent
  have hintegrator := h.integrator hi
  rcases jid with ⟨user, rawAgent, device, integrator, server⟩
  simp only at hdevice hagent hintegrator
  rw [hdevice, hagent, hintegrator]
  rfl

theorem WireForm.eq_newADJID (h : WireForm jid) (hs : IsADServer jid.server) :
    newADJID jid.user jid.actualAgent jid.device.toUInt8 = jid := by
  rw [newADJID_actualAgent hs]
  have hdevice : jid.device.toUInt8.toUInt16 = jid.device := by
    have := UInt16.le_iff_toNat_le.1 (h.device_ad hs)
    apply UInt16.toNat_inj.1
    rw [UInt8.toNat_toUInt16, UInt16.toNat_toUInt8]
    change jid.device.toNat ≤ 255 at this
    omega
  have hagent := h.rawAgent
  have hintegrator := h.integrator hs.ne_interop
  rcases jid with ⟨user, rawAgent, device, integrator, server⟩
  simp only at hdevice hagent hintegrator
  rw [hdevice, hagent, hintegrator]

/-- a string that can be written: it has a form of its own, or its length is below the limit of the encoder -/
def Writable (s : Bytes) : Prop := isCompact s = true ∨ s.length < 2 ^ 31 - 1

variable {s : Bytes}

theorem roundTrip_string (h : Writable s) : RoundTrip (writeString s) (fun fuel => read fuel true) (.string s) := by
  have := roundTrip_writeString h true
  rwa [Bool.true_or] at this

theorem roundTrip_pushInt16 (x : UInt16) : RoundTrip (pushInt16 x.toNat) (fun _ => readInt16 false) x.toNat :=
  roundTrip_pushIntN x.toNat_lt

theorem roundTrip_pushByte (b : UInt8) : RoundTrip (pushByte b) (fun _ => readByte) b :=
  .of_reads (writes_pushByte b) (reads_readByte b)

theorem roundTrip_pairUser {user : Bytes} (h : Writable user) :
    ∃ v, RoundTrip (writePairUser user) (fun fuel => read fuel true) v ∧ pairUser v = pure user := by
  unfold writePairUser
  split_ifs with h0
  · rw [length_eq_zero_iff.1 h0]
    exact ⟨.nil, roundTrip_tag fun _ => rfl, rfl⟩
  · exact ⟨.string user, roundTrip_string h, rfl⟩

/-- **JIDs are read back** in whichever of the four forms they are written. -/
theorem roundTrip_writeJID_of_form (h : WireForm jid) (hu : Writable jid.user) (hs : Writable jid.server)
    (asString : Bool) : RoundTrip (writeJID jid) (fun fuel => read fuel asString) (.jid jid) := by
  unfold writeJID
  split_ifs with had hm hi
  · apply roundTrip_tagged
    refine RoundTrip.map (r := fun fuel => readADJID (read fuel)) Value.jid ?_
    refine (roundTrip_pushByte jid.actualAgent).bind ((roundTrip_pushByte jid.device.toUInt8).bind
      ((roundTrip_string hu).bind_pure ?_))
    intro fuel
    change (pure (newADJID jid.user jid.actualAgent jid.device.toUInt8) : Dec JID) = _
    rw [h.eq_newADJID (isADServer_of_isWrittenAsAD had)]
  · apply roundTrip_tagged
    refine RoundTrip.map (r := fun fuel => readFBJID (read fuel)) Value.jid ?_
    refine (roundTrip_string hu).bind ((roundTrip_pushInt16 jid.device).bind
      ((roundTrip_string hs).bind_pure ?_))
    intro fuel
    have hagent := h.rawAgent
    have hintegrator := h.integrator (hm ▸ by decide)
    rcases jid with ⟨user, rawAgent, device, integrator, server⟩
    simp only at hm hagent hintegrator
    subst hm hagent hintegrator
    simp only [expectServer, if_true, expectString, pure_bind, UInt16.ofNat_toNat]
  · apply roundTrip_tagged
    refine RoundTrip.map (r := fun fuel => readInteropJID (read fuel)) Value.jid ?_
    refine (roundTrip_string hu).bind ((roundTrip_pushInt16 jid.device).bind
      ((roundTrip_pushInt16 jid.integrator).bind ((roundTrip_string hs).bind_pure ?_)))
    intro fuel
    have hagent := h.rawAgent
    rcases jid with ⟨user, rawAgent, device, integrator, server⟩
    simp only at hi hagent
    subst hi hagent
    simp only [expectServer, if_true, expectString, pure_bind, UInt16.ofNat_toNat]
  · apply roundTrip_tagged
    obtain ⟨v, hv, hpair⟩ := roundTrip_pairUser hu
    refine RoundTrip.map (r := fun fuel => readJIDPair (read fuel)) Value.jid ?_
    refine hv.bind ((roundTrip_string hs).bind_pure ?_)
    intro fuel
    simp only [expectString, pure_bind, hpair]
    rw [← h.eq_newJID had hm hi]

theorem roundTrip_writeJID (h : WireJID jid) (asString : Bool) :
    RoundTrip (writeJID jid) (fun fuel => read fuel asString) (.jid jid) :=
  roundTrip_writeJID_of_form h.form (.inr h.user) (.inr h.server) asString

/-! ## The canonical form of a tree -/

mutual

/-- what the format carries of a node -/
def Node.canon : Node → Node
  | ⟨tag, attrs, content⟩ => ⟨tag, canonAttrs attrs, content.canon false⟩

/-- what the format carries of a value, in an attribute (`asString`) or as content -/
def Value.canon : Value → Bool → Value
  | .nil, _ => .nil
  | .jid j, _ => .jid j
  | .string s, asString => if asString || isCompact s then .string s else .bytes s
  | .int i, _ => .string (formatInt i.toInt)
  | .uint u, _ => .string (formatUint u.toNat)
  | .bool b, _ => .string (formatBool b)
  | .bytes b, asString => if asString then .string b else .bytes b
  | .nodes ns, _ => if ns.isEmpty then .nil else .nodes (canonNodes ns)

def canonNodes : List Node → List Node
  | [] => []
  | n :: ns => n.canon :: canonNodes ns

def canonAttrs : Option (List (Bytes × Value)) → Option (List (Bytes × Value))
  | none => none
  | some as => if (canonEntries as).isEmpty then none else some (canonEntries as)

def canonEntries : List (Bytes × Value) → List (Bytes × Value)
  | [] => []
  | (key, val) :: as => if val.isSkipped then canonEntries as else (key, val.canon true) :: canonEntries as

end

mutual

/-- the trees within the limits of the format -/
def Node.Wire : Node → Prop
  | ⟨tag, attrs, content⟩ =>
    (tag ≠ [] ∧ tag ≠ ascii "0" ∧ tag.length < 2 ^ 31 - 1) ∧ headerSize attrs content ≤ 65535 ∧
      (Attrs.keys attrs).Nodup ∧ WireAttrs attrs ∧ content.Wire

def Value.Wire : Value → Prop
  | .jid j => WireJID j
  | .string s => s.length < 2 ^ 31 - 1
  | .bytes b => b.length < 2 ^ 31 - 1
  | .nodes ns => ns.length ≤ 65535 ∧ WireNodes ns
  | _ => True

def WireNodes : List Node → Prop
  | [] => True
  | n :: ns => n.Wire ∧ WireNodes ns

def WireAttrs : Option (List (Bytes × Value)) → Prop
  | none => True
  | some as => WireEntries as

def WireEntries : List (Bytes × Value) → Prop
  | [] => True
  | (key, val) :: as => (key.length < 2 ^ 31 - 1 ∧ val.Wire) ∧ WireEntries as

end

/-! ## Numbers and booleans as strings -/

theorem isCompact_of_nibbles (hlen : s.length ≤ packedMax) (h : ∀ b ∈ s, isDigit b = true ∨ b = 45) :
    isCompact s = true := by
  have hall : s.all isNibble = true := by
    rw [all_eq_true]
    intro b hb
    rcases h b hb with hd | rfl
    · simp [isNibble, hd]
    · rfl
  have hnibble : validateNibble s = true := by
    unfold validateNibble validatePacked
    rw [if_neg (by omega), hall]
  simp [isCompact, hnibble]

theorem isCompact_formatInt (i : Int64) : isCompact (formatInt i.toInt) = true := by
  have h1 := i.toInt_lt
  have h2 := i.le_toInt
  have hlen := length_formatInt_le (i := i.toInt) (k := 19) (by norm_num) (by norm_num; omega)
  exact isCompact_of_nibbles (hlen.trans (by decide)) fun b hb => mem_formatInt hb

theorem isCompact_formatUint (u : UInt64) : isCompact (formatUint u.toNat) = true := by
  have h := u.toNat_lt
  have hlen := length_formatUint_le (n := u.toNat) (k := 20) (by norm_num) (by norm_num; omega)
  exact isCompact_of_nibbles (hlen.trans (by decide)) fun b hb => .inl (mem_formatUint hb)

theorem isCompact_formatBool (b : Bool) : isCompact (formatBool b) = true := by
  cases b with
  | false =>
    have : (indexOfDoubleByteToken (formatBool false)).isSome :=
      indexOfDoubleByteToken_isSome (d := 0) (i := 15) (show doubleByteTokens[0]? = some dictionary0Tokens from rfl) rfl
    simp [isCompact, this]
  | true =>
    have : (indexOfSingleToken (formatBool true)).isSome :=
      indexOfSingleToken_isSome (i := 155) rfl (by decide)
    simp [isCompact, this]

/-- a string that has a form of its own is read back as a string also where bytes are asked for -/
theorem roundTrip_compact (hc : isCompact s = true) (asString : Bool) :
    RoundTrip (writeString s) (fun fuel => read fuel asString) (.string s) := by
  have := roundTrip_writeString (.inl hc) asString
  rwa [hc, Bool.or_true] at this

/-! ## List headers -/

variable {n : ℕ}

/-- a list header: its tag byte, and what `readListSize` makes of the rest; two bytes are written for every large size -/
theorem writeListStart_mod (hpos : 0 < n) :
    ∃ t e, ((UInt8.toNat t) = list8 ∨ UInt8.toNat t = list16) ∧ Writes (writeListStart n) (t :: e) ∧
      Reads (readListSize t.toNat) e (n % 65536) := by
  unfold writeListStart
  rw [if_neg (by omega)]
  split_ifs with h8
  · refine ⟨UInt8.ofNat list8, beBytes 1 n, .inl rfl, (writes_pushByte _).bind (writes_pushIntN n 1), ?_⟩
    have := reads_readIntN (beBytes 1 n)
    rw [length_beBytes, beNat_beBytes (by omega)] at this
    rwa [Nat.mod_eq_of_lt (by omega)]
  · refine ⟨UInt8.ofNat list16, beBytes 2 n, .inr rfl, (writes_pushByte _).bind (writes_pushIntN n 2), ?_⟩
    have := reads_readIntN (beBytes 2 n)
    rwa [length_beBytes, beNat, foldl_beBytes, Nat.zero_mul, Nat.zero_add] at this

theorem writeListStart_spec (hpos : 0 < n) (h : n ≤ 65535) :
    ∃ t e, ((UInt8.toNat t) = list8 ∨ UInt8.toNat t = list16) ∧ Writes (writeListStart n) (t :: e) ∧
      Reads (readListSize t.toNat) e n := by
  have hmod := writeListStart_mod hpos
  rwa [Nat.mod_eq_of_lt (by omega)] at hmod

theorem reads_tag (t : UInt8) : Reads (readInt8 false) [t] t.toNat := by
  simpa [beNat, readInt8] using reads_readIntN [t]

theorem roundTrip_listHeader (n : ℕ) :
    RoundTrip (writeListStart n) (fun _ => readInt8 false >>= readListSize) (n % 65536) := by
  rcases Nat.eq_zero_or_pos n with rfl | hpos
  · exact .of_reads (writes_pushByte _) ((reads_tag _).bind (Reads.pure 0))
  · obtain ⟨t, e, -, hw, hr⟩ := writeListStart_mod hpos
    exact .of_reads hw ((reads_tag t).bind hr)

/-- the list header of a node -/
theorem roundTrip_writeListStart (h : n ≤ 65535) :
    RoundTrip (writeListStart n) (fun _ => readInt8 false >>= readListSize) n := by
  have hmod := roundTrip_listHeader n
  rwa [Nat.mod_eq_of_lt (by omega)] at hmod

/-- **Length headers.** A byte length is read back as itself exactly when the encoder does not panic. The encoder panics for
no list size, and a list size is read back as itself exactly below 2^16. -/
theorem length_headers_iff (n : ℕ) :
    (RoundTrip (writeByteLength n) (fun _ => readInt8 false >>= readByteLength) n ↔ Go.NoPanic (writeByteLength n) []) ∧
    Go.NoPanic (writeListStart n) [] ∧
    (RoundTrip (writeListStart n) (fun _ => readInt8 false >>= readListSize) n ↔ n < 65536) := by
  refine ⟨⟨?_, fun hpanic => ?_⟩, ?_, ⟨fun h => ?_, fun h => roundTrip_writeListStart (by omega)⟩⟩
  · rintro ⟨e, hw, -⟩
    simp [Go.NoPanic, hw []]
  · have hlt : n < 2 ^ 31 - 1 := by
      by_contra hge
      rw [writeByteLength, if_neg (by omega), if_neg (by omega), if_neg hge] at hpanic
      exact hpanic rfl
    obtain ⟨t, w, -, hwrite, e, hw, hr⟩ := roundTrip_writeByteLength hlt
    rw [hwrite]
    exact .of_reads ((writes_pushByte t).bind hw) ((reads_tag t).bind (hr _ le_rfl))
  · obtain ⟨e, hw, -⟩ := roundTrip_listHeader n
    simp [Go.NoPanic, hw []]
  · rw [h.unique (roundTrip_listHeader n)]
    exact Nat.mod_lt n (by decide)

/-- **A list of 65536.** Its size is written as 0. -/
theorem list_size_lost : writeListStart 65536 [] = (.ok (), [249, 0, 0]) ∧
    (readInt8 false >>= readListSize) ⟨[249, 0, 0], 0⟩ = (.ok 0, ⟨[249, 0, 0], 3⟩) :=
  ⟨rfl, rfl⟩

/-- a list behind its header -/
theorem roundTrip_list {w : Enc Unit} {ns : List Node} {asString : Bool} (hpos : 0 < n) (h : n ≤ 65535)
    (hw : RoundTrip w (fun fuel => readListLoop (read fuel) n []) ns) :
    RoundTrip (writeListStart n >>= fun _ => w) (fun fuel => read fuel asString) (.nodes ns) := by
  obtain ⟨t, e, ht, hws, hrs⟩ := writeListStart_spec hpos h
  obtain ⟨e', hw', hr'⟩ := hw
  refine ⟨t :: e ++ e', hws.bind hw', ?_⟩
  intro fuel hf
  rw [cons_append, length_cons, length_append] at hf
  obtain ⟨fuel, rfl⟩ : ∃ m, fuel = m + 1 := ⟨fuel - 1, by omega⟩
  have hread : Reads (readList (read fuel) t.toNat) (e ++ e') ns := hrs.bind (hr' fuel (by omega))
  have htag : readTagged (read fuel) asString t.toNat = .nodes <$> readList (read fuel) t.toNat := by
    rcases ht with ht | ht <;> rw [ht] <;> rfl
  apply reads_tagged
  rw [htag]
  exact hread.map Value.nodes

/-! ## Attributes that are skipped -/

theorem countAttributes_cons (key : Bytes) (val : Value) (as : List (Bytes × Value)) :
    countAttributes ((key, val) :: as) = (if val.isSkipped then 0 else 1) + countAttributes as := by
  unfold countAttributes
  cases h : val.isSkipped <;> simp [h, Nat.add_comm]

theorem length_canonEntries (as : List (Bytes × Value)) : (canonEntries as).length = countAttributes as := by
  induction as with
  | nil => simp [canonEntries, countAttributes]
  | cons p as ih =>
    rcases p with ⟨key, val⟩
    rw [canonEntries, countAttributes_cons]
    split_ifs
    · rw [ih, Nat.zero_add]
    · rw [length_cons, ih, Nat.add_comm]

theorem writeEntries_of_count_zero {as : List (Bytes × Value)} (h : countAttributes as = 0) :
    writeEntries as = pure () := by
  induction as with
  | nil => simp [writeEntries]
  | cons p as ih =>
    rcases p with ⟨key, val⟩
    rw [countAttributes_cons] at h
    have hskip : val.isSkipped = true := by
      by_contra hc
      rw [if_neg hc] at h
      omega
    rw [writeEntries, if_pos hskip]
    exact ih (by omega)

/-! ## Trees -/

/-- the content behind a header of this size -/
theorem roundTrip_content {content : Value} {size : ℕ} {v : Value}
    (hsize : size % 2 = if content.isNil then 1 else 0) (hnil : content.isNil = true → v = .nil)
    (h : RoundTrip (write content) (fun fuel => read fuel false) v) :
    RoundTrip (if content.isNil then pure () else write content) (fun fuel => readContent (read fuel) size) v := by
  by_cases hc : content.isNil = true
  · rw [if_pos hc] at hsize ⊢
    simp only [readContent, hsize, if_true, hnil hc]
    exact RoundTrip.pure _
  · rw [if_neg hc] at hsize ⊢
    simp only [readContent, hsize, Nat.zero_ne_one, if_false]
    exact h

/-- the attributes, given that the loop over their entries reads them back -/
theorem roundTrip_attributes {attrs : Attrs}
    (h : ∀ as, attrs = some as → RoundTrip (writeEntries as)
      (fun fuel => readAttributesLoop (read fuel) (countAttributes as) []) (canonEntries as)) :
    RoundTrip (writeAttributes attrs) (fun fuel => readAttributes (read fuel) (countAttributes attrs.entries))
      (canonAttrs attrs) := by
  cases attrs with
  | none =>
    simp only [writeAttributes, canonAttrs]
    exact RoundTrip.pure none
  | some as =>
    have hlen := length_canonEntries as
    simp only [writeAttributes, canonAttrs, readAttributes, Attrs.entries, Option.getD_some]
    by_cases h0 : countAttributes as = 0
    · have hnil : canonEntries as = [] := length_eq_zero_iff.1 (hlen.trans h0)
      simp only [h0, if_true, hnil, isEmpty_nil, writeEntries_of_count_zero h0]
      exact RoundTrip.pure none
    · have hne : (canonEntries as).isEmpty = false := by
        rw [isEmpty_eq_false_iff]
        intro hnil
        rw [hnil] at hlen
        exact h0 hlen.symm
      simp only [h0, if_false, hne, Bool.false_eq_true]
      exact (h as rfl).map some

/-- a node, given that its attributes and its content are read back -/
theorem roundTrip_node_of {tag : Bytes} {attrs : Attrs} {content : Value}
    (htag : tag ≠ [] ∧ tag ≠ ascii "0" ∧ tag.length < 2 ^ 31 - 1) (hsize : headerSize attrs content ≤ 65535)
    (hattrs : RoundTrip (writeAttributes attrs) (fun fuel => readAttributes (read fuel) (countAttributes attrs.entries))
      (canonAttrs attrs))
    (hcontent : RoundTrip (write content) (fun fuel => read fuel false) (content.canon false)) :
    RoundTrip (writeNode ⟨tag, attrs, content⟩) (fun fuel => readNode (read fuel)) (Node.canon ⟨tag, attrs, content⟩) := by
  have hpos : headerSize attrs content ≠ 0 := by
    unfold headerSize
    omega
  have hhalf : (headerSize attrs content - 1) >>> 1 = countAttributes attrs.entries := by
    unfold headerSize
    rw [Nat.shiftRight_eq_div_pow]
    split_ifs <;> omega
  have hparity : headerSize attrs content % 2 = if content.isNil then 1 else 0 := by
    unfold headerSize
    split_ifs <;> omega
  have hnil : content.isNil = true → content.canon false = .nil := by
    intro hc
    cases content <;> first | rfl | cases hc
  have hread : ∀ fuel, readNode (read fuel) =
      (readInt8 false >>= readListSize) >>= fun listSize => readNodeBody (read fuel) listSize := by
    intro fuel
    rw [bind_assoc]
    rfl
  rw [writeNode, if_neg htag.2.1, Node.canon]
  simp only [hread]
  refine (roundTrip_writeListStart hsize).bind ((roundTrip_string (.inr htag.2.2)).bind ?_)
  simp only [expectString, pure_bind, hpos, htag.1, or_self, if_false, hhalf]
  exact hattrs.bind (RoundTrip.map (Node.mk tag (canonAttrs attrs)) (roundTrip_content hparity hnil hcontent))

mutual

theorem roundTrip_node : ∀ n : Node, n.Wire → RoundTrip (writeNode n) (fun fuel => readNode (read fuel)) n.canon
  | ⟨tag, none, content⟩, h => by
    simp only [Node.Wire] at h
    obtain ⟨htag, hsize, -, -, hcontent⟩ := h
    refine roundTrip_node_of htag hsize (roundTrip_attributes fun as has => ?_) (roundTrip_value content hcontent false)
    cases has
  | ⟨tag, some as, content⟩, h => by
    simp only [Node.Wire, WireAttrs] at h
    obtain ⟨htag, hsize, hkeys, hattrs, hcontent⟩ := h
    have hentries := roundTrip_entries as [] hattrs hkeys (by simp)
    refine roundTrip_node_of htag hsize (roundTrip_attributes fun as' has => ?_) (roundTrip_value content hcontent false)
    cases has
    exact hentries

theorem roundTrip_value : ∀ (v : Value), v.Wire → ∀ asString : Bool,
    RoundTrip (write v) (fun fuel => read fuel asString) (v.canon asString)
  | .nil, _, asString => by
    simp only [write, Value.canon]
    exact roundTrip_tag fun _ => rfl
  | .jid j, h, asString => by
    simp only [write, Value.canon]
    exact roundTrip_writeJID h asString
  | .string s, h, asString => by
    simp only [write, Value.canon]
    exact roundTrip_writeString (.inr h) asString
  | .int i, _, asString => by
    simp only [write, Value.canon]
    exact roundTrip_compact (isCompact_formatInt i) asString
  | .uint u, _, asString => by
    simp only [write, Value.canon]
    exact roundTrip_compact (isCompact_formatUint u) asString
  | .bool b, _, asString => by
    simp only [write, Value.canon]
    exact roundTrip_compact (isCompact_formatBool b) asString
  | .bytes b, h, asString => by
    simp only [write, Value.canon]
    exact roundTrip_writeBytes h asString
  | .nodes [], _, asString => by
    simp only [write, writeNodes, Value.canon, isEmpty_nil, if_true]
    exact roundTrip_tag fun _ => rfl
  | .nodes (n :: ns), h, asString => by
    simp only [Value.Wire] at h
    simp only [write, Value.canon, isEmpty_cons, Bool.false_eq_true, if_false]
    exact roundTrip_list (Nat.succ_pos _) h.1 (roundTrip_nodes (n :: ns) [] h.2)

theorem roundTrip_nodes : ∀ (ns acc : List Node), WireNodes ns →
    RoundTrip (writeNodes ns) (fun fuel => readListLoop (read fuel) ns.length acc) (acc ++ canonNodes ns)
  | [], acc, _ => by
    simp only [writeNodes, canonNodes, append_nil]
    exact RoundTrip.pure acc
  | n :: ns, acc, h => by
    simp only [WireNodes] at h
    have htail := roundTrip_nodes ns (acc ++ [n.canon]) h.2
    rw [append_assoc] at htail
    simp only [writeNodes, canonNodes]
    exact (roundTrip_node n h.1).bind htail

/-- the keys that were read already are not among those to come -/
theorem roundTrip_entries : ∀ (as acc : List (Bytes × Value)), WireEntries as → (as.map Prod.fst).Nodup →
    (∀ key ∈ as.map Prod.fst, key ∉ acc.map Prod.fst) →
    RoundTrip (writeEntries as) (fun fuel => readAttributesLoop (read fuel) (countAttributes as) acc)
      (acc ++ canonEntries as)
  | [], acc, _, _, _ => by
    simp only [writeEntries, canonEntries, append_nil]
    exact RoundTrip.pure acc
  | (key, val) :: as, acc, h, hnodup, hacc => by
    simp only [WireEntries] at h
    rw [map_cons, nodup_cons] at hnodup
    simp only [writeEntries, canonEntries, countAttributes_cons]
    by_cases hskip : val.isSkipped = true
    · simp only [hskip, if_true, Nat.zero_add]
      exact roundTrip_entries as acc h.2 hnodup.2 fun k hk => hacc k (mem_cons_of_mem _ hk)
    · have hnew : key ∉ acc.map Prod.fst := hacc key (by simp)
      have htail := roundTrip_entries as (acc ++ [(key, val.canon true)]) h.2 hnodup.2 (by
        intro k hk hmem
        rw [map_append, mem_append] at hmem
        rcases hmem with hmem | hmem
        · exact hacc k (mem_cons_of_mem _ hk) hmem
        · rw [mem_singleton.1 hmem] at hk
          exact hnodup.1 hk)
      rw [append_assoc, ← Attrs.set_of_notMem hnew] at htail
      simp only [hskip, if_false, Bool.false_eq_true, Nat.add_comm 1]
      exact (roundTrip_string (.inr h.1.1)).bind ((roundTrip_value val h.1.2 true).bind htail)

end

/-! ## `Marshal` and `Unmarshal` -/

/-- **Binary XML round trip.** Decoding what `Marshal` wrote, with any bytes after it, gives the canonical form of the
node and leaves exactly those bytes unread; `Unmarshal` returns that node, with an error when there are such bytes. -/
theorem readNode_marshal (n : Node) (h : n.Wire) :
    ∃ data, marshal n = .ok (0 :: data) ∧ ∀ rest : Bytes,
      readNode (read (data ++ rest).length) (newDecoder (data ++ rest)) = (.ok n.canon, ⟨data ++ rest, data.length⟩) ∧
      unmarshal (data ++ rest) = .ok (n.canon, if rest = [] then none else some (.leftover rest.length)) := by
  obtain ⟨e, hw, hr⟩ := roundTrip_node n h
  refine ⟨e, ?_, ?_⟩
  · unfold marshal
    rw [bind_ok (hw newEncoder)]
    rfl
  · intro rest
    have hlen : (e ++ rest).length = e.length + rest.length := length_append
    have hread := hr (e ++ rest).length (by omega) [] rest
    rw [nil_append, length_nil, Nat.zero_add] at hread
    refine ⟨hread, ?_⟩
    unfold unmarshal newDecoder
    rw [bind_ok hread, get_bind, pure_run]
    simp only [hlen, Nat.add_sub_cancel_left]
    rcases rest with _ | ⟨b, rest⟩
    · simp
    · simp

/-- a query with a JID, an empty and a numeric attribute, and one child with text content -/
def pingQuery : Node :=
  { tag := ascii "iq"
    attrs := some [(ascii "to", .jid { user := ascii "15551234", device := 3, server := defaultUserServer }),
      (ascii "hint", .string []), (ascii "t", .int 1700000000)]
    content := .nodes [{ tag := ascii "ping", attrs := some [], content := .string (ascii "Hello") }] }

theorem readNode_marshal_pingQuery :
    pingQuery.Wire ∧ ∃ data, marshal pingQuery = .ok (0 :: data) ∧ ∀ rest : Bytes,
      readNode (read (data ++ rest).length) (newDecoder (data ++ rest)) =
        (.ok pingQuery.canon, ⟨data ++ rest, data.length⟩) ∧
      unmarshal (data ++ rest) = .ok (pingQuery.canon, if rest = [] then none else some (.leftover rest.length)) := by
  have hjid : WireJID { user := ascii "15551234", device := 3, server := defaultUserServer } :=
    ⟨by decide, by decide, rfl, fun _ => rfl, fun _ => by decide, fun h => absurd (.inl rfl) h⟩
  have h : pingQuery.Wire := by
    simp only [pingQuery, Node.Wire, Value.Wire, WireNodes, WireAttrs, WireEntries, hjid]
    decide
  exact ⟨h, readNode_marshal pingQuery h⟩

end Hypermeow.Binary
