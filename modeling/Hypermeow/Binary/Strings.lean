/-
Numbers, byte strings and strings read back from their binary XML form.

- `reads_readIntN`, `reads_readInt20`: the numbers of `pushIntN` and `pushInt20`.
- `RoundTrip.tagged`: a value behind its tag byte, for one unit of `read`'s fuel.
- `roundTrip_writeBytes`: byte strings in the three length classes.
- `roundTrip_writePackedBytes`: nibble and hex strings, the odd ones included.
-/
import Hypermeow.Binary.Encoder
import Hypermeow.Binary.Decoder

namespace Hypermeow.Binary

open Lib Types Binary.Token Go List

/-! ## Bytes and numbers -/

theorem writes_pushByte (b : UInt8) : Writes (pushByte b) [b] := fun _ => rfl

theorem writes_pushBytes (bs : Bytes) : Writes (pushBytes bs) bs := fun _ => rfl

theorem writes_forM (l : List ℕ) (g : ℕ → UInt8) : Writes (l.forM fun i => pushByte (g i)) (l.map g) := by
  induction l with
  | nil => exact Writes.pure
  | cons i l ih => exact (writes_pushByte (g i)).bind ih

theorem byteAt_eq (value shift : ℕ) : byteAt value shift = UInt8.ofNat (value / 256 ^ shift) := by
  have hpow : 2 ^ (shift * 8) = 256 ^ shift := by
    rw [Nat.mul_comm, pow_mul]
    norm_num
  have hand : value >>> (shift * 8) &&& 0xFF = value / 256 ^ shift % 2 ^ 8 := by
    rw [Nat.shiftRight_eq_div_pow, hpow]
    exact Nat.and_two_pow_sub_one_eq_mod _ 8
  rw [byteAt, hand]
  exact UInt8.toNat_inj.1 (by simp)

theorem beBytes_eq_map (n value : ℕ) : beBytes n value = (List.range n).map fun i => byteAt value (n - i - 1) := by
  induction n with
  | zero => rfl
  | succ n ih =>
    rw [beBytes, ih, range_succ_eq_map, map_cons, map_map, byteAt_eq]
    congr 1
    apply map_congr_left
    intro i _
    change byteAt value (n - i - 1) = byteAt value (n + 1 - (i + 1) - 1)
    congr 1
    omega

theorem writes_pushIntN (value n : ℕ) : Writes (pushIntN value n false) (beBytes n value) := by
  rw [beBytes_eq_map]
  exact writes_forM _ _

variable {n : ℕ}

theorem checkEOS_run {r : Cursor UInt8} (h : r.index + n ≤ r.data.length) : checkEOS n r = (.ok (), r) := by
  change (if r.index + n > r.data.length then Go.throw DecodeError.eof else pure () : Dec Unit) r = _
  rw [if_neg (by omega)]
  rfl

theorem reads_readByte (b : UInt8) : Reads readByte [b] b := by
  intro before after
  have hle : before.length + 1 ≤ (before ++ ([b] ++ after)).length := by simp
  have hget : (before ++ ([b] ++ after))[before.length]? = some b := by simp
  unfold readByte
  rw [bind_ok (checkEOS_run hle), get_bind, Slice.index, hget]
  rfl

/-- the loop of `readIntN` over the bytes `l`, after the number `acc` made of the bytes before them -/
theorem readIntNLoop_run (l : Bytes) (n acc : ℕ) (r : Cursor UInt8) (hn : l.length ≤ n)
    (hl : ∀ i < l.length, r.data[r.index + (n - l.length) + i]? = l[i]?) :
    readIntNLoop n false l.length (acc <<< (l.length * 8)) r =
      (.ok (l.foldl (fun acc b => acc * 256 + b.toNat) acc), r) := by
  induction l generalizing acc with
  | nil => simp [readIntNLoop]
  | cons b l ih =>
    rw [length_cons] at hn
    have hget : r.data[r.index + (n - (l.length + 1))]? = some b := hl 0 (by simp)
    have hshift : n - (n - (l.length + 1)) - 1 = l.length := by omega
    have hor : acc <<< ((l.length + 1) * 8) ||| b.toNat <<< (l.length * 8) =
        (acc * 256 + b.toNat) <<< (l.length * 8) := by
      have hb : b.toNat < 2 ^ 8 := b.toNat_lt
      rw [Nat.add_mul, Nat.one_mul, Nat.add_comm, Nat.shiftLeft_add, ← Nat.shiftLeft_or_distrib,
        ← Nat.shiftLeft_add_eq_or_of_lt hb, Nat.shiftLeft_eq acc]
    have hrest : ∀ i < l.length, r.data[r.index + (n - l.length) + i]? = l[i]? := by
      intro i hi
      have := hl (i + 1) (by simpa using hi)
      rw [getElem?_cons_succ] at this
      rw [← this]
      congr 1
      rw [length_cons]
      omega
    rw [length_cons, readIntNLoop, get_bind]
    simp only [Slice.index, hget, pure_bind, hshift, Bool.false_eq_true, if_false, hor]
    exact ih (acc * 256 + b.toNat) (by omega) hrest

theorem reads_readIntN (e : Bytes) : Reads (readIntN e.length false) e (beNat e) := by
  intro before after
  have hle : before.length + e.length ≤ (before ++ (e ++ after)).length := by
    simp only [length_append]
    omega
  have hget : ∀ i < e.length, (before ++ (e ++ after))[before.length + (e.length - e.length) + i]? = e[i]? := by
    intro i hi
    rw [Nat.sub_self, Nat.add_zero, getElem?_append_right (by omega), Nat.add_sub_cancel_left,
      getElem?_append_left hi]
  have hloop := readIntNLoop_run e e.length 0 ⟨before ++ (e ++ after), before.length⟩ le_rfl hget
  rw [Nat.zero_shiftLeft] at hloop
  unfold readIntN
  rw [bind_ok (checkEOS_run hle), bind_ok hloop]
  rfl

theorem roundTrip_pushIntN {value : ℕ} (h : value < 256 ^ n) :
    RoundTrip (pushIntN value n false) (fun _ => readIntN n false) value := by
  have hr := reads_readIntN (beBytes n value)
  rw [length_beBytes, beNat_beBytes h] at hr
  exact .of_reads (writes_pushIntN value n) hr

theorem roundTrip_pushInt20 {value : ℕ} (h : value < 2 ^ 20) :
    RoundTrip (pushInt20 value) (fun _ => readInt20) value := by
  refine .of_reads (writes_pushBytes _) ?_
  intro before after
  have hle : ∀ a b c : UInt8, before.length + 3 ≤ (before ++ ([a, b, c] ++ after)).length := by
    intro a b c
    simp only [length_append, length_cons, length_nil]
    omega
  have hvalue : ((UInt8.ofNat (value >>> 16 &&& 0x0F)).toNat &&& 15) <<< 16 +
      (UInt8.ofNat (value >>> 8 &&& 0xFF)).toNat <<< 8 + (UInt8.ofNat (value &&& 0xFF)).toNat = value := by
    have h15 : ∀ m : ℕ, m &&& 15 = m % 16 := fun m => Nat.and_two_pow_sub_one_eq_mod m 4
    have h255 : ∀ m : ℕ, m &&& 255 = m % 256 := fun m => Nat.and_two_pow_sub_one_eq_mod m 8
    simp only [h15, h255, UInt8.toNat_ofNat', Nat.shiftRight_eq_div_pow, Nat.shiftLeft_eq]
    omega
  unfold readInt20
  rw [bind_ok (checkEOS_run (hle _ _ _)), get_bind]
  simp only [Slice.index, cons_append, nil_append, getElem?_append_right (Nat.le_add_right _ _),
    getElem?_append_right le_rfl, Nat.add_sub_cancel_left, Nat.sub_self, getElem?_cons_zero,
    getElem?_cons_succ]
  change (Outcome.ok _, _) = _
  rw [hvalue]
  rfl

theorem reads_readRaw (e : Bytes) : Reads (readRaw e.length) e e := by
  intro before after
  have hle : before.length + e.length ≤ (before ++ (e ++ after)).length := by
    simp only [length_append]
    omega
  have htake : (before ++ (e ++ after)).take (before.length + e.length) = before ++ e := by
    rw [← append_assoc, take_left' (length_append)]
  have hle' : before.length ≤ (before ++ e).length := by simp
  unfold readRaw
  rw [bind_ok (checkEOS_run hle), get_bind, bind_ok (Slice.upTo_run hle _), htake,
    bind_ok (Slice.since_run hle' _), drop_left]
  rfl

/-! ## Values behind their tag -/

variable {t : UInt8} {asString : Bool} {v : Value}

/-- one unit of fuel pays for the tag byte -/
theorem reads_tagged {e : Bytes} {fuel : ℕ}
    (h : Reads (readTagged (read fuel) asString t.toNat) e v) : Reads (read (fuel + 1) asString) (t :: e) v :=
  (reads_readByte t).bind h

theorem roundTrip_tagged {w : Enc Unit} (h : RoundTrip w (fun fuel => readTagged (read fuel) asString t.toNat) v) :
    RoundTrip (pushByte t >>= fun _ => w) (fun fuel => read fuel asString) v := by
  obtain ⟨e, hw, hr⟩ := h
  refine ⟨t :: e, (writes_pushByte t).bind hw, ?_⟩
  intro fuel hf
  rw [length_cons] at hf
  obtain ⟨fuel, rfl⟩ : ∃ m, fuel = m + 1 := ⟨fuel - 1, by omega⟩
  exact reads_tagged (hr fuel (by omega))

/-- a value that is its tag -/
theorem roundTrip_tag
    (h : ∀ rd, readTagged rd asString t.toNat = pure v) :
    RoundTrip (pushByte t) (fun fuel => read fuel asString) v := by
  have hr : RoundTrip (pure () : Enc Unit) (fun fuel => readTagged (read fuel) asString t.toNat) v := by
    simp only [h]
    exact RoundTrip.pure v
  exact roundTrip_tagged hr

/-! ## Byte strings -/

/-- what `readBytesOrString` makes of the bytes -/
def bytesOrString (asString : Bool) (bs : Bytes) : Value := if asString then .string bs else .bytes bs

theorem reads_readBytesOrString (bs : Bytes) (asString : Bool) :
    Reads (readBytesOrString bs.length asString) bs (bytesOrString asString bs) :=
  (reads_readRaw bs).map (bytesOrString asString)

/-- what `read` makes of the length behind a tag for bytes -/
def readByteLength (tag : ℕ) : Dec ℕ :=
  if tag = binary8 then readInt8 false else if tag = binary20 then readInt20 else readInt32 false

/-- a length in one of the three classes -/
theorem roundTrip_writeByteLength (h : n < 2 ^ 31 - 1) :
    ∃ (t : UInt8) (w : Enc Unit), t.toNat ∈ [binary8, binary20, binary32] ∧
      writeByteLength n = (pushByte t >>= fun _ => w) ∧ RoundTrip w (fun _ => readByteLength t.toNat) n := by
  unfold writeByteLength
  split_ifs with h8 h20
  · exact ⟨UInt8.ofNat binary8, pushInt8 n, by decide, rfl, roundTrip_pushIntN (n := 1) (by simpa using h8)⟩
  · exact ⟨UInt8.ofNat binary20, pushInt20 n, by decide, rfl, roundTrip_pushInt20 h20⟩
  · exact ⟨UInt8.ofNat binary32, pushInt32 n, by decide, rfl, roundTrip_pushIntN (n := 4) (by omega)⟩

/-- a length, then the bytes -/
theorem roundTrip_writeBytes {bs : Bytes} (h : bs.length < 2 ^ 31 - 1) (asString : Bool) :
    RoundTrip (writeBytes bs) (fun fuel => read fuel asString) (bytesOrString asString bs) := by
  have hraw : RoundTrip (pushBytes bs) (fun _ => readBytesOrString bs.length asString) (bytesOrString asString bs) :=
    .of_reads (writes_pushBytes bs) (reads_readBytesOrString bs asString)
  obtain ⟨t, w, ht, hwrite, hlength⟩ := roundTrip_writeByteLength h
  have hread : ∀ rd, readTagged rd asString t.toNat =
      readByteLength t.toNat >>= fun size => readBytesOrString size asString := by
    simp only [mem_cons, not_mem_nil, or_false] at ht
    rcases ht with ht | ht | ht <;> rw [ht] <;> exact fun _ => rfl
  rw [writeBytes, hwrite, bind_assoc]
  apply roundTrip_tagged
  simp only [hread]
  exact hlength.bind hraw

/-! ## Packed strings -/

/-- a packer and the tag under which its characters are unpacked again -/
structure Packing (tag : ℕ) (packer : UInt8 → Enc UInt8) (isValid : UInt8 → Bool) : Prop where
  char : ∀ c, isValid c = true → ∃ v, packer c = pure v ∧ unpackByte tag v = pure c ∧ v < 16
  /-- the filler of an odd string is packed too, and unpacked to something -/
  filler : ∃ v c, packer 0 = pure v ∧ unpackByte tag v = pure c ∧ v < 16
  packerOf : packerOf tag = pure packer
  readTagged : ∀ rd asString, readTagged rd asString tag = .string <$> readPacked8 tag
  tag_lt : tag < 256

theorem isNibble_mem {c : UInt8} (h : isNibble c = true) : c ∈ ascii "0123456789-." := by
  have hall : ∀ n < 256, isNibble (UInt8.ofNat n) = true → UInt8.ofNat n ∈ ascii "0123456789-." := by decide +kernel
  have := hall c.toNat c.toNat_lt
  rw [UInt8.ofNat_toNat] at this
  exact this h

theorem isHex_mem {c : UInt8} (h : isHex c = true) : c ∈ ascii "0123456789ABCDEF" := by
  have hall : ∀ n < 256, isHex (UInt8.ofNat n) = true → UInt8.ofNat n ∈ ascii "0123456789ABCDEF" := by decide +kernel
  have := hall c.toNat c.toNat_lt
  rw [UInt8.ofNat_toNat] at this
  exact this h

theorem packing_nibble : Packing nibble8 packNibble isNibble where
  char := by
    intro c hc
    have hmem : c ∈ [48, 49, 50, 51, 52, 53, 54, 55, 56, 57, 45, 46] := isNibble_mem hc
    simp only [mem_cons, not_mem_nil, or_false] at hmem
    rcases hmem with rfl | rfl | rfl | rfl | rfl | rfl | rfl | rfl | rfl | rfl | rfl | rfl <;>
      exact ⟨_, rfl, rfl, by decide⟩
  filler := ⟨15, 0, rfl, rfl, by decide⟩
  packerOf := rfl
  readTagged := fun _ _ => rfl
  tag_lt := by decide

theorem packing_hex : Packing hex8 packHex isHex where
  char := by
    intro c hc
    have hmem : c ∈ [48, 49, 50, 51, 52, 53, 54, 55, 56, 57, 65, 66, 67, 68, 69, 70] := isHex_mem hc
    simp only [mem_cons, not_mem_nil, or_false] at hmem
    rcases hmem with rfl | rfl | rfl | rfl | rfl | rfl | rfl | rfl | rfl | rfl | rfl | rfl | rfl | rfl | rfl | rfl <;>
      exact ⟨_, rfl, rfl, by decide⟩
  filler := ⟨15, 70, rfl, rfl, by decide⟩
  packerOf := rfl
  readTagged := fun _ _ => rfl
  tag_lt := by decide

theorem nibbles_of_pair {a b : UInt8} (ha : a < 16) (hb : b < 16) :
    ((a <<< 4 ||| b) &&& 0xF0) >>> 4 = a ∧ (a <<< 4 ||| b) &&& 0x0F = b := by
  have hall : ∀ m < 16, ∀ n < 16,
      ((UInt8.ofNat m <<< 4 ||| UInt8.ofNat n) &&& 0xF0) >>> 4 = UInt8.ofNat m ∧
        (UInt8.ofNat m <<< 4 ||| UInt8.ofNat n) &&& 0x0F = UInt8.ofNat n := by decide +kernel
  have := hall a.toNat (UInt8.lt_iff_toNat_lt.1 ha) b.toNat (UInt8.lt_iff_toNat_lt.1 hb)
  rwa [UInt8.ofNat_toNat, UInt8.ofNat_toNat] at this

/-- the length byte: the number of packed bytes, and the odd flag -/
theorem packedLength_spec (h : n ≤ packedMax) :
    (packedLength n &&& 127).toNat = (n + 1) / 2 ∧ (packedLength n >>> 7 ≠ 0 ↔ n % 2 = 1) := by
  have hall : ∀ n < 128,
      (packedLength n &&& 127).toNat = (n + 1) / 2 ∧ (packedLength n >>> 7 ≠ 0 ↔ n % 2 = 1) := by decide +kernel
  exact hall n (Nat.lt_succ_of_le h)

section

variable {tag : ℕ} {packer : UInt8 → Enc UInt8} {isValid : UInt8 → Bool}

/-- one packed byte -/
theorem reads_pair {c d u v : UInt8} {n : ℕ} {build e ret : Bytes} (hu : unpackByte tag u = pure c) (hu16 : u < 16)
    (hv : unpackByte tag v = pure d) (hv16 : v < 16)
    (h : Reads (readPackedLoop tag n (build ++ [c, d])) e ret) :
    Reads (readPackedLoop tag (n + 1) build) ((u <<< 4 ||| v) :: e) ret := by
  obtain ⟨hhigh, hlow⟩ := nibbles_of_pair hu16 hv16
  refine (reads_readByte (u <<< 4 ||| v)).bind ?_
  simp only [hhigh, hlow, hu, hv, pure_bind]
  exact h

theorem packPairs_spec (h : Packing tag packer isValid) : ∀ s : Bytes, s.all isValid = true →
    ∃ e odd, Writes (packPairs packer s) e ∧ e.length = (s.length + 1) / 2 ∧ odd.length = s.length % 2 ∧
      ∀ build, Reads (readPackedLoop tag e.length build) e (build ++ (s ++ odd))
  | [], _ => ⟨[], [], Writes.pure, rfl, rfl, fun build => by simpa [readPackedLoop] using Reads.pure build⟩
  | [c], hs => by
    obtain ⟨u, hpu, hu, hu16⟩ := h.char c (by simpa using hs)
    obtain ⟨v, d, hpv, hv, hv16⟩ := h.filler
    refine ⟨[u <<< 4 ||| v], [d], ?_, by simp, by simp, ?_⟩
    · simp only [packPairs, packBytePair, hpu, hpv, pure_bind]
      exact writes_pushByte _
    · intro build
      exact reads_pair hu hu16 hv hv16 (Reads.pure _)
  | c :: d :: s, hs => by
    rw [all_cons, all_cons, Bool.and_eq_true, Bool.and_eq_true] at hs
    obtain ⟨u, hpu, hu, hu16⟩ := h.char c hs.1
    obtain ⟨v, hpv, hv, hv16⟩ := h.char d hs.2.1
    obtain ⟨e, odd, hw, he, hodd, hr⟩ := packPairs_spec h s hs.2.2
    refine ⟨(u <<< 4 ||| v) :: e, odd, ?_, ?_, ?_, ?_⟩
    · simp only [packPairs, packBytePair, hpu, hpv, pure_bind]
      exact (writes_pushByte _).bind hw
    · simp only [length_cons]
      omega
    · simp only [length_cons]
      omega
    · intro build
      have := hr (build ++ [c, d])
      rw [append_assoc] at this
      exact reads_pair hu hu16 hv hv16 this

theorem dropOdd_spec {s odd : Bytes} (hs : s.length ≤ packedMax) (hodd : odd.length = s.length % 2) :
    dropOdd (packedLength s.length) (s ++ odd) = pure s := by
  have hflag := (packedLength_spec hs).2
  unfold dropOdd
  split_ifs with hne hzero
  · rw [hflag.1 hne] at hodd
    rw [length_append] at hzero
    omega
  · have h1 : odd.length = 1 := hodd.trans (hflag.1 hne)
    have hcast : ((s ++ odd).length - 1 : ℤ) = s.length := by
      rw [length_append, h1]
      push_cast
      ring
    rw [hcast, Slice.upTo, if_pos ⟨by omega, by rw [length_append]; omega⟩, Int.toNat_natCast, take_left]
  · have h0 : odd.length = 0 := by
      have : ¬ s.length % 2 = 1 := fun hc => hne (hflag.2 hc)
      omega
    rw [length_eq_zero_iff.1 h0, append_nil]

/-- packed strings come back, the odd ones without their filler -/
theorem roundTrip_writePackedBytes (h : Packing tag packer isValid) {s : Bytes} (hs : validatePacked isValid s = true)
    (asString : Bool) : RoundTrip (writePackedBytes s tag) (fun fuel => read fuel asString) (.string s) := by
  unfold validatePacked at hs
  split_ifs at hs with hlen
  have hmax : s.length ≤ packedMax := by omega
  have htag : (UInt8.ofNat tag).toNat = tag := UInt8.toNat_ofNat_of_lt' h.tag_lt
  obtain ⟨e, odd, hw, he, hodd, hr⟩ := packPairs_spec h s hs
  have hread : Reads (readPacked8 tag) ([packedLength s.length] ++ (e ++ [])) s := by
    refine (reads_readByte _).bind ?_
    rw [(packedLength_spec hmax).1, ← he]
    refine (hr []).bind ?_
    rw [nil_append, dropOdd_spec hmax hodd]
    exact Reads.pure s
  rw [append_nil] at hread
  unfold writePackedBytes
  rw [if_neg hlen]
  simp only [h.packerOf, pure_bind]
  apply roundTrip_tagged
  simp only [htag, h.readTagged]
  exact (RoundTrip.of_reads ((writes_pushByte _).bind hw) hread).map Value.string

end

/-! ## Strings -/

/-- a string with a form of its own: a token of a dictionary, or packable -/
def isCompact (s : Bytes) : Bool :=
  (indexOfSingleToken s).isSome || (indexOfDoubleByteToken s).isSome || validateNibble s || validateHex s

theorem readTagged_single (rd : Bool → Dec Value) (asString : Bool) {tag : ℕ} (h1 : 1 ≤ tag)
    (h2 : tag < singleByteTokens.length) :
    readTagged rd asString tag = pure (.string (singleByteTokens.getD tag [])) := by
  have h3 := h2
  rw [length_singleByteTokens] at h3
  unfold readTagged listEmpty list8 list16 binary8 binary20 binary32 dictionary0 dictionary1 dictionary2 dictionary3
    fbJID interopJID jidPair adJID nibble8 hex8
  rw [if_neg (by omega), if_neg (by omega), if_neg (by omega), if_neg (by omega), if_neg (by omega), if_neg (by omega),
    if_neg (by omega), if_neg (by omega), if_neg (by omega), if_neg (by omega), if_neg (by omega), readSingle,
    if_pos ⟨h1, h2⟩]

theorem readTagged_dictionary (rd : Bool → Dec Value) (asString : Bool) {d : ℕ} (h : d < 4) :
    readTagged rd asString (dictionary0 + d) = readDictionary (dictionary0 + d) := by
  interval_cases d <;> rfl

/-- **Every string is read back.** One without a form of its own comes back as bytes where bytes are asked for. -/
theorem roundTrip_writeString {s : Bytes} (h : isCompact s = true ∨ s.length < 2 ^ 31 - 1) (asString : Bool) :
    RoundTrip (writeString s) (fun fuel => read fuel asString) (bytesOrString (asString || isCompact s) s) := by
  have hcompact : isCompact s = true → bytesOrString (asString || isCompact s) s = .string s := by
    intro hc
    rw [hc, Bool.or_true]
    rfl
  unfold writeString
  split
  case h_1 i hi =>
    obtain ⟨hget, h1, h2⟩ := indexOfSingleToken_some hi
    rw [hcompact (by simp [isCompact, hi])]
    apply roundTrip_tag
    intro rd
    rw [readTagged_single rd asString h1 h2, getD_eq_getElem?_getD, hget]
    rfl
  case h_2 hi =>
    split
    case h_1 d i hdi =>
      obtain ⟨hd, htoken⟩ := indexOfDoubleByteToken_some hdi
      rw [hcompact (by simp [isCompact, hdi])]
      apply roundTrip_tagged
      have htag : (UInt8.ofNat dictionary0 + d).toNat = dictionary0 + d.toNat := by
        rw [UInt8.toNat_add]
        change (236 + d.toNat) % 256 = 236 + d.toNat
        omega
      simp only [htag, readTagged_dictionary _ _ hd]
      refine .of_reads (writes_pushByte i) ?_
      have hread : Reads (readIntN 1 false) [i] i.toNat := by simpa [beNat] using reads_readIntN [i]
      have hsub : ((dictionary0 + d.toNat : ℕ) - dictionary0 : ℤ) = d.toNat := by
        push_cast
        ring
      change Reads (readDictionary _) ([i] ++ []) _
      refine hread.bind ?_
      rw [hsub, htoken]
      exact Reads.pure _
    case h_2 hdi =>
      split_ifs with hn hh
      · rw [hcompact (by simp [isCompact, hn])]
        exact roundTrip_writePackedBytes packing_nibble hn asString
      · rw [hcompact (by simp [isCompact, hh])]
        exact roundTrip_writePackedBytes packing_hex hh asString
      · have hc : isCompact s = false := by simp [isCompact, hi, hdi, hn, hh]
        rw [hc] at h ⊢
        rw [Bool.or_false]
        exact roundTrip_writeBytes (h.resolve_left Bool.false_ne_true) asString

end Hypermeow.Binary
