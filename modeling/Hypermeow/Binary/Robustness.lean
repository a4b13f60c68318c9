/-
Robustness of the binary XML decoder on arbitrary bytes.

The measure is the number of unread bytes. Every reader is shown to be `Robust`: it does not panic, it stays inside the
data, it never moves back, and what it returns was paid for with bytes. A value costs its tag byte and one byte for each
node in it (`readCost`). Since `read` takes its tag byte before it calls itself, fuel for the unread bytes is enough, so
calls never nest deeper than the data are long; `read_extends` says that more fuel changes nothing.

- `robust_read`: by induction on the fuel, from one lemma for each reader.
- `readAttributes_zero`: the one reader that can succeed without reading a byte.
-/
import Hypermeow.Binary.Decoder

namespace Hypermeow.Binary

open Lib Types Binary.Token Go Slice

/-! ## Bytes and numbers -/

variable {m n : ℕ}

/-- a body behind its bounds check -/
theorem robust_checked {β : Type} {body : Dec β}
    (h : ∀ r : Cursor UInt8, r.index + n ≤ r.data.length → ∃ a, body r = (.ok a, { r with index := r.index + n })) :
    Robust m (fun _ => n) (checkEOS n >>= fun _ => body) := by
  intro s hs _
  by_cases hle : s.index + n ≤ s.data.length
  · have hcheck : checkEOS n s = (.ok (), s) := by
      change (if s.index + n > s.data.length then Go.throw DecodeError.eof else pure () : Dec Unit) s = _
      rw [if_neg (by omega)]
      rfl
    obtain ⟨a, ha⟩ := h s hle
    rw [bind_ok hcheck, ha]
    exact ⟨by simp, rfl, Nat.le_add_right _ _, hle, fun _ _ => le_refl _⟩
  · have hcheck : checkEOS n s = (.err .eof, s) := by
      change (if s.index + n > s.data.length then Go.throw DecodeError.eof else pure () : Dec Unit) s = _
      rw [if_pos (by omega)]
      rfl
    rw [bind_err hcheck]
    exact ⟨by simp, rfl, le_refl _, hs, fun _ h => by simp at h⟩

theorem robust_readByte : Robust m (fun _ => 1) readByte := by
  apply robust_checked
  intro r hr
  refine ⟨r.data[r.index], ?_⟩
  rw [get_bind, bind_ok (index_run (by omega) r)]
  rfl

theorem readIntNLoop_total (n : ℕ) (littleEndian : Bool) (r : Cursor UInt8) (hr : r.index + n ≤ r.data.length)
    (left ret : ℕ) (hleft : left ≤ n) : ∃ a, readIntNLoop n littleEndian left ret r = (.ok a, r) := by
  induction left generalizing ret with
  | zero => exact ⟨ret, rfl⟩
  | succ left ih =>
    rw [readIntNLoop, get_bind, bind_ok (index_run (by omega) r)]
    exact ih _ (by omega)

theorem robust_readIntN (littleEndian : Bool) : Robust m (fun _ => n) (readIntN n littleEndian) := by
  apply robust_checked
  intro r hr
  obtain ⟨a, ha⟩ := readIntNLoop_total n littleEndian r hr n 0 le_rfl
  refine ⟨a, ?_⟩
  rw [bind_ok ha]
  rfl

theorem robust_readInt20 : Robust m (fun _ => 3) readInt20 := by
  apply robust_checked
  intro r hr
  refine ⟨(r.data[r.index].toNat &&& 15) <<< 16 + r.data[r.index + 1].toNat <<< 8 + r.data[r.index + 2].toNat, ?_⟩
  rw [get_bind, bind_ok (index_run (by omega) r), bind_ok (index_run (by omega) r),
    bind_ok (index_run (by omega) r)]
  rfl

theorem robust_readRaw : Robust m (fun _ => n) (readRaw n) := by
  apply robust_checked
  intro r hr
  have hle : r.index ≤ (r.data.take (r.index + n)).length := by
    rw [List.length_take]
    omega
  refine ⟨(r.data.take (r.index + n)).drop r.index, ?_⟩
  rw [get_bind, bind_ok (upTo_run hr r), bind_ok (since_run hle r)]
  rfl

/-- a size, then so many bytes: no nodes in the value -/
theorem robust_sized {size : Dec ℕ} (asString : Bool) (h : Robust m (fun _ => n) size) :
    Robust m (fun v : Value => v.count) (size >>= fun k => readBytesOrString k asString) := by
  refine h.bind fun k _ => robust_readRaw.map _ ?_
  intro bs
  split_ifs <;> simp [Value.count]

/-! ## Packed strings -/

theorem robust_unpackByte (tag : ℕ) (v : UInt8) : Robust m (fun _ => 0) (unpackByte tag v) := by
  unfold unpackByte unpackNibble unpackHex
  split_ifs <;> first | exact .pure rfl | exact .throw _

theorem robust_readPackedLoop (tag n : ℕ) (build : Bytes) : Robust m (fun _ => 0) (readPackedLoop tag n build) := by
  induction n generalizing m build with
  | zero => exact .pure rfl
  | succ n ih =>
    refine robust_readByte.bind fun b _ => ?_
    refine (robust_unpackByte tag _).bind fun lower _ => ?_
    exact (robust_unpackByte tag _).bind fun upper _ => (ih _).mono le_rfl fun _ => by simp

theorem robust_dropOdd (startByte : UInt8) (ret : Bytes) : Robust m (fun _ => 0) (dropOdd startByte ret) := by
  unfold dropOdd
  split_ifs with _ h0
  · exact .throw _
  · have hcast : (ret.length - 1 : ℤ) = ((ret.length - 1 : ℕ) : ℤ) := by omega
    rw [hcast, Slice.upTo, if_pos ⟨by omega, by omega⟩]
    exact .pure rfl
  · exact .pure rfl

theorem robust_readPacked8 (tag : ℕ) : Robust m (fun _ => 1) (readPacked8 tag) := by
  refine robust_readByte.bind fun startByte _ => ?_
  refine (robust_readPackedLoop tag _ []).bind fun ret _ => ?_
  exact (robust_dropOdd startByte ret).mono le_rfl fun _ => by simp

/-! ## The readers that call `read` -/

/-- what a value costs: its tag and one byte a node -/
def readCost (v : Value) : ℕ := 1 + v.count

theorem robust_readListSize (tag : ℕ) : Robust m (fun _ => if tag = listEmpty then 0 else 1) (readListSize tag) := by
  unfold readListSize
  split_ifs
  · exact .pure rfl
  · exact robust_readIntN false
  · exact (robust_readIntN false).mono le_rfl fun _ => by omega
  · exact Robust.get.bind fun _ _ => .throw _

theorem robust_expectString (v : Value) (e : DecodeError) : Robust m (fun _ => 0) (expectString v e) := by
  unfold expectString
  split
  · exact .pure rfl
  · exact .throw e

theorem robust_expectServer (server : Bytes) (v : Value) : Robust m (fun _ => 0) (expectServer server v) := by
  unfold expectServer
  split
  · exact .ite (fun _ => .pure rfl) fun _ => .throw _
  · exact .throw _

theorem robust_pairUser (user : Value) : Robust m (fun _ => 0) (pairUser user) :=
  .ite (fun _ => .pure rfl) fun _ => robust_expectString user _

section

variable {rd : Bool → Dec Value} {m : ℕ}

/-- `read` is robust on every position with at most `m` unread bytes -/
def RobustRead (m : ℕ) (rd : Bool → Dec Value) : Prop := ∀ asString, Robust m readCost (rd asString)

section

variable (h : RobustRead m rd)
include h

theorem RobustRead.at {k : ℕ} (hk : k ≤ m) (asString : Bool) : Robust k readCost (rd asString) :=
  (h asString).mono hk fun _ => le_rfl

theorem robust_readJIDPair : Robust m (fun _ => 1) (readJIDPair rd) := by
  refine (h true).bind fun user _ => ?_
  refine (h.at (Nat.sub_le _ _) true).bind fun server _ => ?_
  refine (robust_expectString server _).bind fun serverStr _ => ?_
  refine (robust_pairUser user).bind fun userStr _ => .pure ?_
  unfold readCost
  omega

theorem robust_readInteropJID : Robust m (fun _ => 1) (readInteropJID rd) := by
  refine (h true).bind fun user _ => ?_
  refine (robust_readIntN false).bind fun device _ => ?_
  refine (robust_readIntN false).bind fun integrator _ => ?_
  refine (h.at (by omega) true).bind fun server _ => ?_
  refine (robust_expectServer _ server).bind fun _ _ => ?_
  refine (robust_expectString user _).bind fun userStr _ => .pure ?_
  omega

theorem robust_readFBJID : Robust m (fun _ => 1) (readFBJID rd) := by
  refine (h true).bind fun user _ => ?_
  refine (robust_readIntN false).bind fun device _ => ?_
  refine (h.at (by omega) true).bind fun server _ => ?_
  refine (robust_expectServer _ server).bind fun _ _ => ?_
  refine (robust_expectString user _).bind fun userStr _ => .pure ?_
  omega

theorem robust_readADJID : Robust m (fun _ => 1) (readADJID rd) := by
  refine robust_readByte.bind fun agent _ => ?_
  refine robust_readByte.bind fun device _ => ?_
  refine (h.at (by omega) true).bind fun user _ => ?_
  refine (robust_expectString user _).bind fun userStr _ => .pure ?_
  omega

end

/-- each attribute costs two bytes and the nodes in its value -/
theorem robust_readAttributesLoop (n : ℕ) {m : ℕ} (h : RobustRead m rd) (ret : List (Bytes × Value)) :
    Robust m (fun as => 2 * n + (countAttrs as - countAttrs ret)) (readAttributesLoop rd n ret) := by
  induction n generalizing m ret with
  | zero => exact .pure (by simp)
  | succ n ih =>
    refine (h true).bind fun keyIfc _ => ?_
    refine Robust.get.bind fun r _ => ?_
    refine (robust_expectString keyIfc _).bind fun key _ => ?_
    refine (h.at (by omega) true).bind fun val _ => ?_
    refine (ih (fun asString => h.at (by omega) asString) (Attrs.set ret key val)).mono le_rfl fun as => ?_
    have := countAttrs_set_le ret key val
    simp only [readCost]
    omega

theorem robust_readAttributes (h : RobustRead m rd) (n : ℕ) :
    Robust m (fun attrs => 2 * n + countAttrs (Attrs.entries attrs)) (readAttributes rd n) := by
  unfold readAttributes
  split_ifs with h0
  · exact .pure (by simp [h0, Attrs.entries, countAttrs])
  · exact (robust_readAttributesLoop n h []).map some fun as => by simp [Attrs.entries, countAttrs]

theorem robust_readContent (h : RobustRead m rd) (listSize : ℕ) :
    Robust m (fun v => v.count) (readContent rd listSize) := by
  unfold readContent
  split_ifs
  · exact .pure rfl
  · exact (h false).mono le_rfl fun v => Nat.le_add_left _ _

theorem Node.count_eq (n : Node) : n.count = 1 + (countAttrs (Attrs.entries n.attrs) + n.content.count) := by
  rcases n with ⟨tag, attrs, content⟩
  cases attrs <;> simp [Node.count, Attrs.entries, countAttrs]

theorem robust_readNodeBody (h : RobustRead m rd) (listSize : ℕ) :
    Robust m (fun n => n.count) (readNodeBody rd listSize) := by
  refine (h true).bind fun rawDesc _ => ?_
  refine (robust_expectString rawDesc _).bind fun tag _ => ?_
  refine .ite (fun _ => .throw _) fun _ => ?_
  refine (robust_readAttributes (fun asString => h.at (by omega) asString) _).bind fun attrs _ => ?_
  refine (robust_readContent (fun asString => h.at (by omega) asString) listSize).bind fun content _ => .pure ?_
  simp only [Node.count_eq, readCost]
  omega

/-- the list header is read before `read` is called -/
theorem robust_readNode (h : RobustRead m rd) : Robust (m + 1) (fun n => 1 + n.count) (readNode rd) := by
  refine (robust_readIntN false).bind fun size _ => ?_
  refine (robust_readListSize size).bind fun listSize _ => ?_
  refine (robust_readNodeBody (fun asString => h.at (by omega) asString) listSize).mono le_rfl fun n => ?_
  omega

theorem robust_readListLoop (n : ℕ) {m : ℕ} (h : RobustRead m rd) (ret : List Node) :
    Robust m (fun ns => countNodes ns - countNodes ret) (readListLoop rd n ret) := by
  induction n generalizing m ret with
  | zero => exact .pure (by simp)
  | succ n ih =>
    refine ((robust_readNode h).mono (Nat.le_succ _) fun _ => le_rfl).bind fun node _ => ?_
    refine (ih (fun asString => h.at (by omega) asString) (ret ++ [node])).mono le_rfl fun ns => ?_
    have := countNodes_append ret [node]
    simp only [countNodes] at this
    omega

/-- a list with a header: the size costs a byte -/
theorem robust_readList (h : RobustRead m rd) {tag : ℕ} (ht : tag = list8 ∨ tag = list16) :
    Robust m (fun ns => 1 + countNodes ns) (readList rd tag) := by
  refine (robust_readListSize tag).bind fun size _ => ?_
  have hne : tag ≠ listEmpty := by
    unfold list8 list16 at ht
    unfold listEmpty
    omega
  rw [if_neg hne]
  refine (robust_readListLoop size (fun asString => h.at (by omega) asString) []).mono le_rfl fun ns => ?_
  simp only [countNodes]
  omega

theorem robust_readDictionary (tag : ℕ) : Robust m (fun v => v.count) (readDictionary tag) := by
  refine (robust_readIntN false).bind fun i _ => ?_
  split
  · exact .pure (by simp [Value.count])
  · exact .throw _

theorem robust_readSingle (tag : ℕ) : Robust m (fun v => v.count) (readSingle tag) := by
  unfold readSingle
  split_ifs
  · exact .pure rfl
  · exact Robust.get.bind fun _ _ => .throw _

/-- a value behind its tag costs its nodes -/
theorem robust_readTagged (h : RobustRead m rd) (asString : Bool) (tag : ℕ) :
    Robust m (fun v => v.count) (readTagged rd asString tag) := by
  have hjid : ∀ {x : Dec JID}, Robust m (fun _ => 1) x → Robust m (fun v : Value => v.count) (.jid <$> x) :=
    fun hx => hx.map _ fun _ => by simp [Value.count]
  refine .ite (fun _ => .pure rfl) fun _ => ?_
  refine .ite (fun hlist => (robust_readList h hlist).map _ fun ns => by simp [Value.count]) fun _ => ?_
  refine .ite (fun _ => robust_sized asString (robust_readIntN false)) fun _ => ?_
  refine .ite (fun _ => robust_sized asString robust_readInt20) fun _ => ?_
  refine .ite (fun _ => robust_sized asString (robust_readIntN false)) fun _ => ?_
  refine .ite (fun _ => robust_readDictionary tag) fun _ => ?_
  refine .ite (fun _ => hjid (robust_readFBJID h)) fun _ => ?_
  refine .ite (fun _ => hjid (robust_readInteropJID h)) fun _ => ?_
  refine .ite (fun _ => hjid (robust_readJIDPair h)) fun _ => ?_
  refine .ite (fun _ => hjid (robust_readADJID h)) fun _ => ?_
  exact .ite (fun _ => (robust_readPacked8 tag).map _ fun _ => by simp [Value.count]) fun _ => robust_readSingle tag

end

/-- **`read` is robust** with fuel for more than the unread bytes. -/
theorem robust_read (fuel : ℕ) : ∀ m, m < fuel → RobustRead m (read fuel) := by
  induction fuel with
  | zero =>
    intro m hm
    omega
  | succ fuel ih =>
    intro m hm asString
    refine robust_readByte.bind fun tagByte hpos => ?_
    have hread := robust_readTagged (ih (m - 1) (by omega)) asString tagByte.toNat
    refine hread.mono le_rfl fun v => ?_
    unfold readCost
    omega

/-! ## More fuel changes nothing -/

section

variable {rd rd' : Bool → Dec Value}

section

variable (h : ∀ b, Go.Extends (rd b) (rd' b))
include h

theorem readAttributesLoop_extends (n : ℕ) (ret : List (Bytes × Value)) :
    Go.Extends (readAttributesLoop rd n ret) (readAttributesLoop rd' n ret) := by
  induction n generalizing ret with
  | zero => exact .refl _
  | succ n ih =>
    refine (h true).bind fun keyIfc => (Extends.refl _).bind fun r => (Extends.refl _).bind fun key => ?_
    exact (h true).bind fun val => ih _

theorem readNode_extends : Go.Extends (readNode rd) (readNode rd') := by
  refine (Extends.refl _).bind fun size => (Extends.refl _).bind fun listSize => ?_
  refine (h true).bind fun rawDesc => (Extends.refl _).bind fun tag => ?_
  refine .ite (.refl _) (.bind ?_ fun attrs => .bind ?_ fun content => .refl _)
  · exact .ite (.refl _) ((readAttributesLoop_extends h _ []).bind fun _ => .refl _)
  · exact .ite (.refl _) (h false)

theorem readListLoop_extends (n : ℕ) (ret : List Node) :
    Go.Extends (readListLoop rd n ret) (readListLoop rd' n ret) := by
  induction n generalizing ret with
  | zero => exact .refl _
  | succ n ih => exact (readNode_extends h).bind fun node => ih _

theorem readTagged_extends (asString : Bool) (tag : ℕ) :
    Go.Extends (readTagged rd asString tag) (readTagged rd' asString tag) := by
  refine .ite (.refl _) (.ite (.map _ ?_) ?_)
  · exact (Extends.refl _).bind fun size => readListLoop_extends h size []
  refine .ite (.refl _) (.ite (.refl _) (.ite (.refl _) (.ite (.refl _) (.ite (.map _ ?_) ?_))))
  · exact (h true).bind fun user => (Extends.refl _).bind fun device => (h true).bind fun server => .refl _
  refine .ite (.map _ ?_) (.ite (.map _ ?_) (.ite (.map _ ?_) (.refl _)))
  · exact (h true).bind fun user => (Extends.refl _).bind fun device => (Extends.refl _).bind fun integrator =>
      (h true).bind fun server => .refl _
  · exact (h true).bind fun user => (h true).bind fun server => .refl _
  · exact (Extends.refl _).bind fun agent => (Extends.refl _).bind fun device => (h true).bind fun user => .refl _

end

end

theorem read_extends {fuel fuel' : ℕ} (h : fuel ≤ fuel') (asString : Bool) :
    Go.Extends (read fuel asString) (read fuel' asString) := by
  induction fuel generalizing fuel' asString with
  | zero => exact .crash _
  | succ fuel ih =>
    obtain ⟨fuel', rfl⟩ : ∃ k, fuel' = k + 1 := ⟨fuel' - 1, by omega⟩
    exact (Extends.refl _).bind fun tagByte => readTagged_extends (fun b => ih (by omega) b) asString _

/-! ## `Unmarshal` -/

/-- with at most `m` unread bytes, every reader that calls `read` is robust and takes at least one byte -/
structure ReadersAdvance (m fuel : ℕ) : Prop where
  read : ∀ asString, Robust m (fun _ => 1) (read fuel asString)
  readNode : Robust m (fun _ => 1) (readNode (Binary.read fuel))
  readList : ∀ tag, tag = list8 ∨ tag = list16 → Robust m (fun _ => 1) (readList (Binary.read fuel) tag)
  readAttributes : ∀ n, 0 < n → Robust m (fun _ => 1) (readAttributes (Binary.read fuel) n)
  readJIDPair : Robust m (fun _ => 1) (readJIDPair (Binary.read fuel))
  readADJID : Robust m (fun _ => 1) (readADJID (Binary.read fuel))
  readFBJID : Robust m (fun _ => 1) (readFBJID (Binary.read fuel))
  readInteropJID : Robust m (fun _ => 1) (readInteropJID (Binary.read fuel))

theorem readersAdvance {fuel : ℕ} (h : m < fuel) : ReadersAdvance m fuel := by
  have hread := robust_read fuel m h
  exact
    { read := fun asString => (hread asString).mono le_rfl fun _ => Nat.le_add_right 1 _
      readNode := (robust_readNode hread).mono (Nat.le_succ m) fun _ => Nat.le_add_right 1 _
      readList := fun _ ht => (robust_readList hread ht).mono le_rfl fun _ => Nat.le_add_right 1 _
      readAttributes := fun n hn => (robust_readAttributes hread n).mono le_rfl fun _ => by omega
      readJIDPair := robust_readJIDPair hread
      readADJID := robust_readADJID hread
      readFBJID := robust_readFBJID hread
      readInteropJID := robust_readInteropJID hread }

/-- `readNode` from the start of the data -/
theorem readNode_ends (b : Bytes) :
    Ends (fun n => n.count) (newDecoder b) (readNode (read b.length) (newDecoder b)) := by
  cases b with
  | nil =>
    -- no fuel, but the first byte is missing too
    exact ⟨by simp [show readNode (read 0) (newDecoder []) = (.err .eof, newDecoder []) from rfl], rfl, le_refl _,
      le_refl _, fun _ h => by cases h⟩
  | cons c b =>
    have h := robust_readNode (robust_read (b.length + 1) b.length (Nat.lt_succ_self _)) (newDecoder (c :: b))
      (Nat.zero_le _) (Nat.sub_le _ _)
    exact { h with paid := fun n hn => (Nat.add_le_add_left (Nat.le_add_left _ _) _).trans (h.paid n hn) }

theorem unmarshal_eq_ok {b : Bytes} {n : Node} {e : Option DecodeError} (h : unmarshal b = .ok (n, e)) :
    ∃ t, readNode (read b.length) (newDecoder b) = (.ok n, t) ∧
      e = if t.index ≠ t.data.length then some (.leftover (t.data.length - t.index)) else none := by
  unfold unmarshal at h
  rw [bind_run] at h
  rcases hr : readNode (read b.length) (newDecoder b) with ⟨m | err | _, t⟩ <;> rw [hr] at h
  · obtain ⟨rfl, rfl⟩ := Prod.mk.inj (Outcome.ok.inj h)
    exact ⟨t, rfl, rfl⟩
  · cases h
  · cases h

theorem unmarshal_ne_panic (b : Bytes) : unmarshal b ≠ .panic := by
  have h := (readNode_ends b).no_panic
  unfold unmarshal
  rw [bind_run]
  rcases hr : readNode (read b.length) (newDecoder b) with ⟨m | err | _, t⟩ <;> rw [hr] at h
  · intro hc
    cases hc
  · intro hc
    cases hc
  · exact absurd rfl h

/-- **`Unmarshal` is robust.** On every input it returns without a panic; no call nests deeper than the input is long,
and more fuel gives the same run; the index stays inside the data; every reader that calls `read` stays inside and takes
a byte, `readAttributes` when there are attributes; the returned tree has at most as many nodes and levels as the input
has bytes; and there is no error only if every byte was read. -/
theorem unmarshal_robust (b : Bytes) :
    unmarshal b ≠ .panic ∧
    (∀ fuel, b.length ≤ fuel →
      readNode (read fuel) (newDecoder b) = readNode (read b.length) (newDecoder b)) ∧
    ((readNode (read b.length) (newDecoder b)).2.data = b ∧
      (readNode (read b.length) (newDecoder b)).2.index ≤ b.length) ∧
    (∀ m fuel, m < fuel → ReadersAdvance m fuel) ∧
    (∀ n e, unmarshal b = .ok (n, e) → n.depth ≤ b.length ∧ n.count ≤ b.length) ∧
    (∀ n, unmarshal b = .ok (n, none) → readNode (read b.length) (newDecoder b) = (.ok n, ⟨b, b.length⟩)) := by
  have hends := readNode_ends b
  refine ⟨unmarshal_ne_panic b, ?_, ⟨hends.data, hends.index_le⟩, fun _ _ => readersAdvance, ?_, ?_⟩
  · intro fuel hf
    exact readNode_extends (fun asString => read_extends hf asString) _ hends.no_panic
  · intro n e h
    obtain ⟨t, hr, -⟩ := unmarshal_eq_ok h
    rw [hr] at hends
    have hpaid : 0 + n.count ≤ t.index := hends.paid n rfl
    have hle : t.index ≤ b.length := hends.index_le
    have hdepth := n.depth_le_count
    omega
  · intro n h
    obtain ⟨t, hr, he⟩ := unmarshal_eq_ok h
    rw [hr] at hends ⊢
    have hdata : t.data = b := hends.data
    have hindex : t.index = t.data.length := by
      by_contra hne
      rw [if_pos hne] at he
      cases he
    rw [hdata] at hindex
    rcases t with ⟨data, index⟩
    simp only at hdata hindex
    rw [hdata, hindex]

/-- a node without attributes: `<a/>` -/
theorem unmarshal_robust_a :
    unmarshal [248, 1, 252, 1, 97] = .ok (⟨ascii "a", none, .nil⟩, none) ∧
      readNode (read 5) (newDecoder [248, 1, 252, 1, 97]) = (.ok ⟨ascii "a", none, .nil⟩, ⟨[248, 1, 252, 1, 97], 5⟩) := by
  have h : unmarshal [248, 1, 252, 1, 97] = .ok (⟨ascii "a", none, .nil⟩, none) := rfl
  exact ⟨h, (unmarshal_robust [248, 1, 252, 1, 97]).2.2.2.2.2 _ h⟩

/-- in that run `readAttributes` succeeds and takes no byte -/
theorem readAttributes_zero :
    unmarshal [248, 1, 252, 1, 97] = .ok (⟨ascii "a", none, .nil⟩, none) ∧
      readAttributes (read 5) ((1 - 1) >>> 1) ⟨[248, 1, 252, 1, 97], 5⟩ = (.ok none, ⟨[248, 1, 252, 1, 97], 5⟩) ∧
      ¬ ∀ (fuel n : ℕ) (s t : Cursor UInt8) (attrs : Attrs),
        readAttributes (read fuel) n s = (.ok attrs, t) → s.index < t.index := by
  refine ⟨rfl, rfl, ?_⟩
  intro h
  exact absurd (h 5 0 ⟨[248, 1, 252, 1, 97], 5⟩ ⟨[248, 1, 252, 1, 97], 5⟩ none rfl) (lt_irrefl _)

end Hypermeow.Binary
