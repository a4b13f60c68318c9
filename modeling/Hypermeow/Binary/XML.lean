/-
The text of a node as it is written to logs (`binary/xml.go`).

`Node.string` is the XML form of a tree: the tag, the attributes sorted after they are formatted, and the lines of the
content. Two package variables choose the layout (`IndentXML`, `MaxBytesToPrintAsHex`); they are the fields of `Printer`.
A `Printer` also holds what the standard library decides: which runes are printable, and the names that `fmt` prints for
the Go types of integers, for which it has no `%s`. Nodes in an attribute value are printed by their own `String`, as
`fmt` does for the elements of a slice.

Values of the attributes `auth`, `pin` and `token` and the content of nodes with certain tags are replaced by a fixed
text. `Node.Alike` relates two trees that differ in such values only, at any depth, with the entries of each attribute
map in any order. Results:
- `redaction_noninterference`: trees that are alike have the same text, under every printer.
-/
import Hypermeow.Binary.Encoder
import Hypermeow.Lib.Sort

namespace Hypermeow.Binary

open Lib Types Option

/-! ## Model -/

def redacted : Bytes := ascii "[redacted]"

def sensitiveXMLAttribute (key : Bytes) : Bool := key = ascii "auth" || key = ascii "pin" || key = ascii "token"

def sensitiveXMLNodeContent (tag : Bytes) : Bool :=
  [ascii "access_token", ascii "address", ascii "code", ascii "description", ascii "email", ascii "linked_accounts",
    ascii "session_cookies", ascii "token", ascii "wa_ad_account_nonce", ascii "website"].contains tag

structure Printer where
  indentXML : Bool := false
  maxBytesToPrintAsHex : ℤ := 128
  /-- `unicode.IsPrint` -/
  isPrint : Char → Bool
  /-- the Go type of a signed integer, one of five -/
  intType : Int64 → Bytes
  /-- the Go type of an unsigned integer, one of five -/
  uintType : UInt64 → Bytes

namespace Printer

variable (p : Printer)

/-- the text of valid UTF-8 that has printable runes only, otherwise the empty text -/
def printable (data : Bytes) : Bytes :=
  match String.fromUTF8? ⟨data.toArray⟩ with
  | some str => if str.toList.all p.isPrint then data else []
  | none => []

/-- the lines of a text, or the text on one line with its newlines written as `\n` -/
def textLines (text : Bytes) : List Bytes :=
  if p.indentXML then text.splitOn 10 else [text.flatMap fun b => if b = 10 then ascii "\\n" else [b]]

def hexDigit (d : ℕ) : UInt8 := UInt8.ofNat (if d < 10 then 48 + d else 87 + d)

/-- `hex.EncodeToString` -/
def hexString (data : Bytes) : Bytes := data.flatMap fun b => [hexDigit (b.toNat / 16), hexDigit (b.toNat % 16)]

/-- the parts of 80 characters at `i = 0, 80, …`; the last one may be shorter -/
def hexLines (hexData : Bytes) : List Bytes :=
  (List.range ((hexData.length + 79) / 80)).map fun i => (hexData.drop (80 * i)).take 80

def bytesLines (content : Bytes) : List Bytes :=
  if 0 < (p.printable content).length then p.textLines content
  else if p.maxBytesToPrintAsHex < content.length then
    [ascii "<!-- " ++ formatUint content.length ++ ascii " bytes -->"]
  else if !p.indentXML then [hexString content]
  else hexLines (hexString content)

/-- several lines are set in by two blanks -/
def indent (split : List Bytes) : List Bytes :=
  if 1 < split.length ∧ p.indentXML = true then split.map fun line => ascii "  " ++ line else split

/-- the two forms of an element in `String` -/
def element (tag attributes : Bytes) (content : List Bytes) : Bytes :=
  if content.length = 0 then ascii "<" ++ tag ++ attributes ++ ascii "/>"
  else
    let newline := if content.length = 1 ∨ p.indentXML = false then [] else [10]
    ascii "<" ++ tag ++ attributes ++ ascii ">" ++ newline ++ newline.intercalate content ++ newline ++
      ascii "</" ++ tag ++ ascii ">"

/-- `[redacted]` for the content of a sensitive tag, otherwise the lines that the cases of the switch gave -/
def contentString (tag : Bytes) (isNil : Bool) (split : List Bytes) : List Bytes :=
  if !isNil && sensitiveXMLNodeContent tag then [redacted] else p.indent split

/-- the formatted attributes after an empty text, sorted, with blanks between them -/
def attributeString (stringAttrs : List Bytes) : Bytes :=
  if stringAttrs.length = 0 then [] else (ascii " ").intercalate (sortBytes ([] :: stringAttrs))

/-- `%s` of a value whose type has none -/
def badVerb (type value : Bytes) : Bytes := ascii "%!s(" ++ type ++ ascii "=" ++ value ++ ascii ")"

end Printer

open Printer

mutual

def Node.string (p : Printer) : Node → Bytes
  | ⟨tag, none, content⟩ => p.element tag (attributeString []) (p.contentString tag content.isNil (content.lines p))
  | ⟨tag, some as, content⟩ =>
    p.element tag (attributeString (attributeStrings p as)) (p.contentString tag content.isNil (content.lines p))

/-- the cases of the switch over the type of the content -/
def Value.lines (p : Printer) : Value → List Bytes
  | .nodes ns => nodeLines p ns
  | .bytes b => p.bytesLines b
  | .nil => []
  | .jid j => p.textLines j.string
  | .string s => p.textLines s
  | .int i => p.textLines (badVerb (p.intType i) (formatInt i.toInt))
  | .uint u => p.textLines (badVerb (p.uintType u) (formatUint u.toNat))
  | .bool b => p.textLines (badVerb (ascii "bool") (formatBool b))

/-- the format `%v` -/
def Value.format (p : Printer) : Value → Bytes
  | .nil => ascii "<nil>"
  | .jid j => j.string
  | .string s => s
  | .int i => formatInt i.toInt
  | .uint u => formatUint u.toNat
  | .bool b => formatBool b
  | .bytes b => ascii "[" ++ (ascii " ").intercalate (b.map fun b => formatUint b.toNat) ++ ascii "]"
  | .nodes ns => ascii "[" ++ (ascii " ").intercalate (nodeStrings p ns) ++ ascii "]"

def nodeStrings (p : Printer) : List Node → List Bytes
  | [] => []
  | n :: ns => n.string p :: nodeStrings p ns

def nodeLines (p : Printer) : List Node → List Bytes
  | [] => []
  | n :: ns => (n.string p).splitOn 10 ++ nodeLines p ns

/-- `key="value"` for each entry in iteration order -/
def attributeStrings (p : Printer) : List (Bytes × Value) → List Bytes
  | [] => []
  | (key, value) :: as =>
    (key ++ ascii "=\"" ++ (if sensitiveXMLAttribute key then redacted else value.format p) ++ ascii "\"") ::
      attributeStrings p as

end

/-! ## Trees that differ in redacted values -/

mutual

/-- the nodes are equal except for redacted values and the order of attributes -/
inductive Node.Alike : Node → Node → Prop
  | mk {n m : Node} (tag : m.tag = n.tag) (attrs : EntriesAlike (Attrs.entries n.attrs) (Attrs.entries m.attrs))
      (content : ContentAlike n.tag n.content m.content) : Node.Alike n m

/-- the contents of two nodes with the same tag; whether there is a content at all is not redacted -/
inductive ContentAlike : Bytes → Value → Value → Prop
  | redacted {tag : Bytes} {v w : Value} (sensitive : sensitiveXMLNodeContent tag = true) (left : v.isNil = false)
      (right : w.isNil = false) : ContentAlike tag v w
  | same {tag : Bytes} {v w : Value} (h : v.Alike w) : ContentAlike tag v w

inductive Value.Alike : Value → Value → Prop
  | refl (v : Value) : v.Alike v
  | nodes {ns ms : List Node} (h : NodesAlike ns ms) : Value.Alike (.nodes ns) (.nodes ms)

inductive NodesAlike : List Node → List Node → Prop
  | nil : NodesAlike [] []
  | cons {n m : Node} {ns ms : List Node} (head : n.Alike m) (tail : NodesAlike ns ms) : NodesAlike (n :: ns) (m :: ms)

inductive EntriesAlike : List (Bytes × Value) → List (Bytes × Value) → Prop
  | nil : EntriesAlike [] []
  | redacted {key : Bytes} {v w : Value} {as bs : List (Bytes × Value)} (sensitive : sensitiveXMLAttribute key = true)
      (tail : EntriesAlike as bs) : EntriesAlike ((key, v) :: as) ((key, w) :: bs)
  | same {key : Bytes} {v w : Value} {as bs : List (Bytes × Value)} (h : v.Alike w)
      (tail : EntriesAlike as bs) : EntriesAlike ((key, v) :: as) ((key, w) :: bs)
  | perm {as bs bs' : List (Bytes × Value)} (h : EntriesAlike as bs) (order : bs.Perm bs') : EntriesAlike as bs'

end

/-! ## The text of trees that are alike -/

/-- one formatted attribute -/
def attributeText (p : Printer) (e : Bytes × Value) : Bytes :=
  e.1 ++ ascii "=\"" ++ (if sensitiveXMLAttribute e.1 then redacted else e.2.format p) ++ ascii "\""

theorem attributeStrings_eq_map (p : Printer) (as : List (Bytes × Value)) :
    attributeStrings p as = as.map (attributeText p) := by
  induction as with
  | nil => rw [attributeStrings, List.map_nil]
  | cons e as ih => rw [attributeStrings, ih, List.map_cons, attributeText]

theorem Node.string_eq (p : Printer) (n : Node) :
    n.string p = p.element n.tag (attributeString (attributeStrings p (Attrs.entries n.attrs)))
      (p.contentString n.tag n.content.isNil (n.content.lines p)) := by
  rcases n with ⟨tag, _ | as, content⟩
  · simp only [Node.string, Attrs.entries, getD_none, attributeStrings]
  · simp only [Node.string, Attrs.entries, getD_some]

/-- the order of the attributes is lost in sorting -/
theorem attributeString_eq_of_perm {l l' : List Bytes} (h : l.Perm l') : attributeString l = attributeString l' := by
  unfold attributeString
  rw [h.length_eq, sortBytes_eq_of_perm (h.cons [])]

mutual

theorem Node.string_of_alike (p : Printer) : ∀ {n m : Node}, n.Alike m → n.string p = m.string p
  | n, m, .mk tag attrs content => by
    rw [Node.string_eq, Node.string_eq, tag, contentString_of_alike p content,
      attributeString_eq_of_perm (attributeStrings_of_alike p attrs)]

theorem contentString_of_alike (p : Printer) : ∀ {tag : Bytes} {v w : Value}, ContentAlike tag v w →
    p.contentString tag v.isNil (v.lines p) = p.contentString tag w.isNil (w.lines p)
  | _, _, _, .redacted sensitive left right => by simp [Printer.contentString, sensitive, left, right]
  | _, _, _, .same (.refl _) => rfl
  | _, _, _, .same (.nodes h) => by simp only [Value.isNil, Value.lines, (nodes_of_alike p h).2]

theorem Value.format_of_alike (p : Printer) : ∀ {v w : Value}, v.Alike w → v.format p = w.format p
  | _, _, .refl _ => rfl
  | _, _, .nodes h => by rw [Value.format, Value.format, (nodes_of_alike p h).1]

theorem nodes_of_alike (p : Printer) : ∀ {ns ms : List Node}, NodesAlike ns ms →
    nodeStrings p ns = nodeStrings p ms ∧ nodeLines p ns = nodeLines p ms
  | _, _, .nil => ⟨rfl, rfl⟩
  | _, _, .cons head tail => by
    obtain ⟨hstrings, hlines⟩ := nodes_of_alike p tail
    simp only [nodeStrings, nodeLines, Node.string_of_alike p head, hstrings, hlines, and_self]

theorem attributeStrings_of_alike (p : Printer) : ∀ {as bs : List (Bytes × Value)}, EntriesAlike as bs →
    (attributeStrings p as).Perm (attributeStrings p bs)
  | _, _, .nil => List.Perm.refl _
  | _, _, .redacted sensitive tail => by
    simp only [attributeStrings, sensitive, if_true]
    exact (attributeStrings_of_alike p tail).cons _
  | _, _, .same h tail => by
    simp only [attributeStrings, Value.format_of_alike p h]
    exact (attributeStrings_of_alike p tail).cons _
  | _, bs', .perm h order => by
    refine (attributeStrings_of_alike p h).trans ?_
    rw [attributeStrings_eq_map, attributeStrings_eq_map]
    exact order.map (attributeText p)

end

/-- **Redacted values do not reach the log.** Two trees that are equal except for the values of sensitive attributes and
the contents of nodes with sensitive tags, at any depth, with the attributes visited in any order, have the same
text, whatever the layout. -/
theorem redaction_noninterference (p : Printer) {n m : Node} (h : n.Alike m) : n.string p = m.string p :=
  Node.string_of_alike p h

/-- a node with two attributes, one of them a secret, and a child that holds a code -/
def secretNode (token code : Bytes) (swapped : Bool) : Node :=
  let id := (ascii "id", Value.string [49])
  let secret := (ascii "token", Value.string token)
  ⟨ascii "iq", some (if swapped then [secret, id] else [id, secret]),
    .nodes [⟨ascii "code", none, .bytes code⟩, ⟨ascii "ref", some [], .nil⟩]⟩

/-- a printer that indents and takes every rune for printable -/
def indentingPrinter : Printer := ⟨true, 128, fun _ => true, fun _ => ascii "int64", fun _ => ascii "uint64"⟩

theorem redaction_noninterference_nested :
    (secretNode [1, 2] [3] false).string indentingPrinter = (secretNode [9] [4, 10, 5] true).string indentingPrinter := by
  refine redaction_noninterference indentingPrinter ?_
  refine .mk rfl ?_ (.same (.nodes ?_))
  · exact .perm (.same (.refl _) (.redacted (by decide) .nil)) (List.Perm.swap _ _ [])
  · exact .cons (.mk rfl .nil (.redacted (by decide) rfl rfl)) (.cons (.mk rfl .nil (.same (.refl _))) .nil)

end Hypermeow.Binary
