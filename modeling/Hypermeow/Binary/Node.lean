/-
Nodes of the binary XML format (`binary/node.go`).

A node has a tag, attributes and content. Attribute values and content are of type `any` in the source; `Value` has one
constructor for each dynamic type that `write` accepts (any other type makes it panic). The signed and the unsigned
integer types are widened to 64 bits before they are formatted, so that each kind is one constructor.

`Attrs` is a Go map, or the nil map. It is modelled by the list of its entries in the order in which one `range` over it
visits them; the keys of a map are distinct. Statements for every such list are statements for every
iteration order.
-/
import Hypermeow.Types.JID

namespace Hypermeow.Binary

open Lib Types

mutual

structure Node where
  tag : Bytes
  attrs : Option (List (Bytes × Value))
  content : Value

inductive Value where
  | nil
  | jid (j : JID)
  | string (s : Bytes)
  | int (i : Int64)
  | uint (u : UInt64)
  | bool (b : Bool)
  | bytes (b : Bytes)
  | nodes (ns : List Node)

end

abbrev Attrs := Option (List (Bytes × Value))

namespace Attrs

/-- the entries in iteration order; ranging over the nil map visits none -/
def entries (attrs : Attrs) : List (Bytes × Value) := attrs.getD []

def keys (attrs : Attrs) : List Bytes := attrs.entries.map Prod.fst

/-- `m[key] = val` on the entries of a map -/
def set (m : List (Bytes × Value)) (key : Bytes) (val : Value) : List (Bytes × Value) :=
  match m with
  | [] => [(key, val)]
  | (k, v) :: m => if k = key then (k, val) :: m else (k, v) :: set m key val

/-- `attrs[key]`; the nil map has no entries -/
def get (attrs : Attrs) (key : Bytes) : Option Value := (attrs.entries.find? fun e => e.1 = key).map Prod.snd

theorem set_of_notMem {m : List (Bytes × Value)} {key : Bytes} (h : key ∉ m.map Prod.fst) (val : Value) :
    set m key val = m ++ [(key, val)] := by
  induction m with
  | nil => rfl
  | cons p m ih =>
    rw [List.map_cons, List.mem_cons, not_or] at h
    rw [set, if_neg (Ne.symm h.1), ih h.2]
    rfl

end Attrs

namespace Value

/-- does the attribute loop skip the value? `val == "" || val == nil` -/
def isSkipped : Value → Bool
  | .nil => true
  | .string s => s.isEmpty
  | _ => false

def isNil : Value → Bool
  | .nil => true
  | _ => false

end Value

/-! ## Children -/

namespace Node

def getChildren (n : Node) : List Node :=
  match n.content with
  | .nodes children => children
  | _ => []

def getChildrenByTag (n : Node) (tag : Bytes) : List Node := n.getChildren.filter fun child => child.tag = tag

/-- the first child with the first tag, in it the first child with the second tag, and so on; when one is missing, the
node reached so far and `false` -/
def getOptionalChildByTag (n : Node) : List Bytes → Node × Bool
  | [] => (n, true)
  | tag :: tags =>
    match n.getChildren.find? fun child => child.tag = tag with
    | some child => child.getOptionalChildByTag tags
    | none => (n, false)

def getChildByTag (n : Node) (tags : List Bytes) : Node := (n.getOptionalChildByTag tags).1

end Node

/-! ## Size of a tree -/

mutual

/-- the number of nodes in a tree, those in attribute values included -/
def Node.count : Node → ℕ
  | ⟨_, none, content⟩ => 1 + content.count
  | ⟨_, some as, content⟩ => 1 + (countAttrs as + content.count)

def Value.count : Value → ℕ
  | .nodes ns => countNodes ns
  | _ => 0

def countNodes : List Node → ℕ
  | [] => 0
  | n :: ns => n.count + countNodes ns

def countAttrs : List (Bytes × Value) → ℕ
  | [] => 0
  | (_, v) :: as => v.count + countAttrs as

end

mutual

/-- how deep nodes are nested in a tree -/
def Node.depth : Node → ℕ
  | ⟨_, none, content⟩ => 1 + content.depth
  | ⟨_, some as, content⟩ => 1 + max (depthAttrs as) content.depth

def Value.depth : Value → ℕ
  | .nodes ns => depthNodes ns
  | _ => 0

def depthNodes : List Node → ℕ
  | [] => 0
  | n :: ns => max n.depth (depthNodes ns)

def depthAttrs : List (Bytes × Value) → ℕ
  | [] => 0
  | (_, v) :: as => max v.depth (depthAttrs as)

end

mutual

/-- a tree is at most as deep as it has nodes -/
theorem Node.depth_le_count : ∀ n : Node, n.depth ≤ n.count
  | ⟨_, none, content⟩ => by
    have := Value.depth_le_count content
    simp only [Node.depth, Node.count]
    omega
  | ⟨_, some as, content⟩ => by
    have := Value.depth_le_count content
    have := depthAttrs_le_count as
    simp only [Node.depth, Node.count]
    omega

theorem Value.depth_le_count : ∀ v : Value, v.depth ≤ v.count
  | .nodes ns => by
    simp only [Value.depth, Value.count]
    exact depthNodes_le_count ns
  | .nil | .jid _ | .string _ | .int _ | .uint _ | .bool _ | .bytes _ => by simp [Value.depth]

theorem depthNodes_le_count : ∀ ns : List Node, depthNodes ns ≤ countNodes ns
  | [] => by simp [depthNodes]
  | n :: ns => by
    have := Node.depth_le_count n
    have := depthNodes_le_count ns
    simp only [depthNodes, countNodes]
    omega

theorem depthAttrs_le_count : ∀ as : List (Bytes × Value), depthAttrs as ≤ countAttrs as
  | [] => by simp [depthAttrs]
  | (_, v) :: as => by
    have := Value.depth_le_count v
    have := depthAttrs_le_count as
    simp only [depthAttrs, countAttrs]
    omega

end

theorem countNodes_append (ns ms : List Node) : countNodes (ns ++ ms) = countNodes ns + countNodes ms := by
  induction ns with
  | nil => simp [countNodes]
  | cons n ns ih => simp only [List.cons_append, countNodes, ih, Nat.add_assoc]

/-- setting an entry adds at most the nodes of its value -/
theorem countAttrs_set_le (m : List (Bytes × Value)) (key : Bytes) (val : Value) :
    countAttrs (Attrs.set m key val) ≤ countAttrs m + val.count := by
  induction m with
  | nil => simp [Attrs.set, countAttrs]
  | cons p m ih =>
    rcases p with ⟨k, v⟩
    rw [Attrs.set]
    split_ifs
    · simp only [countAttrs]
      omega
    · simp only [countAttrs]
      omega

end Hypermeow.Binary
