/-
The decoder of the binary XML format (`binary/decoder.go`, `Unmarshal` of `binary/node.go`).

The receiver is a cursor: the data and the index of the next byte. Indexing and slicing panic out of range, as in the
language. `read` and the readers of lists, nodes, attributes and JIDs call each other. Every cycle goes through `read`,
so the others take it as an argument, and `read` itself has fuel: a call nested deeper than the fuel counts as a panic,
and what is proved about the absence of panics is also a bound on the nesting.

Sizes come from at most four bytes, so the 64-bit `int` does not overflow and is modelled by `ℕ`.
-/
import Hypermeow.Binary.Node
import Hypermeow.Binary.Token
import Hypermeow.Lib.Cursor

namespace Hypermeow.Binary

open Lib Types Binary.Token

inductive DecodeError where
  | eof
  /-- "packed string has odd flag without data" -/
  | oddFlag
  /-- "unpackByte with unknown tag %d" -/
  | unpackTag (tag : ℕ)
  /-- "unpackNibble with value %d" -/
  | unpackNibble (value : UInt8)
  /-- "unpackHex with value %d" -/
  | unpackHex (value : UInt8)
  /-- "readListSize with unknown tag %d at position %d" -/
  | listSizeTag (tag index : ℕ)
  | token (e : TokenError)
  /-- `ErrInvalidToken` with tag and position -/
  | invalidToken (tag index : ℕ)
  | invalidJIDType
  /-- `ErrInvalidJIDType`: "expected %q, got %q" -/
  | unexpectedServer (expected : Bytes) (got : Value)
  /-- `ErrNonStringKey` with the position -/
  | nonStringKey (index : ℕ)
  | invalidNode
  /-- "%d leftover bytes after decoding" -/
  | leftover (n : ℕ)

/-- a method of `binaryDecoder` -/
abbrev Dec := Go (Cursor UInt8) DecodeError

def newDecoder (data : Bytes) : Cursor UInt8 := ⟨data, 0⟩

def checkEOS (length : ℕ) : Dec Unit := do
  let r ← Go.get
  if r.index + length > r.data.length then Go.throw .eof else pure ()

def advance (n : ℕ) : Dec Unit := Go.modify fun r => { r with index := r.index + n }

def readByte : Dec UInt8 := do
  checkEOS 1
  let r ← Go.get
  let b ← Slice.index r.data r.index
  advance 1
  pure b

/-- the loop of `readIntN` with `left` bytes to go, in iteration `i = n - left` -/
def readIntNLoop (n : ℕ) (littleEndian : Bool) : ℕ → ℕ → Dec ℕ
  | 0, ret => pure ret
  | left + 1, ret => do
    let r ← Go.get
    let i := n - (left + 1)
    let b ← Slice.index r.data (r.index + i)
    let curShift := if littleEndian then i else n - i - 1
    readIntNLoop n littleEndian left (ret ||| b.toNat <<< (curShift * 8))

def readIntN (n : ℕ) (littleEndian : Bool) : Dec ℕ := do
  checkEOS n
  let ret ← readIntNLoop n littleEndian n 0
  advance n
  pure ret

def readInt8 (littleEndian : Bool) : Dec ℕ := readIntN 1 littleEndian

def readInt16 (littleEndian : Bool) : Dec ℕ := readIntN 2 littleEndian

def readInt32 (littleEndian : Bool) : Dec ℕ := readIntN 4 littleEndian

def readInt20 : Dec ℕ := do
  checkEOS 3
  let r ← Go.get
  let b0 ← Slice.index r.data r.index
  let b1 ← Slice.index r.data (r.index + 1)
  let b2 ← Slice.index r.data (r.index + 2)
  advance 3
  pure ((b0.toNat &&& 15) <<< 16 + b1.toNat <<< 8 + b2.toNat)

def readRaw (length : ℕ) : Dec Bytes := do
  checkEOS length
  let r ← Go.get
  let upper ← Slice.upTo r.data (r.index + length : ℕ)
  let ret ← Slice.since upper r.index
  advance length
  pure ret

def readBytesOrString (length : ℕ) (asString : Bool) : Dec Value := do
  let data ← readRaw length
  pure (if asString then .string data else .bytes data)

/-! ## Packed strings -/

def unpackNibble (value : UInt8) : Dec UInt8 :=
  if value < 10 then pure (48 + value)
  else if value = 10 then pure 45
  else if value = 11 then pure 46
  else if value = 15 then pure 0
  else Go.throw (.unpackNibble value)

def unpackHex (value : UInt8) : Dec UInt8 :=
  if value < 10 then pure (48 + value)
  else if value < 16 then pure (65 + value - 10)
  else Go.throw (.unpackHex value)

def unpackByte (tag : ℕ) (value : UInt8) : Dec UInt8 :=
  if tag = nibble8 then unpackNibble value
  else if tag = hex8 then unpackHex value
  else Go.throw (.unpackTag tag)

def readPackedLoop (tag : ℕ) : ℕ → Bytes → Dec Bytes
  | 0, build => pure build
  | n + 1, build => do
    let currByte ← readByte
    let lower ← unpackByte tag ((currByte &&& 0xF0) >>> 4)
    let upper ← unpackByte tag (currByte &&& 0x0F)
    readPackedLoop tag n (build ++ [lower, upper])

/-- the odd flag: the last character is not part of the string -/
def dropOdd (startByte : UInt8) (ret : Bytes) : Dec Bytes :=
  if startByte >>> 7 ≠ 0 then
    if ret.length = 0 then Go.throw .oddFlag else Slice.upTo ret (ret.length - 1)
  else pure ret

def readPacked8 (tag : ℕ) : Dec Bytes := do
  let startByte ← readByte
  let ret ← readPackedLoop tag (startByte &&& 127).toNat []
  dropOdd startByte ret

/-! ## The readers that call `read` -/

def readListSize (tag : ℕ) : Dec ℕ :=
  if tag = listEmpty then pure 0
  else if tag = list8 then readInt8 false
  else if tag = list16 then readInt16 false
  else do
    let r ← Go.get
    Go.throw (.listSizeTag tag r.index)

/-- the string inside a value that was read, or the given error -/
def expectString (v : Value) (e : DecodeError) : Dec Bytes :=
  match v with
  | .string s => pure s
  | _ => Go.throw e

/-- a string that must be the given server -/
def expectServer (server : Bytes) (v : Value) : Dec Unit :=
  match v with
  | .string s => if s = server then pure () else Go.throw (.unexpectedServer server v)
  | _ => Go.throw (.unexpectedServer server v)

section

variable (read : Bool → Dec Value)

/-- the user of a JID pair, where nil stands for the empty user -/
def pairUser (user : Value) : Dec Bytes :=
  if user.isNil then pure [] else expectString user .invalidJIDType

def readJIDPair : Dec JID := do
  let user ← read true
  let server ← read true
  let serverStr ← expectString server .invalidJIDType
  let userStr ← pairUser user
  pure (newJID userStr serverStr)

def readInteropJID : Dec JID := do
  let user ← read true
  let device ← readInt16 false
  let integrator ← readInt16 false
  let server ← read true
  expectServer interopServer server
  let userStr ← expectString user .invalidJIDType
  pure { user := userStr, device := UInt16.ofNat device, integrator := UInt16.ofNat integrator, server := interopServer }

def readFBJID : Dec JID := do
  let user ← read true
  let device ← readInt16 false
  let server ← read true
  expectServer messengerServer server
  let userStr ← expectString user .invalidJIDType
  pure { user := userStr, device := UInt16.ofNat device, server := messengerServer }

def readADJID : Dec JID := do
  let agent ← readByte
  let device ← readByte
  let user ← read true
  let userStr ← expectString user .invalidJIDType
  pure (newADJID userStr agent device)

def readAttributesLoop : ℕ → List (Bytes × Value) → Dec (List (Bytes × Value))
  | 0, ret => pure ret
  | n + 1, ret => do
    let keyIfc ← read true
    let r ← Go.get
    let key ← expectString keyIfc (.nonStringKey r.index)
    let val ← read true
    readAttributesLoop n (Attrs.set ret key val)

/-- `n` attributes; without any, the nil map -/
def readAttributes (n : ℕ) : Dec Attrs :=
  if n = 0 then pure none
  else do
    let ret ← readAttributesLoop read n []
    pure (some ret)

/-- the content of a node, which an odd list size does not have -/
def readContent (listSize : ℕ) : Dec Value :=
  if listSize % 2 = 1 then pure .nil else read false

/-- `readNode` after the list header -/
def readNodeBody (listSize : ℕ) : Dec Node := do
  let rawDesc ← read true
  let tag ← expectString rawDesc .invalidNode
  if listSize = 0 ∨ tag = [] then Go.throw .invalidNode
  else do
    let attrs ← readAttributes read ((listSize - 1) >>> 1)
    let content ← readContent read listSize
    pure ⟨tag, attrs, content⟩

def readNode : Dec Node := do
  let size ← readInt8 false
  let listSize ← readListSize size
  readNodeBody read listSize

def readListLoop : ℕ → List Node → Dec (List Node)
  | 0, ret => pure ret
  | n + 1, ret => do
    let node ← readNode read
    readListLoop n (ret ++ [node])

def readList (tag : ℕ) : Dec (List Node) := do
  let size ← readListSize tag
  readListLoop read size []

/-- the token of a dictionary -/
def readDictionary (tag : ℕ) : Dec Value := do
  let i ← readInt8 false
  match getDoubleToken (tag - dictionary0 : ℤ) i with
  | .ok s => pure (.string s)
  | .error e => Go.throw (.token e)

/-- a value that is not introduced by a type token: a single-byte token -/
def readSingle (tag : ℕ) : Dec Value :=
  if 1 ≤ tag ∧ tag < singleByteTokens.length then pure (.string (singleByteTokens.getD tag []))
  else do
    let r ← Go.get
    Go.throw (.invalidToken tag r.index)

/-- the body of `read` after its tag -/
def readTagged (string : Bool) (tag : ℕ) : Dec Value :=
  if tag = listEmpty then pure .nil
  else if tag = list8 ∨ tag = list16 then .nodes <$> readList read tag
  else if tag = binary8 then do
    let size ← readInt8 false
    readBytesOrString size string
  else if tag = binary20 then do
    let size ← readInt20
    readBytesOrString size string
  else if tag = binary32 then do
    let size ← readInt32 false
    readBytesOrString size string
  else if tag = dictionary0 ∨ tag = dictionary1 ∨ tag = dictionary2 ∨ tag = dictionary3 then readDictionary tag
  else if tag = fbJID then .jid <$> readFBJID read
  else if tag = interopJID then .jid <$> readInteropJID read
  else if tag = jidPair then .jid <$> readJIDPair read
  else if tag = adJID then .jid <$> readADJID read
  else if tag = nibble8 ∨ tag = hex8 then .string <$> readPacked8 tag
  else readSingle tag

end

def read : ℕ → Bool → Dec Value
  | 0, _ => Go.crash
  | fuel + 1, string => do
    let tagByte ← readByte
    readTagged (read fuel) string tagByte.toNat

/-- `Unmarshal`: an error alone, or a node with the error for bytes that are left over -/
def unmarshal (data : Bytes) : Outcome DecodeError (Node × Option DecodeError) :=
  ((do
    let n ← readNode (read data.length)
    let r ← Go.get
    pure (n, if r.index ≠ r.data.length then some (DecodeError.leftover (r.data.length - r.index)) else none) :
      Dec (Node × Option DecodeError)) (newDecoder data)).1

end Hypermeow.Binary
