/-
The encoder of the binary XML format (`binary/encoder.go`, `Marshal` of `binary/node.go`).

The receiver is the byte buffer `w.data`, to which every method appends; no method returns an error, some panic. The
methods are those of the source, in its order. Strings are written as the first of: a single-byte token, a double-byte
token, nibbles, hex digits, raw bytes. `range` over a string visits runes, and the two packing checks accept ASCII
characters only; a byte that is not ASCII belongs to a rune that is not, so checking the bytes is the same.

Lengths of Go values are below 2^63, so `int` is modelled without a bound.
-/
import Hypermeow.Binary.Node
import Hypermeow.Binary.Token

namespace Hypermeow.Binary

open Lib Types Binary.Token

/-- a method of `binaryEncoder` -/
abbrev Enc := Go Bytes Empty

def newEncoder : Bytes := [0]

def pushByte (b : UInt8) : Enc Unit := Go.modify (· ++ [b])

def pushBytes (bytes : Bytes) : Enc Unit := Go.modify (· ++ bytes)

/-- the low byte of `value >> (shift * 8)` -/
def byteAt (value shift : ℕ) : UInt8 := UInt8.ofNat (value >>> (shift * 8) &&& 0xFF)

def pushIntN (value n : ℕ) (littleEndian : Bool) : Enc Unit :=
  (List.range n).forM fun i => pushByte (byteAt value (if littleEndian then i else n - i - 1))

def pushInt20 (value : ℕ) : Enc Unit :=
  pushBytes [UInt8.ofNat (value >>> 16 &&& 0x0F), UInt8.ofNat (value >>> 8 &&& 0xFF), UInt8.ofNat (value &&& 0xFF)]

def pushInt8 (value : ℕ) : Enc Unit := pushIntN value 1 false

def pushInt16 (value : ℕ) : Enc Unit := pushIntN value 2 false

def pushInt32 (value : ℕ) : Enc Unit := pushIntN value 4 false

def pushString (value : Bytes) : Enc Unit := pushBytes value

def writeByteLength (length : ℕ) : Enc Unit :=
  if length < 256 then do
    pushByte (UInt8.ofNat binary8)
    pushInt8 length
  else if length < 2 ^ 20 then do
    pushByte (UInt8.ofNat binary20)
    pushInt20 length
  else if length < 2 ^ 31 - 1 then do
    pushByte (UInt8.ofNat binary32)
    pushInt32 length
  else Go.crash

def writeBytes (value : Bytes) : Enc Unit := do
  writeByteLength value.length
  pushBytes value

def writeStringRaw (value : Bytes) : Enc Unit := do
  writeByteLength value.length
  pushString value

/-! ## Packed strings -/

def isNibble (char : UInt8) : Bool := isDigit char || char == 45 || char == 46

def isHex (char : UInt8) : Bool := isDigit char || (65 ≤ char && char ≤ 70)

/-- at most `packedMax` characters, all of the given kind -/
def validatePacked (isValid : UInt8 → Bool) (value : Bytes) : Bool :=
  if value.length > packedMax then false else value.all isValid

def validateNibble (value : Bytes) : Bool := validatePacked isNibble value

def validateHex (value : Bytes) : Bool := validatePacked isHex value

def packNibble (value : UInt8) : Enc UInt8 :=
  if value = 45 then pure 10
  else if value = 46 then pure 11
  else if value = 0 then pure 15
  else if isDigit value then pure (value - 48)
  else Go.crash

def packHex (value : UInt8) : Enc UInt8 :=
  if isDigit value then pure (value - 48)
  else if 65 ≤ value ∧ value ≤ 70 then pure (10 + value - 65)
  else if value = 0 then pure 15
  else Go.crash

def packBytePair (packer : UInt8 → Enc UInt8) (part1 part2 : UInt8) : Enc UInt8 := do
  let high ← packer part1
  let low ← packer part2
  pure (high <<< 4 ||| low)

/-- the bytes of a packed string: two characters a byte, a last odd one with a zero -/
def packPairs (packer : UInt8 → Enc UInt8) : Bytes → Enc Unit
  | [] => pure ()
  | [c] => do
    let b ← packBytePair packer c 0
    pushByte b
  | c :: d :: value => do
    let b ← packBytePair packer c d
    pushByte b
    packPairs packer value

/-- the packer of a data type -/
def packerOf (dataType : ℕ) : Enc (UInt8 → Enc UInt8) :=
  if dataType = nibble8 then pure packNibble
  else if dataType = hex8 then pure packHex
  else Go.crash

/-- the number of packed bytes, with the high bit set for an odd number of characters -/
def packedLength (length : ℕ) : UInt8 :=
  let roundedLength := UInt8.ofNat ((length + 1) / 2)
  if length % 2 ≠ 0 then roundedLength ||| 128 else roundedLength

def writePackedBytes (value : Bytes) (dataType : ℕ) : Enc Unit :=
  if value.length > packedMax then Go.crash
  else do
    pushByte (UInt8.ofNat dataType)
    pushByte (packedLength value.length)
    let packer ← packerOf dataType
    packPairs packer value

def writeString (data : Bytes) : Enc Unit :=
  match indexOfSingleToken data with
  | some tokenIndex => pushByte tokenIndex
  | none =>
    match indexOfDoubleByteToken data with
    | some (dictIndex, tokenIndex) => do
      pushByte (UInt8.ofNat dictionary0 + dictIndex)
      pushByte tokenIndex
    | none =>
      if validateNibble data then writePackedBytes data nibble8
      else if validateHex data then writePackedBytes data hex8
      else writeStringRaw data

/-! ## JIDs, values and nodes -/

/-- the first test of `writeJID`: is the JID written with its domain byte? -/
def isWrittenAsAD (jid : JID) : Prop :=
  ((jid.server = defaultUserServer ∨ jid.server = hiddenUserServer) ∧ 0 < jid.device) ∨
    jid.server = hostedServer ∨ jid.server = hostedLIDServer

instance (jid : JID) : Decidable (isWrittenAsAD jid) := inferInstanceAs (Decidable (_ ∨ _))

/-- the user part of a JID pair -/
def writePairUser (user : Bytes) : Enc Unit :=
  if user.length = 0 then pushByte (UInt8.ofNat listEmpty) else writeString user

def writeJID (jid : JID) : Enc Unit :=
  if isWrittenAsAD jid then do
    pushByte (UInt8.ofNat adJID)
    pushByte jid.actualAgent
    pushByte jid.device.toUInt8
    writeString jid.user
  else if jid.server = messengerServer then do
    pushByte (UInt8.ofNat fbJID)
    writeString jid.user
    pushInt16 jid.device.toNat
    writeString jid.server
  else if jid.server = interopServer then do
    pushByte (UInt8.ofNat interopJID)
    writeString jid.user
    pushInt16 jid.device.toNat
    pushInt16 jid.integrator.toNat
    writeString jid.server
  else do
    pushByte (UInt8.ofNat jidPair)
    writePairUser jid.user
    writeString jid.server

def writeListStart (listSize : ℕ) : Enc Unit :=
  if listSize = 0 then pushByte (UInt8.ofNat listEmpty)
  else if listSize < 256 then do
    pushByte (UInt8.ofNat list8)
    pushInt8 listSize
  else do
    pushByte (UInt8.ofNat list16)
    pushInt16 listSize

def countAttributes (attributes : List (Bytes × Value)) : ℕ := (attributes.filter fun p => !p.2.isSkipped).length

/-- `strconv.FormatBool` -/
def formatBool (b : Bool) : Bytes := ascii (if b then "true" else "false")

/-- the size in a node's list header: its tag, its attributes twice, and its content -/
def headerSize (attrs : Attrs) (content : Value) : ℕ :=
  2 * countAttributes attrs.entries + 1 + (if content.isNil then 0 else 1)

mutual

def writeNode : Node → Enc Unit
  | ⟨tag, attrs, content⟩ =>
    if tag = ascii "0" then do
      pushByte (UInt8.ofNat list8)
      pushByte (UInt8.ofNat listEmpty)
    else do
      writeListStart (headerSize attrs content)
      writeString tag
      writeAttributes attrs
      if content.isNil then pure () else write content

def write : Value → Enc Unit
  | .nil => pushByte (UInt8.ofNat listEmpty)
  | .jid j => writeJID j
  | .string s => writeString s
  | .int i => writeString (formatInt i.toInt)
  | .uint u => writeString (formatUint u.toNat)
  | .bool b => writeString (formatBool b)
  | .bytes b => writeBytes b
  | .nodes ns => do
    writeListStart ns.length
    writeNodes ns

def writeNodes : List Node → Enc Unit
  | [] => pure ()
  | n :: ns => do
    writeNode n
    writeNodes ns

def writeAttributes : Option (List (Bytes × Value)) → Enc Unit
  | none => pure ()
  | some as => writeEntries as

def writeEntries : List (Bytes × Value) → Enc Unit
  | [] => pure ()
  | (key, val) :: as =>
    if val.isSkipped then writeEntries as
    else do
      writeString key
      write val
      writeEntries as

end

/-- `Marshal`: the data begin with a zero byte ("not compressed") -/
def marshal (n : Node) : Outcome Empty Bytes :=
  ((do
    writeNode n
    Go.get) newEncoder).1

end Hypermeow.Binary
