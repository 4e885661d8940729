/-
# The binary format: numbers, texts and sequences

Numbers stand with their lowest byte first. Anything of varying length has its length in front, in
eight bytes, and anything of several forms has the number of its form in front, in four. A reader takes
what it reads from the front of the bytes and leaves the rest.
-/

namespace ExprTree.Wire

/-- Reading from the front of some bytes; there may be nothing readable. -/
abbrev Reader := StateT (List UInt8) Option

/-- Run a reader: what it reads and the bytes it leaves. -/
def Reader.read {α : Type} (reader : Reader α) (bytes : List UInt8) : Option (α × List UInt8) :=
  reader.run bytes

/-! ## Numbers -/

/-- The lowest `width` bytes of a number, the lowest first. -/
def encodeNat : (width : Nat) → Nat → List UInt8
  | 0, _ => []
  | width + 1, n => UInt8.ofNat n :: encodeNat width (n / 256)

/-- Read one byte. -/
def decodeByte : Reader UInt8
  | [] => none
  | byte :: rest => some (byte, rest)

/-- Read a number of `width` bytes. -/
def decodeNat : (width : Nat) → Reader Nat
  | 0 => return 0
  | width + 1 => do
      let low ← decodeByte
      let high ← decodeNat width
      return low.toNat + 256 * high

/-- The number of a form, in four bytes. -/
def encodeTag (tag : Nat) : List UInt8 :=
  encodeNat 4 tag

/-- Read the number of a form. -/
def decodeTag : Reader Nat :=
  decodeNat 4

/-- A length, in eight bytes. -/
def encodeLength (length : Nat) : List UInt8 :=
  encodeNat 8 length

/-- Read a length. -/
def decodeLength : Reader Nat :=
  decodeNat 8

/-- A signed integer, in four bytes. -/
def encodeInt32 (n : Int32) : List UInt8 :=
  encodeNat 4 n.toUInt32.toNat

/-- Read a signed integer. -/
def decodeInt32 : Reader Int32 := do
  return (UInt32.ofNat (← decodeNat 4)).toInt32

/-- A truth value, in one byte. -/
def encodeBool (b : Bool) : List UInt8 :=
  [if b then 1 else 0]

/-- Read a truth value; any byte but 0 and 1 is none. -/
def decodeBool : Reader Bool := do
  let byte ← decodeByte
  if byte = 0 then return false
  else if byte = 1 then return true
  else failure

/-! ## Texts -/

/-- Take some bytes as they are. -/
def decodeBytes (count : Nat) : Reader (List UInt8) := fun bytes =>
  if count ≤ bytes.length then some (bytes.splitAt count) else none

/-- A text: the length of its UTF-8 form, then that form. -/
def encodeText (text : String) : List UInt8 :=
  encodeLength text.utf8ByteSize ++ text.toUTF8.data.toList

/-- Read a text; its bytes have to be valid UTF-8. -/
def decodeText : Reader String := do
  let bytes ← decodeBytes (← decodeLength)
  StateT.lift (String.fromUTF8? ⟨bytes.toArray⟩)

/-! ## Repetition and choice -/

/-- Read a number of things of one sort. -/
def times {α : Type} : Nat → Reader α → Reader (List α)
  | 0, _ => return []
  | count + 1, reader => do
      let first ← reader
      let rest ← times count reader
      return first :: rest

/-- One of a list of plain forms. -/
def encodeOneOf {α : Type} [DecidableEq α] (forms : List α) (form : α) : List UInt8 :=
  encodeTag (forms.idxOf form)

/-- Read one of a list of plain forms. -/
def decodeOneOf {α : Type} (forms : List α) : Reader α := do
  StateT.lift forms[← decodeTag]?

end ExprTree.Wire
