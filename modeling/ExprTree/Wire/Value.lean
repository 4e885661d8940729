/-
# The binary format of values and records

Fields are written in the order of their names. They may be read in any order, and of two fields of
one name the later one stays.
-/
import ExprTree.Value
import ExprTree.Wire.Basic

namespace ExprTree.Wire

mutual

/-- The binary form of a value. -/
def encodeValue : Value → List UInt8
  | .boolean b => encodeTag 0 ++ encodeBool b
  | .int32 n => encodeTag 1 ++ encodeInt32 n
  | .string text => encodeTag 2 ++ encodeText text
  | .record typeName fields =>
      encodeTag 3 ++ encodeText typeName ++ encodeLength fields.length ++ encodeFields fields
  | .list elements => encodeTag 4 ++ encodeLength elements.length ++ encodeValues elements

/-- The binary forms of fields, each its name and its value. -/
def encodeFields : List (String × Value) → List UInt8
  | [] => []
  | (name, value) :: fields => encodeText name ++ encodeValue value ++ encodeFields fields

/-- The binary forms of several values, one after the other. -/
def encodeValues : List Value → List UInt8
  | [] => []
  | value :: values => encodeValue value ++ encodeValues values

end

/-- Read a field, given how to read its value. -/
def decodeField (value : Reader Value) : Reader (String × Value) := do
  let name ← decodeText
  return (name, ← value)

/-- Read a record, given how to read the values of its fields. -/
def decodeRecordOf (value : Reader Value) : Reader Record := do
  let typeName ← decodeText
  let count ← decodeLength
  let fields ← times count (decodeField value)
  return ⟨typeName, Table.ofList fields⟩

/-- Read a value nested less than `depth` deep. -/
def decodeValueWithin : (depth : Nat) → Reader Value
  | 0 => failure
  | depth + 1 => do
      match ← decodeTag with
      | 0 => return .boolean (← decodeBool)
      | 1 => return .int32 (← decodeInt32)
      | 2 => return .string (← decodeText)
      | 3 => return (← decodeRecordOf (decodeValueWithin depth)).toValue
      | 4 => do
          let count ← decodeLength
          return .list (← times count (decodeValueWithin depth))
      | _ => failure

/-- Read a value. Each level of nesting takes a byte at least, so the bytes bound the depth. -/
def decodeValue : Reader Value := fun bytes =>
  decodeValueWithin (bytes.length + 1) bytes

/-- The binary form of a record. -/
def encodeRecord (record : Record) : List UInt8 :=
  encodeText record.typeName ++ encodeLength record.fields.length ++ encodeFields record.fields

/-- Read a record. -/
def decodeRecord : Reader Record := fun bytes =>
  decodeRecordOf (decodeValueWithin (bytes.length + 1)) bytes

end ExprTree.Wire
