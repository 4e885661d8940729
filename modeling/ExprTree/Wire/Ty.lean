/-
# The binary format of types and operators

A type is the number of its form and then what the form holds; the parameters of a function type have
their number in front and stand before its result. Operators, quantifiers and connectives are plain
forms.
-/
import ExprTree.Operator
import ExprTree.Wire.Basic

namespace ExprTree.Wire

/-! ## Types -/

mutual

/-- The binary form of a type. -/
def encodeTy : Ty → List UInt8
  | .boolean => encodeTag 0
  | .int32 => encodeTag 1
  | .string => encodeTag 2
  | .object => encodeTag 3
  | .entity name => encodeTag 4 ++ encodeText name
  | .sequence element => encodeTag 5 ++ encodeTy element
  | .function params result =>
      encodeTag 6 ++ encodeLength params.length ++ encodeTys params ++ encodeTy result

/-- The binary forms of several types, one after the other. -/
def encodeTys : List Ty → List UInt8
  | [] => []
  | type :: types => encodeTy type ++ encodeTys types

end

/-- Read a type nested less than `depth` deep. -/
def decodeTyWithin : (depth : Nat) → Reader Ty
  | 0 => failure
  | depth + 1 => do
      match ← decodeTag with
      | 0 => return .boolean
      | 1 => return .int32
      | 2 => return .string
      | 3 => return .object
      | 4 => return .entity (← decodeText)
      | 5 => return .sequence (← decodeTyWithin depth)
      | 6 => do
          let count ← decodeLength
          let params ← times count (decodeTyWithin depth)
          let result ← decodeTyWithin depth
          return .function params result
      | _ => failure

/-- Read a type. Each level of nesting takes a byte at least, so the bytes bound the depth. -/
def decodeTy : Reader Ty := fun bytes =>
  decodeTyWithin (bytes.length + 1) bytes

/-! ## Operators -/

/-- The binary form of a binary operator. -/
def encodeBinaryOp : BinaryOp → List UInt8 :=
  encodeOneOf BinaryOp.forms

/-- Read a binary operator. -/
def decodeBinaryOp : Reader BinaryOp :=
  decodeOneOf BinaryOp.forms

/-- The binary form of a unary operator. -/
def encodeUnaryOp : UnaryOp → List UInt8 :=
  encodeOneOf UnaryOp.forms

/-- Read a unary operator. -/
def decodeUnaryOp : Reader UnaryOp :=
  decodeOneOf UnaryOp.forms

/-- The binary form of a quantifier. -/
def encodeQuantifier : Quantifier → List UInt8 :=
  encodeOneOf Quantifier.forms

/-- Read a quantifier. -/
def decodeQuantifier : Reader Quantifier :=
  decodeOneOf Quantifier.forms

/-- The binary form of a connective. -/
def encodeConnective : Connective → List UInt8 :=
  encodeOneOf Connective.forms

/-- Read a connective. -/
def decodeConnective : Reader Connective :=
  decodeOneOf Connective.forms

end ExprTree.Wire
