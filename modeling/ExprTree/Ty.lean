/-
# Types

The declared types of expressions: three scalars, the top type `object`, entities known by name,
sequences, and the function types of lambdas. Assignability says where a value of one type may stand
in for another: sequences and function results vary with the type, function parameters against it.
-/

namespace ExprTree

/-- The declared type of an expression. -/
inductive Ty where
  | boolean
  | int32
  | string
  /-- The type every value has. -/
  | object
  /-- A record type known by name only. -/
  | entity (name : String)
  | sequence (element : Ty)
  /-- The type of a lambda. -/
  | function (params : List Ty) (result : Ty)
  deriving Repr, Inhabited

namespace Ty

/-! ## Equality -/

mutual

/-- Whether two types are the same. -/
def equals : Ty → Ty → Bool
  | .boolean, .boolean | .int32, .int32 | .string, .string | .object, .object => true
  | .entity m, .entity n => m == n
  | .sequence a, .sequence b => a.equals b
  | .function ps r, .function qs s => equalsAll ps qs && r.equals s
  | _, _ => false

/-- Whether two lists of types are the same. -/
def equalsAll : List Ty → List Ty → Bool
  | [], [] => true
  | a :: as, b :: bs => a.equals b && equalsAll as bs
  | _, _ => false

end

mutual

/-- The test of equality decides equality. -/
theorem equals_iff : ∀ a b : Ty, a.equals b = true ↔ a = b
  | .boolean, b | .int32, b | .string, b | .object, b => by cases b <;> simp [equals]
  | .entity m, b => by cases b <;> simp [equals]
  | .sequence a, b => by cases b <;> simp [equals, equals_iff a]
  | .function ps r, b => by cases b <;> simp [equals, equals_iff r, equalsAll_iff ps]

/-- The test of equality decides equality of lists. -/
theorem equalsAll_iff : ∀ as bs : List Ty, equalsAll as bs = true ↔ as = bs
  | [], bs => by cases bs <;> simp [equalsAll]
  | a :: as, bs => by cases bs <;> simp [equalsAll, equals_iff a, equalsAll_iff as]

end

instance : DecidableEq Ty := fun a b => decidable_of_iff _ (equals_iff a b)

/-! ## Shape -/

/-- The type of the elements of a sequence type. -/
def element? : Ty → Option Ty
  | .sequence element => some element
  | _ => none

/-- Whether members can be read of a value of this type. -/
def hasMembers : Ty → Bool
  | .entity _ | .string | .object => true
  | _ => false

/-- Whether this is the type of truth values. -/
def isBoolean : Ty → Bool
  | .boolean => true
  | _ => false

/-! ## Assignability -/

/-- The two directions in which a pair of types can be compared. -/
inductive Direction where
  /-- The left type has to take values of the right one. -/
  | leftward
  /-- The right type has to take values of the left one. -/
  | rightward
  deriving DecidableEq, Repr

/-- The opposite direction. -/
def Direction.flip : Direction → Direction
  | .leftward => .rightward
  | .rightward => .leftward

mutual

/-- Whether, of two types, the one that the direction points at takes the values of the other. The
direction turns around at function parameters, so the recursion follows the left type alone. -/
def flows : Direction → Ty → Ty → Bool
  | d, .sequence a, .sequence b => flows d a b
  | d, .function ps r, .function qs s => flowsAll d.flip ps qs && flows d r s
  | .leftward, a, b => a = .object || a = b
  | .rightward, a, b => b = .object || a = b

/-- `flows` for two lists of one length, position by position. -/
def flowsAll : Direction → List Ty → List Ty → Bool
  | _, [], [] => true
  | d, a :: as, b :: bs => flows d a b && flowsAll d as bs
  | _, _, _ => false

end

/-- Whether a value of type `source` may stand where one of type `target` is expected. -/
def accepts (target source : Ty) : Bool :=
  flows .leftward target source

/-! ## Printed form -/

mutual

/-- The printed form of a type; a function type lists its parameters before its result. -/
def print : Ty → String
  | .boolean => "Boolean"
  | .int32 => "Int32"
  | .string => "String"
  | .object => "Object"
  | .entity name => name
  | .sequence element => "Sequence<" ++ element.print ++ ">"
  | .function params result =>
      "Func<" ++ ", ".intercalate (printAll params ++ [result.print]) ++ ">"

/-- The printed forms of several types. -/
def printAll : List Ty → List String
  | [] => []
  | type :: types => type.print :: printAll types

end

instance : ToString Ty := ⟨print⟩

end Ty

end ExprTree
