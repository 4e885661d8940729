/-
# Operators, connectives and quantifiers

The operators of expressions with the operand types they take and the type they give, the two
connectives that join predicates, and the quantifiers that range over a sequence.
-/
import ExprTree.Ty

namespace ExprTree

/-! ## Binary operators -/

/-- The operators with two operands. -/
inductive BinaryOp where
  | add
  | sub
  | mul
  | div
  | eq
  | ne
  | lt
  | le
  | gt
  | ge
  /-- Conjunction; the right operand counts only if the left one holds. -/
  | andAlso
  /-- Disjunction; the right operand counts only if the left one fails to hold. -/
  | orElse
  deriving DecidableEq, Repr, Inhabited

namespace BinaryOp

/-- The type an application of the operator has. -/
def resultType : BinaryOp → Ty
  | .add | .sub | .mul | .div => .int32
  | .eq | .ne | .lt | .le | .gt | .ge | .andAlso | .orElse => .boolean

/-- Whether the operator takes operands of these types. Equality wants one side assignable to the
other, order wants two integers or two texts. -/
def takes (op : BinaryOp) (left right : Ty) : Bool :=
  match op with
  | .add | .sub | .mul | .div => left = .int32 && right = .int32
  | .eq | .ne => left.accepts right || right.accepts left
  | .lt | .le | .gt | .ge =>
      left = .int32 && right = .int32 || left = .string && right = .string
  | .andAlso | .orElse => left = .boolean && right = .boolean

/-- The type of an application to operands of these types, if the operator takes them. -/
def outputType? (op : BinaryOp) (left right : Ty) : Option Ty :=
  if op.takes left right then some op.resultType else none

/-- Whether the operator connects truth values. -/
def isLogical : BinaryOp → Bool
  | .andAlso | .orElse => true
  | _ => false

/-- The symbol of the operator. -/
def symbol : BinaryOp → String
  | .add => "+"
  | .sub => "-"
  | .mul => "*"
  | .div => "/"
  | .eq => "=="
  | .ne => "!="
  | .lt => "<"
  | .le => "<="
  | .gt => ">"
  | .ge => ">="
  | .andAlso => "&&"
  | .orElse => "||"

/-- All binary operators, in the order of their numbers in the binary format. -/
def forms : List BinaryOp :=
  [.add, .sub, .mul, .div, .eq, .ne, .lt, .le, .gt, .ge, .andAlso, .orElse]

instance : ToString BinaryOp := ⟨symbol⟩

end BinaryOp

/-! ## Unary operators -/

/-- The operators with one operand. -/
inductive UnaryOp where
  | not
  | negate
  deriving DecidableEq, Repr, Inhabited

namespace UnaryOp

/-- The type an operand has, and an application of the operator too. -/
def resultType : UnaryOp → Ty
  | .not => .boolean
  | .negate => .int32

/-- The type of an application to an operand of this type, if the operator takes it. -/
def outputType? (op : UnaryOp) (operand : Ty) : Option Ty :=
  if operand = op.resultType then some op.resultType else none

/-- The symbol of the operator. -/
def symbol : UnaryOp → String
  | .not => "!"
  | .negate => "-"

/-- All unary operators, in the order of their numbers in the binary format. -/
def forms : List UnaryOp :=
  [.not, .negate]

instance : ToString UnaryOp := ⟨symbol⟩

end UnaryOp

/-! ## Connectives -/

/-- The two ways to join predicates. -/
inductive Connective where
  | and
  | or
  deriving DecidableEq, Repr, Inhabited

namespace Connective

/-- The short-circuiting operator a connective stands for. -/
def toOperator : Connective → BinaryOp
  | .and => .andAlso
  | .or => .orElse

/-- The connective a short-circuiting operator stands for. -/
def ofOperator? : BinaryOp → Option Connective
  | .andAlso => some .and
  | .orElse => some .or
  | _ => none

/-- Read a connective: its name in any mix of ASCII cases, or its symbol. -/
def ofText? (text : String) : Option Connective :=
  let folded := text.toLower
  if folded = "and" ∨ folded = "&&" then some .and
  else if folded = "or" ∨ folded = "||" then some .or
  else none

/-- The printed name of a connective. -/
def print : Connective → String
  | .and => "AND"
  | .or => "OR"

/-- Both connectives, in the order of their numbers in the binary format. -/
def forms : List Connective :=
  [.and, .or]

instance : ToString Connective := ⟨print⟩

end Connective

/-! ## Quantifiers -/

/-- The operators that range over the elements of a sequence. -/
inductive Quantifier where
  /-- Some element satisfies a predicate. -/
  | any
  /-- Every element satisfies a predicate. -/
  | all
  /-- Some element equals a value. -/
  | contains
  deriving DecidableEq, Repr, Inhabited

namespace Quantifier

/-- The name under which a quantifier is called. -/
def name : Quantifier → String
  | .any => "Any"
  | .all => "All"
  | .contains => "Contains"

/-- The types of the two arguments of a quantifier over elements of a type: the sequence, and a
predicate on its elements or an element. -/
def params (quantifier : Quantifier) (element : Ty) : List Ty :=
  match quantifier with
  | .any | .all => [.sequence element, .function [element] .boolean]
  | .contains => [.sequence element, element]

/-- All quantifiers, in the order of their numbers in the binary format. -/
def forms : List Quantifier :=
  [.any, .all, .contains]

instance : ToString Quantifier := ⟨name⟩

end Quantifier

end ExprTree
