/-
# Methods

What a call calls: a method declared with its signature, whose meaning is left to whoever evaluates
the call, or a quantifier made for one type of elements.
-/
import ExprTree.Operator

namespace ExprTree

/-- How a call is written. -/
inductive CallForm where
  /-- A free function of its arguments. -/
  | static
  /-- A method called on a target. -/
  | onTarget
  /-- A free function whose first argument is written as if it were a target. -/
  | extension
  deriving DecidableEq, Repr, Inhabited

/-- What a call calls. -/
inductive Method where
  | declared (name : String) (form : CallForm) (params : List Ty) (result : Ty)
  /-- A quantifier over sequences of elements of a type. -/
  | sequence (quantifier : Quantifier) (element : Ty)
  deriving DecidableEq, Inhabited

namespace Method

/-- The name under which a method is called. -/
def name : Method → String
  | .declared name .. => name
  | .sequence quantifier _ => quantifier.name

/-- How a call of the method is written. -/
def form : Method → CallForm
  | .declared _ form .. => form
  | .sequence .. => .extension

/-- The types of the arguments, without the target of an instance method. -/
def params : Method → List Ty
  | .declared _ _ params _ => params
  | .sequence quantifier element => quantifier.params element

/-- The type of a call of the method. -/
def result : Method → Ty
  | .declared _ _ _ result => result
  | .sequence .. => .boolean

/-- The quantifier, if the method is one. -/
def quantifier? : Method → Option Quantifier
  | .declared .. => none
  | .sequence quantifier _ => some quantifier

end Method

end ExprTree
