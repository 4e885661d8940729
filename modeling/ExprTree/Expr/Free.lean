/-
# Free parameters

The parameters an expression uses and no lambda in it declares, found by one walk over the tree with
the parameters declared so far on the path and the ones found so far.
-/
import ExprTree.Expr.Basic

namespace ExprTree

namespace Expr

mutual

/-- Add to `found` the parameters that occur free in an expression below lambdas that declare
`bound`. Each is listed once, at its first free place. -/
def collectFree (bound found : List Parameter) : Expr → List Parameter
  | .constant .. => found
  | .parameter p => if p ∈ bound ∨ p ∈ found then found else found ++ [p]
  | .member _ target .. => collectFree bound found target
  | .call _ _ operands => collectFreeAll bound found operands
  | .unary _ _ operand => collectFree bound found operand
  | .binary _ _ left right => collectFree bound (collectFree bound found left) right
  | .lambda _ params body => collectFree (params ++ bound) found body

/-- `collectFree` for several expressions, one after the other. -/
def collectFreeAll (bound found : List Parameter) : List Expr → List Parameter
  | [] => found
  | e :: es => collectFreeAll bound (collectFree bound found e) es

end

/-- The free parameters of an expression, in the order of their first free places. -/
def free (e : Expr) : List Parameter :=
  collectFree [] [] e

end Expr

/-- The parameters the body of a lambda uses without the lambda declaring them. -/
def Lambda.free (lambda : Lambda) : List Parameter :=
  lambda.body.free.filter (· ∉ lambda.params)

/-- Whether the body of a lambda uses only what the lambda declares. -/
def Lambda.isClosed (lambda : Lambda) : Bool :=
  lambda.free.isEmpty

end ExprTree
