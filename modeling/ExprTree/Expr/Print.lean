/-
# The printed form of expressions

Binary operations stand in brackets; a unary operand does so where two signs would meet. Methods are
called on their target, extension methods on their first argument.
-/
import ExprTree.Expr.Basic

namespace ExprTree

/-- The name of a parameter, or `Param_` and its number if it has none. -/
def Parameter.print (p : Parameter) : String :=
  p.name.getD ("Param_" ++ toString p.number)

instance : ToString Parameter := ⟨Parameter.print⟩

/-- The printed parameters of a lambda: one stands by itself, any other number in brackets. -/
def printParams : List Parameter → String
  | [p] => p.print
  | params => "(" ++ ", ".intercalate (params.map Parameter.print) ++ ")"

/-- The printed form of a call of a method with the given printed operands. -/
def Method.printCall (method : Method) (operands : List String) : String :=
  match method.form, operands with
  | .static, _ | _, [] => method.name ++ "(" ++ ", ".intercalate operands ++ ")"
  | _, target :: args => target ++ "." ++ method.name ++ "(" ++ ", ".intercalate args ++ ")"

namespace Expr

/-- Whether an operand of a unary operator starts with a sign itself, so that brackets keep the two
signs apart. -/
def startsWithSign : Expr → Bool
  | .unary .. => true
  | .constant _ (.int32 n) _ => n < 0
  | _ => false

mutual

/-- The printed form of an expression. -/
def print : Expr → String
  | .constant _ value _ => value.print
  | .parameter p => p.print
  | .member _ target name _ => target.print ++ "." ++ name
  | .call _ method operands => method.printCall (printAll operands)
  | .unary _ op operand =>
      if operand.startsWithSign then op.symbol ++ "(" ++ operand.print ++ ")"
      else op.symbol ++ operand.print
  | .binary _ op left right =>
      "(" ++ left.print ++ " " ++ op.symbol ++ " " ++ right.print ++ ")"
  | .lambda _ params body => printParams params ++ " => " ++ body.print

/-- The printed forms of several expressions. -/
def printAll : List Expr → List String
  | [] => []
  | e :: es => e.print :: printAll es

end

instance : ToString Expr := ⟨print⟩

end Expr

/-- The printed form of a lambda. -/
def Lambda.print (lambda : Lambda) : String :=
  printParams lambda.params ++ " => " ++ lambda.body.print

instance : ToString Lambda := ⟨Lambda.print⟩

/-! ## Forms for inspection -/

/-- An expression with its type. -/
def Expr.describe (e : Expr) : String :=
  s!"Expr({e}: {e.type})"

/-- A parameter with its number and its type. -/
def Parameter.describe (p : Parameter) : String :=
  s!"Parameter#{p.number}({p}: {p.type})"

/-- A lambda with its type. -/
def Lambda.describe (lambda : Lambda) : String :=
  s!"Lambda({lambda}: {lambda.type})"

end ExprTree
