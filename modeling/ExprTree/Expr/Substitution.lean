/-
# Substitution

A substitution puts other nodes in the place of the ones it picks and builds everything above them
anew through the checked constructors. Leaves that are not picked stay the nodes they are.
-/
import ExprTree.Expr.Build

namespace ExprTree

/-- The target and the arguments among the operands of a call. -/
def Method.splitOperands (method : Method) (operands : List Expr) : Option Expr × List Expr :=
  match method.form, operands with
  | .onTarget, target :: args => (some target, args)
  | _, args => (none, args)

/-- Which nodes a substitution puts something else in the place of, and what. -/
abbrev Pick := Expr → Option Expr

namespace Expr

/-- Substitute in an entry of a parameter list. -/
def substituteParameter (pick : Pick) (p : Parameter) : Build Parameter :=
  match pick (.parameter p) with
  | none => return p
  | some replacement => do
      Build.note (.replaced (.parameter p) replacement)
      Build.parameter replacement

mutual

/-- Substitute in an expression. What takes the place of a picked node stays as it is. -/
def substitute (pick : Pick) (e : Expr) : Build Expr :=
  match pick e with
  | some replacement => do
      Build.note (.replaced e replacement)
      return replacement
  | none =>
      match e with
      | .constant .. | .parameter _ => return e
      | .member _ target name type => do
          Build.member (← substitute pick target) name type
      | .call _ method operands => do
          let (target, args) := method.splitOperands (← substituteAll pick operands)
          Build.call target method args
      | .unary _ op operand => do
          Build.unary op (← substitute pick operand)
      | .binary _ op left right => do
          let left ← substitute pick left
          let right ← substitute pick right
          Build.binary op left right
      | .lambda _ params body => do
          let params ← params.mapM (substituteParameter pick)
          let body ← substitute pick body
          (← Build.lambda params body).toExpr

/-- Substitute in several expressions, one after the other. -/
def substituteAll (pick : Pick) : List Expr → Build (List Expr)
  | [] => return []
  | e :: es => do
      let e ← substitute pick e
      let es ← substituteAll pick es
      return e :: es

end

/-- A copy of an expression with new nodes everywhere but at the leaves. -/
def rebuild (e : Expr) : Build Expr :=
  e.substitute fun _ => none

/-- Pick one node, wherever it stands, for something to take its place. -/
def replacing (node replacement : Expr) : Pick :=
  fun e => if e = node then some replacement else none

/-- A copy of an expression with another one wherever a certain node stands. -/
def replace (e node replacement : Expr) : Build Expr :=
  e.substitute (replacing node replacement)

end Expr

namespace Lambda

/-- Substitute in the parameter list of a lambda, then in its body. -/
def substitute (pick : Pick) (lambda : Lambda) : Build Lambda := do
  let params ← lambda.params.mapM (Expr.substituteParameter pick)
  let body ← lambda.body.substitute pick
  Build.lambda params body

/-- A copy of a lambda with new nodes everywhere but at the leaves. -/
def rebuild (lambda : Lambda) : Build Lambda :=
  lambda.substitute fun _ => none

/-- A copy of a lambda with another node wherever a certain node stands, in the parameter list too. -/
def replace (lambda : Lambda) (node replacement : Expr) : Build Lambda :=
  lambda.substitute (Expr.replacing node replacement)

end Lambda

end ExprTree
