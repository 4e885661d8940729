/-
# Splicing

A selector and a continuation that takes what it returns become one lambda: the body of the selector
stands wherever the continuation uses its parameter.
-/
import ExprTree.Expr.Substitution

namespace ExprTree.Lambda

/-- Put a continuation behind a selector. -/
def splice (selector continuation : Lambda) : Build Lambda :=
  match continuation.params with
  | [p] =>
      if p.type.accepts selector.resultType then do
        let body ← continuation.body.replace (.parameter p) selector.body
        let spliced ← Build.lambda selector.params body
        Build.note (.spliced continuation selector spliced)
        return spliced
      else
        Build.mismatch (.continuation selector.resultType continuation.type)
  | _ => Build.mismatch (.continuation selector.resultType continuation.type)

/-- Put a continuation behind a selector, where either may be missing. -/
def spliceOptional : Option Lambda → Option Lambda → Build Lambda
  | none, _ => throw (.missingArgument .selector)
  | _, none => throw (.missingArgument .continuation)
  | some selector, some continuation => splice selector continuation

end ExprTree.Lambda
