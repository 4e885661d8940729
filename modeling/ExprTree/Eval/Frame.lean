/-
# Frames

The parameters of the lambdas being run and their arguments. The innermost frame that declares a
parameter gives its value.
-/
import ExprTree.Eval.Native

namespace ExprTree

/-- The parameters of one running lambda and its arguments, position by position. -/
structure Frame where
  params : List Parameter
  args : List Value

/-- The frames of the lambdas being run, the innermost first. -/
abbrev Frames := List Frame

/-- The value of a parameter. -/
def Frames.lookup : Frames → Parameter → EvalM Value
  | [], p => EvalM.fail (.unbound p)
  | frame :: outer, p =>
      match frame.params.idxOf? p with
      | none => lookup outer p
      | some position =>
          match frame.args[position]? with
          | some value => pure value
          | none => EvalM.fail (.noArgument p)

end ExprTree
