/-
# Evaluation

An evaluator knows native functions by name and gives expressions their values. `&&` and `||` look at
their right operand only when the left one leaves the answer open, and so do quantifiers with the
elements that follow.
-/
import ExprTree.Eval.Frame
import ExprTree.Eval.Operation

namespace ExprTree

/-- The native functions known, as a table. -/
structure Evaluator where
  functions : List (String × Native) := []

namespace Evaluator

/-- Make a native function known, in the place of an earlier one of its name. -/
def register (evaluator : Evaluator) (name : String) (function : Native) : Evaluator :=
  { evaluator with functions := Table.insert name function evaluator.functions }

/-- The native function of a name. -/
def function? (evaluator : Evaluator) (name : String) : Option Native :=
  evaluator.functions.lookup name

/-- The evaluator with the quoted names of its functions, for inspection. -/
def describe (evaluator : Evaluator) : String :=
  let names := (Table.names evaluator.functions).map Text.quote
  "Evaluator \x7b functions: [" ++ ", ".intercalate names ++ "] \x7d"

mutual

/-- The value of an expression inside the given frames. -/
def evaluate (evaluator : Evaluator) (frames : Frames) : Expr → EvalM Value
  | .constant _ value _ => pure value
  | .parameter p => frames.lookup p
  | .member _ target name _ => do
      EvalM.member name (← evaluate evaluator frames target)
  | .call _ (.declared name ..) operands =>
      match evaluator.function? name with
      | none => EvalM.fail (.unknownFunction name)
      | some function => do
          EvalM.callNative name function (← evaluateAll evaluator frames operands)
  | .call _ (.sequence quantifier _) [source, operand] => do
      let source ← evaluate evaluator frames source
      let elements ← EvalM.elements quantifier source
      match quantifier with
      | .contains => do
          let needle ← evaluate evaluator frames operand
          return .boolean (elements.contains needle)
      | .any => do
          let predicate ← evaluatePredicate evaluator frames .any operand
          return .boolean (← elements.anyM predicate)
      | .all => do
          let predicate ← evaluatePredicate evaluator frames .all operand
          return .boolean (← elements.allM predicate)
  | .call _ (.sequence quantifier _) operands =>
      EvalM.fail (.quantifierArity quantifier operands.length)
  | .unary _ op operand => do
      let value ← evaluate evaluator frames operand
      EvalM.ofExcept (op.apply value)
  | .binary _ op left right =>
      match op with
      | .andAlso => do
          if ← EvalM.truth (.operand .and) (← evaluate evaluator frames left) then
            return .boolean (← EvalM.truth (.operand .and) (← evaluate evaluator frames right))
          else
            return .boolean false
      | .orElse => do
          if ← EvalM.truth (.operand .or) (← evaluate evaluator frames left) then
            return .boolean true
          else
            return .boolean (← EvalM.truth (.operand .or) (← evaluate evaluator frames right))
      | op => do
          let left ← evaluate evaluator frames left
          let right ← evaluate evaluator frames right
          EvalM.ofExcept (op.apply left right)
  | .lambda .. => EvalM.fail .lambdaValue

/-- The values of several expressions, one after the other. -/
def evaluateAll (evaluator : Evaluator) (frames : Frames) : List Expr → EvalM (List Value)
  | [] => return []
  | e :: es => do
      let value ← evaluate evaluator frames e
      let values ← evaluateAll evaluator frames es
      return value :: values

/-- The test of elements that the operand of a quantifier stands for: a lambda is run in a frame of
its own inside the given ones. -/
def evaluatePredicate (evaluator : Evaluator) (frames : Frames) (quantifier : Quantifier) :
    Expr → EvalM (Value → EvalM Bool)
  | .lambda _ params body =>
      return fun element => do
        let value ← evaluate evaluator (⟨params, [element]⟩ :: frames) body
        EvalM.truth .predicateResult value
  | operand => EvalM.fail (.notLambda quantifier operand)

end

/-- Run a lambda on arguments. -/
def invoke (evaluator : Evaluator) (lambda : Lambda) (args : List Value) : EvalM Value :=
  if args.length = lambda.params.length then
    evaluator.evaluate [⟨lambda.params, args⟩] lambda.body
  else
    EvalM.fail (.argumentCount lambda args.length)

/-- Run a predicate on arguments; it has to return a truth value. -/
def test (evaluator : Evaluator) (predicate : Lambda) (args : List Value) : EvalM Bool := do
  EvalM.truth .predicateResult (← evaluator.invoke predicate args)

end Evaluator

end ExprTree
