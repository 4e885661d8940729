/-
# Lifting predicates over a sequence

A selector of a sequence and a predicate on its elements become a predicate on what the selector is
applied to: that some or every element satisfies the predicate, or that some element is a given value.
-/
import ExprTree.Expr.Build

namespace ExprTree.Lambda

/-- The type of the elements a selector selects. -/
def elementType (selector : Lambda) : Build Ty :=
  match selector.resultType.element? with
  | some element => return element
  | none => Build.mismatch (.notSequence selector.resultType)

/-- Apply a quantifier over elements of a type to the body of a selector and an operand. -/
def quantifyOver (quantifier : Quantifier) (selector : Lambda) (element : Ty) (operand : Expr) :
    Build Lambda := do
  let call ← Build.call none (.sequence quantifier element) [selector.body, operand]
  let lifted ← Build.lambda selector.params call
  Build.note (.lifted selector quantifier lifted)
  return lifted

/-- Lift a predicate on elements. The predicate keeps its own parameter. -/
def lift (quantifier : Quantifier) (selector predicate : Lambda) : Build Lambda := do
  let element ← elementType selector
  match predicate.params with
  | [p] =>
      if p.type.accepts element then
        if predicate.resultType.isBoolean then
          let operand ← predicate.toExpr
          quantifyOver quantifier selector p.type operand
        else
          Build.mismatch (.predicateResult quantifier predicate.resultType)
      else
        Build.mismatch (.predicateParam quantifier p.type selector.resultType)
  | params => Build.mismatch (.predicateArity quantifier params.length)

/-- That some selected element satisfies a predicate. -/
def any (selector predicate : Lambda) : Build Lambda :=
  lift .any selector predicate

/-- That every selected element satisfies a predicate. -/
def all (selector predicate : Lambda) : Build Lambda :=
  lift .all selector predicate

/-- That some selected element is the given value. -/
def contains (selector : Lambda) (value : Value) : Build Lambda := do
  let element ← elementType selector
  match value.type? with
  | none => Build.mismatch (.untypedElement value)
  | some type =>
      if element.accepts type then
        let operand ← Build.constant value
        quantifyOver .contains selector element operand
      else
        Build.mismatch (.foreignElement value type selector.resultType)

end ExprTree.Lambda
