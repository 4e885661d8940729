/-
# Joining predicates

Two predicates become one that holds where both do, or where one does. The joined predicate has
parameters of its own, and both bodies come to use these.
-/
import ExprTree.Expr.Substitution

namespace ExprTree

namespace Connective

/-- The connective an operator stands for. -/
def ofOperator (op : BinaryOp) : Except Error Connective :=
  match ofOperator? op with
  | some connective => .ok connective
  | none => .error (.unsupported (.notLogical op))

/-- Read a connective. -/
def ofText (text : String) : Except Error Connective :=
  match ofText? text with
  | some connective => .ok connective
  | none => .error (.unsupported (.unknownConnective text))

end Connective

namespace Lambda

/-- Put the fresh parameters in the place of the left and the right ones, position by position, each
time in the left body first. -/
def unifyParams :
    List Parameter → List Parameter → List Parameter → Expr → Expr → Build (Expr × Expr)
  | l :: lefts, r :: rights, fresh :: others, leftBody, rightBody => do
      let leftBody ← leftBody.replace (.parameter l) (.parameter fresh)
      let rightBody ← rightBody.replace (.parameter r) (.parameter fresh)
      unifyParams lefts rights others leftBody rightBody
  | _, _, _, leftBody, rightBody => return (leftBody, rightBody)

/-- Join two predicates over parameters of the same types. The new parameters have the names of the
left ones. -/
def join (connective : Connective) (left right : Lambda) : Build Lambda :=
  if left.paramTypes = right.paramTypes then do
    let fresh ← left.params.mapM fun p => Build.freshParameter p.name p.type
    let (leftBody, rightBody) ← unifyParams left.params right.params fresh left.body right.body
    let body ← Build.binary connective.toOperator leftBody rightBody
    let joined ← Build.lambda fresh body
    Build.note (.joined left connective right joined)
    return joined
  else
    Build.mismatch (.joinedParams left.type right.type)

/-- Join two optional predicates. Where one is missing the other one stands for both. -/
def joinOptional (connective : Connective) : Option Lambda → Option Lambda → Build (Option Lambda)
  | none, right => return right
  | left, none => return left
  | some left, some right => return some (← join connective left right)

/-- Join two optional predicates by an operator, which has to stand for a connective. -/
def joinByOperator (op : BinaryOp) (left right : Option Lambda) : Build (Option Lambda) := do
  joinOptional (← ofExcept (Connective.ofOperator op)) left right

/-- Join the predicates that are there, from left to right. -/
def joinAll (connective : Connective) (predicates : List (Option Lambda)) :
    Build (Option Lambda) :=
  predicates.foldlM (joinOptional connective) none

end Lambda

end ExprTree
