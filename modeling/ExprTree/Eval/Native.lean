/-
# Native functions

Declared methods mean nothing by themselves: whoever evaluates a call gives a native function for the
name of its method. A native function may go by the calls made before it, so it need not give the same
answer each time.
-/
import ExprTree.Error

namespace ExprTree

/-- A call of a native function. -/
structure NativeCall where
  function : String
  args : List Value
  deriving DecidableEq, Inhabited

/-- The calls of native functions made so far, in order. -/
abbrev History := Array NativeCall

/-- A native function: from the calls made before and its arguments to a value, or a failure of any
kind. -/
abbrev Native := History → List Value → Except Failure Value

/-- Evaluations: they add to the history of native calls and may fail. -/
abbrev EvalM := ExceptT EvalFault (StateM History)

namespace EvalM

/-- Fail for a reason. -/
def fail {α : Type} (fault : EvalFault) : EvalM α :=
  throw fault

/-- The outcome of an operation on values. -/
def ofExcept {α : Type} : Except EvalFault α → EvalM α
  | .ok result => pure result
  | .error fault => fail fault

/-- The truth value that a value has to be. -/
def truth (place : TruthPlace) (value : Value) : EvalM Bool :=
  match value.bool? with
  | some b => pure b
  | none => fail (.notBoolean place value)

/-- The list that the source of a quantifier has to be. -/
def elements (quantifier : Quantifier) (source : Value) : EvalM (List Value) :=
  match source.elements? with
  | some elements => pure elements
  | none => fail (.notList quantifier source)

/-- The member of a value that has to be a record. -/
def member (name : String) : Value → EvalM Value
  | .record typeName fields =>
      match (Record.mk typeName fields).get? name with
      | some value => pure value
      | none => fail (.noMember typeName name)
  | value => fail (.notRecord name value)

/-- Call a native function. The call enters the history before its outcome is known. -/
def callNative (name : String) (function : Native) (args : List Value) : EvalM Value := do
  let earlier ← get
  set (earlier.push ⟨name, args⟩)
  match function earlier args with
  | .ok result => pure result
  | .error failure => fail (.native failure)

/-- Run an evaluation after the given native calls. -/
def runAfter {α : Type} (action : EvalM α) (history : History) : Except EvalFault α × History :=
  action.run.run history

end EvalM

end ExprTree
