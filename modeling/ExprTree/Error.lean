/-
# Errors

Why an expression cannot be built, combined or evaluated. Each cause keeps the values, types and
expressions it is about; the wording is given in one place for each family of causes. What is shown
of an error is a failure: its kind and its text.
-/
import ExprTree.Expr.Print

namespace ExprTree

/-! ## What is shown of an error -/

/-- The kinds of errors. -/
inductive FailureKind where
  | missingArgument
  | mismatch
  | unsupported
  /-- A node that cannot be built, with the name of its kind. -/
  | invalidNode (node : String)
  | evaluation
  deriving DecidableEq, Repr

/-- How an error of each kind is announced. -/
def FailureKind.title : FailureKind → String
  | .missingArgument => "Missing argument"
  | .mismatch => "Shape mismatch"
  | .unsupported => "Unsupported operation"
  | .invalidNode node => s!"Invalid {node} node"
  | .evaluation => "Evaluation error"

/-- An error as it is shown: its kind, and a text that says what went wrong. -/
structure Failure where
  kind : FailureKind
  text : String
  deriving DecidableEq, Repr

/-- The wording of a failure. -/
def Failure.message (failure : Failure) : String :=
  failure.kind.title ++ ": " ++ failure.text

/-- A text alone is that of a failed evaluation. -/
instance : Coe String Failure where
  coe text := ⟨.evaluation, text⟩

/-! ## Nodes that cannot be built -/

/-- Why a node cannot be built from what it is given. -/
inductive NodeFault where
  /-- A constant of a value without a declared type. -/
  | untypedConstant (value : Value)
  /-- A member of a target whose type has none. -/
  | noMembers (target : Expr) (name : String)
  /-- A call of an instance method without a target. -/
  | missingTarget (method : Method)
  /-- A call of any other method with a target. -/
  | needlessTarget (method : Method)
  /-- A call of an extension method that has no parameter to stand before the dot. -/
  | noReceiver (method : Method)
  | argumentCount (method : Method) (count : Nat)
  | argumentType (method : Method) (position : Nat) (actual expected : Ty)
  | unaryOperand (op : UnaryOp) (operand : Ty)
  | binaryOperands (op : BinaryOp) (left right : Ty)
  /-- A lambda that declares a parameter twice. -/
  | repeatedParameter (p : Parameter)
  /-- A lambda with something else in the place of a parameter. -/
  | notParameter (e : Expr)
  /-- A lambda that should be closed and uses a parameter it does not declare. -/
  | undeclaredParameter (lambda : Lambda) (p : Parameter)

namespace NodeFault

/-- The kind of the node that cannot be built. -/
def kind : NodeFault → NodeKind
  | .untypedConstant _ => .constant
  | .noMembers .. => .member
  | .missingTarget _ | .needlessTarget _ | .noReceiver _ | .argumentCount ..
  | .argumentType .. => .call
  | .unaryOperand .. => .unary
  | .binaryOperands .. => .binary
  | .repeatedParameter _ | .notParameter _ | .undeclaredParameter .. => .lambda

/-- The wording of a fault. -/
def message : NodeFault → String
  | .untypedConstant value => s!"{value} has no declared type"
  | .noMembers target name => s!"{target} of type {target.type} has no member {name}"
  | .missingTarget method => s!"instance method {method.name} requires a target"
  | .needlessTarget method => s!"static method {method.name} cannot have a target"
  | .noReceiver method => s!"extension method {method.name} has no receiver parameter"
  | .argumentCount method count =>
      s!"method {method.name} expects {method.params.length} arguments, got {count}"
  | .argumentType method position actual expected =>
      s!"argument {position} of {method.name} has type {actual}, expected {expected}"
  | .unaryOperand op operand => s!"operator {op} does not accept {operand}"
  | .binaryOperands op left right => s!"operator {op} does not accept {left} and {right}"
  | .repeatedParameter p => s!"parameter {p} is declared more than once"
  | .notParameter e => s!"{e.kind.name} node {e} cannot be used as a parameter"
  | .undeclaredParameter lambda p => s!"body of {lambda} references undeclared parameter {p}"

end NodeFault

/-! ## Lambdas that cannot be combined -/

/-- Why lambdas cannot be combined. -/
inductive Mismatch where
  /-- Predicates to be joined that declare parameters of different types. -/
  | joinedParams (left right : Ty)
  /-- A selector of something else than a sequence. -/
  | notSequence (result : Ty)
  | predicateArity (quantifier : Quantifier) (count : Nat)
  /-- A predicate that does not take the elements of the sequence. -/
  | predicateParam (quantifier : Quantifier) (param sequence : Ty)
  | predicateResult (quantifier : Quantifier) (result : Ty)
  /-- A value without a declared type, looked for in a sequence. -/
  | untypedElement (value : Value)
  /-- A value of another type than the elements of the sequence. -/
  | foreignElement (value : Value) (type sequence : Ty)
  /-- A continuation that does not take what the selector returns. -/
  | continuation (selected type : Ty)

/-- The wording of a mismatch. -/
def Mismatch.message : Mismatch → String
  | .joinedParams left right =>
      "parameters of left predicate must match parameters of right predicate: "
        ++ s!"{left} vs {right}"
  | .notSequence result => s!"collection selector must return a sequence, got {result}"
  | .predicateArity quantifier count =>
      s!"{quantifier} predicate must take exactly one parameter, got {count}"
  | .predicateParam quantifier param sequence =>
      s!"{quantifier} predicate over {param} cannot accept elements of {sequence}"
  | .predicateResult quantifier result =>
      s!"{quantifier} predicate must return Boolean, got {result}"
  | .untypedElement value => s!"Contains needs a scalar or record value, got {value}"
  | .foreignElement value type sequence =>
      s!"value {value} of type {type} cannot be an element of {sequence}"
  | .continuation selected type =>
      s!"continuation must take one parameter assignable from {selected}, got {type}"

/-- The two lambdas a splice needs. -/
inductive SpliceArgument where
  | selector
  | continuation
  deriving DecidableEq, Repr

/-- The name of an argument of a splice. -/
def SpliceArgument.name : SpliceArgument → String
  | .selector => "selector"
  | .continuation => "continuation"

/-- Requests for a connective there is not. -/
inductive Unsupported where
  | unknownConnective (text : String)
  | notLogical (op : BinaryOp)

/-- The wording of an unsupported request. -/
def Unsupported.message : Unsupported → String
  | .unknownConnective text => "unknown logical operation '" ++ text ++ "'"
  | .notLogical op => s!"{op} is not a logical operator"

/-! ## Evaluations that fail -/

/-- The places that need a truth value. -/
inductive TruthPlace where
  | operand (connective : Connective)
  | predicateResult
  deriving DecidableEq, Repr

/-- The name of a place that needs a truth value. -/
def TruthPlace.name : TruthPlace → String
  | .operand connective => connective.toOperator.symbol ++ " operand"
  | .predicateResult => "predicate result"

/-- Why an evaluation fails. -/
inductive EvalFault where
  | argumentCount (lambda : Lambda) (count : Nat)
  | unbound (p : Parameter)
  /-- A frame that declares the parameter and has no argument for it. -/
  | noArgument (p : Parameter)
  | noMember (typeName name : String)
  | notRecord (name : String) (value : Value)
  | unknownFunction (name : String)
  | notBoolean (place : TruthPlace) (value : Value)
  | unaryOperand (op : UnaryOp) (value : Value)
  | binaryOperands (op : BinaryOp) (left right : Value)
  | divisionByZero
  /-- A lambda where only a value can stand. -/
  | lambdaValue
  | quantifierArity (quantifier : Quantifier) (count : Nat)
  | notList (quantifier : Quantifier) (value : Value)
  | notLambda (quantifier : Quantifier) (e : Expr)
  /-- A native function failed, with an error of any kind. -/
  | native (failure : Failure)

/-- What is shown of a failed evaluation. The failure of a native function is passed on as it is. -/
def EvalFault.failure : EvalFault → Failure
  | .argumentCount lambda count =>
      s!"{lambda} expects {lambda.params.length} arguments, got {count}"
  | .unbound p => s!"Unbound parameter {p}"
  | .noArgument p => s!"No argument for parameter {p}"
  | .noMember typeName name => s!"{typeName} has no member {name}"
  | .notRecord name value => s!"Cannot read member {name} of {value}"
  | .unknownFunction name => s!"Unknown function: {name}"
  | .notBoolean place value => s!"Expected Boolean for {place.name}, got {value}"
  | .unaryOperand op value => s!"Invalid operand for {op}: {value}"
  | .binaryOperands op left right => s!"Invalid operands for {op}: {left} and {right}"
  | .divisionByZero => "Division by zero"
  | .lambdaValue => "Lambda values can only be passed to sequence operators"
  | .quantifierArity quantifier count => s!"{quantifier} expects 2 arguments, got {count}"
  | .notList quantifier value => s!"{quantifier} source must be a list, got {value}"
  | .notLambda quantifier e => s!"{quantifier} expects a lambda predicate, got {e}"
  | .native failure => failure

/-! ## All errors -/

/-- Why an operation fails. -/
inductive Error where
  | missingArgument (argument : SpliceArgument)
  | mismatch (cause : Mismatch)
  | unsupported (cause : Unsupported)
  | invalidNode (fault : NodeFault)
  | evaluation (fault : EvalFault)

/-- What is shown of an error. -/
def Error.failure : Error → Failure
  | .missingArgument argument => ⟨.missingArgument, argument.name⟩
  | .mismatch cause => ⟨.mismatch, cause.message⟩
  | .unsupported cause => ⟨.unsupported, cause.message⟩
  | .invalidNode fault => ⟨.invalidNode fault.kind.name, fault.message⟩
  | .evaluation fault => fault.failure

/-- The wording of an error. -/
def Error.message (error : Error) : String :=
  error.failure.message

end ExprTree
