/-
# Building expressions

The checked ways to make nodes. Each gives a new node, or says why there can be none: members need a
target that has some, arguments have to fit the parameters of the method, operands the operator, and
a lambda declares a parameter once.
-/
import ExprTree.Expr.Free
import ExprTree.Session

namespace ExprTree

namespace Build

/-! ## Leaves -/

/-- A constant that holds a value; only values with a declared type can be held. -/
def constant (value : Value) : Build Expr := do
  match value.type? with
  | some type => return .constant (← freshSerial) value type
  | none => invalid (.untypedConstant value)

/-- A constant that holds an integer. -/
def int32 (n : Int32) : Build Expr :=
  return .constant (← freshSerial) (.int32 n) .int32

/-- A constant that holds a truth value. -/
def boolean (b : Bool) : Build Expr :=
  return .constant (← freshSerial) (.boolean b) .boolean

/-- A constant that holds a text. -/
def string (text : String) : Build Expr :=
  return .constant (← freshSerial) (.string text) .string

/-! ## Members and operations -/

/-- The member `name` of a target, declared to be of a type. -/
def member (target : Expr) (name : String) (type : Ty) : Build Expr := do
  if target.type.hasMembers then
    return .member (← freshSerial) target name type
  else
    invalid (.noMembers target name)

/-- An application of a unary operator. -/
def unary (op : UnaryOp) (operand : Expr) : Build Expr := do
  match op.outputType? operand.type with
  | some _ => return .unary (← freshSerial) op operand
  | none => invalid (.unaryOperand op operand.type)

/-- An application of a binary operator. -/
def binary (op : BinaryOp) (left right : Expr) : Build Expr := do
  match op.outputType? left.type right.type with
  | some _ => return .binary (← freshSerial) op left right
  | none => invalid (.binaryOperands op left.type right.type)

/-! ## Calls -/

/-- The first argument that does not fit its parameter, as a fault; `position` is the number of the
first of these arguments. -/
def argumentFault? (method : Method) : Nat → List Ty → List Expr → Option NodeFault
  | position, param :: params, arg :: args =>
      if param.accepts arg.type then argumentFault? method (position + 1) params args
      else some (.argumentType method position arg.type param)
  | _, _, _ => none

/-- What is wrong with a call, if anything: a target where none belongs or none where one does, an
extension method without a receiver, the number of arguments, then their types. -/
def callFault? (target : Option Expr) (method : Method) (args : List Expr) :
    Option NodeFault :=
  match method.form, target with
  | .onTarget, none => some (.missingTarget method)
  | .static, some _ | .extension, some _ => some (.needlessTarget method)
  | form, _ =>
      if form = .extension ∧ method.params = [] then some (.noReceiver method)
      else if args.length ≠ method.params.length then some (.argumentCount method args.length)
      else argumentFault? method 0 method.params args

/-- A call of a method, on a target if it is an instance method. -/
def call (target : Option Expr) (method : Method) (args : List Expr) : Build Expr := do
  match callFault? target method args with
  | some fault => invalid fault
  | none => return .call (← freshSerial) method (target.toList ++ args)

/-! ## Lambdas -/

/-- The first parameter of a list that stands in it before. -/
def repeated? (seen : List Parameter) : List Parameter → Option Parameter
  | [] => none
  | p :: params => if p ∈ seen then some p else repeated? (p :: seen) params

/-- A lambda with the given parameters and body. -/
def lambda (params : List Parameter) (body : Expr) : Build Lambda := do
  match repeated? [] params with
  | some p => invalid (.repeatedParameter p)
  | none => return ⟨params, body⟩

/-- The parameter a node is; no other node can stand in a parameter list. -/
def parameter (e : Expr) : Build Parameter :=
  match e.parameter? with
  | some p => return p
  | none => invalid (.notParameter e)

end Build

/-- A new node for a lambda. -/
def Lambda.toExpr (lambda : Lambda) : Build Expr :=
  return .lambda (← Build.freshSerial) lambda.params lambda.body

/-- Fail unless the body of a lambda uses only what the lambda declares. -/
def Lambda.requireClosed (lambda : Lambda) : Build Unit :=
  match lambda.free.head? with
  | none => return ()
  | some p => Build.invalid (.undeclaredParameter lambda p)

end ExprTree
