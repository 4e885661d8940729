/-
# Expressions

Expression trees whose nodes have an identity. A parameter is told apart from all others by its
number, and every other node carries the serial it got when it was made, so two nodes built alike are
still two nodes: expressions are equal only if they are the same node. Types are read off the tree.
-/
import ExprTree.Method
import ExprTree.Value

namespace ExprTree

/-- A parameter: its number, its name if it has one, and its type. -/
structure Parameter where
  number : Nat
  name : Option String
  type : Ty
  deriving DecidableEq, Inhabited

/-- An expression. Every node but a parameter begins with its serial. -/
inductive Expr where
  | constant (serial : Nat) (value : Value) (type : Ty)
  | parameter (parameter : Parameter)
  /-- A member of a target, with the type it is declared to have. -/
  | member (serial : Nat) (target : Expr) (name : String) (type : Ty)
  /-- A call; the first operand of an instance method is its target. -/
  | call (serial : Nat) (method : Method) (operands : List Expr)
  | unary (serial : Nat) (op : UnaryOp) (operand : Expr)
  | binary (serial : Nat) (op : BinaryOp) (left right : Expr)
  | lambda (serial : Nat) (params : List Parameter) (body : Expr)
  deriving Inhabited

/-- A lambda: its parameters and its body. -/
structure Lambda where
  params : List Parameter
  body : Expr
  deriving Inhabited

/-! ## Kinds -/

/-- The kinds of nodes. -/
inductive NodeKind where
  | constant
  | parameter
  | member
  | call
  | unary
  | binary
  | lambda
  deriving DecidableEq, Repr

/-- The name of a kind of node. -/
def NodeKind.name : NodeKind → String
  | .constant => "constant"
  | .parameter => "parameter"
  | .member => "member"
  | .call => "call"
  | .unary => "unary"
  | .binary => "binary"
  | .lambda => "lambda"

namespace Expr

/-- The kind of a node. -/
def kind : Expr → NodeKind
  | .constant .. => .constant
  | .parameter _ => .parameter
  | .member .. => .member
  | .call .. => .call
  | .unary .. => .unary
  | .binary .. => .binary
  | .lambda .. => .lambda

/-- The parameter a node is, if it is one. -/
def parameter? : Expr → Option Parameter
  | .parameter p => some p
  | _ => none

/-- The lambda in a node, if it is one. -/
def lambda? : Expr → Option Lambda
  | .lambda _ params body => some ⟨params, body⟩
  | _ => none

/-- The nodes right below a node, in visiting order; a lambda shows its body only. -/
def children : Expr → List Expr
  | .constant .. | .parameter _ => []
  | .member _ target .. => [target]
  | .call _ _ operands => operands
  | .unary _ _ operand => [operand]
  | .binary _ _ left right => [left, right]
  | .lambda _ _ body => [body]

/-! ## Identity -/

mutual

/-- Whether two expressions are the same node. The serials are compared first, and they tell most
nodes apart. -/
def equals : Expr → Expr → Bool
  | .constant m v t, .constant n w u => m == n && v == w && t == u
  | .parameter p, .parameter q => p == q
  | .member m a j t, .member n b k u => m == n && j == k && t == u && a.equals b
  | .call m f as, .call n g bs => m == n && f == g && equalsAll as bs
  | .unary m f a, .unary n g b => m == n && f == g && a.equals b
  | .binary m f a b, .binary n g c d => m == n && f == g && a.equals c && b.equals d
  | .lambda m ps a, .lambda n qs b => m == n && ps == qs && a.equals b
  | _, _ => false

/-- Whether two lists of expressions hold the same nodes. -/
def equalsAll : List Expr → List Expr → Bool
  | [], [] => true
  | a :: as, b :: bs => a.equals b && equalsAll as bs
  | _, _ => false

end

mutual

/-- The test of equality decides equality. -/
theorem equals_iff : ∀ a b : Expr, a.equals b = true ↔ a = b
  | .constant .., b | .parameter _, b => by cases b <;> simp [equals, and_assoc]
  | .member _ a .., b => by cases b <;> simp [equals, equals_iff a]; grind
  | .call _ _ as, b => by cases b <;> simp [equals, equalsAll_iff as, and_assoc]
  | .unary _ _ a, b => by cases b <;> simp [equals, equals_iff a, and_assoc]
  | .binary _ _ a b, c => by cases c <;> simp [equals, equals_iff a, equals_iff b, and_assoc]
  | .lambda _ _ a, b => by cases b <;> simp [equals, equals_iff a, and_assoc]

/-- The test of equality decides equality of lists. -/
theorem equalsAll_iff : ∀ as bs : List Expr, equalsAll as bs = true ↔ as = bs
  | [], bs => by cases bs <;> simp [equalsAll]
  | a :: as, bs => by cases bs <;> simp [equalsAll, equals_iff a, equalsAll_iff as]

end

/-- Deciding equality never walks a tree. Two nodes already differ in their serials, and two uses of
one node are one object in memory, which is looked at first; so it does not matter in how many places
a node stands below them. -/
instance : DecidableEq Expr := fun a b =>
  withPtrEqDecEq a b fun _ => decidable_of_iff _ (equals_iff a b)

/-! ## Types -/

/-- The type of the value an expression stands for. It is exactly the type that the constructors find
for a new node and store with it: that of the value for a constant, the declared one for a parameter or
a member, what the method returns for a call, what the operator gives on the types of the operands for
an operation, and the function type for a lambda. Since no node ever changes, the types of calls,
operations and lambdas are read off the tree instead of being kept in it a second time. -/
def type : Expr → Ty
  | .constant _ _ type => type
  | .parameter p => p.type
  | .member _ _ _ type => type
  | .call _ method _ => method.result
  | .unary _ op _ => op.resultType
  | .binary _ op _ _ => op.resultType
  | .lambda _ params body => .function (params.map Parameter.type) body.type

/-! ## Counting -/

mutual

/-- The number of nodes, where a node that stands in several places counts at each of them. -/
def size : Expr → Nat
  | .constant .. | .parameter _ => 1
  | .member _ target .. => 1 + target.size
  | .call _ _ operands => 1 + sizeAll operands
  | .unary _ _ operand => 1 + operand.size
  | .binary _ _ left right => 1 + (left.size + right.size)
  | .lambda _ params body => 1 + (params.length + body.size)

/-- The number of nodes of several expressions together. -/
def sizeAll : List Expr → Nat
  | [] => 0
  | e :: es => e.size + sizeAll es

end

mutual

/-- The number of places where a node stands, the parameter lists of lambdas included. Places inside
the node itself are not looked for. -/
def occurrencesIn (node e : Expr) : Nat :=
  if e = node then 1
  else match e with
    | .constant .. | .parameter _ => 0
    | .member _ target .. => occurrencesIn node target
    | .call _ _ operands => occurrencesInAll node operands
    | .unary _ _ operand => occurrencesIn node operand
    | .binary _ _ left right => occurrencesIn node left + occurrencesIn node right
    | .lambda _ params body =>
        params.countP (fun p => Expr.parameter p = node) + occurrencesIn node body

/-- The number of places where a node stands in several expressions together. -/
def occurrencesInAll (node : Expr) : List Expr → Nat
  | [] => 0
  | e :: es => occurrencesIn node e + occurrencesInAll node es

end

end Expr

namespace Lambda

/-- The type of what a lambda returns. -/
def resultType (lambda : Lambda) : Ty :=
  lambda.body.type

/-- The types of the parameters, in order. -/
def paramTypes (lambda : Lambda) : List Ty :=
  lambda.params.map Parameter.type

/-- The function type of a lambda. -/
def type (lambda : Lambda) : Ty :=
  .function lambda.paramTypes lambda.resultType

end Lambda

end ExprTree
