/-
# The demonstration

Compositions over a model of orders with items and a customer. Each is shown with what it gives for
one sample order.
-/
import ExprTree.Demo.Options
import ExprTree.Evaluator
import ExprTree.Lambda.Join
import ExprTree.Lambda.Lift
import ExprTree.Lambda.Splice

namespace ExprTree.Demo

/-! ## The model -/

/-- The type of orders. -/
def orderType : Ty := .entity "Order"

/-- The type of items. -/
def itemType : Ty := .entity "Item"

/-- The type of customers. -/
def customerType : Ty := .entity "Customer"

/-- An item of a price. -/
def item (price : Int32) : Value :=
  ((Record.mk "Item" []).set "Price" (.int32 price)).toValue

/-- A customer of an age. -/
def customer (age : Int32) : Value :=
  ((Record.mk "Customer" []).set "Age" (.int32 age)).toValue

/-- The order that compositions are applied to. -/
def sampleOrder : Value :=
  Record.toValue <| (Record.mk "Order" [])
    |>.set "Paid" (.boolean true)
    |>.set "Shipped" (.boolean false)
    |>.set "Customer" (customer 34)
    |>.set "Items" (.list [item 5, item 12])
    |>.set "Codes" (.list [.int32 1, .int32 5, .int32 8])

/-- The lambda that reads a member of an order. -/
def orderMember (name : String) (type : Ty) : Build Lambda := do
  let x ← Build.freshParameter "x" orderType
  let body ← Build.member (.parameter x) name type
  Build.lambda [x] body

/-- The lambda that compares the price of an item. -/
def priceEquals (threshold : Int32) : Build Lambda := do
  let i ← Build.freshParameter "i" itemType
  let price ← Build.member (.parameter i) "Price" .int32
  let body ← Build.binary .eq price (← Build.int32 threshold)
  Build.lambda [i] body

/-- The lambda that wants a customer to be older. -/
def olderThan (threshold : Int32) : Build Lambda := do
  let c ← Build.freshParameter "c" customerType
  let age ← Build.member (.parameter c) "Age" .int32
  let body ← Build.binary .gt age (← Build.int32 threshold)
  Build.lambda [c] body

/-! ## The compositions -/

/-- That an order is paid and shipped, or either. -/
def joinedFlags (connective : Connective) : Build Lambda := do
  let paid ← orderMember "Paid" .boolean
  let shipped ← orderMember "Shipped" .boolean
  paid.join connective shipped

/-- That some item, or every one, has a price. -/
def liftedPrice (quantifier : Quantifier) (threshold : Int32) : Build Lambda := do
  let items ← orderMember "Items" (.sequence itemType)
  items.lift quantifier (← priceEquals threshold)

/-- The lambda a composition gives; a fold over no filters gives none. -/
def Composition.compose (composition : Composition) (threshold : Int32) :
    Build (Option Lambda) := do
  match composition with
  | .or => joinedFlags .or
  | .and => joinedFlags .and
  | .any => liftedPrice .any threshold
  | .all => liftedPrice .all threshold
  | .contains => do
      let codes ← orderMember "Codes" (.sequence .int32)
      codes.contains (.int32 threshold)
  | .tail => do
      let customer ← orderMember "Customer" customerType
      customer.splice (← olderThan threshold)
  | .fold => do
      let paid ← orderMember "Paid" .boolean
      let priced ← liftedPrice .any threshold
      Lambda.joinAll .and [some paid, none, some priced]

/-! ## The report -/

/-- A text with blanks behind it, up to the width of a title. -/
def padded (text : String) : String :=
  text.pushn ' ' (9 - text.length)

/-- Two lines: a title and a lambda, then its result below the lambda. -/
def reportOf (title : String) (lambda : Lambda) (result : Value) : String :=
  padded title ++ s!" {lambda}\n" ++ padded "" ++ s!" = {result}\n"

/-- What is shown of a composition. -/
def Composition.report (composition : Composition) (threshold : Int32) : Build String := do
  match ← composition.compose threshold with
  | none => return ""
  | some lambda =>
      match ((Evaluator.mk []).invoke lambda [sampleOrder]).runAfter #[] with
      | (.ok result, _) => return reportOf composition.title lambda result
      | (.error fault, _) => throw (.evaluation fault)

/-- What is shown of all compositions asked for. -/
def Options.report (options : Options) : Build String := do
  let reports ← options.compositions.mapM fun composition =>
    composition.report options.threshold
  return String.join reports

/-- What a run leaves behind: its exit code and its standard output. -/
structure Outcome where
  exitCode : UInt32
  output : String
  deriving DecidableEq, Repr

/-- Run the demonstration. Arguments that cannot be read give exit code 2. -/
def run (arguments : List String) : Outcome :=
  match Options.ofArguments? arguments with
  | none => ⟨2, ""⟩
  | some options =>
      match (options.report.runIn {}).1 with
      | .ok output => ⟨0, output⟩
      | .error _ => ⟨1, ""⟩

end ExprTree.Demo
