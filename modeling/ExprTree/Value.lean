/-
# Values

The values that constants hold and evaluation produces: truth values, 32-bit integers, texts, records
and lists. A record has a type name and a table of fields.
-/
import ExprTree.Table
import ExprTree.Text.Quoted
import ExprTree.Ty

namespace ExprTree

/-- A value; the fields of a record form a table sorted by name. -/
inductive Value where
  | boolean (b : Bool)
  | int32 (n : Int32)
  | string (text : String)
  | record (typeName : String) (fields : List (String × Value))
  | list (elements : List Value)
  deriving Inhabited

namespace Value

/-! ## Equality -/

mutual

/-- Whether two values are the same. -/
def equals : Value → Value → Bool
  | .boolean a, .boolean b => a == b
  | .int32 a, .int32 b => a == b
  | .string a, .string b => a == b
  | .record m as, .record n bs => m == n && equalsFields as bs
  | .list as, .list bs => equalsAll as bs
  | _, _ => false

/-- Whether two field tables are the same. -/
def equalsFields : List (String × Value) → List (String × Value) → Bool
  | [], [] => true
  | (j, a) :: as, (k, b) :: bs => j == k && a.equals b && equalsFields as bs
  | _, _ => false

/-- Whether two lists of values are the same. -/
def equalsAll : List Value → List Value → Bool
  | [], [] => true
  | a :: as, b :: bs => a.equals b && equalsAll as bs
  | _, _ => false

end

mutual

/-- The test of equality decides equality. -/
theorem equals_iff : ∀ a b : Value, a.equals b = true ↔ a = b
  | .boolean _, b | .int32 _, b | .string _, b => by cases b <;> simp [equals]
  | .record _ as, b => by cases b <;> simp [equals, equalsFields_iff as]
  | .list as, b => by cases b <;> simp [equals, equalsAll_iff as]

/-- The test of equality decides equality of field tables. -/
theorem equalsFields_iff : ∀ as bs : List (String × Value), equalsFields as bs = true ↔ as = bs
  | [], bs => by cases bs <;> simp [equalsFields]
  | (k, a) :: as, bs => by
      cases bs <;> simp [equalsFields, equals_iff a, equalsFields_iff as, Prod.ext_iff]

/-- The test of equality decides equality of lists. -/
theorem equalsAll_iff : ∀ as bs : List Value, equalsAll as bs = true ↔ as = bs
  | [], bs => by cases bs <;> simp [equalsAll]
  | a :: as, bs => by cases bs <;> simp [equalsAll, equals_iff a, equalsAll_iff as]

end

instance : DecidableEq Value := fun a b => decidable_of_iff _ (equals_iff a b)

/-! ## Shape -/

/-- The declared type of a value. A list has none, since an empty one would fit every sequence. -/
def type? : Value → Option Ty
  | .boolean _ => some .boolean
  | .int32 _ => some .int32
  | .string _ => some .string
  | .record typeName _ => some (.entity typeName)
  | .list _ => none

/-- Whether a value is a truth value, an integer or a text. -/
def isScalar : Value → Bool
  | .boolean _ | .int32 _ | .string _ => true
  | .record .. | .list _ => false

/-- The truth value held, if it is one. -/
def bool? : Value → Option Bool
  | .boolean b => some b
  | _ => none

/-- The elements held, if the value is a list. -/
def elements? : Value → Option (List Value)
  | .list elements => some elements
  | _ => none

/-! ## Printed form -/

mutual

/-- The printed form of a value; texts are quoted, names are not. -/
def print : Value → String
  | .boolean b => if b then "true" else "false"
  | .int32 n => toString n.toInt
  | .string text => Text.quote text
  | .record typeName [] => typeName ++ " \x7b \x7d"
  | .record typeName fields =>
      typeName ++ " \x7b " ++ ", ".intercalate (printFields fields) ++ " \x7d"
  | .list elements => "[" ++ ", ".intercalate (printAll elements) ++ "]"

/-- The printed fields of a record, each a name and a value. -/
def printFields : List (String × Value) → List String
  | [] => []
  | (name, value) :: fields => (name ++ " = " ++ value.print) :: printFields fields

/-- The printed forms of several values. -/
def printAll : List Value → List String
  | [] => []
  | value :: values => value.print :: printAll values

end

instance : ToString Value := ⟨print⟩

end Value

/-! ## Records -/

/-- A record by itself: a type name and a table of fields. -/
structure Record where
  typeName : String
  fields : List (String × Value) := []
  deriving DecidableEq, Inhabited

namespace Record

/-- Set a field, replacing an earlier one of that name. -/
def set (record : Record) (name : String) (value : Value) : Record :=
  { record with fields := Table.insert name value record.fields }

/-- The value of a field. -/
def get? (record : Record) (name : String) : Option Value :=
  record.fields.lookup name

/-- The record as a value. -/
def toValue (record : Record) : Value :=
  .record record.typeName record.fields

end Record

end ExprTree
