/-
# Operations on values

What the operators do to values. Integers wrap around at 32 bits, division drops the remainder, and
order is that of signed integers and of texts by code point.
-/
import ExprTree.Error

namespace ExprTree

/-- Apply a unary operator to a value. -/
def UnaryOp.apply : UnaryOp → Value → Except EvalFault Value
  | .not, .boolean b => .ok (.boolean (!b))
  | .negate, .int32 n => .ok (.int32 (-n))
  | op, value => .error (.unaryOperand op value)

/-- Apply a binary operator to two values. -/
def BinaryOp.apply : BinaryOp → Value → Value → Except EvalFault Value
  | .eq, a, b => .ok (.boolean (a = b))
  | .ne, a, b => .ok (.boolean (a ≠ b))
  | .add, .int32 a, .int32 b => .ok (.int32 (a + b))
  | .sub, .int32 a, .int32 b => .ok (.int32 (a - b))
  | .mul, .int32 a, .int32 b => .ok (.int32 (a * b))
  | .div, .int32 a, .int32 b => if b = 0 then .error .divisionByZero else .ok (.int32 (a / b))
  | .lt, .int32 a, .int32 b => .ok (.boolean (a < b))
  | .le, .int32 a, .int32 b => .ok (.boolean (a ≤ b))
  | .gt, .int32 a, .int32 b => .ok (.boolean (b < a))
  | .ge, .int32 a, .int32 b => .ok (.boolean (b ≤ a))
  | .lt, .string s, .string t => .ok (.boolean (s < t))
  | .le, .string s, .string t => .ok (.boolean (s ≤ t))
  | .gt, .string s, .string t => .ok (.boolean (t < s))
  | .ge, .string s, .string t => .ok (.boolean (t ≤ s))
  | .andAlso, .boolean a, .boolean b => .ok (.boolean (a && b))
  | .orElse, .boolean a, .boolean b => .ok (.boolean (a || b))
  | op, a, b => .error (.binaryOperands op a b)

end ExprTree
