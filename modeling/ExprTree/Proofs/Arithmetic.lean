/-
# Arithmetic that wraps around

Each arithmetic operation wraps its result around at 32 bits. Over sums, differences, products and
negations it does not matter when this is done: an evaluation gives what one gets by computing without
bounds and wrapping the result around once. The reason is that taking an integer to its 32-bit
representative respects these operations.
-/
import Mathlib.Data.Int.ModEq
import ExprTree.Evaluator
import ExprTree.Proofs.Nodes

namespace ExprTree

namespace Expr

/-! ## Arithmetic expressions -/

/-- The expressions of integer constants and parameters with `+`, `-`, `*` and unary `-`. -/
inductive IsArithmetic : Expr → Prop
  | constant {serial : Nat} {n : Int32} {type : Ty} :
      IsArithmetic (.constant serial (.int32 n) type)
  | parameter {p : Parameter} : IsArithmetic (.parameter p)
  | negate {serial : Nat} {operand : Expr} :
      IsArithmetic operand → IsArithmetic (.unary serial .negate operand)
  | add {serial : Nat} {left right : Expr} :
      IsArithmetic left → IsArithmetic right → IsArithmetic (.binary serial .add left right)
  | sub {serial : Nat} {left right : Expr} :
      IsArithmetic left → IsArithmetic right → IsArithmetic (.binary serial .sub left right)
  | mul {serial : Nat} {left right : Expr} :
      IsArithmetic left → IsArithmetic right → IsArithmetic (.binary serial .mul left right)

/-- The value of an arithmetic expression computed without bounds, for given integers in the place of
its parameters. All other expressions count as zero. -/
def exact (assigned : Parameter → ℤ) : Expr → ℤ
  | .constant _ (.int32 n) _ => n.toInt
  | .parameter p => assigned p
  | .unary _ .negate operand => -exact assigned operand
  | .binary _ .add left right => exact assigned left + exact assigned right
  | .binary _ .sub left right => exact assigned left - exact assigned right
  | .binary _ .mul left right => exact assigned left * exact assigned right
  | _ => 0

end Expr

/-! ## Representatives -/

/-- The 32-bit integers congruent to an integer are its one representative. -/
theorem toInt_modEq_iff {m : Int32} {z : ℤ} :
    m.toInt ≡ z [ZMOD 2 ^ 32] ↔ m = Int32.ofInt z := by
  rw [eq_comm (a := m), Int32.ofInt_eq_iff_bmod_eq_toInt]
  constructor
  · intro hmod
    have hremainder : m.toInt % (2 ^ 32 : ℕ) = z % (2 ^ 32 : ℕ) := hmod
    calc z.bmod (2 ^ 32) = (z % (2 ^ 32 : ℕ)).bmod (2 ^ 32) := (Int.emod_bmod z _).symm
      _ = (m.toInt % (2 ^ 32 : ℕ)).bmod (2 ^ 32) := by rw [hremainder]
      _ = m.toInt.bmod (2 ^ 32) := Int.emod_bmod m.toInt _
      _ = m.toInt := m.toInt_bmod
  · intro hrepresentative
    show m.toInt % (2 ^ 32 : ℕ) = z % (2 ^ 32 : ℕ)
    rw [← hrepresentative, Int.bmod_emod]

namespace Evaluator

variable {evaluator : Evaluator} {frames : Frames}

/-! ## One operation -/

/-- Where the operand gives the representative of an integer, its negation gives that of the negated
integer. -/
theorem evaluate_negate {operand : Expr} {a : ℤ} (serial : Nat)
    (h : evaluator.evaluate frames operand = pure (.int32 (Int32.ofInt a))) :
    evaluator.evaluate frames (.unary serial .negate operand) = pure (.int32 (Int32.ofInt (-a))) := by
  rw [evaluate, h, pure_bind, Int32.ofInt_neg]
  rfl

/-- Where both operands give representatives, so does an operation on them that takes representatives
to representatives. -/
theorem evaluate_operation {op : BinaryOp} {left right : Expr} {a b c : ℤ} (serial : Nat)
    (hlogical : op.isLogical = false)
    (hleft : evaluator.evaluate frames left = pure (.int32 (Int32.ofInt a)))
    (hright : evaluator.evaluate frames right = pure (.int32 (Int32.ofInt b)))
    (hop : op.apply (.int32 (Int32.ofInt a)) (.int32 (Int32.ofInt b))
      = .ok (.int32 (Int32.ofInt c))) :
    evaluator.evaluate frames (.binary serial op left right) = pure (.int32 (Int32.ofInt c)) := by
  cases op with
  | andAlso | orElse => cases hlogical
  | _ =>
      simp only [evaluate, hleft, hright, pure_bind, hop]
      rfl

/-! ## Whole expressions -/

/-- **An evaluation gives the representative of the exact value**, if the parameters have integers as
values. -/
theorem evaluate_eq_ofInt_exact {e : Expr} (he : e.IsArithmetic) {assigned : Parameter → Int32}
    (hbound : ∀ p ∈ e.parameters, frames.lookup p = pure (.int32 (assigned p))) :
    evaluator.evaluate frames e
      = pure (.int32 (Int32.ofInt (e.exact fun p => (assigned p).toInt))) := by
  induction he with
  | constant => rw [evaluate, Expr.exact, Int32.ofInt_toInt]
  | @parameter p =>
      rw [evaluate, Expr.exact, Int32.ofInt_toInt]
      exact hbound p (List.mem_singleton_self p)
  | negate _ ih => exact evaluate_negate _ (ih hbound)
  | add _ _ ihl ihr | sub _ _ ihl ihr | mul _ _ ihl ihr =>
      rw [Expr.parameters_binary, List.forall_mem_append] at hbound
      refine evaluate_operation _ rfl (ihl hbound.1) (ihr hbound.2) ?_
      simp only [BinaryOp.apply, Expr.exact, Int32.ofInt_add, Int32.ofInt_sub, Int32.ofInt_mul]

/-- **Wrapping around once is enough.** An expression of integer constants, parameters that have
integers as values, `+`, `-`, `*` and unary `-` always has a value. This is the one 32-bit integer that
is congruent, modulo 2 to the power 32, to the value of the expression computed without bounds. -/
theorem evaluate_wraps_once {e : Expr} (he : e.IsArithmetic) {assigned : Parameter → Int32}
    (hbound : ∀ p ∈ e.parameters, frames.lookup p = pure (.int32 (assigned p))) :
    ∃ n : Int32, evaluator.evaluate frames e = pure (.int32 n) ∧
      ∀ m : Int32, m.toInt ≡ e.exact (fun p => (assigned p).toInt) [ZMOD 2 ^ 32] ↔ m = n :=
  ⟨_, evaluate_eq_ofInt_exact he hbound, fun _ => toInt_modEq_iff⟩

namespace Overflowing

def x : Parameter := ⟨0, some "x", .int32⟩

def y : Parameter := ⟨1, some "y", .int32⟩

/-- `((-x - 1) * (y + y))`. -/
def product : Expr :=
  .binary 4 .mul
    (.binary 2 .sub (.unary 0 .negate (.parameter x)) (.constant 1 (.int32 1) .int32))
    (.binary 3 .add (.parameter y) (.parameter y))

/-- The least integer for `x` and the greatest one for `y`. -/
def assigned (p : Parameter) : Int32 :=
  if p = x then Int32.minValue else Int32.maxValue

/-- All four operations overflow, the negation of the least integer included, and the result is that of
wrapping around once. -/
theorem evaluate_product_wraps :
    Evaluator.invoke {} ⟨[x, y], product⟩ [.int32 Int32.minValue, .int32 Int32.maxValue]
      = pure (.int32 2) ∧
    (2 : Int32).toInt ≡ 2147483647 * 4294967294 [ZMOD 2 ^ 32] := by
  have harithmetic : product.IsArithmetic :=
    .mul (.sub (.negate .parameter) .constant) (.add .parameter .parameter)
  have hbound : ∀ p ∈ product.parameters,
      Frames.lookup [⟨[x, y], [.int32 Int32.minValue, .int32 Int32.maxValue]⟩] p
        = pure (.int32 (assigned p)) := by
    have hparameters : product.parameters = [x, y, y] := rfl
    rw [hparameters]
    simp only [List.forall_mem_cons]
    exact ⟨rfl, rfl, rfl, nofun⟩
  obtain ⟨n, hvalue, hcongruent⟩ := @evaluate_wraps_once {} _ product harithmetic assigned hbound
  have hexact : product.exact (fun p => (assigned p).toInt) = 2147483647 * 4294967294 := by decide
  rw [hexact] at hcongruent
  have hmod : (2 : Int32).toInt ≡ 2147483647 * 4294967294 [ZMOD 2 ^ 32] := by decide
  obtain rfl := (hcongruent 2).mp hmod
  exact ⟨hvalue, hmod⟩

end Overflowing

end Evaluator

end ExprTree
