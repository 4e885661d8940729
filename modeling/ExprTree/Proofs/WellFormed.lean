/-
# Well-formed expressions

An expression is well-formed if every node of it passes the check of its constructor. Here are the
predicate and the way the checked constructors keep it.
-/
import ExprTree.Expr.Substitution
import ExprTree.Proofs.BuildRuns

namespace ExprTree

namespace Expr

/-- What the constructor of a node checks. -/
def Checked : Expr → Prop
  | .constant _ value type => value.type? = some type
  | .parameter _ => True
  | .member _ target _ _ => target.type.hasMembers = true
  | .call _ method operands =>
      Build.callFault? (method.splitOperands operands).1 method (method.splitOperands operands).2
        = none
  | .unary _ op operand => (op.outputType? operand.type).isSome = true
  | .binary _ op left right => (op.outputType? left.type right.type).isSome = true
  | .lambda _ params _ => params.Nodup

/-- Every node passes the check of its constructor. -/
def WellFormed (e : Expr) : Prop :=
  ∀ n ∈ e.nodes, n.Checked

section Equations

variable {serial : Nat}

@[simp] theorem wellFormed_constant {value : Value} {type : Ty} :
    (constant serial value type).WellFormed ↔ value.type? = some type := by
  simp [WellFormed, Checked]

@[simp] theorem wellFormed_parameter {p : Parameter} : (parameter p).WellFormed := by
  simp [WellFormed, Checked]

@[simp] theorem wellFormed_member {target : Expr} {name : String} {type : Ty} :
    (member serial target name type).WellFormed ↔
      target.type.hasMembers = true ∧ target.WellFormed := by
  simp [WellFormed, Checked]

@[simp] theorem wellFormed_call {method : Method} {operands : List Expr} :
    (call serial method operands).WellFormed ↔
      Build.callFault? (method.splitOperands operands).1 method (method.splitOperands operands).2
        = none ∧ ∀ e ∈ operands, e.WellFormed := by
  simp only [WellFormed, nodes, nodesAll_eq_flatMap, List.forall_mem_cons, List.mem_flatMap]
  exact and_congr_right fun _ => ⟨fun h e he n hn => h n ⟨e, he, hn⟩,
    fun h n ⟨e, he, hn⟩ => h e he n hn⟩

@[simp] theorem wellFormed_unary {op : UnaryOp} {operand : Expr} :
    (unary serial op operand).WellFormed ↔
      (op.outputType? operand.type).isSome = true ∧ operand.WellFormed := by
  simp [WellFormed, Checked]

@[simp] theorem wellFormed_binary {op : BinaryOp} {left right : Expr} :
    (binary serial op left right).WellFormed ↔
      (op.outputType? left.type right.type).isSome = true ∧ left.WellFormed ∧
        right.WellFormed := by
  simp only [WellFormed, nodes, List.forall_mem_cons, List.forall_mem_append, Checked]

@[simp] theorem wellFormed_lambda {params : List Parameter} {body : Expr} :
    (lambda serial params body).WellFormed ↔ params.Nodup ∧ body.WellFormed := by
  simp [WellFormed, Checked]

end Equations

/-- The nodes of a well-formed expression are well-formed. -/
theorem WellFormed.of_mem_nodes {e n : Expr} (h : e.WellFormed) (hn : n ∈ e.nodes) :
    n.WellFormed :=
  fun m hm => h m (nodes_subset hn hm)

end Expr

/-- The parameters of a lambda differ and its body is well-formed. -/
def Lambda.WellFormed (lambda : Lambda) : Prop :=
  lambda.params.Nodup ∧ lambda.body.WellFormed

/-! ## Operands of calls -/

namespace Method

/-- Target and arguments together are the operands again. -/
theorem toList_splitOperands (method : Method) (operands : List Expr) :
    (method.splitOperands operands).1.toList ++ (method.splitOperands operands).2 = operands := by
  unfold splitOperands
  split <;> simp

/-- A call without a fault has its target among the operands just if the method wants one. -/
theorem splitOperands_toList {method : Method} {target : Option Expr} {args : List Expr}
    (h : Build.callFault? target method args = none) :
    method.splitOperands (target.toList ++ args) = (target, args) := by
  unfold Build.callFault? at h
  unfold splitOperands
  cases hform : method.form <;> cases target <;> simp_all

end Method

namespace Build

theorem argumentFault?_eq_none_iff {method : Method} {params : List Ty} {args : List Expr}
    (hlength : args.length = params.length) {position : Nat} :
    argumentFault? method position params args = none ↔
      List.Forall₂ (fun param arg => param.accepts arg.type = true) params args := by
  induction params generalizing args position with
  | nil =>
      obtain rfl := List.length_eq_zero_iff.mp hlength
      simp [argumentFault?]
  | cons param params ih =>
      obtain ⟨arg, args, rfl⟩ := List.exists_cons_of_length_eq_add_one hlength
      rw [argumentFault?, List.forall₂_cons]
      by_cases h : param.accepts arg.type = true
      · simp [h, ih (by simpa using hlength)]
      · simp [h]

/-- A call has no fault just if it has a target if and only if the method wants one, an extension
method has a receiver, and the arguments fit the parameters one by one. -/
theorem callFault?_eq_none_iff {target : Option Expr} {method : Method} {args : List Expr} :
    callFault? target method args = none ↔
      (target.isSome = true ↔ method.form = .onTarget) ∧
      (method.form = .extension → method.params ≠ []) ∧
      List.Forall₂ (fun param arg => param.accepts arg.type = true) method.params args := by
  -- Number and types of the arguments are looked at together, whatever the form of the method.
  have hargs : (if args.length ≠ method.params.length then
        some (.argumentCount method args.length) else argumentFault? method 0 method.params args)
      = none ↔ List.Forall₂ (fun param arg => param.accepts arg.type = true) method.params args := by
    by_cases hlength : args.length = method.params.length
    · rw [if_neg (not_not_intro hlength), argumentFault?_eq_none_iff hlength]
    · rw [if_pos hlength]
      exact iff_of_false nofun fun h => hlength h.length_eq.symm
  unfold callFault?
  cases hform : method.form <;> cases target
  case extension.none =>
    by_cases hparams : method.params = []
    · simp [hparams]
    · simpa [hparams] using hargs
  case static.none | onTarget.some => simpa using hargs
  all_goals simp

/-- A quantifier without a fault has a sequence and a second operand, and for `Any` and `All` that is
a predicate on the elements. -/
theorem operands_of_quantifier {quantifier : Quantifier} {element : Ty} {operands : List Expr}
    (h : callFault? (Method.splitOperands (.sequence quantifier element) operands).1
      (.sequence quantifier element)
      (Method.splitOperands (.sequence quantifier element) operands).2 = none) :
    ∃ source operand, operands = [source, operand] ∧
      Ty.accepts (.sequence element) source.type = true ∧
      (quantifier ≠ .contains → Ty.accepts (.function [element] .boolean) operand.type = true) := by
  have hsplit : Method.splitOperands (.sequence quantifier element) operands
      = (none, operands) := by
    cases operands <;> rfl
  rw [hsplit, callFault?_eq_none_iff] at h
  obtain ⟨-, -, hargs⟩ := h
  cases quantifier with
  | any | all =>
      change List.Forall₂ _ [Ty.sequence element, Ty.function [element] .boolean] operands at hargs
      match operands, hargs with
      | [source, operand], .cons hsource (.cons hoperand .nil) =>
          exact ⟨source, operand, rfl, hsource, fun _ => hoperand⟩
  | contains =>
      change List.Forall₂ _ [Ty.sequence element, element] operands at hargs
      match operands, hargs with
      | [source, operand], .cons hsource (.cons _ .nil) =>
          exact ⟨source, operand, rfl, hsource, fun h => absurd rfl h⟩

end Build

/-! ## Checked constructors -/

namespace Build

open ExprTree.Expr

variable {session session' : Session} {e target left right operand body : Expr}

theorem wellFormed_of_constant {value : Value}
    (h : runIn (Build.constant value) session = (.ok e, session')) : e.WellFormed := by
  obtain ⟨type, htype, rfl, -⟩ := runIn_constant_ok.mp h
  simpa using htype

theorem wellFormed_of_member {name : String} {type : Ty}
    (h : runIn (Build.member target name type) session = (.ok e, session'))
    (htarget : target.WellFormed) : e.WellFormed := by
  obtain ⟨hmembers, rfl, -⟩ := runIn_member_ok.mp h
  exact wellFormed_member.mpr ⟨hmembers, htarget⟩

theorem wellFormed_of_call {target : Option Expr} {method : Method} {args : List Expr}
    (h : runIn (Build.call target method args) session = (.ok e, session'))
    (hoperands : ∀ operand ∈ target.toList ++ args, operand.WellFormed) : e.WellFormed := by
  obtain ⟨hfault, rfl, -⟩ := runIn_call_ok.mp h
  rw [wellFormed_call, Method.splitOperands_toList hfault]
  exact ⟨hfault, hoperands⟩

theorem wellFormed_of_unary {op : UnaryOp}
    (h : runIn (Build.unary op operand) session = (.ok e, session'))
    (hoperand : operand.WellFormed) : e.WellFormed := by
  obtain ⟨htype, rfl, -⟩ := runIn_unary_ok.mp h
  exact wellFormed_unary.mpr ⟨htype, hoperand⟩

theorem wellFormed_of_binary {op : BinaryOp}
    (h : runIn (Build.binary op left right) session = (.ok e, session'))
    (hleft : left.WellFormed) (hright : right.WellFormed) : e.WellFormed := by
  obtain ⟨htype, rfl, -⟩ := runIn_binary_ok.mp h
  exact wellFormed_binary.mpr ⟨htype, hleft, hright⟩

theorem wellFormed_of_lambda {params : List Parameter} {lambda : Lambda}
    (h : runIn (Build.lambda params body) session = (.ok lambda, session'))
    (hbody : body.WellFormed) : lambda.WellFormed := by
  obtain ⟨hnodup, rfl, -⟩ := runIn_lambda_ok.mp h
  exact ⟨hnodup, hbody⟩

theorem wellFormed_of_toExpr {lambda : Lambda}
    (h : runIn lambda.toExpr session = (.ok e, session'))
    (hlambda : lambda.WellFormed) : e.WellFormed := by
  obtain ⟨rfl, -⟩ := runIn_toExpr_ok.mp h
  exact wellFormed_lambda.mpr hlambda

end Build

end ExprTree
