/-
# Free occurrences

When a parameter occurs free in an expression, said place by place, and that the walk which collects
the free parameters finds exactly these.
-/
import ExprTree.Proofs.Nodes

namespace ExprTree

namespace Expr

/-- The parameter stands in the expression at a place below no lambda that declares it. -/
inductive OccursFree (p : Parameter) : Expr → Prop
  | parameter : OccursFree p (.parameter p)
  | member {serial target name type} :
      OccursFree p target → OccursFree p (.member serial target name type)
  | call {serial method operands e} :
      e ∈ operands → OccursFree p e → OccursFree p (.call serial method operands)
  | unary {serial op operand} : OccursFree p operand → OccursFree p (.unary serial op operand)
  | left {serial op left right} :
      OccursFree p left → OccursFree p (.binary serial op left right)
  | right {serial op left right} :
      OccursFree p right → OccursFree p (.binary serial op left right)
  | lambda {serial params body} :
      p ∉ params → OccursFree p body → OccursFree p (.lambda serial params body)

section Equations

variable {p : Parameter} {serial : Nat}

@[simp] theorem not_occursFree_constant {value : Value} {type : Ty} :
    ¬ OccursFree p (.constant serial value type) := nofun

@[simp] theorem occursFree_parameter {q : Parameter} :
    OccursFree p (.parameter q) ↔ p = q :=
  ⟨fun h => by cases h; rfl, fun h => h ▸ .parameter⟩

@[simp] theorem occursFree_member {target : Expr} {name : String} {type : Ty} :
    OccursFree p (.member serial target name type) ↔ OccursFree p target :=
  ⟨fun h => by cases h; assumption, .member⟩

@[simp] theorem occursFree_call {method : Method} {operands : List Expr} :
    OccursFree p (.call serial method operands) ↔ ∃ e ∈ operands, OccursFree p e :=
  ⟨fun h => by cases h with | call he h => exact ⟨_, he, h⟩, fun ⟨_, he, h⟩ => .call he h⟩

@[simp] theorem occursFree_unary {op : UnaryOp} {operand : Expr} :
    OccursFree p (.unary serial op operand) ↔ OccursFree p operand :=
  ⟨fun h => by cases h; assumption, .unary⟩

@[simp] theorem occursFree_binary {op : BinaryOp} {left right : Expr} :
    OccursFree p (.binary serial op left right) ↔ OccursFree p left ∨ OccursFree p right := by
  constructor
  · intro h
    cases h with
    | left h => exact Or.inl h
    | right h => exact Or.inr h
  · rintro (h | h)
    · exact .left h
    · exact .right h

@[simp] theorem occursFree_lambda {params : List Parameter} {body : Expr} :
    OccursFree p (.lambda serial params body) ↔ p ∉ params ∧ OccursFree p body :=
  ⟨fun h => by cases h with | lambda hp h => exact ⟨hp, h⟩, fun ⟨hp, h⟩ => .lambda hp h⟩

end Equations

/-- What occurs free below a node that does not declare it occurs free in the node. -/
theorem OccursFree.of_mem_children {p : Parameter} {child e : Expr} (hp : p ∉ e.declared)
    (hchild : child ∈ e.children) (h : OccursFree p child) : OccursFree p e := by
  cases e with
  | constant | parameter => cases hchild
  | member => exact .member (List.mem_singleton.mp hchild ▸ h)
  | call => exact .call hchild h
  | unary => exact .unary (List.mem_singleton.mp hchild ▸ h)
  | binary =>
      rcases List.mem_pair.mp hchild with rfl | rfl
      · exact .left h
      · exact .right h
  | lambda => exact .lambda hp (List.mem_singleton.mp hchild ▸ h)

/-- What occurs free below a node that is no lambda occurs free in the node. -/
theorem OccursFree.of_mem_children_of_not_lambda {p : Parameter} {child e : Expr}
    (he : e.lambda? = none) (hchild : child ∈ e.children) (h : OccursFree p child) :
    OccursFree p e :=
  h.of_mem_children (declared_eq_nil he ▸ List.not_mem_nil) hchild

/-- A parameter that occurs free stands in the expression. -/
theorem OccursFree.mem_parameters {p : Parameter} {e : Expr} (h : OccursFree p e) :
    p ∈ e.parameters := by
  induction h with
  | parameter => simp
  | member _ ih | unary _ ih => simpa using ih
  | call he _ ih => simpa using ⟨_, he, ih⟩
  | left _ ih | right _ ih | lambda _ _ ih => simp [ih]

/-- A parameter that stands in an expression is free there or declared by one of its lambdas. -/
theorem occursFree_or_mem_binders {p : Parameter} {e : Expr} (h : p ∈ e.parameters) :
    OccursFree p e ∨ p ∈ e.binders := by
  induction e with
  | constant => exact absurd h List.not_mem_nil
  | parameter q => exact Or.inl (List.mem_singleton.mp h ▸ .parameter)
  | member _ _ _ _ ih => exact (ih h).imp_left .member
  | unary _ _ _ ih => exact (ih h).imp_left .unary
  | call _ _ operands ih =>
      rw [parameters_call] at h
      obtain ⟨e, he, hp⟩ := List.mem_flatMap.mp h
      rw [binders_call]
      exact (ih e he hp).imp (.call he) fun hp => List.mem_flatMap.mpr ⟨e, he, hp⟩
  | binary _ _ _ _ ihl ihr =>
      rw [parameters_binary, List.mem_append] at h
      rw [binders_binary, List.mem_append]
      rcases h with h | h
      · exact (ihl h).imp .left Or.inl
      · exact (ihr h).imp .right Or.inr
  | lambda _ params _ ih =>
      rw [parameters_lambda, List.mem_append] at h
      rw [binders_lambda, List.mem_append]
      by_cases hp : p ∈ params
      · exact Or.inr (Or.inl hp)
      · exact (ih (h.resolve_left hp)).imp (.lambda hp) Or.inr

/-! ## The walk over the tree -/

/-- What the walk over several expressions finds, given what it finds in each. -/
theorem mem_collectFreeAll {p : Parameter} {bound : List Parameter} {es : List Expr}
    (h : ∀ e ∈ es, ∀ found : List Parameter,
      p ∈ collectFree bound found e ↔ p ∈ found ∨ p ∉ bound ∧ OccursFree p e) :
    ∀ found : List Parameter, p ∈ collectFreeAll bound found es ↔
      p ∈ found ∨ p ∉ bound ∧ ∃ e ∈ es, OccursFree p e := by
  induction es with
  | nil => simp [collectFreeAll]
  | cons e es ih =>
      intro found
      rw [collectFreeAll, ih fun e he => h e (List.mem_cons_of_mem _ he), h e List.mem_cons_self]
      simp only [List.mem_cons, exists_eq_or_imp]
      tauto

/-- **Invariant of the walk.** From a set of bound parameters and some found already, the walk adds
those that occur free and are not bound. -/
theorem mem_collectFree {p : Parameter} {e : Expr} :
    ∀ bound found : List Parameter, p ∈ collectFree bound found e ↔
      p ∈ found ∨ p ∉ bound ∧ OccursFree p e := by
  induction e with
  | constant => simp [collectFree]
  | parameter q =>
      intro bound found
      rw [collectFree, occursFree_parameter]
      -- A parameter that is bound or found already is not listed again.
      split
      · constructor
        · exact Or.inl
        · rintro (h | ⟨h, rfl⟩)
          · exact h
          · tauto
      · simp only [List.mem_append, List.mem_singleton]
        constructor
        · rintro (h | rfl)
          · exact Or.inl h
          · tauto
        · tauto
  | member _ _ _ _ ih | unary _ _ _ ih =>
      intro bound found
      simpa [collectFree] using ih bound found
  | call _ _ operands ih =>
      intro bound found
      rw [collectFree, mem_collectFreeAll fun e he found => ih e he bound found, occursFree_call]
  | binary _ _ left right ihl ihr =>
      intro bound found
      rw [collectFree, ihr, ihl, occursFree_binary]
      tauto
  | lambda _ params body ih =>
      intro bound found
      -- Below the lambda its parameters are bound too.
      rw [collectFree, ih, occursFree_lambda, List.mem_append]
      tauto

/-- The free parameters are those that occur free. -/
theorem mem_free {p : Parameter} {e : Expr} : p ∈ e.free ↔ OccursFree p e := by
  simp [free, mem_collectFree]

end Expr

/-- The body of a closed lambda uses only what the lambda declares. -/
theorem Lambda.mem_params_of_isClosed {lambda : Lambda} (h : lambda.isClosed = true)
    {p : Parameter} (hp : Expr.OccursFree p lambda.body) : p ∈ lambda.params := by
  rw [isClosed, List.isEmpty_iff, free, List.filter_eq_nil_iff] at h
  simpa using h p (Expr.mem_free.mpr hp)

/-- What a closed lambda does not declare, itself or with a lambda inside, does not stand in its
body. -/
theorem Lambda.notMem_parameters_of_isClosed {lambda : Lambda} (h : lambda.isClosed = true)
    {p : Parameter} (hp : p ∉ lambda.params ++ lambda.body.binders) :
    p ∉ lambda.body.parameters := by
  intro hmem
  rw [List.mem_append, not_or] at hp
  rcases Expr.occursFree_or_mem_binders hmem with hfree | hbinder
  · exact hp.1 (mem_params_of_isClosed h hfree)
  · exact hp.2 hbinder

end ExprTree
