/-
# The nodes of an expression

Induction over expressions with one case for each kind of node, the list of all nodes that stand in
an expression, and the parameters that these nodes are or declare.
-/
import Mathlib.Data.List.Forall2
import Mathlib.Tactic.Tauto
import ExprTree.Expr.Free

namespace ExprTree

namespace Expr

/-! ## Induction -/

/-- Induction over expressions. A call comes with the hypothesis for each of its operands. -/
@[elab_as_elim, induction_eliminator]
theorem induction {motive : Expr → Prop}
    (constant : ∀ serial value type, motive (.constant serial value type))
    (parameter : ∀ p, motive (.parameter p))
    (member : ∀ serial target name type, motive target →
      motive (.member serial target name type))
    (call : ∀ serial method operands, (∀ e ∈ operands, motive e) →
      motive (.call serial method operands))
    (unary : ∀ serial op operand, motive operand → motive (.unary serial op operand))
    (binary : ∀ serial op left right, motive left → motive right →
      motive (.binary serial op left right))
    (lambda : ∀ serial params body, motive body → motive (.lambda serial params body)) :
    ∀ e, motive e := by
  intro e
  -- The recursor asks for a second motive, about lists of operands.
  refine @Expr.rec motive (fun es => ∀ e ∈ es, motive e) constant parameter member call unary
    binary lambda ?_ ?_ e
  · simp
  · intro head tail hhead htail e he
    rcases List.mem_cons.mp he with rfl | he
    · exact hhead
    · exact htail e he

/-- Induction over expressions with the hypothesis for whatever stands right below a node. -/
@[elab_as_elim]
theorem children_induction {motive : Expr → Prop}
    (node : ∀ e, (∀ child ∈ e.children, motive child) → motive e) : ∀ e, motive e := by
  intro e
  induction e with
  | constant | parameter => exact node _ fun _ hchild => nomatch hchild
  | member _ _ _ _ ih | unary _ _ _ ih | lambda _ _ _ ih =>
      exact node _ fun child hchild => List.mem_singleton.mp hchild ▸ ih
  | call _ _ _ ih => exact node _ ih
  | binary _ _ _ _ ihl ihr =>
      refine node _ fun child hchild => ?_
      rcases List.mem_pair.mp hchild with rfl | rfl
      · exact ihl
      · exact ihr

/-! ## Nodes -/

mutual

/-- The nodes of an expression, the expression itself first; those of a lambda are in its body, its
parameter list is not looked at. -/
def nodes : Expr → List Expr
  | .constant serial value type => [.constant serial value type]
  | .parameter p => [.parameter p]
  | .member serial target name type => .member serial target name type :: nodes target
  | .call serial method operands => .call serial method operands :: nodesAll operands
  | .unary serial op operand => .unary serial op operand :: nodes operand
  | .binary serial op left right => .binary serial op left right :: (nodes left ++ nodes right)
  | .lambda serial params body => .lambda serial params body :: nodes body

/-- The nodes of several expressions. -/
def nodesAll : List Expr → List Expr
  | [] => []
  | e :: es => nodes e ++ nodesAll es

end

theorem nodesAll_eq_flatMap (es : List Expr) : nodesAll es = es.flatMap nodes := by
  induction es with
  | nil => rfl
  | cons e es ih => simp [nodesAll, ih]

attribute [simp] nodes nodesAll_eq_flatMap

/-- An expression is the first of its nodes. -/
@[simp] theorem mem_nodes_self (e : Expr) : e ∈ e.nodes := by
  cases e <;> simp

/-- The nodes of an expression are itself and the nodes of what stands right below it. -/
theorem mem_nodes_iff {n e : Expr} : n ∈ e.nodes ↔ n = e ∨ ∃ child ∈ e.children, n ∈ child.nodes := by
  cases e <;> simp [children]

/-- The nodes of a node are nodes. -/
theorem nodes_subset {n e : Expr} (h : n ∈ e.nodes) : n.nodes ⊆ e.nodes := by
  induction e with
  | constant | parameter =>
      simp only [nodes, List.mem_singleton] at h
      simp [h]
  | member serial target name type ih | unary serial op target ih | lambda serial params target ih =>
      rcases List.mem_cons.mp h with rfl | h
      · exact List.Subset.refl _
      · exact List.subset_cons_of_subset _ (ih h)
  | call serial method operands ih =>
      rcases List.mem_cons.mp h with rfl | h
      · exact List.Subset.refl _
      · simp only [nodesAll_eq_flatMap, List.mem_flatMap] at h
        obtain ⟨e, he, h⟩ := h
        intro m hm
        simp only [nodes, nodesAll_eq_flatMap, List.mem_cons, List.mem_flatMap]
        exact Or.inr ⟨e, he, ih e he h hm⟩
  | binary serial op left right ihl ihr =>
      rcases List.mem_cons.mp h with rfl | h
      · exact List.Subset.refl _
      · intro m hm
        rcases List.mem_append.mp h with h | h
        · simp [ihl h hm]
        · simp [ihr h hm]

/-- What stands right below a node is a node. -/
theorem mem_nodes_of_mem_children {child e : Expr} (h : child ∈ e.children) : child ∈ e.nodes := by
  cases e with
  | constant | parameter => simp [children] at h
  | member | unary | lambda =>
      rw [List.mem_singleton.mp h]
      simp
  | call _ _ operands =>
      simp only [nodes, nodesAll_eq_flatMap, List.mem_cons, List.mem_flatMap]
      exact Or.inr ⟨child, h, mem_nodes_self child⟩
  | binary => rcases List.mem_pair.mp h with rfl | rfl <;> simp

/-! ## Parameters -/

/-- The parameters that a node is or declares by itself. -/
def ownParameters : Expr → List Parameter
  | .parameter p => [p]
  | .lambda _ params _ => params
  | _ => []

/-- The parameters that stand in an expression, in the parameter lists of its lambdas too. -/
def parameters (e : Expr) : List Parameter :=
  e.nodes.flatMap ownParameters

/-- The parameters that a node declares. -/
def declared : Expr → List Parameter
  | .lambda _ params _ => params
  | _ => []

/-- Only a lambda declares parameters. -/
theorem declared_eq_nil {e : Expr} (h : e.lambda? = none) : e.declared = [] := by
  cases e with
  | lambda => cases h
  | _ => rfl

/-- The parameters that the lambdas in an expression declare. -/
def binders (e : Expr) : List Parameter :=
  e.nodes.flatMap declared

/-- The parameters of a node stand in the expression too. -/
theorem parameters_subset {n e : Expr} (h : n ∈ e.nodes) : n.parameters ⊆ e.parameters := by
  intro p hp
  obtain ⟨m, hm, hp⟩ := List.mem_flatMap.mp hp
  exact List.mem_flatMap.mpr ⟨m, nodes_subset h hm, hp⟩

/-- What the lambdas in a node declare the lambdas in the expression declare. -/
theorem binders_subset {n e : Expr} (h : n ∈ e.nodes) : n.binders ⊆ e.binders := by
  intro p hp
  obtain ⟨m, hm, hp⟩ := List.mem_flatMap.mp hp
  exact List.mem_flatMap.mpr ⟨m, nodes_subset h hm, hp⟩

/-- What a lambda declares stands in the expression. -/
theorem binders_subset_parameters (e : Expr) : e.binders ⊆ e.parameters := by
  intro p hp
  obtain ⟨n, hn, hp⟩ := List.mem_flatMap.mp hp
  refine List.mem_flatMap.mpr ⟨n, hn, ?_⟩
  cases n with
  | lambda => exact hp
  | _ => cases hp

section Equations

variable (serial : Nat)

@[simp] theorem parameters_constant (value : Value) (type : Ty) :
    (constant serial value type).parameters = [] := rfl

@[simp] theorem parameters_parameter (p : Parameter) : (parameter p).parameters = [p] := rfl

@[simp] theorem parameters_member (target : Expr) (name : String) (type : Ty) :
    (member serial target name type).parameters = target.parameters := rfl

@[simp] theorem parameters_call (method : Method) (operands : List Expr) :
    (call serial method operands).parameters = operands.flatMap parameters := by
  rw [parameters, nodes, nodesAll_eq_flatMap, List.flatMap_cons, List.flatMap_assoc]
  rfl

@[simp] theorem parameters_unary (op : UnaryOp) (operand : Expr) :
    (unary serial op operand).parameters = operand.parameters := rfl

@[simp] theorem parameters_binary (op : BinaryOp) (left right : Expr) :
    (binary serial op left right).parameters = left.parameters ++ right.parameters := by
  simp [parameters, ownParameters]

@[simp] theorem parameters_lambda (params : List Parameter) (body : Expr) :
    (lambda serial params body).parameters = params ++ body.parameters := rfl

@[simp] theorem binders_constant (value : Value) (type : Ty) :
    (constant serial value type).binders = [] := rfl

@[simp] theorem binders_parameter (p : Parameter) : (parameter p).binders = [] := rfl

@[simp] theorem binders_member (target : Expr) (name : String) (type : Ty) :
    (member serial target name type).binders = target.binders := rfl

@[simp] theorem binders_call (method : Method) (operands : List Expr) :
    (call serial method operands).binders = operands.flatMap binders := by
  rw [binders, nodes, nodesAll_eq_flatMap, List.flatMap_cons, List.flatMap_assoc]
  rfl

@[simp] theorem binders_unary (op : UnaryOp) (operand : Expr) :
    (unary serial op operand).binders = operand.binders := rfl

@[simp] theorem binders_binary (op : BinaryOp) (left right : Expr) :
    (binary serial op left right).binders = left.binders ++ right.binders := by
  simp [binders, declared]

@[simp] theorem binders_lambda (params : List Parameter) (body : Expr) :
    (lambda serial params body).binders = params ++ body.binders := rfl

end Equations

end Expr

end ExprTree
