/-
# Shapes

Operations that build an expression anew give its composite nodes new serials and keep its leaves.
The shape of an expression forgets the serials of composite nodes. Up to shape, substituting is a
plain function on trees, and substituting one parameter for another is renaming.
-/
import ExprTree.Expr.Substitution
import ExprTree.Proofs.FreeParameters

namespace ExprTree

namespace Expr

/-! ## The shape of an expression -/

mutual

/-- The expression with the serials of its composite nodes forgotten; leaves stay the nodes they
are. -/
def shape : Expr → Expr
  | .constant serial value type => .constant serial value type
  | .parameter p => .parameter p
  | .member _ target name type => .member 0 (shape target) name type
  | .call _ method operands => .call 0 method (shapeAll operands)
  | .unary _ op operand => .unary 0 op (shape operand)
  | .binary _ op left right => .binary 0 op (shape left) (shape right)
  | .lambda _ params body => .lambda 0 params (shape body)

/-- The shapes of several expressions. -/
def shapeAll : List Expr → List Expr
  | [] => []
  | e :: es => shape e :: shapeAll es

end

theorem shapeAll_eq_map (es : List Expr) : shapeAll es = es.map shape := by
  induction es with
  | nil => rfl
  | cons e es ih => simp [shapeAll, ih]

attribute [simp] shape shapeAll_eq_map

/-- The type of an expression is that of its shape. -/
@[simp] theorem type_shape (e : Expr) : e.shape.type = e.type := by
  induction e with
  | lambda _ _ _ ih => simp [type, ih]
  | _ => simp [type]

/-- The parameters of an expression are those of its shape. -/
@[simp] theorem parameters_shape (e : Expr) : e.shape.parameters = e.parameters := by
  induction e with
  | call _ _ operands ih => simpa [List.flatMap_map] using List.flatMap_congr ih
  | constant | parameter => rfl
  | member _ _ _ _ ih | unary _ _ _ ih | lambda _ _ _ ih => simp [ih]
  | binary _ _ _ _ ihl ihr => simp [ihl, ihr]

/-- The lambdas of a shape declare what those of the expression do. -/
@[simp] theorem binders_shape (e : Expr) : e.shape.binders = e.binders := by
  induction e with
  | call _ _ operands ih => simpa [List.flatMap_map] using List.flatMap_congr ih
  | constant | parameter => rfl
  | member _ _ _ _ ih | unary _ _ _ ih | lambda _ _ _ ih => simp [ih]
  | binary _ _ _ _ ihl ihr => simp [ihl, ihr]

theorem parameters_eq_of_shape_eq {a b : Expr} (h : a.shape = b.shape) :
    a.parameters = b.parameters := by
  rw [← parameters_shape a, h, parameters_shape]

/-! ## Substitution as a function on trees -/

/-- What stands in a parameter list after a substitution; only parameters can. -/
def fillParameter (pick : Pick) (p : Parameter) : Parameter :=
  match pick (.parameter p) with
  | some (.parameter q) => q
  | _ => p

mutual

/-- The expression with other nodes in the place of those picked; all others keep their serials. -/
def fill (pick : Pick) (e : Expr) : Expr :=
  match pick e with
  | some replacement => replacement
  | none =>
      match e with
      | .constant .. | .parameter _ => e
      | .member serial target name type => .member serial (fill pick target) name type
      | .call serial method operands => .call serial method (fillAll pick operands)
      | .unary serial op operand => .unary serial op (fill pick operand)
      | .binary serial op left right => .binary serial op (fill pick left) (fill pick right)
      | .lambda serial params body =>
          .lambda serial (params.map (fillParameter pick)) (fill pick body)

/-- Several expressions with other nodes in the place of those picked. -/
def fillAll (pick : Pick) : List Expr → List Expr
  | [] => []
  | e :: es => fill pick e :: fillAll pick es

end

theorem fillAll_eq_map (pick : Pick) (es : List Expr) : fillAll pick es = es.map (fill pick) := by
  induction es with
  | nil => rfl
  | cons e es ih => simp [fillAll, ih]

theorem fill_of_some {pick : Pick} {e replacement : Expr} (h : pick e = some replacement) :
    e.fill pick = replacement := by
  cases e <;> simp [fill, h]

theorem replacing_eq_some_iff {node replacement e r : Expr} :
    replacing node replacement e = some r ↔ e = node ∧ r = replacement := by
  unfold replacing
  split_ifs with h <;> simp [h, eq_comm]

theorem replacing_eq_none_iff {node replacement e : Expr} :
    replacing node replacement e = none ↔ e ≠ node := by
  unfold replacing
  split_ifs with h <;> simp [h]

/-! ## Substitution for a parameter -/

section Replacing

variable (x : Parameter) (r : Expr) (serial : Nat)

@[simp] theorem fill_replacing_constant (value : Value) (type : Ty) :
    (constant serial value type).fill (replacing (parameter x) r) = constant serial value type := by
  simp [fill, replacing]

@[simp] theorem fill_replacing_parameter (p : Parameter) :
    (parameter p).fill (replacing (parameter x) r) = if p = x then r else parameter p := by
  by_cases h : p = x <;> simp [fill, replacing, h]

@[simp] theorem fill_replacing_member (target : Expr) (name : String) (type : Ty) :
    (member serial target name type).fill (replacing (parameter x) r)
      = member serial (target.fill (replacing (parameter x) r)) name type := by
  simp [fill, replacing]

@[simp] theorem fill_replacing_call (method : Method) (operands : List Expr) :
    (call serial method operands).fill (replacing (parameter x) r)
      = call serial method (operands.map (fill (replacing (parameter x) r))) := by
  simp [fill, replacing, fillAll_eq_map]

@[simp] theorem fill_replacing_unary (op : UnaryOp) (operand : Expr) :
    (unary serial op operand).fill (replacing (parameter x) r)
      = unary serial op (operand.fill (replacing (parameter x) r)) := by
  simp [fill, replacing]

@[simp] theorem fill_replacing_binary (op : BinaryOp) (left right : Expr) :
    (binary serial op left right).fill (replacing (parameter x) r)
      = binary serial op (left.fill (replacing (parameter x) r))
          (right.fill (replacing (parameter x) r)) := by
  simp [fill, replacing]

@[simp] theorem fill_replacing_lambda (params : List Parameter) (body : Expr) :
    (lambda serial params body).fill (replacing (parameter x) r)
      = lambda serial (params.map (fillParameter (replacing (parameter x) r)))
          (body.fill (replacing (parameter x) r)) := by
  simp [fill, replacing]

end Replacing

/-- A parameter list without the parameter substituted for stays as it is. -/
theorem map_fillParameter_of_notMem {x : Parameter} {r : Expr} {params : List Parameter}
    (h : x ∉ params) : params.map (fillParameter (replacing (parameter x) r)) = params := by
  refine (List.map_congr_left fun p hp => ?_).trans (List.map_id params)
  have hne : p ≠ x := fun e => h (e ▸ hp)
  simp [fillParameter, replacing, hne]

/-! ## Renaming -/

mutual

/-- The expression with its parameters renamed, where they are used and where they are declared. -/
def rename (σ : Parameter → Parameter) : Expr → Expr
  | .constant serial value type => .constant serial value type
  | .parameter p => .parameter (σ p)
  | .member serial target name type => .member serial (rename σ target) name type
  | .call serial method operands => .call serial method (renameAll σ operands)
  | .unary serial op operand => .unary serial op (rename σ operand)
  | .binary serial op left right => .binary serial op (rename σ left) (rename σ right)
  | .lambda serial params body => .lambda serial (params.map σ) (rename σ body)

/-- Several expressions with their parameters renamed. -/
def renameAll (σ : Parameter → Parameter) : List Expr → List Expr
  | [] => []
  | e :: es => rename σ e :: renameAll σ es

end

theorem renameAll_eq_map (σ : Parameter → Parameter) (es : List Expr) :
    renameAll σ es = es.map (rename σ) := by
  induction es with
  | nil => rfl
  | cons e es ih => simp [renameAll, ih]

attribute [simp] rename renameAll_eq_map

/-- Renaming twice is renaming once. -/
theorem rename_rename (σ τ : Parameter → Parameter) (e : Expr) :
    (e.rename σ).rename τ = e.rename (τ ∘ σ) := by
  induction e with
  | constant | parameter => rfl
  | call _ _ operands ih => simpa using List.map_congr_left ih
  | member _ _ _ _ ih | unary _ _ _ ih | lambda _ _ _ ih => simp [ih]
  | binary _ _ _ _ ihl ihr => simp [ihl, ihr]

@[simp] theorem rename_id (e : Expr) : e.rename id = e := by
  induction e with
  | constant | parameter => rfl
  | call _ _ operands ih => simpa using List.map_congr_left ih
  | member _ _ _ _ ih | unary _ _ _ ih | lambda _ _ _ ih => simp [ih]
  | binary _ _ _ _ ihl ihr => simp [ihl, ihr]

/-- Renaming renames the parameters that stand in an expression. -/
@[simp] theorem parameters_rename (σ : Parameter → Parameter) (e : Expr) :
    (e.rename σ).parameters = e.parameters.map σ := by
  induction e with
  | constant | parameter => rfl
  | call _ _ operands ih =>
      rw [rename, renameAll_eq_map, parameters_call, parameters_call, List.flatMap_map,
        List.map_flatMap]
      exact List.flatMap_congr ih
  | member _ _ _ _ ih | unary _ _ _ ih | lambda _ _ _ ih => simp [ih]
  | binary _ _ _ _ ihl ihr => simp [ihl, ihr]

/-- Renamings that agree on what stands in an expression rename it alike. -/
theorem rename_congr {σ τ : Parameter → Parameter} {e : Expr}
    (h : ∀ p ∈ e.parameters, σ p = τ p) : e.rename σ = e.rename τ := by
  induction e with
  | constant => rfl
  | parameter p => exact congrArg parameter (h p (List.mem_singleton_self p))
  | member _ _ _ _ ih | unary _ _ _ ih => rw [rename, rename, ih h]
  | call _ _ operands ih =>
      rw [parameters_call] at h
      rw [rename, rename, renameAll_eq_map, renameAll_eq_map]
      congr 1
      refine List.map_congr_left fun e he => ih e he fun p hp => ?_
      exact h p (List.mem_flatMap.mpr ⟨e, he, hp⟩)
  | binary _ _ _ _ ihl ihr =>
      rw [parameters_binary, List.forall_mem_append] at h
      rw [rename, rename, ihl h.1, ihr h.2]
  | lambda _ _ _ ih =>
      rw [parameters_lambda, List.forall_mem_append] at h
      rw [rename, rename, List.map_congr_left h.1, ih h.2]

/-- Renaming acts on the shape. -/
theorem shape_rename (σ : Parameter → Parameter) (e : Expr) :
    (e.rename σ).shape = e.shape.rename σ := by
  induction e with
  | constant | parameter => rfl
  | call _ _ operands ih => simpa using List.map_congr_left ih
  | member _ _ _ _ ih | unary _ _ _ ih | lambda _ _ _ ih => simp [ih]
  | binary _ _ _ _ ihl ihr => simp [ihl, ihr]

end Expr

/-- The renaming that sends `x` to `y` and leaves all other parameters alone. -/
def Parameter.redirect (x y p : Parameter) : Parameter :=
  if p = x then y else p

namespace Expr

/-- In parameter lists, putting a parameter in the place of another one renames it. -/
theorem fillParameter_replacing (x y : Parameter) :
    fillParameter (replacing (parameter x) (parameter y)) = x.redirect y := by
  funext p
  by_cases h : p = x <;> simp [fillParameter, replacing, Parameter.redirect, h]

/-- **Substituting a parameter for a parameter renames it.** -/
theorem fill_replacing_parameter_eq_rename (x y : Parameter) (e : Expr) :
    e.fill (replacing (parameter x) (parameter y)) = e.rename (x.redirect y) := by
  induction e with
  | constant => simp
  | parameter p => by_cases h : p = x <;> simp [Parameter.redirect, h]
  | member _ _ _ _ ih | unary _ _ _ ih => simp [ih]
  | call _ _ operands ih => simpa using ih
  | binary _ _ _ _ ihl ihr => simp [ihl, ihr]
  | lambda _ params _ ih => simp [ih, fillParameter_replacing]

end Expr

end ExprTree
