/-
# Comparing evaluations

Two evaluations can be compared in several ways: by outcome and native calls, by value only, or in
one direction. Whatever the comparison, if it respects sequencing then two expressions built alike
from parts that compare well compare well. Three consequences hold for every comparison: the frames
matter only for the free parameters, the serials of composite nodes do not matter, and renaming
parameters without making two of them one does not matter.
-/
import ExprTree.Evaluator
import ExprTree.Proofs.Frames
import ExprTree.Proofs.Shape

namespace ExprTree

/-- A node that is no lambda is no predicate. -/
theorem Evaluator.evaluatePredicate_of_not_lambda (evaluator : Evaluator) {frames : Frames}
    {quantifier : Quantifier} {e : Expr} (h : e.lambda? = none) :
    evaluator.evaluatePredicate frames quantifier e = EvalM.fail (.notLambda quantifier e) := by
  cases e with
  | lambda => cases h
  | _ => rfl

/-- A way to compare evaluations that respects sequencing and holds between any call of a native
function known to the evaluator and itself. -/
structure Comparison (evaluator : Evaluator) where
  /-- The first evaluation compares well with the second one. -/
  rel : {α : Type} → EvalM α → EvalM α → Prop
  pure {α : Type} (a : α) : rel (Pure.pure a) (Pure.pure a)
  fail {α : Type} (fault : EvalFault) : rel (EvalM.fail fault : EvalM α) (EvalM.fail fault)
  bind {α β : Type} {a b : EvalM α} {f g : α → EvalM β} :
    rel a b → (∀ x, rel (f x) (g x)) → rel (a >>= f) (b >>= g)
  trans {α : Type} {a b c : EvalM α} : rel a b → rel b c → rel a c
  native {name : String} {function : Native} (args : List Value) :
    evaluator.function? name = some function →
    rel (EvalM.callNative name function args) (EvalM.callNative name function args)

namespace Comparison

variable {evaluator : Evaluator} (C : Comparison evaluator)

/-- The comparison does not look at the reasons of failures. -/
def Lenient : Prop :=
  ∀ {α : Type} (fault fault' : EvalFault), C.rel (EvalM.fail fault : EvalM α) (EvalM.fail fault')

/-- Failures because the one or the other expression is no lambda compare well. -/
def relNotLambda (e e' : Expr) : Prop :=
  ∀ quantifier, C.rel (EvalM.fail (.notLambda quantifier e) : EvalM Value)
    (EvalM.fail (.notLambda quantifier e'))

/-- If the comparison looks at the reasons of failures, it does not look at serials in them. -/
def IgnoresSerials : Prop :=
  ∀ e e' : Expr, e.shape = e'.shape → C.relNotLambda e e'

theorem relNotLambda_refl (e : Expr) : C.relNotLambda e e :=
  fun _ => C.fail _

variable {C} in
theorem Lenient.relNotLambda (hC : C.Lenient) (e e' : Expr) : C.relNotLambda e e' :=
  fun _ => hC _ _

variable {C} in
theorem Lenient.ignoresSerials (hC : C.Lenient) : C.IgnoresSerials :=
  fun e e' _ => hC.relNotLambda e e'

/-! ## Operations on values -/

theorem ofExcept {α : Type} (outcome : Except EvalFault α) :
    C.rel (EvalM.ofExcept outcome) (EvalM.ofExcept outcome) := by
  cases outcome with
  | ok result => exact C.pure result
  | error fault => exact C.fail fault

theorem truth (place : TruthPlace) (value : Value) :
    C.rel (EvalM.truth place value) (EvalM.truth place value) := by
  unfold EvalM.truth
  split
  · exact C.pure _
  · exact C.fail _

theorem elements (quantifier : Quantifier) (source : Value) :
    C.rel (EvalM.elements quantifier source) (EvalM.elements quantifier source) := by
  unfold EvalM.elements
  split
  · exact C.pure _
  · exact C.fail _

theorem member (name : String) (value : Value) :
    C.rel (EvalM.member name value) (EvalM.member name value) := by
  unfold EvalM.member
  split
  · split
    · exact C.pure _
    · exact C.fail _
  · exact C.fail _

theorem anyM {f g : Value → EvalM Bool} (h : ∀ x, C.rel (f x) (g x)) (xs : List Value) :
    C.rel (xs.anyM f) (xs.anyM g) := by
  induction xs with
  | nil => exact C.pure false
  | cons x xs ih =>
      refine C.bind (h x) fun found => ?_
      cases found with
      | true => exact C.pure true
      | false => exact ih

theorem allM {f g : Value → EvalM Bool} (h : ∀ x, C.rel (f x) (g x)) (xs : List Value) :
    C.rel (xs.allM f) (xs.allM g) := by
  induction xs with
  | nil => exact C.pure true
  | cons x xs ih =>
      refine C.bind (h x) fun holds => ?_
      cases holds with
      | true => exact ih
      | false => exact C.pure false

/-- Tests of elements compare well if anything that runs them on elements does. -/
def relPredicate (a b : EvalM (Value → EvalM Bool)) : Prop :=
  ∀ next : (Value → EvalM Bool) → EvalM Value,
    (∀ f g, (∀ x, C.rel (f x) (g x)) → C.rel (next f) (next g)) → C.rel (a >>= next) (b >>= next)

theorem relPredicate_pure {f g : Value → EvalM Bool} (h : ∀ x, C.rel (f x) (g x)) :
    C.relPredicate (Pure.pure f) (Pure.pure g) :=
  fun next hnext => by simpa using hnext f g h

theorem relPredicate_fail {fault fault' : EvalFault}
    (h : C.rel (EvalM.fail fault : EvalM Value) (EvalM.fail fault')) :
    C.relPredicate (EvalM.fail fault) (EvalM.fail fault') :=
  fun _ _ => h

/-! ## Nodes built alike -/

variable {C} {frames frames' : Frames} {serial serial' : Nat}

section Values

theorem value_member {target target' : Expr} {name : String} {type type' : Ty}
    (h : C.rel (evaluator.evaluate frames target) (evaluator.evaluate frames' target')) :
    C.rel (evaluator.evaluate frames (.member serial target name type))
      (evaluator.evaluate frames' (.member serial' target' name type')) := by
  simp only [Evaluator.evaluate]
  exact C.bind h fun value => C.member name value

/-- Several expressions that compare well one by one compare well together. -/
theorem rel_evaluateAll {es es' : List Expr}
    (h : List.Forall₂ (fun e e' =>
      C.rel (evaluator.evaluate frames e) (evaluator.evaluate frames' e')) es es') :
    C.rel (evaluator.evaluateAll frames es) (evaluator.evaluateAll frames' es') := by
  induction h with
  | nil => exact C.pure []
  | cons he _ ih =>
      simp only [Evaluator.evaluateAll]
      exact C.bind he fun value => C.bind ih fun values => C.pure (value :: values)

theorem value_declared {name : String} {form : CallForm} {params : List Ty} {result : Ty}
    {operands operands' : List Expr}
    (h : List.Forall₂ (fun e e' =>
      C.rel (evaluator.evaluate frames e) (evaluator.evaluate frames' e')) operands operands') :
    C.rel (evaluator.evaluate frames (.call serial (.declared name form params result) operands))
      (evaluator.evaluate frames' (.call serial' (.declared name form params result) operands'))
    := by
  simp only [Evaluator.evaluate]
  split
  next => exact C.fail _
  next function hfunction =>
    exact C.bind (rel_evaluateAll h) fun args => C.native args hfunction

/-- A search compares the elements with a value; other quantifiers run a predicate on them. -/
theorem value_sequence {quantifier : Quantifier} {element : Ty}
    {source source' operand operand' : Expr}
    (hsource : C.rel (evaluator.evaluate frames source) (evaluator.evaluate frames' source'))
    (hvalue : C.rel (evaluator.evaluate frames operand) (evaluator.evaluate frames' operand'))
    (hpredicate : quantifier ≠ .contains →
      C.relPredicate (evaluator.evaluatePredicate frames quantifier operand)
        (evaluator.evaluatePredicate frames' quantifier operand')) :
    C.rel (evaluator.evaluate frames (.call serial (.sequence quantifier element) [source, operand]))
      (evaluator.evaluate frames'
        (.call serial' (.sequence quantifier element) [source', operand'])) := by
  simp only [Evaluator.evaluate]
  refine C.bind hsource fun value => C.bind (C.elements quantifier value) fun elements => ?_
  cases quantifier with
  | contains => exact C.bind hvalue fun needle => C.pure _
  | any =>
      refine hpredicate (by decide) _ fun f g hfg => ?_
      exact C.bind (C.anyM hfg elements) fun found => C.pure _
  | all =>
      refine hpredicate (by decide) _ fun f g hfg => ?_
      exact C.bind (C.allM hfg elements) fun holds => C.pure _

/-- Calls of one method on operands that compare well. -/
theorem value_call {method : Method} {operands operands' : List Expr}
    (hvalues : List.Forall₂ (fun e e' =>
      C.rel (evaluator.evaluate frames e) (evaluator.evaluate frames' e')) operands operands')
    (hpredicate : ∀ quantifier element source operand source' operand',
      method = .sequence quantifier element → quantifier ≠ .contains →
      operands = [source, operand] → operands' = [source', operand'] →
      C.relPredicate (evaluator.evaluatePredicate frames quantifier operand)
        (evaluator.evaluatePredicate frames' quantifier operand')) :
    C.rel (evaluator.evaluate frames (.call serial method operands))
      (evaluator.evaluate frames' (.call serial' method operands')) := by
  cases method with
  | declared => exact value_declared hvalues
  | sequence quantifier element =>
      match hvalues with
      | .cons hsource (.cons hvalue .nil) =>
          exact value_sequence hsource hvalue fun hq => hpredicate _ _ _ _ _ _ rfl hq rfl rfl
      | .nil => exact C.fail _
      | .cons _ .nil => exact C.fail _
      | .cons _ (.cons _ (.cons _ h)) =>
          simp only [Evaluator.evaluate, List.length_cons, h.length_eq]
          exact C.fail _

theorem value_unary {op : UnaryOp} {operand operand' : Expr}
    (h : C.rel (evaluator.evaluate frames operand) (evaluator.evaluate frames' operand')) :
    C.rel (evaluator.evaluate frames (.unary serial op operand))
      (evaluator.evaluate frames' (.unary serial' op operand')) := by
  simp only [Evaluator.evaluate]
  exact C.bind h fun value => C.ofExcept (op.apply value)

theorem value_binary {op : BinaryOp} {left left' right right' : Expr}
    (hleft : C.rel (evaluator.evaluate frames left) (evaluator.evaluate frames' left'))
    (hright : C.rel (evaluator.evaluate frames right) (evaluator.evaluate frames' right')) :
    C.rel (evaluator.evaluate frames (.binary serial op left right))
      (evaluator.evaluate frames' (.binary serial' op left' right')) := by
  simp only [Evaluator.evaluate]
  split
  next =>
    refine C.bind hleft fun value => C.bind (C.truth _ value) fun b => ?_
    cases b with
    | true => exact C.bind hright fun value => C.bind (C.truth _ value) fun b => C.pure _
    | false => exact C.pure _
  next =>
    refine C.bind hleft fun value => C.bind (C.truth _ value) fun b => ?_
    cases b with
    | true => exact C.pure _
    | false => exact C.bind hright fun value => C.bind (C.truth _ value) fun b => C.pure _
  next => exact C.bind hleft fun a => C.bind hright fun b => C.ofExcept _

theorem value_lambda {params params' : List Parameter} {body body' : Expr} :
    C.rel (evaluator.evaluate frames (.lambda serial params body))
      (evaluator.evaluate frames' (.lambda serial' params' body')) :=
  C.fail _

end Values

/-! ## Predicates -/

/-- Lambdas run on an element compare well if their bodies do. -/
theorem predicate_lambda {params params' : List Parameter} {body body' : Expr}
    {quantifier : Quantifier}
    (h : ∀ x, C.rel (evaluator.evaluate (⟨params, [x]⟩ :: frames) body)
      (evaluator.evaluate (⟨params', [x]⟩ :: frames') body')) :
    C.relPredicate (evaluator.evaluatePredicate frames quantifier (.lambda serial params body))
      (evaluator.evaluatePredicate frames' quantifier (.lambda serial' params' body')) :=
  C.relPredicate_pure fun x => C.bind (h x) fun value => C.truth _ value

/-- Other nodes are no predicates. -/
theorem predicate_of_not_lambda {e e' : Expr} {quantifier : Quantifier}
    (he : e.lambda? = none) (he' : e'.lambda? = none) (h : C.relNotLambda e e') :
    C.relPredicate (evaluator.evaluatePredicate frames quantifier e)
      (evaluator.evaluatePredicate frames' quantifier e') := by
  rw [evaluator.evaluatePredicate_of_not_lambda he, evaluator.evaluatePredicate_of_not_lambda he']
  exact C.relPredicate_fail (h quantifier)

variable (C) in
/-- In the given frames the first expression compares well with the second one, as a value and as a
predicate. -/
structure Simulates (frames : Frames) (e : Expr) (frames' : Frames) (e' : Expr) : Prop where
  value : C.rel (evaluator.evaluate frames e) (evaluator.evaluate frames' e')
  predicate : ∀ quantifier, C.relPredicate (evaluator.evaluatePredicate frames quantifier e)
    (evaluator.evaluatePredicate frames' quantifier e')

namespace Simulates

/-- Two nodes that are no lambdas are compared by their values. -/
theorem of_value {e e' : Expr}
    (hvalue : C.rel (evaluator.evaluate frames e) (evaluator.evaluate frames' e'))
    (he : e.lambda? = none) (he' : e'.lambda? = none) (h : C.relNotLambda e e') :
    C.Simulates frames e frames' e' :=
  ⟨hvalue, fun _ => predicate_of_not_lambda he he' h⟩

theorem lambda {params params' : List Parameter} {body body' : Expr}
    (h : ∀ x, C.Simulates (⟨params, [x]⟩ :: frames) body (⟨params', [x]⟩ :: frames') body') :
    C.Simulates frames (.lambda serial params body) frames' (.lambda serial' params' body') :=
  ⟨value_lambda, fun _ => predicate_lambda fun x => (h x).value⟩

/-- Calls of one method on operands that are simulated one by one. -/
theorem value_call {method : Method} {operands operands' : List Expr}
    (h : List.Forall₂ (fun e e' => C.Simulates frames e frames' e') operands operands') :
    C.rel (evaluator.evaluate frames (.call serial method operands))
      (evaluator.evaluate frames' (.call serial' method operands')) := by
  refine Comparison.value_call (h.imp fun _ _ h => h.value) ?_
  rintro quantifier _ source operand source' operand' - - rfl rfl
  simp only [List.forall₂_cons] at h
  exact h.2.1.predicate quantifier

end Simulates

/-! ## What does not matter -/

variable (C) in
theorem lookup (frames : Frames) (p : Parameter) :
    C.rel (frames.lookup p) (frames.lookup p) := by
  induction frames with
  | nil => exact C.fail _
  | cons frame outer ih =>
      rw [Frames.lookup_cons]
      split
      · exact ih
      · unfold Frames.argument
        split
        · exact C.pure _
        · exact C.fail _

/-- **The frames matter only for the free parameters.** -/
theorem simulates_of_lookup {e : Expr}
    (h : ∀ p, Expr.OccursFree p e → C.rel (frames.lookup p) (frames'.lookup p)) :
    C.Simulates frames e frames' e := by
  induction e generalizing frames frames' with
  | constant _ value _ => exact .of_value (C.pure value) rfl rfl (C.relNotLambda_refl _)
  | parameter p => exact .of_value (h p .parameter) rfl rfl (C.relNotLambda_refl _)
  | member _ _ _ _ ih =>
      exact .of_value (value_member (ih fun p hp => h p (.member hp)).value) rfl rfl
        (C.relNotLambda_refl _)
  | call _ _ operands ih =>
      refine .of_value (Simulates.value_call (List.forall₂_same.mpr fun e he => ?_)) rfl rfl
        (C.relNotLambda_refl _)
      exact ih e he fun p hp => h p (.call he hp)
  | unary _ _ _ ih =>
      exact .of_value (value_unary (ih fun p hp => h p (.unary hp)).value) rfl rfl
        (C.relNotLambda_refl _)
  | binary _ _ _ _ ihl ihr =>
      exact .of_value (value_binary (ihl fun p hp => h p (.left hp)).value
        (ihr fun p hp => h p (.right hp)).value) rfl rfl (C.relNotLambda_refl _)
  | lambda _ params _ ih =>
      refine .lambda fun x => ih fun p hp => ?_
      -- The parameters of the lambda are found in the frame of the element, on both sides.
      by_cases hparam : p ∈ params
      · rw [Frames.lookup_cons_of_mem hparam frames frames']
        exact C.lookup _ p
      · rw [Frames.lookup_cons_of_notMem hparam, Frames.lookup_cons_of_notMem hparam]
        exact h p (.lambda hparam hp)

/-- **The serials of composite nodes do not matter.** -/
theorem simulates_of_shape_eq (hC : C.IgnoresSerials) {e e' : Expr} (h : e.shape = e'.shape) :
    C.Simulates frames e frames e' := by
  induction e generalizing frames e' with
  | constant _ value _ =>
      have hnot := hC _ _ h
      cases e' with
      | constant =>
          simp only [Expr.shape, Expr.constant.injEq] at h
          obtain ⟨-, rfl, -⟩ := h
          exact .of_value (C.pure value) rfl rfl hnot
      | _ => simp [Expr.shape] at h
  | parameter p =>
      have hnot := hC _ _ h
      cases e' with
      | parameter =>
          simp only [Expr.shape, Expr.parameter.injEq] at h
          subst h
          exact .of_value (C.lookup frames p) rfl rfl hnot
      | _ => simp [Expr.shape] at h
  | member _ _ _ _ ih =>
      have hnot := hC _ _ h
      cases e' with
      | member =>
          simp only [Expr.shape, Expr.member.injEq, true_and] at h
          obtain ⟨htarget, rfl, -⟩ := h
          exact .of_value (value_member (ih htarget).value) rfl rfl hnot
      | _ => simp [Expr.shape] at h
  | call _ _ operands ih =>
      have hnot := hC _ _ h
      cases e' with
      | call _ _ operands' =>
          simp only [Expr.shape, Expr.shapeAll_eq_map, Expr.call.injEq, true_and] at h
          obtain ⟨rfl, hoperands⟩ := h
          refine .of_value (Simulates.value_call ?_) rfl rfl hnot
          rw [← List.forall₂_eq_eq_eq, List.forall₂_map_left_iff, List.forall₂_map_right_iff]
            at hoperands
          have hboth := (List.forall₂_and_left _ _).mpr ⟨ih, hoperands⟩
          exact hboth.imp fun e e' h => h.1 h.2
      | _ => simp [Expr.shape] at h
  | unary _ _ _ ih =>
      have hnot := hC _ _ h
      cases e' with
      | unary =>
          simp only [Expr.shape, Expr.unary.injEq, true_and] at h
          obtain ⟨rfl, hoperand⟩ := h
          exact .of_value (value_unary (ih hoperand).value) rfl rfl hnot
      | _ => simp [Expr.shape] at h
  | binary _ _ _ _ ihl ihr =>
      have hnot := hC _ _ h
      cases e' with
      | binary =>
          simp only [Expr.shape, Expr.binary.injEq, true_and] at h
          obtain ⟨rfl, hleft, hright⟩ := h
          exact .of_value (value_binary (ihl hleft).value (ihr hright).value) rfl rfl hnot
      | _ => simp [Expr.shape] at h
  | lambda _ params _ ih =>
      cases e' with
      | lambda =>
          simp only [Expr.shape, Expr.lambda.injEq, true_and] at h
          obtain ⟨rfl, hbody⟩ := h
          exact .lambda fun x => ih hbody
      | _ => simp [Expr.shape] at h

/-- The place that needs a truth value only matters for the failure. -/
theorem truth_congr (hC : C.Lenient) (place place' : TruthPlace) (value : Value) :
    C.rel (EvalM.truth place value) (EvalM.truth place' value) := by
  unfold EvalM.truth
  split
  · exact C.pure _
  · exact hC _ _

/-- The place in the frame decides, not the parameter that is named in a failure. -/
theorem argument_congr (hC : C.Lenient) (args : List Value) (p q : Parameter) (position : Nat) :
    C.rel (Frames.argument args p position) (Frames.argument args q position) := by
  unfold Frames.argument
  split
  · exact C.pure _
  · exact hC _ _

/-- Renaming the frames keeps what a parameter stands for. -/
theorem lookup_rename (hC : C.Lenient) {σ : Parameter → Parameter} {p : Parameter}
    (hσ : ∀ q ∈ frames.declared, σ q = σ p → q = p) :
    C.rel (Frames.lookup (frames.map (Frame.rename σ)) (σ p)) (frames.lookup p) := by
  induction frames with
  | nil => exact hC _ _
  | cons frame outer ih =>
      rw [Frames.declared_cons, List.forall_mem_append] at hσ
      have hposition := Frames.idxOf?_map hσ.1
      rw [List.map_cons, Frames.lookup_cons, Frames.lookup_cons, Frame.rename, hposition]
      split
      · exact ih hσ.2
      · exact argument_congr hC _ _ _ _

/-- **Renaming does not matter** if it makes no two of the parameters in the expression and the
frames one. -/
theorem simulates_rename (hC : C.Lenient) {σ : Parameter → Parameter} {known : List Parameter}
    (hσ : ∀ p ∈ known, ∀ q ∈ known, σ p = σ q → p = q) {e : Expr} (he : e.parameters ⊆ known)
    (hframes : frames.declared ⊆ known) :
    C.Simulates (frames.map (Frame.rename σ)) (e.rename σ) frames e := by
  induction e generalizing frames with
  | constant _ value _ => exact .of_value (C.pure value) rfl rfl (hC.relNotLambda _ _)
  | parameter p =>
      have hp : p ∈ known := he (by simp)
      refine .of_value (lookup_rename hC fun q hq => ?_) rfl rfl (hC.relNotLambda _ _)
      exact hσ q (hframes hq) p hp
  | member _ _ _ _ ih =>
      exact .of_value (value_member (ih he hframes).value) rfl rfl (hC.relNotLambda _ _)
  | call _ _ operands ih =>
      rw [Expr.parameters_call] at he
      have hoperands : List.Forall₂ (fun e e' =>
          C.Simulates (frames.map (Frame.rename σ)) e frames e')
          (operands.map (Expr.rename σ)) operands := by
        rw [List.forall₂_map_left_iff, List.forall₂_same]
        intro e hmem
        exact ih e hmem (fun p hp => he (List.mem_flatMap_of_mem hmem hp)) hframes
      rw [Expr.rename, Expr.renameAll_eq_map]
      exact .of_value (Simulates.value_call hoperands) rfl rfl (hC.relNotLambda _ _)
  | unary _ _ _ ih =>
      exact .of_value (value_unary (ih he hframes).value) rfl rfl (hC.relNotLambda _ _)
  | binary _ _ _ _ ihl ihr =>
      rw [Expr.parameters_binary, List.append_subset] at he
      exact .of_value (value_binary (ihl he.1 hframes).value (ihr he.2 hframes).value) rfl rfl
        (hC.relNotLambda _ _)
  | lambda _ params _ ih =>
      rw [Expr.parameters_lambda, List.append_subset] at he
      refine .lambda fun x => ?_
      -- The frame of the element is renamed like the frames around it.
      have hinner : Frames.declared (⟨params, [x]⟩ :: frames) ⊆ known :=
        List.append_subset.mpr ⟨he.1, hframes⟩
      exact ih he.2 hinner

/-- **A renamed body in a renamed frame** means what the body means in the frame, whatever serials its
nodes have. -/
theorem rel_of_renamed (hC : C.Lenient) {σ : Parameter → Parameter} {params : List Parameter}
    {body body' : Expr}
    (hσ : ∀ p ∈ params ++ body.parameters, ∀ q ∈ params ++ body.parameters, σ p = σ q → p = q)
    (hshape : body'.shape = body.shape.rename σ) (args : List Value) :
    C.rel (evaluator.evaluate [⟨params.map σ, args⟩] body')
      (evaluator.evaluate [⟨params, args⟩] body) := by
  rw [← Expr.shape_rename] at hshape
  have hdeclared : Frames.declared [⟨params, args⟩] ⊆ params ++ body.parameters := by simp
  have hrenamed := simulates_rename (C := C) hC hσ (List.subset_append_right _ _) hdeclared
  exact C.trans (simulates_of_shape_eq hC.ignoresSerials hshape).value hrenamed.value

end Comparison

end ExprTree
