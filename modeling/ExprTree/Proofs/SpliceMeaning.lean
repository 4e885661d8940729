/-
# What a spliced lambda means

If native functions answer by their arguments alone and no lambda of the continuation captures
anything, a spliced lambda is the composition of the selector and the continuation: the continuation
run on what the selector returns. Where the selector fails, a value of the spliced lambda does not
depend on it.
-/
import ExprTree.Proofs.Combined
import ExprTree.Proofs.Outcome

namespace ExprTree

namespace Expr

/-- Somewhere in the expression the parameter itself is the predicate that `Any` or `All` runs. -/
def UsesAsPredicate (p : Parameter) (e : Expr) : Prop :=
  ∃ serial quantifier element source, quantifier ≠ .contains ∧
    .call serial (.sequence quantifier element) [source, .parameter p] ∈ e.nodes

theorem UsesAsPredicate.of_mem_nodes {p : Parameter} {n e : Expr} (h : n.UsesAsPredicate p)
    (hn : n ∈ e.nodes) : e.UsesAsPredicate p := by
  obtain ⟨serial, quantifier, element, source, hquantifier, hcall⟩ := h
  exact ⟨serial, quantifier, element, source, hquantifier, nodes_subset hn hcall⟩

/-- Putting `selected` in the place of `p` captures nothing inside the given frames. The expression uses
`p` and what the frames declare only, neither the frames nor its lambdas declare `p` or what is free in
`selected`, and no lambda comes to stand where `p` is a predicate. -/
structure Fillable (selected : Expr) (p : Parameter) (inner : Frames) (e : Expr) : Prop where
  closed : ∀ q, OccursFree q e → q = p ∨ q ∈ inner.declared
  frames : ∀ q ∈ inner.declared, q ≠ p ∧ ¬ OccursFree q selected
  binders : ∀ q ∈ e.binders, q ≠ p ∧ ¬ OccursFree q selected
  predicate : selected.lambda? = none ∨ ¬ e.UsesAsPredicate p

namespace Fillable

variable {selected e child body : Expr} {p : Parameter} {inner : Frames} {serial : Nat}
  {params : List Parameter}

theorem of_mem_children (h : Fillable selected p inner e) (he : e.lambda? = none)
    (hchild : child ∈ e.children) : Fillable selected p inner child := by
  have hnode := mem_nodes_of_mem_children hchild
  exact ⟨fun q hq => h.closed q (hq.of_mem_children_of_not_lambda he hchild), h.frames,
    fun q hq => h.binders q (binders_subset hnode hq),
    h.predicate.imp_right fun hnot huses => hnot (huses.of_mem_nodes hnode)⟩

theorem of_mem_params (h : Fillable selected p inner (.lambda serial params body)) {q : Parameter}
    (hq : q ∈ params) : q ≠ p ∧ ¬ OccursFree q selected :=
  h.binders q (by simp [hq])

/-- Below a lambda the frame of its element comes first. -/
theorem inside (h : Fillable selected p inner (.lambda serial params body)) (x : Value) :
    Fillable selected p (⟨params, [x]⟩ :: inner) body := by
  have hnode : body ∈ (Expr.lambda serial params body).nodes := by simp
  refine ⟨fun q hq => ?_, fun q hq => ?_, fun q hq => h.binders q (binders_subset hnode hq),
    h.predicate.imp_right fun hnot huses => hnot (huses.of_mem_nodes hnode)⟩
  · rw [Frames.declared_cons, List.mem_append]
    by_cases hmem : q ∈ params
    · exact Or.inr (Or.inl hmem)
    · exact (h.closed q (.lambda hmem hq)).imp_right Or.inr
  · rcases List.mem_append.mp hq with hq | hq
    · exact h.of_mem_params hq
    · exact h.frames q hq

end Fillable

end Expr

namespace Comparison

open ExprTree.Expr

variable {evaluator : Evaluator} {C : Comparison evaluator}

section Fill

variable {selected : Expr} {outer inner : Frames} {p : Parameter} {u : Value}

variable (C selected outer p u) in
/-- Inside further frames the expression with `selected` in the place of `p` compares with the
expression itself where `p` stands for `u`, as a value and, unless it is `p` that stands for a lambda,
as a predicate. -/
structure SimulatesFilled (inner : Frames) (e : Expr) : Prop where
  value : C.rel (evaluator.evaluate (inner ++ outer) (e.fill (replacing (.parameter p) selected)))
    (evaluator.evaluate (inner ++ [⟨[p], [u]⟩]) e)
  predicate : e ≠ .parameter p ∨ selected.lambda? = none → ∀ quantifier, C.relPredicate
    (evaluator.evaluatePredicate (inner ++ outer) quantifier
      (e.fill (replacing (.parameter p) selected)))
    (evaluator.evaluatePredicate (inner ++ [⟨[p], [u]⟩]) quantifier e)

/-- Two nodes that are no lambdas are compared by their values. -/
theorem SimulatesFilled.of_value (hC : C.Lenient) {e : Expr}
    (hvalue : C.rel
      (evaluator.evaluate (inner ++ outer) (e.fill (replacing (.parameter p) selected)))
      (evaluator.evaluate (inner ++ [⟨[p], [u]⟩]) e))
    (he : e.lambda? = none)
    (hfill : e ≠ .parameter p ∨ selected.lambda? = none →
      (e.fill (replacing (.parameter p) selected)).lambda? = none) :
    C.SimulatesFilled selected outer p u inner e :=
  ⟨hvalue, fun h _ => predicate_of_not_lambda (hfill h) he (hC.relNotLambda _ _)⟩

/-- What `selected` stands for does not change inside frames that capture nothing of it. -/
theorem rel_inside (hselected : C.rel (evaluator.evaluate outer selected) (Pure.pure u))
    (hinner : ∀ q ∈ inner.declared, ¬ OccursFree q selected) :
    C.rel (evaluator.evaluate (inner ++ outer) selected) (Pure.pure u) := by
  refine C.trans (simulates_of_lookup fun q hq => ?_).value hselected
  rw [Frames.lookup_append_of_notMem fun h => hinner q h hq]
  exact C.lookup outer q

/-- The parameter `p` is where the copy stands, any other one is declared by a frame that both sides
share. -/
theorem simulatesFilled_parameter (hC : C.Lenient)
    (hselected : C.rel (evaluator.evaluate outer selected) (Pure.pure u)) {q : Parameter}
    (h : Fillable selected p inner (.parameter q)) :
    C.SimulatesFilled selected outer p u inner (.parameter q) := by
  by_cases hq : q = p
  · subst hq
    refine .of_value hC ?_ rfl (by simp)
    rw [fill_replacing_parameter, if_pos rfl, Evaluator.evaluate,
      Frames.lookup_append_of_notMem fun hmem => (h.frames q hmem).1 rfl, Frames.lookup_cons_self]
    exact rel_inside hselected fun r hr => (h.frames r hr).2
  · refine .of_value hC ?_ rfl (by simp [hq, lambda?])
    have hdeclared := (h.closed q .parameter).resolve_left hq
    rw [fill_replacing_parameter, if_neg hq, Evaluator.evaluate, Evaluator.evaluate,
      Frames.lookup_append_of_mem hdeclared outer [⟨[p], [u]⟩]]
    exact C.lookup _ q

/-- A call is compared by its operands, of which only a predicate is not looked at as a value. -/
theorem simulatesFilled_call (hC : C.Lenient) {serial : Nat} {method : Method}
    {operands : List Expr} (h : Fillable selected p inner (.call serial method operands))
    (hoperands : ∀ e ∈ operands, C.SimulatesFilled selected outer p u inner e) :
    C.SimulatesFilled selected outer p u inner (.call serial method operands) := by
  refine .of_value hC ?_ rfl (by simp [lambda?])
  rw [fill_replacing_call]
  refine Comparison.value_call ?_ ?_
  · rw [List.forall₂_map_left_iff, List.forall₂_same]
    exact fun e he => (hoperands e he).value
  · rintro quantifier element source operand source' operand' rfl hquantifier hfill rfl
    simp only [List.map_cons, List.map_nil, List.cons.injEq, and_true] at hfill
    obtain ⟨-, rfl⟩ := hfill
    refine (hoperands operand' (by simp)).predicate ?_ quantifier
    rcases h.predicate with hlambda | hnot
    · exact Or.inr hlambda
    · refine Or.inl ?_
      rintro rfl
      exact hnot ⟨serial, quantifier, element, source', hquantifier, mem_nodes_self _⟩

/-- A lambda does not declare `p`, so its parameter list stays and it is compared by its body. -/
theorem simulatesFilled_lambda {serial : Nat} {params : List Parameter} {body : Expr}
    (h : Fillable selected p inner (.lambda serial params body))
    (hbody : ∀ x, C.SimulatesFilled selected outer p u (⟨params, [x]⟩ :: inner) body) :
    C.SimulatesFilled selected outer p u inner (.lambda serial params body) := by
  have hparams : params.map (fillParameter (replacing (.parameter p) selected)) = params :=
    map_fillParameter_of_notMem fun hp => (h.of_mem_params hp).1 rfl
  constructor
  · rw [fill_replacing_lambda]
    exact value_lambda
  · intro _ quantifier
    rw [fill_replacing_lambda, hparams]
    exact predicate_lambda fun x => (hbody x).value

/-- **Substitution and evaluation.** If `selected` compares with `u`, then inside frames that capture
nothing an expression with `selected` in the place of `p` compares with the expression itself where
`p` stands for `u`. -/
theorem simulatesFilled (hC : C.Lenient)
    (hselected : C.rel (evaluator.evaluate outer selected) (Pure.pure u)) {e : Expr}
    (h : Fillable selected p inner e) : C.SimulatesFilled selected outer p u inner e := by
  induction e generalizing inner with
  | constant serial value type =>
      refine .of_value hC ?_ rfl (by simp [lambda?])
      rw [fill_replacing_constant]
      exact C.pure value
  | parameter q => exact simulatesFilled_parameter hC hselected h
  | member _ _ _ _ ih =>
      refine .of_value hC ?_ rfl (by simp [lambda?])
      rw [fill_replacing_member]
      exact value_member (ih (h.of_mem_children rfl (List.mem_singleton_self _))).value
  | call _ _ _ ih =>
      exact simulatesFilled_call hC h fun e he => ih e he (h.of_mem_children rfl he)
  | unary _ _ _ ih =>
      refine .of_value hC ?_ rfl (by simp [lambda?])
      rw [fill_replacing_unary]
      exact value_unary (ih (h.of_mem_children rfl (List.mem_singleton_self _))).value
  | binary _ _ left right ihl ihr =>
      refine .of_value hC ?_ rfl (by simp [lambda?])
      have hleft := ihl (h.of_mem_children rfl List.mem_cons_self)
      have hright := ihr (h.of_mem_children rfl (List.mem_cons_of_mem _ List.mem_cons_self))
      rw [fill_replacing_binary]
      exact value_binary hleft.value hright.value
  | lambda _ _ _ ih => exact simulatesFilled_lambda h fun x => ih (h.inside x)

end Fill

end Comparison

/-! ## Spliced lambdas -/

namespace Lambda

section Splice

open ExprTree.Expr

variable {evaluator : Evaluator} {selector continuation spliced : Lambda} {p : Parameter}
  {args : List Value}

/-- If the body of the selector compares with a value, the spliced lambda compares with the
continuation run on that value. -/
theorem rel_invoke_spliced {C : Comparison evaluator} (hC : C.Lenient)
    (hparams : continuation.params = [p]) (hspliced : spliced.params = selector.params)
    (hshape : spliced.body.shape
      = (continuation.body.fill (replacing (.parameter p) selector.body)).shape)
    (hclosed : continuation.isClosed = true)
    (hbinders : ∀ q ∈ continuation.body.binders, q ≠ p ∧ ¬ OccursFree q selector.body)
    (hpredicate : selector.body.lambda? = none ∨ ¬ continuation.body.UsesAsPredicate p)
    (hargs : args.length = selector.params.length) {u : Value}
    (hselected : C.rel (evaluator.evaluate [⟨selector.params, args⟩] selector.body) (pure u)) :
    C.rel (evaluator.invoke spliced args) (evaluator.invoke continuation [u]) := by
  unfold Evaluator.invoke
  rw [hspliced, hparams, if_pos hargs, if_pos (by rfl)]
  refine C.trans (Comparison.simulates_of_shape_eq hC.ignoresSerials hshape).value ?_
  have hfree : ∀ q, OccursFree q continuation.body → q = p ∨ q ∈ Frames.declared [] := by
    intro q hq
    have hmem := mem_params_of_isClosed hclosed hq
    rw [hparams] at hmem
    exact Or.inl (List.mem_singleton.mp hmem)
  have hfillable : Fillable selector.body p [] continuation.body :=
    ⟨hfree, fun _ => nofun, hbinders, hpredicate⟩
  exact (Comparison.simulatesFilled hC hselected hfillable).value

/-- With deterministic native functions the value of an expression does not depend on the history. -/
theorem sameValue_evaluate (hdeterministic : evaluator.Deterministic) (frames : Frames) (e : Expr) :
    (evaluator.evaluate frames e).SameValue (evaluator.evaluate frames e) :=
  (Comparison.simulates_of_lookup fun p _ =>
    (Comparison.sameValue hdeterministic).lookup frames p).value

/-- **A spliced lambda is the composition of selector and continuation.** -/
theorem invoke_spliceOptional {session session' : Session}
    (hparams : continuation.params = [p])
    (hsplice : (spliceOptional (some selector) (some continuation)).runIn session
      = (.ok spliced, session'))
    (hclosed : continuation.isClosed = true)
    (hbinders : ∀ q ∈ continuation.body.binders, q ≠ p ∧ q ∉ selector.body.free)
    (hdeterministic : evaluator.Deterministic) (args : List Value) :
    (∀ history v, (evaluator.invoke selector args).value? history = some v →
      (evaluator.invoke spliced args).SameValue (evaluator.invoke continuation [v])) ∧
    (selector.body.lambda? = none ∨ ¬ continuation.body.UsesAsPredicate p →
      ∀ history, (evaluator.invoke selector args).value? history = none →
      ∀ history' w, (evaluator.invoke spliced args).value? history' = some w →
      ∀ u history'', (evaluator.invoke continuation [u]).value? history'' = some w) := by
  obtain ⟨-, hspliced, -, hsubst⟩ := Build.spliced_of_runIn hparams hsplice
  have hbinders : ∀ q ∈ continuation.body.binders, q ≠ p ∧ ¬ OccursFree q selector.body :=
    fun q hq => ⟨(hbinders q hq).1, fun h => (hbinders q hq).2 (mem_free.mpr h)⟩
  have hsame := sameValue_evaluate hdeterministic [⟨selector.params, args⟩] selector.body
  by_cases hargs : args.length = selector.params.length
  · have hinvoke : evaluator.invoke selector args
        = evaluator.evaluate [⟨selector.params, args⟩] selector.body := if_pos hargs
    rw [hinvoke]
    constructor
    · intro history v hv
      -- A lambda has no value, so the selector selects something else.
      have hlambda : selector.body.lambda? = none := by
        cases hbody : selector.body with
        | lambda =>
            rw [hbody] at hv
            cases hv
        | _ => rfl
      exact rel_invoke_spliced (Comparison.lenient_sameValue hdeterministic) hparams hspliced
        hsubst.shape_eq hclosed hbinders (Or.inl hlambda) hargs (hsame.pure_of_value? hv)
    · intro hpredicate history hnone history' w hw u history''
      exact rel_invoke_spliced (Comparison.lenient_refinement hdeterministic) hparams hspliced
        hsubst.shape_eq hclosed hbinders hpredicate hargs (hsame.refines_of_value? hnone)
        history' history'' w hw
  · -- With the wrong number of arguments neither of the two is run.
    have hselector : evaluator.invoke selector args
        = EvalM.fail (.argumentCount selector args.length) := if_neg hargs
    have hfail : evaluator.invoke spliced args
        = EvalM.fail (.argumentCount spliced args.length) := if_neg (hspliced ▸ hargs)
    rw [hselector, hfail]
    exact ⟨fun _ _ => nofun, fun _ _ _ _ _ => nofun⟩

end Splice

namespace Doubling

def x : Parameter := ⟨0, some "x", .int32⟩

def n : Parameter := ⟨1, some "n", .int32⟩

/-- `x => -x`. -/
def negated : Lambda := ⟨[x], .unary 0 .negate (.parameter x)⟩

/-- `n => (n + n)`. -/
def doubled : Lambda := ⟨[n], .binary 1 .add (.parameter n) (.parameter n)⟩

/-- `x => (-x + -x)`; the two operands are one node. -/
def spliced : Lambda :=
  ⟨[x], .binary 2 .add (.unary 0 .negate (.parameter x)) (.unary 0 .negate (.parameter x))⟩

/-- `x => (10 / x)`. -/
def quotient : Lambda := ⟨[x], .binary 1 .div (.constant 0 (.int32 10) .int32) (.parameter x)⟩

/-- `n => (true || (n == 1))`. -/
def settled : Lambda :=
  ⟨[n], .binary 5 .orElse (.constant 2 (.boolean true) .boolean)
    (.binary 4 .eq (.parameter n) (.constant 3 (.int32 1) .int32))⟩

/-- `x => (true || ((10 / x) == 1))`. -/
def splicedSettled : Lambda :=
  ⟨[x], .binary 7 .orElse (.constant 2 (.boolean true) .boolean)
    (.binary 6 .eq quotient.body (.constant 3 (.int32 1) .int32))⟩

/-- Changing the sign and then doubling is a composition. Dividing by zero selects nothing, but an
answer that does not ask for the quotient is there all the same, and then it is the answer for every
number. -/
theorem invoke_doubled_negated :
    (Evaluator.invoke {} negated [.int32 5]).value? #[] = some (.int32 (-5)) ∧
    (Evaluator.invoke {} spliced [.int32 5]).SameValue
      (Evaluator.invoke {} doubled [.int32 (-5)]) ∧
    (Evaluator.invoke {} quotient [.int32 0]).value? #[] = none ∧
    (Evaluator.invoke {} splicedSettled [.int32 0]).value? #[] = some (.boolean true) ∧
    ∀ u history, (Evaluator.invoke {} settled [u]).value? history = some (.boolean true) := by
  have hdeterministic : Evaluator.Deterministic {} :=
    Evaluator.deterministic_of_functions fun _ => nofun
  have hdoubled := (invoke_spliceOptional rfl
    (rfl : (spliceOptional (some negated) (some doubled)).runIn { serials := 2, parameters := 2 }
      = (.ok spliced, _)) rfl (by decide) hdeterministic [.int32 5]).1
  have hsettled := (invoke_spliceOptional rfl
    (rfl : (spliceOptional (some quotient) (some settled)).runIn { serials := 6, parameters := 2 }
      = (.ok splicedSettled, _)) rfl (by decide) hdeterministic [.int32 0]).2
  exact ⟨rfl, hdoubled #[] _ rfl, rfl, rfl, hsettled (Or.inl rfl) #[] rfl #[] _ rfl⟩

end Doubling

namespace LambdaSelected

def x : Parameter := ⟨0, some "x", .boolean⟩

def y : Parameter := ⟨1, some "y", .int32⟩

def p : Parameter := ⟨2, some "p", .function [.int32] .boolean⟩

/-- `x => y => true`. -/
def selector : Lambda := ⟨[x], .lambda 1 [y] (.constant 0 (.boolean true) .boolean)⟩

def items : Expr := .call 2 (.declared "items" .static [] (.sequence .int32)) []

/-- `p => items().All(p)`. -/
def continuation : Lambda := ⟨[p], .call 3 (.sequence .all .int32) [items, .parameter p]⟩

/-- `x => items().All(y => true)`. -/
def spliced : Lambda :=
  ⟨[x], .call 5 (.sequence .all .int32)
    [.call 4 (.declared "items" .static [] (.sequence .int32)) [],
      .lambda 1 [y] (.constant 0 (.boolean true) .boolean)]⟩

/-- There are no items. -/
def evaluator : Evaluator := ⟨[("items", fun _ _ => .ok (.list []))]⟩

/-- **A selected lambda fails as a value and yet runs as a predicate.** The selector fails and the
spliced lambda has a value all the same, but the continuation has none. -/
theorem value_of_spliced_without_selector :
    (∃ session', (spliceOptional (some selector) (some continuation)).runIn
      { serials := 4, parameters := 3 } = (.ok spliced, session')) ∧
    continuation.isClosed = true ∧
    (∀ q ∈ continuation.body.binders, q ≠ p ∧ q ∉ selector.body.free) ∧
    evaluator.Deterministic ∧
    (evaluator.invoke selector [.boolean true]).value? #[] = none ∧
    (evaluator.invoke spliced [.boolean true]).value? #[] = some (.boolean true) ∧
    (evaluator.invoke continuation [.int32 0]).value? #[] = none := by
  refine ⟨⟨_, rfl⟩, rfl, by decide, ?_, rfl, rfl, rfl⟩
  exact Evaluator.deterministic_of_functions (by simp [evaluator])

end LambdaSelected

end Lambda

end ExprTree
