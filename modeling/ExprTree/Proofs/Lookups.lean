/-
# Lookups

What an evaluation may come to evaluate, in which frames, and so which parameters it may look up. The
free parameters decide everything: frames that give them the same values give an expression the same
value, and where each of them is bound no lookup comes away with nothing.
-/
import ExprTree.Proofs.BuildRuns
import ExprTree.Proofs.Comparison
import ExprTree.Proofs.Outcome

namespace ExprTree

/-! ## Unbound parameters -/

/-- Whether a failure is that of a lookup that comes away with nothing. -/
def EvalFault.isUnbound : EvalFault → Bool
  | .unbound _ => true
  | _ => false

namespace EvalM

variable {α β : Type}

theorem runAfter_pure (a : α) (history : History) :
    runAfter (pure a) history = (.ok a, history) := rfl

theorem runAfter_fail (fault : EvalFault) (history : History) :
    runAfter (fail fault : EvalM α) history = (.error fault, history) := rfl

/-- From no history does the evaluation fail with one of the bad faults. -/
def Avoids (bad : EvalFault → Bool) (action : EvalM α) : Prop :=
  ∀ history fault, (action.runAfter history).1 = .error fault → bad fault = false

namespace Avoids

variable {bad : EvalFault → Bool}

theorem pure (a : α) : Avoids bad (Pure.pure a : EvalM α) :=
  fun _ _ => nofun

theorem fail {fault : EvalFault} (h : bad fault = false) :
    Avoids bad (EvalM.fail fault : EvalM α) := by
  intro history other hother
  rw [runAfter_fail, Except.error.injEq] at hother
  exact hother ▸ h

theorem bind {action : EvalM α} {next : α → EvalM β} (h : Avoids bad action)
    (hnext : ∀ a, Avoids bad (next a)) : Avoids bad (action >>= next) := by
  intro history fault hfault
  rw [runAfter_bind] at hfault
  cases hfirst : action.runAfter history with
  | mk result middle =>
      rw [hfirst] at hfault
      cases result with
      | ok a => exact hnext a middle fault hfault
      | error other =>
          refine h history fault ?_
          rw [hfirst]
          exact congrArg Except.error (Except.error.inj hfault)

theorem anyM {test : Value → EvalM Bool} (h : ∀ value, Avoids bad (test value))
    (values : List Value) : Avoids bad (values.anyM test) := by
  induction values with
  | nil => exact pure false
  | cons value values ih =>
      refine bind (h value) fun found => ?_
      cases found with
      | true => exact pure true
      | false => exact ih

theorem allM {test : Value → EvalM Bool} (h : ∀ value, Avoids bad (test value))
    (values : List Value) : Avoids bad (values.allM test) := by
  induction values with
  | nil => exact pure true
  | cons value values ih =>
      refine bind (h value) fun holds => ?_
      cases holds with
      | true => exact ih
      | false => exact pure false

end Avoids

end EvalM

namespace Frames

/-- A lookup comes away with nothing just if no frame declares the parameter. -/
theorem lookup_eq_unbound_iff {frames : Frames} {p : Parameter} :
    frames.lookup p = EvalM.fail (.unbound p) ↔ p ∉ frames.declared := by
  induction frames with
  | nil => exact iff_of_true rfl List.not_mem_nil
  | cons frame outer ih =>
      rw [declared_cons, List.mem_append, not_or]
      by_cases hp : p ∈ frame.params
      · -- The frame decides, and whatever arguments it has, the lookup does not fail that way.
        refine iff_of_false (fun h => ?_) fun h => h.1 hp
        obtain ⟨position, hposition⟩ :=
          Option.ne_none_iff_exists'.mp (mt List.idxOf?_eq_none_iff.mp (not_not_intro hp))
        rw [lookup_cons, hposition] at h
        have hrun := congrArg (fun action => (EvalM.runAfter action #[]).1) h
        cases hvalue : frame.args[position]? with
        | none => simp [argument, hvalue, EvalM.runAfter_fail] at hrun
        | some value => simp [argument, hvalue, EvalM.runAfter_fail, EvalM.runAfter_pure] at hrun
      · rw [lookup_cons_of_notMem hp, and_iff_right hp]
        exact ih

/-- A lookup of a parameter that some frame declares does not come away with nothing. -/
theorem avoids_isUnbound_lookup {frames : Frames} {p : Parameter} (h : p ∈ frames.declared) :
    (frames.lookup p).Avoids EvalFault.isUnbound := by
  induction frames with
  | nil => exact absurd h List.not_mem_nil
  | cons frame outer ih =>
      rw [lookup_cons]
      split
      next hposition =>
        rw [declared_cons, List.mem_append] at h
        exact ih (h.resolve_left (List.idxOf?_eq_none_iff.mp hposition))
      next position hposition =>
        unfold argument
        split
        · exact .pure _
        · exact .fail rfl

end Frames

/-! ## What an evaluation comes to -/

/-- What evaluating an expression in some frames may come to evaluate, and in which frames. Operands
are evaluated in the same frames; `Any` and `All` run the body of a lambda inside one more frame, with
the element as the argument. -/
inductive Visits (frames : Frames) (e : Expr) : Frames → Expr → Prop
  | start : Visits frames e frames e
  | operand {inner node child} : Visits frames e inner node → node.lambda? = none →
      child ∈ node.children → Visits frames e inner child
  | element {inner serial quantifier type source serial' params body} (x : Value) :
      Visits frames e inner
        (.call serial (.sequence quantifier type) [source, .lambda serial' params body]) →
      quantifier ≠ .contains → Visits frames e (⟨params, [x]⟩ :: inner) body

theorem Visits.trans {frames inner inner' : Frames} {e node node' : Expr}
    (h : Visits frames e inner node) (h' : Visits inner node inner' node') :
    Visits frames e inner' node' := by
  induction h' with
  | start => exact h
  | operand _ hlambda hchild ih => exact ih.operand hlambda hchild
  | element x _ hquantifier ih => exact ih.element x hquantifier

/-- **Every parameter that is looked up is declared**, if those that are free in the expression are. -/
theorem Visits.mem_declared_of_occursFree {frames inner : Frames} {e node : Expr}
    (h : Visits frames e inner node) (he : ∀ p, Expr.OccursFree p e → p ∈ frames.declared) :
    ∀ p, Expr.OccursFree p node → p ∈ inner.declared := by
  induction h with
  | start => exact he
  | @operand inner node child _ hlambda hchild ih =>
      exact fun p hp => ih p (hp.of_mem_children_of_not_lambda hlambda hchild)
  | @element inner serial quantifier type source serial' params body x _ _ ih =>
      intro p hp
      -- A parameter of the lambda is declared by the frame of the element, any other one outside it.
      rw [Frames.declared_cons, List.mem_append]
      by_cases hparam : p ∈ params
      · exact Or.inl hparam
      · have hoperand : Expr.OccursFree p (.lambda serial' params body) := .lambda hparam hp
        exact Or.inr (ih p (.call (List.mem_cons_of_mem _ List.mem_cons_self) hoperand))

/-! ## Where faults come from -/

/-- The failures that the shape of an expression and its frames decide, whatever the values are. -/
def EvalFault.isStructural : EvalFault → Bool
  | .argumentCount .. | .unbound _ | .noArgument _ | .quantifierArity .. => true
  | _ => false

theorem UnaryOp.isStructural_of_apply {op : UnaryOp} {value : Value} {fault : EvalFault}
    (h : op.apply value = .error fault) : fault.isStructural = false := by
  unfold apply at h
  split at h <;> grind [EvalFault.isStructural]

theorem BinaryOp.isStructural_of_apply {op : BinaryOp} {a b : Value} {fault : EvalFault}
    (h : op.apply a b = .error fault) : fault.isStructural = false := by
  unfold apply at h
  split at h <;> grind [EvalFault.isStructural]

namespace Evaluator

open EvalM

variable {bad : EvalFault → Bool}

/-- Nowhere in an evaluation does a lookup or the number of operands of a quantifier lead to a bad
fault. -/
structure Fine (bad : EvalFault → Bool) (frames : Frames) (e : Expr) : Prop where
  lookup : ∀ inner p, Visits frames e inner (.parameter p) → (inner.lookup p).Avoids bad
  arity : ∀ inner serial quantifier type operands,
    Visits frames e inner (.call serial (.sequence quantifier type) operands) →
    operands.length ≠ 2 → bad (.quantifierArity quantifier operands.length) = false

theorem Fine.of_visits {frames inner : Frames} {e node : Expr} (h : Fine bad frames e)
    (hvisits : Visits frames e inner node) : Fine bad inner node :=
  ⟨fun _ _ hparameter => h.lookup _ _ (hvisits.trans hparameter),
    fun _ _ _ _ _ hcall => h.arity _ _ _ _ _ (hvisits.trans hcall)⟩

theorem Fine.child {frames : Frames} {e child : Expr} (h : Fine bad frames e)
    (hlambda : e.lambda? = none) (hchild : child ∈ e.children) : Fine bad frames child :=
  h.of_visits (.operand .start hlambda hchild)

variable {evaluator : Evaluator} {frames : Frames}
  (hbad : ∀ fault : EvalFault, fault.isStructural = false → bad fault = false)

include hbad

theorem avoids_truth (place : TruthPlace) (value : Value) : (truth place value).Avoids bad := by
  unfold truth
  split
  · exact .pure _
  · exact .fail (hbad _ rfl)

theorem avoids_elements (quantifier : Quantifier) (source : Value) :
    (elements quantifier source).Avoids bad := by
  unfold elements
  split
  · exact .pure _
  · exact .fail (hbad _ rfl)

theorem avoids_member (name : String) (value : Value) : (member name value).Avoids bad := by
  unfold member
  split
  · split
    · exact .pure _
    · exact .fail (hbad _ rfl)
  · exact .fail (hbad _ rfl)

theorem avoids_callNative (name : String) (function : Native) (args : List Value) :
    (callNative name function args).Avoids bad := by
  intro history fault h
  rw [runAfter_callNative] at h
  cases hresult : function history args with
  | ok value => simp [hresult] at h
  | error failure =>
      simp only [hresult, Except.error.injEq] at h
      exact h ▸ hbad _ rfl

theorem avoids_ofExcept {α : Type} {outcome : Except EvalFault α}
    (h : ∀ fault, outcome = .error fault → fault.isStructural = false) :
    (ofExcept outcome).Avoids bad := by
  cases outcome with
  | ok a => exact .pure a
  | error fault => exact .fail (hbad fault (h fault rfl))

theorem avoids_binary {serial : Nat} {op : BinaryOp} {left right : Expr}
    (hleft : (evaluator.evaluate frames left).Avoids bad)
    (hright : (evaluator.evaluate frames right).Avoids bad) :
    (evaluator.evaluate frames (.binary serial op left right)).Avoids bad := by
  simp only [evaluate]
  split
  next =>
    refine .bind hleft fun value => .bind (avoids_truth hbad _ value) fun b => ?_
    cases b with
    | true => exact .bind hright fun value => .bind (avoids_truth hbad _ value) fun _ => .pure _
    | false => exact .pure _
  next =>
    refine .bind hleft fun value => .bind (avoids_truth hbad _ value) fun b => ?_
    cases b with
    | true => exact .pure _
    | false => exact .bind hright fun value => .bind (avoids_truth hbad _ value) fun _ => .pure _
  next =>
    refine .bind hleft fun a => .bind hright fun b => ?_
    exact avoids_ofExcept hbad fun _ => BinaryOp.isStructural_of_apply

omit hbad in
theorem avoids_evaluateAll {es : List Expr} (h : ∀ e ∈ es, (evaluator.evaluate frames e).Avoids bad) :
    (evaluator.evaluateAll frames es).Avoids bad := by
  induction es with
  | nil => exact .pure []
  | cons e es ih =>
      rw [evaluateAll]
      refine .bind (h e List.mem_cons_self) fun value => ?_
      exact .bind (ih fun e he => h e (List.mem_cons_of_mem _ he)) fun values => .pure _

/-- What is the predicate of a quantifier avoids bad faults if its body does inside a frame for any
element. -/
theorem avoids_evaluatePredicate {quantifier : Quantifier} {operand : Expr}
    {next : (Value → EvalM Bool) → EvalM Value}
    (hbody : ∀ lambda x, operand.lambda? = some lambda →
      (evaluator.evaluate (⟨lambda.params, [x]⟩ :: frames) lambda.body).Avoids bad)
    (hnext : ∀ test : Value → EvalM Bool, (∀ x, (test x).Avoids bad) → (next test).Avoids bad) :
    (evaluator.evaluatePredicate frames quantifier operand >>= next).Avoids bad := by
  cases operand with
  | lambda serial params body =>
      rw [evaluatePredicate, pure_bind]
      refine hnext _ fun x => ?_
      exact .bind (hbody ⟨params, body⟩ x rfl) fun value => avoids_truth hbad _ value
  | _ =>
      rw [evaluator.evaluatePredicate_of_not_lambda rfl]
      exact Avoids.fail (hbad (.notLambda quantifier _) rfl)

theorem avoids_call {serial : Nat} {method : Method} {operands : List Expr}
    (hfine : Fine bad frames (.call serial method operands))
    (hvalues : ∀ e ∈ operands, (evaluator.evaluate frames e).Avoids bad)
    (hbodies : ∀ quantifier type source operand lambda x, method = .sequence quantifier type →
      operands = [source, operand] → quantifier ≠ .contains → operand.lambda? = some lambda →
      (evaluator.evaluate (⟨lambda.params, [x]⟩ :: frames) lambda.body).Avoids bad) :
    (evaluator.evaluate frames (.call serial method operands)).Avoids bad := by
  cases method with
  | declared name =>
      simp only [evaluate]
      split
      next => exact .fail (hbad _ rfl)
      next => exact .bind (avoids_evaluateAll hvalues) fun args => avoids_callNative hbad name _ args
  | sequence quantifier type =>
      rcases operands with _ | ⟨source, _ | ⟨operand, _ | ⟨third, others⟩⟩⟩
      case cons.cons.nil =>
        simp only [evaluate]
        refine .bind (hvalues source (by simp)) fun value => ?_
        refine .bind (avoids_elements hbad quantifier value) fun elements => ?_
        have hbody := hbodies quantifier type source operand
        cases quantifier with
        | contains => exact .bind (hvalues operand (by simp)) fun needle => .pure _
        | any =>
            refine avoids_evaluatePredicate hbad (fun lambda x => ?_) fun test htest => ?_
            · exact hbody lambda x rfl rfl (by decide)
            · exact .bind (.anyM htest elements) fun found => .pure _
        | all =>
            refine avoids_evaluatePredicate hbad (fun lambda x => ?_) fun test htest => ?_
            · exact hbody lambda x rfl rfl (by decide)
            · exact .bind (.allM htest elements) fun holds => .pure _
      -- With any other number of operands there is nothing to evaluate.
      all_goals
        simp only [evaluate]
        exact .fail (hfine.arity _ _ _ _ _ .start (by simp))

/-- **An evaluation fails with a bad fault only if something it comes to does.** -/
theorem avoids_of_fine {e : Expr} (hfine : Fine bad frames e) :
    (evaluator.evaluate frames e).Avoids bad := by
  -- A lambda has no value of its own, it is its body that `Any` and `All` run.
  suffices h : (∀ frames, Fine bad frames e → (evaluator.evaluate frames e).Avoids bad) ∧
      ∀ lambda, e.lambda? = some lambda → ∀ frames, Fine bad frames lambda.body →
        (evaluator.evaluate frames lambda.body).Avoids bad from h.1 frames hfine
  clear hfine
  induction e with
  | constant _ value _ => exact ⟨fun _ _ => .pure value, fun _ h => by cases h⟩
  | parameter p => exact ⟨fun _ hfine => hfine.lookup _ p .start, fun _ h => by cases h⟩
  | member _ target name _ ih =>
      refine ⟨fun frames hfine => ?_, fun _ h => by cases h⟩
      have htarget := ih.1 frames (hfine.child rfl List.mem_cons_self)
      rw [evaluate]
      exact .bind htarget fun value => avoids_member hbad name value
  | call serial method operands ih =>
      refine ⟨fun frames hfine => ?_, fun _ h => by cases h⟩
      refine avoids_call hbad hfine (fun e he => (ih e he).1 frames (hfine.child rfl he)) ?_
      rintro quantifier type source operand lambda x rfl rfl hquantifier hlambda
      refine (ih operand (by simp)).2 lambda hlambda _ (hfine.of_visits ?_)
      cases operand with
      | lambda =>
          obtain rfl := Option.some.inj hlambda
          exact .element x .start hquantifier
      | _ => cases hlambda
  | unary _ op operand ih =>
      refine ⟨fun frames hfine => ?_, fun _ h => by cases h⟩
      have hoperand := ih.1 frames (hfine.child rfl List.mem_cons_self)
      rw [evaluate]
      exact .bind hoperand fun value =>
        avoids_ofExcept hbad fun _ => UnaryOp.isStructural_of_apply
  | binary _ op left right ihl ihr =>
      refine ⟨fun frames hfine => ?_, fun _ h => by cases h⟩
      exact avoids_binary hbad (ihl.1 frames (hfine.child rfl List.mem_cons_self))
        (ihr.1 frames (hfine.child rfl (List.mem_cons_of_mem _ List.mem_cons_self)))
  | lambda _ params body ih =>
      refine ⟨fun _ _ => .fail (hbad _ rfl), fun lambda hlambda frames hbody => ?_⟩
      obtain rfl := Option.some.inj hlambda
      exact ih.1 frames hbody

end Evaluator

/-! ## Free parameters and lookups -/

/-- Evaluations compare well only if they are the same. -/
def Comparison.identity (evaluator : Evaluator) : Comparison evaluator where
  rel := Eq
  pure _ := rfl
  fail _ := rfl
  bind hab hfg := by rw [hab, funext hfg]
  trans := Eq.trans
  native _ _ := rfl

/-- Frames that declare the free parameters of an expression lead to no failure for want of a value. -/
theorem Evaluator.avoids_isUnbound {evaluator : Evaluator} {frames : Frames} {e : Expr}
    (h : ∀ p, Expr.OccursFree p e → p ∈ frames.declared) :
    (evaluator.evaluate frames e).Avoids EvalFault.isUnbound := by
  refine avoids_of_fine (fun fault hfault => ?_) ⟨fun inner p hvisits => ?_, fun _ _ _ _ _ _ _ => rfl⟩
  · cases fault with
    | unbound => cases hfault
    | _ => rfl
  · exact Frames.avoids_isUnbound_lookup (hvisits.mem_declared_of_occursFree h p .parameter)

/-- **Scopes and evaluation agree.** Frames in which the free parameters of an expression stand for the
same give it the same value or the same failure, after the same native calls. In frames where each of
them is bound no lookup that evaluation comes to finds nothing, and evaluation never fails that way.
So a lambda that passes the check for closed ones never fails on an unbound parameter. -/
theorem Evaluator.evaluate_of_scope (evaluator : Evaluator) :
    (∀ (e : Expr) (frames frames' : Frames),
      (∀ p ∈ e.free, frames.lookup p = frames'.lookup p) →
      evaluator.evaluate frames e = evaluator.evaluate frames' e) ∧
    (∀ (e : Expr) (frames : Frames),
      (∀ p ∈ e.free, frames.lookup p ≠ EvalM.fail (.unbound p)) →
      (∀ inner p, Visits frames e inner (.parameter p) →
        inner.lookup p ≠ EvalM.fail (.unbound p)) ∧
      ∀ history p, ((evaluator.evaluate frames e).runAfter history).1 ≠ .error (.unbound p)) ∧
    ∀ (lambda : Lambda) (session : Session),
      lambda.requireClosed.runIn session = (.ok (), session) →
      ∀ args : List Value, args.length = lambda.params.length →
      ∀ history p, ((evaluator.invoke lambda args).runAfter history).1 ≠ .error (.unbound p) := by
  have hunbound : ∀ {action : EvalM Value}, action.Avoids EvalFault.isUnbound →
      ∀ history p, (action.runAfter history).1 ≠ .error (.unbound p) :=
    fun h history p hfault => Bool.noConfusion (h history _ hfault)
  refine ⟨fun e frames frames' h => ?_, fun e frames h => ?_, fun lambda session h args hargs => ?_⟩
  · exact (Comparison.simulates_of_lookup (C := Comparison.identity evaluator)
      fun p hp => h p (Expr.mem_free.mpr hp)).value
  · have hdeclared : ∀ p, Expr.OccursFree p e → p ∈ frames.declared := fun p hp =>
      not_not.mp (mt Frames.lookup_eq_unbound_iff.mpr (h p (Expr.mem_free.mpr hp)))
    refine ⟨fun inner p hvisits => ?_, hunbound (avoids_isUnbound hdeclared)⟩
    exact mt Frames.lookup_eq_unbound_iff.mp
      (not_not_intro (hvisits.mem_declared_of_occursFree hdeclared p .parameter))
  · obtain ⟨hclosed, -⟩ := Build.runIn_requireClosed_ok.mp h
    rw [invoke, if_pos hargs]
    refine hunbound (avoids_isUnbound fun p hp => ?_)
    simpa using Lambda.mem_params_of_isClosed hclosed hp

namespace Evaluator.Shadowing

def x : Parameter := ⟨0, some "x", .int32⟩

def y : Parameter := ⟨1, some "y", .int32⟩

/-- `items().Any(x => (x == y))`. -/
def anyEqual : Expr :=
  .call 3 (.sequence .any .int32)
    [.call 0 (.declared "items" .static [] (.sequence .int32)) [],
      .lambda 2 [x] (.binary 1 .eq (.parameter x) (.parameter y))]

/-- `items` gives the numbers 1 and 2. -/
def evaluator : Evaluator := ⟨[("items", fun _ _ => .ok (.list [.int32 1, .int32 2]))]⟩

/-- What `x` stands for outside the nested lambda does not matter, and `y` is found from inside it. -/
theorem evaluate_anyEqual :
    evaluator.evaluate [⟨[x, y], [.int32 7, .int32 2]⟩] anyEqual
      = evaluator.evaluate [⟨[y], [.int32 2]⟩] anyEqual ∧
    (∀ inner p, Visits [⟨[y], [.int32 2]⟩] anyEqual inner (.parameter p) →
      inner.lookup p ≠ EvalM.fail (.unbound p)) ∧
    ∀ history p, ((evaluator.invoke ⟨[y], anyEqual⟩ [.int32 2]).runAfter history).1
      ≠ .error (.unbound p) := by
  have hfree : anyEqual.free = [y] := rfl
  have hscope := evaluator.evaluate_of_scope
  refine ⟨hscope.1 _ _ _ fun p hp => ?_, (hscope.2.1 _ _ fun p hp => ?_).1,
    hscope.2.2 ⟨[y], anyEqual⟩ {} rfl _ rfl⟩
  · obtain rfl := List.mem_singleton.mp (hfree ▸ hp)
    rfl
  · obtain rfl := List.mem_singleton.mp (hfree ▸ hp)
    exact mt Frames.lookup_eq_unbound_iff.mp (by simp)

end Evaluator.Shadowing

end ExprTree
