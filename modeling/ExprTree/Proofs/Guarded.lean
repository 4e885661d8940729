/-
# Evaluation under guard

An evaluation that watches its own steps and stops at the first one out of order: a frame with
another number of arguments than parameters, a parameter found at a position where the frame has no
argument, a quantifier with other than two operands, a predicate that does not take one element. On
what was built nothing is ever out of order, so the guarded evaluation is the evaluation itself. The
same is said of the plain evaluation: whatever it comes to evaluate is in order there.
-/
import ExprTree.Proofs.Assignability
import ExprTree.Proofs.Lookups
import ExprTree.Proofs.Reachable

namespace ExprTree

/-! ## Guarded evaluation -/

/-- A step of an evaluation that is out of order. -/
inductive Breach where
  /-- A frame that has not as many arguments as parameters. -/
  | frame (frame : Frame)
  /-- A position among the parameters of a frame that is none among its arguments. -/
  | position (frame : Frame) (position : Nat)
  /-- A quantifier that has not two operands. -/
  | operands (quantifier : Quantifier) (operands : List Expr)
  /-- A predicate that has not one parameter. -/
  | predicate (params : List Parameter)

/-- Evaluations that stop at a step out of order. -/
abbrev GuardedM := ExceptT Breach EvalM

namespace GuardedM

/-- A step that needs no guard. -/
def plain {α : Type} (action : EvalM α) : GuardedM α :=
  ExceptT.lift action

/-- Stop because of a step out of order. -/
def breach {α : Type} (cause : Breach) : GuardedM α :=
  throw cause

/-- Go on only if the frame has as many arguments as parameters. -/
def enter (frame : Frame) : GuardedM Unit :=
  if frame.args.length = frame.params.length then pure () else breach (.frame frame)

end GuardedM

/-- The value of a parameter, with the position checked before the argument is read. -/
def Frames.lookupGuarded : Frames → Parameter → GuardedM Value
  | [], p => GuardedM.plain (EvalM.fail (.unbound p))
  | frame :: outer, p =>
      match frame.params.idxOf? p with
      | none => lookupGuarded outer p
      | some position =>
          match frame.args[position]? with
          | some value => pure value
          | none => GuardedM.breach (.position frame position)

namespace Evaluator

open GuardedM

mutual

/-- The value of an expression inside the given frames, under guard. -/
def evaluateGuarded (evaluator : Evaluator) (frames : Frames) : Expr → GuardedM Value
  | .constant _ value _ => pure value
  | .parameter p => frames.lookupGuarded p
  | .member _ target name _ => do
      plain (EvalM.member name (← evaluateGuarded evaluator frames target))
  | .call _ (.declared name ..) operands =>
      match evaluator.function? name with
      | none => plain (EvalM.fail (.unknownFunction name))
      | some function => do
          plain (EvalM.callNative name function (← evaluateAllGuarded evaluator frames operands))
  | .call _ (.sequence quantifier _) [source, operand] => do
      let source ← evaluateGuarded evaluator frames source
      let elements ← plain (EvalM.elements quantifier source)
      match quantifier with
      | .contains => do
          let needle ← evaluateGuarded evaluator frames operand
          return .boolean (elements.contains needle)
      | .any => do
          let predicate ← evaluatePredicateGuarded evaluator frames .any operand
          return .boolean (← elements.anyM predicate)
      | .all => do
          let predicate ← evaluatePredicateGuarded evaluator frames .all operand
          return .boolean (← elements.allM predicate)
  | .call _ (.sequence quantifier _) operands => breach (.operands quantifier operands)
  | .unary _ op operand => do
      let value ← evaluateGuarded evaluator frames operand
      plain (EvalM.ofExcept (op.apply value))
  | .binary _ op left right =>
      match op with
      | .andAlso => do
          let left ← evaluateGuarded evaluator frames left
          if ← plain (EvalM.truth (.operand .and) left) then
            let right ← evaluateGuarded evaluator frames right
            return .boolean (← plain (EvalM.truth (.operand .and) right))
          else
            return .boolean false
      | .orElse => do
          let left ← evaluateGuarded evaluator frames left
          if ← plain (EvalM.truth (.operand .or) left) then
            return .boolean true
          else
            let right ← evaluateGuarded evaluator frames right
            return .boolean (← plain (EvalM.truth (.operand .or) right))
      | op => do
          let left ← evaluateGuarded evaluator frames left
          let right ← evaluateGuarded evaluator frames right
          plain (EvalM.ofExcept (op.apply left right))
  | .lambda .. => plain (EvalM.fail .lambdaValue)

/-- The values of several expressions, one after the other, under guard. -/
def evaluateAllGuarded (evaluator : Evaluator) (frames : Frames) :
    List Expr → GuardedM (List Value)
  | [] => return []
  | e :: es => do
      let value ← evaluateGuarded evaluator frames e
      let values ← evaluateAllGuarded evaluator frames es
      return value :: values

/-- The test of elements that the operand of a quantifier stands for, under guard. -/
def evaluatePredicateGuarded (evaluator : Evaluator) (frames : Frames) (quantifier : Quantifier) :
    Expr → GuardedM (Value → GuardedM Bool)
  | .lambda _ params body =>
      if params.length = 1 then
        return fun element => do
          enter ⟨params, [element]⟩
          let value ← evaluateGuarded evaluator (⟨params, [element]⟩ :: frames) body
          plain (EvalM.truth .predicateResult value)
      else
        breach (.predicate params)
  | operand => plain (EvalM.fail (.notLambda quantifier operand))

end

/-- Run a lambda on arguments under guard. -/
def invokeGuarded (evaluator : Evaluator) (lambda : Lambda) (args : List Value) :
    GuardedM Value :=
  if args.length = lambda.params.length then do
    enter ⟨lambda.params, args⟩
    evaluator.evaluateGuarded [⟨lambda.params, args⟩] lambda.body
  else
    plain (EvalM.fail (.argumentCount lambda args.length))

end Evaluator

/-! ## Nothing is out of order -/

namespace GuardedM

variable {α β : Type}

/-- A sequence of steps that need no guard needs none. -/
theorem plain_bind (action : EvalM α) (next : α → EvalM β) :
    plain (action >>= next) = plain action >>= fun a => plain (next a) := by
  apply ExceptT.ext
  simp [plain]

theorem plain_anyM (test : Value → EvalM Bool) (values : List Value) :
    (values.anyM fun value => plain (test value)) = plain (values.anyM test) := by
  induction values with
  | nil => rfl
  | cons value values ih =>
      rw [List.anyM, List.anyM, plain_bind, ih]
      refine bind_congr fun found => ?_
      cases found <;> rfl

theorem plain_allM (test : Value → EvalM Bool) (values : List Value) :
    (values.allM fun value => plain (test value)) = plain (values.allM test) := by
  induction values with
  | nil => rfl
  | cons value values ih =>
      rw [List.allM, List.allM, plain_bind, ih]
      refine bind_congr fun holds => ?_
      cases holds <;> rfl

end GuardedM

/-- Every frame has as many arguments as parameters. -/
def Frames.Balanced (frames : Frames) : Prop :=
  ∀ frame ∈ frames, frame.args.length = frame.params.length

/-- In balanced frames the position of a parameter is one among the arguments. -/
theorem Frames.Balanced.lt_length_args {frames : Frames} (h : frames.Balanced) {frame : Frame}
    (hframe : frame ∈ frames) {p : Parameter} {position : Nat}
    (hposition : frame.params.idxOf? p = some position) : position < frame.args.length := by
  rw [h frame hframe]
  exact (List.idxOf?_eq_some_iff.mp hposition).1

/-- In balanced frames a parameter that a frame declares has an argument there. -/
theorem Frames.Balanced.exists_argument {frame : Frame} {outer : Frames}
    (h : Frames.Balanced (frame :: outer)) {p : Parameter} {position : Nat}
    (hposition : frame.params.idxOf? p = some position) :
    ∃ value, frame.args[position]? = some value :=
  ⟨_, List.getElem?_eq_getElem (h.lt_length_args List.mem_cons_self hposition)⟩

theorem Frames.Balanced.outer {frame : Frame} {outer : Frames}
    (h : Frames.Balanced (frame :: outer)) : outer.Balanced :=
  fun inner hinner => h inner (List.mem_cons_of_mem _ hinner)

/-- In balanced frames every position among the parameters is one among the arguments. -/
theorem Frames.lookupGuarded_eq {frames : Frames} (h : frames.Balanced) (p : Parameter) :
    frames.lookupGuarded p = GuardedM.plain (frames.lookup p) := by
  induction frames with
  | nil => rfl
  | cons frame outer ih =>
      rw [lookupGuarded, lookup_cons]
      cases hposition : frame.params.idxOf? p with
      | none => exact ih h.outer
      | some position =>
          obtain ⟨value, hvalue⟩ := h.exists_argument hposition
          simp only [argument, hvalue]
          rfl

/-- The function type of a lambda that can be the predicate of `Any` and `All` has one parameter. -/
theorem Expr.length_params_of_accepts {element : Ty} {serial : Nat} {params : List Parameter}
    {body : Expr}
    (h : Ty.accepts (.function [element] .boolean) (Expr.lambda serial params body).type = true) :
    params.length = 1 := by
  obtain ⟨param, result, htype, -, -⟩ := Ty.eq_of_accepts_function h
  rw [Expr.type, Ty.function.injEq] at htype
  have hlength := congrArg List.length htype.1
  rwa [List.length_map] at hlength

namespace Evaluator

open GuardedM

variable {evaluator : Evaluator} {frames : Frames}

theorem evaluateAllGuarded_eq {es : List Expr}
    (h : ∀ e ∈ es, evaluator.evaluateGuarded frames e = plain (evaluator.evaluate frames e)) :
    evaluator.evaluateAllGuarded frames es = plain (evaluator.evaluateAll frames es) := by
  induction es with
  | nil => rfl
  | cons e es ih =>
      rw [List.forall_mem_cons] at h
      rw [evaluateAllGuarded, evaluateAll, h.1, ih h.2, plain_bind]
      refine bind_congr fun value => ?_
      rw [plain_bind]
      rfl

theorem evaluatePredicateGuarded_of_not_lambda {quantifier : Quantifier} {operand : Expr}
    (h : operand.lambda? = none) :
    evaluator.evaluatePredicateGuarded frames quantifier operand
      = plain (EvalM.fail (.notLambda quantifier operand)) := by
  cases operand with
  | lambda => cases h
  | _ => rfl

/-- A predicate of one parameter is run in frames that hold one element each. -/
theorem evaluatePredicateGuarded_bind {quantifier : Quantifier} {operand : Expr}
    {next : (Value → EvalM Bool) → EvalM Value} {next' : (Value → GuardedM Bool) → GuardedM Value}
    (hbody : ∀ lambda x, operand.lambda? = some lambda → lambda.params.length = 1 ∧
      evaluator.evaluateGuarded (⟨lambda.params, [x]⟩ :: frames) lambda.body
        = plain (evaluator.evaluate (⟨lambda.params, [x]⟩ :: frames) lambda.body))
    (hnext : ∀ test, next' (fun x => plain (test x)) = plain (next test)) :
    evaluator.evaluatePredicateGuarded frames quantifier operand >>= next'
      = plain (evaluator.evaluatePredicate frames quantifier operand >>= next) := by
  cases operand with
  | lambda serial params body =>
      rw [evaluatePredicateGuarded, evaluatePredicate, pure_bind, ← hnext]
      have hlength : params.length = 1 := (hbody ⟨params, body⟩ (.boolean true) rfl).1
      rw [if_pos hlength, pure_bind]
      refine congrArg next' (funext fun x => ?_)
      have henter : enter ⟨params, [x]⟩ = pure () := if_pos hlength.symm
      rw [henter, pure_bind, (hbody ⟨params, body⟩ x rfl).2, plain_bind]
  | _ =>
      rw [evaluatePredicateGuarded_of_not_lambda rfl, evaluator.evaluatePredicate_of_not_lambda rfl]
      rfl

/-- A quantifier is applied to two operands. -/
theorem evaluateGuarded_quantifier {serial : Nat} {quantifier : Quantifier} {element : Ty}
    {operands : List Expr}
    (hfault : Build.callFault? (Method.splitOperands (.sequence quantifier element) operands).1
      (.sequence quantifier element)
      (Method.splitOperands (.sequence quantifier element) operands).2 = none)
    (hvalues : ∀ e ∈ operands,
      evaluator.evaluateGuarded frames e = plain (evaluator.evaluate frames e))
    (hbodies : ∀ e ∈ operands, ∀ lambda x, e.lambda? = some lambda → lambda.params.length = 1 →
      evaluator.evaluateGuarded (⟨lambda.params, [x]⟩ :: frames) lambda.body
        = plain (evaluator.evaluate (⟨lambda.params, [x]⟩ :: frames) lambda.body)) :
    evaluator.evaluateGuarded frames (.call serial (.sequence quantifier element) operands)
      = plain
        (evaluator.evaluate frames (.call serial (.sequence quantifier element) operands)) := by
  obtain ⟨source, operand, rfl, -, hoperand⟩ := Build.operands_of_quantifier hfault
  have hpredicate : quantifier ≠ .contains → ∀ lambda x, operand.lambda? = some lambda →
      lambda.params.length = 1 ∧
      evaluator.evaluateGuarded (⟨lambda.params, [x]⟩ :: frames) lambda.body
        = plain (evaluator.evaluate (⟨lambda.params, [x]⟩ :: frames) lambda.body) := by
    intro hquantifier lambda x hlambda
    have hlength : lambda.params.length = 1 := by
      cases operand with
      | lambda serial params body =>
          obtain rfl := Option.some.inj hlambda
          exact Expr.length_params_of_accepts (hoperand hquantifier)
      | _ => cases hlambda
    exact ⟨hlength, hbodies operand (by simp) lambda x hlambda hlength⟩
  rw [evaluateGuarded, evaluate, hvalues source (by simp), plain_bind]
  refine bind_congr fun value => ?_
  rw [plain_bind]
  refine bind_congr fun elements => ?_
  cases quantifier with
  | contains =>
      simp only []
      rw [hvalues operand (by simp), plain_bind]
      rfl
  | any =>
      refine evaluatePredicateGuarded_bind (hpredicate (by decide)) fun test => ?_
      rw [plain_anyM, plain_bind]
      rfl
  | all =>
      refine evaluatePredicateGuarded_bind (hpredicate (by decide)) fun test => ?_
      rw [plain_allM, plain_bind]
      rfl

theorem evaluateGuarded_binary {serial : Nat} {op : BinaryOp} {left right : Expr}
    (hleft : evaluator.evaluateGuarded frames left = plain (evaluator.evaluate frames left))
    (hright : evaluator.evaluateGuarded frames right = plain (evaluator.evaluate frames right)) :
    evaluator.evaluateGuarded frames (.binary serial op left right)
      = plain (evaluator.evaluate frames (.binary serial op left right)) := by
  cases op with
  | andAlso =>
      rw [evaluateGuarded, evaluate, hleft, plain_bind]
      refine bind_congr fun l => ?_
      rw [plain_bind]
      refine bind_congr fun holds => ?_
      cases holds with
      | false => rfl
      | true =>
          rw [if_pos rfl, if_pos rfl, hright, plain_bind]
          refine bind_congr fun r => ?_
          rw [plain_bind]
          rfl
  | orElse =>
      rw [evaluateGuarded, evaluate, hleft, plain_bind]
      refine bind_congr fun l => ?_
      rw [plain_bind]
      refine bind_congr fun holds => ?_
      cases holds with
      | true => rfl
      | false =>
          rw [if_neg Bool.false_ne_true, if_neg Bool.false_ne_true, hright, plain_bind]
          refine bind_congr fun r => ?_
          rw [plain_bind]
          rfl
  | _ =>
      simp only [evaluateGuarded, evaluate, hleft, hright, plain_bind]

/-- **Nothing is out of order in the evaluation of a well-formed expression.** -/
theorem evaluateGuarded_eq {e : Expr} (he : e.WellFormed) {frames : Frames}
    (hframes : frames.Balanced) :
    evaluator.evaluateGuarded frames e = plain (evaluator.evaluate frames e) := by
  -- A lambda has no value of its own, it is its body that `Any` and `All` run.
  suffices h : (∀ frames : Frames, frames.Balanced →
        evaluator.evaluateGuarded frames e = plain (evaluator.evaluate frames e)) ∧
      ∀ lambda, e.lambda? = some lambda → ∀ frames : Frames, frames.Balanced →
        evaluator.evaluateGuarded frames lambda.body
          = plain (evaluator.evaluate frames lambda.body) from h.1 frames hframes
  clear hframes
  induction e with
  | constant => exact ⟨fun _ _ => by rw [evaluateGuarded, evaluate]; rfl, fun _ h => by cases h⟩
  | parameter p =>
      refine ⟨fun frames hframes => ?_, fun _ h => by cases h⟩
      rw [evaluateGuarded, evaluate]
      exact Frames.lookupGuarded_eq hframes p
  | member serial target name type ih =>
      refine ⟨fun frames hframes => ?_, fun _ h => by cases h⟩
      have htarget := (ih (Expr.wellFormed_member.mp he).2).1 frames hframes
      rw [evaluateGuarded, evaluate, htarget, plain_bind]
  | call serial method operands ih =>
      refine ⟨fun frames hframes => ?_, fun _ h => by cases h⟩
      obtain ⟨hfault, hoperands⟩ := Expr.wellFormed_call.mp he
      have hvalues := fun e hmem => (ih e hmem (hoperands e hmem)).1 frames hframes
      cases method with
      | declared name =>
          rw [evaluateGuarded, evaluate]
          cases evaluator.function? name with
          | none => rfl
          | some function =>
              simp only []
              rw [evaluateAllGuarded_eq hvalues, plain_bind]
      | sequence quantifier element =>
          refine evaluateGuarded_quantifier hfault hvalues fun e hmem lambda x hlambda hlength => ?_
          refine (ih e hmem (hoperands e hmem)).2 lambda hlambda _ ?_
          exact List.forall_mem_cons.mpr ⟨hlength.symm, hframes⟩
  | unary serial op operand ih =>
      refine ⟨fun frames hframes => ?_, fun _ h => by cases h⟩
      have hoperand := (ih (Expr.wellFormed_unary.mp he).2).1 frames hframes
      rw [evaluateGuarded, evaluate, hoperand, plain_bind]
  | binary serial op left right ihl ihr =>
      refine ⟨fun frames hframes => ?_, fun _ h => by cases h⟩
      obtain ⟨-, hleft, hright⟩ := Expr.wellFormed_binary.mp he
      exact evaluateGuarded_binary ((ihl hleft).1 frames hframes) ((ihr hright).1 frames hframes)
  | lambda serial params body ih =>
      refine ⟨fun frames _ => ?_, fun lambda hlambda frames hframes => ?_⟩
      · rw [evaluateGuarded, evaluate]
      · obtain rfl := Option.some.inj hlambda
        exact (ih (Expr.wellFormed_lambda.mp he).2).1 frames hframes

/-- Running a well-formed lambda on any arguments is as good as running it under guard. -/
theorem invokeGuarded_eq {lambda : Lambda} (h : lambda.WellFormed) (args : List Value) :
    evaluator.invokeGuarded lambda args = plain (evaluator.invoke lambda args) := by
  unfold invokeGuarded invoke
  by_cases hargs : args.length = lambda.params.length
  · have henter : enter ⟨lambda.params, args⟩ = pure () := if_pos hargs
    rw [if_pos hargs, if_pos hargs, henter, pure_bind]
    exact evaluateGuarded_eq h.2 (List.forall_mem_singleton.mpr hargs)
  · rw [if_neg hargs, if_neg hargs]

end Evaluator

/-! ## Missing arguments and operands -/

/-- Whether a failure is that of an argument or an operand looked for where there is none. -/
def EvalFault.isMissing : EvalFault → Bool
  | .noArgument _ | .quantifierArity .. => true
  | _ => false

/-- Balanced frames never lack the argument of a parameter that they declare. -/
theorem Frames.avoids_isMissing_lookup {frames : Frames} (h : frames.Balanced) (p : Parameter) :
    (frames.lookup p).Avoids EvalFault.isMissing := by
  induction frames with
  | nil => exact .fail rfl
  | cons frame outer ih =>
      rw [lookup_cons]
      cases hposition : frame.params.idxOf? p with
      | none => exact ih h.outer
      | some position =>
          obtain ⟨value, hvalue⟩ := h.exists_argument hposition
          simp only [argument, hvalue]
          exact .pure value

/-- An expression and the frames it is evaluated in are in order: every frame has as many arguments
as parameters, and so an argument at the position of each of them; a quantifier has two operands;
and a lambda that `Any` or `All` is to run has one parameter. -/
structure Orderly (frames : Frames) (e : Expr) : Prop where
  frame : ∀ frame ∈ frames, frame.args.length = frame.params.length
  position : ∀ frame ∈ frames, ∀ p position, frame.params.idxOf? p = some position →
    position < frame.args.length
  operands : ∀ serial quantifier element operands,
    e = .call serial (.sequence quantifier element) operands → operands.length = 2
  predicate : ∀ serial quantifier element source serial' params body,
    e = .call serial (.sequence quantifier element) [source, .lambda serial' params body] →
    quantifier ≠ .contains → params.length = 1

/-- A well-formed expression is in order in balanced frames. -/
theorem Frames.Balanced.orderly {frames : Frames} (hframes : frames.Balanced) {e : Expr}
    (he : e.WellFormed) : Orderly frames e where
  frame := hframes
  position _ hframe _ _ hposition := hframes.lt_length_args hframe hposition
  operands := by
    rintro serial quantifier element operands rfl
    obtain ⟨_, _, rfl, -⟩ := Build.operands_of_quantifier (Expr.wellFormed_call.mp he).1
    rfl
  predicate := by
    rintro serial quantifier element source serial' params body rfl hquantifier
    obtain ⟨_, _, hpair, -, hoperand⟩ :=
      Build.operands_of_quantifier (Expr.wellFormed_call.mp he).1
    obtain ⟨rfl, rfl⟩ : _ ∧ _ := by simpa using hpair
    exact Expr.length_params_of_accepts (hoperand hquantifier)

/-- Everything that the evaluation of a well-formed expression in balanced frames comes to is
well-formed, and the frames there are balanced again. -/
theorem Visits.balanced {frames inner : Frames} {e node : Expr}
    (h : Visits frames e inner node) (hframes : frames.Balanced) (he : e.WellFormed) :
    inner.Balanced ∧ node.WellFormed := by
  induction h with
  | start => exact ⟨hframes, he⟩
  | operand _ _ hchild ih => exact ⟨ih.1, ih.2.of_mem_nodes (Expr.mem_nodes_of_mem_children hchild)⟩
  | element x _ hquantifier ih =>
      have hlength := (ih.1.orderly ih.2).predicate _ _ _ _ _ _ _ rfl hquantifier
      have hlambda := (Expr.wellFormed_call.mp ih.2).2 _
        (List.mem_cons_of_mem _ List.mem_cons_self)
      exact ⟨List.forall_mem_cons.mpr ⟨hlength.symm, ih.1⟩, (Expr.wellFormed_lambda.mp hlambda).2⟩

/-- Everything that the evaluation of a well-formed expression in balanced frames comes to is in
order. -/
theorem Visits.orderly {frames inner : Frames} {e node : Expr} (h : Visits frames e inner node)
    (hframes : frames.Balanced) (he : e.WellFormed) : Orderly inner node :=
  (h.balanced hframes he).1.orderly (h.balanced hframes he).2

namespace Evaluator

/-- A well-formed lambda never fails for want of an argument or an operand. -/
theorem avoids_isMissing_invoke {evaluator : Evaluator} {lambda : Lambda} (h : lambda.WellFormed)
    (args : List Value) : (evaluator.invoke lambda args).Avoids EvalFault.isMissing := by
  unfold invoke
  by_cases hargs : args.length = lambda.params.length
  · rw [if_pos hargs]
    have hframes : Frames.Balanced [⟨lambda.params, args⟩] := List.forall_mem_singleton.mpr hargs
    refine avoids_of_fine (fun fault hfault => ?_) ⟨fun inner p hvisits => ?_, ?_⟩
    · cases fault with
      | noArgument | quantifierArity => cases hfault
      | _ => rfl
    · exact Frames.avoids_isMissing_lookup (hvisits.balanced hframes h.2).1 p
    · intro inner serial quantifier type operands hvisits hne
      exact absurd ((hvisits.orderly hframes h.2).operands _ _ _ _ rfl) hne
  · rw [if_neg hargs]
    exact .fail rfl

end Evaluator

/-! ## Runs of what was built -/

namespace Workspace

/-- **Evaluation never looks for an argument where there is none.** Whatever was built, by whatever
steps, an evaluator that is given any number of arguments enters no frame that has not as many
arguments as parameters, finds every declared parameter at a position that has an argument, applies
quantifiers to two operands, and runs predicates of one parameter: checked on the way all this stops
nothing, and whatever the plain run may come to evaluate is in order in the frames there. In
particular no run fails for want of an argument or an operand. -/
theorem Reachable.invokeGuarded_eq_plain {w : Workspace} (hw : w.Reachable) {lambda : Lambda}
    (hlambda : lambda ∈ w.lambdas) (evaluator : Evaluator) (args : List Value) :
    evaluator.invokeGuarded lambda args = GuardedM.plain (evaluator.invoke lambda args) ∧
    (args.length = lambda.params.length → ∀ inner node,
      Visits [⟨lambda.params, args⟩] lambda.body inner node → Orderly inner node) ∧
    ∀ history,
      (∀ p, ((evaluator.invoke lambda args).runAfter history).1 ≠ .error (.noArgument p)) ∧
      ∀ quantifier count, ((evaluator.invoke lambda args).runAfter history).1
        ≠ .error (.quantifierArity quantifier count) := by
  have hwellFormed := (hw.sound.lambdas lambda hlambda).wellFormed
  have havoids : (evaluator.invoke lambda args).Avoids EvalFault.isMissing :=
    Evaluator.avoids_isMissing_invoke hwellFormed args
  refine ⟨Evaluator.invokeGuarded_eq hwellFormed args, fun hargs inner node hvisits => ?_,
    fun history => ⟨fun p h => ?_, ?_⟩⟩
  · exact hvisits.orderly (List.forall_mem_singleton.mpr hargs) hwellFormed.2
  · exact Bool.noConfusion (havoids history _ h)
  · exact fun quantifier count h => Bool.noConfusion (havoids history _ h)

namespace Nested

def x : Parameter := ⟨0, some "x", .sequence .int32⟩

def i : Parameter := ⟨1, some "i", .int32⟩

def j : Parameter := ⟨2, some "j", .int32⟩

/-- `(j <= i)`. -/
def below : Expr := .binary 0 .le (.parameter j) (.parameter i)

/-- `x.All(j => (j <= i))`. -/
def allBelow : Expr := .call 2 (.sequence .all .int32) [.parameter x, .lambda 1 [j] below]

/-- `x.Any(i => x.All(j => (j <= i)))`: some element is the largest one. -/
def hasLargest : Expr := .call 4 (.sequence .any .int32) [.parameter x, .lambda 3 [i] allBelow]

/-- The search for the largest element as a lambda, with all its parts. -/
def workspace : Workspace where
  session := { serials := 5, parameters := 3 }
  exprs := [hasLargest, .lambda 3 [i] allBelow, allBelow, .lambda 1 [j] below, below,
    .parameter j, .parameter i, .parameter x]
  lambdas := [⟨[x], hasLargest⟩, ⟨[i], allBelow⟩, ⟨[j], below⟩]

theorem reachable : workspace.Reachable := by
  have hparameters : Reachable ⟨{ parameters := 3 },
      [.parameter j, .parameter i, .parameter x], []⟩ :=
    .step (.step (.step .start (.built (.parameter (some "x") (.sequence .int32)) rfl))
      (.built (.parameter (some "i") .int32) rfl)) (.built (.parameter (some "j") .int32) rfl)
  have hbelow : Reachable ⟨{ serials := 1, parameters := 3 },
      [below, .parameter j, .parameter i, .parameter x], [⟨[j], below⟩]⟩ :=
    .step (.step hparameters
        (.built (@Builds.binary _ (.parameter j) (.parameter i) .le (by simp) (by simp)) rfl))
      (.builtLambda (@BuildsLambda.lambda _ [j] below (by simp) (.head _)) rfl)
  have hall : Reachable ⟨{ serials := 3, parameters := 3 },
      [allBelow, .lambda 1 [j] below, below, .parameter j, .parameter i, .parameter x],
      [⟨[i], allBelow⟩, ⟨[j], below⟩]⟩ :=
    .step (.step (.step hbelow (.built (@Builds.toExpr _ ⟨[j], below⟩ (by simp)) rfl))
        (.built (@Builds.call _ none [.parameter x, .lambda 1 [j] below]
          (.sequence .all .int32) (by simp)) rfl))
      (.builtLambda (@BuildsLambda.lambda _ [i] allBelow (by simp) (.head _)) rfl)
  exact .step (.step (.step hall (.built (@Builds.toExpr _ ⟨[i], allBelow⟩ (by simp)) rfl))
      (.built (@Builds.call _ none [.parameter x, .lambda 3 [i] allBelow]
        (.sequence .any .int32) (by simp)) rfl))
    (.builtLambda (@BuildsLambda.lambda _ [x] hasLargest (by simp) (.head _)) rfl)

/-- Predicates within predicates are run in frames that are in order, so also the inner one for 7
while the outer one is asked about 3. -/
theorem invokeGuarded_hasLargest :
    Evaluator.invokeGuarded {} ⟨[x], hasLargest⟩ [.list [.int32 3, .int32 7]]
      = GuardedM.plain (Evaluator.invoke {} ⟨[x], hasLargest⟩ [.list [.int32 3, .int32 7]]) ∧
    Orderly [⟨[j], [.int32 7]⟩, ⟨[i], [.int32 3]⟩, ⟨[x], [.list [.int32 3, .int32 7]]⟩] below := by
  obtain ⟨hguarded, horderly, -⟩ := @Reachable.invokeGuarded_eq_plain _ reachable
    ⟨[x], hasLargest⟩ (by simp [workspace]) {} [.list [.int32 3, .int32 7]]
  have houter : Visits [⟨[x], [.list [.int32 3, .int32 7]]⟩] hasLargest
      [⟨[i], [.int32 3]⟩, ⟨[x], [.list [.int32 3, .int32 7]]⟩] allBelow :=
    .element (.int32 3) .start nofun
  exact ⟨hguarded, horderly rfl _ below (.element (.int32 7) houter nofun)⟩

/-- A predicate of two parameters, which cannot be built, is stopped before it is run. -/
example : ((Evaluator.invokeGuarded {} ⟨[x], .call 4 (.sequence .any .int32)
    [.parameter x, .lambda 3 [i, j] below]⟩ [.list [.int32 3]]).run.runAfter #[]).1
      = .ok (.error (.predicate [i, j])) := rfl

end Nested

end Workspace

end ExprTree
