/-
# What a joined predicate means

A joined predicate tests like the short-circuiting connective of the two predicates: it makes the
native calls of the left one, then those of the right one if the left one leaves the answer open.
Nothing is asked of the two predicates but that they were built; they may share nodes in any way.
-/
import ExprTree.Proofs.Outcome
import ExprTree.Proofs.Reachable

namespace ExprTree

open EvalM Parameter

/-! ## Connectives on evaluations -/

/-- Run the left test; run the right one only if the left one leaves the answer open. -/
def Connective.connect (connective : Connective) (left right : EvalM Bool) : EvalM Bool := do
  match connective with
  | .and => if ← left then right else return false
  | .or => if ← left then return true else right

theorem Comparison.connect {evaluator : Evaluator} (C : Comparison evaluator)
    (connective : Connective) {left left' right right' : EvalM Bool} (hleft : C.rel left left')
    (hright : C.rel right right') :
    C.rel (connective.connect left right) (connective.connect left' right') := by
  cases connective with
  | and =>
      refine C.bind hleft fun b => ?_
      cases b with
      | true => exact hright
      | false => exact C.pure false
  | or =>
      refine C.bind hleft fun b => ?_
      cases b with
      | true => exact C.pure true
      | false => exact hright

namespace Evaluator

variable {evaluator : Evaluator}

/-- A test of an application of `&&` or `||` connects the tests of its operands. -/
theorem evaluate_connective (connective : Connective) (frames : Frames) (serial : Nat)
    (left right : Expr) (place : TruthPlace) :
    (evaluator.evaluate frames (.binary serial connective.toOperator left right) >>= truth place)
      = connective.connect
          (evaluator.evaluate frames left >>= truth (.operand connective))
          (evaluator.evaluate frames right >>= truth (.operand connective)) := by
  -- What a connective gives is a truth value, so testing it changes nothing.
  have hboolean : ∀ b, truth place (.boolean b) = pure b := fun _ => rfl
  cases connective with
  | and =>
      simp only [Connective.toOperator, evaluate, Connective.connect, bind_assoc]
      refine bind_congr fun value => bind_congr fun b => ?_
      cases b with
      | true => simp [hboolean]
      | false => simp [hboolean]
  | or =>
      simp only [Connective.toOperator, evaluate, Connective.connect, bind_assoc]
      refine bind_congr fun value => bind_congr fun b => ?_
      cases b with
      | true => simp [hboolean]
      | false => simp [hboolean]

end Evaluator

namespace Lambda

variable {evaluator : Evaluator}

/-- **A body over the new parameters means the body over the old ones.** -/
theorem evaluate_unified (C : Comparison evaluator) (hC : C.Lenient) {params fresh : List Parameter}
    {body body' : Expr} (hnodup : params.Nodup) (hfresh : fresh.Nodup)
    (hlength : params.length = fresh.length)
    (hnew : ∀ f ∈ fresh, f ∉ params ++ body.parameters)
    (hshape : body'.shape = body.shape.rename (unifier params fresh)) (args : List Value) :
    C.rel (evaluator.evaluate [⟨fresh, args⟩] body')
      (evaluator.evaluate [⟨params, args⟩] body) := by
  have hparams : params.map (unifier params fresh) = fresh :=
    map_unifier hnodup hlength fun f hf h => hnew f hf (List.mem_append_left _ h)
  have hinjective : ∀ p ∈ params ++ body.parameters, ∀ q ∈ params ++ body.parameters,
      unifier params fresh p = unifier params fresh q → p = q :=
    fun p hp q hq => unifier_injective hfresh hnew hp hq
  have hrenamed := Comparison.rel_of_renamed (C := C) hC hinjective hshape args
  rwa [hparams] at hrenamed

/-- The joined predicate tests like the connective of the two predicates, for any comparison. -/
theorem test_joined {session session' : Session} (C : Comparison evaluator) (hC : C.Lenient)
    {connective : Connective} {left right joined : Lambda} (hleft : left.Valid session)
    (hright : right.Valid session)
    (h : (left.join connective right).runIn session = (.ok joined, session')) (args : List Value) :
    C.rel (evaluator.test joined args)
      (connective.connect (evaluator.test left args) (evaluator.test right args)) := by
  obtain ⟨htypes, hparams, serial, leftBody, rightBody, hbody, hl, hr⟩ := Build.joined_of_runIn h
  have hlength : left.params.length = right.params.length := by
    simpa [paramTypes] using congrArg List.length htypes
  have hcount : joined.params.length = left.params.length := by rw [hparams, length_freshened]
  have hnodup : joined.params.Nodup := hparams ▸ nodup_freshened _ _
  -- The parameters made for the join have numbers that no parameter had before.
  have hnew : ∀ lambda : Lambda, lambda.Valid session →
      ∀ f ∈ joined.params, f ∉ lambda.params ++ lambda.body.parameters :=
    fun lambda hlambda f hf => hlambda.notMem_of_mem_freshened (hparams ▸ hf)
  have hleftBody := evaluate_unified C hC hleft.wellFormed.1 hnodup hcount.symm (hnew left hleft)
    hl args
  have hrightBody := evaluate_unified C hC hright.wellFormed.1 hnodup (by omega)
    (hnew right hright) hr args
  unfold Evaluator.test Evaluator.invoke
  rw [hcount, ← hlength]
  split
  next =>
    rw [hbody, Evaluator.evaluate_connective]
    refine C.connect connective ?_ ?_
    · exact C.bind hleftBody fun value => Comparison.truth_congr hC _ _ value
    · exact C.bind hrightBody fun value => Comparison.truth_congr hC _ _ value
  next =>
    -- With the wrong number of arguments the left test fails, and with it the connective.
    cases connective <;> exact hC _ _

end Lambda

namespace Workspace

/-- **A joined predicate means the short-circuiting connective of the two predicates.** Whatever two
predicates a session holds, if they can be joined then from every history the joined predicate gives
the same truth value as their connective or fails with it, after the same native calls. -/
theorem Reachable.test_joinOptional_agrees {w : Workspace} (hw : w.Reachable)
    {connective : Connective} {left right joined : Lambda} {session' : Session}
    (hleft : left ∈ w.lambdas) (hright : right ∈ w.lambdas)
    (hjoin : (Lambda.joinOptional connective (some left) (some right)).runIn w.session
      = (.ok (some joined), session'))
    (evaluator : Evaluator) (args : List Value) :
    (evaluator.test joined args).Agrees
      (connective.connect (evaluator.test left args) (evaluator.test right args)) := by
  have hlambdas := hw.sound.lambdas
  obtain ⟨joined', middle, hrun, h⟩ := Build.runIn_bind_ok.mp hjoin
  obtain ⟨rfl, -⟩ : joined' = joined ∧ middle = session' := by simpa using h
  exact Lambda.test_joined (Comparison.agreement evaluator) Comparison.lenient_agreement
    (hlambdas left hleft) (hlambdas right hright) hrun args

namespace Swapped

def x : Parameter := ⟨0, some "x", .boolean⟩

def y : Parameter := ⟨1, some "y", .boolean⟩

/-- Two parameters, and two predicates that list them in swapped positions. -/
def workspace : Workspace where
  session := { parameters := 2 }
  exprs := [.parameter y, .parameter x]
  lambdas := [⟨[y, x], .parameter x⟩, ⟨[x, y], .parameter x⟩]

theorem reachable : workspace.Reachable := by
  have hparameters : Reachable { workspace with lambdas := [] } :=
    .step (.step .start (.built (.parameter (some "x") .boolean) rfl))
      (.built (.parameter (some "y") .boolean) rfl)
  have hfirst : Reachable { workspace with lambdas := [⟨[x, y], .parameter x⟩] } :=
    .step hparameters (.builtLambda (@BuildsLambda.lambda _ [x, y] (.parameter x)
      (by simp [workspace]) (by simp [workspace])) rfl)
  exact .step hfirst (.builtLambda (@BuildsLambda.lambda _ [y, x] (.parameter x)
    (by simp [workspace]) (by simp [workspace])) rfl)

/-- `(x, y) => (x && y)`, with new parameters. -/
def joined : Lambda :=
  let x' : Parameter := ⟨2, some "x", .boolean⟩
  let y' : Parameter := ⟨3, some "y", .boolean⟩
  ⟨[x', y'], .binary 0 .andAlso (.parameter x') (.parameter y')⟩

/-- The join of the two predicates connects its first parameter with its second one. -/
theorem test_join_swapped :
    (Evaluator.test {} joined [.boolean true, .boolean false]).Agrees
      (Connective.and.connect
        (Evaluator.test {} ⟨[x, y], .parameter x⟩ [.boolean true, .boolean false])
        (Evaluator.test {} ⟨[y, x], .parameter x⟩ [.boolean true, .boolean false])) :=
  reachable.test_joinOptional_agrees (by simp [workspace]) (by simp [workspace]) rfl {} _

end Swapped

end Workspace

end ExprTree
