/-
# What a join of two predicates comes to

Joining two lambdas has three outcomes. Parameters of other types on the two sides are a mismatch, and
nothing is made. Otherwise there is one new parameter for each position, and both bodies are brought
onto these, whatever stands in them; then the connective refuses bodies that are not truth values, and
takes all others.
-/
import ExprTree.Proofs.Rebinding

namespace ExprTree

namespace Connective

/-- A connective takes truth values only. -/
theorem isSome_outputType?_toOperator (connective : Connective) {left right : Ty} :
    (connective.toOperator.outputType? left right).isSome = true ↔
      left = .boolean ∧ right = .boolean := by
  unfold BinaryOp.outputType?
  cases connective <;> simp [toOperator, BinaryOp.takes]

end Connective

namespace Build

variable {session : Session} {left right : Lambda}

/-- Where an operator does not take operands of their types, there can be no binary node. -/
theorem runIn_binary_refused {op : BinaryOp} {left right : Expr}
    (h : ¬ (op.outputType? left.type right.type).isSome = true) :
    runIn (binary op left right) session
      = (.error (.invalidNode (.binaryOperands op left.type right.type)), session) := by
  rw [Option.not_isSome_iff_eq_none] at h
  rw [binary, h]
  rfl

/-- Lambdas over parameters of different types are not joined, and nothing is made. -/
theorem runIn_join_of_ne (connective : Connective) (h : left.paramTypes ≠ right.paramTypes) :
    runIn (left.join connective right) session
      = (.error (.mismatch (.joinedParams left.type right.type)), session) := by
  rw [Lambda.join, if_neg h]
  rfl

/-- For lambdas over parameters of the same types there is one new parameter for each position. All
that can be wrong is that a body is not a truth value. -/
theorem runIn_join_of_eq (connective : Connective) (hleft : left.Valid session)
    (hright : right.Valid session) (htypes : left.paramTypes = right.paramTypes) :
    ∃ outcome last, runIn (left.join connective right) session = (outcome, last) ∧
      last.parameters = session.parameters + left.params.length ∧
      ((left.resultType = .boolean ∧ right.resultType = .boolean ∧ ∃ joined, outcome = .ok joined) ∨
        (¬ (left.resultType = .boolean ∧ right.resultType = .boolean) ∧
          outcome = .error (.invalidNode
            (.binaryOperands connective.toOperator left.resultType right.resultType)))) := by
  have hnodup := Parameter.nodup_freshened session.parameters left.params
  obtain ⟨leftBody, rightBody, middle, hunify, hparameters, hleftType, hrightType⟩ :=
    exists_runIn_unifyParams_freshened session hleft hright htypes
      { session with parameters := session.parameters + left.params.length }
  unfold Lambda.join
  rw [if_pos htypes, runIn_bind, runIn_mapM_freshParameter]
  dsimp only
  rw [runIn_bind, hunify]
  dsimp only
  by_cases hboolean : left.resultType = .boolean ∧ right.resultType = .boolean
  · obtain ⟨hl, hr⟩ := hboolean
    have hoperator : (connective.toOperator.outputType? leftBody.type rightBody.type).isSome :=
      connective.isSome_outputType?_toOperator.mpr ⟨hleftType.trans hl, hrightType.trans hr⟩
    rw [runIn_bind, runIn_binary_ok.mpr ⟨hoperator, rfl, rfl⟩]
    dsimp only
    rw [runIn_bind, runIn_lambda_ok.mpr ⟨hnodup, rfl, rfl⟩]
    exact ⟨_, _, rfl, hparameters, Or.inl ⟨hl, hr, _, rfl⟩⟩
  · have hoperator : ¬ (connective.toOperator.outputType? leftBody.type rightBody.type).isSome := by
      rw [connective.isSome_outputType?_toOperator, hleftType, hrightType]
      exact hboolean
    rw [runIn_bind, runIn_binary_refused hoperator, hleftType, hrightType]
    exact ⟨_, _, rfl, hparameters, Or.inr ⟨hboolean, rfl⟩⟩

end Build

namespace Workspace

/-- **The outcome of a join.** Joining two lambdas is a mismatch just if the types of their parameters
differ, and no parameter is made then. Otherwise there is one new parameter for each position, both
bodies can always be brought onto them, and there can be no binary node just if some body is not a
truth value. In all other cases there is a joined lambda, of the type of the left one. -/
theorem Reachable.joinOptional_outcome {w : Workspace} (hw : w.Reachable) {left right : Lambda}
    (hleft : left ∈ w.lambdas) (hright : right ∈ w.lambdas) (connective : Connective)
    {outcome : Except Error (Option Lambda)} {last : Session}
    (hrun : (Lambda.joinOptional connective (some left) (some right)).runIn w.session
      = (outcome, last)) :
    ((∃ cause, outcome = .error (.mismatch cause)) ↔ left.paramTypes ≠ right.paramTypes) ∧
    ((∃ fault, outcome = .error (.invalidNode fault) ∧ fault.kind = .binary) ↔
      left.paramTypes = right.paramTypes ∧
        ¬ (left.resultType = .boolean ∧ right.resultType = .boolean)) ∧
    ((∃ joined, outcome = .ok (some joined) ∧ joined.type = left.type) ↔
      left.paramTypes = right.paramTypes ∧
        left.resultType = .boolean ∧ right.resultType = .boolean) ∧
    (last.parameters = w.session.parameters +
      if left.paramTypes = right.paramTypes then left.params.length else 0) ∧
    (left.paramTypes = right.paramTypes → ∀ fresh middle,
      (left.params.mapM fun p => Build.freshParameter p.name p.type).runIn w.session
        = (.ok fresh, middle) →
      Build.Succeeds (Lambda.unifyParams left.params right.params fresh left.body right.body)
        middle) := by
  have hvalid := hw.sound.lambdas
  rw [Lambda.joinOptional, Build.runIn_bind] at hrun
  by_cases htypes : left.paramTypes = right.paramTypes
  · have hunified : ∀ fresh middle,
        (left.params.mapM fun p => Build.freshParameter p.name p.type).runIn w.session
          = (.ok fresh, middle) →
        Build.Succeeds (Lambda.unifyParams left.params right.params fresh left.body right.body)
          middle := by
      intro fresh middle hfresh
      rw [Build.runIn_mapM_freshParameter] at hfresh
      cases hfresh
      obtain ⟨leftBody, rightBody, last, hunify, -⟩ := Build.exists_runIn_unifyParams_freshened
        w.session (hvalid left hleft) (hvalid right hright) htypes _
      exact ⟨_, _, hunify⟩
    obtain ⟨joinOutcome, joinLast, hjoin, hparameters, hcases⟩ :=
      Build.runIn_join_of_eq connective (hvalid left hleft) (hvalid right hright) htypes
    rw [hjoin] at hrun
    obtain ⟨hl, hr, joined, rfl⟩ | ⟨hboolean, rfl⟩ := hcases
    · cases hrun
      obtain ⟨hparamTypes, hresultType⟩ := Build.typed_of_join hjoin
      have htype : joined.type = left.type := by
        rw [Lambda.type, Lambda.type, hparamTypes, hresultType, hl]
      refine ⟨?_, ?_, ?_, ?_, fun _ => hunified⟩
      · simp [htypes]
      · simp [hl, hr]
      · simp [htypes, hl, hr, htype]
      · rw [if_pos htypes]
        exact hparameters
    · cases hrun
      refine ⟨?_, ?_, ?_, ?_, fun _ => hunified⟩
      · simp [htypes]
      · exact ⟨fun _ => ⟨htypes, hboolean⟩, fun _ => ⟨_, rfl, rfl⟩⟩
      · refine ⟨?_, fun h => absurd h.2 hboolean⟩
        rintro ⟨_, h, -⟩
        cases h
      · rw [if_pos htypes]
        exact hparameters
  · rw [Build.runIn_join_of_ne connective htypes] at hrun
    cases hrun
    simp [htypes]

namespace Rebound

def x : Parameter := ⟨0, some "x", .boolean⟩

/-- `x => x`. -/
def identity : Expr := .lambda 0 [x] (.parameter x)

/-- A native function that takes a predicate. -/
def decides : Method := .declared "decides" .static [.function [.boolean] .boolean] .boolean

/-- `decides(x => x)`. -/
def decided : Expr := .call 1 decides [identity]

/-- A predicate, one that declares its parameter a second time inside, a lambda that gives another
one, and a lambda without parameters. -/
def workspace : Workspace where
  session := { serials := 2, parameters := 1 }
  exprs := [decided, identity, .parameter x]
  lambdas := [⟨[], .parameter x⟩, ⟨[x], identity⟩, ⟨[x], decided⟩, ⟨[x], .parameter x⟩]

theorem reachable : workspace.Reachable := by
  have hparameter : Reachable ⟨{ parameters := 1 }, [.parameter x], []⟩ :=
    .step .start (.built (.parameter (some "x") .boolean) rfl)
  have hpositive : Reachable ⟨{ parameters := 1 }, [.parameter x], [⟨[x], .parameter x⟩]⟩ :=
    .step hparameter (.builtLambda (@BuildsLambda.lambda _ [x] (.parameter x) (by simp) (by simp)) rfl)
  have hidentity : Reachable ⟨{ serials := 1, parameters := 1 }, [identity, .parameter x],
      [⟨[x], .parameter x⟩]⟩ :=
    .step hpositive (.built (@Builds.toExpr _ ⟨[x], .parameter x⟩ (by simp)) rfl)
  have hdecided : Reachable { workspace with lambdas := [⟨[x], .parameter x⟩] } :=
    .step hidentity (.built (@Builds.call _ none [identity] decides (by simp)) rfl)
  have hrebound : Reachable { workspace with lambdas := [⟨[x], decided⟩, ⟨[x], .parameter x⟩] } :=
    .step hdecided (.builtLambda (@BuildsLambda.lambda _ [x] decided
      (by simp [workspace]) (by simp [workspace])) rfl)
  have hother : Reachable
      { workspace with lambdas := [⟨[x], identity⟩, ⟨[x], decided⟩, ⟨[x], .parameter x⟩] } :=
    .step hrebound (.builtLambda (@BuildsLambda.lambda _ [x] identity
      (by simp [workspace]) (by simp [workspace])) rfl)
  exact .step hother (.builtLambda (@BuildsLambda.lambda _ [] (.parameter x)
    (by simp) (by simp [workspace])) rfl)

/-- The run of a join of the predicate with another lambda. -/
def joinedWith (right : Lambda) : Except Error (Option Lambda) × Session :=
  (Lambda.joinOptional .and (some ⟨[x], .parameter x⟩) (some right)).runIn workspace.session

/-- The join with the predicate that declares its parameter again succeeds, that with the lambda that
gives another one fails at the connective, and that with the lambda without parameters at once. -/
theorem outcome_joinedWith :
    (∃ joined, (joinedWith ⟨[x], decided⟩).1 = .ok (some joined) ∧
      joined.type = .function [.boolean] .boolean) ∧
    (∃ fault, (joinedWith ⟨[x], identity⟩).1 = .error (.invalidNode fault) ∧ fault.kind = .binary) ∧
    (joinedWith ⟨[x], identity⟩).2.parameters = 2 ∧
    (∃ cause, (joinedWith ⟨[], .parameter x⟩).1 = .error (.mismatch cause)) ∧
    (joinedWith ⟨[], .parameter x⟩).2.parameters = 1 := by
  have houtcome := fun right hright => @reachable.joinOptional_outcome _ ⟨[x], .parameter x⟩ right
    (by simp [workspace]) hright .and _ _ rfl
  obtain ⟨-, -, hok, -⟩ := houtcome ⟨[x], decided⟩ (by simp [workspace])
  obtain ⟨-, hbinary, -, htwo, -⟩ := houtcome ⟨[x], identity⟩ (by simp [workspace])
  obtain ⟨hmismatch, -, -, hone, -⟩ := houtcome ⟨[], .parameter x⟩ (by simp [workspace])
  exact ⟨hok.mpr (by decide), hbinary.mpr (by decide), htwo, hmismatch.mpr (by decide), hone⟩

end Rebound

end Workspace

end ExprTree
