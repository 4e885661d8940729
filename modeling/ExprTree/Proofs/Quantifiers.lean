/-
# Laws of quantifiers

Two laws that hold with all that evaluations do: where they fail, how far they get and which native
calls they make on the way. Not to find an element is to find the opposite for every element, and to
look for a value is to look for an element that equals it.
-/
import ExprTree.Proofs.Acceptance
import ExprTree.Proofs.LiftMeaning

namespace ExprTree

namespace Quantifier

/-- The truth value of a test that decides the answer. -/
def decisive : Quantifier → Bool
  | .all => false
  | .any | .contains => true

/-- The quantifier over the opposite predicate that has the opposite answer. -/
def dual : Quantifier → Quantifier
  | .any => .all
  | .all => .any
  | .contains => .contains

theorem dual_ne_contains {quantifier : Quantifier} (h : quantifier ≠ .contains) :
    quantifier.dual ≠ .contains := by
  cases quantifier with
  | any | all => exact nofun
  | contains => exact absurd rfl h

theorem decisive_dual {quantifier : Quantifier} (h : quantifier ≠ .contains) :
    quantifier.dual.decisive = !quantifier.decisive := by
  cases quantifier with
  | any | all => rfl
  | contains => exact absurd rfl h

end Quantifier

/-! ## Opposite answers -/

namespace EvalM

/-- The opposite answer after the same native calls; where there is none, there is none. -/
def opposite : Option Bool × History → Option Bool × History
  | (answer, history) => (answer.map not, history)

/-- **Opposite tests in order** give the opposite answer, if they look for the opposite truth value:
they stop at the same value, and they fail at the same one. -/
theorem scan_opposite (test : Value → History → Option Bool × History) (stop : Bool)
    (values : List Value) (history : History) :
    scan (fun value middle => opposite (test value middle)) (!stop) values history
      = opposite (scan test stop values history) := by
  induction values generalizing history with
  | nil => rfl
  | cons value values ih =>
      rw [scan, scan]
      rcases test value history with ⟨_ | answer, middle⟩
      · rfl
      · show (if (!answer) = !stop then _ else _) = opposite (if answer = stop then _ else _)
        by_cases hstop : answer = stop
        · rw [if_pos hstop, if_pos (congrArg not hstop)]
          rfl
        · have hnot : (!answer) ≠ !stop := fun h => hstop (Bool.not_inj h)
          rw [if_neg hstop, if_neg hnot]
          exact ih middle

end EvalM

namespace Evaluator

open EvalM

variable (evaluator : Evaluator) (frames : Frames)

/-- Run a predicate on a value inside frames; it has to return a truth value. -/
def testIn (params : List Parameter) (body : Expr) (element : Value) : EvalM Bool := do
  EvalM.truth .predicateResult (← evaluator.evaluate (⟨params, [element]⟩ :: frames) body)

variable {evaluator frames} {serial serial' : Nat} {source body e : Expr} {params : List Parameter}

/-- **What a quantifier comes to**: it asks about the elements of its source, in order, up to the
first one that decides the answer or fails. -/
theorem outcome_quantifier {quantifier : Quantifier} (hquantifier : quantifier ≠ .contains)
    {element : Ty} (history : History) :
    (evaluator.evaluate frames (.call serial (.sequence quantifier element)
        [source, .lambda serial' params body])).outcome history
      = asked (scan (fun value => (evaluator.testIn frames params body value).outcome)
          quantifier.decisive) ((evaluator.evaluate frames source).outcome history) := by
  cases quantifier with
  | any =>
      have hany : evaluator.evaluate frames (.call serial (.sequence .any element)
          [source, .lambda serial' params body]) = (do
            let elements ← EvalM.elements .any (← evaluator.evaluate frames source)
            return .boolean (← elements.anyM (evaluator.testIn frames params body))) := by
        simp only [evaluate, evaluatePredicate, pure_bind]
        rfl
      rw [hany, outcome_elements_bind]
      simp only [outcome_anyM]
      rfl
  | all =>
      have hall : evaluator.evaluate frames (.call serial (.sequence .all element)
          [source, .lambda serial' params body]) = (do
            let elements ← EvalM.elements .all (← evaluator.evaluate frames source)
            return .boolean (← elements.allM (evaluator.testIn frames params body))) := by
        simp only [evaluate, evaluatePredicate, pure_bind]
        rfl
      rw [hall, outcome_elements_bind]
      simp only [outcome_allM]
      rfl
  | contains => exact absurd rfl hquantifier

/-- The negation of a body tests the opposite. -/
theorem outcome_testIn_not (element : Value) (history : History) :
    (evaluator.testIn frames params (.unary serial .not body) element).outcome history
      = opposite ((evaluator.testIn frames params body element).outcome history) := by
  simp only [testIn, evaluate, bind_assoc]
  rw [outcome_bind, outcome_bind]
  rcases outcome (evaluator.evaluate (⟨params, [element]⟩ :: frames) body) history
    with ⟨_ | value, middle⟩
  · rfl
  · cases value <;> rfl

/-- The negation of what asks a question asks the opposite one. -/
theorem outcome_not {question : List Value → History → Option Bool × History}
    {selected : Option Value × History} {history : History}
    (h : (evaluator.evaluate frames e).outcome history = asked question selected) :
    (evaluator.evaluate frames (.unary serial .not e)).outcome history
      = asked (fun elements middle => opposite (question elements middle)) selected := by
  rw [evaluate, outcome_bind, h]
  rcases selected with ⟨_ | value, middle⟩
  · rfl
  · cases value with
    | list elements =>
        simp only [asked]
        rcases question elements middle with ⟨_ | answer, last⟩ <;> rfl
    | _ => rfl

/-- **The negation of a quantifier comes to its dual over the negated body.** -/
theorem agrees_dual {quantifier : Quantifier} (hquantifier : quantifier ≠ .contains)
    {element element' : Ty} {first second third fourth fifth : Nat} :
    (evaluator.evaluate frames (.unary first .not (.call second (.sequence quantifier element)
        [source, .lambda third params body]))).Agrees
      (evaluator.evaluate frames (.call fourth (.sequence quantifier.dual element')
        [source, .lambda fifth params (.unary serial .not body)])) := by
  intro history
  rw [outcome_not (outcome_quantifier hquantifier history),
    outcome_quantifier (Quantifier.dual_ne_contains hquantifier)]
  refine congrArg (asked · _) ?_
  funext elements middle
  have htests : (fun value =>
        (evaluator.testIn frames params (.unary serial .not body) value).outcome)
      = fun value middle => opposite ((evaluator.testIn frames params body value).outcome middle) :=
    funext fun value => funext fun middle => outcome_testIn_not value middle
  rw [htests, Quantifier.decisive_dual hquantifier, scan_opposite]

end Evaluator

/-! ## Duality -/

namespace Build

/-- A call of a quantifier on a source and the lambda `x => body`. -/
def quantified (quantifier : Quantifier) (element : Ty) (source : Expr) (x : Parameter)
    (body : Expr) : Build Expr := do
  let predicate ← Build.lambda [x] body
  let operand ← predicate.toExpr
  Build.call none (.sequence quantifier element) [source, operand]

/-- The source is a sequence that fits, the parameter takes its elements and the body is a truth
value. -/
def Quantifiable (element : Ty) (source : Expr) (x : Parameter) (body : Expr) : Prop :=
  Ty.accepts (.sequence element) source.type = true ∧ x.type.accepts element = true ∧
    body.type = .boolean

variable {quantifier : Quantifier} {element : Ty} {source body e : Expr} {x : Parameter}
  {session session' : Session}

/-- `Any` and `All` can be called just if source and lambda fit. -/
theorem runIn_quantified_ok (hquantifier : quantifier ≠ .contains) :
    runIn (quantified quantifier element source x body) session = (.ok e, session') ↔
      Quantifiable element source x body ∧
      e = .call (session.serials + 1) (.sequence quantifier element)
        [source, .lambda session.serials [x] body] ∧
      session' = { session with serials := session.serials + 2 } := by
  simp only [quantified, runIn_bind_ok, runIn_lambda_ok, runIn_toExpr_ok, runIn_call_ok]
  constructor
  · rintro ⟨_, _, ⟨-, rfl, rfl⟩, _, _, ⟨rfl, rfl⟩, hfault, rfl, rfl⟩
    exact ⟨(callFault?_predicate_eq_none_iff hquantifier).mp hfault, rfl, rfl⟩
  · rintro ⟨hfit, rfl, rfl⟩
    refine ⟨_, _, ⟨List.nodup_singleton x, rfl, rfl⟩, _, _, ⟨rfl, rfl⟩, ?_, rfl, rfl⟩
    exact (callFault?_predicate_eq_none_iff hquantifier).mpr hfit

/-- A truth value can be negated, nothing else can. -/
theorem isSome_outputType?_not {type : Ty} :
    (UnaryOp.not.outputType? type).isSome = true ↔ type = .boolean := by
  unfold UnaryOp.outputType? UnaryOp.resultType
  split <;> simp_all

/-- A quantifier can be negated just if it can be called. -/
theorem runIn_not_quantified_ok (hquantifier : quantifier ≠ .contains) :
    runIn (do unary .not (← quantified quantifier element source x body)) session
        = (.ok e, session') ↔
      Quantifiable element source x body ∧
      e = .unary (session.serials + 2) .not (.call (session.serials + 1)
        (.sequence quantifier element) [source, .lambda session.serials [x] body]) ∧
      session' = { session with serials := session.serials + 3 } := by
  simp only [runIn_bind_ok, runIn_quantified_ok hquantifier, runIn_unary_ok,
    isSome_outputType?_not]
  constructor
  · rintro ⟨_, _, ⟨hfit, rfl, rfl⟩, -, rfl, rfl⟩
    exact ⟨hfit, rfl, rfl⟩
  · rintro ⟨hfit, rfl, rfl⟩
    exact ⟨_, _, ⟨hfit, rfl, rfl⟩, rfl, rfl, rfl⟩

/-- A quantifier can be called on a negated predicate just if it can be on the predicate. -/
theorem runIn_quantified_not_ok (hquantifier : quantifier ≠ .contains) :
    runIn (do quantified quantifier element source x (← unary .not body)) session
        = (.ok e, session') ↔
      Quantifiable element source x body ∧
      e = .call (session.serials + 2) (.sequence quantifier element)
        [source, .lambda (session.serials + 1) [x] (.unary session.serials .not body)] ∧
      session' = { session with serials := session.serials + 3 } := by
  simp only [runIn_bind_ok, runIn_quantified_ok hquantifier, runIn_unary_ok,
    isSome_outputType?_not]
  constructor
  · rintro ⟨_, _, ⟨hboolean, rfl, rfl⟩, ⟨hsource, hparam, -⟩, rfl, rfl⟩
    exact ⟨⟨hsource, hparam, hboolean⟩, rfl, rfl⟩
  · rintro ⟨⟨hsource, hparam, hboolean⟩, rfl, rfl⟩
    exact ⟨_, _, ⟨hboolean, rfl, rfl⟩, ⟨hsource, hparam, rfl⟩, rfl, rfl⟩

/-- **Quantifier duality.** The negation of `Any` can be built just if `All` over the negated
predicate can, and that of `All` just if `Any` over the negated predicate can. Then both come to the
same in all frames, from every history: the same truth value, or both fail, after the same native
calls in the same order. This holds where the source fails or is no list, and where the predicate
fails or gives no truth value on some element. -/
theorem quantified_dual (hquantifier : quantifier ≠ .contains) (source body : Expr)
    (x : Parameter) :
    (∀ element session session',
      Succeeds (do unary .not (← quantified quantifier element source x body)) session ↔
        Succeeds (do quantified quantifier.dual element source x (← unary .not body)) session') ∧
    ∀ element element' session session' left right,
      (runIn (do unary .not (← quantified quantifier element source x body)) session).1 = .ok left →
      (runIn (do quantified quantifier.dual element' source x (← unary .not body)) session').1
        = .ok right →
      ∀ (evaluator : Evaluator) (frames : Frames),
        (evaluator.evaluate frames left).Agrees (evaluator.evaluate frames right) := by
  have hdual := Quantifier.dual_ne_contains hquantifier
  constructor
  · intro element session session'
    constructor
    · rintro ⟨left, last, hleft⟩
      obtain ⟨hfit, -, -⟩ := (runIn_not_quantified_ok hquantifier).mp hleft
      exact ⟨_, _, (runIn_quantified_not_ok hdual).mpr ⟨hfit, rfl, rfl⟩⟩
    · rintro ⟨right, last, hright⟩
      obtain ⟨hfit, -, -⟩ := (runIn_quantified_not_ok hdual).mp hright
      exact ⟨_, _, (runIn_not_quantified_ok hquantifier).mpr ⟨hfit, rfl, rfl⟩⟩
  · intro element element' session session' left right hleft hright evaluator frames history
    obtain ⟨-, rfl, -⟩ := (runIn_not_quantified_ok hquantifier).mp (Prod.ext hleft rfl)
    obtain ⟨-, rfl, -⟩ := (runIn_quantified_not_ok hdual).mp (Prod.ext hright rfl)
    exact Evaluator.agrees_dual hquantifier history

namespace Mixed

def y : Parameter := ⟨0, some "y", .boolean⟩

/-- `items()`, declared to give truth values. -/
def items : Expr := .call 0 (.declared "items" .static [] (.sequence .boolean)) []

/-- One of the items is no truth value. -/
def evaluator : Evaluator := ⟨[("items", fun _ _ => .ok (.list [.boolean false, .int32 5]))]⟩

/-- `!items().Any(y => y)` and `items().All(y => !y)` come to the same: both look at the second item
and fail there, after one call of `items`. -/
theorem quantified_dual_items : ∃ left right,
    (runIn (do unary .not (← quantified .any .boolean items y (.parameter y)))
      { serials := 1, parameters := 1 }).1 = .ok left ∧
    (runIn (do quantified .all .boolean items y (← unary .not (.parameter y)))
      { serials := 1, parameters := 1 }).1 = .ok right ∧
    (evaluator.evaluate [] left).Agrees (evaluator.evaluate [] right) ∧
    (evaluator.evaluate [] right).outcome #[] = (none, #[⟨"items", []⟩]) := by
  refine ⟨_, _, rfl, rfl, ?_, rfl⟩
  exact (quantified_dual (nofun : Quantifier.any ≠ .contains) items (.parameter y) y).2 .boolean
    .boolean { serials := 1, parameters := 1 } { serials := 1, parameters := 1 } _ _ rfl rfl
    evaluator []

end Mixed

end Build

/-! ## Looking for a value -/

namespace Lambda

open ExprTree.Ty Build EvalM

/-- That some selected element equals a value, for which a new parameter is compared with a
constant. -/
def anyEqual (selector : Lambda) (name : Option String) (element : Ty) (value : Value) :
    Build Lambda := do
  let x ← Build.freshParameter name element
  let constant ← Build.constant value
  let equal ← Build.binary .eq (.parameter x) constant
  let predicate ← Build.lambda [x] equal
  selector.any predicate

variable {selector : Lambda} {element type : Ty} {value : Value}

/-- A predicate that compares its parameter with a constant. -/
def equalTo (x : Parameter) (serial serial' : Nat) (value : Value) (type : Ty) : Lambda :=
  ⟨[x], .binary serial .eq (.parameter x) (.constant serial' value type)⟩

theorem isClosed_equalTo (x : Parameter) (serial serial' : Nat) (value : Value) (type : Ty) :
    (equalTo x serial serial' value type).isClosed = true := by
  simp [equalTo, isClosed, free, Expr.free, Expr.collectFree]

/-- It tests whether what it is run on is the value. -/
theorem test_equalTo (evaluator : Evaluator) (x : Parameter) (serial serial' : Nat) (value : Value)
    (type : Ty) (e : Value) :
    evaluator.test (equalTo x serial serial' value type) [e] = pure (decide (e = value)) := by
  simp [Evaluator.test, equalTo, Evaluator.invoke, Evaluator.evaluate, EvalM.ofExcept,
    BinaryOp.apply, EvalM.truth, Value.bool?]

/-- **When selected elements can be compared with a value**: whenever they may be of the type of the
value. -/
theorem exists_runIn_anyEqual (hselector : selector.params.Nodup)
    (hresult : selector.resultType = .sequence element) (hvalue : value.type? = some type)
    (htype : element.accepts type = true) (name : Option String) (session : Session) :
    ∃ found session', (selector.anyEqual name element value).runIn session = (.ok found, session') ∧
      ∃ x serial serial' first second, found = ⟨selector.params,
        .call serial (.sequence .any element) [selector.body,
          .lambda serial' (equalTo x first second value type).params
            (equalTo x first second value type).body]⟩ := by
  let x : Parameter := ⟨session.parameters, name, element⟩
  let predicate := equalTo x (session.serials + 1) session.serials value type
  let middle : Session :=
    { session with serials := session.serials + 2, parameters := session.parameters + 1 }
  have heq : (BinaryOp.eq.outputType? element type).isSome = true := by
    simp [BinaryOp.outputType?, BinaryOp.takes, htype]
  have hany : Quantifier.any ≠ .contains := nofun
  obtain ⟨found, last, hrun⟩ : Succeeds (lift .any selector predicate) middle :=
    (succeeds_lift_iff middle hany hselector).mpr ⟨element, x, hresult, rfl, accepts_refl _, rfl⟩
  obtain ⟨serial, serial', p, hparams, hfound⟩ := lifted_of_runIn hrun
  obtain rfl : x = p := List.singleton_inj.mp hparams
  refine ⟨found, last, ?_, x, serial, serial', _, _, hfound⟩
  simp only [anyEqual, runIn_bind_ok]
  exact ⟨x, _, runIn_freshParameter name element, _, _,
    runIn_constant_ok.mpr ⟨type, hvalue, rfl, rfl⟩, _, _,
    runIn_binary_ok.mpr ⟨heq, rfl, rfl⟩, predicate, middle,
    runIn_lambda_ok.mpr ⟨List.nodup_singleton x, rfl, rfl⟩, hrun⟩

/-- **A search asks what `Any` over an equality asks.** -/
theorem agrees_anyEqual (evaluator : Evaluator) {element' type' : Ty} {x : Parameter}
    {first second third fourth fifth sixth : Nat} (args : List Value) :
    (evaluator.invoke ⟨selector.params, .call first (.sequence .contains element)
        [selector.body, .constant second value type']⟩ args).Agrees
      (evaluator.invoke ⟨selector.params, .call third (.sequence .any element')
        [selector.body, .lambda fourth (equalTo x fifth sixth value type).params
          (equalTo x fifth sixth value type).body]⟩ args) := by
  intro history
  rw [outcome_invoke_of_evaluate_eq evaluator selector (evaluator.evaluate_contains _),
    outcome_invoke_of_evaluate_eq evaluator selector
      (evaluator.evaluate_any _ (isClosed_equalTo x fifth sixth value type) rfl)]
  refine congrArg (asked · _) ?_
  funext elements middle
  have hcontains : elements.contains value = elements.any fun e => decide (e = value) := by
    rw [Bool.eq_iff_iff]
    simp
  simp only [test_equalTo, List.anyM_pure, hcontains]

end Lambda

namespace Workspace

open Lambda

/-- **A search is `Any` over an equality.** Let a selector select elements of a type and let a value
have a type that goes with it, either way round. Then the value can be looked for, and a new
parameter of the type of the elements can be compared with it. Both lambdas come to the same on any
arguments: the same truth value or a failure, after the same native calls. -/
theorem Reachable.contains_agrees_anyEqual {w : Workspace} (hw : w.Reachable) {selector : Lambda}
    (hselector : selector ∈ w.lambdas) {element type : Ty} {value : Value}
    (hresult : selector.resultType = .sequence element) (hvalue : value.type? = some type)
    (htype : element.accepts type = true ∨ type.accepts element = true) (name : Option String)
    (session session' : Session) :
    ∃ searched compared last last',
      (selector.contains value).runIn session = (.ok searched, last) ∧
      (selector.anyEqual name element value).runIn session' = (.ok compared, last') ∧
      ∀ (evaluator : Evaluator) (args : List Value),
        (evaluator.invoke searched args).Agrees (evaluator.invoke compared args) := by
  have hnodup := (hw.sound.lambdas selector hselector).wellFormed.1
  have haccepts : element.accepts type = true := htype.elim id (Ty.accepts_of_type? hvalue)
  obtain ⟨searched, last, hsearched⟩ :=
    (Build.succeeds_contains_iff session hnodup).mpr ⟨element, type, hresult, hvalue, haccepts⟩
  obtain ⟨compared, last', hcompared, x, _, _, _, _, hcomparedShape⟩ :=
    exists_runIn_anyEqual hnodup hresult hvalue haccepts name session'
  obtain ⟨_, _, _, _, hsearchedShape⟩ := Build.contains_of_runIn hsearched
  refine ⟨searched, compared, last, last', hsearched, hcompared, fun evaluator args => ?_⟩
  rw [hsearchedShape, hcomparedShape]
  exact agrees_anyEqual evaluator args

namespace Anything

def x : Parameter := ⟨0, some "x", .int32⟩

/-- `x => items()`, where the items may be anything. -/
def selector : Lambda := ⟨[x], .call 0 (.declared "items" .static [] (.sequence .object)) []⟩

/-- `x => numbers()`, where all items are integers. -/
def numbers : Lambda := ⟨[x], .call 1 (.declared "numbers" .static [] (.sequence .int32)) []⟩

/-- A parameter, two calls and two selectors. -/
def workspace : Workspace where
  session := { serials := 2, parameters := 1 }
  exprs := [numbers.body, selector.body, .parameter x]
  lambdas := [numbers, selector]

theorem reachable : workspace.Reachable := by
  have hx : Reachable ⟨{ parameters := 1 }, [.parameter x], []⟩ :=
    .step .start (.built (.parameter (some "x") .int32) rfl)
  have hbodies : Reachable { workspace with lambdas := [] } :=
    .step (.step hx
      (.built (@Builds.call _ none [] (.declared "items" .static [] (.sequence .object))
        (by simp)) rfl))
      (.built (@Builds.call _ none [] (.declared "numbers" .static [] (.sequence .int32))
        (by simp)) rfl)
  have hselector : Reachable { workspace with lambdas := [selector] } :=
    .step hbodies (.builtLambda (@BuildsLambda.lambda _ [x] selector.body
      (by simp [workspace]) (by simp [workspace])) rfl)
  exact .step hselector (.builtLambda (@BuildsLambda.lambda _ [x] numbers.body
    (by simp [workspace]) (by simp [workspace])) rfl)

/-- There are two items, a truth value and a number, and two numbers. -/
def evaluator : Evaluator :=
  ⟨[("items", fun _ _ => .ok (.list [.boolean true, .int32 3])),
    ("numbers", fun _ _ => .ok (.list [.int32 5, .int32 7]))]⟩

/-- Looking for 3 among the items and comparing each of them with 3 both find it, after one call of
`items`. Among the numbers, which are of the very type of 3, both find nothing. -/
theorem contains_agrees_three :
    (∃ searched compared,
      ((selector.contains (.int32 3)).runIn workspace.session).1 = .ok searched ∧
      ((selector.anyEqual (some "y") .object (.int32 3)).runIn workspace.session).1
        = .ok compared ∧
      (evaluator.invoke searched [.int32 0]).Agrees (evaluator.invoke compared [.int32 0]) ∧
      (evaluator.invoke searched [.int32 0]).outcome #[]
        = (some (.boolean true), #[⟨"items", []⟩])) ∧
    ∃ searched compared,
      ((numbers.contains (.int32 3)).runIn workspace.session).1 = .ok searched ∧
      ((numbers.anyEqual (some "y") .int32 (.int32 3)).runIn workspace.session).1 = .ok compared ∧
      (evaluator.invoke searched [.int32 0]).Agrees (evaluator.invoke compared [.int32 0]) ∧
      (evaluator.invoke searched [.int32 0]).outcome #[]
        = (some (.boolean false), #[⟨"numbers", []⟩]) := by
  have hthree : (Value.int32 3).type? = some .int32 := rfl
  constructor
  · obtain ⟨searched, compared, last, last', hsearched, hcompared, hagrees⟩ :=
      @Reachable.contains_agrees_anyEqual _ reachable selector (by simp [workspace]) _ _ _ rfl
        hthree (Or.inl rfl) (some "y") workspace.session workspace.session
    refine ⟨searched, compared, by rw [hsearched], by rw [hcompared], hagrees evaluator _, ?_⟩
    have hfound : .ok searched = ((selector.contains (.int32 3)).runIn workspace.session).1 := by
      rw [hsearched]
    cases hfound
    rfl
  · obtain ⟨searched, compared, last, last', hsearched, hcompared, hagrees⟩ :=
      @Reachable.contains_agrees_anyEqual _ reachable numbers (by simp [workspace]) _ _ _ rfl
        hthree (Or.inr rfl) (some "y") workspace.session workspace.session
    refine ⟨searched, compared, by rw [hsearched], by rw [hcompared], hagrees evaluator _, ?_⟩
    have hfound : .ok searched = ((numbers.contains (.int32 3)).runIn workspace.session).1 := by
      rw [hsearched]
    cases hfound
    rfl

end Anything

end Workspace

end ExprTree
