/-
# The meaning of lifted predicates

A lifted predicate runs its selector and then asks about the elements of what this selects. For `any`
and `all` the question is the predicate, run on one element after the other as if it stood alone until
one run decides the answer or fails; for a value looked for it is whether some element equals it.
-/
import ExprTree.Proofs.Combined
import ExprTree.Proofs.Lookups

namespace ExprTree

namespace EvalM

/-! ## Tests in order -/

/-- Values are tested in order, each test after the native calls of those before it, until one gives
`stop` or fails. If none does, the answer is the other truth value. -/
def scan (test : Value → History → Option Bool × History) (stop : Bool) :
    List Value → History → Option Bool × History
  | [], history => (some (!stop), history)
  | value :: values, history =>
      match test value history with
      | (some answer, middle) =>
          if answer = stop then (some stop, middle) else scan test stop values middle
      | (none, middle) => (none, middle)

theorem outcome_anyM (test : Value → EvalM Bool) (values : List Value) :
    outcome (values.anyM test) = scan (fun value => outcome (test value)) true values := by
  funext history
  induction values generalizing history with
  | nil => rfl
  | cons value values ih =>
      rw [List.anyM_cons, outcome_bind, scan]
      rcases outcome (test value) history with ⟨_ | answer, middle⟩
      · rfl
      · cases answer with
        | true => rfl
        | false => exact ih middle

theorem outcome_allM (test : Value → EvalM Bool) (values : List Value) :
    outcome (values.allM test) = scan (fun value => outcome (test value)) false values := by
  funext history
  induction values generalizing history with
  | nil => rfl
  | cons value values ih =>
      rw [List.allM_cons, outcome_bind, scan]
      rcases outcome (test value) history with ⟨_ | answer, middle⟩
      · rfl
      · cases answer with
        | true => exact ih middle
        | false => rfl

/-! ## Questions about elements -/

/-- The outcome of asking a question about the elements of what was selected: where nothing or no list
was selected there is no answer, and no native call is made any more. -/
def asked (question : List Value → History → Option Bool × History) :
    Option Value × History → Option Value × History
  | (some (.list elements), middle) =>
      let (answer, last) := question elements middle
      (answer.map .boolean, last)
  | (_, middle) => (none, middle)

/-- Asking a question about the elements of a value. -/
theorem outcome_elements_bind (quantifier : Quantifier) (next : List Value → EvalM Bool)
    (source : EvalM Value) (history : History) :
    outcome (do
      let elements ← EvalM.elements quantifier (← source)
      return Value.boolean (← next elements)) history
      = asked (fun elements => outcome (next elements)) (outcome source history) := by
  rw [outcome_bind]
  rcases outcome source history with ⟨_ | value, middle⟩
  · rfl
  · cases value with
    | list elements =>
        simp only [EvalM.elements, Value.elements?, asked]
        rw [pure_bind, outcome_bind]
        rcases outcome (next elements) middle with ⟨_ | answer, last⟩ <;> rfl
    | _ => rfl

end EvalM

namespace Evaluator

variable (evaluator : Evaluator)

/-- **A closed predicate means inside other frames what it means alone.** -/
theorem evaluate_of_isClosed {predicate : Lambda} (h : predicate.isClosed = true)
    (args : List Value) (outer : Frames) :
    evaluator.evaluate (⟨predicate.params, args⟩ :: outer) predicate.body
      = evaluator.evaluate [⟨predicate.params, args⟩] predicate.body := by
  have hlookup : ∀ p, Expr.OccursFree p predicate.body →
      Frames.lookup (⟨predicate.params, args⟩ :: outer) p
        = Frames.lookup [⟨predicate.params, args⟩] p :=
    fun p hp => Frames.lookup_cons_of_mem (Lambda.mem_params_of_isClosed h hp) _ _
  exact (Comparison.simulates_of_lookup (C := Comparison.identity evaluator) hlookup).value

/-- The test a closed predicate stands for inside other frames is the one it stands for alone. -/
theorem test_of_isClosed {predicate : Lambda} {p : Parameter} (hclosed : predicate.isClosed = true)
    (hparams : predicate.params = [p]) (element : Value) (outer : Frames) :
    (do
      let value ← evaluator.evaluate (⟨predicate.params, [element]⟩ :: outer) predicate.body
      EvalM.truth .predicateResult value) = evaluator.test predicate [element] := by
  rw [evaluator.evaluate_of_isClosed hclosed, test, invoke, hparams]
  rfl

section Quantifiers

variable (frames : Frames) {serial serial' : Nat} {element : Ty} {source : Expr}

theorem evaluate_any {predicate : Lambda} {p : Parameter} (hclosed : predicate.isClosed = true)
    (hparams : predicate.params = [p]) :
    evaluator.evaluate frames (.call serial (.sequence .any element)
        [source, .lambda serial' predicate.params predicate.body]) = (do
      let elements ← EvalM.elements .any (← evaluator.evaluate frames source)
      return .boolean (← elements.anyM fun element => evaluator.test predicate [element])) := by
  simp only [evaluate, evaluatePredicate, pure_bind, evaluator.test_of_isClosed hclosed hparams]

theorem evaluate_all {predicate : Lambda} {p : Parameter} (hclosed : predicate.isClosed = true)
    (hparams : predicate.params = [p]) :
    evaluator.evaluate frames (.call serial (.sequence .all element)
        [source, .lambda serial' predicate.params predicate.body]) = (do
      let elements ← EvalM.elements .all (← evaluator.evaluate frames source)
      return .boolean (← elements.allM fun element => evaluator.test predicate [element])) := by
  simp only [evaluate, evaluatePredicate, pure_bind, evaluator.test_of_isClosed hclosed hparams]

theorem evaluate_contains {value : Value} {type : Ty} :
    evaluator.evaluate frames
        (.call serial (.sequence .contains element) [source, .constant serial' value type]) = (do
      let elements ← EvalM.elements .contains (← evaluator.evaluate frames source)
      return .boolean (← pure (elements.contains value))) := by
  simp only [evaluate, pure_bind]

end Quantifiers

end Evaluator

namespace Lambda

open EvalM

/-- Below the parameters of a selector, a body that asks a question about what the selector selects
comes to what asking it comes to. -/
theorem outcome_invoke_of_evaluate_eq (evaluator : Evaluator) (selector : Lambda) {body : Expr}
    {quantifier : Quantifier} {next : List Value → EvalM Bool} {args : List Value}
    {history : History}
    (hbody : evaluator.evaluate [⟨selector.params, args⟩] body = (do
      let elements ←
        EvalM.elements quantifier (← evaluator.evaluate [⟨selector.params, args⟩] selector.body)
      return Value.boolean (← next elements))) :
    (evaluator.invoke ⟨selector.params, body⟩ args).outcome history
      = asked (fun elements => outcome (next elements))
          ((evaluator.invoke selector args).outcome history) := by
  unfold Evaluator.invoke
  split
  next => rw [hbody, outcome_elements_bind]
  next => rfl

/-- **What a lifted predicate means.** It fails where its selector fails or selects no list. On a list
`any` and `all` come to what running the predicate by itself on one element after the other comes to,
up to the first one that decides the answer or fails; a search comes to whether some element is the
value. The native calls are those of the selector and then those of the runs of the predicate. That
selector and predicate have parameters in common changes nothing. -/
theorem outcome_invoke_lifted (evaluator : Evaluator) {selector lifted : Lambda}
    {session session' : Session} :
    (∀ predicate : Lambda, predicate.isClosed = true →
      (any selector predicate).runIn session = (.ok lifted, session') → ∀ args history,
      (evaluator.invoke lifted args).outcome history
        = asked (scan (fun element => (evaluator.test predicate [element]).outcome) true)
            ((evaluator.invoke selector args).outcome history)) ∧
    (∀ predicate : Lambda, predicate.isClosed = true →
      (all selector predicate).runIn session = (.ok lifted, session') → ∀ args history,
      (evaluator.invoke lifted args).outcome history
        = asked (scan (fun element => (evaluator.test predicate [element]).outcome) false)
            ((evaluator.invoke selector args).outcome history)) ∧
    ∀ value : Value, (contains selector value).runIn session = (.ok lifted, session') →
      ∀ args history,
      (evaluator.invoke lifted args).outcome history
        = asked (fun elements middle => (some (decide (value ∈ elements)), middle))
            ((evaluator.invoke selector args).outcome history) := by
  refine ⟨fun predicate hclosed hrun args history => ?_,
    fun predicate hclosed hrun args history => ?_, fun value hrun args history => ?_⟩
  · obtain ⟨serial, serial', p, hparams, rfl⟩ := Build.lifted_of_runIn hrun
    rw [outcome_invoke_of_evaluate_eq evaluator selector
      (evaluator.evaluate_any _ hclosed hparams)]
    simp only [outcome_anyM]
  · obtain ⟨serial, serial', p, hparams, rfl⟩ := Build.lifted_of_runIn hrun
    rw [outcome_invoke_of_evaluate_eq evaluator selector
      (evaluator.evaluate_all _ hclosed hparams)]
    simp only [outcome_allM]
  · obtain ⟨serial, serial', element, type, rfl⟩ := Build.contains_of_runIn hrun
    rw [outcome_invoke_of_evaluate_eq evaluator selector (evaluator.evaluate_contains _)]
    simp only [List.contains_eq_mem]
    rfl

namespace Shared

def x : Parameter := ⟨0, some "x", .int32⟩

def three : Expr := .constant 0 (.int32 3) .int32

def pair : Method := .declared "pair" .static [.int32, .int32] (.sequence .int32)

/-- `x => pair(x, 3)`. -/
def selector : Lambda := ⟨[x], .call 1 pair [.parameter x, three]⟩

/-- `x => (x == 3)`, over the parameter of the selector. -/
def predicate : Lambda := ⟨[x], .binary 2 .eq (.parameter x) three⟩

/-- `pair` makes a list of its arguments. -/
def evaluator : Evaluator := ⟨[("pair", fun _ args => .ok (.list args))]⟩

/-- What lifting the predicate over the selector gives. -/
def lifted (quantifier : Quantifier) : Lambda :=
  ⟨[x], .call 4 (.sequence quantifier .int32)
    [selector.body, .lambda 3 predicate.params predicate.body]⟩

/-- What looking for 3 in the pair gives. -/
def hasThree : Lambda :=
  ⟨[x], .call 4 (.sequence .contains .int32) [selector.body, .constant 3 (.int32 3) .int32]⟩

/-- In the pair of 1 and 3 some element is 3, and not every one is. The predicate looks at the elements
although it is over the parameter that stands for 1 outside. -/
theorem outcome_invoke_shared :
    (evaluator.invoke (lifted .any) [.int32 1]).outcome #[]
      = (some (.boolean true), #[⟨"pair", [.int32 1, .int32 3]⟩]) ∧
    (evaluator.invoke (lifted .all) [.int32 1]).outcome #[]
      = (some (.boolean false), #[⟨"pair", [.int32 1, .int32 3]⟩]) ∧
    (evaluator.invoke hasThree [.int32 1]).outcome #[]
      = (some (.boolean true), #[⟨"pair", [.int32 1, .int32 3]⟩]) := by
  have hmeaning := fun lifted session session' =>
    @outcome_invoke_lifted evaluator selector lifted session session'
  have hany := (hmeaning (lifted .any) { serials := 3 } _).1 predicate rfl rfl [.int32 1] #[]
  have hall := (hmeaning (lifted .all) { serials := 3 } _).2.1 predicate rfl rfl [.int32 1] #[]
  have hthree := (hmeaning hasThree { serials := 3 } _).2.2 (.int32 3) rfl [.int32 1] #[]
  rw [hany, hall, hthree]
  exact ⟨rfl, rfl, rfl⟩

end Shared

end Lambda

end ExprTree
