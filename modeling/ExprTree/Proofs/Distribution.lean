/-
# Lifting and joining

Some element satisfies one of two predicates just if some satisfies the first one or some satisfies
the second one, and so for every element and both predicates. Lifting a join and joining what was
lifted therefore give predicates that test alike, although the one selects the elements once and the
other one twice, as long as no answer depends on the native calls made before and all elements can
be tested. Where an answer does, the second selection may select something else, and the two differ.
-/
import ExprTree.Proofs.Acceptance
import ExprTree.Proofs.JoinMeaning
import ExprTree.Proofs.LiftMeaning
import ExprTree.Proofs.Scopes
import ExprTree.Proofs.SpliceMeaning

namespace ExprTree

/-! ## Values that do not depend on the past -/

namespace EvalM

variable {α β : Type}

/-- From every history the evaluation gives this value, or none. -/
def AlwaysGives (action : EvalM α) (result : Option α) : Prop :=
  ∀ history, action.value? history = result

namespace AlwaysGives

theorem pure (a : α) : AlwaysGives (Pure.pure a) (some a) :=
  fun _ => rfl

theorem fail (fault : EvalFault) : AlwaysGives (EvalM.fail fault : EvalM α) none :=
  fun _ => rfl

variable {action other : EvalM α} {next : α → EvalM β}

/-- From any history the evaluation goes to some history with the value that it always gives. -/
theorem exists_outcome {result : Option α} (h : action.AlwaysGives result) (history : History) :
    ∃ middle, action.outcome history = (result, middle) :=
  ⟨_, Prod.ext (h history) rfl⟩

/-- A sequence goes on with what its first part gives. -/
theorem bind {a : α} {result : Option β} (h : action.AlwaysGives (some a))
    (hnext : (next a).AlwaysGives result) : (action >>= next).AlwaysGives result := by
  intro history
  obtain ⟨middle, hmiddle⟩ := h.exists_outcome history
  rw [value?, outcome_bind, hmiddle]
  exact hnext middle

/-- A sequence fails with its first part. -/
theorem bind_none (h : action.AlwaysGives none) : (action >>= next).AlwaysGives none := by
  intro history
  obtain ⟨middle, hmiddle⟩ := h.exists_outcome history
  rw [value?, outcome_bind, hmiddle]

theorem of_agrees {result : Option α} (hagrees : action.Agrees other)
    (h : other.AlwaysGives result) : action.AlwaysGives result := by
  intro history
  rw [value?, hagrees history]
  exact h history

/-- Two evaluations that always give one result have the same value. -/
theorem sameValue {result : Option α} (h : action.AlwaysGives result)
    (hother : other.AlwaysGives result) : action.SameValue other := by
  constructor
  · intro history history' x hx
    rw [hother history', ← h history, hx]
  · intro history history' x hx
    rw [h history', ← hother history, hx]

end AlwaysGives

end EvalM

open EvalM

namespace Evaluator.Deterministic

variable {evaluator : Evaluator}

/-- With deterministic native functions no value depends on the past. -/
theorem exists_alwaysGives (h : evaluator.Deterministic) (frames : Frames) (e : Expr) :
    ∃ result, (evaluator.evaluate frames e).AlwaysGives result :=
  ⟨_, fun history => (Lambda.sameValue_evaluate h frames e).value?_eq history #[]⟩

theorem exists_alwaysGives_invoke (h : evaluator.Deterministic) (lambda : Lambda)
    (args : List Value) : ∃ result, (evaluator.invoke lambda args).AlwaysGives result := by
  unfold Evaluator.invoke
  split
  · exact h.exists_alwaysGives _ _
  · exact ⟨none, .fail _⟩

theorem exists_alwaysGives_test (h : evaluator.Deterministic) (lambda : Lambda)
    (args : List Value) : ∃ result, (evaluator.test lambda args).AlwaysGives result := by
  obtain ⟨result, hresult⟩ := h.exists_alwaysGives_invoke lambda args
  cases result with
  | none => exact ⟨none, hresult.bind_none⟩
  | some value =>
      cases hbool : value.bool? with
      | none => exact ⟨none, hresult.bind (by rw [truth, hbool]; exact .fail _)⟩
      | some b => exact ⟨some b, hresult.bind (by rw [truth, hbool]; exact .pure b)⟩

end Evaluator.Deterministic

/-! ## Connectives and quantifiers -/

namespace Connective

/-- The quantifier that connects the answers for all elements. -/
def quantifier : Connective → Quantifier
  | .and => .all
  | .or => .any

theorem quantifier_ne_contains (connective : Connective) : connective.quantifier ≠ .contains := by
  cases connective <;> exact nofun

/-- The two answers connected. -/
def combine : Connective → Bool → Bool → Bool
  | .and, a, b => a && b
  | .or, a, b => a || b

/-- The answers for all elements connected. -/
def answerAll (connective : Connective) (answer : Value → Bool) (elements : List Value) : Bool :=
  match connective with
  | .and => elements.all answer
  | .or => elements.any answer

/-- Test the elements in order, up to the first one that decides the answer. -/
def testEach (connective : Connective) (test : Value → EvalM Bool) (elements : List Value) :
    EvalM Bool :=
  match connective with
  | .and => elements.allM test
  | .or => elements.anyM test

variable {connective : Connective} {element : Value} {elements : List Value}

theorem answerAll_cons {answer : Value → Bool} :
    connective.answerAll answer (element :: elements)
      = connective.combine (answer element) (connective.answerAll answer elements) := by
  cases connective <;> rfl

theorem testEach_cons {test : Value → EvalM Bool} :
    connective.testEach test (element :: elements)
      = connective.connect (test element) (connective.testEach test elements) := by
  cases connective <;> exact bind_congr fun b => by cases b <;> rfl

/-- **Connecting the answers element by element connects them altogether.** -/
theorem answerAll_combine (first second : Value → Bool) (elements : List Value) :
    connective.answerAll (fun e => connective.combine (first e) (second e)) elements
      = connective.combine (connective.answerAll first elements)
          (connective.answerAll second elements) := by
  induction elements with
  | nil => cases connective <;> rfl
  | cons element elements ih =>
      rw [answerAll_cons, answerAll_cons, answerAll_cons, ih]
      cases connective with
      | and => simp only [combine, Bool.and_assoc, Bool.and_left_comm]
      | or => simp only [combine, Bool.or_assoc, Bool.or_left_comm]

/-- Connected tests give the answers connected. -/
theorem alwaysGives_connect {left right : EvalM Bool} {a b : Bool}
    (hleft : left.AlwaysGives (some a)) (hright : right.AlwaysGives (some b)) :
    (connective.connect left right).AlwaysGives (some (connective.combine a b)) := by
  cases connective with
  | and =>
      refine hleft.bind ?_
      cases a with
      | true => exact hright
      | false => exact .pure false
  | or =>
      refine hleft.bind ?_
      cases a with
      | true => exact .pure true
      | false => exact hright

theorem alwaysGives_connect_none {left right : EvalM Bool} (hleft : left.AlwaysGives none) :
    (connective.connect left right).AlwaysGives none := by
  cases connective <;> exact hleft.bind_none

/-- Tests of all elements give all answers connected. -/
theorem alwaysGives_testEach {test : Value → EvalM Bool} {answer : Value → Bool}
    (h : ∀ element ∈ elements, (test element).AlwaysGives (some (answer element))) :
    (connective.testEach test elements).AlwaysGives
      (some (connective.answerAll answer elements)) := by
  induction elements with
  | nil => cases connective <;> exact .pure _
  | cons element elements ih =>
      rw [List.forall_mem_cons] at h
      rw [testEach_cons, answerAll_cons]
      exact alwaysGives_connect h.1 (ih h.2)

/-- The answer about what was selected; nothing but a list has one. -/
def verdict (connective : Connective) (answer : Value → Bool) : Option Value → Option Bool
  | some (.list elements) => some (connective.answerAll answer elements)
  | _ => none

/-- Connected answers about what was selected are one answer for the answers connected. -/
theorem alwaysGives_connect_verdict {left right : EvalM Bool} {first second : Value → Bool}
    {result : Option Value} (hleft : left.AlwaysGives (connective.verdict first result))
    (hright : right.AlwaysGives (connective.verdict second result)) :
    (connective.connect left right).AlwaysGives
      (connective.verdict (fun e => connective.combine (first e) (second e)) result) := by
  cases result with
  | none => exact alwaysGives_connect_none hleft
  | some value =>
      cases value with
      | list elements =>
          rw [verdict, answerAll_combine]
          exact alwaysGives_connect hleft hright
      | _ => exact alwaysGives_connect_none hleft

end Connective

/-! ## Lifted predicates -/

/-- If what was selected is a list, the predicate always gives these answers on its elements. -/
def Evaluator.Answers (evaluator : Evaluator) (predicate : Lambda) (selected : Option Value)
    (answer : Value → Bool) : Prop :=
  ∀ elements, selected = some (.list elements) → ∀ element ∈ elements,
    (evaluator.test predicate [element]).AlwaysGives (some (answer element))

namespace Lambda

variable {evaluator : Evaluator} {connective : Connective} {selector predicate lifted : Lambda}
  {session session' : Session} {args : List Value}

/-- A lifted predicate asks about what the selector returns. -/
theorem outcome_invoke_lift (hclosed : predicate.isClosed = true)
    (hrun : (lift connective.quantifier selector predicate).runIn session = (.ok lifted, session'))
    (history : History) :
    (evaluator.invoke lifted args).outcome history
      = asked (fun elements =>
          (connective.testEach (fun e => evaluator.test predicate [e]) elements).outcome)
          ((evaluator.invoke selector args).outcome history) := by
  obtain ⟨serial, serial', p, hparams, rfl⟩ := Build.lifted_of_runIn hrun
  cases connective with
  | and =>
      exact outcome_invoke_of_evaluate_eq evaluator selector
        (evaluator.evaluate_all _ hclosed hparams)
  | or =>
      exact outcome_invoke_of_evaluate_eq evaluator selector
        (evaluator.evaluate_any _ hclosed hparams)

/-- **What a lifted predicate always gives**, if the selector always gives the same and the
predicate has its answers for the elements. -/
theorem alwaysGives_test_lift (hclosed : predicate.isClosed = true)
    (hrun : (lift connective.quantifier selector predicate).runIn session = (.ok lifted, session'))
    {result : Option Value} {answer : Value → Bool}
    (hselector : (evaluator.invoke selector args).AlwaysGives result)
    (hanswers : evaluator.Answers predicate result answer) :
    (evaluator.test lifted args).AlwaysGives (connective.verdict answer result) := by
  intro history
  obtain ⟨middle, hselected⟩ := hselector.exists_outcome history
  rw [Evaluator.test, value?, outcome_bind, outcome_invoke_lift hclosed hrun, hselected]
  cases result with
  | none => rfl
  | some value =>
      cases value with
      | list elements =>
          have htests : (connective.testEach (fun e => evaluator.test predicate [e])
              elements).AlwaysGives (some (connective.answerAll answer elements)) :=
            Connective.alwaysGives_testEach (hanswers elements rfl)
          obtain ⟨last, hlast⟩ := htests.exists_outcome middle
          simp only [asked, hlast]
          rfl
      | _ => rfl

/-! ## Both ways -/

variable {p q : Lambda}

/-- **Where two predicates can be lifted their join can be.** -/
theorem exists_lift_join (hselector : selector.params.Nodup) (hp : p.Valid session)
    (hq : q.Valid session) (htypes : p.paramTypes = q.paramTypes)
    (hliftp : Build.Succeeds (lift connective.quantifier selector p) session)
    (hliftq : Build.Succeeds (lift connective.quantifier selector q) session) :
    ∃ joined lifted middle last, (p.join connective q).runIn session = (.ok joined, middle) ∧
      (lift connective.quantifier selector joined).runIn middle = (.ok lifted, last) := by
  have hlift := fun predicate session => @Build.succeeds_lift_iff _ selector predicate session
    connective.quantifier_ne_contains hselector
  obtain ⟨element, x, hresult, hparams, haccepts, hpResult⟩ := (hlift p session).mp hliftp
  obtain ⟨_, _, _, _, _, hqResult⟩ := (hlift q session).mp hliftq
  obtain ⟨joined, middle, hjoin⟩ := Build.succeeds_join connective hp hq htypes hpResult hqResult
  -- The new parameter has the type of the one of the left predicate.
  obtain ⟨hjoinedTypes, hjoinedResult⟩ := Build.typed_of_join hjoin
  have hmap : joined.params.map Parameter.type = [x.type] := by
    rw [← paramTypes, hjoinedTypes, paramTypes, hparams]
    rfl
  obtain ⟨f, hf, hfType⟩ := List.map_eq_singleton_iff.mp hmap
  obtain ⟨lifted, last, hrun⟩ := (hlift joined middle).mpr
    ⟨element, f, hresult, hf, by rw [hfType]; exact haccepts, hjoinedResult⟩
  exact ⟨joined, lifted, middle, last, hjoin, hrun⟩

/-- **Where two predicates can be lifted the lifted ones can be joined.** -/
theorem exists_join_lift (hselector : selector.Valid session) (hp : p.Valid session)
    (hq : q.Valid session)
    (hliftp : Build.Succeeds (lift connective.quantifier selector p) session)
    (hliftq : Build.Succeeds (lift connective.quantifier selector q) session) :
    ∃ left right joined first second last,
      (lift connective.quantifier selector p).runIn session = (.ok left, first) ∧
      (lift connective.quantifier selector q).runIn first = (.ok right, second) ∧
      (left.join connective right).runIn second = (.ok joined, last) ∧
      left.Valid second ∧ right.Valid second := by
  have hlift := fun session => @Build.succeeds_lift_iff _ selector q session
    connective.quantifier_ne_contains hselector.wellFormed.1
  obtain ⟨left, first, hleft⟩ := hliftp
  obtain ⟨right, second, hright⟩ := (hlift first).mpr ((hlift session).mp hliftq)
  have hfirst := (Build.Grows.lift _ _ _).parameters_le hleft
  have hsecond := (Build.Grows.lift _ _ _).parameters_le hright
  have hleftValid := (Build.valid_of_lift hleft hselector hp).mono hsecond
  have hrightValid := Build.valid_of_lift hright (hselector.mono hfirst) (hq.mono hfirst)
  obtain ⟨hleftTypes, hleftResult⟩ := Build.typed_of_lift hleft
  obtain ⟨hrightTypes, hrightResult⟩ := Build.typed_of_lift hright
  obtain ⟨joined, last, hjoin⟩ := Build.succeeds_join connective hleftValid hrightValid
    (hleftTypes.trans hrightTypes.symm) hleftResult hrightResult
  exact ⟨left, right, joined, first, second, last, hleft, hright, hjoin, hleftValid, hrightValid⟩

variable {result : Option Value} {first second : Value → Bool}

/-- **What the lifted join gives**: the two answers are connected for each element, and these for
all elements. -/
theorem alwaysGives_lift_join {joined : Lambda} {middle last : Session} (hp : p.Valid session)
    (hq : q.Valid session) (hpClosed : p.isClosed = true) (hqClosed : q.isClosed = true)
    (hjoin : (p.join connective q).runIn session = (.ok joined, middle))
    (hlift : (lift connective.quantifier selector joined).runIn middle = (.ok lifted, last))
    (hresult : (evaluator.invoke selector args).AlwaysGives result)
    (hpAnswers : evaluator.Answers p result first)
    (hqAnswers : evaluator.Answers q result second) :
    (evaluator.test lifted args).AlwaysGives
      (connective.verdict (fun e => connective.combine (first e) (second e)) result) := by
  have hclosed := isClosed_joined hp hq hpClosed hqClosed hjoin
  refine alwaysGives_test_lift hclosed hlift hresult fun elements helements element hmem => ?_
  have hagrees := test_joined (Comparison.agreement evaluator) Comparison.lenient_agreement hp hq
    hjoin [element]
  exact .of_agrees hagrees (Connective.alwaysGives_connect
    (hpAnswers elements helements element hmem) (hqAnswers elements helements element hmem))

/-- **What the join of the lifted predicates gives**: the answers of each predicate are connected
for all elements, and these with each other. -/
theorem alwaysGives_join_lift {left right joined : Lambda} {before middle last : Session}
    (hleft : left.Valid middle) (hright : right.Valid middle) (hpClosed : p.isClosed = true)
    (hqClosed : q.isClosed = true)
    (hliftp : (lift connective.quantifier selector p).runIn session = (.ok left, before))
    (hliftq : (lift connective.quantifier selector q).runIn before = (.ok right, middle))
    (hjoin : (left.join connective right).runIn middle = (.ok joined, last))
    (hresult : (evaluator.invoke selector args).AlwaysGives result)
    (hpAnswers : evaluator.Answers p result first)
    (hqAnswers : evaluator.Answers q result second) :
    (evaluator.test joined args).AlwaysGives
      (connective.verdict (fun e => connective.combine (first e) (second e)) result) := by
  have hagrees := test_joined (Comparison.agreement evaluator) Comparison.lenient_agreement hleft
    hright hjoin args
  exact .of_agrees hagrees (Connective.alwaysGives_connect_verdict
    (alwaysGives_test_lift hpClosed hliftp hresult hpAnswers)
    (alwaysGives_test_lift hqClosed hliftq hresult hqAnswers))

end Lambda

namespace Evaluator

/-- Whatever was called before, the predicate gives a truth value on each element of a list that the
selector gives. -/
def TestsElements (evaluator : Evaluator) (selector predicate : Lambda) (args : List Value) :
    Prop :=
  ∀ history elements, (evaluator.invoke selector args).value? history = some (.list elements) →
    ∀ element ∈ elements, ∀ history', ∃ b,
      (evaluator.test predicate [element]).value? history' = some b

/-- The selector gives the same from every history, and on each element of the list that it gives,
if it gives one, the predicate gives the same truth value from every history. -/
def TestsSelected (evaluator : Evaluator) (selector predicate : Lambda) (args : List Value) :
    Prop :=
  ∃ result, (evaluator.invoke selector args).AlwaysGives result ∧
    ∀ elements, result = some (.list elements) → ∀ element ∈ elements,
      ∃ b, (evaluator.test predicate [element]).AlwaysGives (some b)

variable {evaluator : Evaluator} {selector predicate : Lambda} {args : List Value}

/-- With deterministic native functions it is enough that the predicate gives a truth value on what
the selector selects. -/
theorem Deterministic.testsSelected (h : evaluator.Deterministic)
    (htests : evaluator.TestsElements selector predicate args) :
    evaluator.TestsSelected selector predicate args := by
  obtain ⟨result, hresult⟩ := h.exists_alwaysGives_invoke selector args
  refine ⟨result, hresult, fun elements helements element hmem => ?_⟩
  obtain ⟨b, hb⟩ := htests #[] elements (helements ▸ hresult #[]) element hmem #[]
  obtain ⟨answer, hanswer⟩ := h.exists_alwaysGives_test predicate [element]
  obtain rfl : answer = some b := (hanswer #[]).symm.trans hb
  exact ⟨b, hanswer⟩

/-- What tests all that is selected has answers for it. -/
theorem TestsSelected.exists_answer (h : evaluator.TestsSelected selector predicate args)
    {result : Option Value} (hresult : (evaluator.invoke selector args).AlwaysGives result) :
    ∃ answer, evaluator.Answers predicate result answer := by
  obtain ⟨result', hresult', htests⟩ := h
  obtain rfl : result = result' := (hresult #[]).symm.trans (hresult' #[])
  by_cases hlist : ∃ elements, result = some (.list elements)
  · obtain ⟨elements, rfl⟩ := hlist
    choose! answer hanswer using htests elements rfl
    refine ⟨answer, ?_⟩
    rintro _ ⟨rfl⟩
    exact hanswer
  · exact ⟨fun _ => true, fun elements helements => absurd ⟨elements, helements⟩ hlist⟩

end Evaluator

namespace Workspace

open Lambda

/-- **Lifting distributes over joining.** Let two closed predicates on the same type be lifted over
a selector, by `Any` for a disjunction and by `All` for a conjunction. Then their join can be
lifted, and the lifted predicates can be joined. Take an evaluator and arguments on which the
selector returns no list, or returns one whose elements both predicates test without failing. If no
answer depends on the native calls made before, the two ways give the same truth value or both fail,
and this is so of every evaluator with deterministic native functions. -/
theorem Reachable.lift_distributes {w : Workspace} (hw : w.Reachable) {selector p q : Lambda}
    (hselector : selector ∈ w.lambdas) (hpHeld : p ∈ w.lambdas) (hqHeld : q ∈ w.lambdas)
    (hpClosed : p.isClosed = true) (hqClosed : q.isClosed = true)
    (htypes : p.paramTypes = q.paramTypes) (connective : Connective)
    (hliftp : Build.Succeeds (Lambda.lift connective.quantifier selector p) w.session)
    (hliftq : Build.Succeeds (Lambda.lift connective.quantifier selector q) w.session) :
    ∃ inside outside last last',
      Build.runIn (do Lambda.lift connective.quantifier selector (← p.join connective q)) w.session
        = (.ok inside, last) ∧
      Build.runIn (do
          let left ← Lambda.lift connective.quantifier selector p
          let right ← Lambda.lift connective.quantifier selector q
          left.join connective right) w.session = (.ok outside, last') ∧
      ∀ (evaluator : Evaluator) (args : List Value),
        (evaluator.TestsSelected selector p args → evaluator.TestsSelected selector q args →
          (evaluator.test inside args).SameValue (evaluator.test outside args)) ∧
        (evaluator.Deterministic → evaluator.TestsElements selector p args →
          evaluator.TestsElements selector q args →
          (evaluator.test inside args).SameValue (evaluator.test outside args)) := by
  have hvalid := hw.sound.lambdas
  have hp := hvalid p hpHeld
  have hq := hvalid q hqHeld
  obtain ⟨joined, inside, middle, last, hjoin, hinside⟩ :=
    exists_lift_join (hvalid selector hselector).wellFormed.1 hp hq htypes hliftp hliftq
  obtain ⟨left, right, outside, middle', middle'', last', hrunp, hrunq, houtside, hleft, hright⟩ :=
    exists_join_lift (hvalid selector hselector) hp hq hliftp hliftq
  refine ⟨inside, outside, last, last', Build.runIn_bind_ok.mpr ⟨joined, middle, hjoin, hinside⟩,
    Build.runIn_bind_ok.mpr ⟨left, middle', hrunp,
      Build.runIn_bind_ok.mpr ⟨right, middle'', hrunq, houtside⟩⟩, fun evaluator args => ?_⟩
  have hsame : evaluator.TestsSelected selector p args → evaluator.TestsSelected selector q args →
      (evaluator.test inside args).SameValue (evaluator.test outside args) := by
    intro hpTests hqTests
    have ⟨result, hresult, _⟩ := hpTests
    obtain ⟨first, hpAnswers⟩ := hpTests.exists_answer hresult
    obtain ⟨second, hqAnswers⟩ := hqTests.exists_answer hresult
    have hinner := alwaysGives_lift_join hp hq hpClosed hqClosed hjoin hinside hresult hpAnswers
      hqAnswers
    have houter := alwaysGives_join_lift hleft hright hpClosed hqClosed hrunp hrunq houtside
      hresult hpAnswers hqAnswers
    exact hinner.sameValue houter
  exact ⟨hsame, fun hdeterministic hpTests hqTests =>
    hsame (hdeterministic.testsSelected hpTests) (hdeterministic.testsSelected hqTests)⟩

namespace Either

def x : Parameter := ⟨0, some "x", .int32⟩

def y : Parameter := ⟨1, some "y", .int32⟩

def three : Expr := .constant 0 (.int32 3) .int32

def items : Method := .declared "items" .static [] (.sequence .int32)

/-- `x => items()`. -/
def selector : Lambda := ⟨[x], .call 1 items []⟩

/-- `y => (y == 3)`. -/
def equal : Lambda := ⟨[y], .binary 2 .eq (.parameter y) three⟩

/-- `y => (y < 3)`. -/
def less : Lambda := ⟨[y], .binary 3 .lt (.parameter y) three⟩

/-- A selector and two predicates with what they are made of. -/
def workspace : Workspace where
  session := { serials := 4, parameters := 2 }
  exprs := [less.body, equal.body, selector.body, three, .parameter y, .parameter x]
  lambdas := [less, equal, selector]

theorem reachable : workspace.Reachable := by
  have hleaves : Reachable ⟨{ serials := 1, parameters := 2 },
      [three, .parameter y, .parameter x], []⟩ :=
    .step (.step (.step .start (.built (.parameter (some "x") .int32) rfl))
      (.built (.parameter (some "y") .int32) rfl)) (.built (.constant (.int32 3)) rfl)
  have hcall : Reachable ⟨{ serials := 2, parameters := 2 },
      [selector.body, three, .parameter y, .parameter x], []⟩ :=
    .step hleaves (.built (@Builds.call _ none [] items (by simp)) rfl)
  have hequal : Reachable ⟨{ serials := 3, parameters := 2 },
      [equal.body, selector.body, three, .parameter y, .parameter x], []⟩ :=
    .step hcall (.built (@Builds.binary _ (.parameter y) three .eq (by simp) (by simp)) rfl)
  have hless : Reachable { workspace with lambdas := [] } :=
    .step hequal (.built (@Builds.binary _ (.parameter y) three .lt (by simp) (by simp)) rfl)
  have hselector : Reachable { workspace with lambdas := [selector] } :=
    .step hless (.builtLambda (@BuildsLambda.lambda _ [x] selector.body (by simp [workspace])
      (by simp [workspace])) rfl)
  have hpredicate : Reachable { workspace with lambdas := [equal, selector] } :=
    .step hselector (.builtLambda (@BuildsLambda.lambda _ [y] equal.body (by simp [workspace])
      (by simp [workspace])) rfl)
  exact .step hpredicate (.builtLambda (@BuildsLambda.lambda _ [y] less.body (by simp [workspace])
    (by simp [workspace])) rfl)

/-- Whatever was called before, both predicates give a truth value on each item, if all items are
integers. -/
theorem testsElements {evaluator : Evaluator}
    (h : ∀ history elements,
      (evaluator.invoke selector [.int32 0]).value? history = some (.list elements) →
      ∀ element ∈ elements, ∃ n, element = .int32 n) :
    evaluator.TestsElements selector equal [.int32 0] ∧
    evaluator.TestsElements selector less [.int32 0] := by
  constructor
  all_goals
    intro history elements helements element hmem history'
    obtain ⟨n, rfl⟩ := h history elements helements element hmem
    exact ⟨_, rfl⟩

/-- There are two items, 3 and 5. -/
def evaluator : Evaluator := ⟨[("items", fun _ _ => .ok (.list [.int32 3, .int32 5]))]⟩

theorem deterministic : evaluator.Deterministic :=
  Evaluator.deterministic_of_functions (by simp [evaluator])

theorem testsElements_evaluator :
    evaluator.TestsElements selector equal [.int32 0] ∧
    evaluator.TestsElements selector less [.int32 0] := by
  refine testsElements fun history elements helements element hmem => ?_
  have hitems : some (.list [.int32 3, .int32 5]) = some (Value.list elements) := helements
  cases hitems
  rcases List.mem_pair.mp hmem with rfl | rfl
  · exact ⟨3, rfl⟩
  · exact ⟨5, rfl⟩

/-- There are the items 3 and 5 each time, and it can be asked how many calls there were. -/
def counting : Evaluator :=
  ⟨("calls", fun earlier _ => .ok (.int32 (Int32.ofNat earlier.size))) :: evaluator.functions⟩

/-- A predicate that always gives the same truth values on 3 and on 5 can test all items. -/
theorem testsSelected_counting {predicate : Lambda} {b b' : Bool}
    (h : (counting.test predicate [.int32 3]).AlwaysGives (some b))
    (h' : (counting.test predicate [.int32 5]).AlwaysGives (some b')) :
    counting.TestsSelected selector predicate [.int32 0] := by
  refine ⟨some (.list [.int32 3, .int32 5]), fun _ => rfl, ?_⟩
  rintro _ ⟨rfl⟩ element hmem
  rcases List.mem_pair.mp hmem with rfl | rfl
  · exact ⟨b, h⟩
  · exact ⟨b', h'⟩

/-- That some item is 3 or less than 3, and that some item is 3 or some item is less than 3, test
alike, and they hold. They test alike too where some native function goes by the calls made before
and the items do not. -/
theorem lift_distributes_items : ∃ inside outside last last',
    Build.runIn (do Lambda.lift .any selector (← equal.join .or less)) workspace.session
      = (.ok inside, last) ∧
    Build.runIn (do
        let left ← Lambda.lift .any selector equal
        let right ← Lambda.lift .any selector less
        left.join .or right) workspace.session = (.ok outside, last') ∧
    (evaluator.test inside [.int32 0]).SameValue (evaluator.test outside [.int32 0]) ∧
    (evaluator.test inside [.int32 0]).value? #[] = some true ∧
    (counting.test inside [.int32 0]).SameValue (counting.test outside [.int32 0]) := by
  obtain ⟨inside, outside, last, last', hinside, houtside, hsame⟩ :=
    @Reachable.lift_distributes _ reachable selector equal less (by simp [workspace])
      (by simp [workspace]) (by simp [workspace]) rfl rfl rfl .or ⟨_, _, rfl⟩ ⟨_, _, rfl⟩
  refine ⟨inside, outside, last, last', hinside, houtside,
    (hsame evaluator _).2 deterministic testsElements_evaluator.1 testsElements_evaluator.2, ?_,
    (hsame counting _).1 (testsSelected_counting (fun _ => rfl) fun _ => rfl)
      (testsSelected_counting (fun _ => rfl) fun _ => rfl)⟩
  cases hinside
  rfl

/-- There is one item, 2, and who asks for the items again is told that there is none. -/
def forgetful : Evaluator :=
  ⟨[("items", fun earlier _ => .ok (.list (if earlier.isEmpty then [.int32 2] else [])))]⟩

theorem testsElements_forgetful :
    forgetful.TestsElements selector equal [.int32 0] ∧
    forgetful.TestsElements selector less [.int32 0] := by
  refine testsElements fun history elements helements element hmem => ?_
  have hitems : some (.list (if history.isEmpty then [.int32 2] else []))
      = some (Value.list elements) := helements
  split at hitems
  all_goals cases hitems
  · exact ⟨2, List.mem_singleton.mp hmem⟩
  · exact absurd hmem List.not_mem_nil

/-- `x => items().Any(y => ((y == 3) || (y < 3)))`, with a new `y`. -/
def inside : Lambda :=
  ⟨[x], .call 8 (.sequence .any .int32) [selector.body,
    .lambda 7 [⟨2, some "y", .int32⟩] (.binary 6 .orElse
      (.binary 4 .eq (.parameter ⟨2, some "y", .int32⟩) three)
      (.binary 5 .lt (.parameter ⟨2, some "y", .int32⟩) three))]⟩

/-- `x => (items().Any(y => (y == 3)) || items().Any(y => (y < 3)))`, with a new `x`. -/
def outside : Lambda :=
  ⟨[⟨2, some "x", .int32⟩], .binary 16 .orElse
    (.call 11 (.sequence .any .int32) [.call 8 items [],
      .lambda 10 [y] (.binary 9 .eq (.parameter y) three)])
    (.call 15 (.sequence .any .int32) [.call 12 items [],
      .lambda 14 [y] (.binary 13 .lt (.parameter y) three)])⟩

/-- **Selecting twice is not selecting once** where the items go by the calls made before.
Everything can be lifted and joined, and whatever was called before both predicates give a truth
value on each item. Some item is 3 or less than 3, for 2 is. With the predicates lifted one by one
the first selection has no item that is 3, and the second one, which is asked for an item less than
3, is empty. -/
theorem lift_not_distributes_forgetful :
    workspace.Reachable ∧
    selector ∈ workspace.lambdas ∧ equal ∈ workspace.lambdas ∧ less ∈ workspace.lambdas ∧
    equal.isClosed = true ∧ less.isClosed = true ∧ equal.paramTypes = less.paramTypes ∧
    Build.Succeeds (Lambda.lift .any selector equal) workspace.session ∧
    Build.Succeeds (Lambda.lift .any selector less) workspace.session ∧
    forgetful.TestsElements selector equal [.int32 0] ∧
    forgetful.TestsElements selector less [.int32 0] ∧
    (∃ last, Build.runIn (do Lambda.lift .any selector (← equal.join .or less)) workspace.session
      = (.ok inside, last)) ∧
    (∃ last, Build.runIn (do
        let left ← Lambda.lift .any selector equal
        let right ← Lambda.lift .any selector less
        left.join .or right) workspace.session = (.ok outside, last)) ∧
    (forgetful.test inside [.int32 0]).outcome #[] = (some true, #[⟨"items", []⟩]) ∧
    (forgetful.test outside [.int32 0]).outcome #[]
      = (some false, #[⟨"items", []⟩, ⟨"items", []⟩]) := by
  refine ⟨reachable, by simp [workspace], by simp [workspace], by simp [workspace], rfl, rfl, rfl,
    ⟨_, _, rfl⟩, ⟨_, _, rfl⟩, testsElements_forgetful.1, testsElements_forgetful.2, ?_⟩
  exact ⟨⟨_, rfl⟩, ⟨_, rfl⟩, rfl, rfl⟩

end Either

end Workspace

end ExprTree
