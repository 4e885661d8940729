/-
# What lifting comes to

Whether a predicate can be lifted over a selector, or a value looked for among what is selected, is up
to the types alone. Where the checks that the operations make themselves let something through, the
constructors behind them do as well, so a refusal is always a mismatch and never a node that cannot be
built.
-/
import ExprTree.Proofs.Acceptance

namespace ExprTree

namespace Build

variable {quantifier : Quantifier} {selector predicate : Lambda} {value : Value}
variable {session last : Session} {error : Error}

/-! ## Refusals -/

theorem not_succeeds_of_error {α : Type} {action : Build α}
    (h : runIn action session = (.error error, last)) : ¬ Succeeds action session := by
  rintro ⟨a, last', hok⟩
  rw [hok] at h
  cases h

/-- What starts with the type of the elements is refused if there are none, with a mismatch, or it is
refused later. -/
theorem error_of_elementType_bind {α : Type} {next : Ty → Build α}
    (h : runIn (selector.elementType >>= next) session = (.error error, last)) :
    (∃ cause, error = .mismatch cause) ∨
      ∃ element, selector.resultType = .sequence element ∧
        runIn (next element) session = (.error error, last) := by
  cases helement : selector.resultType.element? with
  | none =>
      have hrefused : runIn selector.elementType session
          = (.error (.mismatch (.notSequence selector.resultType)), session) := by
        rw [Lambda.elementType, helement]
        rfl
      rw [runIn_bind, hrefused] at h
      cases h
      exact Or.inl ⟨_, rfl⟩
  | some element =>
      rw [runIn_bind, runIn_elementType_ok.mpr ⟨helement, rfl⟩] at h
      exact Or.inr ⟨element, Ty.element?_eq_some_iff.mp helement, h⟩

/-- A predicate that cannot be lifted is a mismatch. -/
theorem mismatch_of_runIn_lift (hquantifier : quantifier ≠ .contains)
    (hselector : selector.params.Nodup)
    (h : runIn (Lambda.lift quantifier selector predicate) session = (.error error, last)) :
    ∃ cause, error = .mismatch cause := by
  have hrefused := not_succeeds_of_error h
  rw [succeeds_lift_iff session hquantifier hselector] at hrefused
  obtain hmismatch | ⟨element, hresult, h⟩ := error_of_elementType_bind h
  · exact hmismatch
  · -- A predicate that passes all three checks would have been lifted.
    split at h
    next p hparams =>
      split at h
      next haccepts =>
        split at h
        next hboolean =>
          exact absurd ⟨element, p, hresult, hparams, haccepts, Ty.isBoolean_iff.mp hboolean⟩ hrefused
        next =>
          cases h
          exact ⟨_, rfl⟩
      next =>
        cases h
        exact ⟨_, rfl⟩
    next =>
      cases h
      exact ⟨_, rfl⟩

/-- A value that cannot be looked for is a mismatch. -/
theorem mismatch_of_runIn_contains (hselector : selector.params.Nodup)
    (h : runIn (selector.contains value) session = (.error error, last)) :
    ∃ cause, error = .mismatch cause := by
  have hrefused := not_succeeds_of_error h
  rw [succeeds_contains_iff session hselector] at hrefused
  obtain hmismatch | ⟨element, hresult, h⟩ := error_of_elementType_bind h
  · exact hmismatch
  · split at h
    next =>
      cases h
      exact ⟨_, rfl⟩
    next type htype =>
      split at h
      next haccepts => exact absurd ⟨element, type, hresult, htype, haccepts⟩ hrefused
      next =>
        cases h
        exact ⟨_, rfl⟩

/-! ## Outcomes -/

/-- The operation gives a predicate on what the selector takes, the quantifier called on the body of
the selector and an operand; it does so just if something holds, and otherwise is a mismatch. -/
structure LiftsJustIf (quantifier : Quantifier) (selector : Lambda) (fits : Prop)
    (action : Build Lambda) (session : Session) : Prop where
  succeeds_iff : Succeeds action session ↔ fits
  mismatch : ∀ error last, runIn action session = (.error error, last) →
    ∃ cause, error = .mismatch cause
  lifted : ∀ lifted last, runIn action session = (.ok lifted, last) →
    lifted.type = .function selector.paramTypes .boolean ∧ lifted.params = selector.params ∧
      ∃ serial element operand,
        lifted.body = .call serial (.sequence quantifier element) [selector.body, operand]

theorem liftsJustIf_lift (hquantifier : quantifier ≠ .contains) (hselector : selector.params.Nodup) :
    LiftsJustIf quantifier selector
      (∃ element p, selector.resultType = .sequence element ∧ predicate.params = [p] ∧
        p.type.accepts element = true ∧ predicate.resultType = .boolean)
      (Lambda.lift quantifier selector predicate) session where
  succeeds_iff := succeeds_lift_iff session hquantifier hselector
  mismatch _ _ h := mismatch_of_runIn_lift hquantifier hselector h
  lifted lifted last h := by
    obtain ⟨serial, serial', p, -, rfl⟩ := lifted_of_runIn h
    exact ⟨rfl, rfl, serial, p.type, _, rfl⟩

theorem liftsJustIf_contains (hselector : selector.params.Nodup) :
    LiftsJustIf .contains selector
      (∃ element type, selector.resultType = .sequence element ∧
        (∀ elements, value ≠ .list elements) ∧ value.type? = some type ∧
        element.accepts type = true)
      (selector.contains value) session where
  succeeds_iff := by
    rw [succeeds_contains_iff session hselector]
    constructor
    · rintro ⟨element, type, hresult, htype, haccepts⟩
      refine ⟨element, type, hresult, fun elements hlist => ?_, htype, haccepts⟩
      rw [hlist] at htype
      cases htype
    · rintro ⟨element, type, hresult, -, htype, haccepts⟩
      exact ⟨element, type, hresult, htype, haccepts⟩
  mismatch _ _ h := mismatch_of_runIn_contains hselector h
  lifted lifted last h := by
    obtain ⟨serial, serial', element, type, rfl⟩ := contains_of_runIn h
    exact ⟨rfl, rfl, serial, element, _, rfl⟩

end Build

namespace Workspace

/-- **The outcome of lifting.** That some or every element satisfies a predicate can be said just if the
selector returns a sequence and the predicate takes one parameter, which accepts the elements, and
gives a truth value. That a value is among the elements can be said just if it is no list and its type
is accepted as that of an element. All else is a mismatch. -/
theorem Reachable.lift_outcome {w : Workspace} (hw : w.Reachable) {selector : Lambda}
    (hselector : selector ∈ w.lambdas) (session : Session) :
    (∀ predicate : Lambda,
      let fits := ∃ element p, selector.resultType = .sequence element ∧ predicate.params = [p] ∧
        p.type.accepts element = true ∧ predicate.resultType = .boolean
      Build.LiftsJustIf .any selector fits (selector.any predicate) session ∧
        Build.LiftsJustIf .all selector fits (selector.all predicate) session) ∧
    ∀ value : Value,
      Build.LiftsJustIf .contains selector
        (∃ element type, selector.resultType = .sequence element ∧
          (∀ elements, value ≠ .list elements) ∧ value.type? = some type ∧
          element.accepts type = true)
        (selector.contains value) session := by
  have hnodup : selector.params.Nodup := (hw.sound.lambdas selector hselector).wellFormed.1
  refine ⟨fun predicate => ⟨?_, ?_⟩, fun value => Build.liftsJustIf_contains hnodup⟩
  · exact Build.liftsJustIf_lift (by decide) hnodup
  · exact Build.liftsJustIf_lift (by decide) hnodup

namespace Grids

def x : Parameter := ⟨0, some "x", .int32⟩

def row : Parameter := ⟨1, some "row", .sequence .object⟩

/-- `x => rows()`, where the rows are sequences of numbers. -/
def selector : Lambda :=
  ⟨[x], .call 0 (.declared "rows" .static [] (.sequence (.sequence .int32))) []⟩

/-- `row => true`, for sequences of anything. -/
def predicate : Lambda := ⟨[row], .constant 1 (.boolean true) .boolean⟩

def workspace : Workspace where
  session := { serials := 2, parameters := 2 }
  exprs := [predicate.body, selector.body, .parameter row, .parameter x]
  lambdas := [selector]

theorem reachable : workspace.Reachable := by
  have hx : Reachable ⟨{ parameters := 1 }, [.parameter x], []⟩ :=
    .step .start (.built (.parameter (some "x") .int32) rfl)
  have hrow : Reachable ⟨{ parameters := 2 }, [.parameter row, .parameter x], []⟩ :=
    .step hx (.built (.parameter (some "row") (.sequence .object)) rfl)
  have hrows : Reachable ⟨{ serials := 1, parameters := 2 },
      [selector.body, .parameter row, .parameter x], []⟩ :=
    .step hrow (.built (@Builds.call _ none []
      (.declared "rows" .static [] (.sequence (.sequence .int32))) (by simp)) rfl)
  have htrue : Reachable { workspace with lambdas := [] } :=
    .step hrows (.built (.constant (.boolean true)) rfl)
  exact .step htrue (.builtLambda (@BuildsLambda.lambda _ [x] selector.body
    (by simp [workspace]) (by simp [workspace])) rfl)

/-- The predicate on sequences of anything can be lifted over rows of numbers. A number is none of the
rows, and looking for it is a mismatch. -/
theorem lift_outcome_rows :
    (∃ lifted, ((selector.all predicate).runIn workspace.session).1 = .ok lifted ∧
      lifted.type = .function [.int32] .boolean ∧ lifted.params = [x]) ∧
    ∃ cause, ((selector.contains (.int32 3)).runIn workspace.session).1
      = .error (.mismatch cause) := by
  obtain ⟨hlift, hcontains⟩ :=
    reachable.lift_outcome (List.mem_singleton_self selector) workspace.session
  constructor
  · obtain ⟨-, hall⟩ := hlift predicate
    obtain ⟨lifted, last, hrun⟩ :=
      hall.succeeds_iff.mpr ⟨.sequence .int32, row, rfl, rfl, by decide, rfl⟩
    obtain ⟨htype, hparams, -⟩ := hall.lifted lifted last hrun
    exact ⟨lifted, by rw [hrun], htype, hparams⟩
  · have hrefused : ∃ error last,
        Build.runIn (selector.contains (.int32 3)) workspace.session = (.error error, last) :=
      ⟨_, _, rfl⟩
    obtain ⟨error, last, hrun⟩ := hrefused
    obtain ⟨cause, rfl⟩ := (hcontains (.int32 3)).mismatch error last hrun
    exact ⟨cause, by rw [hrun]⟩

end Grids

end Workspace

end ExprTree
