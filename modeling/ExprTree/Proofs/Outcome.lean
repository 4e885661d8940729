/-
# Outcomes of evaluations

What an evaluation comes to after given native calls: its value, if it does not fail, and all native
calls made by then. Evaluations agree if they come to the same from every history; if native functions
do not go by the calls made before, they can be compared by value alone.
-/
import ExprTree.Proofs.Comparison

namespace ExprTree

namespace EvalM

variable {α β : Type}

/-- A sequence goes on from the native calls made by its first part, and fails with it. -/
theorem runAfter_bind (action : EvalM α) (next : α → EvalM β) (history : History) :
    runAfter (action >>= next) history =
      match runAfter action history with
      | (.ok a, middle) => runAfter (next a) middle
      | (.error fault, middle) => (.error fault, middle) := by
  simp only [runAfter, ExceptT.run_bind, StateT.run_bind]
  rcases action.run.run history with ⟨_ | _, middle⟩ <;> rfl

/-- A native call enters the history and gives what the function gives. -/
theorem runAfter_callNative (name : String) (function : Native) (args : List Value)
    (history : History) :
    runAfter (callNative name function args) history =
      match function history args with
      | .ok result => (.ok result, history.push ⟨name, args⟩)
      | .error failure => (.error (.native failure), history.push ⟨name, args⟩) := by
  change runAfter (match function history args with
    | .ok result => pure result
    | .error failure => fail (.native failure)) (history.push ⟨name, args⟩) = _
  cases function history args <;> rfl

/-- The value an evaluation gives, if it gives one, and the native calls made by then. -/
def outcome (action : EvalM α) (history : History) : Option α × History :=
  ((action.runAfter history).1.toOption, (action.runAfter history).2)

/-- The value an evaluation gives, if it gives one. -/
def value? (action : EvalM α) (history : History) : Option α :=
  (action.outcome history).1

@[simp] theorem outcome_pure (a : α) (history : History) :
    outcome (pure a) history = (some a, history) := rfl

@[simp] theorem outcome_fail (fault : EvalFault) (history : History) :
    outcome (fail fault : EvalM α) history = (none, history) := rfl

theorem outcome_bind (action : EvalM α) (next : α → EvalM β) (history : History) :
    outcome (action >>= next) history =
      match outcome action history with
      | (some a, middle) => outcome (next a) middle
      | (none, middle) => (none, middle) := by
  rw [outcome, runAfter_bind, outcome]
  rcases runAfter action history with ⟨_ | _, middle⟩ <;> rfl

theorem value?_bind_eq_some {action : EvalM α} {next : α → EvalM β} {history : History} {b : β} :
    value? (action >>= next) history = some b ↔
      ∃ a middle, outcome action history = (some a, middle) ∧ value? (next a) middle = some b := by
  rw [value?, outcome_bind]
  rcases outcome action history with ⟨_ | a, middle⟩ <;> simp [value?]

theorem outcome_callNative (name : String) (function : Native) (args : List Value)
    (history : History) :
    outcome (callNative name function args) history =
      ((function history args).toOption, history.push ⟨name, args⟩) := by
  rw [outcome, runAfter_callNative]
  cases function history args <;> rfl

/-- What an evaluation is reported to come to: its value or its failure with kind and text, and the
native calls made by then. -/
def report (action : EvalM α) (history : History) : Except Failure α × History :=
  ((action.runAfter history).1.mapError EvalFault.failure, (action.runAfter history).2)

theorem report_bind (action : EvalM α) (next : α → EvalM β) (history : History) :
    report (action >>= next) history =
      match report action history with
      | (.ok a, middle) => report (next a) middle
      | (.error failure, middle) => (.error failure, middle) := by
  rw [report, runAfter_bind, report]
  rcases runAfter action history with ⟨_ | _, middle⟩ <;> rfl

/-! ## Agreement -/

/-- Two evaluations give the same value or both fail, after the same native calls. -/
def Agrees (a b : EvalM α) : Prop :=
  ∀ history, a.outcome history = b.outcome history

theorem Agrees.bind {a b : EvalM α} {f g : α → EvalM β} (h : a.Agrees b)
    (hnext : ∀ x, (f x).Agrees (g x)) : (a >>= f).Agrees (b >>= g) := by
  intro history
  rw [outcome_bind, outcome_bind, h history]
  rcases outcome b history with ⟨_ | x, middle⟩
  · rfl
  · exact hnext x middle

/-- Two evaluations are reported to come to the same. -/
def ReportsAlike (a b : EvalM α) : Prop :=
  ∀ history, a.report history = b.report history

theorem ReportsAlike.bind {a b : EvalM α} {f g : α → EvalM β} (h : a.ReportsAlike b)
    (hnext : ∀ x, (f x).ReportsAlike (g x)) : (a >>= f).ReportsAlike (b >>= g) := by
  intro history
  rw [report_bind, report_bind, h history]
  rcases report b history with ⟨_ | x, middle⟩
  · rfl
  · exact hnext x middle

/-- What the first evaluation gives, the second one gives too, whatever native calls were made
before. -/
def Refines (a b : EvalM α) : Prop :=
  ∀ history history' x, a.value? history = some x → b.value? history' = some x

theorem Refines.bind {a b : EvalM α} {f g : α → EvalM β} (h : a.Refines b)
    (hnext : ∀ x, (f x).Refines (g x)) : (a >>= f).Refines (b >>= g) := by
  intro history history' y hy
  -- The second evaluation goes its own way through the histories.
  rw [value?_bind_eq_some] at hy ⊢
  obtain ⟨x, middle, hx, hy⟩ := hy
  have hb : b.value? history' = some x := h history history' x (by rw [value?, hx])
  exact ⟨x, _, Prod.ext hb rfl, hnext x middle _ y hy⟩

/-- Two evaluations give the same value or both fail, whatever native calls were made before. -/
def SameValue (a b : EvalM α) : Prop :=
  a.Refines b ∧ b.Refines a

theorem SameValue.value?_eq {a b : EvalM α} (h : a.SameValue b) (history history' : History) :
    a.value? history = b.value? history' :=
  Option.ext fun x => ⟨h.1 history history' x, h.2 history' history x⟩

/-- An evaluation whose value does not depend on the history is one value once it gives it. -/
theorem SameValue.pure_of_value? {a : EvalM α} (h : a.SameValue a) {history : History} {x : α}
    (hx : a.value? history = some x) : a.SameValue (pure x) := by
  refine ⟨fun first _ y hy => ?_, fun _ second y hy => ?_⟩
  · rw [h.value?_eq first history, hx] at hy
    exact hy
  · rw [h.value?_eq second history, hx]
    exact hy

/-- An evaluation whose value does not depend on the history refines anything once it fails. -/
theorem SameValue.refines_of_value? {a b : EvalM α} (h : a.SameValue a) {history : History}
    (hx : a.value? history = none) : a.Refines b := by
  intro first _ y hy
  rw [h.value?_eq first history, hx] at hy
  cases hy

end EvalM

/-! ## Comparisons -/

/-- Native functions answer by their arguments alone. -/
def Evaluator.Deterministic (evaluator : Evaluator) : Prop :=
  ∀ name function, evaluator.function? name = some function →
    ∀ history history' args, function history args = function history' args

/-- An evaluator is deterministic if every function in its table answers by its arguments alone. -/
theorem Evaluator.deterministic_of_functions {evaluator : Evaluator}
    (h : ∀ entry ∈ evaluator.functions, ∀ history history' args,
      entry.2 history args = entry.2 history' args) : evaluator.Deterministic := by
  intro name function hfunction
  obtain ⟨before, after, hfunctions, -⟩ := List.lookup_eq_some_iff.mp hfunction
  refine h (name, function) ?_
  rw [hfunctions]
  exact List.mem_append_right _ List.mem_cons_self

namespace Comparison

variable {evaluator : Evaluator}

/-- Comparison by value and native calls. -/
def agreement (evaluator : Evaluator) : Comparison evaluator where
  rel := EvalM.Agrees
  pure _ _ := rfl
  fail _ _ := rfl
  bind := EvalM.Agrees.bind
  trans hab hbc history := (hab history).trans (hbc history)
  native _ _ _ := rfl

theorem lenient_agreement : (agreement evaluator).Lenient :=
  fun _ _ _ => rfl

/-- Comparison by value or by kind and text of the failure, and native calls. -/
def reporting (evaluator : Evaluator) : Comparison evaluator where
  rel := EvalM.ReportsAlike
  pure _ _ := rfl
  fail _ _ := rfl
  bind := EvalM.ReportsAlike.bind
  trans hab hbc history := (hab history).trans (hbc history)
  native _ _ _ := rfl

/-- Comparison by value in one direction. -/
def refinement (h : evaluator.Deterministic) : Comparison evaluator where
  rel := EvalM.Refines
  pure a _ _ _ := id
  fail _ _ _ _ := nofun
  bind := EvalM.Refines.bind
  trans hab hbc history history' x hx := hbc history history' x (hab history history x hx)
  native {name function} args hfunction history history' x hx := by
    rw [EvalM.value?, EvalM.outcome_callNative] at hx ⊢
    -- The two calls come after different histories.
    rw [h name function hfunction history' history]
    exact hx

theorem lenient_refinement (h : evaluator.Deterministic) : (refinement h).Lenient :=
  fun _ _ _ _ _ => nofun

/-- Comparison by value. -/
def sameValue (h : evaluator.Deterministic) : Comparison evaluator where
  rel := EvalM.SameValue
  pure a := ⟨(refinement h).pure a, (refinement h).pure a⟩
  fail fault := ⟨(refinement h).fail fault, (refinement h).fail fault⟩
  bind hab hfg := ⟨hab.1.bind fun x => (hfg x).1, hab.2.bind fun x => (hfg x).2⟩
  trans hab hbc := ⟨(refinement h).trans hab.1 hbc.1, (refinement h).trans hbc.2 hab.2⟩
  native args hfunction :=
    ⟨(refinement h).native args hfunction, (refinement h).native args hfunction⟩

theorem lenient_sameValue (h : evaluator.Deterministic) : (sameValue h).Lenient :=
  fun fault fault' => ⟨lenient_refinement h fault fault', lenient_refinement h fault' fault⟩

end Comparison

end ExprTree
