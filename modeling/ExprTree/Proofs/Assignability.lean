/-
# Assignability

What may stand in for a type: anything for `object`, sequences of what may stand in for the elements,
functions that take at least the parameters and return something that may stand in for the result,
and only the type itself otherwise.
-/
import Mathlib.Data.List.Forall2
import ExprTree.Ty

namespace ExprTree

namespace Ty

/-! ## Directions -/

mutual

/-- Turning the direction around is swapping the types. -/
theorem flows_flip : ∀ (d : Direction) (a b : Ty), flows d.flip a b = flows d b a
  | d, .sequence a, .sequence b => by
      rw [flows, flows, flows_flip d a b]
  | d, .function ps r, .function qs s => by
      rw [flows, flows, flows_flip d r s, flowsAll_flip d.flip ps qs]
  | d, .boolean, b | d, .int32, b | d, .string, b | d, .object, b | d, .entity _, b => by
      cases d <;> cases b <;> simp [flows, Direction.flip, eq_comm]
  | d, .sequence _, .boolean | d, .sequence _, .int32 | d, .sequence _, .string
  | d, .sequence _, .object | d, .sequence _, .entity _ | d, .sequence _, .function .. => by
      cases d <;> simp [flows, Direction.flip]
  | d, .function .., .boolean | d, .function .., .int32 | d, .function .., .string
  | d, .function .., .object | d, .function .., .entity _ | d, .function .., .sequence _ => by
      cases d <;> simp [flows, Direction.flip]

/-- Turning the direction around is swapping the lists of types. -/
theorem flowsAll_flip :
    ∀ (d : Direction) (as bs : List Ty), flowsAll d.flip as bs = flowsAll d bs as
  | d, [], bs => by cases bs <;> simp [flowsAll]
  | d, _ :: _, [] => by simp [flowsAll]
  | d, a :: as, b :: bs => by
      rw [flowsAll, flowsAll, flows_flip d a b, flowsAll_flip d as bs]

end

mutual

/-- A type takes its own values, whichever way it is compared. -/
theorem flows_refl : ∀ (d : Direction) (a : Ty), flows d a a = true
  | d, .boolean | d, .int32 | d, .string | d, .object | d, .entity _ => by
      cases d <;> simp [flows]
  | d, .sequence a => by rw [flows, flows_refl d a]
  | d, .function ps r => by
      rw [flows, flows_refl d r, flowsAll_refl d.flip ps]
      rfl

/-- A list of types takes its own values, whichever way it is compared. -/
theorem flowsAll_refl : ∀ (d : Direction) (as : List Ty), flowsAll d as as = true
  | _, [] => rfl
  | d, a :: as => by
      rw [flowsAll, flows_refl d a, flowsAll_refl d as]
      rfl

end

/-! ## What a type accepts -/

/-- Every type accepts itself. -/
@[simp] theorem accepts_refl (type : Ty) : type.accepts type = true :=
  flows_refl .leftward type

/-- The top type accepts every type. -/
@[simp] theorem accepts_object (source : Ty) : accepts .object source = true := by
  cases source <;> simp [accepts, flows]

/-- Sequences are compared by their elements. -/
theorem accepts_sequence {element element' : Ty} :
    accepts (.sequence element) (.sequence element') = element.accepts element' := by
  rw [accepts, flows, accepts]

theorem flowsAll_rightward_iff {targets sources : List Ty} :
    flowsAll .rightward targets sources = true ↔
      List.Forall₂ (fun target source => source.accepts target = true) targets sources := by
  induction targets generalizing sources with
  | nil => cases sources <;> simp [flowsAll]
  | cons target targets ih =>
      cases sources with
      | nil => simp [flowsAll]
      | cons source sources =>
          have hturn : flows .rightward target source = source.accepts target :=
            flows_flip .leftward target source
          rw [flowsAll, Bool.and_eq_true, ih, hturn, List.forall₂_cons]

/-- Functions are compared by their results, and the other way around by their parameters. -/
theorem accepts_function_iff {params params' : List Ty} {result result' : Ty} :
    accepts (.function params result) (.function params' result') = true ↔
      List.Forall₂ (fun param param' => param'.accepts param = true) params params' ∧
        result.accepts result' = true := by
  rw [accepts, flows, Bool.and_eq_true, Direction.flip, flowsAll_rightward_iff]
  rfl

/-- A type is accepted by itself, by the top type, and by what is built like it from parts that fit. -/
theorem accepts_iff {target source : Ty} :
    target.accepts source = true ↔ target = source ∨ target = .object ∨
      (∃ a b, target = .sequence a ∧ source = .sequence b ∧ a.accepts b = true) ∨
      ∃ ps r qs s, target = .function ps r ∧ source = .function qs s ∧
        List.Forall₂ (fun p q => q.accepts p = true) ps qs ∧ r.accepts s = true := by
  constructor
  · intro h
    cases target with
    | object => exact Or.inr (Or.inl rfl)
    | sequence a =>
        cases source with
        | sequence b =>
            rw [accepts_sequence] at h
            exact Or.inr (Or.inr (Or.inl ⟨a, b, rfl, rfl, h⟩))
        | _ => simp [accepts, flows] at h
    | function ps r =>
        cases source with
        | function qs s =>
            exact Or.inr (Or.inr (Or.inr ⟨ps, r, qs, s, rfl, rfl, accepts_function_iff.mp h⟩))
        | _ => simp [accepts, flows] at h
    | boolean | int32 | string | entity =>
        refine Or.inl ?_
        simpa [accepts, flows] using h
  · rintro (rfl | rfl | ⟨a, b, rfl, rfl, h⟩ | ⟨ps, r, qs, s, rfl, rfl, h⟩)
    · exact accepts_refl target
    · exact accepts_object source
    · rwa [accepts_sequence]
    · rwa [accepts_function_iff]

/-- Truth values are accepted where truth values are expected, nothing else is. -/
theorem accepts_boolean_iff {source : Ty} : accepts .boolean source = true ↔ source = .boolean := by
  cases source <;> simp [accepts, flows]

/-- Functions of one parameter accept functions that take at least that parameter and return what the
result accepts. -/
theorem eq_of_accepts_function {param result source : Ty}
    (h : accepts (.function [param] result) source = true) :
    ∃ param' result', source = .function [param'] result' ∧ param'.accepts param = true ∧
      result.accepts result' = true := by
  cases source with
  | function params result' =>
      obtain ⟨hparams, hresult⟩ := accepts_function_iff.mp h
      obtain ⟨param', rest, hparam, hrest, rfl⟩ := List.forall₂_cons_left_iff.mp hparams
      obtain rfl := List.forall₂_nil_left_iff.mp hrest
      exact ⟨param', result', rfl, hparam, hresult⟩
  | _ => simp [accepts, flows] at h

end Ty

end ExprTree
