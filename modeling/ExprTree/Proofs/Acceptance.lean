/-
# When lambdas can be combined

A predicate can be lifted, a value looked for and a continuation put behind a selector just if the
types fit. Whatever the checks of these operations let through can be built.
-/
import ExprTree.Proofs.Assignability
import ExprTree.Proofs.Rebinding

namespace ExprTree

/-! ## Types that fit -/

namespace Ty

theorem element?_eq_some_iff {type element : Ty} :
    type.element? = some element ↔ type = .sequence element := by
  cases type <;> simp [element?]

theorem isBoolean_iff {type : Ty} : type.isBoolean = true ↔ type = .boolean := by
  cases type <;> simp [isBoolean]

/-- What takes the type of a value that has one and is not the top type is that type. -/
theorem accepts_of_type? {value : Value} {type element : Ty} (htype : value.type? = some type)
    (h : type.accepts element = true) : element.accepts type = true := by
  have heq : type = element := by
    cases value with
    | list => cases htype
    | _ =>
        obtain rfl := Option.some.inj htype
        simpa [accepts, flows] using h
  rw [heq]
  exact accepts_refl element

end Ty

namespace Build

open ExprTree.Expr ExprTree.Ty

variable {quantifier : Quantifier}

/-! ## Quantifiers -/

/-- A quantifier can be called on a sequence and an operand just if both fit. -/
theorem callFault?_sequence_eq_none_iff {element : Ty} {source operand : Expr} :
    callFault? none (.sequence quantifier element) [source, operand] = none ↔
      List.Forall₂ (fun param arg => Ty.accepts param arg.type = true)
        (quantifier.params element) [source, operand] := by
  rw [callFault?_eq_none_iff]
  constructor
  · exact fun h => h.2.2
  · intro h
    refine ⟨by simp [Method.form], fun _ => ?_, h⟩
    cases quantifier <;> exact List.cons_ne_nil _ _

/-- `Any` and `All` can be called on a sequence and a lambda just if the sequence fits and the
lambda is a predicate on its elements. -/
theorem callFault?_predicate_eq_none_iff (hquantifier : quantifier ≠ .contains) {element : Ty}
    {source body : Expr} {serial : Nat} {x : Parameter} :
    callFault? none (.sequence quantifier element) [source, .lambda serial [x] body] = none ↔
      Ty.accepts (.sequence element) source.type = true ∧ x.type.accepts element = true ∧
        body.type = .boolean := by
  have hparams : quantifier.params element = [.sequence element, .function [element] .boolean] := by
    cases quantifier with
    | any | all => rfl
    | contains => exact absurd rfl hquantifier
  rw [callFault?_sequence_eq_none_iff, hparams, List.forall₂_cons, List.forall₂_cons]
  have hpredicate : (Expr.lambda serial [x] body).type = .function [x.type] body.type := rfl
  rw [hpredicate, Ty.accepts_function_iff, Ty.accepts_boolean_iff]
  simp

variable {selector predicate continuation : Lambda} (session : Session)

/-- A quantifier can be applied to the body of a selector if the call has no fault. -/
theorem succeeds_quantifyOver {element : Ty} {operand : Expr} (hselector : selector.params.Nodup)
    (hfault : callFault? none (.sequence quantifier element) [selector.body, operand] = none) :
    Succeeds (Lambda.quantifyOver quantifier selector element operand) session :=
  .bind (runIn_call_ok.mpr ⟨hfault, rfl, rfl⟩)
    (.bind (runIn_lambda_ok.mpr ⟨hselector, rfl, rfl⟩) ⟨_, _, rfl⟩)

/-- **When a predicate can be lifted**: the selector returns a sequence, and the predicate takes one
parameter that accepts its elements and gives a truth value. -/
theorem succeeds_lift_iff (hquantifier : quantifier ≠ .contains)
    (hselector : selector.params.Nodup) :
    Succeeds (Lambda.lift quantifier selector predicate) session ↔
      ∃ element p, selector.resultType = .sequence element ∧ predicate.params = [p] ∧
        p.type.accepts element = true ∧ predicate.resultType = .boolean := by
  constructor
  · rintro ⟨lifted, session', h⟩
    simp only [Lambda.lift, runIn_bind_ok, runIn_elementType_ok] at h
    obtain ⟨element, _, ⟨helement, rfl⟩, h⟩ := h
    split at h
    next p hparams =>
      split at h
      next haccepts =>
        split at h
        next hboolean =>
          exact ⟨element, p, Ty.element?_eq_some_iff.mp helement, hparams, haccepts,
            Ty.isBoolean_iff.mp hboolean⟩
        next => simp at h
      next => simp at h
    next => simp at h
  · rintro ⟨element, p, hresult, hparams, haccepts, hboolean⟩
    have helement : runIn selector.elementType session = (.ok element, session) :=
      runIn_elementType_ok.mpr ⟨Ty.element?_eq_some_iff.mpr hresult, rfl⟩
    -- The checks of the operation are those of the call.
    have hsource : Ty.accepts (.sequence p.type) selector.body.type = true := by
      rw [← Lambda.resultType, hresult, Ty.accepts_sequence]
      exact haccepts
    refine .bind helement ?_
    simp only [hparams, haccepts, Ty.isBoolean_iff.mpr hboolean, if_true]
    refine .bind (runIn_toExpr_ok.mpr ⟨rfl, rfl⟩) (succeeds_quantifyOver _ hselector ?_)
    rw [hparams, callFault?_predicate_eq_none_iff hquantifier]
    exact ⟨hsource, accepts_refl _, hboolean⟩

/-- A lifted predicate takes what the selector takes and gives a truth value. -/
theorem typed_of_lift {lifted : Lambda} {before after : Session}
    (h : runIn (Lambda.lift quantifier selector predicate) before = (.ok lifted, after)) :
    lifted.paramTypes = selector.paramTypes ∧ lifted.resultType = .boolean := by
  obtain ⟨serial, serial', p, -, rfl⟩ := lifted_of_runIn h
  exact ⟨rfl, rfl⟩

/-- **When a value can be looked for**: the selector returns a sequence, and its elements may be of
the type of the value. -/
theorem succeeds_contains_iff (hselector : selector.params.Nodup) {value : Value} :
    Succeeds (selector.contains value) session ↔
      ∃ element type, selector.resultType = .sequence element ∧ value.type? = some type ∧
        element.accepts type = true := by
  constructor
  · rintro ⟨lifted, session', h⟩
    simp only [Lambda.contains, runIn_bind_ok, runIn_elementType_ok] at h
    obtain ⟨element, _, ⟨helement, rfl⟩, h⟩ := h
    split at h
    next => simp at h
    next type htype =>
      split at h
      next haccepts =>
        exact ⟨element, type, Ty.element?_eq_some_iff.mp helement, htype, haccepts⟩
      next => simp at h
  · rintro ⟨element, type, hresult, htype, haccepts⟩
    have helement : runIn selector.elementType session = (.ok element, session) :=
      runIn_elementType_ok.mpr ⟨Ty.element?_eq_some_iff.mpr hresult, rfl⟩
    refine .bind helement ?_
    simp only [htype, haccepts, if_true]
    refine .bind (runIn_constant_ok.mpr ⟨type, htype, rfl, rfl⟩)
      (succeeds_quantifyOver _ hselector ?_)
    rw [callFault?_sequence_eq_none_iff]
    refine .cons ?_ (.cons haccepts .nil)
    rw [← Lambda.resultType, hresult]
    exact accepts_refl _

/-! ## Splicing -/

/-- **A continuation can be put behind a selector** that returns just what it takes, if no lambda
inside declares its parameter. -/
theorem succeeds_splice {p : Parameter} (hparams : continuation.params = [p])
    (htype : selector.resultType = p.type) (hselector : selector.params.Nodup)
    (hbody : continuation.body.WellFormed) (hp : p ∉ continuation.body.binders) :
    Succeeds (selector.splice continuation) session := by
  have hpick : KeepsTypes (replacing (.parameter p) selector.body) := .replacing htype
  obtain ⟨body, middle, hrun⟩ :=
    succeeds_substitute hbody hpick (rebindsAll_of_notMem_binders hbody hp) session
  have haccepts : p.type.accepts selector.resultType = true := by
    rw [htype]
    exact accepts_refl _
  simp only [Lambda.splice, hparams, haccepts, if_true]
  exact .bind hrun (.bind (runIn_lambda_ok.mpr ⟨hselector, rfl, rfl⟩) ⟨_, _, rfl⟩)

end Build

end ExprTree
