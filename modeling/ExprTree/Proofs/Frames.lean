/-
# Looking parameters up

The innermost frame that declares a parameter decides what it stands for. Frames further in or
further out play no part, and renaming the parameters of all frames without making two of them one
keeps what every parameter stands for.
-/
import Mathlib.Data.List.Basic
import ExprTree.Eval.Frame

namespace ExprTree

/-- The frame with its parameters renamed. -/
def Frame.rename (σ : Parameter → Parameter) (frame : Frame) : Frame :=
  ⟨frame.params.map σ, frame.args⟩

namespace Frames

variable {frame : Frame} {frames outer : Frames} {p : Parameter}

/-- The parameters that some frame declares. -/
def declared (frames : Frames) : List Parameter :=
  frames.flatMap Frame.params

@[simp] theorem declared_nil : declared [] = [] := rfl

@[simp] theorem declared_cons (frame : Frame) (frames : Frames) :
    declared (frame :: frames) = frame.params ++ declared frames := rfl

@[simp] theorem declared_append (frames outer : Frames) :
    declared (frames ++ outer) = frames.declared ++ outer.declared :=
  List.flatMap_append

/-- What a parameter stands for that a frame with these arguments declares at a position. -/
def argument (args : List Value) (p : Parameter) (position : Nat) : EvalM Value :=
  match args[position]? with
  | some value => pure value
  | none => EvalM.fail (.noArgument p)

theorem lookup_cons :
    Frames.lookup (frame :: outer) p =
      match frame.params.idxOf? p with
      | none => outer.lookup p
      | some position => argument frame.args p position := rfl

/-- A frame that does not declare the parameter is passed by. -/
theorem lookup_cons_of_notMem (h : p ∉ frame.params) :
    Frames.lookup (frame :: outer) p = outer.lookup p := by
  rw [lookup_cons, List.idxOf?_eq_none_iff.mpr h]

/-- Behind a frame that declares the parameter nothing is looked at. -/
theorem lookup_cons_of_mem (h : p ∈ frame.params) (outer outer' : Frames) :
    Frames.lookup (frame :: outer) p = Frames.lookup (frame :: outer') p := by
  rw [lookup_cons, lookup_cons]
  cases hposition : frame.params.idxOf? p with
  | none => exact absurd h (List.idxOf?_eq_none_iff.mp hposition)
  | some position => rfl

/-- A frame of one parameter gives it its argument. -/
@[simp] theorem lookup_cons_self (value : Value) :
    Frames.lookup (⟨[p], [value]⟩ :: outer) p = pure value := by
  simp [lookup_cons, argument]

/-- Frames that do not declare the parameter are passed by. -/
theorem lookup_append_of_notMem (h : p ∉ frames.declared) :
    (frames ++ outer).lookup p = outer.lookup p := by
  induction frames with
  | nil => rfl
  | cons frame frames ih =>
      rw [declared_cons, List.mem_append, not_or] at h
      exact (lookup_cons_of_notMem h.1).trans (ih h.2)

/-- Behind frames that declare the parameter nothing is looked at. -/
theorem lookup_append_of_mem (h : p ∈ frames.declared) (outer outer' : Frames) :
    (frames ++ outer).lookup p = (frames ++ outer').lookup p := by
  induction frames with
  | nil => simp at h
  | cons frame frames ih =>
      by_cases hp : p ∈ frame.params
      · exact lookup_cons_of_mem hp _ _
      · rw [declared_cons, List.mem_append] at h
        rw [List.cons_append, List.cons_append, lookup_cons_of_notMem hp, lookup_cons_of_notMem hp]
        exact ih (h.resolve_left hp)

/-! ## Renaming -/

/-- Renaming keeps the position at which a parameter is declared. -/
theorem idxOf?_map {β : Type} [BEq β] [LawfulBEq β] {σ : Parameter → β} {params : List Parameter}
    (hσ : ∀ q ∈ params, σ q = σ p → q = p) : (params.map σ).idxOf? (σ p) = params.idxOf? p := by
  induction params with
  | nil => rfl
  | cons q params ih =>
      have hq : (σ q == σ p) = (q == p) := by
        rw [Bool.eq_iff_iff, beq_iff_eq, beq_iff_eq]
        exact ⟨hσ q List.mem_cons_self, fun h => by rw [h]⟩
      rw [List.map_cons, List.idxOf?_cons, List.idxOf?_cons, hq,
        ih fun r hr => hσ r (List.mem_cons_of_mem _ hr)]

end Frames

end ExprTree
