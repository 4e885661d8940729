/-
# The order of types

Assignability orders the types: it is reflexive, transitive and antisymmetric, with the top type above
all others. Sequences keep the order of their elements, functions keep that of their results and turn
that of their parameters around. Comparing two types asks about their parts, which change places at
parameters; since the parts of both are smaller, this always comes to an end.
-/
import Mathlib.Logic.Function.Iterate
import ExprTree.Proofs.Assignability

namespace ExprTree

/-! ## Lists compared position by position -/

section Lists

variable {α : Type} {r : α → α → Prop} {as bs cs : List α}

/-- Lists are related transitively if their entries are. -/
theorem forall₂_trans_of_mem (htrans : ∀ b ∈ bs, ∀ a c, r a b → r b c → r a c)
    (hab : List.Forall₂ r as bs) (hbc : List.Forall₂ r bs cs) : List.Forall₂ r as cs := by
  induction hab generalizing cs with
  | nil => exact hbc
  | @cons a b as bs h _ ih =>
      obtain ⟨c, cs, h', hrest, rfl⟩ := List.forall₂_cons_left_iff.mp hbc
      exact .cons (htrans b List.mem_cons_self a c h h')
        (ih (fun b hb => htrans b (List.mem_cons_of_mem _ hb)) hrest)

/-- Lists are related antisymmetrically if their entries are. -/
theorem eq_of_forall₂_of_mem (hantisymm : ∀ a ∈ as, ∀ b, r a b → r b a → a = b)
    (hab : List.Forall₂ r as bs) (hba : List.Forall₂ r bs as) : as = bs := by
  induction hab with
  | nil => rfl
  | @cons a b as bs h _ ih =>
      obtain ⟨h', hrest⟩ := List.forall₂_cons.mp hba
      rw [hantisymm a List.mem_cons_self b h h',
        ih (fun a ha => hantisymm a (List.mem_cons_of_mem _ ha)) hrest]

end Lists

namespace Ty

/-! ## Parts -/

/-- The types that a type is made of. -/
def parts : Ty → List Ty
  | .sequence element => [element]
  | .function params result => result :: params
  | _ => []

theorem sizeOf_lt_of_mem_parts {part type : Ty} (h : part ∈ type.parts) :
    sizeOf part < sizeOf type := by
  cases type with
  | sequence element =>
      obtain rfl := List.mem_singleton.mp h
      simp
  | function params result =>
      rcases List.mem_cons.mp h with rfl | h
      · simp only [function.sizeOf_spec]
        omega
      · have hlt := List.sizeOf_lt_of_mem h
        simp only [function.sizeOf_spec]
        omega
  | _ => cases h

/-- Induction over types with the hypothesis for whatever a type is made of. -/
theorem parts_induction {motive : Ty → Prop}
    (node : ∀ type, (∀ part ∈ type.parts, motive part) → motive type) (type : Ty) : motive type :=
  node type fun part _ => parts_induction node part
termination_by sizeOf type
decreasing_by exact sizeOf_lt_of_mem_parts ‹_›

/-! ## The recursion -/

/-- One step in finding out whether a type takes the values of another one. What has to be known of
their parts is put to `ask`; at function parameters the two types change places. -/
def acceptsBy (ask : Ty → Ty → Bool) (target source : Ty) : Bool :=
  target = source ||
    match target, source with
    | .object, _ => true
    | .sequence element, .sequence element' => ask element element'
    | .function params result, .function params' result' =>
        params.length = params'.length &&
          (params.zip params').all (fun (param, param') => ask param' param) &&
          ask result result'
    | _, _ => false

/-- A step that gives a positive answer gives it for one of four reasons. -/
theorem acceptsBy_iff {ask : Ty → Ty → Bool} {target source : Ty} :
    acceptsBy ask target source = true ↔ target = source ∨ target = .object ∨
      (∃ a b, target = .sequence a ∧ source = .sequence b ∧ ask a b = true) ∨
      ∃ ps r qs s, target = .function ps r ∧ source = .function qs s ∧
        List.Forall₂ (fun p q => ask q p = true) ps qs ∧ ask r s = true := by
  cases target <;> cases source <;>
    simp [acceptsBy, List.forall₂_iff_zip, and_assoc]

/-- **Assignability obeys the recursion.** -/
theorem acceptsBy_accepts (target source : Ty) :
    acceptsBy accepts target source = target.accepts source := by
  rw [Bool.eq_iff_iff, acceptsBy_iff, accepts_iff]

/-- A step asks only about parts of the two types, at parameters the other way around. -/
theorem acceptsBy_congr {ask ask' : Ty → Ty → Bool} {target source : Ty}
    (hkept : ∀ a ∈ target.parts, ∀ b ∈ source.parts, ask a b = ask' a b)
    (hturned : ∀ a ∈ target.parts, ∀ b ∈ source.parts, ask b a = ask' b a) :
    acceptsBy ask target source = acceptsBy ask' target source := by
  cases target with
  | sequence element =>
      cases source with
      | sequence element' =>
          simp only [acceptsBy, hkept element List.mem_cons_self element' List.mem_cons_self]
      | _ => rfl
  | function params result =>
      cases source with
      | function params' result' =>
          have hparams : (params.zip params').all (fun (p, q) => ask q p)
              = (params.zip params').all (fun (p, q) => ask' q p) := by
            rw [Bool.eq_iff_iff, List.all_eq_true, List.all_eq_true]
            refine forall₂_congr fun (p, q) hpair => ?_
            obtain ⟨hp, hq⟩ := List.of_mem_zip hpair
            simp only [hturned p (List.mem_cons_of_mem _ hp) q (List.mem_cons_of_mem _ hq)]
          simp only [acceptsBy, hparams, hkept result List.mem_cons_self result' List.mem_cons_self]
      | _ => rfl
  | _ => cases source <;> rfl

/-- **The recursion comes to an end**: on any two types some number of steps gives the answer, whatever
is taken for the questions that are still open then. -/
theorem exists_iterate_acceptsBy (target source : Ty) :
    ∃ depth, ∀ ask, acceptsBy^[depth] ask target source = target.accepts source := by
  -- The sizes of the two types together bound the depth, whichever way around they are compared.
  suffices h : ∀ depth (a b : Ty), sizeOf a + sizeOf b < depth →
      ∀ ask, acceptsBy^[depth] ask a b = a.accepts b from
    ⟨_, h _ target source (Nat.lt_succ_self _)⟩
  intro depth
  induction depth with
  | zero => exact fun a b hlt => absurd hlt (Nat.not_lt_zero _)
  | succ depth ih =>
      intro a b hlt ask
      rw [Function.iterate_succ_apply', ← acceptsBy_accepts a b]
      refine acceptsBy_congr (fun p hp q hq => ih p q ?_ ask) (fun p hp q hq => ih q p ?_ ask)
      all_goals
        have hp' := sizeOf_lt_of_mem_parts hp
        have hq' := sizeOf_lt_of_mem_parts hq
        omega

/-! ## The order -/

/-- What accepts a type accepts whatever that type accepts. The induction is on the type in the middle:
its parts stay in the middle also where the outer two change places. -/
theorem accepts_trans {a b c : Ty} (hab : a.accepts b = true) (hbc : b.accepts c = true) :
    a.accepts c = true := by
  induction b using parts_induction generalizing a c with
  | node b ih =>
      rcases accepts_iff.mp hab with rfl | rfl | ⟨x, y, rfl, rfl, hxy⟩ |
        ⟨ps, r, qs, s, rfl, rfl, hparams, hresult⟩
      · exact hbc
      · exact accepts_object c
      · rcases accepts_iff.mp hbc with rfl | h | ⟨_, z, hy, rfl, hyz⟩ | ⟨_, _, _, _, h, -⟩
        · exact hab
        · cases h
        · obtain rfl := sequence.inj hy
          rw [accepts_sequence]
          exact ih y List.mem_cons_self hxy hyz
        · cases h
      · rcases accepts_iff.mp hbc with rfl | h | ⟨_, _, h, -⟩ |
          ⟨_, _, ts, t, hfunction, rfl, hparams', hresult'⟩
        · exact hab
        · cases h
        · cases h
        · obtain ⟨rfl, rfl⟩ := function.inj hfunction
          rw [accepts_function_iff]
          refine ⟨forall₂_trans_of_mem (fun q hq p t hqp htq => ?_) hparams hparams',
            ih s List.mem_cons_self hresult hresult'⟩
          exact ih q (List.mem_cons_of_mem _ hq) htq hqp

/-- Types that accept one another are the same. -/
theorem accepts_antisymm {a b : Ty} (hab : a.accepts b = true) (hba : b.accepts a = true) : a = b := by
  induction a using parts_induction generalizing b with
  | node a ih =>
      rcases accepts_iff.mp hab with rfl | rfl | ⟨x, y, rfl, rfl, hxy⟩ |
        ⟨ps, r, qs, s, rfl, rfl, hparams, hresult⟩
      · rfl
      · rcases accepts_iff.mp hba with rfl | rfl | ⟨_, _, -, h, -⟩ | ⟨_, _, _, _, -, h, -⟩
        · rfl
        · rfl
        · cases h
        · cases h
      · rw [accepts_sequence] at hba
        rw [ih x List.mem_cons_self hxy hba]
      · obtain ⟨hparams', hresult'⟩ := accepts_function_iff.mp hba
        rw [ih r List.mem_cons_self hresult hresult',
          eq_of_forall₂_of_mem (fun p hp q hqp hpq => ?_) hparams hparams']
        exact ih p (List.mem_cons_of_mem _ hp) hpq hqp

/-- **Assignability is a partial order with the top type at its top.** It keeps the order of elements
and results and turns that of parameters around, and the recursion that decides it always ends. -/
theorem accepts_partial_order :
    (∀ a : Ty, a.accepts a = true) ∧
      (∀ a b c : Ty, a.accepts b = true → b.accepts c = true → a.accepts c = true) ∧
      (∀ a b : Ty, a.accepts b = true → b.accepts a = true → a = b) ∧
      (∀ a : Ty, accepts .object a = true) ∧
      (∀ a b : Ty, accepts (.sequence a) (.sequence b) = a.accepts b) ∧
      (∀ (ps : List Ty) (r : Ty) (qs : List Ty) (s : Ty),
        accepts (.function ps r) (.function qs s) = true ↔
          List.Forall₂ (fun p q => q.accepts p = true) ps qs ∧ r.accepts s = true) ∧
      (∀ a b : Ty, acceptsBy accepts a b = a.accepts b) ∧
      ∀ a b : Ty, ∃ depth, ∀ ask, acceptsBy^[depth] ask a b = a.accepts b :=
  ⟨accepts_refl, fun _ _ _ => accepts_trans, fun _ _ => accepts_antisymm, accepts_object,
    fun _ _ => accepts_sequence, fun _ _ _ _ => accepts_function_iff, acceptsBy_accepts,
    exists_iterate_acceptsBy⟩

/-- A chain of function types, with parameters of its own in a parameter and in a result. -/
theorem accepts_partial_order_chain :
    let top : Ty := .function [.sequence (.function [.object] .int32)] .object
    let middle : Ty := .function [.sequence (.function [.string] .object)] (.function [.int32] .object)
    let bottom : Ty := .function [.sequence .object] (.function [.object] .string)
    top.accepts middle = true ∧ middle.accepts bottom = true ∧ top.accepts bottom = true ∧
      bottom.accepts top = false := by
  intro top middle bottom
  obtain ⟨-, htrans, hantisymm, -⟩ := accepts_partial_order
  have htop : top.accepts middle = true := by decide
  have hmiddle : middle.accepts bottom = true := by decide
  have hacross : top.accepts bottom = true := htrans top middle bottom htop hmiddle
  refine ⟨htop, hmiddle, hacross, Bool.eq_false_iff.mpr fun hback => ?_⟩
  exact absurd (hantisymm top bottom hacross hback) (by decide)

end Ty

end ExprTree
