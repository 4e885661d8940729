/-
# Copies

A substitution copies an expression: what takes the place of a picked node is put in as it is,
leaves stay the nodes they are, and every other node is made anew, with a serial handed out meanwhile.
All of this is said of a node and of what a walk goes to from it, whatever its kind.
-/
import ExprTree.Proofs.Combined

namespace ExprTree

namespace Expr

/-! ## Leaves and parts -/

/-- The serial of a node; a parameter has none. -/
def serial? : Expr → Option Nat
  | .parameter _ => none
  | .constant serial .. | .member serial .. | .call serial .. | .unary serial ..
  | .binary serial .. | .lambda serial .. => some serial

/-- Constants and parameters are leaves; all other nodes are composite. -/
def isLeaf : Expr → Bool
  | .constant .. | .parameter _ => true
  | _ => false

/-- What a walk goes to from a node: the parameters it declares, then what stands right below it. -/
def parts (e : Expr) : List Expr :=
  e.declared.map parameter ++ e.children

theorem parts_of_isLeaf {e : Expr} (h : e.isLeaf = true) : e.parts = [] := by
  cases e with
  | constant | parameter => rfl
  | _ => cases h

/-- Induction over expressions with the hypothesis for whatever a walk goes to from a node. -/
theorem parts_induction {motive : Expr → Prop}
    (node : ∀ e, (∀ part ∈ e.parts, motive part) → motive e) : ∀ e, motive e := by
  intro e
  induction e using children_induction with
  | node e ih =>
      refine node e fun part hpart => ?_
      rcases List.mem_append.mp hpart with hpart | hpart
      · obtain ⟨p, -, rfl⟩ := List.mem_map.mp hpart
        exact node _ fun part hpart => nomatch hpart
      · exact ih part hpart

/-! ## Copies -/

/-- The second expression is a copy of the first one with other nodes in the place of those picked:
all composite nodes outside of these are new, with serials from `first` on that are less than
`last`. -/
inductive Copied (pick : Pick) (first last : Nat) : Expr → Expr → Prop
  | picked {e replacement} : pick e = some replacement → Copied pick first last e replacement
  | leaf {e} : pick e = none → e.isLeaf = true → Copied pick first last e e
  | built {e e' serial} : pick e = none → e.isLeaf = false → e'.isLeaf = false →
      e'.serial? = some serial → first ≤ serial → serial < last →
      e'.declared.length = e.declared.length →
      List.Forall₂ (Copied pick first last) e.parts e'.parts → Copied pick first last e e'

section Inversions

variable {pick : Pick} {first last : Nat} {e e' : Expr}

/-- In the place of a picked node stands what it was picked for. -/
theorem Copied.eq_of_picked (h : Copied pick first last e e') {replacement : Expr}
    (hpick : pick e = some replacement) : e' = replacement := by
  cases h with
  | picked h => exact (Option.some.inj (hpick ▸ h)).symm
  | leaf h | built h => cases hpick ▸ h

/-- The children of a node that is not picked are copied one by one. -/
theorem Copied.children (h : Copied pick first last e e') (hpick : pick e = none) :
    List.Forall₂ (Copied pick first last) e.children e'.children := by
  cases h with
  | picked h => cases hpick ▸ h
  | leaf _ hleaf =>
      cases e with
      | constant | parameter => exact .nil
      | _ => cases hleaf
  | built _ _ _ _ _ _ hlength hparts =>
      -- As many of the parts as are declared come before the children.
      have h := List.forall₂_drop e.declared.length hparts
      rw [parts, parts, List.drop_left' (by simp), List.drop_left' (by simp [hlength])] at h
      exact h

end Inversions

end Expr

/-! ## Runs of substitutions -/

namespace Build

open ExprTree.Expr

variable {pick : Pick} {session session' : Session}

/-- A substitution in an entry of a parameter list is one in the parameter as a node. -/
theorem runIn_substitute_parameter {p q : Parameter}
    (h : runIn (substituteParameter pick p) session = (.ok q, session')) :
    runIn ((Expr.parameter p).substitute pick) session = (.ok (.parameter q), session') := by
  unfold substituteParameter at h
  rw [substitute.eq_def]
  cases hp : pick (.parameter p) with
  | none =>
      rw [hp] at h
      simp only [runIn_pure, Prod.mk.injEq, Except.ok.injEq] at h ⊢
      exact ⟨by rw [h.1], h.2⟩
  | some r =>
      simp only [hp, runIn_bind_ok, runIn_parameter_ok] at h ⊢
      obtain ⟨_, middle, hnote, rfl, rfl⟩ := h
      exact ⟨_, _, hnote, rfl⟩

/-- Substitutions in several expressions may be carried out in two rounds. -/
theorem runIn_substituteAll_append {es fs es' fs' : List Expr} {middle : Session}
    (hes : runIn (substituteAll pick es) session = (.ok es', middle))
    (hfs : runIn (substituteAll pick fs) middle = (.ok fs', session')) :
    runIn (substituteAll pick (es ++ fs)) session = (.ok (es' ++ fs'), session') := by
  induction es generalizing session es' with
  | nil =>
      obtain ⟨rfl, rfl⟩ := runIn_substituteAll_nil_ok.mp hes
      exact hfs
  | cons e es ih =>
      obtain ⟨e', first, rest, he, hrest, rfl⟩ := runIn_substituteAll_cons_ok.mp hes
      exact runIn_substituteAll_cons_ok.mpr ⟨e', first, rest ++ fs', he, ih hrest, rfl⟩

/-- A substitution in a parameter list is one in its parameters as nodes. -/
theorem runIn_substituteAll_parameters {params params' : List Parameter}
    (h : runIn (params.mapM (substituteParameter pick)) session = (.ok params', session')) :
    runIn (substituteAll pick (params.map .parameter)) session
      = (.ok (params'.map .parameter), session') := by
  induction params generalizing session params' with
  | nil =>
      simp only [List.mapM_nil, runIn_pure, Prod.mk.injEq, Except.ok.injEq] at h
      obtain ⟨rfl, rfl⟩ := h
      rfl
  | cons p params ih =>
      simp only [List.mapM_cons, runIn_bind_ok, runIn_pure, Prod.mk.injEq, Except.ok.injEq] at h
      obtain ⟨q, middle, hq, rest, last, hrest, rfl, rfl⟩ := h
      exact runIn_substituteAll_cons_ok.mpr
        ⟨.parameter q, middle, _, runIn_substitute_parameter hq, ih hrest, rfl⟩

/-- **What a substitution does at a composite node** that it does not pick: it goes through the
parts in order and makes a node of the results, with the next serial. -/
theorem parts_of_runIn_substitute {e e' : Expr} (hpick : pick e = none) (hleaf : e.isLeaf = false)
    (h : runIn (e.substitute pick) session = (.ok e', session')) :
    ∃ last, runIn (substituteAll pick e.parts) session = (.ok e'.parts, last) ∧
      e'.isLeaf = false ∧ e'.declared.length = e.declared.length ∧
      e'.serial? = some last.serials ∧ session' = { last with serials := last.serials + 1 } := by
  have hsingle : ∀ {a a' : Expr} {before after : Session},
      runIn (a.substitute pick) before = (.ok a', after) →
      runIn (substituteAll pick [a]) before = (.ok [a'], after) := by
    intro a a' before after ha
    exact runIn_substituteAll_cons_ok.mpr ⟨a', after, [], ha, rfl, rfl⟩
  cases e with
  | constant | parameter => cases hleaf
  | member serial target name type =>
      simp only [substitute, hpick, runIn_bind_ok, runIn_member_ok] at h
      obtain ⟨target', last, htarget, -, rfl, rfl⟩ := h
      exact ⟨last, hsingle htarget, rfl, rfl, rfl, rfl⟩
  | call serial method operands =>
      simp only [substitute, hpick, runIn_bind_ok, runIn_call_ok] at h
      obtain ⟨operands', last, hoperands, -, rfl, rfl⟩ := h
      rw [method.toList_splitOperands]
      exact ⟨last, hoperands, rfl, rfl, rfl, rfl⟩
  | unary serial op operand =>
      simp only [substitute, hpick, runIn_bind_ok, runIn_unary_ok] at h
      obtain ⟨operand', last, hoperand, -, rfl, rfl⟩ := h
      exact ⟨last, hsingle hoperand, rfl, rfl, rfl, rfl⟩
  | binary serial op left right =>
      simp only [substitute, hpick, runIn_bind_ok, runIn_binary_ok] at h
      obtain ⟨left', middle, hleft, right', last, hright, -, rfl, rfl⟩ := h
      have hparts := runIn_substituteAll_append (hsingle hleft) (hsingle hright)
      exact ⟨last, hparts, rfl, rfl, rfl, rfl⟩
  | lambda serial params body =>
      simp only [substitute, hpick, runIn_bind_ok, runIn_lambda_ok, runIn_toExpr_ok] at h
      obtain ⟨params', middle, hparams, body', _, hbody, _, last, ⟨-, rfl, rfl⟩, rfl, rfl⟩ := h
      have hlength : params'.length = params.length := by
        rw [(map_fillParameter_of_runIn hparams).1, List.length_map]
      have hparts := runIn_substituteAll_append (runIn_substituteAll_parameters hparams)
        (hsingle hbody)
      exact ⟨last, hparts, rfl, hlength, rfl, rfl⟩

/-- A substitution puts in what takes the place of a picked node, and notes it. -/
theorem eq_of_runIn_substitute_picked {e e' replacement : Expr} (hpick : pick e = some replacement)
    (h : runIn (e.substitute pick) session = (.ok e', session')) :
    e' = replacement ∧
      session' = { session with journal := session.journal.push (.replaced e replacement) } := by
  rw [substitute.eq_def, hpick] at h
  simp only [runIn_bind_ok, runIn_note, runIn_pure, Prod.mk.injEq, Except.ok.injEq] at h
  obtain ⟨_, _, ⟨-, rfl⟩, rfl, rfl⟩ := h
  exact ⟨rfl, rfl⟩

/-- A substitution leaves alone a leaf that it does not pick. -/
theorem eq_of_runIn_substitute_leaf {e e' : Expr} (hpick : pick e = none) (hleaf : e.isLeaf = true)
    (h : runIn (e.substitute pick) session = (.ok e', session')) : e' = e ∧ session' = session := by
  cases e with
  | constant | parameter =>
      simp only [substitute, hpick, runIn_pure, Prod.mk.injEq, Except.ok.injEq] at h
      exact ⟨h.1.symm, h.2.symm⟩
  | _ => cases hleaf

/-- Substitutions in several expressions copy each of them. -/
theorem copied_of_runIn_substituteAll {first last : Nat} {es es' : List Expr}
    (hes : ∀ e ∈ es, ∀ {session session' : Session} {e' : Expr}, first ≤ session.serials →
      session'.serials ≤ last → runIn (e.substitute pick) session = (.ok e', session') →
      Copied pick first last e e')
    (hfirst : first ≤ session.serials) (hlast : session'.serials ≤ last)
    (h : runIn (substituteAll pick es) session = (.ok es', session')) :
    List.Forall₂ (Copied pick first last) es es' := by
  induction es generalizing session es' with
  | nil =>
      rw [(runIn_substituteAll_nil_ok.mp h).1]
      exact .nil
  | cons e es ih =>
      obtain ⟨e', middle, rest, he, hrest, rfl⟩ := runIn_substituteAll_cons_ok.mp h
      have hbefore := (Grows.substitute e).serials_le he
      have hafter := (Grows.substituteAll fun e _ => Grows.substitute e).serials_le hrest
      refine .cons (hes e List.mem_cons_self hfirst (by omega) he) ?_
      exact ih (fun e he => hes e (List.mem_cons_of_mem _ he)) (by omega) hrest

/-- **A substitution gives a copy** whose new nodes have the serials handed out meanwhile. -/
theorem copied_of_runIn {e e' : Expr} {first last : Nat} (hfirst : first ≤ session.serials)
    (hlast : session'.serials ≤ last)
    (h : runIn (e.substitute pick) session = (.ok e', session')) : Copied pick first last e e' := by
  induction e using parts_induction generalizing session session' e' with
  | node e ih =>
      cases hpick : pick e with
      | some replacement =>
          rw [(eq_of_runIn_substitute_picked hpick h).1]
          exact .picked hpick
      | none =>
          by_cases hleaf : e.isLeaf = true
          · rw [(eq_of_runIn_substitute_leaf hpick hleaf h).1]
            exact .leaf hpick hleaf
          · rw [Bool.not_eq_true] at hleaf
            obtain ⟨middle, hparts, hleaf', hlength, hserial, rfl⟩ :=
              parts_of_runIn_substitute hpick hleaf h
            have hgrows := (Grows.substituteAll fun e _ => Grows.substitute e).serials_le hparts
            have hmiddle : middle.serials + 1 ≤ last := hlast
            -- The node itself takes the serial behind those of its parts.
            refine .built hpick hleaf hleaf' hserial (by omega) (by omega) hlength ?_
            exact copied_of_runIn_substituteAll (fun e he _ _ _ => ih e he) hfirst (by omega) hparts

/-- In a spliced lambda the body of the selector stands in a copy of that of the continuation. -/
theorem copied_of_runIn_splice {selector continuation spliced : Lambda} {p : Parameter}
    (hparams : continuation.params = [p])
    (h : runIn (selector.splice continuation) session = (.ok spliced, session')) :
    ∃ first last, Copied (replacing (.parameter p) selector.body) first last continuation.body
      spliced.body := by
  simp only [Lambda.splice, hparams] at h
  split at h
  next =>
    simp only [runIn_bind_ok, runIn_lambda_ok, runIn_note, runIn_pure, Prod.mk.injEq,
      Except.ok.injEq] at h
    obtain ⟨body, _, hbody, _, _, ⟨-, rfl, -⟩, _, _, -, rfl, -⟩ := h
    exact ⟨_, _, copied_of_runIn (Nat.le_refl _) (Nat.le_refl _) hbody⟩
  next => simp at h

end Build

end ExprTree
