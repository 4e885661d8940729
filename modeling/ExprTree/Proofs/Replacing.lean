/-
# When a node can be replaced

Putting a node in the place of another one of its type can fail for one reason only: the node to be
replaced is a parameter that some lambda lists, and what takes its place cannot stand in that list.
Lambdas inside the replaced node do not matter, for nothing is put in there.
-/
import ExprTree.Proofs.Rebinding

namespace ExprTree

namespace Expr

variable {node replacement : Expr}

/-! ## Nodes outside -/

/-- The node `n` stands in an expression outside of all places where `node` stands: on the way down to
it there is no `node`, and it is none itself. -/
inductive StandsOutside (node n : Expr) : Expr → Prop
  | itself : n ≠ node → StandsOutside node n n
  | under {e child : Expr} : e ≠ node → child ∈ e.children → StandsOutside node n child →
      StandsOutside node n e

/-- Replacing a node builds anew what stands outside of it. -/
theorem mem_rebuilt_replacing_iff {n e : Expr} :
    n ∈ e.rebuilt (replacing node replacement) ↔ StandsOutside node n e := by
  constructor
  · intro h
    induction e using children_induction with
    | node e ih =>
        rw [mem_rebuilt_iff, replacing_eq_none_iff] at h
        obtain ⟨hne, rfl | ⟨child, hchild, hn⟩⟩ := h
        · exact .itself hne
        · exact .under hne hchild (ih child hchild hn)
  · intro h
    induction h with
    | itself hne => exact mem_rebuilt_iff.mpr ⟨replacing_eq_none_iff.mpr hne, Or.inl rfl⟩
    | under hne hchild _ ih =>
        exact mem_rebuilt_iff.mpr ⟨replacing_eq_none_iff.mpr hne, Or.inr ⟨_, hchild, ih⟩⟩

/-! ## Parameter lists -/

/-- Where `node` is listed, `replacement` can be: it is a parameter, and unless nothing changes it is
not listed yet. -/
def CanBeListed (node replacement : Expr) (params : List Parameter) : Prop :=
  ∃ q, replacement = .parameter q ∧ (replacement = node ∨ q ∉ params)

/-- Redirecting a listed parameter leaves no parameter twice just if the other one is not listed. -/
theorem nodup_map_redirect_iff {params : List Parameter} {p q : Parameter} (hnodup : params.Nodup)
    (hp : p ∈ params) : (params.map (p.redirect q)).Nodup ↔ q = p ∨ q ∉ params := by
  constructor
  · intro h
    by_contra hboth
    push Not at hboth
    obtain ⟨hne, hq⟩ := hboth
    have hsame : p.redirect q p = p.redirect q q := by simp [Parameter.redirect]
    exact hne (List.inj_on_of_nodup_map h hp hq hsame).symm
  · rintro (rfl | hq)
    · have hid : q.redirect q = id := by
        funext r
        simp only [Parameter.redirect, id, ite_eq_right_iff]
        exact Eq.symm
      rwa [hid, List.map_id]
    · exact List.Nodup.map_on (fun a ha b hb => redirect_injective hq ha hb) hnodup

/-- A parameter list takes what replaces a node just if that can be listed where the node is. -/
theorem rebinds_replacing_iff {params : List Parameter} (hnodup : params.Nodup) :
    Rebinds (replacing node replacement) params ↔
      ∀ p ∈ params, .parameter p = node → CanBeListed node replacement params := by
  by_cases hlisted : ∃ p ∈ params, .parameter p = node
  · obtain ⟨p, hp, rfl⟩ := hlisted
    have hcan : (∀ q ∈ params, Expr.parameter q = .parameter p →
        CanBeListed (.parameter p) replacement params) ↔
        CanBeListed (.parameter p) replacement params :=
      ⟨fun h => h p hp rfl, fun h _ _ _ => h⟩
    rw [hcan]
    constructor
    · rintro ⟨hparameters, hfilled⟩
      obtain ⟨q, rfl⟩ := hparameters p hp replacement (by simp [replacing])
      rw [fillParameter_replacing, nodup_map_redirect_iff hnodup hp] at hfilled
      exact ⟨q, rfl, hfilled.imp_left (congrArg _)⟩
    · rintro ⟨q, rfl, hq⟩
      refine ⟨fun r _ filled hfilled => ?_, ?_⟩
      · exact ⟨q, (replacing_eq_some_iff.mp hfilled).2⟩
      · rw [fillParameter_replacing, nodup_map_redirect_iff hnodup hp]
        exact hq.imp_left Expr.parameter.inj
  · push Not at hlisted
    have hunpicked : ∀ p ∈ params, replacing node replacement (.parameter p) = none :=
      fun p hp => replacing_eq_none_iff.mpr (hlisted p hp)
    have hfilled : params.map (fillParameter (replacing node replacement)) = params := by
      refine (List.map_congr_left fun p hp => ?_).trans (List.map_id params)
      rw [fillParameter, hunpicked p hp, id]
    refine ⟨fun _ p hp heq => absurd heq (hlisted p hp), fun _ => ⟨fun p hp r hr => ?_, ?_⟩⟩
    · rw [hunpicked p hp] at hr
      cases hr
    · rwa [hfilled]

/-- A replacement is taken by all lists just if it can be listed wherever the node is, outside of the
places where it stands itself. -/
theorem rebindsAll_replacing_iff {e : Expr} (he : e.WellFormed) :
    RebindsAll (replacing node replacement) e ↔
      ∀ serial params body, StandsOutside node (.lambda serial params body) e →
        ∀ p ∈ params, .parameter p = node → CanBeListed node replacement params := by
  simp only [RebindsAll, mem_rebuilt_replacing_iff]
  refine forall_congr' fun serial => forall_congr' fun params => forall_congr' fun body =>
    forall_congr' fun houtside => rebinds_replacing_iff ?_
  have hnode := rebuilt_subset_nodes e ((@mem_rebuilt_replacing_iff node node _ e).mpr houtside)
  exact (wellFormed_lambda.mp (he.of_mem_nodes hnode)).1

end Expr

namespace Workspace

open ExprTree.Expr

/-- **When a node can be replaced at its own type.** A replacement of the type of the node succeeds
just if it can be listed in every lambda that lists the node and does not itself stand in it. The
result has the type of the expression, and what cannot be built otherwise is a lambda. -/
theorem Reachable.replace_outcome {w : Workspace} (hw : w.Reachable) {tree node replacement : Expr}
    (htree : tree ∈ w.exprs) (htype : replacement.type = node.type) {session last : Session}
    {outcome : Except Error Expr}
    (hrun : (tree.replace node replacement).runIn session = (outcome, last)) :
    ((∃ e, outcome = .ok e) ↔
      ∀ serial params body, StandsOutside node (.lambda serial params body) tree →
        ∀ p ∈ params, .parameter p = node →
          ∃ q, replacement = .parameter q ∧ (replacement = node ∨ q ∉ params)) ∧
    (∀ e, outcome = .ok e → e.type = tree.type) ∧
    (∀ error, outcome = .error error →
      ∃ fault, error = .invalidNode fault ∧ fault.kind = .lambda) := by
  have hwell := (hw.sound.exprs tree htree).wellFormed
  have hpick : KeepsTypes (replacing node replacement) := .replacing htype
  have hfails := Build.FailsOnlyIf.substitute hwell hpick session
  change Build.FailsOnlyIf _ (tree.replace node replacement) session at hfails
  refine ⟨(Iff.trans ?_ (rebindsAll_replacing_iff hwell)), ?_, ?_⟩
  · constructor
    · rintro ⟨e, rfl⟩
      exact (substituted_of_runIn hrun).rebindsAll
    · intro hrebinds
      obtain ⟨e, last', hok⟩ := hfails.succeeds (not_not.mpr hrebinds)
      rw [hrun] at hok
      exact ⟨e, congrArg Prod.fst hok⟩
  · rintro e rfl
    exact (substituted_of_runIn hrun).type_eq hpick
  · rintro error rfl
    exact (hfails.of_error error (by rw [hrun])).2

namespace Pairs

def x : Parameter := ⟨0, some "x", .boolean⟩

def y : Parameter := ⟨1, some "y", .boolean⟩

def z : Parameter := ⟨2, some "z", .boolean⟩

/-- `(x, y) => x`. -/
def first : Expr := .lambda 0 [x, y] (.parameter x)

/-- Three parameters, and a lambda over two of them. -/
def workspace : Workspace where
  session := { serials := 1, parameters := 3 }
  exprs := [first, .parameter z, .parameter y, .parameter x]
  lambdas := [⟨[x, y], .parameter x⟩]

theorem reachable : workspace.Reachable := by
  have hx : Reachable ⟨{ parameters := 1 }, [.parameter x], []⟩ :=
    .step .start (.built (.parameter (some "x") .boolean) rfl)
  have hy : Reachable ⟨{ parameters := 2 }, [.parameter y, .parameter x], []⟩ :=
    .step hx (.built (.parameter (some "y") .boolean) rfl)
  have hz : Reachable ⟨{ parameters := 3 }, [.parameter z, .parameter y, .parameter x], []⟩ :=
    .step hy (.built (.parameter (some "z") .boolean) rfl)
  have hlambda : Reachable ⟨{ parameters := 3 }, [.parameter z, .parameter y, .parameter x],
      [⟨[x, y], .parameter x⟩]⟩ :=
    .step hz (.builtLambda (@BuildsLambda.lambda _ [x, y] (.parameter x) (by simp) (by simp)) rfl)
  exact .step hlambda (.built (@Builds.toExpr _ ⟨[x, y], .parameter x⟩ (by simp)) rfl)

/-- In the lambda the third parameter can take the place of the first one. The second parameter cannot,
for it is listed already. -/
theorem replace_first :
    (∃ e, ((first.replace (.parameter x) (.parameter z)).runIn workspace.session).1 = .ok e ∧
      e.type = first.type) ∧
    ∃ fault, ((first.replace (.parameter x) (.parameter y)).runIn workspace.session).1
      = .error (.invalidNode fault) ∧ fault.kind = .lambda := by
  have houtcome := fun q htype => @reachable.replace_outcome _ first (.parameter x) (.parameter q)
    (by simp [workspace]) htype workspace.session _ _ rfl
  obtain ⟨hz, htype, -⟩ := houtcome z rfl
  obtain ⟨hy, -, herror⟩ := houtcome y rfl
  constructor
  · obtain ⟨e, hok⟩ := hz.mpr fun serial params body houtside p hp heq => by
      cases houtside with
      | itself => exact ⟨z, rfl, Or.inr (by decide)⟩
      | under _ hchild hbelow =>
          cases List.mem_singleton.mp hchild
          cases hbelow with
          | under _ hchild => cases hchild
    exact ⟨e, hok, htype e hok⟩
  · rcases hrun : ((first.replace (.parameter x) (.parameter y)).runIn workspace.session).1
      with error | e
    · obtain ⟨fault, rfl, hkind⟩ := herror error hrun
      exact ⟨fault, rfl, hkind⟩
    · obtain ⟨q, hq, hlist⟩ := hy.mp ⟨e, hrun⟩ 0 [x, y] (.parameter x) (.itself (by decide)) x
        List.mem_cons_self rfl
      cases hq
      exact absurd hlist (by decide)

end Pairs

end Workspace

end ExprTree
