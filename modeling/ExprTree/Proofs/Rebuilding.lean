/-
# Copies with nothing put in

A substitution that picks nothing gives a copy: leaves and parameter lists stay what they are, composite
nodes are new, and nothing else changes. It never fails on what was built, and replacing a node that
does not stand in an expression is just this.
-/
import ExprTree.Proofs.Accounting
import ExprTree.Proofs.Outcome
import ExprTree.Proofs.Printing
import ExprTree.Proofs.Scopes

namespace ExprTree

namespace Expr

variable {node e e' : Expr}

/-! ## Nodes that do not stand in an expression -/

theorem ne_of_occurrencesIn_eq_zero (h : node.occurrencesIn e = 0) : e ≠ node := by
  rintro rfl
  rw [occurrencesIn_self] at h
  cases h

/-- What does not stand in an expression does not stand in its parts. -/
theorem occurrencesIn_eq_zero_of_mem_parts (h : node.occurrencesIn e = 0) {part : Expr}
    (hpart : part ∈ e.parts) : node.occurrencesIn part = 0 := by
  rw [occurrencesIn_of_ne (ne_of_occurrencesIn_eq_zero h), List.sum_eq_zero_iff] at h
  exact h _ (List.mem_map_of_mem hpart)

/-- What does not stand in an expression does not stand in its nodes. -/
theorem occurrencesIn_eq_zero_of_mem_nodes (h : node.occurrencesIn e = 0) {n : Expr}
    (hn : n ∈ e.nodes) : node.occurrencesIn n = 0 := by
  induction e using children_induction with
  | node e ih =>
      rcases mem_nodes_iff.mp hn with rfl | ⟨child, hchild, hn⟩
      · exact h
      · have hpart : child ∈ e.parts := List.mem_append_right _ hchild
        exact ih child hchild (occurrencesIn_eq_zero_of_mem_parts h hpart) hn

/-- What does not stand in an expression is none of the parameters that its lambdas declare. -/
theorem parameter_ne_of_occurrencesIn_eq_zero (h : node.occurrencesIn e = 0) {p : Parameter}
    (hp : p ∈ e.binders) : parameter p ≠ node := by
  obtain ⟨n, hn, hp⟩ := List.mem_flatMap.mp hp
  have hpart : parameter p ∈ n.parts := List.mem_append_left _ (List.mem_map_of_mem hp)
  have hnode := occurrencesIn_eq_zero_of_mem_nodes h hn
  exact ne_of_occurrencesIn_eq_zero (occurrencesIn_eq_zero_of_mem_parts hnode hpart)

/-! ## Substitutions that pick the same -/

section Congruence

variable {pick pick' : Pick}

theorem substituteAll_congr {es : List Expr}
    (h : ∀ e ∈ es, e.substitute pick = e.substitute pick') :
    substituteAll pick es = substituteAll pick' es := by
  induction es with
  | nil => rfl
  | cons e es ih =>
      rw [List.forall_mem_cons] at h
      rw [substituteAll, substituteAll, h.1, ih h.2]

theorem mapM_substituteParameter_congr {params : List Parameter}
    (h : ∀ p ∈ params, pick (.parameter p) = pick' (.parameter p)) :
    params.mapM (substituteParameter pick) = params.mapM (substituteParameter pick') := by
  induction params with
  | nil => rfl
  | cons p params ih =>
      rw [List.forall_mem_cons] at h
      rw [List.mapM_cons, List.mapM_cons, ih h.2, substituteParameter, substituteParameter, h.1]

/-- A substitution goes by what is picked among the nodes and the declared parameters. -/
theorem substitute_congr (hnodes : ∀ n ∈ e.nodes, pick n = pick' n)
    (hbinders : ∀ p ∈ e.binders, pick (.parameter p) = pick' (.parameter p)) :
    e.substitute pick = e.substitute pick' := by
  induction e with
  | constant | parameter =>
      rw [substitute.eq_def, substitute.eq_def, hnodes _ (mem_nodes_self _)]
  | member _ target _ _ ih | unary _ _ target ih =>
      rw [nodes, List.forall_mem_cons] at hnodes
      rw [substitute, substitute, hnodes.1, ih hnodes.2 hbinders]
  | call _ _ operands ih =>
      rw [binders_call] at hbinders
      rw [nodes, nodesAll_eq_flatMap, List.forall_mem_cons] at hnodes
      have hoperands : substituteAll pick operands = substituteAll pick' operands :=
        substituteAll_congr fun operand hmem => ih operand hmem
          (fun n hn => hnodes.2 n (List.mem_flatMap_of_mem hmem hn))
          (fun p hp => hbinders p (List.mem_flatMap_of_mem hmem hp))
      rw [substitute, substitute, hnodes.1, hoperands]
  | binary _ _ left right ihl ihr =>
      rw [binders_binary, List.forall_mem_append] at hbinders
      rw [nodes, List.forall_mem_cons, List.forall_mem_append] at hnodes
      obtain ⟨hnode, hleft, hright⟩ := hnodes
      rw [substitute, substitute, hnode, ihl hleft hbinders.1, ihr hright hbinders.2]
  | lambda _ params body ih =>
      rw [binders_lambda, List.forall_mem_append] at hbinders
      rw [nodes, List.forall_mem_cons] at hnodes
      rw [substitute, substitute, hnodes.1, ih hnodes.2 hbinders.2,
        mapM_substituteParameter_congr hbinders.1]

end Congruence

/-- **Replacing a node that does not stand in an expression is rebuilding the expression.** -/
theorem replace_eq_rebuild (h : node.occurrencesIn e = 0) (replacement : Expr) :
    e.replace node replacement = e.rebuild := by
  refine substitute_congr (fun n hn => ?_) fun p hp => ?_
  · have hnode := occurrencesIn_eq_zero_of_mem_nodes h hn
    exact replacing_eq_none_iff.mpr (ne_of_occurrencesIn_eq_zero hnode)
  · exact replacing_eq_none_iff.mpr (parameter_ne_of_occurrencesIn_eq_zero h hp)

/-! ## Copies -/

theorem fillParameter_none : fillParameter (fun _ => none) = id := rfl

@[simp] theorem fill_none (e : Expr) : e.fill (fun _ => none) = e := by
  induction e with
  | constant | parameter => rfl
  | member _ _ _ _ ih | unary _ _ _ ih => rw [fill, ih]
  | call _ _ operands ih =>
      rw [fill, fillAll_eq_map]
      exact congrArg _ ((List.map_congr_left ih).trans (List.map_id operands))
  | binary _ _ _ _ ihl ihr => rw [fill, ihl, ihr]
  | lambda _ params _ ih => rw [fill, ih, fillParameter_none, List.map_id]

@[simp] theorem size_shape (e : Expr) : e.shape.size = e.size := by
  induction e with
  | constant | parameter => rfl
  | call _ _ operands ih =>
      simp [size, sizeAll_eq_sum, Function.comp_def, List.map_congr_left ih]
  | member _ _ _ _ ih | unary _ _ _ ih | lambda _ _ _ ih => simp [size, ih]
  | binary _ _ _ _ ihl ihr => simp [size, ihl, ihr]

/-- All composite nodes of a copy with nothing put in are new. -/
theorem Copied.exists_serial_of_mem_nodes {first last : Nat}
    (h : Copied (fun _ => none) first last e e') {n : Expr} (hn : n ∈ e'.nodes)
    (hleaf : n.isLeaf = false) : ∃ serial, n.serial? = some serial ∧ first ≤ serial := by
  induction e using children_induction generalizing e' with
  | node e ih =>
      rcases mem_nodes_iff.mp hn with rfl | ⟨child', hchild', hn⟩
      · cases h with
        | picked h => cases h
        | leaf _ h => cases hleaf ▸ h
        | built _ _ _ hserial hfirst => exact ⟨_, hserial, hfirst⟩
      · obtain ⟨child, hchild, hcopied⟩ := exists_of_forall₂_right (h.children rfl) hchild'
        exact ih child hchild hcopied hn

end Expr

namespace Comparison

/-- Reports do not show serials. -/
theorem ignoresSerials_reporting {evaluator : Evaluator} : (reporting evaluator).IgnoresSerials := by
  intro e e' hshape quantifier history
  have hshown : ∀ a : Expr, EvalFault.failure (.notLambda quantifier a)
      = s!"{quantifier} expects a lambda predicate, got {a.print}" := fun _ => rfl
  have hfailure : EvalFault.failure (.notLambda quantifier e)
      = EvalFault.failure (.notLambda quantifier e') := by
    rw [hshown, hshown, Expr.print_eq_of_shape_eq hshape]
  exact congrArg (fun failure => (Except.error failure, history)) hfailure

end Comparison

namespace Expr

/-- The second expression is the first one with new composite nodes, that is, with ones that stand in
none of the expressions `known`. So it prints the same, is as large, has the same free parameters and
is reported to come to the same wherever it is evaluated. -/
structure IsCopy (known : List Expr) (e copy : Expr) : Prop where
  shape_eq : copy.shape = e.shape
  composite_new : ∀ n ∈ copy.nodes, n.isLeaf = false → ∀ other ∈ known, n ∉ other.nodes
  print_eq : copy.print = e.print
  size_eq : copy.size = e.size
  free_eq : copy.free = e.free
  reportsAlike : ∀ (evaluator : Evaluator) (frames : Frames),
    (evaluator.evaluate frames copy).ReportsAlike (evaluator.evaluate frames e)

/-- Everything but new serials follows from the shape. -/
theorem IsCopy.of_shape_eq {known : List Expr} {e copy : Expr} (h : copy.shape = e.shape)
    (hnew : ∀ n ∈ copy.nodes, n.isLeaf = false → ∀ other ∈ known, n ∉ other.nodes) :
    IsCopy known e copy where
  shape_eq := h
  composite_new := hnew
  print_eq := print_eq_of_shape_eq h
  size_eq := by rw [← size_shape copy, h, size_shape]
  free_eq := by rw [← free_shape copy, h, free_shape]
  reportsAlike _ _ :=
    (Comparison.simulates_of_shape_eq Comparison.ignoresSerials_reporting h).value

end Expr

namespace Build

open ExprTree.Expr

/-- **Rebuilding never fails** on a well-formed expression. -/
theorem succeeds_rebuild {e : Expr} (he : e.WellFormed) (session : Session) :
    Succeeds e.rebuild session := by
  have hpick : KeepsTypes fun _ => none := nofun
  have hlambdas : RebindsAll (fun _ => none) e := by
    intro serial params body hmem
    have hnodup := (wellFormed_lambda.mp (he.of_mem_nodes (rebuilt_subset_nodes e hmem))).1
    refine ⟨nofun, ?_⟩
    rwa [fillParameter_none, List.map_id]
  exact succeeds_substitute he hpick hlambdas session

end Build

namespace Workspace

open ExprTree.Expr

/-- What rebuilding an expression that was built gives is a copy. -/
theorem Reachable.isCopy_of_runIn {w : Workspace} (hw : w.Reachable) {tree copy : Expr}
    {last : Session} (hrun : tree.rebuild.runIn w.session = (.ok copy, last)) :
    IsCopy w.exprs tree copy := by
  have hcopied := Build.copied_of_runIn (Nat.le_refl _) (Nat.le_refl _) hrun
  have hshape := (substituted_of_runIn hrun).shape_eq
  rw [fill_none] at hshape
  refine .of_shape_eq hshape fun n hn hleaf other hother hmem => ?_
  -- The node is new, and the serials in what is held were handed out before.
  obtain ⟨serial, hserial, hfirst⟩ := hcopied.exists_serial_of_mem_nodes hn hleaf
  exact Nat.not_lt.mpr hfirst
    (hw.numbered other (mem_held_of_mem_exprs hother) n hmem serial hserial)

/-- **Rebuilding gives a copy.** It succeeds on every expression that was built, its result is the
expression up to new composite nodes, and the journal stays as it is. Replacing a node that does not
stand in the expression does the same, whatever it is replaced with. -/
theorem Reachable.rebuild_copies {w : Workspace} (hw : w.Reachable) {tree : Expr}
    (htree : tree ∈ w.exprs) :
    ∃ copy last, tree.rebuild.runIn w.session = (.ok copy, last) ∧ IsCopy w.exprs tree copy ∧
      last.journal = w.session.journal ∧
      ∀ node, node.occurrencesIn tree = 0 → ∀ replacement,
        (tree.replace node replacement).runIn w.session = (.ok copy, last) := by
  have hvalid := hw.sound.exprs tree htree
  obtain ⟨copy, last, hrun⟩ := Build.succeeds_rebuild hvalid.wellFormed w.session
  -- The journal is that of a replacement: a parameter that was not handed out yet is not there.
  have habsent : (parameter ⟨w.session.parameters, none, .object⟩).occurrencesIn tree = 0 :=
    occurrencesIn_of_notMem_parameters fun hp => Nat.lt_irrefl _ (hvalid.handedOut _ hp)
  have hreplaced := hrun
  rw [← replace_eq_rebuild habsent tree] at hreplaced
  have hjournal := Build.journal_of_runIn_replace hreplaced
  rw [habsent, List.replicate_zero, List.append_nil] at hjournal
  refine ⟨copy, last, hrun, hw.isCopy_of_runIn hrun, Array.toList_inj.mp hjournal,
    fun node hnode replacement => ?_⟩
  rw [replace_eq_rebuild hnode, hrun]

namespace Squares

def x : Parameter := ⟨0, some "x", .int32⟩

def y : Parameter := ⟨1, some "y", .string⟩

/-- `-x`. -/
def negated : Expr := .unary 0 .negate (.parameter x)

/-- `x => (-x * -x)`, with one node for both operands. -/
def square : Expr := .lambda 2 [x] (.binary 1 .mul negated negated)

/-- The lambda built anew, with a node for each operand. -/
def rebuilt : Expr :=
  .lambda 6 [x] (.binary 5 .mul (.unary 3 .negate (.parameter x)) (.unary 4 .negate (.parameter x)))

def workspace : Workspace where
  session := { serials := 3, parameters := 2 }
  exprs := [square, .binary 1 .mul negated negated, negated, .parameter y, .parameter x]
  lambdas := [⟨[x], .binary 1 .mul negated negated⟩]

theorem reachable : workspace.Reachable := by
  have hx : Reachable ⟨{ parameters := 1 }, [.parameter x], []⟩ :=
    .step .start (.built (.parameter (some "x") .int32) rfl)
  have hy : Reachable ⟨{ parameters := 2 }, [.parameter y, .parameter x], []⟩ :=
    .step hx (.built (.parameter (some "y") .string) rfl)
  have hnegated : Reachable ⟨{ serials := 1, parameters := 2 },
      [negated, .parameter y, .parameter x], []⟩ :=
    .step hy (.built (@Builds.unary _ (.parameter x) .negate (by simp)) rfl)
  have hproduct : Reachable ⟨{ serials := 2, parameters := 2 },
      [.binary 1 .mul negated negated, negated, .parameter y, .parameter x], []⟩ :=
    .step hnegated (.built (@Builds.binary _ negated negated .mul (by simp) (by simp)) rfl)
  have hlambda : Reachable ⟨{ serials := 2, parameters := 2 },
      [.binary 1 .mul negated negated, negated, .parameter y, .parameter x],
      [⟨[x], .binary 1 .mul negated negated⟩]⟩ :=
    .step hproduct (.builtLambda (@BuildsLambda.lambda _ [x] (.binary 1 .mul negated negated)
      (by simp) (by simp)) rfl)
  exact .step hlambda (.built (@Builds.toExpr _ ⟨[x], .binary 1 .mul negated negated⟩ (by simp)) rfl)

/-- The node that stands in two places is built anew in both. A parameter that is not there can be
replaced with something of another type. -/
theorem rebuild_copies_square :
    (square.rebuild.runIn workspace.session).1 = .ok rebuilt ∧
    IsCopy workspace.exprs square rebuilt ∧
    ((parameter y).occurrencesIn square = 0 ∧
      ((square.replace (.parameter y) negated).runIn workspace.session).1 = .ok rebuilt) := by
  have hrebuilt : (square.rebuild.runIn workspace.session).1 = .ok rebuilt := rfl
  have habsent : (parameter y).occurrencesIn square = 0 := by decide
  obtain ⟨copy, last, hrun, hcopy, -, hreplace⟩ :=
    @reachable.rebuild_copies _ square (by simp [workspace])
  rw [hrun] at hrebuilt
  obtain rfl := Except.ok.inj hrebuilt
  refine ⟨by rw [hrun], hcopy, habsent, ?_⟩
  rw [hreplace _ habsent]

end Squares

end Workspace

end ExprTree
