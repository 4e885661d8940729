/-
# Hygiene of spliced lambdas

The body of the selector is put as it is wherever the continuation uses its parameter, below the
lambdas of the continuation that stand there. Nothing is captured just if none of these lambdas
declares the parameter itself or a parameter that is free in the body of the selector; parameters of
nested lambdas are not renamed.
-/
import ExprTree.Proofs.Combined
import ExprTree.Proofs.Outcome

namespace ExprTree

namespace Expr

/-! ## Places -/

/-- The node at a place, if there is one. A place is the list of positions among the children on the
way down to it. -/
def at? : List Nat → Expr → Option Expr
  | [], e => some e
  | position :: place, e => e.children[position]?.bind (at? place)

/-- The parameters declared by the lambdas that stand above a place. -/
def declaredAbove : List Nat → Expr → List Parameter
  | [], _ => []
  | position :: place, e =>
      e.declared ++ (e.children[position]?.map (declaredAbove place)).getD []

/-- The lambdas above a place are lambdas of the expression. -/
theorem declaredAbove_subset_binders (place : List Nat) (e : Expr) :
    e.declaredAbove place ⊆ e.binders := by
  induction place generalizing e with
  | nil => exact List.nil_subset _
  | cons position place ih =>
      intro q hq
      rw [declaredAbove, List.mem_append] at hq
      rcases hq with hq | hq
      · exact List.mem_flatMap.mpr ⟨e, mem_nodes_self e, hq⟩
      · cases hchild : e.children[position]? with
        | none => simp [hchild] at hq
        | some child =>
            have hnode := mem_nodes_of_mem_children (List.mem_of_getElem? hchild)
            rw [hchild] at hq
            exact binders_subset hnode (ih child hq)

variable {pick : Pick}

/-- What is below a node that is not picked is substituted in child by child, and the node declares
what takes the place of its parameters. -/
theorem Substituted.children {e e' : Expr} (h : Substituted pick e e') (hpick : pick e = none) :
    List.Forall₂ (Substituted pick) e.children e'.children ∧
      e'.declared = e.declared.map (fillParameter pick) ∧
      ∀ p ∈ e.declared, ∀ r, pick (.parameter p) = some r → ∃ q, r = .parameter q := by
  cases h with
  | picked h =>
      rw [hpick] at h
      cases h
  | constant | parameter => exact ⟨.nil, rfl, nofun⟩
  | member _ htarget _ => exact ⟨.cons htarget .nil, rfl, nofun⟩
  | call _ hoperands _ => exact ⟨hoperands, rfl, nofun⟩
  | unary _ hoperand _ => exact ⟨.cons hoperand .nil, rfl, nofun⟩
  | binary _ hleft hright _ => exact ⟨.cons hleft (.cons hright .nil), rfl, nofun⟩
  | lambda _ hparams hbody _ => exact ⟨.cons hbody .nil, rfl, hparams⟩

/-- What matches the entry at a position stands at that position. -/
theorem exists_getElem?_of_forall₂ {α β : Type} {R : α → β → Prop} {as : List α} {bs : List β}
    (h : List.Forall₂ R as bs) {position : Nat} {a : α} (ha : as[position]? = some a) :
    ∃ b, bs[position]? = some b ∧ R a b := by
  induction h generalizing position with
  | nil => cases ha
  | @cons a' b _ _ hab _ ih =>
      cases position with
      | zero =>
          obtain rfl := Option.some.inj ha
          exact ⟨b, rfl, hab⟩
      | succ position => exact ih ha

/-- **Each copy stands where the parameter stood**, below the same lambdas up to what took the place
of their parameters. -/
theorem Substituted.at_place {p : Parameter} {replacement e e' : Expr} {place : List Nat}
    (h : Substituted (replacing (.parameter p) replacement) e e')
    (hplace : e.at? place = some (.parameter p)) :
    e'.at? place = some replacement ∧
      e'.declaredAbove place
        = (e.declaredAbove place).map (fillParameter (replacing (.parameter p) replacement)) ∧
      (p ∈ e.declaredAbove place → ∃ q, replacement = .parameter q) := by
  induction place generalizing e e' with
  | nil =>
      obtain rfl := Option.some.inj hplace
      cases h with
      | picked hpick =>
          rw [replacing, if_pos rfl] at hpick
          exact ⟨hpick.symm, rfl, fun h => absurd h List.not_mem_nil⟩
      | parameter hpick =>
          rw [replacing, if_pos rfl] at hpick
          cases hpick
  | cons position place ih =>
      obtain ⟨child, hchild, hplace⟩ := Option.bind_eq_some_iff.mp hplace
      -- A node with something below it is not the parameter.
      have hpick : replacing (.parameter p) replacement e = none := by
        refine if_neg ?_
        rintro rfl
        cases hchild
      obtain ⟨hchildren, hdeclared, hparams⟩ := h.children hpick
      obtain ⟨child', hchild', hsubst⟩ := exists_getElem?_of_forall₂ hchildren hchild
      obtain ⟨hcopy, habove, hparameter⟩ := ih hsubst hplace
      simp only [at?, declaredAbove, hchild, hchild', hdeclared, Option.bind_some, Option.map_some,
        Option.getD_some, List.map_append, List.mem_append]
      refine ⟨hcopy, by rw [habove], ?_⟩
      rintro (hp | hp)
      · exact hparams p hp replacement (if_pos rfl)
      · exact hparameter hp

end Expr

namespace Lambda

open ExprTree.Expr

/-- No lambda of the continuation that stands above a copy of the body of the selector declares a
parameter that is free in it. -/
def Hygienic (selector continuation spliced : Lambda) (p : Parameter) : Prop :=
  ∀ place, continuation.body.at? place = some (.parameter p) →
    ∀ q ∈ spliced.body.declaredAbove place, q ∉ selector.body.free

/-- **When a spliced lambda is hygienic.** The copies of the body of the selector stand in the place
of the parameter, and nothing is captured there just if the lambdas above the uses of the parameter
declare neither it nor a parameter that is free in the body of the selector. -/
theorem hygienic_spliceOptional_iff {selector continuation spliced : Lambda} {p : Parameter}
    {session session' : Session} (hparams : continuation.params = [p])
    (hsplice : (spliceOptional (some selector) (some continuation)).runIn session
      = (.ok spliced, session')) :
    spliced.params = selector.params ∧
    (∀ place, continuation.body.at? place = some (.parameter p) →
      spliced.body.at? place = some selector.body) ∧
    (Hygienic selector continuation spliced p ↔
      ∀ place, continuation.body.at? place = some (.parameter p) →
        ∀ q ∈ continuation.body.declaredAbove place, q ≠ p ∧ q ∉ selector.body.free) := by
  obtain ⟨-, hspliced, -, hsubst⟩ := Build.spliced_of_runIn hparams hsplice
  refine ⟨hspliced, fun place hplace => (hsubst.at_place hplace).1, ?_⟩
  refine forall_congr' fun place => forall_congr' fun hplace => ?_
  obtain ⟨-, habove, hparameter⟩ := hsubst.at_place hplace
  rw [habove, List.forall_mem_map]
  refine forall_congr' fun q => forall_congr' fun hq => ?_
  by_cases hqp : q = p
  · -- A lambda that declares the parameter comes to declare the parameter that is selected.
    subst hqp
    obtain ⟨r, hr⟩ := hparameter hq
    have hfill : fillParameter (replacing (.parameter q) selector.body) q = r := by
      simp [fillParameter, replacing, hr]
    have hfree : r ∈ selector.body.free := by
      rw [mem_free, hr]
      exact .parameter
    rw [hfill]
    exact iff_of_false (fun h => h hfree) fun h => h.1 rfl
  · have hfill : fillParameter (replacing (.parameter p) selector.body) q = q := by
      simp [fillParameter, replacing, hqp]
    rw [hfill]
    exact ⟨fun h => ⟨hqp, h⟩, fun h => h.2⟩

namespace Capture

def x : Parameter := ⟨0, some "x", .int32⟩

def y : Parameter := ⟨1, some "y", .int32⟩

def p : Parameter := ⟨2, some "p", .int32⟩

/-- `x => x`. -/
def selector : Lambda := ⟨[x], .parameter x⟩

/-- `pair(1, 2).Any(b => (b == e))`, where `b` is the parameter given and `serial` the next one. -/
def anyEqual (serial : Nat) (b : Parameter) (e : Expr) : Expr :=
  let pair := .call serial (.declared "pair" .static [.int32, .int32] (.sequence .int32))
    [.constant 0 (.int32 1) .int32, .constant 1 (.int32 2) .int32]
  .call (serial + 3) (.sequence .any .int32)
    [pair, .lambda (serial + 2) [b] (.binary (serial + 1) .eq (.parameter b) e)]

/-- `p => pair(1, 2).Any(b => (b == p))`. -/
def continuation (b : Parameter) : Lambda := ⟨[p], anyEqual 2 b (.parameter p)⟩

/-- `x => pair(1, 2).Any(b => (b == x))`. -/
def spliced (b : Parameter) : Lambda := ⟨[x], anyEqual 6 b (.parameter x)⟩

/-- `pair` gives the list of its arguments. -/
def evaluator : Evaluator := ⟨[("pair", fun _ args => .ok (.list args))]⟩

/-- With a parameter of its own the nested lambda captures nothing. -/
theorem hygienic_continuation_y : Hygienic selector (continuation y) (spliced y) p := by
  refine (hygienic_spliceOptional_iff rfl
    (rfl : (spliceOptional (some selector) (some (continuation y))).runIn
      { serials := 6, parameters := 3 } = (.ok (spliced y), _))).2.2.mpr fun place _ q hq => ?_
  have hbinders : (continuation y).body.binders = [y] := rfl
  obtain rfl := List.mem_singleton.mp (hbinders ▸ declaredAbove_subset_binders place _ hq)
  decide

/-- **A nested lambda that shares its parameter with the selector captures the copy.** Both lambdas are
closed and the splice succeeds, but the copy of `x` stands below a lambda that declares `x`: on 5,
which the selector returns, the continuation says no and the spliced lambda says yes. -/
theorem not_hygienic_continuation_x :
    selector.isClosed = true ∧ (continuation x).isClosed = true ∧
    (∃ session', (spliceOptional (some selector) (some (continuation x))).runIn
      { serials := 6, parameters := 3 } = (.ok (spliced x), session')) ∧
    ¬ Hygienic selector (continuation x) (spliced x) p ∧
    (evaluator.invoke selector [.int32 5]).value? #[] = some (.int32 5) ∧
    (evaluator.invoke (continuation x) [.int32 5]).value? #[] = some (.boolean false) ∧
    (evaluator.invoke (spliced x) [.int32 5]).value? #[] = some (.boolean true) := by
  refine ⟨rfl, rfl, ⟨_, rfl⟩, fun h => ?_, rfl, rfl, rfl⟩
  exact h [1, 0, 1] rfl x (by decide) (by decide)

end Capture

end Lambda

end ExprTree
