/-
# The order of replacements

Two replacements of parameters may be carried out in either order, a join may go through its positions
in any order, and putting a new parameter in the place of another one can be taken back. The results
are the same but for the serials of composite nodes.
-/
import ExprTree.Proofs.Rebinding
import ExprTree.Proofs.SubstitutionLaws

namespace ExprTree

/-! ## There and back -/

namespace Parameter

variable {x y p : Parameter}

/-- Nothing is redirected to where the redirection starts. -/
theorem redirect_ne (hp : p ≠ y) : x.redirect y p ≠ x := by
  intro h
  unfold redirect at h
  split at h
  next hpx => exact hp (hpx.trans h.symm)
  next hpx => exact hpx h

/-- A redirection to a new parameter can be taken back. -/
theorem redirect_redirect (hp : p ≠ y) : y.redirect x (x.redirect y p) = p := by
  by_cases hpx : p = x
  · simp [redirect, hpx]
  · simp [redirect, hpx, hp]

end Parameter

namespace Expr

/-- Renaming a parameter to one that does not stand in the expression can be taken back. -/
theorem rename_redirect_back {x y : Parameter} {e : Expr} (hy : y ∉ e.parameters) :
    (e.rename (x.redirect y)).rename (y.redirect x) = e := by
  have hback : ∀ p ∈ e.parameters, (y.redirect x ∘ x.redirect y) p = id p := by
    intro p hp
    exact Parameter.redirect_redirect fun h => hy (h ▸ hp)
  rw [rename_rename, rename_congr hback, rename_id]

end Expr

/-! ## Positions of a join -/

/-- One position of a join: the two parameters there and the new one that replaces them. -/
structure JoinPosition where
  left : Parameter
  right : Parameter
  fresh : Parameter

section Positions

variable {positions positions' : List JoinPosition} {old : JoinPosition → Parameter}

/-- The renaming of a join sends the old parameter of a position to the new one. -/
theorem unifier_of_mem (hnodup : (positions.map old).Nodup)
    (hnew : ∀ a ∈ positions, ∀ b ∈ positions, a.fresh ≠ old b) {position : JoinPosition}
    (hposition : position ∈ positions) :
    unifier (positions.map old) (positions.map JoinPosition.fresh) (old position)
      = position.fresh := by
  have hdisjoint : ∀ f ∈ positions.map JoinPosition.fresh, f ∉ positions.map old := by
    intro f hf hmem
    obtain ⟨a, ha, rfl⟩ := List.mem_map.mp hf
    obtain ⟨b, hb, heq⟩ := List.mem_map.mp hmem
    exact hnew a ha b hb heq.symm
  have hmap := map_unifier hnodup (by simp) hdisjoint
  rw [List.map_map, List.map_inj_left] at hmap
  exact hmap position hposition

/-- **The order of the positions does not matter for the renaming of a join.** -/
theorem unifier_eq_of_perm (hperm : positions.Perm positions') (hnodup : (positions.map old).Nodup)
    (hnew : ∀ a ∈ positions, ∀ b ∈ positions, a.fresh ≠ old b) :
    unifier (positions.map old) (positions.map JoinPosition.fresh)
      = unifier (positions'.map old) (positions'.map JoinPosition.fresh) := by
  have hnodup' : (positions'.map old).Nodup := (hperm.map old).nodup_iff.mp hnodup
  have hnew' : ∀ a ∈ positions', ∀ b ∈ positions', a.fresh ≠ old b :=
    fun a ha b hb => hnew a (hperm.mem_iff.mpr ha) b (hperm.mem_iff.mpr hb)
  funext p
  by_cases hp : p ∈ positions.map old
  · obtain ⟨position, hposition, rfl⟩ := List.mem_map.mp hp
    rw [unifier_of_mem hnodup hnew hposition,
      unifier_of_mem hnodup' hnew' (hperm.mem_iff.mp hposition)]
  · have hp' : p ∉ positions'.map old := fun h => hp ((hperm.map old).mem_iff.mpr h)
    rw [unifier_of_notMem hp, unifier_of_notMem hp']

end Positions

/-! ## Runs -/

namespace Build

open ExprTree.Expr

variable {session session' : Session} {x y : Parameter} {t e : Expr}

/-- The shape of what two replacements of parameters give. -/
theorem shape_of_runIn_replace_replace {a b : Expr}
    (h : runIn (do (← t.replace (.parameter x) a).replace (.parameter y) b) session
      = (.ok e, session')) :
    e.shape = ((t.fill (replacing (.parameter x) a)).fill (replacing (.parameter y) b)).shape := by
  rw [runIn_bind_ok] at h
  obtain ⟨first, middle, hfirst, hsecond⟩ := h
  have hfirst := (substituted_of_runIn hfirst).shape_eq
  have hsecond := (substituted_of_runIn hsecond).shape_eq
  rw [hsecond, shape_fill_replacing, hfirst, ← shape_fill_replacing]

/-- **Putting a new parameter in the place of another one of its type can be taken back.** -/
theorem exists_runIn_replace_back (session : Session) (ht : t.WellFormed) (htype : y.type = x.type)
    (hy : y ∉ t.parameters) :
    ∃ back last, runIn (do
        (← t.replace (.parameter x) (.parameter y)).replace (.parameter y) (.parameter x)) session
      = (.ok back, last) ∧ back.shape = t.shape := by
  obtain ⟨there, middle, hthere, -, hwell, -, -⟩ :=
    exists_runIn_replace_fresh session ht htype hy
  have hthereShape := (substituted_of_runIn hthere).shape_eq_rename
  -- All places of `x` were taken by `y`, so `x` is new to what came out.
  have hx : x ∉ there.parameters := by
    rw [← parameters_shape, hthereShape, parameters_rename, parameters_shape]
    intro hmem
    obtain ⟨p, hp, hpx⟩ := List.mem_map.mp hmem
    have hpy : p ≠ y := fun h => hy (h ▸ hp)
    exact Parameter.redirect_ne hpy hpx
  obtain ⟨back, last, hback, -, -, -, -⟩ :=
    exists_runIn_replace_fresh middle hwell htype.symm hx
  have hbackShape := (substituted_of_runIn hback).shape_eq_rename
  refine ⟨back, last, runIn_bind_ok.mpr ⟨there, middle, hthere, hback⟩, ?_⟩
  rw [hbackShape, hthereShape]
  exact rename_redirect_back (by rwa [parameters_shape])

/-- **A join may go through its positions in any order.** -/
theorem shape_eq_of_runIn_unifyParams_perm {positions positions' : List JoinPosition}
    {left right a b a' b' : Expr} {last last' : Session} (hperm : positions.Perm positions')
    (hleft : (positions.map JoinPosition.left).Nodup)
    (hright : (positions.map JoinPosition.right).Nodup)
    (hnew : ∀ p ∈ positions, ∀ q ∈ positions, p.fresh ≠ q.left ∧ p.fresh ≠ q.right)
    (h : runIn (Lambda.unifyParams (positions.map JoinPosition.left)
      (positions.map JoinPosition.right) (positions.map JoinPosition.fresh) left right) session
      = (.ok (a, b), last))
    (h' : runIn (Lambda.unifyParams (positions'.map JoinPosition.left)
      (positions'.map JoinPosition.right) (positions'.map JoinPosition.fresh) left right) session'
      = (.ok (a', b'), last')) :
    a.shape = a'.shape ∧ b.shape = b'.shape := by
  obtain ⟨ha, hb⟩ := shape_of_runIn_unifyParams (by simp) (by simp) h
  obtain ⟨ha', hb'⟩ := shape_of_runIn_unifyParams (by simp) (by simp) h'
  have hlefts := unifier_eq_of_perm hperm hleft fun p hp q hq => (hnew p hp q hq).1
  have hrights := unifier_eq_of_perm hperm hright fun p hp q hq => (hnew p hp q hq).2
  constructor
  · rw [ha, ha', hlefts]
  · rw [hb, hb', hrights]

end Build

namespace Workspace

/-- **Replacements commute and can be taken back.** Take any expression that was built. Replacing one
parameter and then another one gives the same as replacing them the other way round, if what is put in
for either does not contain the other one and both ways succeed; so a join gives the same bodies
whatever order it goes through its positions in. Replacing a parameter by one of its type that does
not stand in the expression, and that one by the first again, succeeds and gives the expression back.
All this is up to the serials of composite nodes. -/
theorem Reachable.replace_interchange {w : Workspace} (hw : w.Reachable) {t : Expr}
    (ht : t ∈ w.exprs) :
    (∀ (x y : Parameter) (a b : Expr), x ≠ y → x ∉ b.parameters → y ∉ a.parameters →
      ∀ session session' left right,
      (Build.runIn (do (← t.replace (.parameter x) a).replace (.parameter y) b) session).1
        = .ok left →
      (Build.runIn (do (← t.replace (.parameter y) b).replace (.parameter x) a) session').1
        = .ok right →
      left.shape = right.shape) ∧
    (∀ positions positions' : List JoinPosition, positions.Perm positions' →
      (positions.map JoinPosition.left).Nodup → (positions.map JoinPosition.right).Nodup →
      (∀ p ∈ positions, ∀ q ∈ positions, p.fresh ≠ q.left ∧ p.fresh ≠ q.right) →
      ∀ other session session' bodies bodies',
      (Build.runIn (Lambda.unifyParams (positions.map JoinPosition.left)
        (positions.map JoinPosition.right) (positions.map JoinPosition.fresh) t other) session).1
        = .ok bodies →
      (Build.runIn (Lambda.unifyParams (positions'.map JoinPosition.left)
        (positions'.map JoinPosition.right) (positions'.map JoinPosition.fresh) t other) session').1
        = .ok bodies' →
      bodies.1.shape = bodies'.1.shape ∧ bodies.2.shape = bodies'.2.shape) ∧
    ∀ x y : Parameter, y.type = x.type → y ∉ t.parameters → ∀ session, ∃ back,
      (Build.runIn (do
        (← t.replace (.parameter x) (.parameter y)).replace (.parameter y) (.parameter x))
        session).1 = .ok back ∧ back.shape = t.shape := by
  refine ⟨?_, ?_, ?_⟩
  · intro x y a b hxy hx hy session session' left right hleft hright
    have hleft := Build.shape_of_runIn_replace_replace (Prod.ext hleft rfl)
    have hright := Build.shape_of_runIn_replace_replace (Prod.ext hright rfl)
    rw [hleft, hright, Expr.fill_replacing_comm hxy hx hy]
  · intro positions positions' hperm hleft hright hnew other session session' bodies bodies' h h'
    exact Build.shape_eq_of_runIn_unifyParams_perm hperm hleft hright hnew (Prod.ext h rfl)
      (Prod.ext h' rfl)
  · intro x y htype hy session
    have hwell := (hw.sound.exprs t ht).wellFormed
    obtain ⟨back, last, hrun, hshape⟩ := Build.exists_runIn_replace_back session hwell htype hy
    exact ⟨back, congrArg Prod.fst hrun, hshape⟩

namespace Negations

def x : Parameter := ⟨0, some "x", .boolean⟩

def y : Parameter := ⟨1, some "y", .boolean⟩

def z : Parameter := ⟨2, some "z", .boolean⟩

def u : Parameter := ⟨3, some "u", .boolean⟩

/-- `!p`. -/
def negated (serial : Nat) (p : Parameter) : Expr := .unary serial .not (.parameter p)

/-- `(x && y)`. -/
def both : Expr := .binary 2 .andAlso (.parameter x) (.parameter y)

/-- Four parameters, the negations of two of them, and a test of these two. -/
def workspace : Workspace where
  session := { serials := 3, parameters := 4 }
  exprs := [both, negated 1 y, negated 0 x, .parameter u, .parameter z, .parameter y, .parameter x]

theorem reachable : workspace.Reachable := by
  have hparameters : Reachable ⟨{ parameters := 4 }, workspace.exprs.drop 3, []⟩ :=
    .step (.step (.step (.step .start
      (.built (.parameter (some "x") .boolean) rfl))
      (.built (.parameter (some "y") .boolean) rfl))
      (.built (.parameter (some "z") .boolean) rfl))
      (.built (.parameter (some "u") .boolean) rfl)
  have hnegated : Reachable ⟨{ serials := 2, parameters := 4 }, workspace.exprs.drop 1, []⟩ :=
    .step (.step hparameters
      (.built (@Builds.unary _ (.parameter x) .not (by simp [workspace])) rfl))
      (.built (@Builds.unary _ (.parameter y) .not (by simp [workspace])) rfl)
  exact .step hnegated (.built (@Builds.binary _ (.parameter x) (.parameter y) .andAlso
    (by simp [workspace]) (by simp [workspace])) rfl)

/-- The two parameters of the test are negated in either order, a join that lists them in swapped
positions may begin with either position, and one of them becomes a third one and itself again. -/
theorem replace_both_interchange :
    (∃ left right,
      (Build.runIn (do
        (← both.replace (.parameter x) (negated 0 x)).replace (.parameter y) (negated 1 y))
        workspace.session).1 = .ok left ∧
      (Build.runIn (do
        (← both.replace (.parameter y) (negated 1 y)).replace (.parameter x) (negated 0 x))
        workspace.session).1 = .ok right ∧ left.shape = right.shape) ∧
    (∃ bodies bodies',
      (Build.runIn (Lambda.unifyParams [x, y] [y, x] [z, u] both both) workspace.session).1
        = .ok bodies ∧
      (Build.runIn (Lambda.unifyParams [y, x] [x, y] [u, z] both both) workspace.session).1
        = .ok bodies' ∧ bodies.1.shape = bodies'.1.shape ∧ bodies.2.shape = bodies'.2.shape) ∧
    ∃ back,
      (Build.runIn (do
        (← both.replace (.parameter x) (.parameter z)).replace (.parameter z) (.parameter x))
        workspace.session).1 = .ok back ∧ back.shape = both.shape := by
  have hmem : both ∈ workspace.exprs := by simp [workspace]
  obtain ⟨hcommute, hjoin, hback⟩ := reachable.replace_interchange hmem
  refine ⟨⟨_, _, rfl, rfl, ?_⟩, ⟨_, _, rfl, rfl, ?_⟩, hback x z rfl (by decide) _⟩
  · exact hcommute x y (negated 0 x) (negated 1 y) (by decide) (by decide) (by decide) _ _ _ _
      rfl rfl
  · exact hjoin [⟨x, y, z⟩, ⟨y, x, u⟩] [⟨y, x, u⟩, ⟨x, y, z⟩] (.swap _ _ _) (by decide)
      (by decide) (by decide) both _ _ _ _ rfl rfl

end Negations

end Workspace

end ExprTree
