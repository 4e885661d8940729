/-
# Renaming a parameter of a lambda

A parameter that does not stand in a lambda can take the place of one that does, wherever that one is
declared or used. The renamed lambda means the same, since every frame that declares the old parameter
comes to declare the new one, and what it leaves free is what it left free before, renamed.
-/
import ExprTree.Proofs.Commutation
import ExprTree.Proofs.Scopes

namespace ExprTree

namespace Lambda

section Renaming

variable {session session' : Session} {lambda renamed : Lambda} {x y : Parameter}

/-- The parts of a lambda in which a parameter was replaced by a parameter. -/
theorem renamed_of_runIn
    (h : (lambda.replace (.parameter x) (.parameter y)).runIn session = (.ok renamed, session')) :
    renamed.params = lambda.params.map (x.redirect y) ∧
      renamed.body.shape = lambda.body.shape.rename (x.redirect y) := by
  obtain ⟨hparams, -, hsubst⟩ := substituted_of_runIn_lambda h
  rw [Expr.fillParameter_replacing] at hparams
  exact ⟨hparams, hsubst.shape_eq_rename⟩

/-- **Renaming a parameter never changes what a lambda does.** Let `y` stand nowhere in a lambda. If
`y` can be put in the place of `x`, which the lambda may declare, bind further inside, leave free, or
all of these, then on any arguments the lambda gives the same value as before or fails as before,
after the same native calls. The free parameters of the body are the old ones in their order, with `y`
in the place of `x`. -/
theorem invoke_replace_agrees (hy : y ∉ lambda.params ++ lambda.body.parameters)
    (hrun : (lambda.replace (.parameter x) (.parameter y)).runIn session
      = (.ok renamed, session')) :
    (∀ (evaluator : Evaluator) (args : List Value),
      (evaluator.invoke renamed args).Agrees (evaluator.invoke lambda args)) ∧
    renamed.body.free = lambda.body.free.map (x.redirect y) := by
  obtain ⟨hparams, hshape⟩ := renamed_of_runIn hrun
  -- No two parameters of the lambda become one, for none of them is `y`.
  have hinjective : ∀ p ∈ lambda.params ++ lambda.body.parameters,
      ∀ q ∈ lambda.params ++ lambda.body.parameters,
      x.redirect y p = x.redirect y q → p = q := by
    intro p hp q hq heq
    exact redirect_injective hy hp hq heq
  constructor
  · intro evaluator args
    have hlength : renamed.params.length = lambda.params.length := by
      rw [hparams, List.length_map]
    refine agrees_invoke hlength (fun args => ?_) args
    rw [hparams]
    exact Comparison.rel_of_renamed Comparison.lenient_agreement hinjective hshape args
  · refine Expr.free_of_shape_eq_rename (fun p hp q hq => ?_) (List.Subset.refl _) hshape
    exact hinjective p (List.mem_append_right _ hp) q (List.mem_append_right _ hq)

end Renaming

namespace Redeclared

def x : Parameter := ⟨0, some "x", .boolean⟩

def y : Parameter := ⟨1, some "y", .boolean⟩

/-- `(flags().Any(p => p) && p)`, with serials from `start` on. -/
def flagged (start : Nat) (p : Parameter) : Expr :=
  let flags := .call start (.declared "flags" .static [] (.sequence .boolean)) []
  let any := .call (start + 2) (.sequence .any .boolean)
    [flags, .lambda (start + 1) [p] (.parameter p)]
  .binary (start + 3) .andAlso any (.parameter p)

/-- `x => (flags().Any(x => x) && x)` declares its parameter once more inside, and both the inner and
the outer one may be called `y`. -/
theorem invoke_flagged_agrees :
    y ∉ [x] ++ (flagged 0 x).parameters ∧
    (∀ (evaluator : Evaluator) (args : List Value),
      (evaluator.invoke ⟨[y], flagged 4 y⟩ args).Agrees
        (evaluator.invoke ⟨[x], flagged 0 x⟩ args)) ∧
    (flagged 4 y).free = [y] := by
  have hy : y ∉ [x] ++ (flagged 0 x).parameters := by decide
  have hrun : (Lambda.replace ⟨[x], flagged 0 x⟩ (.parameter x) (.parameter y)).runIn
      { serials := 4, parameters := 2 } = (.ok ⟨[y], flagged 4 y⟩, _) := rfl
  have hrenamed := invoke_replace_agrees hy hrun
  exact ⟨hy, hrenamed.1, hrenamed.2⟩

end Redeclared

end Lambda

end ExprTree
