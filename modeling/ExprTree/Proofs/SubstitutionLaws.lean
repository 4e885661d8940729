/-
# Laws of substitution

How substitutions for parameters act on shapes and on each other. A substitution changes nothing where
its parameter does not stand. Two of them may change places if neither puts in the parameter of the
other one, and the second one may be carried out on what the first one puts in if it finds nothing
else to change.
-/
import ExprTree.Proofs.Shape

namespace ExprTree

/-! ## Parameter lists -/

/-- Two redirections may change places if neither leads to where the other one starts. -/
theorem Parameter.redirect_comm {x y q r : Parameter} (hxy : x ≠ y) (hq : q ≠ y) (hr : r ≠ x)
    (p : Parameter) : y.redirect r (x.redirect q p) = x.redirect q (y.redirect r p) := by
  by_cases hpx : p = x
  · have hpy : p ≠ y := fun h => hxy (hpx ▸ h)
    simp [redirect, hpx, hq, hpx ▸ hpy]
  · by_cases hpy : p = y
    · simp [redirect, hpy, hr, Ne.symm hxy]
    · simp [redirect, hpx, hpy]

namespace Expr

/-- A substitution for a parameter redirects it in parameter lists, to itself if it puts in something
that cannot be listed. -/
theorem fillParameter_replacing_eq_redirect (x : Parameter) (r : Expr) :
    fillParameter (replacing (parameter x) r) = x.redirect (r.parameter?.getD x) := by
  funext p
  by_cases hp : p = x
  · cases r <;> simp [fillParameter, replacing, Parameter.redirect, parameter?, hp]
  · simp [fillParameter, replacing, Parameter.redirect, hp]

theorem fillParameter_replacing_shape (x : Parameter) (r : Expr) :
    fillParameter (replacing (parameter x) r.shape) = fillParameter (replacing (parameter x) r) := by
  rw [fillParameter_replacing_eq_redirect, fillParameter_replacing_eq_redirect]
  cases r <;> rfl

/-- What can be listed in the place of a parameter is another one than `y` if `y` does not stand in
it. -/
theorem getD_parameter?_ne {x y : Parameter} {r : Expr} (hxy : x ≠ y) (hy : y ∉ r.parameters) :
    r.parameter?.getD x ≠ y := by
  cases r with
  | parameter q => exact fun h => hy (h ▸ List.mem_singleton_self q)
  | _ => exact hxy

/-! ## Substitutions for parameters -/

/-- Substituting for a parameter acts on the shape. -/
theorem shape_fill_replacing (x : Parameter) (r e : Expr) :
    (e.fill (replacing (parameter x) r)).shape
      = e.shape.fill (replacing (parameter x) r.shape) := by
  induction e with
  | constant => simp
  | parameter p => by_cases hp : p = x <;> simp [hp]
  | member _ _ _ _ ih | unary _ _ _ ih => simp [ih]
  | call _ _ operands ih => simpa using ih
  | binary _ _ _ _ ihl ihr => simp [ihl, ihr]
  | lambda _ _ _ ih => simp [ih, fillParameter_replacing_shape]

/-- Nothing changes if the parameter does not occur. -/
theorem fill_replacing_of_notMem {x : Parameter} {e : Expr} (h : x ∉ e.parameters) (r : Expr) :
    e.fill (replacing (parameter x) r) = e := by
  induction e with
  | constant => simp
  | parameter p =>
      have hne : p ≠ x := fun hp => h (hp ▸ List.mem_singleton_self p)
      rw [fill_replacing_parameter, if_neg hne]
  | member _ _ _ _ ih | unary _ _ _ ih => simp [ih h]
  | call _ method operands ih =>
      rw [parameters_call] at h
      rw [fill_replacing_call]
      congr 1
      refine (List.map_congr_left fun e he => ih e he fun hx => ?_).trans (List.map_id operands)
      exact h (List.mem_flatMap.mpr ⟨e, he, hx⟩)
  | binary _ _ _ _ ihl ihr =>
      rw [parameters_binary, List.mem_append, not_or] at h
      rw [fill_replacing_binary, ihl h.1, ihr h.2]
  | lambda _ params body ih =>
      rw [parameters_lambda, List.mem_append, not_or] at h
      rw [fill_replacing_lambda, map_fillParameter_of_notMem h.1, ih h.2]

/-- **Substitutions for two parameters commute** if neither puts in the parameter of the other. -/
theorem fill_replacing_comm {x y : Parameter} {a b : Expr} (hxy : x ≠ y) (hx : x ∉ b.parameters)
    (hy : y ∉ a.parameters) (e : Expr) :
    (e.fill (replacing (parameter x) a)).fill (replacing (parameter y) b)
      = (e.fill (replacing (parameter y) b)).fill (replacing (parameter x) a) := by
  induction e with
  | constant => simp
  | parameter p =>
      by_cases hpx : p = x
      · have hpy : p ≠ y := fun h => hxy (hpx ▸ h)
        rw [fill_replacing_parameter, if_pos hpx, fill_replacing_of_notMem hy,
          fill_replacing_parameter, if_neg hpy, fill_replacing_parameter, if_pos hpx]
      · rw [fill_replacing_parameter, if_neg hpx, fill_replacing_parameter]
        by_cases hpy : p = y
        · rw [if_pos hpy, fill_replacing_of_notMem hx]
        · rw [if_neg hpy, fill_replacing_parameter, if_neg hpx]
  | member _ _ _ _ ih | unary _ _ _ ih => simp [ih]
  | call _ _ operands ih => simpa using ih
  | binary _ _ _ _ ihl ihr => simp [ihl, ihr]
  | lambda _ params _ ih =>
      -- The parameter list is redirected twice, to parameters that neither redirection starts from.
      have hparams := List.map_congr_left fun p (_ : p ∈ params) =>
        Parameter.redirect_comm hxy (getD_parameter?_ne hxy hy) (getD_parameter?_ne hxy.symm hx) p
      simp only [fill_replacing_lambda, fillParameter_replacing_eq_redirect, List.map_map, ih]
      exact congrArg (lambda _ · _) hparams

/-- **A substitution after another one** for a parameter that no lambda declares changes only what the
first one put in, if its own parameter was not there before. -/
theorem fill_fill_replacing {x y : Parameter} {e : Expr} (hx : x ∉ e.binders)
    (hy : y ∉ e.parameters) (s r : Expr) :
    (e.fill (replacing (parameter x) s)).fill (replacing (parameter y) r)
      = e.fill (replacing (parameter x) (s.fill (replacing (parameter y) r))) := by
  induction e with
  | constant => simp
  | parameter p =>
      by_cases hp : p = x
      · simp [hp]
      · rw [fill_replacing_parameter, if_neg hp, fill_replacing_of_notMem hy,
          fill_replacing_parameter, if_neg hp]
  | member _ _ _ _ ih | unary _ _ _ ih => simp [ih hx hy]
  | call _ _ operands ih =>
      rw [binders_call] at hx
      rw [parameters_call] at hy
      simp only [fill_replacing_call, List.map_map]
      congr 1
      refine List.map_congr_left fun e he => ih e he (fun hmem => ?_) fun hmem => ?_
      · exact hx (List.mem_flatMap.mpr ⟨e, he, hmem⟩)
      · exact hy (List.mem_flatMap.mpr ⟨e, he, hmem⟩)
  | binary _ _ _ _ ihl ihr =>
      rw [binders_binary, List.mem_append, not_or] at hx
      rw [parameters_binary, List.mem_append, not_or] at hy
      simp only [fill_replacing_binary, ihl hx.1 hy.1, ihr hx.2 hy.2]
  | lambda _ params _ ih =>
      rw [binders_lambda, List.mem_append, not_or] at hx
      rw [parameters_lambda, List.mem_append, not_or] at hy
      simp only [fill_replacing_lambda, map_fillParameter_of_notMem hx.1,
        map_fillParameter_of_notMem hy.1, ih hx.2 hy.2]

/-- Substituting for a new parameter that stands for another one is substituting for that one. -/
theorem fill_rename_redirect {x f : Parameter} {e : Expr} (hf : f ∉ e.parameters)
    (hx : x ∉ e.binders) (r : Expr) :
    (e.rename (x.redirect f)).fill (replacing (parameter f) r)
      = e.fill (replacing (parameter x) r) := by
  rw [← fill_replacing_parameter_eq_rename, fill_fill_replacing hx hf, fill_replacing_parameter,
    if_pos rfl]

end Expr

end ExprTree
