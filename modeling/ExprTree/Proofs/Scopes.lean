/-
# Free parameters of what is built

The free parameters of an expression, put together from those of its parts, and what becomes of them
when parameters are renamed and when lambdas are joined, lifted and spliced. Combining lambdas frees
no parameter, so whatever is combined from closed lambdas is closed.
-/
import ExprTree.Proofs.Reachable

namespace ExprTree

namespace Expr

/-! ## Free parameters, part by part -/

/-- Entries that pass a test and are not listed yet can be added one list after the other. -/
theorem append_filter_append {keep : Parameter → Bool} {found xs ys : List Parameter} :
    (found ++ (xs.filter keep).filter (· ∉ found)) ++
        (ys.filter keep).filter (· ∉ found ++ (xs.filter keep).filter (· ∉ found))
      = found ++ ((xs ++ ys.filter (· ∉ xs)).filter keep).filter (· ∉ found) := by
  simp only [List.filter_append, List.filter_filter, List.append_assoc]
  refine congrArg _ (congrArg _ (List.filter_congr fun p _ => ?_))
  simp only [List.mem_append, List.mem_filter]
  by_cases hfound : p ∈ found <;> by_cases hkeep : keep p = true <;> simp [hfound, hkeep]

theorem collectFreeAll_eq {es : List Expr}
    (h : ∀ e ∈ es, ∀ bound found : List Parameter,
      collectFree bound found e = found ++ (e.free.filter (· ∉ bound)).filter (· ∉ found)) :
    ∀ bound found : List Parameter, collectFreeAll bound found es
      = found ++ ((collectFreeAll [] [] es).filter (· ∉ bound)).filter (· ∉ found) := by
  induction es with
  | nil => simp [collectFreeAll]
  | cons e es ih =>
      intro bound found
      have ih := ih fun e he => h e (List.mem_cons_of_mem _ he)
      have hfirst : collectFree [] [] e = e.free := rfl
      have hall : collectFreeAll [] [] (e :: es)
          = e.free ++ (collectFreeAll [] [] es).filter (· ∉ e.free) := by
        rw [collectFreeAll, hfirst, ih]
        simp
      rw [hall, collectFreeAll, ih, h e List.mem_cons_self, append_filter_append]

/-- **What the walk adds.** From a set of bound parameters and some found already, the walk adds the
free parameters of the expression that are neither, in their order. -/
theorem collectFree_eq (e : Expr) : ∀ bound found : List Parameter,
    collectFree bound found e = found ++ (e.free.filter (· ∉ bound)).filter (· ∉ found) := by
  induction e with
  | constant => simp [collectFree, free]
  | parameter p =>
      intro bound found
      have hfree : (parameter p).free = [p] := by simp [free, collectFree]
      rw [hfree, collectFree]
      by_cases hbound : p ∈ bound
      · simp [hbound]
      · by_cases hfound : p ∈ found <;> simp [hbound, hfound]
  | member _ _ _ _ ih | unary _ _ _ ih => exact ih
  | call _ _ operands ih => exact collectFreeAll_eq ih
  | binary serial op left right ihl ihr =>
      intro bound found
      have hleft : collectFree [] [] left = left.free := rfl
      have hfree : (Expr.binary serial op left right).free
          = left.free ++ right.free.filter (· ∉ left.free) := by
        rw [free, collectFree, hleft, ihr]
        simp
      rw [hfree, collectFree, ihr, ihl, append_filter_append]
  | lambda serial params body ih =>
      intro bound found
      have hfree : (Expr.lambda serial params body).free = body.free.filter (· ∉ params) := by
        rw [free, collectFree, ih]
        simp
      rw [hfree, collectFree, ih, List.filter_filter, List.filter_filter, List.filter_filter]
      refine congrArg _ (List.filter_congr fun p _ => ?_)
      rw [Bool.eq_iff_iff]
      simp
      tauto

section Equations

variable (serial : Nat)

@[simp] theorem free_constant (value : Value) (type : Ty) :
    (constant serial value type).free = [] := rfl

@[simp] theorem free_parameter (p : Parameter) : (parameter p).free = [p] := by
  simp [free, collectFree]

@[simp] theorem free_member (target : Expr) (name : String) (type : Ty) :
    (member serial target name type).free = target.free := rfl

@[simp] theorem free_call_nil (method : Method) : (call serial method []).free = [] := rfl

@[simp] theorem free_call_cons (method : Method) (e : Expr) (es : List Expr) :
    (call serial method (e :: es)).free
      = e.free ++ (call serial method es).free.filter (· ∉ e.free) := by
  have hes : ∀ found : List Parameter, collectFreeAll [] found es
      = found ++ (call serial method es).free.filter (· ∉ found) := by
    intro found
    rw [collectFreeAll_eq (fun e _ => collectFree_eq e) [] found]
    simp [free, collectFree]
  exact hes e.free

@[simp] theorem free_unary (op : UnaryOp) (operand : Expr) :
    (unary serial op operand).free = operand.free := rfl

@[simp] theorem free_binary (op : BinaryOp) (left right : Expr) :
    (binary serial op left right).free = left.free ++ right.free.filter (· ∉ left.free) := by
  change collectFree [] left.free right = _
  rw [collectFree_eq]
  simp

@[simp] theorem free_lambda (params : List Parameter) (body : Expr) :
    (lambda serial params body).free = body.free.filter (· ∉ params) := by
  change collectFree (params ++ []) [] body = _
  rw [collectFree_eq]
  simp

end Equations

/-- The free parameters of an expression are among all that stand in it. -/
theorem free_subset_of_parameters_subset {known : List Parameter} {e : Expr}
    (h : e.parameters ⊆ known) : e.free ⊆ known :=
  fun _ hp => h (mem_free.mp hp).mem_parameters

/-- The serials of composite nodes do not matter for the free parameters. -/
@[simp] theorem free_shape (e : Expr) : e.shape.free = e.free := by
  induction e with
  | constant | parameter => rfl
  | member _ _ _ _ ih | unary _ _ _ ih | lambda _ _ _ ih => simp [ih]
  | call serial method operands ih =>
      rw [shape, shapeAll_eq_map]
      induction operands with
      | nil => rfl
      | cons e es ihes =>
          rw [List.map_cons, free_call_cons, free_call_cons, ih e List.mem_cons_self,
            ihes fun e he => ih e (List.mem_cons_of_mem _ he)]
  | binary _ _ _ _ ihl ihr => simp [ihl, ihr]

/-! ## Renaming -/

section Renaming

variable {σ : Parameter → Parameter} {known : List Parameter}
  (hσ : ∀ p ∈ known, ∀ q ∈ known, σ p = σ q → p = q)

include hσ

/-- A renaming that makes no two known parameters one keeps which of them are listed. -/
theorem filter_map_notMem {xs ys : List Parameter} (hxs : xs ⊆ known) (hys : ys ⊆ known) :
    (ys.map σ).filter (· ∉ xs.map σ) = (ys.filter (· ∉ xs)).map σ := by
  rw [List.filter_map]
  refine congrArg (List.map σ) (List.filter_congr fun p hp => ?_)
  have hmem : σ p ∈ xs.map σ ↔ p ∈ xs := by
    constructor
    · intro h
      obtain ⟨q, hq, heq⟩ := List.mem_map.mp h
      rwa [← hσ q (hxs hq) p (hys hp) heq]
    · exact List.mem_map_of_mem
  simp only [Function.comp_apply, hmem]

/-- **Renaming renames the free parameters**, if it makes no two parameters one. -/
theorem free_rename {e : Expr} (he : e.parameters ⊆ known) :
    (e.rename σ).free = e.free.map σ := by
  induction e with
  | constant => rfl
  | parameter p => simp
  | member _ _ _ _ ih | unary _ _ _ ih => exact ih he
  | call serial method operands ih =>
      rw [rename, renameAll_eq_map]
      induction operands with
      | nil => rfl
      | cons e es ihes =>
          simp only [parameters_call, List.flatMap_cons, List.append_subset] at he
          have hes : (call serial method es).parameters ⊆ known := by simpa using he.2
          rw [List.map_cons, free_call_cons, free_call_cons, ih e List.mem_cons_self he.1,
            ihes (fun e he => ih e (List.mem_cons_of_mem _ he)) hes, List.map_append,
            filter_map_notMem hσ (free_subset_of_parameters_subset he.1)
              (free_subset_of_parameters_subset hes)]
  | binary _ _ left right ihl ihr =>
      rw [parameters_binary, List.append_subset] at he
      rw [rename, free_binary, free_binary, ihl he.1, ihr he.2, List.map_append,
        filter_map_notMem hσ (free_subset_of_parameters_subset he.1)
          (free_subset_of_parameters_subset he.2)]
  | lambda _ params body ih =>
      rw [parameters_lambda, List.append_subset] at he
      rw [rename, free_lambda, free_lambda, ih he.2,
        filter_map_notMem hσ he.1 (free_subset_of_parameters_subset he.2)]

/-- What is an expression renamed, up to serials, has its free parameters renamed. -/
theorem free_of_shape_eq_rename {e e' : Expr} (he : e.parameters ⊆ known)
    (hshape : e'.shape = e.shape.rename σ) : e'.free = e.free.map σ := by
  rw [← free_shape e', hshape, ← shape_rename, free_shape, free_rename hσ he]

end Renaming

/-! ## Substituting for a parameter -/

/-- What is free after something is put in the place of a parameter is free in it, or was free before
and is another parameter. -/
theorem occursFree_of_fill_replacing {p q : Parameter} {r e : Expr}
    (h : OccursFree q (e.fill (replacing (parameter p) r))) :
    OccursFree q r ∨ q ≠ p ∧ OccursFree q e := by
  induction e with
  | constant => simp at h
  | parameter x =>
      rw [fill_replacing_parameter] at h
      split at h
      next => exact Or.inl h
      next hx =>
        rw [occursFree_parameter] at h
        subst h
        exact Or.inr ⟨hx, .parameter⟩
  | member _ _ _ _ ih =>
      rw [fill_replacing_member, occursFree_member] at h
      exact (ih h).imp_right (And.imp_right .member)
  | call _ _ operands ih =>
      rw [fill_replacing_call, occursFree_call] at h
      obtain ⟨_, hmem, h⟩ := h
      obtain ⟨e, he, rfl⟩ := List.mem_map.mp hmem
      exact (ih e he h).imp_right (And.imp_right (.call he))
  | unary _ _ _ ih =>
      rw [fill_replacing_unary, occursFree_unary] at h
      exact (ih h).imp_right (And.imp_right .unary)
  | binary _ _ _ _ ihl ihr =>
      rw [fill_replacing_binary, occursFree_binary] at h
      rcases h with h | h
      · exact (ihl h).imp_right (And.imp_right .left)
      · exact (ihr h).imp_right (And.imp_right .right)
  | lambda _ params _ ih =>
      rw [fill_replacing_lambda, occursFree_lambda] at h
      refine (ih h.2).imp_right fun ⟨hq, hbody⟩ => ⟨hq, .lambda (fun hparam => h.1 ?_) hbody⟩
      -- Only the parameter substituted for leaves a parameter list.
      have hfill : fillParameter (replacing (parameter p) r) q = q := by
        simp [fillParameter, replacing, hq]
      exact List.mem_map.mpr ⟨q, hparam, hfill⟩

end Expr

/-! ## Combined lambdas -/

namespace Lambda

open Parameter ExprTree.Expr

variable {session session' : Session}

/-- Of the free parameters of a body over new parameters those that are not new are the ones the
lambda does not declare. -/
theorem filter_map_unifier {lambda : Lambda} {fresh : List Parameter}
    (hnodup : lambda.params.Nodup) (hfresh : fresh.Nodup)
    (hlength : lambda.params.length = fresh.length)
    (hnew : ∀ f ∈ fresh, f ∉ lambda.params ++ lambda.body.parameters) :
    (lambda.body.free.map (unifier lambda.params fresh)).filter (· ∉ fresh) = lambda.free := by
  have hparams : lambda.params.map (unifier lambda.params fresh) = fresh :=
    map_unifier hnodup hlength fun f hf h => hnew f hf (List.mem_append_left _ h)
  have hinjective : ∀ p ∈ lambda.params ++ lambda.body.parameters,
      ∀ q ∈ lambda.params ++ lambda.body.parameters,
      unifier lambda.params fresh p = unifier lambda.params fresh q → p = q :=
    fun p hp q hq => unifier_injective hfresh hnew hp hq
  have hmap := filter_map_notMem hinjective (List.subset_append_left _ _)
    (free_subset_of_parameters_subset (List.subset_append_right _ _))
  rw [hparams] at hmap
  rw [hmap]
  -- The parameters that are left keep their names.
  refine (List.map_congr_left fun p hp => ?_).trans (List.map_id _)
  exact unifier_of_notMem (by simpa using (List.mem_filter.mp hp).2)

/-- **The free parameters of a joined predicate** are those of the left one, then those of the right
one that are not listed yet. -/
theorem free_joined {connective : Connective} {left right joined : Lambda}
    (hleft : left.Valid session) (hright : right.Valid session)
    (h : (left.join connective right).runIn session = (.ok joined, session')) :
    joined.free = left.free ++ right.free.filter (· ∉ left.free) := by
  obtain ⟨htypes, hparams, serial, leftBody, rightBody, hbody, hl, hr⟩ := Build.joined_of_runIn h
  have hlength : left.params.length = right.params.length := by
    simpa [paramTypes] using congrArg List.length htypes
  have hcount : joined.params.length = left.params.length := by rw [hparams, length_freshened]
  have hnodup : joined.params.Nodup := hparams ▸ nodup_freshened _ _
  have hnew : ∀ lambda : Lambda, lambda.Valid session →
      ∀ f ∈ joined.params, f ∉ lambda.params ++ lambda.body.parameters :=
    fun lambda hlambda f hf => hlambda.notMem_of_mem_freshened (hparams ▸ hf)
  -- Each body is the old one renamed, so its free parameters are the old ones renamed.
  have hfree : ∀ {lambda : Lambda} {body : Expr}, lambda.Valid session →
      body.shape = lambda.body.shape.rename (unifier lambda.params joined.params) →
      body.free = lambda.body.free.map (unifier lambda.params joined.params) := by
    intro lambda body hlambda hshape
    have hinjective : ∀ p ∈ lambda.body.parameters, ∀ q ∈ lambda.body.parameters,
        unifier lambda.params joined.params p = unifier lambda.params joined.params q → p = q :=
      fun p hp q hq => unifier_injective hnodup
        (fun f hf hmem => hnew lambda hlambda f hf (List.mem_append_right _ hmem)) hp hq
    exact free_of_shape_eq_rename hinjective (List.Subset.refl _) hshape
  have hleftFree := filter_map_unifier hleft.wellFormed.1 hnodup hcount.symm (hnew left hleft)
  have hrightFree := filter_map_unifier hright.wellFormed.1 hnodup (by omega) (hnew right hright)
  rw [← hfree hleft hl] at hleftFree
  rw [← hfree hright hr] at hrightFree
  rw [free, hbody, free_binary, List.filter_append, hleftFree, List.filter_filter]
  refine congrArg _ ?_
  rw [← hrightFree, List.filter_filter]
  refine List.filter_congr fun p hp => ?_
  -- A parameter that is not new is free in the left body just if the left predicate leaves it free.
  by_cases hp : p ∈ joined.params
  · simp [hp]
  · have hmem : p ∈ left.free ↔ p ∈ leftBody.free := by
      rw [← hleftFree, List.mem_filter]
      simp [hp]
    simp [hp, hmem]

/-- **The free parameters of a lifted predicate** are those of the selector, then those of the
predicate that the selector does not declare and that are not listed yet. -/
theorem free_lifted {quantifier : Quantifier} {selector predicate lifted : Lambda}
    (h : (lift quantifier selector predicate).runIn session = (.ok lifted, session')) :
    lifted.free = selector.free
      ++ predicate.free.filter (fun p => p ∉ selector.params ∧ p ∉ selector.free) := by
  obtain ⟨serial, serial', p, hparams, rfl⟩ := Build.lifted_of_runIn h
  simp only [free, free_call_cons, free_call_nil, free_lambda, List.filter_append,
    List.filter_filter, List.filter_nil, List.append_nil]
  refine congrArg _ (List.filter_congr fun p _ => ?_)
  rw [Bool.eq_iff_iff]
  simp
  tauto

/-- **The free parameters of a search for a value** are those of the selector. -/
theorem free_contains {selector lifted : Lambda} {value : Value}
    (h : (selector.contains value).runIn session = (.ok lifted, session')) :
    lifted.free = selector.free := by
  obtain ⟨serial, serial', element, type, rfl⟩ := Build.contains_of_runIn h
  simp [free]

/-- **The free parameters of a spliced lambda** are free in the selector or in the continuation. -/
theorem mem_free_spliced {selector continuation spliced : Lambda}
    (h : (selector.splice continuation).runIn session = (.ok spliced, session')) {q : Parameter}
    (hq : q ∈ spliced.free) : q ∈ selector.free ∨ q ∈ continuation.free := by
  obtain ⟨p, hparams⟩ := Build.exists_param_of_runIn_splice h
  obtain ⟨-, hspliced, -, hsubst⟩ := Build.spliced_of_runIn hparams h
  simp only [free, List.mem_filter, hspliced, decide_eq_true_eq, hparams,
    List.mem_singleton] at hq ⊢
  rw [← free_shape, hsubst.shape_eq, free_shape, mem_free] at hq
  rcases occursFree_of_fill_replacing hq.1 with hfree | ⟨hne, hfree⟩
  · exact Or.inl ⟨mem_free.mpr hfree, hq.2⟩
  · exact Or.inr ⟨mem_free.mpr hfree, hne⟩

/-- A join of closed predicates is closed. -/
theorem isClosed_joined {connective : Connective} {left right joined : Lambda}
    (hleft : left.Valid session) (hright : right.Valid session) (hl : left.isClosed = true)
    (hr : right.isClosed = true)
    (h : (left.join connective right).runIn session = (.ok joined, session')) :
    joined.isClosed = true := by
  rw [isClosed, List.isEmpty_iff] at hl hr ⊢
  rw [free_joined hleft hright h, hl, hr]
  rfl

/-- A closed continuation behind a closed selector gives a closed lambda. -/
theorem isClosed_spliced {selector continuation spliced : Lambda} (hs : selector.isClosed = true)
    (hc : continuation.isClosed = true)
    (h : (selector.splice continuation).runIn session = (.ok spliced, session')) :
    spliced.isClosed = true := by
  rw [isClosed, List.isEmpty_iff] at hs hc ⊢
  refine List.eq_nil_iff_forall_not_mem.mpr fun q hq => ?_
  rcases mem_free_spliced h hq with hq | hq
  · rw [hs] at hq
    cases hq
  · rw [hc] at hq
    cases hq

end Lambda

/-! ## Compositions of closed lambdas -/

namespace Workspace

/-- The lambda is held by a reachable workspace and was put together from closed lambdas by joining,
lifting, searching for values and splicing, in any order and with other steps in between. -/
inductive Composed : Workspace → Lambda → Prop
  | given {w : Workspace} {lambda} : w.Reachable → lambda ∈ w.lambdas →
      lambda.isClosed = true → Composed w lambda
  | later {w w' : Workspace} {lambda} : Composed w lambda → Step w w' → Composed w' lambda
  | join {w : Workspace} {connective left right joined session} : Composed w left →
      Composed w right → (left.join connective right).runIn w.session = (.ok joined, session) →
      Composed { w with session, lambdas := joined :: w.lambdas } joined
  | lift {w : Workspace} {quantifier selector predicate lifted session} : Composed w selector →
      Composed w predicate →
      (Lambda.lift quantifier selector predicate).runIn w.session = (.ok lifted, session) →
      Composed { w with session, lambdas := lifted :: w.lambdas } lifted
  | contains {w : Workspace} {selector value lifted session} : Composed w selector →
      (selector.contains value).runIn w.session = (.ok lifted, session) →
      Composed { w with session, lambdas := lifted :: w.lambdas } lifted
  | splice {w : Workspace} {selector continuation spliced session} : Composed w selector →
      Composed w continuation →
      (selector.splice continuation).runIn w.session = (.ok spliced, session) →
      Composed { w with session, lambdas := spliced :: w.lambdas } spliced

/-- A step keeps the lambdas that are held. -/
theorem Step.lambdas_subset {w w' : Workspace} (h : Step w w') : w.lambdas ⊆ w'.lambdas := by
  cases h with
  | builtLambda | lambda => exact List.subset_cons_self _ _
  | _ => exact List.Subset.refl _

/-- What is composed is held by a reachable workspace. -/
theorem Composed.held {w : Workspace} {lambda : Lambda} (h : w.Composed lambda) :
    w.Reachable ∧ lambda ∈ w.lambdas := by
  induction h with
  | given hw hmem _ => exact ⟨hw, hmem⟩
  | later _ hstep ih => exact ⟨ih.1.step hstep, hstep.lambdas_subset ih.2⟩
  | join _ _ hrun ihl ihr =>
      exact ⟨ihl.1.step (.builtLambda (.join _ ihl.2 ihr.2) hrun), List.mem_cons_self⟩
  | lift _ _ hrun ihs ihp =>
      exact ⟨ihs.1.step (.builtLambda (.lift _ ihs.2 ihp.2) hrun), List.mem_cons_self⟩
  | contains _ hrun ih =>
      exact ⟨ih.1.step (.builtLambda (.contains _ ih.2) hrun), List.mem_cons_self⟩
  | splice _ _ hrun ihs ihc =>
      exact ⟨ihs.1.step (.builtLambda (.splice ihs.2 ihc.2) hrun), List.mem_cons_self⟩

/-- **Compositions of closed lambdas are closed.** -/
theorem Composed.free_eq_nil {w : Workspace} {lambda : Lambda} (h : w.Composed lambda) :
    lambda.free = [] := by
  induction h with
  | given _ _ hclosed => exact List.isEmpty_iff.mp hclosed
  | later _ _ ih => exact ih
  | join hleft hright hrun ihl ihr =>
      have hlambdas := hleft.held.1.sound.lambdas
      rw [Lambda.free_joined (hlambdas _ hleft.held.2) (hlambdas _ hright.held.2) hrun, ihl, ihr]
      rfl
  | lift _ _ hrun ihs ihp =>
      rw [Lambda.free_lifted hrun, ihs, ihp]
      rfl
  | contains _ hrun ih => exact (Lambda.free_contains hrun).trans ih
  | splice _ _ hrun ihs ihc =>
      refine List.eq_nil_iff_forall_not_mem.mpr fun q hq => ?_
      rcases Lambda.mem_free_spliced hrun hq with hq | hq
      · exact List.not_mem_nil (ihs ▸ hq)
      · exact List.not_mem_nil (ihc ▸ hq)

/-- **Combining lambdas frees no parameter.** What a joined and a lifted predicate leave free are the
free parameters of their parts, each listed once; what a spliced lambda leaves free is free in the
selector or in the continuation. So whatever is composed from closed lambdas passes the check that it
is closed. -/
theorem Reachable.free_of_combined {w : Workspace} (hw : w.Reachable) :
    (∀ connective left right joined session', left ∈ w.lambdas → right ∈ w.lambdas →
      (Lambda.join connective left right).runIn w.session = (.ok joined, session') →
      joined.free = left.free ++ right.free.filter (· ∉ left.free)) ∧
    (∀ quantifier selector predicate lifted session', selector ∈ w.lambdas →
      predicate ∈ w.lambdas →
      (Lambda.lift quantifier selector predicate).runIn w.session = (.ok lifted, session') →
      lifted.free = selector.free
        ++ predicate.free.filter (fun p => p ∉ selector.params ∧ p ∉ selector.free)) ∧
    (∀ selector value lifted session', selector ∈ w.lambdas →
      (Lambda.contains selector value).runIn w.session = (.ok lifted, session') →
      lifted.free = selector.free) ∧
    (∀ selector continuation spliced session', selector ∈ w.lambdas → continuation ∈ w.lambdas →
      (Lambda.splice selector continuation).runIn w.session = (.ok spliced, session') →
      ∀ q ∈ spliced.free, q ∈ selector.free ∨ q ∈ continuation.free) ∧
    ∀ lambda, w.Composed lambda →
      ∀ session, lambda.requireClosed.runIn session = (.ok (), session) := by
  have hlambdas := hw.sound.lambdas
  refine ⟨fun connective left right joined session' hleft hright hrun => ?_,
    fun quantifier selector predicate lifted session' _ _ hrun => Lambda.free_lifted hrun,
    fun selector value lifted session' _ hrun => Lambda.free_contains hrun,
    fun selector continuation spliced session' _ _ hrun q hq => Lambda.mem_free_spliced hrun hq,
    fun lambda hcomposed session => ?_⟩
  · exact Lambda.free_joined (hlambdas left hleft) (hlambdas right hright) hrun
  · have hclosed : lambda.isClosed = true := List.isEmpty_iff.mpr hcomposed.free_eq_nil
    exact Build.runIn_requireClosed_ok.mpr ⟨hclosed, rfl⟩

namespace Sharing

def x : Parameter := ⟨0, some "x", .boolean⟩

def y : Parameter := ⟨1, some "y", .boolean⟩

/-- `(x && y)`. -/
def both : Expr := .binary 0 .andAlso (.parameter x) (.parameter y)

/-- `x => x`, and the predicates `x => y` and `y => (x && y)`, each with the parameter of the other
one free. -/
def workspace : Workspace where
  session := { serials := 1, parameters := 2 }
  exprs := [both, .parameter y, .parameter x]
  lambdas := [⟨[y], both⟩, ⟨[x], .parameter y⟩, ⟨[x], .parameter x⟩]

theorem reachable : workspace.Reachable := by
  have hparameters : Reachable ⟨{ parameters := 2 }, [.parameter y, .parameter x], []⟩ :=
    .step (.step .start (.built (.parameter (some "x") .boolean) rfl))
      (.built (.parameter (some "y") .boolean) rfl)
  have hexprs : Reachable { workspace with lambdas := [] } :=
    .step hparameters (.built (@Builds.binary _ (.parameter x) (.parameter y) .andAlso
      (by simp) (by simp)) rfl)
  have hidentity : Reachable { workspace with lambdas := [⟨[x], .parameter x⟩] } :=
    .step hexprs (.builtLambda (@BuildsLambda.lambda _ [x] (.parameter x)
      (by simp [workspace]) (by simp [workspace])) rfl)
  have hfirst : Reachable { workspace with lambdas := workspace.lambdas.tail } :=
    .step hidentity (.builtLambda (@BuildsLambda.lambda _ [x] (.parameter y)
      (by simp [workspace]) (by simp [workspace])) rfl)
  exact .step hfirst (.builtLambda (@BuildsLambda.lambda _ [y] both
    (by simp [workspace]) (by simp [workspace])) rfl)

/-- The parameter made for a join. -/
def fresh : Parameter := ⟨2, some "x", .boolean⟩

/-- `x => (y && (x && x))`, where only the last `x` is the parameter declared. -/
def joined : Lambda :=
  ⟨[fresh], .binary 2 .andAlso (.parameter y)
    (.binary 1 .andAlso (.parameter x) (.parameter fresh))⟩

/-- The join of the two predicates leaves the parameters free that they do, and the join of `x => x`
with itself is closed. -/
theorem free_joined_sharing :
    joined.free = [y] ++ [x].filter (· ∉ [y]) ∧
    ∀ session, (Lambda.requireClosed ⟨[fresh], .binary 1 .andAlso (.parameter fresh)
      (.parameter fresh)⟩).runIn session = (.ok (), session) := by
  have hmem : (⟨[x], .parameter x⟩ : Lambda) ∈ workspace.lambdas := by simp [workspace]
  have hgiven : workspace.Composed ⟨[x], .parameter x⟩ := .given reachable hmem rfl
  have hcomposed := @Composed.join workspace .and _ _ _ _ hgiven hgiven rfl
  refine ⟨?_, hcomposed.held.1.free_of_combined.2.2.2.2 _ hcomposed⟩
  exact reachable.free_of_combined.1 .and ⟨[x], .parameter y⟩ ⟨[y], both⟩ joined _
    (by simp [workspace]) (by simp [workspace]) rfl

end Sharing

end Workspace

end ExprTree
