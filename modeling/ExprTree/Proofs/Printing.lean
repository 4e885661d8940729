/-
# What the printed form depends on

Serials are not printed, and of a parameter only its name is, so a renaming that keeps the printed
names keeps every printed form. The renaming of a join does so if the new parameters are called like
the old ones. So a join of predicates with the same names is printed as one would write it.
-/
import ExprTree.Expr.Print
import ExprTree.Proofs.Combined

namespace ExprTree

namespace Expr

theorem printAll_eq_map (es : List Expr) : printAll es = es.map print := by
  induction es with
  | nil => rfl
  | cons e es ih => rw [printAll, ih]; rfl

/-! ## Serials -/

@[simp] theorem startsWithSign_shape (e : Expr) : e.shape.startsWithSign = e.startsWithSign := by
  cases e <;> rfl

/-- **Serials are not printed.** -/
@[simp] theorem print_shape (e : Expr) : e.shape.print = e.print := by
  induction e with
  | constant | parameter => rfl
  | member _ _ _ _ ih => rw [shape, print, print, ih]
  | call _ method operands ih =>
      rw [shape, print, print, printAll_eq_map, printAll_eq_map, shapeAll_eq_map, List.map_map]
      exact congrArg method.printCall (List.map_congr_left ih)
  | unary _ _ _ ih => rw [shape, print, print, ih, startsWithSign_shape]
  | binary _ _ _ _ ihl ihr => rw [shape, print, print, ihl, ihr]
  | lambda _ _ _ ih => rw [shape, print, print, ih]

theorem print_eq_of_shape_eq {a b : Expr} (h : a.shape = b.shape) : a.print = b.print := by
  rw [← print_shape a, h, print_shape]

end Expr

/-! ## Names -/

/-- A renaming that keeps the printed names of some parameters. -/
def KeepsNames (σ : Parameter → Parameter) (params : List Parameter) : Prop :=
  ∀ p ∈ params, (σ p).print = p.print

/-- A parameter list is printed from the printed names alone, in brackets unless it has one entry. -/
theorem printParams_eq (params : List Parameter) :
    printParams params =
      if params.length = 1 then ", ".intercalate (params.map Parameter.print)
      else "(" ++ ", ".intercalate (params.map Parameter.print) ++ ")" := by
  cases params with
  | nil => rfl
  | cons p params =>
      cases params with
      | nil => simp [printParams]
      | cons q params => simp [printParams]

/-- Parameter lists with the same printed names are printed alike. -/
theorem printParams_congr {params params' : List Parameter}
    (h : params'.map Parameter.print = params.map Parameter.print) :
    printParams params' = printParams params := by
  have hlength : params'.length = params.length := by simpa using congrArg List.length h
  rw [printParams_eq, printParams_eq, h, hlength]

theorem printParams_map {σ : Parameter → Parameter} {params : List Parameter}
    (h : KeepsNames σ params) : printParams (params.map σ) = printParams params := by
  refine printParams_congr ?_
  rw [List.map_map]
  exact List.map_congr_left h

namespace Expr

variable {σ : Parameter → Parameter}

@[simp] theorem startsWithSign_rename (e : Expr) :
    (e.rename σ).startsWithSign = e.startsWithSign := by
  cases e <;> rfl

/-- **Of parameters only the names are printed.** -/
theorem print_rename {e : Expr} (h : KeepsNames σ e.parameters) :
    (e.rename σ).print = e.print := by
  induction e with
  | constant => rfl
  | parameter p => exact h p (List.mem_singleton_self p)
  | member _ _ _ _ ih => rw [rename, print, print, ih h]
  | call _ method operands ih =>
      rw [parameters_call] at h
      rw [rename, print, print, printAll_eq_map, printAll_eq_map, renameAll_eq_map, List.map_map]
      refine congrArg method.printCall (List.map_congr_left fun e he => ih e he fun p hp => ?_)
      exact h p (List.mem_flatMap.mpr ⟨e, he, hp⟩)
  | unary _ _ _ ih => rw [rename, print, print, ih h, startsWithSign_rename]
  | binary _ _ left right ihl ihr =>
      rw [KeepsNames, parameters_binary, List.forall_mem_append] at h
      rw [rename, print, print, ihl h.1, ihr h.2]
  | lambda _ params body ih =>
      rw [KeepsNames, parameters_lambda, List.forall_mem_append] at h
      rw [rename, print, print, printParams_map h.1, ih h.2]

end Expr

/-! ## New parameters for old ones -/

namespace Parameter

theorem print_eq_of_name_eq {p q : Parameter} (hnamed : p.name ≠ none) (h : q.name = p.name) :
    q.print = p.print := by
  obtain ⟨name, hname⟩ := Option.ne_none_iff_exists'.mp hnamed
  rw [print, print, h, hname]
  rfl

/-- Named parameters are printed like others of the same names. -/
theorem forall₂_print_of_map_name_eq {params params' : List Parameter}
    (hnamed : ∀ p ∈ params, p.name ≠ none) (h : params'.map name = params.map name) :
    List.Forall₂ (fun p q => q.print = p.print) params params' := by
  induction params generalizing params' with
  | nil =>
      obtain rfl := List.map_eq_nil_iff.mp h
      exact .nil
  | cons p params ih =>
      obtain ⟨q, others, rfl, hname, hnames⟩ := List.map_eq_cons_iff.mp h
      rw [List.forall_mem_cons] at hnamed
      exact .cons (print_eq_of_name_eq hnamed.1 hname) (ih hnamed.2 hnames)

/-- New parameters are called like the ones they are made for. -/
theorem forall₂_print_freshened {params : List Parameter} (hnamed : ∀ p ∈ params, p.name ≠ none)
    (start : Nat) : List.Forall₂ (fun p q => q.print = p.print) params (freshened start params) :=
  forall₂_print_of_map_name_eq hnamed (map_name_freshened start params)

/-- Redirecting to a parameter that is called the same keeps all printed names. -/
theorem print_redirect {x y : Parameter} (h : y.print = x.print) (p : Parameter) :
    (x.redirect y p).print = p.print := by
  unfold redirect
  by_cases hp : p = x
  · rw [if_pos hp, hp, h]
  · rw [if_neg hp]

end Parameter

open Parameter

/-- Replacing parameters by others that are called the same keeps all printed names. -/
theorem print_unifier {olds fresh : List Parameter}
    (h : List.Forall₂ (fun p q => q.print = p.print) olds fresh) (p : Parameter) :
    (unifier olds fresh p).print = p.print := by
  induction h generalizing p with
  | nil => rfl
  | cons hname _ ih => rw [unifier, Function.comp_apply, ih, print_redirect hname]

/-! ## Copies -/

section Copies

variable {session session' : Session}

/-- **Replacing a parameter by another one of the same printed name is not seen in the printed
form.** -/
theorem Expr.print_of_runIn_replace {x y : Parameter} {tree result : Expr}
    (hname : y.print = x.print)
    (hrun : (tree.replace (.parameter x) (.parameter y)).runIn session = (.ok result, session')) :
    result.print = tree.print := by
  have hshape := (substituted_of_runIn hrun).shape_eq_rename
  rw [← print_shape result, hshape, print_rename fun p _ => print_redirect hname p, print_shape]

/-- A body over other parameters is printed like the body it was made from, if these parameters are
called the same. -/
theorem Expr.print_of_shape_eq_rename_unifier {olds fresh : List Parameter} {body body' : Expr}
    (hnames : List.Forall₂ (fun p q => q.print = p.print) olds fresh)
    (hshape : body'.shape = body.shape.rename (unifier olds fresh)) : body'.print = body.print := by
  rw [← print_shape body', hshape, print_rename fun p _ => print_unifier hnames p, print_shape]

theorem printParams_of_forall₂ {params params' : List Parameter}
    (hnames : List.Forall₂ (fun p q => q.print = p.print) params params') :
    printParams params' = printParams params :=
  printParams_congr (Expr.map_eq_map_of_forall₂ hnames fun _ _ _ hname => hname)

/-- **A joined predicate is printed like the connective of the two predicates**, below the parameter
list of the left one, if the right one has named parameters of the same names. -/
theorem Lambda.print_of_runIn_join {connective : Connective} {left right joined : Lambda}
    (hnamed : ∀ p ∈ left.params ++ right.params, p.name ≠ none)
    (hnames : right.params.map Parameter.name = left.params.map Parameter.name)
    (hrun : (left.join connective right).runIn session = (.ok joined, session')) :
    joined.print = printParams left.params ++ " => (" ++ left.body.print ++ " "
      ++ connective.toOperator.symbol ++ " " ++ right.body.print ++ ")" := by
  obtain ⟨-, hparams, serial, leftBody, rightBody, hbody, hleft, hright⟩ :=
    Build.joined_of_runIn hrun
  rw [List.forall_mem_append] at hnamed
  have hnew : joined.params.map Parameter.name = left.params.map Parameter.name := by
    rw [hparams, map_name_freshened]
  have hleftNames := forall₂_print_of_map_name_eq hnamed.1 hnew
  have hrightNames := forall₂_print_of_map_name_eq hnamed.2 (hnew.trans hnames.symm)
  rw [print, printParams_of_forall₂ hleftNames, hbody, Expr.print,
    Expr.print_of_shape_eq_rename_unifier hleftNames hleft,
    Expr.print_of_shape_eq_rename_unifier hrightNames hright]
  simp only [String.append_assoc]
  rfl

/-- Replacing a parameter in a lambda by another one of the same printed name is not seen either. -/
theorem Lambda.print_of_runIn_replace {x y : Parameter} {lambda result : Lambda}
    (hname : y.print = x.print)
    (hrun : (lambda.replace (.parameter x) (.parameter y)).runIn session
      = (.ok result, session')) : result.print = lambda.print := by
  obtain ⟨hparams, -, hbody⟩ := substituted_of_runIn_lambda hrun
  rw [Expr.fillParameter_replacing] at hparams
  have hkeeps : ∀ params, KeepsNames (x.redirect y) params :=
    fun _ p _ => print_redirect hname p
  rw [print, print, hparams, printParams_map (hkeeps _), ← Expr.print_shape result.body,
    hbody.shape_eq_rename, Expr.print_rename (hkeeps _), Expr.print_shape]

end Copies

/-- **Joins and replacements keep to the printed names.** If all declared parameters of two predicates
are named and the names are the same position by position, their join is printed as one would write
it: the parameter list of the left one, then the connective of both bodies in brackets. And in every
tree and every lambda, putting a parameter in the place of another one of the same printed name leaves
the printed form as it was, wherever that succeeds. -/
theorem print_joined_and_replaced :
    (∀ {connective : Connective} {left right joined : Lambda} {session session' : Session},
      (∀ p ∈ left.params ++ right.params, p.name ≠ none) →
      right.params.map Parameter.name = left.params.map Parameter.name →
      (Lambda.joinOptional connective (some left) (some right)).runIn session
        = (.ok (some joined), session') →
      joined.print = printParams left.params ++ " => (" ++ left.body.print ++ " "
        ++ (match connective with | .and => "&&" | .or => "||") ++ " " ++ right.body.print ++ ")") ∧
    (∀ {tree result : Expr} {x y : Parameter} {session session' : Session}, y.print = x.print →
      (tree.replace (.parameter x) (.parameter y)).runIn session = (.ok result, session') →
      result.print = tree.print) ∧
    (∀ {lambda result : Lambda} {x y : Parameter} {session session' : Session}, y.print = x.print →
      (lambda.replace (.parameter x) (.parameter y)).runIn session = (.ok result, session') →
      result.print = lambda.print) := by
  refine ⟨?_, Expr.print_of_runIn_replace, Lambda.print_of_runIn_replace⟩
  intro connective left right joined session session' hnamed hnames hrun
  obtain ⟨joined', middle, hjoin, h⟩ := Build.runIn_bind_ok.mp hrun
  obtain ⟨rfl, -⟩ : joined' = joined ∧ middle = session' := by simpa using h
  rw [Lambda.print_of_runIn_join hnamed hnames hjoin]
  cases connective <;> rfl

namespace Authored

def k : Parameter := ⟨0, some "k", .int32⟩

def l : Parameter := ⟨1, some "l", .int32⟩

def k' : Parameter := ⟨2, some "k", .int32⟩

def l' : Parameter := ⟨3, some "l", .int32⟩

/-- `(k, l) => (k < l)`. -/
def ordered : Lambda := ⟨[k, l], .binary 0 .lt (.parameter k) (.parameter l)⟩

/-- A native function that takes a predicate on integers. -/
def decides : Method := .declared "decides" .static [.function [.int32] .boolean] .boolean

/-- `decides(k => (k == l))`, with a parameter that the predicate declares once more. -/
def decided : Expr :=
  .call 3 decides [.lambda 2 [k'] (.binary 1 .eq (.parameter k') (.parameter l'))]

/-- The join of the two predicates: the bodies use new parameters, and the nested lambda declares one
of them. -/
def joined : Lambda :=
  let p : Parameter := ⟨4, some "k", .int32⟩
  let q : Parameter := ⟨5, some "l", .int32⟩
  ⟨[p, q], .binary 12 .orElse (.binary 8 .lt (.parameter p) (.parameter q))
    (.call 11 decides [.lambda 10 [p] (.binary 9 .eq (.parameter p) (.parameter q))])⟩

/-- `decides(k => (k == l))` with the parameter of the other predicate, which is called `k` too. -/
def replaced : Expr :=
  .call 6 decides [.lambda 5 [k] (.binary 4 .eq (.parameter k) (.parameter l'))]

/-- The join is printed as if it was written by hand, and the other parameter of the same name is not
seen. -/
theorem print_joined_ordered_decided :
    joined.print = "(k, l) => ((k < l) || decides(k => (k == l)))" ∧
      replaced.print = "decides(k => (k == l))" := by
  obtain ⟨hjoin, hreplace, -⟩ := print_joined_and_replaced
  have hnamed : ∀ p ∈ ordered.params ++ [k', l'], p.name ≠ none := by decide
  have hjoined : (Lambda.joinOptional .or (some ordered) (some ⟨[k', l'], decided⟩)).runIn
      { serials := 4, parameters := 4 } = (.ok (some joined), _) := rfl
  have hreplaced : (decided.replace (.parameter k') (.parameter k)).runIn
      { serials := 4, parameters := 4 } = (.ok replaced, _) := rfl
  have hnames : [k', l'].map Parameter.name = ordered.params.map Parameter.name := rfl
  have hname : k.print = k'.print := rfl
  have hprint := @hjoin .or ordered ⟨[k', l'], decided⟩ joined _ _ hnamed hnames hjoined
  exact ⟨hprint.trans (by decide +kernel), (hreplace hname hreplaced).trans (by decide +kernel)⟩

end Authored

end ExprTree
