/-
# A selector in front of combined lambdas

Putting a selector in front of a joined, a lifted or a searching lambda gives the same as combining
what has the selector in front already: it prints the same and means the same. The two differ in
serials, and the join that comes last has new parameters.
-/
import ExprTree.Proofs.JoinMeaning
import ExprTree.Proofs.Printing
import ExprTree.Proofs.SubstitutionLaws

namespace ExprTree

open Parameter

/-! ## Lambdas that are alike -/

namespace Lambda

/-- Two lambdas that print the same and mean the same: whatever they are applied to, they give the
same value or both fail, after the same native calls. -/
structure Alike (a b : Lambda) : Prop where
  print_eq : a.print = b.print
  agrees : ∀ (evaluator : Evaluator) (args : List Value),
    (evaluator.invoke a args).Agrees (evaluator.invoke b args)

variable {a b c : Lambda}

theorem Alike.trans (h : a.Alike b) (h' : b.Alike c) : a.Alike c :=
  ⟨h.print_eq.trans h'.print_eq, fun evaluator args history =>
    (h.agrees evaluator args history).trans (h'.agrees evaluator args history)⟩

/-- Invocations agree if the bodies do, in the frames of any arguments there are enough of. -/
theorem agrees_invoke {evaluator : Evaluator} (hlength : a.params.length = b.params.length)
    (hbody : ∀ args, (evaluator.evaluate [⟨a.params, args⟩] a.body).Agrees
      (evaluator.evaluate [⟨b.params, args⟩] b.body)) (args : List Value) :
    (evaluator.invoke a args).Agrees (evaluator.invoke b args) := by
  rw [Evaluator.invoke, Evaluator.invoke, hlength]
  by_cases hargs : args.length = b.params.length
  · rw [if_pos hargs, if_pos hargs]
    exact hbody args
  · rw [if_neg hargs, if_neg hargs]
    exact fun history => rfl

/-- Lambdas over the same parameters are alike if their bodies differ in serials only. -/
theorem alike_of_shape_eq (hparams : a.params = b.params) (hshape : a.body.shape = b.body.shape) :
    a.Alike b := by
  constructor
  · rw [print, print, hparams, Expr.print_eq_of_shape_eq hshape]
  · intro evaluator args
    refine agrees_invoke (congrArg List.length hparams) (fun args => ?_) args
    rw [hparams]
    have hlenient : (Comparison.agreement evaluator).Lenient := Comparison.lenient_agreement
    exact (Comparison.simulates_of_shape_eq hlenient.ignoresSerials hshape).value

/-- **A lambda and its copy over new parameters are alike**, if its parameters have names. -/
theorem alike_of_freshened {start : Nat} (hnodup : a.params.Nodup)
    (hnamed : ∀ p ∈ a.params, p.name ≠ none)
    (hparams : b.params = freshened start a.params)
    (hnew : ∀ f ∈ b.params, f ∉ a.params ++ a.body.parameters)
    (hshape : b.body.shape = a.body.shape.rename (unifier a.params b.params)) : a.Alike b := by
  have hlength : a.params.length = b.params.length := by rw [hparams, length_freshened]
  have hnames : List.Forall₂ (fun p q => q.print = p.print) a.params b.params :=
    hparams ▸ forall₂_print_freshened hnamed start
  constructor
  · rw [print, print, printParams_of_forall₂ hnames,
      Expr.print_of_shape_eq_rename_unifier hnames hshape]
  · intro evaluator args
    refine agrees_invoke hlength (fun args history => ?_) args
    have hfresh : b.params.Nodup := hparams ▸ nodup_freshened start a.params
    exact (evaluate_unified (Comparison.agreement evaluator) Comparison.lenient_agreement hnodup
      hfresh hlength hnew hshape args history).symm

/-- Neither the type of the elements nor the serial of the value matters for a search. -/
theorem alike_search (params : List Parameter) (source : Expr) (value : Value)
    (serial serial' serial₁ serial₁' : Nat) (element element' type type' : Ty) :
    Alike ⟨params, .call serial (.sequence .contains element)
        [source, .constant serial₁ value type]⟩
      ⟨params, .call serial' (.sequence .contains element')
        [source, .constant serial₁' value type']⟩ := by
  constructor
  · rfl
  · intro evaluator args
    refine agrees_invoke ?_ (fun args history => ?_) args
    · rfl
    · simp only [Evaluator.evaluate]

end Lambda

/-! ## What stands behind a selector -/

namespace Build

variable {session session' : Session}

/-- The shape of a spliced body. -/
theorem shape_of_runIn_splice {selector continuation spliced : Lambda} {x : Parameter}
    (hparams : continuation.params = [x])
    (h : runIn (selector.splice continuation) session = (.ok spliced, session')) :
    spliced.params = selector.params ∧ spliced.body.shape
      = continuation.body.shape.fill (Expr.replacing (.parameter x) selector.body.shape) := by
  obtain ⟨-, hspliced, -, hsubst⟩ := spliced_of_runIn hparams h
  exact ⟨hspliced, hsubst.shape_eq.trans (Expr.shape_fill_replacing x selector.body _)⟩

/-- The new parameter of a join does not get in the way of what is put in its place. -/
theorem fill_unified {p : Lambda} {x f : Parameter} {params : List Parameter} {body r : Expr}
    (hp : p.Valid session) (hparams : p.params = [x]) (hx : x ∉ p.body.binders)
    (hf : f ∈ freshened session.parameters params)
    (hbody : body.shape = p.body.shape.rename (unifier p.params [f])) :
    (body.fill (Expr.replacing (.parameter f) r)).shape
      = p.body.shape.fill (Expr.replacing (.parameter x) r.shape) := by
  have hnew : f ∉ p.body.shape.parameters := by
    rw [Expr.parameters_shape]
    exact fun hmem => hp.notMem_of_mem_freshened hf (List.mem_append_right _ hmem)
  have hunifier : unifier p.params [f] = x.redirect f := by rw [hparams]; rfl
  rw [Expr.shape_fill_replacing, hbody, hunifier]
  exact Expr.fill_rename_redirect hnew (by rwa [Expr.binders_shape]) r.shape

/-- A selector put in front of a joined predicate stands in both bodies. -/
theorem shape_of_runIn_join_splice {connective : Connective} {s p q left : Lambda}
    {x y : Parameter} (hp : p.Valid session) (hq : q.Valid session) (hxp : p.params = [x])
    (hyq : q.params = [y]) (hx : x ∉ p.body.binders) (hy : y ∉ q.body.binders)
    (h : runIn (do s.splice (← p.join connective q)) session = (.ok left, session')) :
    left.params = s.params ∧ left.body.shape = .binary 0 connective.toOperator
      (p.body.shape.fill (Expr.replacing (.parameter x) s.body.shape))
      (q.body.shape.fill (Expr.replacing (.parameter y) s.body.shape)) := by
  rw [runIn_bind_ok] at h
  obtain ⟨joined, middle, hjoin, hsplice⟩ := h
  obtain ⟨-, hfresh, serial, leftBody, rightBody, hbody, hleft, hright⟩ := joined_of_runIn hjoin
  obtain ⟨f, hf⟩ := exists_param_of_runIn_splice hsplice
  obtain ⟨-, hspliced, -, hsubst⟩ := spliced_of_runIn hf hsplice
  have hnew : f ∈ freshened session.parameters p.params :=
    hfresh ▸ hf ▸ List.mem_singleton_self f
  rw [hf] at hleft hright
  refine ⟨hspliced, ?_⟩
  rw [hsubst.shape_eq, hbody, Expr.fill_replacing_binary, Expr.shape,
    fill_unified hp hxp hx hnew hleft, fill_unified hq hyq hy hnew hright]

end Build

namespace Lambda

variable {session session' last last' : Session} {s left right : Lambda}

/-- **A selector may be put in front of two predicates before or after they are joined.** -/
theorem alike_splice_join {connective : Connective} {p q : Lambda}
    (hp : p.Valid session) (hq : q.Valid session)
    (hs' : s.Valid session') (hp' : p.Valid session') (hq' : q.Valid session')
    (hnamed : ∀ r ∈ s.params, r.name ≠ none)
    (hown : ∀ x ∈ p.params, x ∉ p.body.binders) (hown' : ∀ y ∈ q.params, y ∉ q.body.binders)
    (hleft : Build.runIn (do s.splice (← p.join connective q)) session = (.ok left, last))
    (hright : Build.runIn (do (← s.splice p).join connective (← s.splice q)) session'
      = (.ok right, last')) :
    left.Alike right := by
  simp only [Build.runIn_bind_ok] at hright
  obtain ⟨a, first, ha, b, second, hb, hjoin⟩ := hright
  obtain ⟨x, hx⟩ := Build.exists_param_of_runIn_splice ha
  obtain ⟨y, hy⟩ := Build.exists_param_of_runIn_splice hb
  obtain ⟨haparams, hashape⟩ := Build.shape_of_runIn_splice hx ha
  obtain ⟨hbparams, hbshape⟩ := Build.shape_of_runIn_splice hy hb
  have hgrows : session'.parameters ≤ first.parameters :=
    (Build.Grows.splice s p).parameters_le ha
  have hgrows' : first.parameters ≤ second.parameters :=
    (Build.Grows.splice s q).parameters_le hb
  have hvalid : a.Valid second := (Build.valid_of_splice ha hs' hp').mono hgrows'
  have hvalid' : b.Valid second := Build.valid_of_splice hb (hs'.mono hgrows) (hq'.mono hgrows)
  -- In between stands the connective of the two spliced bodies, over the parameters of the selector.
  have hmiddle : left.Alike ⟨s.params, .binary 0 connective.toOperator a.body b.body⟩ := by
    obtain ⟨hparams, hshape⟩ := Build.shape_of_runIn_join_splice hp hq hx hy
      (hown x (hx ▸ List.mem_singleton_self x)) (hown' y (hy ▸ List.mem_singleton_self y)) hleft
    refine alike_of_shape_eq hparams ?_
    rw [hshape, Expr.shape, hashape, hbshape]
  obtain ⟨-, hfresh, serial, leftBody, rightBody, hbody, hl, hr⟩ := Build.joined_of_runIn hjoin
  rw [haparams] at hfresh hl
  rw [hbparams] at hr
  refine hmiddle.trans (alike_of_freshened (haparams ▸ hvalid.wellFormed.1) hnamed hfresh ?_ ?_)
  · intro f hf
    rw [hfresh] at hf
    have ha := hvalid.notMem_of_mem_freshened hf
    have hb := hvalid'.notMem_of_mem_freshened hf
    rw [List.mem_append, not_or] at ha hb
    rw [Expr.parameters_binary, List.mem_append, List.mem_append, not_or, not_or]
    exact ⟨haparams ▸ ha.1, ha.2, hb.2⟩
  · rw [hbody, Expr.shape, Expr.shape, Expr.rename, hl, hr]

/-- **A selector may be put in front of a sequence before or after a predicate is lifted over it.** -/
theorem alike_splice_lift {quantifier : Quantifier} {selector predicate : Lambda}
    (hclosed : predicate.isClosed = true)
    (hapart : ∀ x ∈ selector.params, x ∉ predicate.params ∧ x ∉ predicate.body.binders)
    (hleft : Build.runIn (do lift quantifier (← s.splice selector) predicate) session
      = (.ok left, last))
    (hright : Build.runIn (do s.splice (← lift quantifier selector predicate)) session'
      = (.ok right, last')) :
    left.Alike right := by
  simp only [Build.runIn_bind_ok] at hleft hright
  obtain ⟨front, _, hfront, hleft⟩ := hleft
  obtain ⟨lifted, _, hlifted, hright⟩ := hright
  obtain ⟨x, hx⟩ := Build.exists_param_of_runIn_splice hfront
  obtain ⟨hparams, hshape⟩ := Build.shape_of_runIn_splice hx hfront
  obtain ⟨_, serial, p, hp, rfl⟩ := Build.lifted_of_runIn hleft
  obtain ⟨_, serial', p', hp', rfl⟩ := Build.lifted_of_runIn hlifted
  obtain ⟨hparams', hshape'⟩ := Build.shape_of_runIn_splice (by exact hx) hright
  obtain rfl : p = p' := by simpa [hp] using hp'
  -- The parameter of the sequence does not occur in the predicate, which is closed.
  have hpredicate : x ∉ (Expr.lambda 0 predicate.params predicate.body.shape).parameters := by
    have hown := hapart x (hx ▸ List.mem_singleton_self x)
    rw [Expr.parameters_lambda, Expr.parameters_shape, List.mem_append, not_or]
    exact ⟨hown.1, notMem_parameters_of_isClosed hclosed (List.mem_append.not.mpr (not_or.mpr hown))⟩
  refine alike_of_shape_eq (hparams.trans hparams'.symm) ?_
  rw [hshape']
  simp only [Expr.shape, Expr.shapeAll_eq_map, List.map_cons, List.map_nil,
    Expr.fill_replacing_call, Expr.fill_replacing_of_notMem hpredicate, hshape]

/-- **A selector may be put in front of a sequence before or after a value is looked for in it.** -/
theorem alike_splice_contains {selector : Lambda} {value : Value}
    (hleft : Build.runIn (do (← s.splice selector).contains value) session = (.ok left, last))
    (hright : Build.runIn (do s.splice (← selector.contains value)) session' = (.ok right, last')) :
    left.Alike right := by
  simp only [Build.runIn_bind_ok] at hleft hright
  obtain ⟨front, _, hfront, hleft⟩ := hleft
  obtain ⟨search, _, hsearch, hright⟩ := hright
  obtain ⟨x, hx⟩ := Build.exists_param_of_runIn_splice hfront
  obtain ⟨hparams, hshape⟩ := Build.shape_of_runIn_splice hx hfront
  obtain ⟨_, _, _, _, rfl⟩ := Build.contains_of_runIn hleft
  obtain ⟨serial, serial', element, type, rfl⟩ := Build.contains_of_runIn hsearch
  obtain ⟨hparams', hshape'⟩ := Build.shape_of_runIn_splice (by exact hx) hright
  -- The two searches may differ in the types they were built with.
  refine (alike_search front.params front.body value _ serial _ serial' _ element _ type).trans ?_
  refine alike_of_shape_eq (hparams.trans hparams'.symm) ?_
  rw [hshape']
  simp only [Expr.shape, Expr.shapeAll_eq_map, List.map_cons, List.map_nil,
    Expr.fill_replacing_call, Expr.fill_replacing_constant, hshape]

end Lambda

/-! ## Everything that can be built -/

namespace Workspace

variable {w w' : Workspace} {s : Lambda}

/-- **Putting a selector in front commutes with combining.** Take a selector with named parameters,
and combine in one session what it was put in front of, and put it in another session in front of
what was combined. Whenever both succeed, the results are alike: for the join of two predicates that
do not declare their own parameter once more inside, for a predicate lifted over a sequence that is
closed and shares no bound parameter with what selects the sequence, and for a value looked for. -/
theorem Reachable.splice_commutes (hw : w.Reachable) (hw' : w'.Reachable) (hs' : s ∈ w'.lambdas)
    (hnamed : ∀ r ∈ s.params, r.name ≠ none) :
    (∀ connective p q left right, p ∈ w.lambdas → q ∈ w.lambdas → p ∈ w'.lambdas →
      q ∈ w'.lambdas → p.params.Disjoint p.body.binders → q.params.Disjoint q.body.binders →
      (Build.runIn (do s.splice (← p.join connective q)) w.session).1 = .ok left →
      (Build.runIn (do (← s.splice p).join connective (← s.splice q)) w'.session).1 = .ok right →
      left.Alike right) ∧
    (∀ quantifier selector predicate left right, predicate.isClosed = true →
      selector.params.Disjoint (predicate.params ++ predicate.body.binders) →
      (Build.runIn (do Lambda.lift quantifier (← s.splice selector) predicate) w.session).1
        = .ok left →
      (Build.runIn (do s.splice (← Lambda.lift quantifier selector predicate)) w'.session).1
        = .ok right →
      left.Alike right) ∧
    ∀ selector value left right,
      (Build.runIn (do (← s.splice selector).contains value) w.session).1 = .ok left →
      (Build.runIn (do s.splice (← selector.contains value)) w'.session).1 = .ok right →
      left.Alike right := by
  have hvalid := hw.sound.lambdas
  have hvalid' := hw'.sound.lambdas
  refine ⟨?_, ?_, ?_⟩
  · intro connective p q left right hp hq hp' hq' hown hown' hleft hright
    exact Lambda.alike_splice_join (hvalid p hp) (hvalid q hq) (hvalid' s hs') (hvalid' p hp')
      (hvalid' q hq') hnamed (fun x hx h => hown hx h) (fun y hy h => hown' hy h)
      (Prod.ext hleft rfl) (Prod.ext hright rfl)
  · intro quantifier selector predicate left right hclosed hapart hleft hright
    refine Lambda.alike_splice_lift hclosed (fun x hx => ?_) (Prod.ext hleft rfl)
      (Prod.ext hright rfl)
    exact not_or.mp fun h => hapart hx (List.mem_append.mpr h)
  · intro selector value left right hleft hright
    exact Lambda.alike_splice_contains (Prod.ext hleft rfl) (Prod.ext hright rfl)

namespace Fronted

def o : Parameter := ⟨0, some "o", .entity "Order"⟩

def t : Parameter := ⟨1, some "t", .sequence .boolean⟩

def u : Parameter := ⟨2, some "u", .sequence .boolean⟩

def v : Parameter := ⟨3, some "v", .sequence .boolean⟩

def b : Parameter := ⟨4, some "b", .boolean⟩

/-- `o => o.Flags`. -/
def flags : Lambda := ⟨[o], .member 0 (.parameter o) "Flags" (.sequence .boolean)⟩

/-- `t => (t == t)`. -/
def same : Lambda := ⟨[t], .binary 1 .eq (.parameter t) (.parameter t)⟩

/-- `u => (u != u)`. -/
def other : Lambda := ⟨[u], .binary 2 .ne (.parameter u) (.parameter u)⟩

/-- `v => v`. -/
def all : Lambda := ⟨[v], .parameter v⟩

/-- `b => b`. -/
def holds : Lambda := ⟨[b], .parameter b⟩

/-- A selector of flags, two predicates on them, and what is needed to ask for one that holds. -/
def workspace : Workspace where
  session := { serials := 3, parameters := 5 }
  exprs := [other.body, same.body, flags.body, .parameter b, .parameter v, .parameter u,
    .parameter t, .parameter o]
  lambdas := [flags, same, other, all, holds]

theorem reachable : workspace.Reachable := by
  have hparameters : Reachable ⟨{ parameters := 5 },
      [.parameter b, .parameter v, .parameter u, .parameter t, .parameter o], []⟩ :=
    .step (.step (.step (.step (.step .start
      (.built (.parameter (some "o") (.entity "Order")) rfl))
      (.built (.parameter (some "t") (.sequence .boolean)) rfl))
      (.built (.parameter (some "u") (.sequence .boolean)) rfl))
      (.built (.parameter (some "v") (.sequence .boolean)) rfl))
      (.built (.parameter (some "b") .boolean) rfl)
  have hbodies : Reachable { workspace with lambdas := [] } :=
    .step (.step (.step hparameters
      (.built (@Builds.member _ (.parameter o) "Flags" (.sequence .boolean) (by simp)) rfl))
      (.built (@Builds.binary _ (.parameter t) (.parameter t) .eq (by simp) (by simp)) rfl))
      (.built (@Builds.binary _ (.parameter u) (.parameter u) .ne (by simp) (by simp)) rfl)
  have hpredicates : Reachable { workspace with lambdas := [other, all, holds] } :=
    .step (.step (.step hbodies
      (.builtLambda (@BuildsLambda.lambda _ [b] (.parameter b) (by simp [workspace])
        (by simp [workspace])) rfl))
      (.builtLambda (@BuildsLambda.lambda _ [v] (.parameter v) (by simp [workspace])
        (by simp [workspace])) rfl))
      (.builtLambda (@BuildsLambda.lambda _ [u] other.body (by simp [workspace])
        (by simp [workspace])) rfl)
  exact .step (.step hpredicates
    (.builtLambda (@BuildsLambda.lambda _ [t] same.body (by simp [workspace])
      (by simp [workspace])) rfl))
    (.builtLambda (@BuildsLambda.lambda _ [o] flags.body (by simp [workspace])
      (by simp [workspace])) rfl)

/-- The selector of flags commutes with each of the three combinations. -/
theorem splice_flags_commutes :
    (∃ left right,
      (Build.runIn (do flags.splice (← same.join .or other)) workspace.session).1 = .ok left ∧
      (Build.runIn (do (← flags.splice same).join .or (← flags.splice other))
        workspace.session).1 = .ok right ∧ left.Alike right) ∧
    (∃ left right,
      (Build.runIn (do Lambda.lift .any (← flags.splice all) holds) workspace.session).1
        = .ok left ∧
      (Build.runIn (do flags.splice (← Lambda.lift .any all holds)) workspace.session).1
        = .ok right ∧ left.Alike right) ∧
    ∃ left right,
      (Build.runIn (do (← flags.splice all).contains (.boolean true)) workspace.session).1
        = .ok left ∧
      (Build.runIn (do flags.splice (← all.contains (.boolean true))) workspace.session).1
        = .ok right ∧ left.Alike right := by
  have hnamed : ∀ r ∈ flags.params, r.name ≠ none :=
    List.forall_mem_singleton.mpr (Option.some_ne_none _)
  obtain ⟨hjoin, hlift, hcontains⟩ :=
    reachable.splice_commutes reachable (by simp [workspace]) hnamed
  refine ⟨⟨_, _, rfl, rfl, ?_⟩, ⟨_, _, rfl, rfl, ?_⟩, ⟨_, _, rfl, rfl, ?_⟩⟩
  · exact hjoin .or same other _ _ (by simp [workspace]) (by simp [workspace])
      (by simp [workspace]) (by simp [workspace]) (List.disjoint_nil_right [t])
      (List.disjoint_nil_right [u]) rfl rfl
  · have hapart : [v].Disjoint [b] := List.disjoint_singleton.mpr (by decide)
    exact hlift .any all holds _ _ rfl hapart rfl rfl
  · exact hcontains all (.boolean true) _ _ rfl rfl

end Fronted

end Workspace

end ExprTree
