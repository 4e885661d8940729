/-
# Joining many predicates

Joins of optional predicates, in any bracketing. Where the members take parameters of the same types
and give truth values no join fails, and what comes out depends on the sequence of members alone: none
if there is none, the very same predicate if there is one, and otherwise a predicate that runs the
members in order until one of them decides the answer.
-/
import Mathlib.Data.List.ReduceOption
import ExprTree.Proofs.JoinMeaning
import ExprTree.Proofs.Rebinding

namespace ExprTree

open EvalM

/-! ## Tests in order -/

/-- How connected tests are bracketed does not matter. -/
theorem Connective.connect_assoc (connective : Connective) (a b c : EvalM Bool) :
    connective.connect (connective.connect a b) c
      = connective.connect a (connective.connect b c) := by
  cases connective with
  | and =>
      simp only [connect, bind_assoc]
      refine bind_congr fun x => ?_
      cases x <;> simp
  | or =>
      simp only [connect, bind_assoc]
      refine bind_congr fun x => ?_
      cases x <;> simp

namespace Evaluator

/-- Test predicates in order until one decides the answer: the first that fails to hold decides a
conjunction, the first that holds a disjunction. -/
def testAll (evaluator : Evaluator) (connective : Connective) (predicates : List Lambda)
    (args : List Value) : EvalM Bool :=
  match connective with
  | .and => predicates.allM fun predicate => evaluator.test predicate args
  | .or => predicates.anyM fun predicate => evaluator.test predicate args

variable {evaluator : Evaluator} {connective : Connective} {args : List Value}

/-- The first predicate is connected with those behind it. -/
theorem testAll_cons {predicate : Lambda} {predicates : List Lambda} :
    evaluator.testAll connective (predicate :: predicates) args =
      connective.connect (evaluator.test predicate args)
        (evaluator.testAll connective predicates args) := by
  cases connective <;> exact bind_congr fun b => by cases b <;> rfl

/-- To test one predicate is to run it. -/
theorem testAll_singleton {predicate : Lambda} :
    evaluator.testAll connective [predicate] args = evaluator.test predicate args := by
  rw [testAll_cons]
  refine Eq.trans ?_ (bind_pure _)
  cases connective <;> exact bind_congr fun b => by cases b <;> rfl

/-- Tests of two lists are connected with each other. -/
theorem testAll_append {front back : List Lambda} :
    evaluator.testAll connective (front ++ back) args =
      connective.connect (evaluator.testAll connective front args)
        (evaluator.testAll connective back args) := by
  induction front with
  | nil => cases connective <;> exact (pure_bind _ _).symm
  | cons predicate front ih =>
      rw [List.cons_append, testAll_cons, ih, testAll_cons, connective.connect_assoc]

end Evaluator

/-! ## What a join of members comes to -/

/-- The optional predicate stands for the join of the members: there is none for no member, one member
stands for itself, and for several there is a predicate that tests them in order, with the native calls
of those that are run. -/
inductive Represents (connective : Connective) : List Lambda → Option Lambda → Prop
  | nobody : Represents connective [] none
  | itself (member : Lambda) : Represents connective [member] (some member)
  | several {members : List Lambda} {joined : Lambda} : 2 ≤ members.length →
      (∀ (evaluator : Evaluator) (args : List Value),
        (evaluator.test joined args).Agrees (evaluator.testAll connective members args)) →
      Represents connective members (some joined)

namespace Represents

variable {connective : Connective} {members front back : List Lambda}

theorem eq_nil (h : Represents connective members none) : members = [] := by
  cases h
  rfl

theorem length_pos {joined : Lambda} (h : Represents connective members (some joined)) :
    1 ≤ members.length := by
  cases h with
  | itself => exact Nat.le_refl 1
  | several hlength => exact Nat.le_of_succ_le hlength

/-- The predicate that stands for some members tests them in order. -/
theorem agrees {joined : Lambda} (h : Represents connective members (some joined))
    (evaluator : Evaluator) (args : List Value) :
    (evaluator.test joined args).Agrees (evaluator.testAll connective members args) := by
  cases h with
  | itself =>
      rw [Evaluator.testAll_singleton]
      exact fun _ => rfl
  | several _ hagrees => exact hagrees evaluator args

/-- **A join of what stands for two lists stands for both lists together.** -/
theorem join {session session' : Session} {left right joined : Lambda}
    (hl : Represents connective front (some left)) (hr : Represents connective back (some right))
    (hleft : left.Valid session) (hright : right.Valid session)
    (h : (left.join connective right).runIn session = (.ok joined, session')) :
    Represents connective (front ++ back) (some joined) := by
  refine .several ?_ fun evaluator args => ?_
  · have := hl.length_pos
    have := hr.length_pos
    rw [List.length_append]
    omega
  · have hconnect := (Comparison.agreement evaluator).connect connective
      (hl.agrees evaluator args) (hr.agrees evaluator args)
    rw [Evaluator.testAll_append]
    exact (Comparison.agreement evaluator).trans
      (Lambda.test_joined (Comparison.agreement evaluator) Comparison.lenient_agreement hleft hright h
        args) hconnect

end Represents

/-! ## Joins in any bracketing -/

/-- The lambda is a predicate on arguments of the given types. -/
structure Lambda.Predicate (session : Session) (types : List Ty) (lambda : Lambda) : Prop where
  valid : lambda.Valid session
  paramTypes : lambda.paramTypes = types
  resultType : lambda.resultType = .boolean

theorem Lambda.Predicate.mono {session session' : Session} {types : List Ty} {lambda : Lambda}
    (h : lambda.Predicate session types) (hle : session.parameters ≤ session'.parameters) :
    lambda.Predicate session' types :=
  ⟨h.valid.mono hle, h.paramTypes, h.resultType⟩

/-- The joined predicate stands for the members and is a predicate as they are. -/
structure Joins (connective : Connective) (session : Session) (types : List Ty)
    (members : List Lambda) (joined : Option Lambda) : Prop where
  represents : Represents connective members joined
  predicate : ∀ lambda ∈ joined, lambda.Predicate session types

section Joining

variable {connective : Connective} {types : List Ty} {session : Session}

theorem Joins.mono {session' : Session} {members : List Lambda} {joined : Option Lambda}
    (h : Joins connective session types members joined)
    (hle : session.parameters ≤ session'.parameters) :
    Joins connective session' types members joined :=
  ⟨h.represents, fun lambda hmem => (h.predicate lambda hmem).mono hle⟩

/-- **One join.** It succeeds, and what comes out joins the members of both sides. -/
theorem Joins.exists_joinOptional {front back : List Lambda} {left right : Option Lambda}
    (hl : Joins connective session types front left)
    (hr : Joins connective session types back right) :
    ∃ joined session',
      (Lambda.joinOptional connective left right).runIn session = (.ok joined, session') ∧
      session.parameters ≤ session'.parameters ∧
      Joins connective session' types (front ++ back) joined := by
  cases left with
  | none =>
      refine ⟨right, session, rfl, Nat.le_refl _, ?_⟩
      rwa [hl.represents.eq_nil, List.nil_append]
  | some left =>
      cases right with
      | none =>
          refine ⟨some left, session, rfl, Nat.le_refl _, ?_⟩
          rwa [hr.represents.eq_nil, List.append_nil]
      | some right =>
          have hleft := hl.predicate left rfl
          have hright := hr.predicate right rfl
          obtain ⟨joined, session', hrun⟩ := Build.succeeds_join connective
            hleft.valid hright.valid (hleft.paramTypes.trans hright.paramTypes.symm)
            hleft.resultType hright.resultType
          obtain ⟨hparamTypes, hresultType⟩ := Build.typed_of_join hrun
          refine ⟨some joined, session', Build.runIn_bind_ok.mpr ⟨joined, session', hrun, rfl⟩,
            (Build.Grows.join _ _ _).parameters_le hrun,
            hl.represents.join hr.represents hleft.valid hright.valid hrun, ?_⟩
          rintro lambda ⟨rfl⟩
          exact ⟨Build.valid_of_join hrun hleft.valid hright.valid,
            hparamTypes.trans hleft.paramTypes, hresultType⟩

end Joining

/-- A way to put brackets into a sequence of joins of optional predicates. -/
inductive Bracketing where
  | leaf (predicate : Option Lambda)
  | node (left right : Bracketing)

namespace Bracketing

/-- The predicates joined, from left to right. -/
def leaves : Bracketing → List (Option Lambda)
  | .leaf predicate => [predicate]
  | .node left right => left.leaves ++ right.leaves

/-- Do the joins, those on the left first. -/
def join (connective : Connective) : Bracketing → Build (Option Lambda)
  | .leaf predicate => return predicate
  | .node left right => do
      let left ← join connective left
      let right ← join connective right
      Lambda.joinOptional connective left right

/-- The bracketing in which each predicate is joined to all in front of it. -/
def comb (start : Bracketing) (predicates : List (Option Lambda)) : Bracketing :=
  predicates.foldl (fun bracketing predicate => .node bracketing (.leaf predicate)) start

theorem leaves_comb (start : Bracketing) (predicates : List (Option Lambda)) :
    (start.comb predicates).leaves = start.leaves ++ predicates := by
  induction predicates generalizing start with
  | nil => exact (List.append_nil _).symm
  | cons predicate predicates ih =>
      rw [comb, List.foldl_cons, ← comb, ih, leaves, List.append_assoc]
      rfl

theorem join_comb (connective : Connective) (start : Bracketing)
    (predicates : List (Option Lambda)) :
    (start.comb predicates).join connective =
      start.join connective >>= fun first => predicates.foldlM (Lambda.joinOptional connective) first
    := by
  induction predicates generalizing start with
  | nil => exact (bind_pure _).symm
  | cons predicate predicates ih =>
      rw [comb, List.foldl_cons, ← comb, ih, join, bind_assoc]
      simp only [join, pure_bind, List.foldlM_cons]

/-- Joining from left to right is one way to bracket. -/
theorem joinAll_eq_join_comb (connective : Connective) (predicates : List (Option Lambda)) :
    Lambda.joinAll connective predicates = ((leaf none).comb predicates).join connective := by
  rw [join_comb, join, pure_bind, Lambda.joinAll]

/-- **All joins of a bracketing succeed**, and what comes out joins the predicates that are there. -/
theorem exists_join (connective : Connective) {types : List Ty} {session : Session}
    (bracketing : Bracketing)
    (h : ∀ lambda ∈ bracketing.leaves.reduceOption, lambda.Predicate session types) :
    ∃ joined session', (bracketing.join connective).runIn session = (.ok joined, session') ∧
      session.parameters ≤ session'.parameters ∧
      Joins connective session' types bracketing.leaves.reduceOption joined := by
  induction bracketing generalizing session with
  | leaf predicate =>
      cases predicate with
      | none => exact ⟨none, session, rfl, Nat.le_refl _, .nobody, nofun⟩
      | some lambda =>
          refine ⟨some lambda, session, rfl, Nat.le_refl _, .itself lambda, ?_⟩
          rintro _ ⟨rfl⟩
          exact h lambda (by simp [leaves, List.reduceOption])
  | node left right ihl ihr =>
      rw [leaves, List.reduceOption_append] at h ⊢
      obtain ⟨l, middle, hl, hle, hleft⟩ :=
        ihl fun lambda hmem => h lambda (List.mem_append_left _ hmem)
      obtain ⟨r, last, hr, hle', hright⟩ :=
        ihr fun lambda hmem => (h lambda (List.mem_append_right _ hmem)).mono hle
      -- What the left joins gave is still a predicate after the joins on the right.
      obtain ⟨joined, session', hrun, hle'', hjoins⟩ := (hleft.mono hle').exists_joinOptional hright
      refine ⟨joined, session', ?_, by omega, hjoins⟩
      exact Build.runIn_bind_ok.mpr ⟨l, middle, hl, Build.runIn_bind_ok.mpr ⟨r, last, hr, hrun⟩⟩

end Bracketing

namespace Workspace

/-- **Folding optional predicates.** Where those that are there take parameters of the same types and
give truth values, joining them from left to right never fails; it gives none if there is none, the
very same predicate if there is one, and otherwise a predicate that tests all in order, stopping where
one decides the answer or fails, with the native calls of those run. So does any other way to bracket
joins of the same predicates in the same order. -/
theorem Reachable.exists_joinAll {w : Workspace} (hw : w.Reachable) {types : List Ty}
    {predicates : List (Option Lambda)}
    (hpredicates : ∀ lambda ∈ predicates.reduceOption, lambda ∈ w.lambdas ∧
      lambda.paramTypes = types ∧ lambda.resultType = .boolean) (connective : Connective) :
    (∃ joined session',
      (Lambda.joinAll connective predicates).runIn w.session = (.ok joined, session') ∧
      Represents connective predicates.reduceOption joined) ∧
    ∀ bracketing : Bracketing, bracketing.leaves.reduceOption = predicates.reduceOption →
      ∃ joined session', (bracketing.join connective).runIn w.session = (.ok joined, session') ∧
        Represents connective predicates.reduceOption joined := by
  have hbracketing : ∀ bracketing : Bracketing,
      bracketing.leaves.reduceOption = predicates.reduceOption →
      ∃ joined session', (bracketing.join connective).runIn w.session = (.ok joined, session') ∧
        Represents connective predicates.reduceOption joined := by
    intro bracketing hleaves
    have hmembers : ∀ lambda ∈ bracketing.leaves.reduceOption,
        lambda.Predicate w.session types := by
      intro lambda hmem
      obtain ⟨hheld, hparamTypes, hresultType⟩ := hpredicates lambda (hleaves ▸ hmem)
      exact ⟨hw.sound.lambdas lambda hheld, hparamTypes, hresultType⟩
    obtain ⟨joined, session', hrun, -, hjoins⟩ :=
      bracketing.exists_join connective hmembers
    exact ⟨joined, session', hrun, hleaves ▸ hjoins.represents⟩
  refine ⟨?_, hbracketing⟩
  rw [Bracketing.joinAll_eq_join_comb]
  exact hbracketing _ (by rw [Bracketing.leaves_comb]; rfl)

namespace Filters

def x : Parameter := ⟨0, some "x", .boolean⟩

/-- `x => x`. -/
def positive : Lambda := ⟨[x], .parameter x⟩

/-- `x => !x`. -/
def negative : Lambda := ⟨[x], .unary 0 .not (.parameter x)⟩

/-- Two predicates over one parameter. -/
def workspace : Workspace where
  session := { serials := 1, parameters := 1 }
  exprs := [negative.body, .parameter x]
  lambdas := [negative, positive]

theorem reachable : workspace.Reachable := by
  have hparameter : Reachable ⟨{ parameters := 1 }, [.parameter x], []⟩ :=
    .step .start (.built (.parameter (some "x") .boolean) rfl)
  have hexprs : Reachable { workspace with lambdas := [] } :=
    .step hparameter (.built (@Builds.unary _ (.parameter x) .not (by simp)) rfl)
  have hpositive : Reachable { workspace with lambdas := [positive] } :=
    .step hexprs (.builtLambda (@BuildsLambda.lambda _ [x] (.parameter x)
      (by simp [workspace]) (by simp [workspace])) rfl)
  exact .step hpositive (.builtLambda (@BuildsLambda.lambda _ [x] negative.body
    (by simp [workspace]) (by simp [workspace])) rfl)

/-- Three filters, one of them used twice, and one that is missing. -/
theorem exists_joinAll_filters :
    ∃ joined session', (Lambda.joinAll .and [none, some positive, some negative, some positive]).runIn
        workspace.session = (.ok joined, session') ∧
      Represents .and [positive, negative, positive] joined :=
  (@reachable.exists_joinAll _ [.boolean] [none, some positive, some negative, some positive]
    (by simp [List.reduceOption, workspace, positive, negative, Lambda.paramTypes,
      Lambda.resultType, x, Expr.type, UnaryOp.resultType]) .and).1

end Filters

end Workspace

end ExprTree
