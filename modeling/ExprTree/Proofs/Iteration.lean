/-
# Iterated continuations

A continuation put behind the identity again and again. No round fails. Each one puts all that was
built before in every place where the continuation uses its parameter, so the places of the
parameter of the chain are counted by a power, and a run of the chain is a run of the continuation
for each round.
-/
import ExprTree.Proofs.Acceptance
import ExprTree.Proofs.Accounting
import ExprTree.Proofs.Scopes
import ExprTree.Proofs.SpliceMeaning

namespace ExprTree

/-! ## Rounds -/

namespace Lambda

/-- Put a continuation behind `x => x`, a number of times. -/
def tails (x : Parameter) (continuation : Lambda) : Nat → Build Lambda
  | 0 => Build.lambda [x] (.parameter x)
  | k + 1 => do
      let chain ← tails x continuation k
      chain.splice continuation

end Lambda

namespace Evaluator

/-- Run a lambda on a value, then on what it returned, a number of times. -/
def iterate (evaluator : Evaluator) (lambda : Lambda) : Nat → Value → EvalM Value
  | 0, value => pure value
  | k + 1, value => do
      let result ← iterate evaluator lambda k value
      evaluator.invoke lambda [result]

end Evaluator

namespace Lambda

open ExprTree.Expr

variable {x p : Parameter} {chain next continuation : Lambda} {session session' : Session}

/-- A closed lambda from the type of `x` to that type. No lambda inside declares its parameter `p`
again, and `x` does not stand in it. -/
structure Repeatable (x p : Parameter) (continuation : Lambda) : Prop where
  params : continuation.params = [p]
  paramType : p.type = x.type
  resultType : continuation.resultType = x.type
  isClosed : continuation.isClosed = true
  declaredOnce : p ∉ continuation.body.binders
  absent : x ∉ continuation.body.parameters

/-- What every round leaves: a closed lambda from the type of `x` to that type, over `x` itself. -/
structure IsChain (x : Parameter) (chain : Lambda) : Prop where
  params : chain.params = [x]
  resultType : chain.resultType = x.type
  isClosed : chain.isClosed = true

/-- The identity is a chain without a round. -/
theorem IsChain.identity (x : Parameter) : IsChain x ⟨[x], .parameter x⟩ := by
  refine ⟨rfl, rfl, ?_⟩
  simp [Lambda.isClosed, Lambda.free]

namespace Repeatable

/-- **A round succeeds.** -/
theorem succeeds_splice (h : Repeatable x p continuation) (hbody : continuation.body.WellFormed)
    (hchain : IsChain x chain) (session : Session) :
    Build.Succeeds (chain.splice continuation) session := by
  have htype : chain.resultType = p.type := hchain.resultType.trans h.paramType.symm
  have hnodup : chain.params.Nodup := by
    rw [hchain.params]
    exact List.nodup_singleton x
  exact Build.succeeds_splice session h.params htype hnodup hbody h.declaredOnce

/-- A round leaves a chain. -/
theorem isChain_spliced (h : Repeatable x p continuation) (hchain : IsChain x chain)
    (hrun : (chain.splice continuation).runIn session = (.ok next, session')) :
    IsChain x next := by
  obtain ⟨-, hparams, -, hsubst⟩ := Build.spliced_of_runIn h.params hrun
  have htype : chain.body.type = p.type := hchain.resultType.trans h.paramType.symm
  have hbody : next.body.type = continuation.body.type := hsubst.type_eq (.replacing htype)
  exact ⟨hparams.trans hchain.params, hbody.trans h.resultType,
    isClosed_spliced hchain.isClosed h.isClosed hrun⟩

/-! ## Counting -/

/-- A round multiplies the places of `x` by those of the parameter of the continuation. -/
theorem occurrencesIn_spliced (h : Repeatable x p continuation)
    (hrun : (chain.splice continuation).runIn session = (.ok next, session')) :
    (Expr.parameter x).occurrencesIn next.body
      = (Expr.parameter p).occurrencesIn continuation.body
        * (Expr.parameter x).occurrencesIn chain.body := by
  obtain ⟨first, last, hcopied⟩ := Build.copied_of_runIn_splice h.params hrun
  have hcount := hcopied.occurrencesIn_eq (n := .parameter x) (Or.inr rfl) (fun _ => nofun)
  rw [occurrencesIn_of_notMem_parameters h.absent] at hcount
  by_cases hxp : x = p
  · subst hxp
    rw [occurrencesIn_of_notMem_parameters h.absent] at hcount ⊢
    simpa using hcount
  · have hne : Expr.parameter p ≠ .parameter x := fun heq => hxp (Expr.parameter.inj heq).symm
    rw [occurrencesIn_of_isLeaf rfl hne, Nat.cast_zero, sub_zero, zero_add] at hcount
    exact_mod_cast hcount

/-- A round adds the nodes of the chain, less the one that makes room, for each place of the
parameter. -/
theorem size_spliced (h : Repeatable x p continuation)
    (hrun : (chain.splice continuation).runIn session = (.ok next, session')) :
    (next.body.size : ℤ) = continuation.body.size
      + (Expr.parameter p).occurrencesIn continuation.body * ((chain.body.size : ℤ) - 1) := by
  obtain ⟨first, last, hcopied⟩ := Build.copied_of_runIn_splice h.params hrun
  exact hcopied.size_eq

/-! ## Running -/

/-- **A round runs the continuation on what the chain returns.** -/
theorem sameValue_spliced (h : Repeatable x p continuation) (hchain : IsChain x chain)
    (hrun : (chain.splice continuation).runIn session = (.ok next, session'))
    {evaluator : Evaluator} (hdeterministic : evaluator.Deterministic) {v u : Value}
    {history : History} (hvalue : (evaluator.invoke chain [v]).value? history = some u) :
    (evaluator.invoke next [v]).SameValue (evaluator.invoke continuation [u]) := by
  obtain ⟨-, hparams, -, hsubst⟩ := Build.spliced_of_runIn h.params hrun
  have hargs : [v].length = chain.params.length := by rw [hchain.params]; rfl
  rw [Evaluator.invoke, if_pos hargs] at hvalue
  have hsame := sameValue_evaluate hdeterministic [⟨chain.params, [v]⟩] chain.body
  -- A lambda has no value, so the body of the chain is none.
  have hlambda : chain.body.lambda? = none := by
    cases hbody : chain.body with
    | lambda =>
        rw [hbody] at hvalue
        cases hvalue
    | _ => rfl
  -- Only `x` is free in the chain, and no lambda in the continuation declares it.
  have hbinders : ∀ q ∈ continuation.body.binders, q ≠ p ∧ ¬ OccursFree q chain.body := by
    intro q hq
    refine ⟨fun heq => h.declaredOnce (heq ▸ hq), fun hfree => ?_⟩
    have hmem := mem_params_of_isClosed hchain.isClosed hfree
    rw [hchain.params, List.mem_singleton] at hmem
    exact h.absent (hmem ▸ binders_subset_parameters _ hq)
  exact rel_invoke_spliced (Comparison.lenient_sameValue hdeterministic) h.params hparams
    hsubst.shape_eq h.isClosed hbinders (Or.inl hlambda) hargs (hsame.pure_of_value? hvalue)

end Repeatable

/-! ## All rounds -/

/-- The lambdas that one round after the other gives, the identity first. -/
structure Rounds (x : Parameter) (continuation : Lambda) (chain : ℕ → Lambda) : Prop where
  first : chain 0 = ⟨[x], .parameter x⟩
  isChain : ∀ k, IsChain x (chain k)
  next : ∀ k, ∃ before after,
    ((chain k).splice continuation).runIn before = (.ok (chain (k + 1)), after)

/-- **No round fails.** -/
theorem Repeatable.exists_rounds (h : Repeatable x p continuation)
    (hbody : continuation.body.WellFormed) (session : Session) :
    ∃ chain : ℕ → Lambda,
      (∀ k, ∃ session', (tails x continuation k).runIn session = (.ok (chain k), session')) ∧
      Rounds x continuation chain := by
  have hzero : (tails x continuation 0).runIn session = (.ok ⟨[x], .parameter x⟩, session) :=
    Build.runIn_lambda_ok.mpr ⟨List.nodup_singleton x, rfl, rfl⟩
  have hall : ∀ k, ∃ chain session',
      (tails x continuation k).runIn session = (.ok chain, session') ∧ IsChain x chain := by
    intro k
    induction k with
    | zero => exact ⟨_, _, hzero, .identity x⟩
    | succ k ih =>
        obtain ⟨chain, middle, hrun, hchain⟩ := ih
        obtain ⟨next, last, hnext⟩ := h.succeeds_splice hbody hchain middle
        exact ⟨next, last, Build.runIn_bind_ok.mpr ⟨chain, middle, hrun, hnext⟩,
          h.isChain_spliced hchain hnext⟩
  choose chain session' hrun hchain using hall
  refine ⟨chain, fun k => ⟨session' k, hrun k⟩, ?_, hchain, fun k => ?_⟩
  · have heq := (hrun 0).symm.trans hzero
    exact Except.ok.inj (congrArg Prod.fst heq)
  · -- The run of one more round starts with the run of those before.
    obtain ⟨previous, middle, hprevious, hnext⟩ := Build.runIn_bind_ok.mp (hrun (k + 1))
    obtain ⟨rfl, rfl⟩ : chain k = previous ∧ session' k = middle := by
      simpa [hrun k] using hprevious
    exact ⟨session' k, session' (k + 1), hnext⟩

namespace Rounds

variable {rounds : ℕ → Lambda}

/-- The places of `x` are counted by a power. -/
theorem occurrencesIn_eq_pow (hrounds : Rounds x continuation rounds)
    (h : Repeatable x p continuation) (k : ℕ) :
    (Expr.parameter x).occurrencesIn (rounds k).body
      = (Expr.parameter p).occurrencesIn continuation.body ^ k := by
  induction k with
  | zero => rw [hrounds.first, occurrencesIn_self, pow_zero]
  | succ k ih =>
      obtain ⟨before, after, hrun⟩ := hrounds.next k
      rw [h.occurrencesIn_spliced hrun, ih, pow_succ']

/-- **What the rounds return.** If running the continuation again and again gives a value, then so
does the chain of as many rounds. -/
theorem value?_eq_of_iterate (hrounds : Rounds x continuation rounds)
    (h : Repeatable x p continuation) {evaluator : Evaluator}
    (hdeterministic : evaluator.Deterministic) {v w : Value} {history : History} (k : ℕ)
    (hvalue : (evaluator.iterate continuation k v).value? history = some w) (history' : History) :
    (evaluator.invoke (rounds k) [v]).value? history' = some w := by
  induction k generalizing w history history' with
  | zero =>
      have hself : (evaluator.invoke ⟨[x], .parameter x⟩ [v]) = pure v := by
        simp [Evaluator.invoke, Evaluator.evaluate]
      rw [hrounds.first, hself]
      exact hvalue
  | succ k ih =>
      obtain ⟨before, after, hrun⟩ := hrounds.next k
      obtain ⟨u, middle, hu, hw⟩ := EvalM.value?_bind_eq_some.mp hvalue
      have hchain := ih (congrArg Prod.fst hu) history'
      have hsame := h.sameValue_spliced (hrounds.isChain k) hrun hdeterministic hchain
      rw [hsame.value?_eq history' middle]
      exact hw

end Rounds

end Lambda

namespace Workspace

/-- **Iterated continuations.** Put a closed continuation from a type to the same type behind the
identity of that type again and again; let no lambda inside declare its parameter, and let the
parameter of the identity not stand in it. No round fails. If the parameter stands in `m` places of
the continuation, then after `k` rounds that of the identity stands in `m ^ k` places. The identity
has one node, and a round adds `m` times the nodes there were before, less one, to those of the
continuation. With deterministic native functions the lambda returns what `k` runs of the
continuation return, if they return a value. -/
theorem Reachable.exists_tails {w : Workspace} (hw : w.Reachable) {continuation : Lambda}
    (hcontinuation : continuation ∈ w.lambdas) {x p : Parameter}
    (h : continuation.Repeatable x p) (session : Session) :
    ∃ chain : ℕ → Lambda,
      (∀ k, ∃ session',
        (Lambda.tails x continuation k).runIn session = (.ok (chain k), session')) ∧
      (∀ k, (Expr.parameter x).occurrencesIn (chain k).body
        = (Expr.parameter p).occurrencesIn continuation.body ^ k) ∧
      (chain 0).body.size = 1 ∧
      (∀ k, ((chain (k + 1)).body.size : ℤ) = continuation.body.size
        + (Expr.parameter p).occurrencesIn continuation.body * ((chain k).body.size - 1)) ∧
      ∀ evaluator : Evaluator, evaluator.Deterministic → ∀ k v u history,
        (evaluator.iterate continuation k v).value? history = some u →
        ∀ history', (evaluator.invoke (chain k) [v]).value? history' = some u := by
  have hbody := (hw.sound.lambdas continuation hcontinuation).wellFormed.2
  obtain ⟨chain, hrun, hrounds⟩ := h.exists_rounds hbody session
  refine ⟨chain, hrun, hrounds.occurrencesIn_eq_pow h, ?_, fun k => ?_,
    fun evaluator hdeterministic k v u history hvalue history' => ?_⟩
  · rw [hrounds.first]
    rfl
  · obtain ⟨before, after, hnext⟩ := hrounds.next k
    exact h.size_spliced hnext
  · exact hrounds.value?_eq_of_iterate h hdeterministic k hvalue history'

namespace Doublings

def x : Parameter := ⟨0, some "x", .int32⟩

def n : Parameter := ⟨1, some "n", .int32⟩

/-- `n => (n + n)`. -/
def doubled : Lambda := ⟨[n], .binary 0 .add (.parameter n) (.parameter n)⟩

/-- Two parameters, and a lambda over one of them. -/
def workspace : Workspace where
  session := { serials := 1, parameters := 2 }
  exprs := [doubled.body, .parameter n, .parameter x]
  lambdas := [doubled]

theorem reachable : workspace.Reachable := by
  have hparameters : Reachable ⟨{ parameters := 2 }, [.parameter n, .parameter x], []⟩ :=
    .step (.step .start (.built (.parameter (some "x") .int32) rfl))
      (.built (.parameter (some "n") .int32) rfl)
  have hbody : Reachable { workspace with lambdas := [] } :=
    .step hparameters
      (.built (@Builds.binary _ (.parameter n) (.parameter n) .add (by simp) (by simp)) rfl)
  exact .step hbody (.builtLambda (@BuildsLambda.lambda _ [n] doubled.body
    (by simp [workspace]) (by simp [workspace])) rfl)

/-- Doubling `k` times makes `2 ^ k` places for `x`, and doubling 5 four times gives 80. -/
theorem exists_tails_doubled : ∃ chain : ℕ → Lambda,
    (∀ k, ∃ session',
      (Lambda.tails x doubled k).runIn workspace.session = (.ok (chain k), session')) ∧
    (∀ k, (Expr.parameter x).occurrencesIn (chain k).body = 2 ^ k) ∧
    (∀ k, ((chain (k + 1)).body.size : ℤ) = 3 + 2 * ((chain k).body.size - 1)) ∧
    (Evaluator.invoke {} (chain 4) [.int32 5]).value? #[] = some (.int32 80) := by
  have hdoubled : doubled.Repeatable x n := by
    refine ⟨rfl, rfl, rfl, rfl, List.not_mem_nil, ?_⟩
    decide
  have hdeterministic : Evaluator.Deterministic {} :=
    Evaluator.deterministic_of_functions fun _ => nofun
  obtain ⟨chain, hrun, hplaces, -, hsize, hvalue⟩ :=
    reachable.exists_tails (by simp [workspace]) hdoubled workspace.session
  exact ⟨chain, hrun, hplaces, hsize, hvalue {} hdeterministic 4 (.int32 5) _ #[] rfl #[]⟩

end Doublings

end Workspace

end ExprTree
