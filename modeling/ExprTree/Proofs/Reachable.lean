/-
# Everything that can be built

A workspace holds the expressions and the lambdas built so far. Reachable are the workspaces that
building operations lead to, in any order, failing or not, with any sharing of what is held. In all
of them every node passes the check of its constructor and every parameter was handed out.
-/
import ExprTree.Proofs.Combined

namespace ExprTree

/-- A session together with the expressions and the lambdas built in it. -/
structure Workspace where
  session : Session := {}
  exprs : List Expr := []
  lambdas : List Lambda := []

namespace Workspace

/-! ## Steps -/

/-- The operations that build an expression from what a workspace holds. -/
inductive Builds (w : Workspace) : Build Expr → Prop
  | constant (value : Value) : Builds w (Build.constant value)
  | int32 (n : Int32) : Builds w (Build.int32 n)
  | boolean (b : Bool) : Builds w (Build.boolean b)
  | string (text : String) : Builds w (Build.string text)
  | parameter (name : Option String) (type : Ty) :
      Builds w (Build.freshParameter name type >>= fun p => pure (.parameter p))
  | member {target : Expr} (name : String) (type : Ty) :
      target ∈ w.exprs → Builds w (Build.member target name type)
  | call {target : Option Expr} {args : List Expr} (method : Method) :
      (∀ e ∈ target.toList ++ args, e ∈ w.exprs) → Builds w (Build.call target method args)
  | unary {operand : Expr} (op : UnaryOp) : operand ∈ w.exprs → Builds w (Build.unary op operand)
  | binary {left right : Expr} (op : BinaryOp) :
      left ∈ w.exprs → right ∈ w.exprs → Builds w (Build.binary op left right)
  | toExpr {lambda : Lambda} : lambda ∈ w.lambdas → Builds w lambda.toExpr
  | substitute {e : Expr} {pick : Pick} : e ∈ w.exprs →
      (∀ node replacement, pick node = some replacement → replacement ∈ w.exprs) →
      Builds w (e.substitute pick)

/-- The operations that build a lambda from what a workspace holds. -/
inductive BuildsLambda (w : Workspace) : Build Lambda → Prop
  | lambda {params : List Parameter} {body : Expr} :
      (∀ p ∈ params, Expr.parameter p ∈ w.exprs) → body ∈ w.exprs →
      BuildsLambda w (Build.lambda params body)
  | substitute {lambda : Lambda} {pick : Pick} : lambda ∈ w.lambdas →
      (∀ node replacement, pick node = some replacement → replacement ∈ w.exprs) →
      BuildsLambda w (lambda.substitute pick)
  | join {left right : Lambda} (connective : Connective) :
      left ∈ w.lambdas → right ∈ w.lambdas → BuildsLambda w (left.join connective right)
  | lift {selector predicate : Lambda} (quantifier : Quantifier) :
      selector ∈ w.lambdas → predicate ∈ w.lambdas →
      BuildsLambda w (Lambda.lift quantifier selector predicate)
  | contains {selector : Lambda} (value : Value) :
      selector ∈ w.lambdas → BuildsLambda w (selector.contains value)
  | splice {selector continuation : Lambda} :
      selector ∈ w.lambdas → continuation ∈ w.lambdas →
      BuildsLambda w (selector.splice continuation)

/-- One step: a building operation, or a look at a part of what is held. -/
inductive Step : Workspace → Workspace → Prop
  | built {w : Workspace} {action e session} : Builds w action →
      action.runIn w.session = (.ok e, session) →
      Step w { w with session, exprs := e :: w.exprs }
  | refused {w : Workspace} {action error session} : Builds w action →
      action.runIn w.session = (.error error, session) → Step w { w with session }
  | builtLambda {w : Workspace} {action lambda session} : BuildsLambda w action →
      action.runIn w.session = (.ok lambda, session) →
      Step w { w with session, lambdas := lambda :: w.lambdas }
  | refusedLambda {w : Workspace} {action error session} : BuildsLambda w action →
      action.runIn w.session = (.error error, session) → Step w { w with session }
  | child {w : Workspace} {e child} : e ∈ w.exprs → child ∈ e.children →
      Step w { w with exprs := child :: w.exprs }
  | lambda {w : Workspace} {e lambda} : e ∈ w.exprs → e.lambda? = some lambda →
      Step w { w with lambdas := lambda :: w.lambdas }
  | body {w : Workspace} {lambda} : lambda ∈ w.lambdas →
      Step w { w with exprs := lambda.body :: w.exprs }
  | param {w : Workspace} {lambda p} : lambda ∈ w.lambdas → p ∈ lambda.params →
      Step w { w with exprs := .parameter p :: w.exprs }

/-- The workspaces that steps lead to from an empty one. -/
inductive Reachable : Workspace → Prop
  | start : Reachable {}
  | step {w w' : Workspace} : Reachable w → Step w w' → Reachable w'

end Workspace

/-! ## Validity -/

/-- A well-formed expression whose parameters were all handed out in the session. -/
structure Expr.Valid (session : Session) (e : Expr) : Prop where
  wellFormed : e.WellFormed
  handedOut : ∀ p ∈ e.parameters, p.number < session.parameters

/-- A well-formed lambda whose parameters were all handed out in the session. -/
structure Lambda.Valid (session : Session) (lambda : Lambda) : Prop where
  wellFormed : lambda.WellFormed
  declared : ∀ p ∈ lambda.params, p.number < session.parameters
  handedOut : ∀ p ∈ lambda.body.parameters, p.number < session.parameters

theorem Expr.Valid.mono {session session' : Session} {e : Expr} (h : e.Valid session)
    (hle : session.parameters ≤ session'.parameters) : e.Valid session' :=
  ⟨h.wellFormed, fun p hp => Nat.lt_of_lt_of_le (h.handedOut p hp) hle⟩

theorem Lambda.Valid.mono {session session' : Session} {lambda : Lambda} (h : lambda.Valid session)
    (hle : session.parameters ≤ session'.parameters) : lambda.Valid session' :=
  ⟨h.wellFormed, fun p hp => Nat.lt_of_lt_of_le (h.declared p hp) hle,
    fun p hp => Nat.lt_of_lt_of_le (h.handedOut p hp) hle⟩

theorem Lambda.Valid.body {session : Session} {lambda : Lambda} (h : lambda.Valid session) :
    lambda.body.Valid session :=
  ⟨h.wellFormed.2, h.handedOut⟩

/-- A parameter made now is new to an expression that is valid. -/
theorem Expr.Valid.notMem_of_mem_freshened {session : Session} {e : Expr} (h : e.Valid session)
    {params : List Parameter} {f : Parameter}
    (hf : f ∈ Parameter.freshened session.parameters params) : f ∉ e.parameters :=
  fun hmem => Nat.not_lt.mpr (Parameter.number_of_mem_freshened hf).1 (h.handedOut f hmem)

/-- A parameter made now is new to a lambda that is valid. -/
theorem Lambda.Valid.notMem_of_mem_freshened {session : Session} {lambda : Lambda}
    (h : lambda.Valid session) {params : List Parameter} {f : Parameter}
    (hf : f ∈ Parameter.freshened session.parameters params) :
    f ∉ lambda.params ++ lambda.body.parameters := by
  intro hmem
  rcases List.mem_append.mp hmem with hmem | hmem
  · exact Nat.not_lt.mpr (Parameter.number_of_mem_freshened hf).1 (h.declared f hmem)
  · exact h.body.notMem_of_mem_freshened hf hmem

/-! ## Numbers handed out -/

namespace Build.Grows

/-- No step takes back a number. -/
theorem of_builds {w : Workspace} {action : Build Expr} (h : w.Builds action) : Grows action := by
  cases h with
  | constant value => exact constant value
  | int32 | boolean | string => exact bind freshSerial fun _ => pure _
  | parameter name type => exact bind (freshParameter name type) fun _ => pure _
  | member name type _ => exact member _ name type
  | call method _ => exact call _ method _
  | unary op _ => exact unary op _
  | binary op _ _ => exact binary op _ _
  | toExpr _ => exact toExpr _
  | substitute _ _ => exact substitute _

theorem of_buildsLambda {w : Workspace} {action : Build Lambda} (h : w.BuildsLambda action) :
    Grows action := by
  cases h with
  | lambda _ _ => exact lambda _ _
  | substitute _ _ => exact substituteLambda _
  | join connective _ _ => exact join connective _ _
  | lift quantifier _ _ => exact lift quantifier _ _
  | contains value _ => exact contains _ value
  | splice _ _ => exact splice _ _

end Build.Grows

/-! ## Operations keep validity -/

namespace Build

variable {session session' : Session} {pick : Pick}

/-- A substitution of valid expressions in a valid expression gives a valid one. -/
theorem valid_of_substituted {e e' : Expr} (h : Expr.Substituted pick e e')
    (he : e.Valid session)
    (hpick : ∀ node replacement, pick node = some replacement → replacement.Valid session) :
    e'.Valid session := by
  refine ⟨h.wellFormed he.wellFormed fun n r hr => (hpick n r hr).wellFormed, fun p hp => ?_⟩
  rw [Expr.parameters_eq_of_shape_eq h.shape_eq] at hp
  rcases Expr.mem_parameters_fill hp with hp | ⟨n, r, hr, hp⟩
  · exact he.handedOut p hp
  · exact (hpick n r hr).handedOut p hp

theorem valid_of_substitute {e e' : Expr}
    (h : runIn (e.substitute pick) session = (.ok e', session')) (he : e.Valid session)
    (hpick : ∀ node replacement, pick node = some replacement → replacement.Valid session) :
    e'.Valid session' :=
  (valid_of_substituted (substituted_of_runIn h) he hpick).mono
    ((Grows.substitute e).parameters_le h)

/-- Putting a valid expression in the place of a node of a valid one gives a valid one. -/
theorem valid_of_replace {e e' node replacement : Expr}
    (h : runIn (e.replace node replacement) session = (.ok e', session')) (he : e.Valid session)
    (hreplacement : replacement.Valid session) : e'.Valid session' := by
  refine valid_of_substitute h he fun n r hr => ?_
  obtain ⟨-, rfl⟩ := Expr.replacing_eq_some_iff.mp hr
  exact hreplacement

/-- A lambda of valid parts is valid. -/
theorem valid_of_lambda {params : List Parameter} {body : Expr} {lambda : Lambda}
    (h : runIn (Build.lambda params body) session = (.ok lambda, session'))
    (hparams : ∀ p ∈ params, p.number < session.parameters) (hbody : body.Valid session) :
    lambda.Valid session' := by
  have hwell := wellFormed_of_lambda h hbody.wellFormed
  obtain ⟨-, rfl, rfl⟩ := runIn_lambda_ok.mp h
  exact ⟨hwell, hparams, hbody.handedOut⟩

/-- A substitution of valid expressions in a valid lambda gives a valid one. -/
theorem valid_of_substituteLambda {lambda lambda' : Lambda}
    (h : runIn (lambda.substitute pick) session = (.ok lambda', session'))
    (hlambda : lambda.Valid session)
    (hpick : ∀ node replacement, pick node = some replacement → replacement.Valid session) :
    lambda'.Valid session' := by
  obtain ⟨hparams, hnodup, hsubst⟩ := substituted_of_runIn_lambda h
  have hbody := valid_of_substituted hsubst hlambda.body hpick
  refine Lambda.Valid.mono ⟨⟨hnodup, hbody.wellFormed⟩, fun p hp => ?_, hbody.handedOut⟩
    ((Grows.substituteLambda lambda).parameters_le h)
  rcases Expr.mem_map_fillParameter (hparams ▸ hp) with hp | ⟨n, r, hr, hp⟩
  · exact hlambda.declared p hp
  · exact (hpick n r hr).handedOut p hp

/-- A constant is valid. -/
theorem valid_of_constant {value : Value} {e : Expr}
    (h : runIn (Build.constant value) session = (.ok e, session')) : e.Valid session' := by
  have hwell := wellFormed_of_constant h
  obtain ⟨_, -, rfl, rfl⟩ := runIn_constant_ok.mp h
  exact ⟨hwell, by simp⟩

/-- A member of a valid target is valid. -/
theorem valid_of_member {target e : Expr} {name : String} {type : Ty}
    (h : runIn (Build.member target name type) session = (.ok e, session'))
    (htarget : target.Valid session) : e.Valid session' := by
  have hwell := wellFormed_of_member h htarget.wellFormed
  obtain ⟨-, rfl, rfl⟩ := runIn_member_ok.mp h
  exact ⟨hwell, htarget.handedOut⟩

/-- An application of a unary operator to a valid operand is valid. -/
theorem valid_of_unary {op : UnaryOp} {operand e : Expr}
    (h : runIn (Build.unary op operand) session = (.ok e, session'))
    (hoperand : operand.Valid session) : e.Valid session' := by
  have hwell := wellFormed_of_unary h hoperand.wellFormed
  obtain ⟨-, rfl, rfl⟩ := runIn_unary_ok.mp h
  exact ⟨hwell, hoperand.handedOut⟩

/-- An application of a binary operator to valid operands is valid. -/
theorem valid_of_binary {op : BinaryOp} {left right e : Expr}
    (h : runIn (Build.binary op left right) session = (.ok e, session'))
    (hleft : left.Valid session) (hright : right.Valid session) : e.Valid session' := by
  have hwell := wellFormed_of_binary h hleft.wellFormed hright.wellFormed
  obtain ⟨-, rfl, rfl⟩ := runIn_binary_ok.mp h
  refine ⟨hwell, fun p hp => ?_⟩
  rcases List.mem_append.mp (Expr.parameters_binary .. ▸ hp) with hp | hp
  · exact hleft.handedOut p hp
  · exact hright.handedOut p hp

/-- A call with valid operands is valid. -/
theorem valid_of_call {target : Option Expr} {method : Method} {args : List Expr} {e : Expr}
    (h : runIn (Build.call target method args) session = (.ok e, session'))
    (hoperands : ∀ operand ∈ target.toList ++ args, operand.Valid session) : e.Valid session' := by
  have hwell := wellFormed_of_call h fun operand hmem => (hoperands operand hmem).wellFormed
  obtain ⟨-, rfl, rfl⟩ := runIn_call_ok.mp h
  refine ⟨hwell, fun p hp => ?_⟩
  rw [Expr.parameters_call, List.mem_flatMap] at hp
  obtain ⟨operand, hmem, hp⟩ := hp
  exact (hoperands operand hmem).handedOut p hp

/-- A node for a valid lambda is valid. -/
theorem valid_of_toExpr {lambda : Lambda} {e : Expr}
    (h : runIn lambda.toExpr session = (.ok e, session')) (hlambda : lambda.Valid session) :
    e.Valid session' := by
  have hwell := wellFormed_of_toExpr h hlambda.wellFormed
  obtain ⟨rfl, rfl⟩ := runIn_toExpr_ok.mp h
  refine ⟨hwell, fun p hp => ?_⟩
  rcases List.mem_append.mp (Expr.parameters_lambda .. ▸ hp) with hp | hp
  · exact hlambda.declared p hp
  · exact hlambda.handedOut p hp

/-- The bodies over common parameters stay valid. -/
theorem valid_of_unifyParams {lefts rights fresh : List Parameter}
    {leftBody rightBody leftBody' rightBody' : Expr}
    (h : runIn (Lambda.unifyParams lefts rights fresh leftBody rightBody) session
      = (.ok (leftBody', rightBody'), session'))
    (hfresh : ∀ f ∈ fresh, f.number < session.parameters)
    (hleft : leftBody.Valid session) (hright : rightBody.Valid session) :
    leftBody'.Valid session' ∧ rightBody'.Valid session' := by
  induction lefts, rights, fresh, leftBody, rightBody using Lambda.unifyParams.induct
      generalizing session with
  | case1 l lefts r rights f fresh leftBody rightBody ih =>
      simp only [Lambda.unifyParams, runIn_bind_ok] at h
      obtain ⟨leftNext, middle, hl, rightNext, last, hr, h⟩ := h
      have hf : (Expr.parameter f).Valid session :=
        ⟨Expr.wellFormed_parameter, by simpa using hfresh f List.mem_cons_self⟩
      -- What was valid before a replacement is valid after it, since numbers only grow.
      have hmiddle := (Grows.replace _ _ _).parameters_le hl
      have hlast := (Grows.replace _ _ _).parameters_le hr
      refine ih leftNext rightNext h (fun g hg => ?_) ?_ ?_
      · have := hfresh g (List.mem_cons_of_mem _ hg)
        omega
      · exact (valid_of_replace hl hleft hf).mono hlast
      · exact valid_of_replace hr (hright.mono hmiddle) (hf.mono hmiddle)
  | case2 lefts rights fresh leftBody rightBody hshort =>
      simp only [Lambda.unifyParams, runIn_pure, Prod.mk.injEq, Except.ok.injEq] at h
      obtain ⟨⟨rfl, rfl⟩, rfl⟩ := h
      exact ⟨hleft, hright⟩

/-- A join of valid predicates is valid. -/
theorem valid_of_join {connective : Connective} {left right joined : Lambda}
    (h : runIn (left.join connective right) session = (.ok joined, session'))
    (hleft : left.Valid session) (hright : right.Valid session) : joined.Valid session' := by
  unfold Lambda.join at h
  split at h
  next =>
    simp only [runIn_bind_ok, runIn_mapM_freshParameter, runIn_note, runIn_pure, Prod.mk.injEq,
      Except.ok.injEq] at h
    obtain ⟨fresh, middle, ⟨rfl, rfl⟩, ⟨leftBody, rightBody⟩, unified, hunify, body, built, hbody,
      lambda, last, hlambda, _, _, ⟨-, rfl⟩, rfl, rfl⟩ := h
    -- The new parameters take the numbers right behind those handed out.
    have hfresh : ∀ f ∈ Parameter.freshened session.parameters left.params,
        f.number < session.parameters + left.params.length :=
      fun f hf => (Parameter.number_of_mem_freshened hf).2
    obtain ⟨hl, hr⟩ := valid_of_unifyParams hunify hfresh (hleft.body.mono (Nat.le_add_right ..))
      (hright.body.mono (Nat.le_add_right ..))
    have hunified := Grows.unifyParams.parameters_le hunify
    have hbuilt := (Grows.binary _ _ _).parameters_le hbody
    refine (valid_of_lambda hlambda (fun f hf => ?_) (valid_of_binary hbody hl hr)).mono
      (Nat.le_refl _)
    exact Nat.lt_of_lt_of_le (hfresh f hf) (Nat.le_trans hunified hbuilt)
  next => simp at h

/-- A quantifier over a valid selector and a valid operand gives a valid lambda. -/
theorem valid_of_quantifyOver {quantifier : Quantifier} {selector lifted : Lambda} {element : Ty}
    {operand : Expr}
    (h : runIn (Lambda.quantifyOver quantifier selector element operand) session
      = (.ok lifted, session'))
    (hselector : selector.Valid session) (hoperand : operand.Valid session) :
    lifted.Valid session' := by
  simp only [Lambda.quantifyOver, runIn_bind_ok, runIn_note, runIn_pure, Prod.mk.injEq,
    Except.ok.injEq] at h
  obtain ⟨call, middle, hcall, lambda, last, hlambda, _, _, ⟨-, rfl⟩, rfl, rfl⟩ := h
  have hgrows := (Grows.call _ _ _).parameters_le hcall
  have hbody : call.Valid middle := by
    refine valid_of_call hcall fun operand' hmem => ?_
    rcases List.mem_pair.mp hmem with rfl | rfl
    · exact hselector.body
    · exact hoperand
  refine (valid_of_lambda hlambda (fun p hp => ?_) hbody).mono (Nat.le_refl _)
  exact Nat.lt_of_lt_of_le (hselector.declared p hp) hgrows

/-- A lifted predicate is valid if the selector and the predicate are. -/
theorem valid_of_lift {quantifier : Quantifier} {selector predicate lifted : Lambda}
    (h : runIn (Lambda.lift quantifier selector predicate) session = (.ok lifted, session'))
    (hselector : selector.Valid session) (hpredicate : predicate.Valid session) :
    lifted.Valid session' := by
  simp only [Lambda.lift, runIn_bind_ok, runIn_elementType_ok] at h
  obtain ⟨element, _, ⟨-, rfl⟩, h⟩ := h
  split at h
  next p hparams =>
    split at h
    next =>
      split at h
      next =>
        rw [runIn_bind_ok] at h
        obtain ⟨operand, middle, hoperand, h⟩ := h
        have hgrows := (Grows.toExpr _).parameters_le hoperand
        exact valid_of_quantifyOver h (hselector.mono hgrows) (valid_of_toExpr hoperand hpredicate)
      next => simp at h
    next => simp at h
  next => simp at h

/-- A search for a value in what a valid selector selects is valid. -/
theorem valid_of_contains {selector lifted : Lambda} {value : Value}
    (h : runIn (selector.contains value) session = (.ok lifted, session'))
    (hselector : selector.Valid session) : lifted.Valid session' := by
  simp only [Lambda.contains, runIn_bind_ok, runIn_elementType_ok] at h
  obtain ⟨element, _, ⟨-, rfl⟩, h⟩ := h
  split at h
  next => simp at h
  next type htype =>
    split at h
    next =>
      rw [runIn_bind_ok] at h
      obtain ⟨operand, middle, hoperand, h⟩ := h
      have hgrows := (Grows.constant _).parameters_le hoperand
      exact valid_of_quantifyOver h (hselector.mono hgrows) (valid_of_constant hoperand)
    next => simp at h

/-- A splice of valid lambdas is valid. -/
theorem valid_of_splice {selector continuation spliced : Lambda}
    (h : runIn (selector.splice continuation) session = (.ok spliced, session'))
    (hselector : selector.Valid session) (hcontinuation : continuation.Valid session) :
    spliced.Valid session' := by
  unfold Lambda.splice at h
  split at h
  next p hparams =>
    split at h
    next =>
      simp only [runIn_bind_ok, runIn_note, runIn_pure, Prod.mk.injEq, Except.ok.injEq] at h
      obtain ⟨body, middle, hbody, lambda, last, hlambda, _, _, ⟨-, rfl⟩, rfl, rfl⟩ := h
      have hgrows := (Grows.replace _ _ _).parameters_le hbody
      refine (valid_of_lambda hlambda (fun q hq => ?_) ?_).mono (Nat.le_refl _)
      · exact Nat.lt_of_lt_of_le (hselector.declared q hq) hgrows
      · exact valid_of_replace hbody hcontinuation.body hselector.body
    next => simp at h
  next => simp at h

end Build

/-! ## Steps keep validity -/

namespace Workspace

/-- All that a workspace holds is valid in its session. -/
structure Sound (w : Workspace) : Prop where
  exprs : ∀ e ∈ w.exprs, e.Valid w.session
  lambdas : ∀ lambda ∈ w.lambdas, lambda.Valid w.session

variable {w w' : Workspace} {session' : Session}

/-- A building operation on a sound workspace gives a valid expression. -/
theorem Sound.valid_of_builds {action : Build Expr} {e : Expr} (hw : w.Sound)
    (haction : w.Builds action) (h : action.runIn w.session = (.ok e, session')) :
    e.Valid session' := by
  cases haction with
  | constant value => exact Build.valid_of_constant h
  | int32 n =>
      change (Build.constant (.int32 n)).runIn w.session = _ at h
      exact Build.valid_of_constant h
  | boolean b =>
      change (Build.constant (.boolean b)).runIn w.session = _ at h
      exact Build.valid_of_constant h
  | string text =>
      change (Build.constant (.string text)).runIn w.session = _ at h
      exact Build.valid_of_constant h
  | parameter name type =>
      simp only [Build.runIn_bind_ok, Build.runIn_freshParameter, Build.runIn_pure, Prod.mk.injEq,
        Except.ok.injEq] at h
      obtain ⟨_, _, ⟨rfl, rfl⟩, rfl, rfl⟩ := h
      exact ⟨Expr.wellFormed_parameter, by simp⟩
  | member name type htarget => exact Build.valid_of_member h (hw.exprs _ htarget)
  | call method hoperands => exact Build.valid_of_call h fun e he => hw.exprs e (hoperands e he)
  | unary op hoperand => exact Build.valid_of_unary h (hw.exprs _ hoperand)
  | binary op hleft hright =>
      exact Build.valid_of_binary h (hw.exprs _ hleft) (hw.exprs _ hright)
  | toExpr hlambda => exact Build.valid_of_toExpr h (hw.lambdas _ hlambda)
  | substitute he hpick =>
      exact Build.valid_of_substitute h (hw.exprs _ he) fun n r hr => hw.exprs r (hpick n r hr)

/-- A building operation on a sound workspace gives a valid lambda. -/
theorem Sound.valid_of_buildsLambda {action : Build Lambda} {lambda : Lambda} (hw : w.Sound)
    (haction : w.BuildsLambda action) (h : action.runIn w.session = (.ok lambda, session')) :
    lambda.Valid session' := by
  cases haction with
  | lambda hparams hbody =>
      refine Build.valid_of_lambda h (fun p hp => ?_) (hw.exprs _ hbody)
      exact (hw.exprs _ (hparams p hp)).handedOut p (by simp)
  | substitute hlambda hpick =>
      exact Build.valid_of_substituteLambda h (hw.lambdas _ hlambda)
        fun n r hr => hw.exprs r (hpick n r hr)
  | join _ hleft hright =>
      exact Build.valid_of_join h (hw.lambdas _ hleft) (hw.lambdas _ hright)
  | lift _ hselector hpredicate =>
      exact Build.valid_of_lift h (hw.lambdas _ hselector) (hw.lambdas _ hpredicate)
  | contains value hselector => exact Build.valid_of_contains h (hw.lambdas _ hselector)
  | splice hselector hcontinuation =>
      exact Build.valid_of_splice h (hw.lambdas _ hselector) (hw.lambdas _ hcontinuation)

/-- What is held stays valid when the session goes on. -/
theorem Sound.mono (hw : w.Sound) (hle : w.session.parameters ≤ session'.parameters) :
    Sound { w with session := session' } :=
  ⟨fun e he => (hw.exprs e he).mono hle, fun lambda h => (hw.lambdas lambda h).mono hle⟩

theorem Sound.cons {e : Expr} (hw : w.Sound) (he : e.Valid w.session) :
    Sound { w with exprs := e :: w.exprs } :=
  ⟨List.forall_mem_cons.mpr ⟨he, hw.exprs⟩, hw.lambdas⟩

theorem Sound.consLambda {lambda : Lambda} (hw : w.Sound) (h : lambda.Valid w.session) :
    Sound { w with lambdas := lambda :: w.lambdas } :=
  ⟨hw.exprs, List.forall_mem_cons.mpr ⟨h, hw.lambdas⟩⟩

/-- **One step keeps everything valid.** -/
theorem Sound.step (hw : w.Sound) (h : Step w w') : w'.Sound := by
  cases h with
  | built haction hrun =>
      have hgrows := (Build.Grows.of_builds haction).parameters_le hrun
      exact (hw.mono hgrows).cons (hw.valid_of_builds haction hrun)
  | refused haction hrun =>
      -- A refused operation builds nothing, but it may have used up numbers.
      exact hw.mono ((Build.Grows.of_builds haction).parameters_le hrun)
  | builtLambda haction hrun =>
      have hgrows := (Build.Grows.of_buildsLambda haction).parameters_le hrun
      exact (hw.mono hgrows).consLambda (hw.valid_of_buildsLambda haction hrun)
  | refusedLambda haction hrun =>
      exact hw.mono ((Build.Grows.of_buildsLambda haction).parameters_le hrun)
  -- Looking at a part of what is held changes nothing in the session.
  | child he hchild =>
      have hnode := Expr.mem_nodes_of_mem_children hchild
      exact hw.cons ⟨(hw.exprs _ he).wellFormed.of_mem_nodes hnode,
        fun p hp => (hw.exprs _ he).handedOut p (Expr.parameters_subset hnode hp)⟩
  | @lambda e lambda he hlambda =>
      cases e with
      | lambda serial params body =>
          have hvalid := hw.exprs _ he
          have hnumber : ∀ p ∈ params ++ body.parameters, p.number < w.session.parameters := by
            simpa only [Expr.parameters_lambda] using hvalid.handedOut
          obtain rfl := Option.some.inj hlambda
          exact hw.consLambda ⟨Expr.wellFormed_lambda.mp hvalid.wellFormed,
            fun p hp => hnumber p (List.mem_append_left _ hp),
            fun p hp => hnumber p (List.mem_append_right _ hp)⟩
      | _ => cases hlambda
  | body hlambda => exact hw.cons (hw.lambdas _ hlambda).body
  | param hlambda hp =>
      exact hw.cons ⟨Expr.wellFormed_parameter,
        by simpa using (hw.lambdas _ hlambda).declared _ hp⟩

/-- **Everything in a reachable workspace is valid.** -/
theorem Reachable.sound (h : Reachable w) : w.Sound := by
  induction h with
  | start => exact ⟨by simp, by simp⟩
  | step _ hstep ih => exact ih.step hstep

end Workspace

end ExprTree
