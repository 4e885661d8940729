/-
# Runs of building operations

What an operation that builds expressions gives when it is run in a session: one equation for each
way to put operations together, and for each checked constructor exactly when it succeeds and with
what. A run never takes back a number that was handed out, whether it succeeds or not.
-/
import ExprTree.Proofs.Nodes
import ExprTree.Expr.Build

namespace ExprTree

namespace Build

variable {α β : Type} {session session' : Session}

/-! ## Sequences of operations -/

@[simp] theorem runIn_pure (a : α) : runIn (pure a) session = (.ok a, session) := rfl

theorem runIn_bind (action : Build α) (next : α → Build β) :
    runIn (action >>= next) session =
      match runIn action session with
      | (.ok a, middle) => runIn (next a) middle
      | (.error error, middle) => (.error error, middle) := by
  simp only [runIn, ExceptT.run_bind, StateT.run_bind]
  rcases action.run.run session with ⟨_ | _, middle⟩ <;> rfl

/-- A sequence of two operations succeeds if the first does and the second does from there. -/
theorem runIn_bind_ok {action : Build α} {next : α → Build β} {b : β} :
    runIn (action >>= next) session = (.ok b, session') ↔
      ∃ a middle, runIn action session = (.ok a, middle) ∧
        runIn (next a) middle = (.ok b, session') := by
  rw [runIn_bind]
  rcases runIn action session with ⟨_ | a, middle⟩ <;> simp

@[simp] theorem runIn_throw (error : Error) :
    runIn (throw error : Build α) session = (.error error, session) := rfl

@[simp] theorem runIn_invalid (fault : NodeFault) :
    runIn (invalid fault : Build α) session = (.error (.invalidNode fault), session) := rfl

@[simp] theorem runIn_mismatch (cause : Mismatch) :
    runIn (mismatch cause : Build α) session = (.error (.mismatch cause), session) := rfl

@[simp] theorem runIn_freshSerial : runIn freshSerial session =
    (.ok session.serials, { session with serials := session.serials + 1 }) := rfl

@[simp] theorem runIn_freshParameter (name : Option String) (type : Ty) :
    runIn (freshParameter name type) session =
      (.ok ⟨session.parameters, name, type⟩,
        { session with parameters := session.parameters + 1 }) := rfl

@[simp] theorem runIn_note (event : Event) : runIn (note event) session =
    (.ok (), { session with journal := session.journal.push event }) := rfl

/-- An operation run on each entry of a list gives a list of the results, position by position. -/
theorem forall₂_of_runIn_mapM {f : α → Build β} {as : List α} {bs : List β}
    (h : runIn (as.mapM f) session = (.ok bs, session')) :
    List.Forall₂ (fun a b => ∃ before after, runIn (f a) before = (.ok b, after)) as bs := by
  induction as generalizing session session' bs with
  | nil =>
      simp only [List.mapM_nil, runIn_pure, Prod.mk.injEq, Except.ok.injEq] at h
      rw [← h.1]
      exact .nil
  | cons a as ih =>
      rw [List.mapM_cons, runIn_bind_ok] at h
      obtain ⟨b, middle, hb, h⟩ := h
      rw [runIn_bind_ok] at h
      obtain ⟨rest, last, hrest, h⟩ := h
      simp only [runIn_pure, Prod.mk.injEq, Except.ok.injEq] at h
      rw [← h.1]
      exact .cons ⟨_, _, hb⟩ (ih hrest)

/-! ## Checked constructors -/

/-- A new node is made with the next serial. -/
theorem runIn_numbered_ok {f : Nat → α} {a : α} :
    runIn (freshSerial >>= fun serial => pure (f serial)) session = (.ok a, session') ↔
      a = f session.serials ∧
        session' = { session with serials := session.serials + 1 } := by
  rw [runIn_bind, runIn_freshSerial]
  simp [eq_comm]

section Constructors

variable {e target left right operand body : Expr} {params : List Parameter}

theorem runIn_constant_ok {value : Value} :
    runIn (constant value) session = (.ok e, session') ↔
      ∃ type, value.type? = some type ∧ e = .constant session.serials value type ∧
        session' = { session with serials := session.serials + 1 } := by
  unfold constant
  cases value.type? with
  | none => simp
  | some type => simp only [runIn_numbered_ok, Option.some.injEq, exists_eq_left']

theorem runIn_member_ok {name : String} {type : Ty} :
    runIn (member target name type) session = (.ok e, session') ↔
      target.type.hasMembers = true ∧ e = .member session.serials target name type ∧
        session' = { session with serials := session.serials + 1 } := by
  unfold member
  split <;> simp_all [-bind_pure_comp, runIn_numbered_ok]

theorem runIn_unary_ok {op : UnaryOp} :
    runIn (unary op operand) session = (.ok e, session') ↔
      (op.outputType? operand.type).isSome = true ∧ e = .unary session.serials op operand ∧
        session' = { session with serials := session.serials + 1 } := by
  unfold unary
  split <;> simp_all [-bind_pure_comp, runIn_numbered_ok]

theorem runIn_binary_ok {op : BinaryOp} :
    runIn (binary op left right) session = (.ok e, session') ↔
      (op.outputType? left.type right.type).isSome = true ∧
        e = .binary session.serials op left right ∧
        session' = { session with serials := session.serials + 1 } := by
  unfold binary
  split <;> simp_all [-bind_pure_comp, runIn_numbered_ok]

theorem runIn_call_ok {target : Option Expr} {method : Method} {args : List Expr} :
    runIn (call target method args) session = (.ok e, session') ↔
      callFault? target method args = none ∧
        e = .call session.serials method (target.toList ++ args) ∧
        session' = { session with serials := session.serials + 1 } := by
  unfold call
  split <;> simp_all [-bind_pure_comp, runIn_numbered_ok]

theorem repeated?_eq_none_iff {seen : List Parameter} :
    repeated? seen params = none ↔ params.Nodup ∧ ∀ p ∈ params, p ∉ seen := by
  induction params generalizing seen with
  | nil => simp [repeated?]
  | cons p params ih =>
      by_cases hp : p ∈ seen
      · simp [repeated?, hp]
      · -- The parameters passed so far are those seen before, together with `p`.
        simp only [repeated?, hp, if_false, ih, List.nodup_cons, List.mem_cons]
        constructor
        · rintro ⟨hnodup, h⟩
          refine ⟨⟨fun hmem => h p hmem (Or.inl rfl), hnodup⟩, ?_⟩
          rintro q (rfl | hq)
          · exact hp
          · exact fun hseen => h q hq (Or.inr hseen)
        · rintro ⟨⟨hmem, hnodup⟩, h⟩
          refine ⟨hnodup, fun q hq => ?_⟩
          rintro (rfl | hseen)
          · exact hmem hq
          · exact h q (Or.inr hq) hseen

theorem runIn_lambda_ok {lambda : Lambda} :
    runIn (Build.lambda params body) session = (.ok lambda, session') ↔
      params.Nodup ∧ lambda = ⟨params, body⟩ ∧ session' = session := by
  have h : repeated? [] params = none ↔ params.Nodup := by
    rw [repeated?_eq_none_iff]
    simp
  rw [← h]
  unfold Build.lambda
  cases repeated? [] params <;> simp [eq_comm]

theorem runIn_parameter_ok {p : Parameter} :
    runIn (parameter e) session = (.ok p, session') ↔
      e = .parameter p ∧ session' = session := by
  cases e <;> simp [parameter, Expr.parameter?, eq_comm]

theorem runIn_toExpr_ok {lambda : Lambda} :
    runIn lambda.toExpr session = (.ok e, session') ↔
      e = .lambda session.serials lambda.params lambda.body ∧
        session' = { session with serials := session.serials + 1 } :=
  runIn_numbered_ok

/-- A lambda passes the check just if it is closed. -/
theorem runIn_requireClosed_ok {lambda : Lambda} :
    runIn lambda.requireClosed session = (.ok (), session') ↔
      lambda.isClosed = true ∧ session' = session := by
  unfold Lambda.requireClosed Lambda.isClosed
  cases lambda.free <;> simp [eq_comm]

end Constructors

/-! ## Numbers handed out -/

/-- The operation never takes back a serial or a parameter number, whatever its outcome. -/
def Grows (action : Build α) : Prop :=
  ∀ session, session.serials ≤ (runIn action session).2.serials ∧
    session.parameters ≤ (runIn action session).2.parameters

namespace Grows

/-- A parameter number handed out before a run is still handed out after it. -/
theorem parameters_le {action : Build α} {outcome : Except Error α} (h : Grows action)
    (hrun : runIn action session = (outcome, session')) :
    session.parameters ≤ session'.parameters := by
  simpa [hrun] using (h session).2

/-- A serial handed out before a run is still handed out after it. -/
theorem serials_le {action : Build α} {outcome : Except Error α} (h : Grows action)
    (hrun : runIn action session = (outcome, session')) : session.serials ≤ session'.serials := by
  simpa [hrun] using (h session).1

theorem pure (a : α) : Grows (Pure.pure a : Build α) := fun _ => ⟨Nat.le_refl _, Nat.le_refl _⟩

theorem throw (error : Error) : Grows (MonadExcept.throw error : Build α) :=
  fun _ => ⟨Nat.le_refl _, Nat.le_refl _⟩

theorem freshSerial : Grows Build.freshSerial := fun _ => ⟨Nat.le_succ _, Nat.le_refl _⟩

theorem freshParameter (name : Option String) (type : Ty) :
    Grows (Build.freshParameter name type) := fun _ => ⟨Nat.le_refl _, Nat.le_succ _⟩

theorem note (event : Event) : Grows (Build.note event) := fun _ => ⟨Nat.le_refl _, Nat.le_refl _⟩

theorem bind {action : Build α} {next : α → Build β} (h : Grows action)
    (hnext : ∀ a, Grows (next a)) : Grows (action >>= next) := by
  intro session
  have hfirst := h session
  rw [runIn_bind]
  revert hfirst
  rcases runIn action session with ⟨_ | a, middle⟩ <;> intro hfirst
  · exact hfirst
  · -- The second operation starts from what the first one left.
    have hrest := hnext a middle
    exact ⟨Nat.le_trans hfirst.1 hrest.1, Nat.le_trans hfirst.2 hrest.2⟩

theorem mapM {f : α → Build β} {as : List α} (h : ∀ a ∈ as, Grows (f a)) : Grows (as.mapM f) := by
  induction as with
  | nil => exact pure []
  | cons a as ih =>
      rw [List.mapM_cons]
      refine bind (h a List.mem_cons_self) fun b => ?_
      exact bind (ih fun a ha => h a (List.mem_cons_of_mem _ ha)) fun bs => pure (b :: bs)

theorem constant (value : Value) : Grows (Build.constant value) := by
  unfold Build.constant
  split
  · exact bind freshSerial fun _ => pure _
  · exact throw _

theorem member (target : Expr) (name : String) (type : Ty) :
    Grows (Build.member target name type) := by
  unfold Build.member
  split
  · exact bind freshSerial fun _ => pure _
  · exact throw _

theorem unary (op : UnaryOp) (operand : Expr) : Grows (Build.unary op operand) := by
  unfold Build.unary
  split
  · exact bind freshSerial fun _ => pure _
  · exact throw _

theorem binary (op : BinaryOp) (left right : Expr) : Grows (Build.binary op left right) := by
  unfold Build.binary
  split
  · exact bind freshSerial fun _ => pure _
  · exact throw _

theorem call (target : Option Expr) (method : Method) (args : List Expr) :
    Grows (Build.call target method args) := by
  unfold Build.call
  split
  · exact throw _
  · exact bind freshSerial fun _ => pure _

theorem lambda (params : List Parameter) (body : Expr) : Grows (Build.lambda params body) := by
  unfold Build.lambda
  split
  · exact throw _
  · exact pure _

theorem parameter (e : Expr) : Grows (Build.parameter e) := by
  unfold Build.parameter
  split
  · exact pure _
  · exact throw _

theorem toExpr (lambda : Lambda) : Grows lambda.toExpr :=
  bind freshSerial fun _ => pure _

end Grows

end Build

end ExprTree
