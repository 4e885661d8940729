/-
# When substitutions succeed

A substitution that puts nodes of the same type in the place of others passes every check but one:
only a parameter list can refuse what is put into it. It succeeds just if none does, and what it
cannot build otherwise is a lambda. Putting a new parameter in the place of another one of its type
always succeeds, and so does a join of predicates over parameters of the same types.
-/
import Mathlib.Data.List.Nodup
import ExprTree.Proofs.Reachable

namespace ExprTree

namespace Expr

/-! ## Types kept -/

/-- What takes the place of a node has the type of that node. -/
def KeepsTypes (pick : Pick) : Prop :=
  ∀ node replacement, pick node = some replacement → replacement.type = node.type

theorem KeepsTypes.replacing {node replacement : Expr} (h : replacement.type = node.type) :
    KeepsTypes (replacing node replacement) := by
  intro n r hr
  obtain ⟨rfl, rfl⟩ := replacing_eq_some_iff.mp hr
  exact h

variable {pick : Pick}

theorem KeepsTypes.type_fillParameter (h : KeepsTypes pick) (p : Parameter) :
    (fillParameter pick p).type = p.type := by
  unfold fillParameter
  split
  next q hq => exact h _ _ hq
  next => rfl

/-- **What a substitution at equal types gives has the type of what it started from.** -/
theorem Substituted.type_eq {e e' : Expr} (h : Substituted pick e e') (hpick : KeepsTypes pick) :
    e'.type = e.type := by
  induction e generalizing e' with
  | lambda serial params body ih =>
      cases h with
      | picked h => exact hpick _ _ h
      | lambda _ _ hbody _ =>
          have hparams : (params.map (fillParameter pick)).map Parameter.type
              = params.map Parameter.type := by
            rw [List.map_map]
            exact List.map_congr_left fun p _ => hpick.type_fillParameter p
          rw [type, type, hparams, ih hbody]
  | _ =>
      -- All other nodes have their types from themselves, not from what stands below them.
      cases h with
      | picked h => exact hpick _ _ h
      | _ => rfl

/-! ## Nodes gone into -/

mutual

/-- The nodes that a substitution builds anew: those it does not pick that stand below no picked
one. -/
def rebuilt (pick : Pick) (e : Expr) : List Expr :=
  match pick e with
  | some _ => []
  | none =>
      match e with
      | .constant .. | .parameter _ => [e]
      | .member _ target .. => e :: rebuilt pick target
      | .call _ _ operands => e :: rebuiltAll pick operands
      | .unary _ _ operand => e :: rebuilt pick operand
      | .binary _ _ left right => e :: (rebuilt pick left ++ rebuilt pick right)
      | .lambda _ _ body => e :: rebuilt pick body

/-- The nodes of several expressions that a substitution builds anew. -/
def rebuiltAll (pick : Pick) : List Expr → List Expr
  | [] => []
  | e :: es => rebuilt pick e ++ rebuiltAll pick es

end

theorem rebuiltAll_eq_flatMap (pick : Pick) (es : List Expr) :
    rebuiltAll pick es = es.flatMap (rebuilt pick) := by
  induction es with
  | nil => rfl
  | cons e es ih => simp [rebuiltAll, ih]

/-- Built anew is a node that is not picked, and what is built anew below it. -/
theorem mem_rebuilt_iff {n e : Expr} : n ∈ e.rebuilt pick ↔
    pick e = none ∧ (n = e ∨ ∃ child ∈ e.children, n ∈ child.rebuilt pick) := by
  rw [rebuilt.eq_def]
  cases hpick : pick e with
  | some replacement => simp
  | none => cases e <;> simp [children, rebuiltAll_eq_flatMap]

theorem rebuilt_subset_nodes (e : Expr) : e.rebuilt pick ⊆ e.nodes := by
  induction e using children_induction with
  | node e ih =>
      intro n hn
      obtain ⟨-, rfl | ⟨child, hchild, hn⟩⟩ := mem_rebuilt_iff.mp hn
      · exact mem_nodes_self n
      · exact nodes_subset (mem_nodes_of_mem_children hchild) (ih child hchild hn)

/-- A parameter list takes what a substitution puts into it: only parameters, and none twice. -/
def Rebinds (pick : Pick) (params : List Parameter) : Prop :=
  (∀ p ∈ params, ∀ r, pick (.parameter p) = some r → ∃ q, r = .parameter q) ∧
    (params.map (fillParameter pick)).Nodup

/-- All parameter lists that a substitution goes into take what it puts into them. -/
def RebindsAll (pick : Pick) (e : Expr) : Prop :=
  ∀ serial params body, Expr.lambda serial params body ∈ e.rebuilt pick → Rebinds pick params

/-- So do the parameter lists below a node that is not picked, and its own one. -/
theorem RebindsAll.of_mem_children {e child : Expr} (h : RebindsAll pick e) (hnone : pick e = none)
    (hchild : child ∈ e.children) : RebindsAll pick child :=
  fun serial params body hmem =>
    h serial params body (mem_rebuilt_iff.mpr ⟨hnone, Or.inr ⟨child, hchild, hmem⟩⟩)

theorem RebindsAll.rebinds {serial : Nat} {params : List Parameter} {body : Expr}
    (h : RebindsAll pick (.lambda serial params body))
    (hnone : pick (.lambda serial params body) = none) : Rebinds pick params :=
  h serial params body (mem_rebuilt_iff.mpr ⟨hnone, Or.inl rfl⟩)

/-- All parameter lists take what is put in the place of a parameter that stands in none of them. -/
theorem rebindsAll_of_notMem_binders {p : Parameter} {replacement e : Expr} (he : e.WellFormed)
    (hp : p ∉ e.binders) : RebindsAll (replacing (.parameter p) replacement) e := by
  intro serial params body hmem
  have hnode := rebuilt_subset_nodes e hmem
  have hlisted : p ∉ params := fun h => hp (binders_subset hnode (by simp [h]))
  refine ⟨fun q hq r hr => ?_, ?_⟩
  · obtain ⟨heq, -⟩ := replacing_eq_some_iff.mp hr
    exact absurd (Expr.parameter.inj heq ▸ hq) hlisted
  · rw [map_fillParameter_of_notMem hlisted]
    exact (wellFormed_lambda.mp (he.of_mem_nodes hnode)).1

/-- Where a substitution succeeds it does below any node that it does not pick. -/
theorem Substituted.of_mem_children {e e' child : Expr} (h : Substituted pick e e')
    (hnone : pick e = none) (hchild : child ∈ e.children) :
    ∃ child', Substituted pick child child' := by
  cases h with
  | picked hpick => rw [hnone] at hpick; cases hpick
  | constant | parameter => cases hchild
  | member _ hbelow | unary _ hbelow | lambda _ _ hbelow =>
      rw [List.mem_singleton.mp hchild]
      exact ⟨_, hbelow⟩
  | call _ hoperands =>
      obtain ⟨child', -, hbelow⟩ := exists_of_forall₂_right (List.Forall₂.flip hoperands) hchild
      exact ⟨child', hbelow⟩
  | binary _ hleft hright =>
      rcases List.mem_pair.mp hchild with rfl | rfl
      · exact ⟨_, hleft⟩
      · exact ⟨_, hright⟩

/-- **Where a substitution succeeds, the parameter lists it goes into take what it puts there.** -/
theorem Substituted.rebindsAll {e e' : Expr} (h : Substituted pick e e') : RebindsAll pick e := by
  induction e using children_induction generalizing e' with
  | node e ih =>
      intro serial params body hmem
      obtain ⟨hnone, rfl | ⟨child, hchild, hmem⟩⟩ := mem_rebuilt_iff.mp hmem
      · cases h with
        | picked hpick => rw [hnone] at hpick; cases hpick
        | lambda _ hparams _ hchecked => exact ⟨hparams, hchecked⟩
      · obtain ⟨child', hbelow⟩ := h.of_mem_children hnone hchild
        exact ih child hchild hbelow serial params body hmem

end Expr

/-! ## Checks of nodes built anew -/

namespace Build

open ExprTree.Expr

variable {pick : Pick}

/-- Whether a call has a fault depends on its operands only through their types. -/
theorem callFault?_of_map_type_eq {method : Method} {operands operands' : List Expr}
    (htypes : operands'.map type = operands.map type)
    (h : callFault? (method.splitOperands operands).1 method (method.splitOperands operands).2
      = none) :
    callFault? (method.splitOperands operands').1 method (method.splitOperands operands').2
      = none := by
  have hargs : ∀ {args args' : List Expr}, args'.map type = args.map type →
      List.Forall₂ (fun param arg => param.accepts arg.type = true) method.params args →
      List.Forall₂ (fun param arg => param.accepts arg.type = true) method.params args' := by
    intro args args' heq hforall
    have hmap : ∀ args : List Expr,
        List.Forall₂ (fun param arg => Ty.accepts param arg.type = true) method.params args ↔
          List.Forall₂ (fun param t => Ty.accepts param t = true) method.params (args.map type) :=
      fun args => by rw [List.forall₂_map_right_iff]
    rwa [hmap, heq, ← hmap]
  rw [callFault?_eq_none_iff] at h ⊢
  obtain ⟨htarget, hreceiver, hforall⟩ := h
  unfold Method.splitOperands at htarget hforall ⊢
  cases operands with
  | nil =>
      obtain rfl := List.map_eq_nil_iff.mp htypes
      exact ⟨htarget, hreceiver, hforall⟩
  | cons operand operands =>
      obtain ⟨operand', rest, rfl, -, hrest⟩ := List.map_eq_cons_iff.mp htypes
      cases hform : method.form with
      | onTarget =>
          simp only [hform] at htarget hforall ⊢
          exact ⟨htarget, by simp, hargs hrest hforall⟩
      | static | extension =>
          simp only [hform] at htarget hreceiver hforall ⊢
          exact ⟨htarget, hreceiver, hargs htypes hforall⟩

/-! ## Why operations fail -/

/-- The operation succeeds in the session. -/
def Succeeds {α : Type} (action : Build α) (session : Session) : Prop :=
  ∃ a session', runIn action session = (.ok a, session')

/-- After an operation that succeeds the next one goes on. -/
theorem Succeeds.bind {α β : Type} {action : Build α} {next : α → Build β} {a : α}
    {session middle : Session} (hfirst : runIn action session = (.ok a, middle))
    (hnext : Succeeds (next a) middle) : Succeeds (action >>= next) session := by
  obtain ⟨b, last, hnext⟩ := hnext
  exact ⟨b, last, runIn_bind_ok.mpr ⟨a, middle, hfirst, hnext⟩⟩

/-- The operation makes no parameter, and it fails only for the given reason and because there cannot
be some lambda. -/
structure FailsOnlyIf {α : Type} (reason : Prop) (action : Build α) (session : Session) : Prop where
  parameters_eq : (runIn action session).2.parameters = session.parameters
  of_error : ∀ error, (runIn action session).1 = .error error →
    reason ∧ ∃ fault, error = .invalidNode fault ∧ fault.kind = .lambda

namespace FailsOnlyIf

variable {α β : Type} {reason : Prop} {action : Build α} {session : Session}

theorem of_ok {a : α} {last : Session} (h : runIn action session = (.ok a, last))
    (hlast : last.parameters = session.parameters) : FailsOnlyIf reason action session :=
  ⟨by rw [h, hlast], fun error herror => by rw [h] at herror; cases herror⟩

theorem of_invalid {fault : NodeFault}
    (h : runIn action session = (.error (.invalidNode fault), session))
    (hfault : fault.kind = .lambda) (hreason : reason) : FailsOnlyIf reason action session := by
  refine ⟨by rw [h], fun error herror => ⟨hreason, fault, ?_, hfault⟩⟩
  rw [h] at herror
  exact (Except.error.inj herror).symm

theorem mono {other : Prop} (h : FailsOnlyIf reason action session) (himp : reason → other) :
    FailsOnlyIf other action session :=
  ⟨h.parameters_eq, fun error herror => (h.of_error error herror).imp_left himp⟩

/-- Two operations fail only for the reason for which the first one does or, from where that leads,
the second one. -/
theorem bind {next : α → Build β} (h : FailsOnlyIf reason action session)
    (hnext : ∀ a middle, runIn action session = (.ok a, middle) → FailsOnlyIf reason (next a) middle) :
    FailsOnlyIf reason (action >>= next) session := by
  obtain ⟨hparameters, herror⟩ := h
  rcases hrun : runIn action session with ⟨error | a, middle⟩
  · have hboth : runIn (action >>= next) session = (.error error, middle) := by
      rw [runIn_bind, hrun]
    rw [hrun] at hparameters herror
    refine ⟨by rw [hboth]; exact hparameters, fun thrown hthrown => herror thrown ?_⟩
    rw [hboth] at hthrown
    exact congrArg Except.error (Except.error.inj hthrown)
  · have hboth : runIn (action >>= next) session = runIn (next a) middle := by
      rw [runIn_bind, hrun]
    obtain ⟨hrest, hrestError⟩ := hnext a middle hrun
    rw [hrun] at hparameters
    exact ⟨by rw [hboth]; exact hrest.trans hparameters,
      fun thrown hthrown => hrestError thrown (hboth ▸ hthrown)⟩

theorem mapM {f : α → Build β} {as : List α}
    (h : ∀ a ∈ as, ∀ session, FailsOnlyIf reason (f a) session) :
    FailsOnlyIf reason (as.mapM f) session := by
  induction as generalizing session with
  | nil => exact of_ok rfl rfl
  | cons a as ih =>
      rw [List.forall_mem_cons] at h
      rw [List.mapM_cons]
      exact bind (h.1 session) fun b _ _ => bind (ih h.2) fun bs _ _ => of_ok rfl rfl

/-- Without a reason to fail the operation succeeds. -/
theorem succeeds (h : FailsOnlyIf reason action session) (hnot : ¬ reason) :
    Succeeds action session := by
  rcases hrun : runIn action session with ⟨error | a, last⟩
  · exact absurd (h.of_error error (by rw [hrun])).1 hnot
  · exact ⟨a, last, hrun⟩

/-- A lambda can be built unless it declares a parameter twice. -/
theorem lambda (params : List Parameter) (body : Expr) :
    FailsOnlyIf (¬ params.Nodup) (Build.lambda params body) session := by
  by_cases hnodup : params.Nodup
  · exact of_ok (runIn_lambda_ok.mpr ⟨hnodup, rfl, rfl⟩) rfl
  · cases hrepeated : repeated? [] params with
    | none => exact absurd (repeated?_eq_none_iff.mp hrepeated).1 hnodup
    | some p =>
        have hrun : runIn (Build.lambda params body) session
            = (.error (.invalidNode (.repeatedParameter p)), session) := by
          rw [Build.lambda, hrepeated]
          rfl
        exact of_invalid hrun rfl hnodup

end FailsOnlyIf

/-! ## Substitutions at equal types -/

/-- A substitution in an entry of a parameter list fails only if it puts something else than a
parameter there. -/
theorem FailsOnlyIf.substituteParameter {p : Parameter} (session : Session) : FailsOnlyIf
    (¬ ∀ r, pick (.parameter p) = some r → ∃ q, r = .parameter q) (substituteParameter pick p)
      session := by
  unfold Expr.substituteParameter
  cases hpick : pick (.parameter p) with
  | none => exact of_ok rfl rfl
  | some r =>
      cases r with
      | parameter q => exact of_ok rfl rfl
      | _ =>
          refine ⟨rfl, fun error herror => ⟨fun h => ?_, _, (Except.error.inj herror).symm, rfl⟩⟩
          obtain ⟨q, hq⟩ := h _ rfl
          cases hq

/-- Substitutions in several expressions fail only for the reason for which one of them does. -/
theorem FailsOnlyIf.substituteAll {reason : Prop} {es : List Expr} (session : Session)
    (h : ∀ e ∈ es, ∀ session, FailsOnlyIf reason (e.substitute pick) session) :
    FailsOnlyIf reason (Expr.substituteAll pick es) session := by
  induction es generalizing session with
  | nil => exact of_ok rfl rfl
  | cons e es ih =>
      rw [List.forall_mem_cons] at h
      rw [Expr.substituteAll]
      exact (h.1 session).bind fun e' middle _ => (ih middle h.2).bind fun es' _ _ => of_ok rfl rfl

/-- A substitution never fails where it picks a node. -/
theorem FailsOnlyIf.substitute_of_unpicked {reason : Prop} {e : Expr} {session : Session}
    (h : pick e = none → FailsOnlyIf reason (e.substitute pick) session) :
    FailsOnlyIf reason (e.substitute pick) session := by
  cases hpick : pick e with
  | none => exact h hpick
  | some replacement =>
      rw [Expr.substitute.eq_def, hpick]
      exact of_ok rfl rfl

theorem map_type_of_runIn_substituteAll {es es' : List Expr} {session session' : Session}
    (hpick : KeepsTypes pick)
    (h : runIn (substituteAll pick es) session = (.ok es', session')) :
    es'.map type = es.map type := by
  have hall := forall₂_of_runIn_substituteAll (fun e _ _ _ _ he => substituted_of_runIn he) h
  exact map_eq_map_of_forall₂ hall fun e _ e' he => he.type_eq hpick

/-- **A substitution at equal types fails only if a parameter list that it goes into does not take
what it puts there.** -/
theorem FailsOnlyIf.substitute {e : Expr} (he : e.WellFormed) (hpick : KeepsTypes pick)
    (session : Session) : FailsOnlyIf (¬ RebindsAll pick e) (e.substitute pick) session := by
  have hbelow : ∀ {e child : Expr} {session : Session}, pick e = none → child ∈ e.children →
      FailsOnlyIf (¬ RebindsAll pick child) (child.substitute pick) session →
      FailsOnlyIf (¬ RebindsAll pick e) (child.substitute pick) session :=
    fun hnone hchild h => h.mono fun hnot hall => hnot (hall.of_mem_children hnone hchild)
  -- A node built anew has parts of the types it had, so it passes the check that it passed before.
  induction e generalizing session with
  | constant serial value type =>
      refine substitute_of_unpicked fun hnone => ?_
      rw [Expr.substitute, hnone]
      exact of_ok rfl rfl
  | parameter p =>
      refine substitute_of_unpicked fun hnone => ?_
      rw [Expr.substitute, hnone]
      exact of_ok rfl rfl
  | member serial target name type ih =>
      refine substitute_of_unpicked fun hnone => ?_
      obtain ⟨hmembers, htarget⟩ := wellFormed_member.mp he
      rw [Expr.substitute, hnone]
      refine (hbelow hnone (List.mem_singleton_self _) (ih htarget session)).bind
        fun target' middle hrun => ?_
      rw [← (substituted_of_runIn hrun).type_eq hpick] at hmembers
      exact of_ok (runIn_member_ok.mpr ⟨hmembers, rfl, rfl⟩) rfl
  | call serial method operands ih =>
      refine substitute_of_unpicked fun hnone => ?_
      obtain ⟨hfault, hoperands⟩ := wellFormed_call.mp he
      rw [Expr.substitute, hnone]
      refine (FailsOnlyIf.substituteAll session fun operand hmem session => ?_).bind
        fun operands' middle hrun => ?_
      · exact hbelow hnone hmem (ih operand hmem (hoperands operand hmem) session)
      · have hfault := callFault?_of_map_type_eq (map_type_of_runIn_substituteAll hpick hrun) hfault
        exact of_ok (runIn_call_ok.mpr ⟨hfault, rfl, rfl⟩) rfl
  | unary serial op operand ih =>
      refine substitute_of_unpicked fun hnone => ?_
      obtain ⟨hoperator, hoperand⟩ := wellFormed_unary.mp he
      rw [Expr.substitute, hnone]
      refine (hbelow hnone (List.mem_singleton_self _) (ih hoperand session)).bind
        fun operand' middle hrun => ?_
      rw [← (substituted_of_runIn hrun).type_eq hpick] at hoperator
      exact of_ok (runIn_unary_ok.mpr ⟨hoperator, rfl, rfl⟩) rfl
  | binary serial op left right ihl ihr =>
      refine substitute_of_unpicked fun hnone => ?_
      obtain ⟨hoperator, hleft, hright⟩ := wellFormed_binary.mp he
      rw [Expr.substitute, hnone]
      refine (hbelow hnone List.mem_cons_self (ihl hleft session)).bind fun left' middle hl => ?_
      refine (hbelow hnone (List.mem_cons_of_mem _ (List.mem_singleton_self _))
        (ihr hright middle)).bind fun right' last hr => ?_
      rw [← (substituted_of_runIn hl).type_eq hpick, ← (substituted_of_runIn hr).type_eq hpick]
        at hoperator
      exact of_ok (runIn_binary_ok.mpr ⟨hoperator, rfl, rfl⟩) rfl
  | lambda serial params body ih =>
      refine substitute_of_unpicked fun hnone => ?_
      obtain ⟨-, hbody⟩ := wellFormed_lambda.mp he
      rw [Expr.substitute, hnone]
      refine (FailsOnlyIf.mapM fun p hp session => ?_).bind fun params' middle hparams => ?_
      · exact (FailsOnlyIf.substituteParameter session).mono
          fun hnot h => hnot ((h.rebinds hnone).1 p hp)
      obtain ⟨rfl, -⟩ := map_fillParameter_of_runIn hparams
      refine (hbelow hnone (List.mem_singleton_self _) (ih hbody middle)).bind fun body' last _ => ?_
      refine ((FailsOnlyIf.lambda _ _).mono fun hnot h => hnot (h.rebinds hnone).2).bind
        fun lambda _ _ => ?_
      exact of_ok (runIn_toExpr_ok.mpr ⟨rfl, rfl⟩) rfl

/-- **A substitution at equal types succeeds if the parameter lists it goes into take it.** -/
theorem succeeds_substitute {e : Expr} (he : e.WellFormed) (hpick : KeepsTypes pick)
    (hlambdas : RebindsAll pick e) (session : Session) : Succeeds (e.substitute pick) session :=
  (FailsOnlyIf.substitute he hpick session).succeeds (not_not.mpr hlambdas)

variable (session : Session)

/-! ## New parameters for old ones -/

/-- **A new parameter can be put in the place of any other one of its type.** The result has the type
of what it started from, is well-formed, and has no parameter but the new one that was not there. No
parameter is made for it. -/
theorem exists_runIn_replace_fresh {e : Expr} {p f : Parameter} (he : e.WellFormed)
    (htype : f.type = p.type) (hnew : f ∉ e.parameters) :
    ∃ e' session', runIn (e.replace (.parameter p) (.parameter f)) session = (.ok e', session') ∧
      session'.parameters = session.parameters ∧ e'.WellFormed ∧ e'.type = e.type ∧
      ∀ q ∈ e'.parameters, q = f ∨ q ∈ e.parameters := by
  have hpick : KeepsTypes (replacing (.parameter p) (.parameter f)) := .replacing htype
  have hfilled : ∀ n r, replacing (.parameter p) (.parameter f) n = some r → r = .parameter f := by
    intro n r hr
    exact (replacing_eq_some_iff.mp hr).2
  have hlambdas : RebindsAll (replacing (.parameter p) (.parameter f)) e := by
    intro serial params body hmem
    have hnode := rebuilt_subset_nodes e hmem
    refine ⟨fun q _ r hr => ⟨f, hfilled _ r hr⟩, ?_⟩
    -- The new parameter stands in no list yet, so no list comes to hold it twice.
    have hlisted : f ∉ params := fun h =>
      hnew (parameters_subset hnode (by simp [h]))
    rw [fillParameter_replacing]
    exact List.Nodup.map_on (fun q hq r hr => redirect_injective hlisted hq hr)
      (wellFormed_lambda.mp (he.of_mem_nodes hnode)).1
  obtain ⟨e', session', hrun⟩ := succeeds_substitute he hpick hlambdas session
  have hsubst := substituted_of_runIn hrun
  have hparameters := (FailsOnlyIf.substitute he hpick session).parameters_eq
  rw [hrun] at hparameters
  refine ⟨e', session', hrun, hparameters, hsubst.wellFormed he fun n r hr => ?_,
    hsubst.type_eq hpick, fun q hq => ?_⟩
  · rw [hfilled n r hr]
    exact wellFormed_parameter
  · rw [parameters_eq_of_shape_eq hsubst.shape_eq] at hq
    rcases mem_parameters_fill hq with hq | ⟨n, r, hr, hq⟩
    · exact Or.inr hq
    · rw [hfilled n r hr, parameters_parameter, List.mem_singleton] at hq
      exact Or.inl hq

/-- Both bodies can be brought onto new parameters of the same types, and no further parameter is made
for it. -/
theorem exists_runIn_unifyParams {lefts rights fresh : List Parameter} {leftBody rightBody : Expr}
    (hlefts : lefts.map Parameter.type = fresh.map Parameter.type)
    (hrights : rights.map Parameter.type = fresh.map Parameter.type) (hnodup : fresh.Nodup)
    (hleft : leftBody.WellFormed) (hright : rightBody.WellFormed)
    (hnew : ∀ f ∈ fresh, f ∉ leftBody.parameters ∧ f ∉ rightBody.parameters) :
    ∃ leftBody' rightBody' session',
      runIn (Lambda.unifyParams lefts rights fresh leftBody rightBody) session
        = (.ok (leftBody', rightBody'), session') ∧
      session'.parameters = session.parameters ∧ leftBody'.type = leftBody.type ∧
      rightBody'.type = rightBody.type := by
  induction fresh generalizing lefts rights leftBody rightBody session with
  | nil =>
      obtain rfl := List.map_eq_nil_iff.mp hlefts
      exact ⟨leftBody, rightBody, session, rfl, rfl, rfl, rfl⟩
  | cons f fresh ih =>
      obtain ⟨l, lefts, rfl, hl, hlefts⟩ := List.map_eq_cons_iff.mp hlefts
      obtain ⟨r, rights, rfl, hr, hrights⟩ := List.map_eq_cons_iff.mp hrights
      obtain ⟨hf, hnodup⟩ := List.nodup_cons.mp hnodup
      obtain ⟨hnewLeft, hnewRight⟩ := hnew f List.mem_cons_self
      obtain ⟨leftNext, middle, hrunLeft, hmiddle, hleft, hleftType, hleftParams⟩ :=
        exists_runIn_replace_fresh session hleft hl.symm hnewLeft
      obtain ⟨rightNext, last, hrunRight, hlast, hright, hrightType, hrightParams⟩ :=
        exists_runIn_replace_fresh middle hright hr.symm hnewRight
      -- The other new parameters are new to what the first round gives as well.
      have hnext : ∀ g ∈ fresh, g ∉ leftNext.parameters ∧ g ∉ rightNext.parameters := by
        intro g hg
        have hgf : g ≠ f := fun h => hf (h ▸ hg)
        obtain ⟨hgl, hgr⟩ := hnew g (List.mem_cons_of_mem _ hg)
        exact ⟨fun h => (hleftParams g h).elim hgf hgl, fun h => (hrightParams g h).elim hgf hgr⟩
      obtain ⟨leftBody', rightBody', session', hrun, hparameters, hleftType', hrightType'⟩ :=
        ih last hlefts hrights hnodup hleft hright hnext
      refine ⟨leftBody', rightBody', session', ?_, hparameters.trans (hlast.trans hmiddle),
        hleftType'.trans hleftType, hrightType'.trans hrightType⟩
      simp only [Lambda.unifyParams, runIn_bind_ok]
      exact ⟨leftNext, middle, hrunLeft, rightNext, last, hrunRight, hrun⟩

/-- A joined predicate takes what the left one takes and gives a truth value. -/
theorem typed_of_join {connective : Connective} {left right joined : Lambda}
    {session session' : Session}
    (h : runIn (left.join connective right) session = (.ok joined, session')) :
    joined.paramTypes = left.paramTypes ∧ joined.resultType = .boolean := by
  obtain ⟨-, hparams, serial, leftBody, rightBody, hbody, -, -⟩ := joined_of_runIn h
  refine ⟨?_, ?_⟩
  · rw [Lambda.paramTypes, hparams, Parameter.map_type_freshened]
    rfl
  · rw [Lambda.resultType, hbody]
    cases connective <;> rfl

/-- The bodies of two valid lambdas over parameters of the same types can be brought onto the new
parameters of a join. -/
theorem exists_runIn_unifyParams_freshened {left right : Lambda} (hleft : left.Valid session)
    (hright : right.Valid session) (htypes : left.paramTypes = right.paramTypes) (start : Session) :
    ∃ leftBody rightBody last,
      runIn (Lambda.unifyParams left.params right.params
          (Parameter.freshened session.parameters left.params) left.body right.body) start
        = (.ok (leftBody, rightBody), last) ∧
      last.parameters = start.parameters ∧ leftBody.type = left.resultType ∧
      rightBody.type = right.resultType := by
  have hfresh := Parameter.map_type_freshened session.parameters left.params
  have hnew : ∀ f ∈ Parameter.freshened session.parameters left.params,
      f ∉ left.body.parameters ∧ f ∉ right.body.parameters := by
    intro f hf
    have hnewLeft := hleft.notMem_of_mem_freshened hf
    have hnewRight := hright.notMem_of_mem_freshened hf
    rw [List.mem_append, not_or] at hnewLeft hnewRight
    exact ⟨hnewLeft.2, hnewRight.2⟩
  exact exists_runIn_unifyParams start hfresh.symm (htypes.symm.trans hfresh.symm)
    (Parameter.nodup_freshened session.parameters left.params) hleft.wellFormed.2
    hright.wellFormed.2 hnew

/-- **Predicates over parameters of the same types can be joined.** -/
theorem succeeds_join {session : Session} (connective : Connective) {left right : Lambda}
    (hleft : left.Valid session) (hright : right.Valid session)
    (htypes : left.paramTypes = right.paramTypes) (hl : left.resultType = .boolean)
    (hr : right.resultType = .boolean) : Succeeds (left.join connective right) session := by
  have hnodup := Parameter.nodup_freshened session.parameters left.params
  obtain ⟨leftBody, rightBody, middle, hunify, -, hleftType, hrightType⟩ :=
    exists_runIn_unifyParams_freshened session hleft hright htypes _
  have hoperator : (connective.toOperator.outputType? leftBody.type rightBody.type).isSome := by
    rw [hleftType, hrightType, hl, hr]
    cases connective <;> rfl
  unfold Lambda.join
  rw [if_pos htypes]
  exact .bind (runIn_mapM_freshParameter _ _) (.bind hunify
    (.bind (runIn_binary_ok.mpr ⟨hoperator, rfl, rfl⟩)
      (.bind (runIn_lambda_ok.mpr ⟨hnodup, rfl, rfl⟩) ⟨_, _, rfl⟩)))

end Build

end ExprTree
