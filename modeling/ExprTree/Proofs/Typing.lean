/-
# Typing

The typing rules of expressions, written down apart from the checks of the constructors: which types
the parts of a node must have, and which type the node has then. An expression has a type just if it
is well-formed, and the type is its own. So whatever building operations lead to is typed at every
node, and replacing a node inside an expression leaves the type of the expression as it is.
-/
import ExprTree.Proofs.Reachable

namespace ExprTree

/-! ## Targets among operands -/

namespace Method

/-- The first operand of an instance method is its target. -/
theorem splitOperands_cons {method : Method} (h : method.form = .onTarget) (target : Expr)
    (args : List Expr) : method.splitOperands (target :: args) = (some target, args) := by
  simp only [splitOperands, h]

/-- Any other method has arguments only. -/
theorem splitOperands_of_ne {method : Method} (h : method.form ≠ .onTarget) (args : List Expr) :
    method.splitOperands args = (none, args) := by
  unfold splitOperands
  split
  · contradiction
  · rfl

end Method

namespace Expr

/-! ## Typing rules -/

/-- The typing rules. A lambda takes what its parameters declare, and these are all different. -/
inductive HasType : Expr → Ty → Prop
  | constant {serial value type} : value.type? = some type →
      HasType (.constant serial value type) type
  | parameter {p} : HasType (.parameter p) p.type
  /-- A member has the type it is declared to have. -/
  | member {serial target targetType name type} : HasType target targetType →
      targetType.hasMembers = true → HasType (.member serial target name type) type
  /-- Each argument fits its parameter, and an extension method has an argument to be called on. -/
  | call {serial method args types} : method.form ≠ .onTarget →
      (method.form = .extension → method.params ≠ []) →
      List.Forall₂ HasType args types →
      List.Forall₂ (fun param type => Ty.accepts param type = true) method.params types →
      HasType (.call serial method args) method.result
  /-- An instance method has a target in front of the arguments. -/
  | callOn {serial method target targetType args types} : method.form = .onTarget →
      HasType target targetType → List.Forall₂ HasType args types →
      List.Forall₂ (fun param type => Ty.accepts param type = true) method.params types →
      HasType (.call serial method (target :: args)) method.result
  | unary {serial op operand operandType type} : HasType operand operandType →
      op.outputType? operandType = some type → HasType (.unary serial op operand) type
  | binary {serial op left leftType right rightType type} : HasType left leftType →
      HasType right rightType → op.outputType? leftType rightType = some type →
      HasType (.binary serial op left right) type
  | lambda {serial params body bodyType} : params.Nodup → HasType body bodyType →
      HasType (.lambda serial params body) (.function (params.map Parameter.type) bodyType)

/-! ## Types and checks -/

/-- The rules give an expression no other type than its own. -/
theorem HasType.eq_type {e : Expr} {type : Ty} (h : HasType e type) : type = e.type := by
  induction e generalizing type with
  | constant | parameter | member | call => cases h <;> rfl
  | unary =>
      cases h with
      | unary _ htype =>
          unfold UnaryOp.outputType? at htype
          split at htype
          · exact (Option.some.inj htype).symm
          · cases htype
  | binary =>
      cases h with
      | binary _ _ htype =>
          unfold BinaryOp.outputType? at htype
          split at htype
          · exact (Option.some.inj htype).symm
          · cases htype
  | lambda _ _ _ ih =>
      cases h with
      | lambda _ hbody => rw [Expr.type, ih hbody]

/-- Arguments fit the parameters of a method just if their own types do. -/
theorem accepts_of_hasType {params types : List Ty} {args : List Expr}
    (hargs : List.Forall₂ HasType args types)
    (h : List.Forall₂ (fun param type => Ty.accepts param type = true) params types) :
    List.Forall₂ (fun param arg => Ty.accepts param arg.type = true) params args := by
  have htypes : types = args.map Expr.type := by
    rw [← List.forall₂_eq_eq_eq, List.forall₂_map_right_iff]
    exact hargs.flip.imp fun _ _ harg => harg.eq_type
  rwa [htypes, List.forall₂_map_right_iff] at h

/-- What has a type is well-formed. -/
theorem HasType.wellFormed {e : Expr} {type : Ty} (h : HasType e type) : e.WellFormed := by
  induction e generalizing type with
  | constant =>
      cases h with
      | constant htype => exact wellFormed_constant.mpr htype
  | parameter => exact wellFormed_parameter
  | member _ _ _ _ ih =>
      cases h with
      | member htarget hmembers =>
          rw [htarget.eq_type] at hmembers
          exact wellFormed_member.mpr ⟨hmembers, ih htarget⟩
  | call serial method operands ih =>
      cases h with
      | call hform hreceiver hargs haccepts =>
          rw [wellFormed_call, Method.splitOperands_of_ne hform, Build.callFault?_eq_none_iff]
          refine ⟨⟨by simp [hform], hreceiver, accepts_of_hasType hargs haccepts⟩, ?_⟩
          intro e he
          obtain ⟨type, -, htype⟩ := exists_of_forall₂_right hargs.flip he
          exact ih e he htype
      | callOn hform htarget hargs haccepts =>
          rw [wellFormed_call, Method.splitOperands_cons hform, Build.callFault?_eq_none_iff]
          refine ⟨⟨by simp [hform], by simp [hform], accepts_of_hasType hargs haccepts⟩, ?_⟩
          intro e he
          rcases List.mem_cons.mp he with rfl | hmem
          · exact ih e he htarget
          · obtain ⟨type, -, htype⟩ := exists_of_forall₂_right hargs.flip hmem
            exact ih e he htype
  | unary _ _ _ ih =>
      cases h with
      | unary hoperand htype =>
          rw [hoperand.eq_type] at htype
          exact wellFormed_unary.mpr ⟨Option.isSome_of_eq_some htype, ih hoperand⟩
  | binary _ _ _ _ ihl ihr =>
      cases h with
      | binary hleft hright htype =>
          rw [hleft.eq_type, hright.eq_type] at htype
          exact wellFormed_binary.mpr ⟨Option.isSome_of_eq_some htype, ihl hleft, ihr hright⟩
  | lambda _ _ _ ih =>
      cases h with
      | lambda hnodup hbody => exact wellFormed_lambda.mpr ⟨hnodup, ih hbody⟩

/-- What is well-formed has its own type. -/
theorem WellFormed.hasType {e : Expr} (h : e.WellFormed) : HasType e e.type := by
  induction e with
  | constant => exact .constant (wellFormed_constant.mp h)
  | parameter => exact .parameter
  | member _ _ _ _ ih =>
      obtain ⟨hmembers, htarget⟩ := wellFormed_member.mp h
      exact .member (ih htarget) hmembers
  | call serial method operands ih =>
      obtain ⟨hfault, hoperands⟩ := wellFormed_call.mp h
      rw [Build.callFault?_eq_none_iff] at hfault
      obtain ⟨hform, hreceiver, haccepts⟩ := hfault
      have htyped : ∀ args ⊆ operands, List.Forall₂ HasType args (args.map Expr.type) := by
        intro args hargs
        rw [List.forall₂_map_right_iff, List.forall₂_same]
        exact fun e he => ih e (hargs he) (hoperands e (hargs he))
      by_cases htarget : method.form = .onTarget
      · cases operands with
        | nil => simp [Method.splitOperands, htarget] at hform
        | cons target args =>
            rw [Method.splitOperands_cons htarget] at haccepts
            have hfirst := ih target List.mem_cons_self (hoperands target List.mem_cons_self)
            exact .callOn htarget hfirst (htyped args (List.subset_cons_self _ _))
              (List.forall₂_map_right_iff.mpr haccepts)
      · rw [Method.splitOperands_of_ne htarget] at haccepts
        exact .call htarget hreceiver (htyped operands (List.Subset.refl _))
          (List.forall₂_map_right_iff.mpr haccepts)
  | unary _ _ _ ih =>
      obtain ⟨htype, hoperand⟩ := wellFormed_unary.mp h
      refine .unary (ih hoperand) ?_
      unfold UnaryOp.outputType? at htype ⊢
      split at htype
      · exact if_pos ‹_›
      · cases htype
  | binary _ _ _ _ ihl ihr =>
      obtain ⟨htype, hleft, hright⟩ := wellFormed_binary.mp h
      refine .binary (ihl hleft) (ihr hright) ?_
      unfold BinaryOp.outputType? at htype ⊢
      split at htype
      · exact if_pos ‹_›
      · cases htype
  | lambda _ _ _ ih =>
      obtain ⟨hnodup, hbody⟩ := wellFormed_lambda.mp h
      exact .lambda hnodup (ih hbody)

/-- **A well-formed expression has one type, its own.** -/
theorem WellFormed.hasType_iff {e : Expr} (h : e.WellFormed) {type : Ty} :
    HasType e type ↔ type = e.type := by
  constructor
  · exact HasType.eq_type
  · rintro rfl
    exact h.hasType

/-! ## Types of what a substitution gives -/

/-- A composite node other than a lambda keeps its type whatever is put in below it. -/
theorem Substituted.type_eq_of_not_lambda {pick : Pick} {e e' : Expr} (h : Substituted pick e e')
    (hpick : pick e = none) (hkind : e.kind ≠ .lambda) : e'.type = e.type := by
  cases h with
  | picked h =>
      rw [hpick] at h
      cases h
  | lambda => exact absurd rfl hkind
  | constant | parameter | member | call | unary | binary => rfl

end Expr

namespace Workspace

/-- **Whatever is built is typed.** In every workspace that building operations lead to, in any order,
every node of every expression and of the body of every lambda has its own type by the typing rules and
no other one. The parameters of a lambda are all different, and a node for it has the function type of
the lambda. Replacing a node below the root of an expression that is no lambda gives an expression of
the same type. -/
theorem Reachable.hasType_nodes {w : Workspace} (hw : w.Reachable) :
    (∀ e ∈ w.exprs, ∀ n ∈ e.nodes, ∀ type, n.HasType type ↔ type = n.type) ∧
    (∀ lambda ∈ w.lambdas, lambda.params.Nodup ∧
      (∀ n ∈ lambda.body.nodes, ∀ type, n.HasType type ↔ type = n.type) ∧
      ∀ e session', lambda.toExpr.runIn w.session = (.ok e, session') →
        e.type = lambda.type ∧ ∀ type, e.HasType type ↔
          type = .function (lambda.params.map Parameter.type) lambda.body.type) ∧
    ∀ e node replacement e' session', e ∈ w.exprs → replacement ∈ w.exprs →
      (e.replace node replacement).runIn w.session = (.ok e', session') →
      e.kind ≠ .lambda → e ≠ node → e'.type = e.type ∧ e'.HasType e.type := by
  have hsound := hw.sound
  refine ⟨?_, ?_, ?_⟩
  · intro e he n hn type
    exact ((hsound.exprs e he).wellFormed.of_mem_nodes hn).hasType_iff
  · intro lambda hlambda
    obtain ⟨hnodup, hbody⟩ := (hsound.lambdas lambda hlambda).wellFormed
    refine ⟨hnodup, fun n hn type => (hbody.of_mem_nodes hn).hasType_iff, ?_⟩
    intro e session' hrun
    obtain ⟨rfl, -⟩ := Build.runIn_toExpr_ok.mp hrun
    exact ⟨rfl, fun type => (Expr.wellFormed_lambda.mpr ⟨hnodup, hbody⟩).hasType_iff⟩
  · intro e node replacement e' session' he hreplacement hrun hkind hne
    have hpick : Expr.replacing node replacement e = none := if_neg hne
    have htype := (substituted_of_runIn hrun).type_eq_of_not_lambda hpick hkind
    have hvalid := Build.valid_of_replace hrun (hsound.exprs e he) (hsound.exprs _ hreplacement)
    exact ⟨htype, htype ▸ hvalid.wellFormed.hasType⟩

namespace Retyped

def x : Parameter := ⟨0, some "x", .int32⟩

def o : Parameter := ⟨1, some "o", .object⟩

/-- `(x == o)`. -/
def equal : Expr := .binary 0 .eq (.parameter x) (.parameter o)

/-- Two parameters of different types, their comparison, and a lambda over both. -/
def workspace : Workspace where
  session := { serials := 1, parameters := 2 }
  exprs := [equal, .parameter o, .parameter x]
  lambdas := [⟨[x, o], equal⟩]

theorem reachable : workspace.Reachable := by
  have hparameters : Reachable ⟨{ parameters := 2 }, [.parameter o, .parameter x], []⟩ :=
    .step (.step .start (.built (.parameter (some "x") .int32) rfl))
      (.built (.parameter (some "o") .object) rfl)
  have hequal : Reachable { workspace with lambdas := [] } :=
    .step hparameters (.built (@Builds.binary _ (.parameter x) (.parameter o) .eq
      (by simp) (by simp)) rfl)
  exact .step hequal (.builtLambda (@BuildsLambda.lambda _ [x, o] equal
    (by simp [workspace]) (by simp [workspace])) rfl)

/-- The comparison and the lambda are typed, and with an integer in the place of the object the
comparison is still a truth value. -/
theorem hasType_equal :
    (∀ n ∈ equal.nodes, ∀ type, n.HasType type ↔ type = n.type) ∧
    (∀ type, (Expr.lambda 1 [x, o] equal).HasType type ↔
      type = .function [.int32, .object] .boolean) ∧
    (Expr.binary 1 .eq (.parameter x) (.parameter x)).HasType .boolean := by
  obtain ⟨hexprs, hlambdas, hreplace⟩ := reachable.hasType_nodes
  have hmem : equal ∈ workspace.exprs := by simp [workspace]
  refine ⟨hexprs equal hmem, ?_, ?_⟩
  · exact ((hlambdas ⟨[x, o], equal⟩ (by simp [workspace])).2.2 _ _ rfl).2
  · exact (hreplace equal (.parameter o) (.parameter x) _ _ hmem (by simp [workspace]) rfl
      (by decide) (by decide)).2

end Retyped

end Workspace

end ExprTree
