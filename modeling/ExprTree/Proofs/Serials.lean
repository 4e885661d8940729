/-
# Serials of what was built

Each new node takes the serial that comes next, so in whatever was built all serials are less than
the next one, and a node made from now on is none of those that are there.
-/
import ExprTree.Proofs.Copies
import ExprTree.Proofs.Reachable

namespace ExprTree

namespace Expr

/-! ## Bounds -/

/-- All serials in an expression are less than a bound. -/
def SerialsBelow (bound : Nat) (e : Expr) : Prop :=
  ∀ n ∈ e.nodes, ∀ serial, n.serial? = some serial → serial < bound

variable {bound bound' : Nat} {e e' : Expr}

theorem SerialsBelow.mono (h : e.SerialsBelow bound) (hle : bound ≤ bound') :
    e.SerialsBelow bound' :=
  fun n hn serial hserial => Nat.lt_of_lt_of_le (h n hn serial hserial) hle

/-- A bound holds for the node and for what stands right below it. -/
theorem serialsBelow_iff : e.SerialsBelow bound ↔
    (∀ serial, e.serial? = some serial → serial < bound) ∧
      ∀ child ∈ e.children, child.SerialsBelow bound := by
  unfold SerialsBelow
  constructor
  · intro h
    refine ⟨h e (mem_nodes_self e), fun child hchild n hn => h n ?_⟩
    exact mem_nodes_iff.mpr (Or.inr ⟨child, hchild, hn⟩)
  · rintro ⟨hself, hchildren⟩ n hn
    rcases mem_nodes_iff.mp hn with rfl | ⟨child, hchild, hn⟩
    · exact hself
    · exact hchildren child hchild n hn

theorem serialsBelow_parameter (p : Parameter) : (parameter p).SerialsBelow bound :=
  serialsBelow_iff.mpr ⟨nofun, nofun⟩

/-- A bound holds for whatever a walk goes to from the node. -/
theorem SerialsBelow.of_mem_parts (h : e.SerialsBelow bound) {part : Expr}
    (hpart : part ∈ e.parts) : part.SerialsBelow bound := by
  rcases List.mem_append.mp hpart with hpart | hpart
  · obtain ⟨p, -, rfl⟩ := List.mem_map.mp hpart
    exact serialsBelow_parameter p
  · exact (serialsBelow_iff.mp h).2 part hpart

/-- A copy keeps to a bound that holds for the expression and for what is put in, if its new serials
do. -/
theorem Copied.serialsBelow {pick : Pick} {first last : Nat} (h : Copied pick first last e e')
    (he : e.SerialsBelow last)
    (hpick : ∀ node replacement, pick node = some replacement → replacement.SerialsBelow last) :
    e'.SerialsBelow last := by
  induction e using parts_induction generalizing e' with
  | node e ih =>
      cases h with
      | picked hreplacement => exact hpick e e' hreplacement
      | leaf => exact he
      | built _ _ _ hserial _ hlast _ hparts =>
          refine serialsBelow_iff.mpr ⟨fun serial h => ?_, fun child hchild => ?_⟩
          · rw [hserial] at h
            exact Option.some.inj h ▸ hlast
          · obtain ⟨part, hpart, hcopied⟩ :=
              exists_of_forall₂_right hparts (List.mem_append_right _ hchild)
            exact ih part hpart hcopied (he.of_mem_parts hpart)

end Expr

/-! ## Numbered runs -/

namespace Build

open ExprTree.Expr

variable {α β : Type} {given : List Expr}

/-- What the operation makes has only serials that were handed out by then, if this was true of what
is given. -/
def Numbers (given : List Expr) (made : α → List Expr) (action : Build α) : Prop :=
  ∀ session session' a, (∀ e ∈ given, e.SerialsBelow session.serials) →
    runIn action session = (.ok a, session') → ∀ e ∈ made a, e.SerialsBelow session'.serials

namespace Numbers

theorem pure {made : α → List Expr} {a : α} (h : ∀ e ∈ made a, e ∈ given) :
    Numbers given made (Pure.pure a) := by
  intro session session' b hgiven hrun e he
  simp only [runIn_pure, Prod.mk.injEq, Except.ok.injEq] at hrun
  obtain ⟨rfl, rfl⟩ := hrun
  exact hgiven e (h e he)

theorem throw {made : α → List Expr} (error : Error) :
    Numbers given made (MonadExcept.throw error) := by
  intro session session' a _ hrun
  simp at hrun

/-- What an operation makes is given to the next one, together with what was given already. -/
theorem bind {made : α → List Expr} {made' : β → List Expr} {action : Build α} {next : α → Build β}
    (hgrows : Grows action) (h : Numbers given made action)
    (hnext : ∀ a, Numbers (made a ++ given) made' (next a)) :
    Numbers given made' (action >>= next) := by
  intro session session' b hgiven hrun
  obtain ⟨a, middle, ha, hb⟩ := runIn_bind_ok.mp hrun
  refine hnext a middle session' b (fun e he => ?_) hb
  rcases List.mem_append.mp he with he | he
  · exact h session middle a hgiven ha e he
  · exact (hgiven e he).mono (hgrows.serials_le ha)

/-- An operation that gives no expression. -/
theorem bind_unit {made : β → List Expr} {action : Build α} {next : α → Build β}
    (hgrows : Grows action) (hnext : ∀ a, Numbers given made (next a)) :
    Numbers given made (action >>= next) := by
  have hnone : Numbers given (fun _ => []) action := fun _ _ _ _ _ => nofun
  exact bind hgrows hnone hnext

/-! ### Constructors -/

/-- A new node over nodes that are given. -/
theorem node {f : Nat → Expr} (hserial : ∀ serial, (f serial).serial? = some serial)
    (hchildren : ∀ serial, ∀ child ∈ (f serial).children, child ∈ given) :
    Numbers given (fun e => [e]) (freshSerial >>= fun serial => Pure.pure (f serial)) := by
  intro session session' e hgiven hrun
  obtain ⟨rfl, rfl⟩ := runIn_numbered_ok.mp hrun
  refine List.forall_mem_singleton.mpr (serialsBelow_iff.mpr ⟨?_, ?_⟩)
  · intro serial h
    rw [hserial] at h
    exact Option.some.inj h ▸ Nat.lt_succ_self _
  · exact fun child hchild => (hgiven child (hchildren _ child hchild)).mono (Nat.le_succ _)

theorem parameter (p : Parameter) :
    Numbers given (fun e => [e]) (Pure.pure (Expr.parameter p)) := by
  intro session session' e _ hrun
  simp only [runIn_pure, Prod.mk.injEq, Except.ok.injEq] at hrun
  obtain ⟨rfl, rfl⟩ := hrun
  exact List.forall_mem_singleton.mpr (serialsBelow_parameter p)

theorem constant (value : Value) : Numbers given (fun e => [e]) (Build.constant value) := by
  unfold Build.constant
  split
  · exact node (fun _ => rfl) fun _ => nofun
  · exact throw _

theorem member {target : Expr} (name : String) (type : Ty) (htarget : target ∈ given) :
    Numbers given (fun e => [e]) (Build.member target name type) := by
  unfold Build.member
  split
  · exact node (fun _ => rfl) fun _ => List.forall_mem_singleton.mpr htarget
  · exact throw _

theorem unary {operand : Expr} (op : UnaryOp) (hoperand : operand ∈ given) :
    Numbers given (fun e => [e]) (Build.unary op operand) := by
  unfold Build.unary
  split
  · exact node (fun _ => rfl) fun _ => List.forall_mem_singleton.mpr hoperand
  · exact throw _

theorem binary {left right : Expr} (op : BinaryOp) (hleft : left ∈ given) (hright : right ∈ given) :
    Numbers given (fun e => [e]) (Build.binary op left right) := by
  unfold Build.binary
  split
  · exact node (fun _ => rfl) fun _ =>
      List.forall_mem_cons.mpr ⟨hleft, List.forall_mem_singleton.mpr hright⟩
  · exact throw _

theorem call {target : Option Expr} {args : List Expr} (method : Method)
    (hoperands : ∀ e ∈ target.toList ++ args, e ∈ given) :
    Numbers given (fun e => [e]) (Build.call target method args) := by
  unfold Build.call
  split
  · exact throw _
  · exact node (fun _ => rfl) fun _ => hoperands

theorem toExpr {lambda : Lambda} (hbody : lambda.body ∈ given) :
    Numbers given (fun e => [e]) lambda.toExpr :=
  node (fun _ => rfl) fun _ => List.forall_mem_singleton.mpr hbody

theorem lambda {body : Expr} (params : List Parameter) (hbody : body ∈ given) :
    Numbers given (fun lambda => [lambda.body]) (Build.lambda params body) := by
  unfold Build.lambda
  split
  · exact throw _
  · exact pure (List.forall_mem_singleton.mpr hbody)

/-! ### Combinations -/

/-- A substitution of what is given. -/
theorem substitute {pick : Pick} {e : Expr} (he : e ∈ given)
    (hpick : ∀ node replacement, pick node = some replacement → replacement ∈ given) :
    Numbers given (fun e => [e]) (e.substitute pick) := by
  intro session session' e' hgiven hrun
  have hle := (Grows.substitute e).serials_le hrun
  have hcopied := copied_of_runIn (Nat.le_refl _) (Nat.le_refl _) hrun
  refine List.forall_mem_singleton.mpr (hcopied.serialsBelow ((hgiven e he).mono hle) ?_)
  exact fun node replacement h => (hgiven replacement (hpick node replacement h)).mono hle

theorem substituteLambda {pick : Pick} {lambda : Lambda} (hbody : lambda.body ∈ given)
    (hpick : ∀ node replacement, pick node = some replacement → replacement ∈ given) :
    Numbers given (fun lambda => [lambda.body]) (lambda.substitute pick) := by
  refine bind_unit (Grows.mapM fun p _ => Grows.substituteParameter p) fun params => ?_
  refine bind (Grows.substitute _) (substitute hbody hpick) fun body => ?_
  exact Numbers.lambda params List.mem_cons_self

theorem replace {e replacement : Expr} (node : Expr) (he : e ∈ given)
    (hreplacement : replacement ∈ given) :
    Numbers given (fun e => [e]) (e.replace node replacement) := by
  refine substitute he fun n r hr => ?_
  obtain ⟨-, rfl⟩ := replacing_eq_some_iff.mp hr
  exact hreplacement

/-- A parameter may be put in wherever it was made. -/
theorem replace_parameter {e : Expr} (node : Expr) (p : Parameter) (he : e ∈ given) :
    Numbers given (fun e => [e]) (e.replace node (.parameter p)) := by
  intro session session' e' hgiven
  have h : Numbers (.parameter p :: given) (fun e => [e]) (e.replace node (.parameter p)) :=
    replace node (List.mem_cons_of_mem _ he) List.mem_cons_self
  exact h session session' e' (List.forall_mem_cons.mpr ⟨serialsBelow_parameter p, hgiven⟩)

theorem unifyParams {lefts rights fresh : List Parameter} {left right : Expr} (hleft : left ∈ given)
    (hright : right ∈ given) :
    Numbers given (fun bodies => [bodies.1, bodies.2])
      (Lambda.unifyParams lefts rights fresh left right) := by
  induction lefts, rights, fresh, left, right using Lambda.unifyParams.induct
      generalizing given with
  | case1 l lefts r rights f fresh left right ih =>
      refine bind (Grows.replace _ _ _) (replace_parameter _ f hleft) fun left' => ?_
      refine bind (Grows.replace _ _ _) (replace_parameter _ f (List.mem_cons_of_mem _ hright))
        fun right' => ?_
      exact ih left' right' (by simp) (by simp)
  | case2 lefts rights fresh left right hshort =>
      rw [Lambda.unifyParams]
      · exact pure (List.forall_mem_cons.mpr ⟨hleft, List.forall_mem_singleton.mpr hright⟩)
      · exact hshort

theorem join {left right : Lambda} (connective : Connective) (hleft : left.body ∈ given)
    (hright : right.body ∈ given) :
    Numbers given (fun lambda => [lambda.body]) (left.join connective right) := by
  unfold Lambda.join
  split
  · refine bind_unit (Grows.mapM fun p _ => Grows.freshParameter _ _) fun fresh => ?_
    refine bind Grows.unifyParams (unifyParams hleft hright) fun bodies => ?_
    refine bind (Grows.binary _ _ _) (binary _ (by simp) (by simp)) fun body => ?_
    refine bind (Grows.lambda _ _) (lambda fresh List.mem_cons_self) fun joined => ?_
    exact bind_unit (Grows.note _) fun _ => pure (by simp)
  · exact throw _

theorem quantifyOver {selector : Lambda} {operand : Expr} (quantifier : Quantifier) (element : Ty)
    (hselector : selector.body ∈ given) (hoperand : operand ∈ given) :
    Numbers given (fun lambda => [lambda.body])
      (Lambda.quantifyOver quantifier selector element operand) := by
  have hoperands : ∀ e ∈ [selector.body, operand], e ∈ given := by simp [hselector, hoperand]
  refine bind (Grows.call _ _ _) (call _ hoperands) fun call => ?_
  refine bind (Grows.lambda _ _) (lambda _ List.mem_cons_self) fun lifted => ?_
  exact bind_unit (Grows.note _) fun _ => pure (by simp)

theorem lift {selector predicate : Lambda} (quantifier : Quantifier)
    (hselector : selector.body ∈ given) (hpredicate : predicate.body ∈ given) :
    Numbers given (fun lambda => [lambda.body]) (Lambda.lift quantifier selector predicate) := by
  refine bind_unit (Grows.elementType selector) fun element => ?_
  split
  · split
    · split
      · refine bind (Grows.toExpr _) (toExpr hpredicate) fun operand => ?_
        exact quantifyOver _ _ (List.mem_cons_of_mem _ hselector) List.mem_cons_self
      · exact throw _
    · exact throw _
  · exact throw _

theorem contains {selector : Lambda} (value : Value) (hselector : selector.body ∈ given) :
    Numbers given (fun lambda => [lambda.body]) (selector.contains value) := by
  refine bind_unit (Grows.elementType selector) fun element => ?_
  split
  · exact throw _
  · split
    · refine bind (Grows.constant _) (constant value) fun operand => ?_
      exact quantifyOver _ _ (List.mem_cons_of_mem _ hselector) List.mem_cons_self
    · exact throw _

theorem splice {selector continuation : Lambda} (hselector : selector.body ∈ given)
    (hcontinuation : continuation.body ∈ given) :
    Numbers given (fun lambda => [lambda.body]) (selector.splice continuation) := by
  unfold Lambda.splice
  split
  · split
    · refine bind (Grows.replace _ _ _) (replace _ hcontinuation hselector) fun body => ?_
      refine bind (Grows.lambda _ _) (lambda _ List.mem_cons_self) fun spliced => ?_
      exact bind_unit (Grows.note _) fun _ => pure (by simp)
    · exact throw _
  · exact throw _

end Numbers

end Build

/-! ## Reachable workspaces -/

namespace Workspace

open ExprTree.Build

variable {w w' : Workspace}

/-- What a workspace holds, the bodies of its lambdas included. -/
def held (w : Workspace) : List Expr :=
  w.exprs ++ w.lambdas.map Lambda.body

theorem mem_held_of_mem_exprs {e : Expr} (h : e ∈ w.exprs) : e ∈ w.held :=
  List.mem_append_left _ h

theorem mem_held_of_mem_lambdas {lambda : Lambda} (h : lambda ∈ w.lambdas) :
    lambda.body ∈ w.held :=
  List.mem_append_right _ (List.mem_map_of_mem h)

/-- A building operation numbers what it makes. -/
theorem Builds.numbers {action : Build Expr} (h : w.Builds action) :
    Numbers w.held (fun e => [e]) action := by
  cases h with
  | constant value => exact .constant value
  | int32 | boolean | string => exact .node (fun _ => rfl) fun _ => nofun
  | parameter name type =>
      exact .bind_unit (Grows.freshParameter name type) fun p => .parameter p
  | member name type htarget => exact .member name type (mem_held_of_mem_exprs htarget)
  | call method hoperands =>
      exact .call method fun e he => mem_held_of_mem_exprs (hoperands e he)
  | unary op hoperand => exact .unary op (mem_held_of_mem_exprs hoperand)
  | binary op hleft hright =>
      exact .binary op (mem_held_of_mem_exprs hleft) (mem_held_of_mem_exprs hright)
  | toExpr hlambda => exact .toExpr (mem_held_of_mem_lambdas hlambda)
  | substitute he hpick =>
      exact .substitute (mem_held_of_mem_exprs he) fun node replacement h =>
        mem_held_of_mem_exprs (hpick node replacement h)

theorem BuildsLambda.numbers {action : Build Lambda} (h : w.BuildsLambda action) :
    Numbers w.held (fun lambda => [lambda.body]) action := by
  cases h with
  | lambda _ hbody => exact .lambda _ (mem_held_of_mem_exprs hbody)
  | substitute hlambda hpick =>
      exact .substituteLambda (mem_held_of_mem_lambdas hlambda) fun node replacement h =>
        mem_held_of_mem_exprs (hpick node replacement h)
  | join connective hleft hright =>
      exact .join connective (mem_held_of_mem_lambdas hleft) (mem_held_of_mem_lambdas hright)
  | lift quantifier hselector hpredicate =>
      exact .lift quantifier (mem_held_of_mem_lambdas hselector)
        (mem_held_of_mem_lambdas hpredicate)
  | contains value hselector => exact .contains value (mem_held_of_mem_lambdas hselector)
  | splice hselector hcontinuation =>
      exact .splice (mem_held_of_mem_lambdas hselector) (mem_held_of_mem_lambdas hcontinuation)

/-- All serials in what a workspace holds were handed out. -/
def Numbered (w : Workspace) : Prop :=
  ∀ e ∈ w.held, e.SerialsBelow w.session.serials

/-- What is held stays numbered when the session goes on. -/
theorem Numbered.mono (hw : w.Numbered) {session' : Session}
    (hle : w.session.serials ≤ session'.serials) : Numbered { w with session := session' } :=
  fun e he => (hw e he).mono hle

theorem Numbered.cons (hw : w.Numbered) {e : Expr} (he : e.SerialsBelow w.session.serials) :
    Numbered { w with exprs := e :: w.exprs } :=
  List.forall_mem_cons.mpr ⟨he, hw⟩

theorem Numbered.consLambda (hw : w.Numbered) {lambda : Lambda}
    (h : lambda.body.SerialsBelow w.session.serials) :
    Numbered { w with lambdas := lambda :: w.lambdas } := by
  intro e he
  rcases List.mem_append.mp he with he | he
  · exact hw e (mem_held_of_mem_exprs he)
  · obtain ⟨lambda', hlambda', rfl⟩ := List.mem_map.mp he
    rcases List.mem_cons.mp hlambda' with rfl | hlambda'
    · exact h
    · exact hw _ (mem_held_of_mem_lambdas hlambda')

/-- **One step keeps everything numbered.** -/
theorem Numbered.step (hw : w.Numbered) (h : Step w w') : w'.Numbered := by
  cases h with
  | built haction hrun =>
      have he := haction.numbers _ _ _ hw hrun _ List.mem_cons_self
      exact (hw.mono ((Grows.of_builds haction).serials_le hrun)).cons he
  | refused haction hrun => exact hw.mono ((Grows.of_builds haction).serials_le hrun)
  | builtLambda haction hrun =>
      have hbody := haction.numbers _ _ _ hw hrun _ List.mem_cons_self
      exact (hw.mono ((Grows.of_buildsLambda haction).serials_le hrun)).consLambda hbody
  | refusedLambda haction hrun =>
      exact hw.mono ((Grows.of_buildsLambda haction).serials_le hrun)
  | child he hchild =>
      have h := Expr.serialsBelow_iff.mp (hw _ (mem_held_of_mem_exprs he))
      exact hw.cons (h.2 _ hchild)
  | @lambda e lambda he hlambda =>
      have h := Expr.serialsBelow_iff.mp (hw _ (mem_held_of_mem_exprs he))
      refine hw.consLambda (h.2 _ ?_)
      cases e with
      | lambda =>
          obtain rfl := Option.some.inj hlambda
          exact List.mem_cons_self
      | _ => cases hlambda
  | body hlambda => exact hw.cons (hw _ (mem_held_of_mem_lambdas hlambda))
  | param => exact hw.cons (Expr.serialsBelow_parameter _)

/-- **In a reachable workspace all serials in what is held were handed out.** -/
theorem Reachable.numbered (h : w.Reachable) : w.Numbered := by
  induction h with
  | start => exact fun _ => nofun
  | step _ hstep ih => exact ih.step hstep

end Workspace

end ExprTree
