/-
# What a substitution gives

A substitution that succeeds has put the replacements in their places, kept everything else up to
the serials of composite nodes, and passed every node it built through the check of its constructor.
-/
import ExprTree.Proofs.Shape
import ExprTree.Proofs.WellFormed

namespace ExprTree

namespace Expr

/-- The second expression is the first one with other nodes in the place of those picked, all nodes
above them built anew and checked. -/
inductive Substituted (pick : Pick) : Expr → Expr → Prop
  | picked {e replacement} : pick e = some replacement → Substituted pick e replacement
  | constant {serial value type} :
      pick (.constant serial value type) = none →
      Substituted pick (.constant serial value type) (.constant serial value type)
  | parameter {p} :
      pick (.parameter p) = none → Substituted pick (.parameter p) (.parameter p)
  | member {serial serial' target target' name type} :
      pick (.member serial target name type) = none →
      Substituted pick target target' →
      (Expr.member serial' target' name type).Checked →
      Substituted pick (.member serial target name type) (.member serial' target' name type)
  | call {serial serial' method operands operands'} :
      pick (.call serial method operands) = none →
      List.Forall₂ (Substituted pick) operands operands' →
      (Expr.call serial' method operands').Checked →
      Substituted pick (.call serial method operands) (.call serial' method operands')
  | unary {serial serial' op operand operand'} :
      pick (.unary serial op operand) = none →
      Substituted pick operand operand' →
      (Expr.unary serial' op operand').Checked →
      Substituted pick (.unary serial op operand) (.unary serial' op operand')
  | binary {serial serial' op left left' right right'} :
      pick (.binary serial op left right) = none →
      Substituted pick left left' →
      Substituted pick right right' →
      (Expr.binary serial' op left' right').Checked →
      Substituted pick (.binary serial op left right) (.binary serial' op left' right')
  | lambda {serial serial' params body body'} :
      pick (.lambda serial params body) = none →
      (∀ p ∈ params, ∀ r, pick (.parameter p) = some r → ∃ q, r = .parameter q) →
      Substituted pick body body' →
      (Expr.lambda serial' (params.map (fillParameter pick)) body').Checked →
      Substituted pick (.lambda serial params body)
        (.lambda serial' (params.map (fillParameter pick)) body')

end Expr

/-! ## Runs of substitutions -/

section Runs

open Build ExprTree.Expr

variable {pick : Pick} {session session' : Session}

theorem runIn_substituteAll_nil_ok {es' : List Expr} :
    runIn (substituteAll pick []) session = (.ok es', session') ↔
      es' = [] ∧ session' = session := by
  simp [substituteAll, eq_comm]

theorem runIn_substituteAll_cons_ok {e : Expr} {es es' : List Expr} :
    runIn (substituteAll pick (e :: es)) session = (.ok es', session') ↔
      ∃ e' middle rest, runIn (e.substitute pick) session = (.ok e', middle) ∧
        runIn (substituteAll pick es) middle = (.ok rest, session') ∧ es' = e' :: rest := by
  simp only [substituteAll, runIn_bind_ok, runIn_pure, Prod.mk.injEq, Except.ok.injEq]
  constructor
  · rintro ⟨e', middle, he, rest, _, hrest, rfl, rfl⟩
    exact ⟨e', middle, rest, he, hrest, rfl⟩
  · rintro ⟨e', middle, rest, he, hrest, rfl⟩
    exact ⟨e', middle, he, rest, session', hrest, rfl, rfl⟩

/-- A substitution in an entry of a parameter list puts a parameter there. -/
theorem fillParameter_of_runIn {p q : Parameter}
    (h : runIn (substituteParameter pick p) session = (.ok q, session')) :
    q = fillParameter pick p ∧
      ∀ r, pick (.parameter p) = some r → ∃ q, r = .parameter q := by
  unfold substituteParameter at h
  unfold fillParameter
  cases hp : pick (.parameter p) with
  | none => simp_all
  | some r =>
      simp only [hp, runIn_bind_ok, runIn_parameter_ok] at h
      obtain ⟨_, _, -, rfl, -⟩ := h
      simp

/-- A substitution in a parameter list puts parameters in the place of those picked. -/
theorem map_fillParameter_of_runIn {params params' : List Parameter}
    (h : runIn (params.mapM (substituteParameter pick)) session = (.ok params', session')) :
    params' = params.map (fillParameter pick) ∧
      ∀ p ∈ params, ∀ r, pick (.parameter p) = some r → ∃ q, r = .parameter q := by
  have hall := (forall₂_of_runIn_mapM h).imp fun _ _ ⟨_, _, hp⟩ => fillParameter_of_runIn hp
  clear h
  induction hall with
  | nil => simp
  | cons hp _ ih =>
      simp only [List.map_cons, List.forall_mem_cons]
      exact ⟨by rw [hp.1, ih.1], hp.2, ih.2⟩

/-- Several substitutions, one after the other. -/
theorem forall₂_of_runIn_substituteAll {es es' : List Expr}
    (hes : ∀ e ∈ es, ∀ (session session' : Session) (e' : Expr),
      runIn (e.substitute pick) session = (.ok e', session') → Substituted pick e e')
    (h : runIn (substituteAll pick es) session = (.ok es', session')) :
    List.Forall₂ (Substituted pick) es es' := by
  induction es generalizing session session' es' with
  | nil =>
      rw [(runIn_substituteAll_nil_ok.mp h).1]
      exact .nil
  | cons e es ih =>
      obtain ⟨e', _, rest, he, htail, rfl⟩ := runIn_substituteAll_cons_ok.mp h
      refine .cons (hes e List.mem_cons_self _ _ _ he) (ih (fun e he => ?_) htail)
      exact hes e (List.mem_cons_of_mem _ he)

/-- A picked node gives what takes its place; only other nodes are gone into. -/
theorem substituted_of_unpicked {e e' : Expr}
    (h : runIn (e.substitute pick) session = (.ok e', session'))
    (hnone : pick e = none → Substituted pick e e') : Substituted pick e e' := by
  cases hpick : pick e with
  | none => exact hnone hpick
  | some replacement =>
      rw [substitute.eq_def, hpick] at h
      simp only [runIn_bind_ok, runIn_pure, Prod.mk.injEq, Except.ok.injEq] at h
      obtain ⟨_, _, -, rfl, -⟩ := h
      exact .picked hpick

/-- **A substitution that succeeds gives what it should.** -/
theorem substituted_of_runIn {e e' : Expr}
    (h : runIn (e.substitute pick) session = (.ok e', session')) : Substituted pick e e' := by
  induction e generalizing session session' e' with
  | constant serial value type =>
      refine substituted_of_unpicked h fun hpick => ?_
      simp only [substitute, hpick, runIn_pure, Prod.mk.injEq, Except.ok.injEq] at h
      rw [← h.1]
      exact .constant hpick
  | parameter p =>
      refine substituted_of_unpicked h fun hpick => ?_
      simp only [substitute, hpick, runIn_pure, Prod.mk.injEq, Except.ok.injEq] at h
      rw [← h.1]
      exact .parameter hpick
  | member serial target name type ih =>
      refine substituted_of_unpicked h fun hpick => ?_
      simp only [substitute, hpick, runIn_bind_ok, runIn_member_ok] at h
      obtain ⟨target', _, htarget, hchecked, rfl, -⟩ := h
      exact .member hpick (ih htarget) hchecked
  | call serial method operands ih =>
      refine substituted_of_unpicked h fun hpick => ?_
      simp only [substitute, hpick, runIn_bind_ok, runIn_call_ok] at h
      obtain ⟨operands', _, hoperands, hchecked, rfl, -⟩ := h
      -- The new call keeps target and arguments as one list of operands again.
      rw [method.toList_splitOperands]
      exact .call hpick (forall₂_of_runIn_substituteAll (fun e he _ _ _ => ih e he) hoperands)
        hchecked
  | unary serial op operand ih =>
      refine substituted_of_unpicked h fun hpick => ?_
      simp only [substitute, hpick, runIn_bind_ok, runIn_unary_ok] at h
      obtain ⟨operand', _, hoperand, hchecked, rfl, -⟩ := h
      exact .unary hpick (ih hoperand) hchecked
  | binary serial op left right ihl ihr =>
      refine substituted_of_unpicked h fun hpick => ?_
      simp only [substitute, hpick, runIn_bind_ok, runIn_binary_ok] at h
      obtain ⟨left', _, hleft, right', _, hright, hchecked, rfl, -⟩ := h
      exact .binary hpick (ihl hleft) (ihr hright) hchecked
  | lambda serial params body ih =>
      refine substituted_of_unpicked h fun hpick => ?_
      simp only [substitute, hpick, runIn_bind_ok, runIn_lambda_ok, runIn_toExpr_ok] at h
      obtain ⟨params', _, hparams, body', _, hbody, lambda, _, ⟨hnodup, rfl, -⟩, rfl, -⟩ := h
      obtain ⟨rfl, hpicked⟩ := map_fillParameter_of_runIn hparams
      exact .lambda hpick hpicked (ih hbody) hnodup

/-- A substitution in a lambda goes through its parameter list and its body. -/
theorem substituted_of_runIn_lambda {lambda lambda' : Lambda}
    (h : runIn (lambda.substitute pick) session = (.ok lambda', session')) :
    lambda'.params = lambda.params.map (fillParameter pick) ∧ lambda'.params.Nodup ∧
      Substituted pick lambda.body lambda'.body := by
  simp only [Lambda.substitute, runIn_bind_ok, runIn_lambda_ok] at h
  obtain ⟨params', _, hparams, body', _, hbody, hnodup, rfl, -⟩ := h
  exact ⟨(map_fillParameter_of_runIn hparams).1, hnodup, substituted_of_runIn hbody⟩

end Runs

/-! ## Properties of what a substitution gives -/

namespace Expr

variable {pick : Pick}

/-- Results that match position by position have equal images if matching ones have. -/
theorem map_eq_map_of_forall₂ {α β γ : Type} {R : α → β → Prop} {f : α → γ} {g : β → γ}
    {as : List α} {bs : List β} (h : List.Forall₂ R as bs)
    (hfg : ∀ a ∈ as, ∀ b, R a b → g b = f a) : bs.map g = as.map f := by
  induction h with
  | nil => rfl
  | cons hab _ ih =>
      rw [List.map_cons, List.map_cons, hfg _ List.mem_cons_self _ hab,
        ih fun a ha => hfg a (List.mem_cons_of_mem _ ha)]

/-- Each result matches something. -/
theorem exists_of_forall₂_right {α β : Type} {R : α → β → Prop} {as : List α} {bs : List β}
    (h : List.Forall₂ R as bs) {b : β} (hb : b ∈ bs) : ∃ a ∈ as, R a b := by
  induction h with
  | nil => simp at hb
  | cons hab _ ih =>
      rcases List.mem_cons.mp hb with rfl | hb
      · exact ⟨_, List.mem_cons_self, hab⟩
      · obtain ⟨a, ha, hab⟩ := ih hb
        exact ⟨a, List.mem_cons_of_mem _ ha, hab⟩

/-- Up to the serials of composite nodes, a substitution fills the places of the picked nodes. -/
theorem Substituted.shape_eq {e e' : Expr} (h : Substituted pick e e') :
    e'.shape = (e.fill pick).shape := by
  induction e generalizing e' with
  | constant =>
      cases h with
      | picked hpick => rw [fill_of_some hpick]
      | constant hpick => simp [fill, hpick]
  | parameter =>
      cases h with
      | picked hpick => rw [fill_of_some hpick]
      | parameter hpick => simp [fill, hpick]
  | member _ _ _ _ ih =>
      cases h with
      | picked hpick => rw [fill_of_some hpick]
      | member hpick htarget _ => simp [fill, hpick, ih htarget]
  | call _ _ operands ih =>
      cases h with
      | picked hpick => rw [fill_of_some hpick]
      | call hpick hoperands _ =>
          have hmap : List.map shape _ = operands.map (shape ∘ fill pick) :=
            map_eq_map_of_forall₂ hoperands fun e he _ h => ih e he h
          simp only [fill, hpick, fillAll_eq_map, shape, shapeAll_eq_map, List.map_map, hmap]
  | unary _ _ _ ih =>
      cases h with
      | picked hpick => rw [fill_of_some hpick]
      | unary hpick hoperand _ => simp [fill, hpick, ih hoperand]
  | binary _ _ _ _ ihl ihr =>
      cases h with
      | picked hpick => rw [fill_of_some hpick]
      | binary hpick hleft hright _ => simp [fill, hpick, ihl hleft, ihr hright]
  | lambda _ _ _ ih =>
      cases h with
      | picked hpick => rw [fill_of_some hpick]
      | lambda hpick _ hbody _ => simp [fill, hpick, ih hbody]

/-- A substitution of a parameter for a parameter renames it, up to the serials of composite nodes. -/
theorem Substituted.shape_eq_rename {x y : Parameter} {e e' : Expr}
    (h : Substituted (replacing (.parameter x) (.parameter y)) e e') :
    e'.shape = e.shape.rename (x.redirect y) := by
  rw [h.shape_eq, fill_replacing_parameter_eq_rename, shape_rename]

/-- What a substitution gives is well-formed if what it starts from and what it puts in are. -/
theorem Substituted.wellFormed {e e' : Expr} (h : Substituted pick e e') (he : e.WellFormed)
    (hpick : ∀ node replacement, pick node = some replacement → replacement.WellFormed) :
    e'.WellFormed := by
  induction e generalizing e' with
  | constant =>
      cases h with
      | picked h => exact hpick _ _ h
      | constant => exact he
  | parameter =>
      cases h with
      | picked h => exact hpick _ _ h
      | parameter => exact he
  | member _ _ _ _ ih =>
      cases h with
      | picked h => exact hpick _ _ h
      | member _ htarget hchecked =>
          exact wellFormed_member.mpr ⟨hchecked, ih htarget (wellFormed_member.mp he).2⟩
  | call _ _ operands ih =>
      cases h with
      | picked h => exact hpick _ _ h
      | call _ hoperands hchecked =>
          refine wellFormed_call.mpr ⟨hchecked, fun e' he' => ?_⟩
          obtain ⟨e, hmem, hsubst⟩ := exists_of_forall₂_right hoperands he'
          exact ih e hmem hsubst ((wellFormed_call.mp he).2 e hmem)
  | unary _ _ _ ih =>
      cases h with
      | picked h => exact hpick _ _ h
      | unary _ hoperand hchecked =>
          exact wellFormed_unary.mpr ⟨hchecked, ih hoperand (wellFormed_unary.mp he).2⟩
  | binary _ _ _ _ ihl ihr =>
      cases h with
      | picked h => exact hpick _ _ h
      | binary _ hleft hright hchecked =>
          obtain ⟨-, hl, hr⟩ := wellFormed_binary.mp he
          exact wellFormed_binary.mpr ⟨hchecked, ihl hleft hl, ihr hright hr⟩
  | lambda _ _ _ ih =>
      cases h with
      | picked h => exact hpick _ _ h
      | lambda _ _ hbody hchecked =>
          exact wellFormed_lambda.mpr ⟨hchecked, ih hbody (wellFormed_lambda.mp he).2⟩

/-- The parameters of what stands in the place of a picked node come from there. -/
theorem mem_parameters_fill_of_unpicked {q : Parameter} {e : Expr}
    (h : q ∈ (e.fill pick).parameters) (hnone : pick e = none → q ∈ e.parameters ∨
      ∃ node replacement, pick node = some replacement ∧ q ∈ replacement.parameters) :
    q ∈ e.parameters ∨
      ∃ node replacement, pick node = some replacement ∧ q ∈ replacement.parameters := by
  cases hpick : pick e with
  | none => exact hnone hpick
  | some replacement =>
      rw [fill_of_some hpick] at h
      exact Or.inr ⟨e, replacement, hpick, h⟩

/-- A parameter in a filled parameter list was there before or comes from what fills it. -/
theorem mem_map_fillParameter {q : Parameter} {params : List Parameter}
    (h : q ∈ params.map (fillParameter pick)) : q ∈ params ∨
      ∃ node replacement, pick node = some replacement ∧ q ∈ replacement.parameters := by
  obtain ⟨p, hp, rfl⟩ := List.mem_map.mp h
  unfold fillParameter
  split
  next r hr => exact Or.inr ⟨.parameter p, .parameter r, hr, by simp⟩
  next => exact Or.inl hp

/-- The parameters of an expression with places filled are its own or come from what fills them. -/
theorem mem_parameters_fill {q : Parameter} {e : Expr} (h : q ∈ (e.fill pick).parameters) :
    q ∈ e.parameters ∨
      ∃ node replacement, pick node = some replacement ∧ q ∈ replacement.parameters := by
  induction e with
  | constant | parameter =>
      refine mem_parameters_fill_of_unpicked h fun hpick => ?_
      rw [fill, hpick] at h
      exact Or.inl h
  | member _ _ _ _ ih | unary _ _ _ ih =>
      refine mem_parameters_fill_of_unpicked h fun hpick => ?_
      rw [fill, hpick] at h
      exact ih h
  | call _ _ operands ih =>
      refine mem_parameters_fill_of_unpicked h fun hpick => ?_
      rw [fill, hpick] at h
      simp only [fillAll_eq_map, parameters_call, List.flatMap_map, List.mem_flatMap] at h
      obtain ⟨e, he, h⟩ := h
      exact (ih e he h).imp_left fun h => by simpa using ⟨e, he, h⟩
  | binary _ _ _ _ ihl ihr =>
      refine mem_parameters_fill_of_unpicked h fun hpick => ?_
      rw [fill, hpick] at h
      rw [parameters_binary, List.mem_append]
      rcases List.mem_append.mp (parameters_binary .. ▸ h) with h | h
      · exact (ihl h).imp_left Or.inl
      · exact (ihr h).imp_left Or.inr
  | lambda _ _ _ ih =>
      refine mem_parameters_fill_of_unpicked h fun hpick => ?_
      rw [fill, hpick] at h
      rw [parameters_lambda, List.mem_append]
      rcases List.mem_append.mp (parameters_lambda .. ▸ h) with h | h
      · exact (mem_map_fillParameter h).imp_left Or.inl
      · exact (ih h).imp_left Or.inr

end Expr

/-! ## Numbers handed out -/

namespace Build.Grows

variable {pick : Pick}

theorem substituteParameter (p : Parameter) : Grows (Expr.substituteParameter pick p) := by
  unfold Expr.substituteParameter
  split
  · exact pure p
  · exact bind (note _) fun _ => parameter _

theorem substituteAll {es : List Expr} (h : ∀ e ∈ es, Grows (e.substitute pick)) :
    Grows (Expr.substituteAll pick es) := by
  induction es with
  | nil => exact pure []
  | cons e es ih =>
      rw [Expr.substituteAll]
      refine bind (h e List.mem_cons_self) fun e' => ?_
      exact bind (ih fun e he => h e (List.mem_cons_of_mem _ he)) fun es' => pure (e' :: es')

theorem substitute_of_unpicked {e : Expr} (h : pick e = none → Grows (e.substitute pick)) :
    Grows (e.substitute pick) := by
  cases hpick : pick e with
  | none => exact h hpick
  | some replacement =>
      rw [Expr.substitute.eq_def, hpick]
      exact bind (note _) fun _ => pure _

theorem substitute (e : Expr) : Grows (e.substitute pick) := by
  induction e with
  | constant | parameter =>
      refine substitute_of_unpicked fun hpick => ?_
      rw [Expr.substitute, hpick]
      exact pure _
  | member _ _ _ _ ih =>
      refine substitute_of_unpicked fun hpick => ?_
      rw [Expr.substitute, hpick]
      exact bind ih fun target => member target _ _
  | call _ method operands ih =>
      refine substitute_of_unpicked fun hpick => ?_
      rw [Expr.substitute, hpick]
      exact bind (substituteAll ih) fun operands => call _ method _
  | unary _ _ _ ih =>
      refine substitute_of_unpicked fun hpick => ?_
      rw [Expr.substitute, hpick]
      exact bind ih fun operand => unary _ operand
  | binary _ _ _ _ ihl ihr =>
      refine substitute_of_unpicked fun hpick => ?_
      rw [Expr.substitute, hpick]
      exact bind ihl fun left => bind ihr fun right => binary _ left right
  | lambda _ params _ ih =>
      refine substitute_of_unpicked fun hpick => ?_
      rw [Expr.substitute, hpick]
      refine bind (mapM fun p _ => substituteParameter p) fun params => ?_
      exact bind ih fun body => bind (lambda params body) fun built => toExpr built

theorem substituteLambda (lambda : Lambda) : Grows (lambda.substitute pick) := by
  refine bind (mapM fun p _ => substituteParameter p) fun params => ?_
  exact bind (substitute _) fun body => Grows.lambda params body

end Build.Grows

end ExprTree
