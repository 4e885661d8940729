/-
# What combining lambdas gives

The parts of a joined, a lifted and a spliced lambda. Joining renames both bodies to the same new
parameters, position by position; the renaming never makes two parameters one.
-/
import ExprTree.Lambda.Join
import ExprTree.Lambda.Lift
import ExprTree.Lambda.Splice
import ExprTree.Proofs.Substituted

namespace ExprTree

/-! ## New parameters for old ones -/

namespace Parameter

/-- Parameters of the same names and types with the numbers from `start` on. -/
def freshened (start : Nat) : List Parameter → List Parameter
  | [] => []
  | p :: params => ⟨start, p.name, p.type⟩ :: freshened (start + 1) params

@[simp] theorem length_freshened (start : Nat) (params : List Parameter) :
    (freshened start params).length = params.length := by
  induction params generalizing start with
  | nil => rfl
  | cons p params ih => simp [freshened, ih]

@[simp] theorem map_type_freshened (start : Nat) (params : List Parameter) :
    (freshened start params).map type = params.map type := by
  induction params generalizing start with
  | nil => rfl
  | cons p params ih => simp [freshened, ih]

@[simp] theorem map_name_freshened (start : Nat) (params : List Parameter) :
    (freshened start params).map name = params.map name := by
  induction params generalizing start with
  | nil => rfl
  | cons p params ih => simp [freshened, ih]

/-- The numbers of the new parameters are those right behind `start`. -/
theorem number_of_mem_freshened {start : Nat} {params : List Parameter} {p : Parameter}
    (h : p ∈ freshened start params) : start ≤ p.number ∧ p.number < start + params.length := by
  induction params generalizing start with
  | nil => simp [freshened] at h
  | cons q params ih =>
      rcases List.mem_cons.mp h with rfl | h
      · simp
      · have := ih h
        simp only [List.length_cons]
        omega

theorem nodup_freshened (start : Nat) (params : List Parameter) :
    (freshened start params).Nodup := by
  induction params generalizing start with
  | nil => simp [freshened]
  | cons p params ih =>
      refine List.nodup_cons.mpr ⟨fun h => ?_, ih _⟩
      exact Nat.not_succ_le_self start (number_of_mem_freshened h).1

end Parameter

open Parameter

/-- New parameters for the ones of a lambda take the next numbers. -/
theorem Build.runIn_mapM_freshParameter (params : List Parameter) (session : Session) :
    runIn (params.mapM fun p => freshParameter p.name p.type) session =
      (.ok (freshened session.parameters params),
        { session with parameters := session.parameters + params.length }) := by
  induction params generalizing session with
  | nil => rfl
  | cons p params ih =>
      rw [List.mapM_cons, runIn_bind, runIn_freshParameter]
      dsimp only
      rw [runIn_bind, ih]
      simp [freshened, Nat.add_assoc, Nat.add_comm 1]

/-! ## The renaming of a join -/

/-- The renaming that replacing one parameter after the other amounts to. -/
def unifier : List Parameter → List Parameter → Parameter → Parameter
  | old :: olds, fresh :: others => unifier olds others ∘ old.redirect fresh
  | _, _ => id

/-- A parameter that is not replaced keeps its name. -/
theorem unifier_of_notMem {olds fresh : List Parameter} {p : Parameter} (h : p ∉ olds) :
    unifier olds fresh p = p := by
  induction olds generalizing fresh with
  | nil => rfl
  | cons old olds ih =>
      cases fresh with
      | nil => rfl
      | cons f fresh =>
          rw [List.mem_cons, not_or] at h
          simp [unifier, redirect, h.1, ih h.2]

/-- The renaming sends the old parameters to the new ones, position by position. -/
theorem map_unifier {olds fresh : List Parameter} (hnodup : olds.Nodup)
    (hlength : olds.length = fresh.length) (hnew : ∀ f ∈ fresh, f ∉ olds) :
    olds.map (unifier olds fresh) = fresh := by
  induction olds generalizing fresh with
  | nil => exact (List.length_eq_zero_iff.mp hlength.symm).symm
  | cons old olds ih =>
      cases fresh with
      | nil => simp at hlength
      | cons f fresh =>
          obtain ⟨hold, hnodup⟩ := List.nodup_cons.mp hnodup
          have hf : f ∉ olds := fun h => hnew f List.mem_cons_self (List.mem_cons_of_mem _ h)
          have hothers : ∀ p ∈ olds, (old.redirect f) p = p := by
            intro p hp
            have hne : p ≠ old := fun e => hold (e ▸ hp)
            simp [redirect, hne]
          -- The other old parameters are not touched by the first replacement.
          have hmap : olds.map (unifier olds fresh ∘ old.redirect f) = fresh := by
            refine (List.map_congr_left fun p hp => ?_).trans (ih hnodup (by simpa using hlength)
              fun g hg h => hnew g (List.mem_cons_of_mem _ hg) (List.mem_cons_of_mem _ h))
            rw [Function.comp_apply, hothers p hp]
          simp [unifier, redirect, unifier_of_notMem hf, hmap]

/-- Redirecting to a new parameter makes no two known parameters one. -/
theorem redirect_injective {old fresh : Parameter} {known : List Parameter} (hnew : fresh ∉ known)
    {p q : Parameter} (hp : p ∈ known) (hq : q ∈ known)
    (h : old.redirect fresh p = old.redirect fresh q) : p = q := by
  unfold redirect at h
  split at h <;> split at h
  next hpold hqold => rw [hpold, hqold]
  next => exact absurd (h ▸ hq) hnew
  next => exact absurd (h ▸ hp) hnew
  next => exact h

/-- **The renaming of a join makes no two parameters one** among those there before the new ones. -/
theorem unifier_injective {olds fresh known : List Parameter} (hnodup : fresh.Nodup)
    (hnew : ∀ f ∈ fresh, f ∉ known) {p q : Parameter} (hp : p ∈ known) (hq : q ∈ known)
    (h : unifier olds fresh p = unifier olds fresh q) : p = q := by
  induction olds generalizing fresh known p q with
  | nil => exact h
  | cons old olds ih =>
      cases fresh with
      | nil => exact h
      | cons f fresh =>
          obtain ⟨hf, hnodup⟩ := List.nodup_cons.mp hnodup
          -- After the first replacement the known parameters are the redirected ones.
          have hnew' : ∀ g ∈ fresh, g ∉ known.map (old.redirect f) := by
            intro g hg hmem
            obtain ⟨x, hx, rfl⟩ := List.mem_map.mp hmem
            unfold redirect at hg
            split at hg
            · exact hf hg
            · exact hnew x (List.mem_cons_of_mem _ hg) hx
          have hfirst := ih hnodup hnew' (List.mem_map_of_mem hp) (List.mem_map_of_mem hq) h
          exact redirect_injective (hnew f List.mem_cons_self) hp hq hfirst

/-! ## Joined predicates -/

namespace Build

variable {session session' : Session}

/-- Replacing the parameters one after the other renames both bodies. -/
theorem shape_of_runIn_unifyParams {lefts rights fresh : List Parameter}
    {leftBody rightBody leftBody' rightBody' : Expr} (hlefts : lefts.length = fresh.length)
    (hrights : rights.length = fresh.length)
    (h : runIn (Lambda.unifyParams lefts rights fresh leftBody rightBody) session
      = (.ok (leftBody', rightBody'), session')) :
    leftBody'.shape = leftBody.shape.rename (unifier lefts fresh) ∧
      rightBody'.shape = rightBody.shape.rename (unifier rights fresh) := by
  induction fresh generalizing lefts rights leftBody rightBody session with
  | nil =>
      obtain rfl := List.length_eq_zero_iff.mp hlefts
      obtain rfl := List.length_eq_zero_iff.mp hrights
      simp only [Lambda.unifyParams, runIn_pure, Prod.mk.injEq, Except.ok.injEq] at h
      obtain ⟨⟨rfl, rfl⟩, -⟩ := h
      simp [unifier]
  | cons f fresh ih =>
      obtain ⟨l, lefts, rfl⟩ := List.exists_cons_of_length_eq_add_one hlefts
      obtain ⟨r, rights, rfl⟩ := List.exists_cons_of_length_eq_add_one hrights
      simp only [Lambda.unifyParams, runIn_bind_ok] at h
      obtain ⟨leftNext, _, hleft, rightNext, _, hright, h⟩ := h
      -- The first round redirects one parameter in each body, the others rename what comes out.
      obtain ⟨hl, hr⟩ := ih (by simpa using hlefts) (by simpa using hrights) h
      have hleft := (substituted_of_runIn hleft).shape_eq_rename
      have hright := (substituted_of_runIn hright).shape_eq_rename
      rw [hl, hr, hleft, hright, Expr.rename_rename, Expr.rename_rename]
      exact ⟨rfl, rfl⟩

/-- **The run of a join**: there is a new parameter for each position, both bodies are brought onto
these, the connective is applied to what comes out, and the join is noted. -/
theorem unified_of_runIn_join {connective : Connective} {left right joined : Lambda}
    (h : runIn (left.join connective right) session = (.ok joined, session')) :
    left.paramTypes = right.paramTypes ∧ ∃ leftBody rightBody last,
      runIn (Lambda.unifyParams left.params right.params
          (freshened session.parameters left.params) left.body right.body)
        { session with parameters := session.parameters + left.params.length }
        = (.ok (leftBody, rightBody), last) ∧
      joined = ⟨freshened session.parameters left.params,
        .binary last.serials connective.toOperator leftBody rightBody⟩ ∧
      session' = { last with
        serials := last.serials + 1
        journal := last.journal.push (.joined left connective right joined) } := by
  unfold Lambda.join at h
  split at h
  next htypes =>
    simp only [runIn_bind_ok, runIn_mapM_freshParameter, runIn_binary_ok, runIn_lambda_ok,
      runIn_note, runIn_pure, Prod.mk.injEq, Except.ok.injEq] at h
    obtain ⟨fresh, _, ⟨rfl, rfl⟩, ⟨leftBody, rightBody⟩, last, hunify, body, _, ⟨-, rfl, rfl⟩,
      _, _, ⟨-, rfl, rfl⟩, _, _, ⟨-, rfl⟩, rfl, rfl⟩ := h
    exact ⟨htypes, leftBody, rightBody, last, hunify, rfl, rfl⟩
  next => simp at h

/-- **The parts of a joined predicate.** -/
theorem joined_of_runIn {connective : Connective} {left right joined : Lambda}
    (h : runIn (left.join connective right) session = (.ok joined, session')) :
    left.paramTypes = right.paramTypes ∧
      joined.params = freshened session.parameters left.params ∧
      ∃ serial leftBody rightBody,
        joined.body = .binary serial connective.toOperator leftBody rightBody ∧
        leftBody.shape = left.body.shape.rename (unifier left.params joined.params) ∧
        rightBody.shape = right.body.shape.rename (unifier right.params joined.params) := by
  obtain ⟨htypes, leftBody, rightBody, last, hunify, rfl, -⟩ := unified_of_runIn_join h
  have hlength : left.params.length = right.params.length := by
    simpa [Lambda.paramTypes] using congrArg List.length htypes
  obtain ⟨hleft, hright⟩ := shape_of_runIn_unifyParams (by simp) (by simp [hlength]) hunify
  exact ⟨htypes, rfl, _, leftBody, rightBody, rfl, hleft, hright⟩

/-! ## Spliced lambdas -/

/-- **The parts of a spliced lambda**: the parameters of the selector, and the body of the
continuation with the body of the selector in the place of the parameter. -/
theorem spliced_of_runIn {selector continuation spliced : Lambda} {p : Parameter}
    (hparams : continuation.params = [p])
    (h : runIn (selector.splice continuation) session = (.ok spliced, session')) :
    p.type.accepts selector.resultType = true ∧ spliced.params = selector.params ∧
      selector.params.Nodup ∧
      Expr.Substituted (Expr.replacing (.parameter p) selector.body) continuation.body
        spliced.body := by
  simp only [Lambda.splice, hparams] at h
  split at h
  next haccepts =>
    simp only [runIn_bind_ok, runIn_lambda_ok, runIn_note, runIn_pure, Prod.mk.injEq,
      Except.ok.injEq] at h
    obtain ⟨body, _, hbody, _, _, ⟨hnodup, rfl, -⟩, _, _, -, rfl, -⟩ := h
    exact ⟨haccepts, rfl, hnodup, substituted_of_runIn hbody⟩
  next => simp at h

/-- A continuation has one parameter. -/
theorem exists_param_of_runIn_splice {selector continuation spliced : Lambda}
    (h : runIn (selector.splice continuation) session = (.ok spliced, session')) :
    ∃ p, continuation.params = [p] := by
  unfold Lambda.splice at h
  split at h
  next p hparams => exact ⟨p, hparams⟩
  next => simp at h

/-! ## Lifted predicates -/

/-- A quantifier is applied to the body of the selector, below the parameters of the selector. -/
theorem eq_of_runIn_quantifyOver {quantifier : Quantifier} {selector lifted : Lambda} {element : Ty}
    {operand : Expr}
    (h : runIn (Lambda.quantifyOver quantifier selector element operand) session
      = (.ok lifted, session')) :
    lifted = ⟨selector.params,
      .call session.serials (.sequence quantifier element) [selector.body, operand]⟩ := by
  simp only [Lambda.quantifyOver, runIn_bind_ok, runIn_call_ok, runIn_lambda_ok, runIn_pure,
    Prod.mk.injEq, Except.ok.injEq] at h
  obtain ⟨_, _, ⟨_, rfl, rfl⟩, _, _, ⟨_, rfl, rfl⟩, _, _, _, rfl, _⟩ := h
  rfl

theorem runIn_elementType_ok {selector : Lambda} {element : Ty} :
    runIn selector.elementType session = (.ok element, session') ↔
      selector.resultType.element? = some element ∧ session' = session := by
  unfold Lambda.elementType
  cases selector.resultType.element? <;> simp [eq_comm]

/-- **The parts of a lifted predicate.** -/
theorem lifted_of_runIn {quantifier : Quantifier} {selector predicate lifted : Lambda}
    (h : runIn (Lambda.lift quantifier selector predicate) session = (.ok lifted, session')) :
    ∃ serial serial' p, predicate.params = [p] ∧
      lifted = ⟨selector.params, .call serial (.sequence quantifier p.type)
        [selector.body, .lambda serial' predicate.params predicate.body]⟩ := by
  simp only [Lambda.lift, runIn_bind_ok] at h
  obtain ⟨element, _, -, h⟩ := h
  split at h
  next p hparams =>
    split at h
    next =>
      split at h
      next =>
        simp only [runIn_bind_ok, runIn_toExpr_ok] at h
        obtain ⟨operand, _, ⟨rfl, -⟩, h⟩ := h
        exact ⟨_, _, p, hparams, eq_of_runIn_quantifyOver h⟩
      next => simp at h
    next => simp at h
  next => simp at h

/-- **The parts of a search for a value.** -/
theorem contains_of_runIn {selector lifted : Lambda} {value : Value}
    (h : runIn (selector.contains value) session = (.ok lifted, session')) :
    ∃ serial serial' element type, lifted = ⟨selector.params,
      .call serial (.sequence .contains element) [selector.body, .constant serial' value type]⟩ := by
  simp only [Lambda.contains, runIn_bind_ok] at h
  obtain ⟨element, _, -, h⟩ := h
  split at h
  next => simp at h
  next =>
    split at h
    next =>
      simp only [runIn_bind_ok, runIn_constant_ok] at h
      obtain ⟨operand, _, ⟨type, -, rfl, -⟩, h⟩ := h
      exact ⟨_, _, element, type, eq_of_runIn_quantifyOver h⟩
    next => simp at h

end Build

/-! ## Numbers handed out -/

namespace Build.Grows

theorem replace (e node replacement : Expr) : Grows (e.replace node replacement) :=
  substitute e

theorem unifyParams {lefts rights fresh : List Parameter} {leftBody rightBody : Expr} :
    Grows (Lambda.unifyParams lefts rights fresh leftBody rightBody) := by
  induction fresh generalizing lefts rights leftBody rightBody with
  | nil =>
      rw [Lambda.unifyParams.eq_def]
      cases lefts <;> cases rights <;> exact pure _
  | cons f fresh ih =>
      rw [Lambda.unifyParams.eq_def]
      cases lefts <;> cases rights
      case cons.cons =>
        exact bind (replace _ _ _) fun leftBody => bind (replace _ _ _) fun rightBody => ih
      all_goals exact pure _

theorem join (connective : Connective) (left right : Lambda) :
    Grows (left.join connective right) := by
  unfold Lambda.join
  split
  · refine bind (mapM fun p _ => freshParameter _ _) fun fresh => ?_
    refine bind unifyParams fun bodies => bind (binary _ _ _) fun body => ?_
    exact bind (lambda _ _) fun joined => bind (note _) fun _ => pure joined
  · exact throw _

theorem quantifyOver (quantifier : Quantifier) (selector : Lambda) (element : Ty)
    (operand : Expr) : Grows (Lambda.quantifyOver quantifier selector element operand) :=
  bind (call _ _ _) fun _ => bind (lambda _ _) fun lifted => bind (note _) fun _ => pure lifted

theorem elementType (selector : Lambda) : Grows selector.elementType := by
  unfold Lambda.elementType
  split
  · exact pure _
  · exact throw _

theorem lift (quantifier : Quantifier) (selector predicate : Lambda) :
    Grows (Lambda.lift quantifier selector predicate) := by
  refine bind (elementType selector) fun element => ?_
  split
  · split
    · split
      · exact bind (toExpr _) fun operand => quantifyOver _ _ _ operand
      · exact throw _
    · exact throw _
  · exact throw _

theorem contains (selector : Lambda) (value : Value) : Grows (selector.contains value) := by
  refine bind (elementType selector) fun element => ?_
  split
  · exact throw _
  · split
    · exact bind (constant _) fun operand => quantifyOver _ _ _ operand
    · exact throw _

theorem splice (selector continuation : Lambda) : Grows (selector.splice continuation) := by
  unfold Lambda.splice
  split
  · split
    · refine bind (replace _ _ _) fun body => bind (lambda _ _) fun spliced => ?_
      exact bind (note _) fun _ => pure spliced
    · exact throw _
  · exact throw _

end Build.Grows

end ExprTree
