/-
# How a join brings two bodies onto common parameters

A join replaces one parameter after the other, each time in bodies that the earlier rounds have
rewritten already. The rounds do not disturb each other: each new parameter comes to stand just where
those of its position stood in the two bodies, none of the old ones is left, and the journal has one
record for each of these places.
-/
import ExprTree.Proofs.Accounting

namespace ExprTree

/-! ## Places of parameters -/

namespace Expr

/-- A parameter stands in as many places as it is listed among the parameters of an expression. -/
theorem occurrencesIn_parameter (p : Parameter) (e : Expr) :
    (parameter p).occurrencesIn e = e.parameters.count p := by
  induction e with
  | constant => simp [occurrencesIn]
  | parameter q => simp [occurrencesIn, List.count_singleton]
  | member _ _ _ _ ih | unary _ _ _ ih => simp [occurrencesIn, ih]
  | call _ _ operands ih =>
      have hcounts : operands.map (parameter p).occurrencesIn
          = operands.map (List.count p ∘ parameters) := List.map_congr_left ih
      simp [occurrencesIn, occurrencesInAll_eq_sum, List.count_flatMap, hcounts]
  | binary _ _ _ _ ihl ihr => simp [occurrencesIn, ihl, ihr]
  | lambda _ params _ ih =>
      have hheader : params.countP (fun q => parameter q = parameter p) = params.count p :=
        List.countP_congr fun q _ => by simp
      simp [occurrencesIn, ih, ← hheader]

/-- In how many places of an expression each of some parameters stands. -/
def uses (params : List Parameter) (e : Expr) : List Nat :=
  params.map fun p => (parameter p).occurrencesIn e

/-- A parameter stands in a binary operation wherever it stands in an operand. -/
theorem uses_binary (serial : Nat) (op : BinaryOp) (left right : Expr) (params : List Parameter) :
    (binary serial op left right).uses params
      = List.zipWith (· + ·) (left.uses params) (right.uses params) := by
  rw [uses, uses, uses, List.zipWith_map, List.zipWith_self]
  exact List.map_congr_left fun p _ => by simp [occurrencesIn]

section Renamed

variable {params fresh : List Parameter} {body body' : Expr}

/-- A renaming moves a parameter to as many places as it had before, if it makes no other one equal
to it. -/
theorem occurrencesIn_of_shape_eq_rename {σ : Parameter → Parameter} {p : Parameter}
    (hshape : body'.shape = body.shape.rename σ)
    (hinjective : ∀ q ∈ body.parameters, σ q = σ p → q = p) :
    (parameter (σ p)).occurrencesIn body' = (parameter p).occurrencesIn body := by
  have hparameters : body'.parameters = body.parameters.map σ := by
    rw [← parameters_shape body', hshape, parameters_rename, parameters_shape]
  rw [occurrencesIn_parameter, occurrencesIn_parameter, hparameters, List.count, List.countP_map]
  refine List.countP_congr fun q hq => ?_
  rw [Function.comp_apply, beq_iff_eq, beq_iff_eq]
  exact ⟨hinjective q hq, congrArg σ⟩

/-- **The new parameters of a join stand where the old ones stood**, position by position. -/
theorem uses_of_shape_eq_rename_unifier (hnodup : params.Nodup) (hfresh : fresh.Nodup)
    (hlength : params.length = fresh.length)
    (hnew : ∀ f ∈ fresh, f ∉ params ++ body.parameters)
    (hshape : body'.shape = body.shape.rename (unifier params fresh)) :
    body'.uses fresh = body.uses params := by
  have hmap : params.map (unifier params fresh) = fresh :=
    map_unifier hnodup hlength fun f hf h => hnew f hf (List.mem_append_left _ h)
  have hplaces : ∀ p ∈ params, (parameter (unifier params fresh p)).occurrencesIn body'
      = (parameter p).occurrencesIn body := by
    intro p hp
    refine occurrencesIn_of_shape_eq_rename hshape fun q hq heq => ?_
    exact unifier_injective hfresh hnew (List.mem_append_right _ hq) (List.mem_append_left _ hp) heq
  calc body'.uses fresh
      = (params.map (unifier params fresh)).map fun f => (parameter f).occurrencesIn body' := by
        rw [hmap, uses]
    _ = params.map fun p => (parameter (unifier params fresh p)).occurrencesIn body' :=
        List.map_map
    _ = body.uses params := List.map_congr_left hplaces

/-- None of the old parameters of a join is left. -/
theorem occurrencesIn_eq_zero_of_mem_params (hnodup : params.Nodup)
    (hlength : params.length = fresh.length)
    (hnew : ∀ f ∈ fresh, f ∉ params ++ body.parameters)
    (hshape : body'.shape = body.shape.rename (unifier params fresh)) {p : Parameter}
    (hp : p ∈ params) : (parameter p).occurrencesIn body' = 0 := by
  have hmap : params.map (unifier params fresh) = fresh :=
    map_unifier hnodup hlength fun f hf h => hnew f hf (List.mem_append_left _ h)
  refine occurrencesIn_of_notMem_parameters fun hleft => ?_
  rw [← parameters_shape body', hshape, parameters_rename, parameters_shape] at hleft
  obtain ⟨q, -, hq⟩ := List.mem_map.mp hleft
  by_cases hold : q ∈ params
  · -- An old parameter is sent to a new one, and `p` is none of these.
    have hfresh : p ∈ fresh := by
      rw [← hmap, ← hq]
      exact List.mem_map_of_mem hold
    exact hnew p hfresh (List.mem_append_left _ hp)
  · rw [unifier_of_notMem hold] at hq
    exact hold (hq ▸ hp)

end Renamed

end Expr

/-- How often a lambda uses its parameters, position by position; a place in the parameter list of a
nested lambda counts too. -/
def Lambda.uses (lambda : Lambda) : List Nat :=
  lambda.body.uses lambda.params

/-! ## Records -/

namespace Build

open ExprTree.Expr

variable {session session' : Session}

/-- Putting one parameter in the place of another leaves a third one in its places. -/
theorem occurrencesIn_of_runIn_replace {p x y : Parameter} {e e' : Expr} (hx : p ≠ x) (hy : p ≠ y)
    (h : runIn (e.replace (.parameter x) (.parameter y)) session = (.ok e', session')) :
    (Expr.parameter p).occurrencesIn e' = (Expr.parameter p).occurrencesIn e := by
  have hkept : x.redirect y p = p := if_neg hx
  have hplaces := occurrencesIn_of_shape_eq_rename (p := p) (substituted_of_runIn h).shape_eq_rename
  rw [hkept] at hplaces
  refine hplaces fun q _ heq => ?_
  unfold Parameter.redirect at heq
  split at heq
  next => exact absurd heq.symm hy
  next => exact heq

/-- What a round of a join does to the places of the parameters of later rounds: nothing. -/
theorem uses_of_runIn_replace {params : List Parameter} {x y : Parameter} {e e' : Expr}
    (hx : x ∉ params) (hy : y ∉ params)
    (h : runIn (e.replace (.parameter x) (.parameter y)) session = (.ok e', session')) :
    e'.uses params = e.uses params := by
  refine List.map_congr_left fun p hp => occurrencesIn_of_runIn_replace ?_ ?_ h
  · rintro rfl
    exact hx hp
  · rintro rfl
    exact hy hp

/-- **A join notes each place once**: the records are those of the replacements, as many as there are
places of the old parameters in the two bodies. -/
theorem journal_of_runIn_unifyParams {lefts rights fresh : List Parameter}
    {leftBody rightBody leftBody' rightBody' : Expr} (hleft : lefts.Nodup) (hright : rights.Nodup)
    (hlefts : lefts.length = fresh.length) (hrights : rights.length = fresh.length)
    (hnewLeft : ∀ f ∈ fresh, f ∉ lefts) (hnewRight : ∀ f ∈ fresh, f ∉ rights)
    (h : runIn (Lambda.unifyParams lefts rights fresh leftBody rightBody) session
      = (.ok (leftBody', rightBody'), session')) :
    ∃ records, session'.journal.toList = session.journal.toList ++ records ∧
      (∀ event ∈ records, ∃ node replacement, event = .replaced node replacement) ∧
      records.length = (List.zipWith (· + ·) (leftBody.uses lefts) (rightBody.uses rights)).sum := by
  induction fresh generalizing lefts rights leftBody rightBody session with
  | nil =>
      obtain rfl := List.length_eq_zero_iff.mp hlefts
      obtain rfl := List.length_eq_zero_iff.mp hrights
      simp only [Lambda.unifyParams, runIn_pure, Prod.mk.injEq, Except.ok.injEq] at h
      obtain ⟨-, rfl⟩ := h
      exact ⟨[], (List.append_nil _).symm, List.forall_mem_nil _, rfl⟩
  | cons f fresh ih =>
      obtain ⟨l, lefts, rfl⟩ := List.exists_cons_of_length_eq_add_one hlefts
      obtain ⟨r, rights, rfl⟩ := List.exists_cons_of_length_eq_add_one hrights
      simp only [Lambda.unifyParams, runIn_bind_ok] at h
      obtain ⟨leftNext, _, hl, rightNext, _, hr, h⟩ := h
      rw [List.nodup_cons] at hleft hright
      rw [List.forall_mem_cons] at hnewLeft hnewRight
      simp only [List.mem_cons, not_or] at hnewLeft hnewRight
      obtain ⟨records, hjournal, hreplaced, hcount⟩ := ih hleft.2 hright.2 (by simpa using hlefts)
        (by simpa using hrights) (fun g hg => (hnewLeft.2 g hg).2)
        (fun g hg => (hnewRight.2 g hg).2) h
      -- The later rounds find the parameters of their positions where they always were.
      rw [uses_of_runIn_replace hleft.1 hnewLeft.1.2 hl,
        uses_of_runIn_replace hright.1 hnewRight.1.2 hr] at hcount
      -- This round notes each place of the two parameters of its position.
      have hround : ∀ (p : Parameter) (body : Expr), ∀ event ∈ List.replicate
          ((Expr.parameter p).occurrencesIn body) (Event.replaced (.parameter p) (.parameter f)),
          ∃ node replacement, event = .replaced node replacement :=
        fun p body event hevent => ⟨_, _, List.eq_of_mem_replicate hevent⟩
      refine ⟨_, ?_, List.forall_mem_append.mpr ⟨hround l leftBody, List.forall_mem_append.mpr
        ⟨hround r rightBody, hreplaced⟩⟩, ?_⟩
      · rw [hjournal, journal_of_runIn_replace hr, journal_of_runIn_replace hl, List.append_assoc,
          List.append_assoc]
      · simp only [List.length_append, List.length_replicate, hcount, uses, List.map_cons,
          List.zipWith_cons_cons, List.sum_cons, Nat.add_assoc]

end Build

/-! ## Joined predicates -/

namespace Workspace

open ExprTree.Expr

/-- **A join unifies position by position on new parameters.** Whatever two lambdas a session holds, if
they can be joined then the joined lambda declares distinct parameters of the types and names of the
left one, in order, and none of them stands in anything built before. At each position it uses its
parameter as often as the left and the right lambda together use theirs. Its body connects two
operands: in the left one no parameter of the left lambda is left, in the right one none of the right
lambda. Apart from the join itself the journal gets the records of replacements only, as many as there
are uses over all positions. -/
theorem Reachable.joinOptional_unifies {w : Workspace} (hw : w.Reachable)
    {connective : Connective} {left right joined : Lambda} {session' : Session}
    (hleft : left ∈ w.lambdas) (hright : right ∈ w.lambdas)
    (hjoin : (Lambda.joinOptional connective (some left) (some right)).runIn w.session
      = (.ok (some joined), session')) :
    joined.params.Nodup ∧
    joined.params.map Parameter.type = left.params.map Parameter.type ∧
    joined.params.map Parameter.name = left.params.map Parameter.name ∧
    (∀ p ∈ joined.params, (∀ tree ∈ w.exprs, p ∉ tree.parameters) ∧
      ∀ lambda ∈ w.lambdas, p ∉ lambda.params ++ lambda.body.parameters) ∧
    joined.uses = List.zipWith (· + ·) left.uses right.uses ∧
    (∃ serial leftBody rightBody,
      joined.body = .binary serial connective.toOperator leftBody rightBody ∧
      (∀ p ∈ left.params, (parameter p).occurrencesIn leftBody = 0) ∧
      ∀ p ∈ right.params, (parameter p).occurrencesIn rightBody = 0) ∧
    ∃ records, session'.journal.toList
        = w.session.journal.toList ++ records ++ [.joined left connective right joined] ∧
      (∀ event ∈ records, ∃ node replacement, event = .replaced node replacement) ∧
      records.length = (List.zipWith (· + ·) left.uses right.uses).sum := by
  obtain ⟨joined', middle, hrun, h⟩ := Build.runIn_bind_ok.mp hjoin
  obtain ⟨rfl, rfl⟩ : joined' = joined ∧ middle = session' := by simpa using h
  have hvalid := hw.sound
  obtain ⟨htypes, leftBody, rightBody, last, hunify, rfl, rfl⟩ := Build.unified_of_runIn_join hrun
  have hlength : left.params.length = right.params.length := by
    simpa [Lambda.paramTypes] using congrArg List.length htypes
  have hnodup := Parameter.nodup_freshened w.session.parameters left.params
  have hcount := Parameter.length_freshened w.session.parameters left.params
  have hnew : ∀ lambda ∈ w.lambdas,
      ∀ f ∈ Parameter.freshened w.session.parameters left.params,
        f ∉ lambda.params ++ lambda.body.parameters :=
    fun lambda hlambda f hf => (hvalid.lambdas lambda hlambda).notMem_of_mem_freshened hf
  have hundeclared : ∀ lambda ∈ w.lambdas,
      ∀ f ∈ Parameter.freshened w.session.parameters left.params, f ∉ lambda.params :=
    fun lambda hlambda f hf h => hnew lambda hlambda f hf (List.mem_append_left _ h)
  -- Each body is the old one with the new parameters for those of its lambda.
  obtain ⟨hleftShape, hrightShape⟩ :=
    Build.shape_of_runIn_unifyParams hcount.symm (hcount.trans hlength).symm hunify
  have hleftNodup := (hvalid.lambdas left hleft).wellFormed.1
  have hrightNodup := (hvalid.lambdas right hright).wellFormed.1
  have hleftUses := uses_of_shape_eq_rename_unifier hleftNodup hnodup hcount.symm
    (hnew left hleft) hleftShape
  have hrightUses := uses_of_shape_eq_rename_unifier hrightNodup hnodup
    (hcount.trans hlength).symm (hnew right hright) hrightShape
  refine ⟨hnodup, Parameter.map_type_freshened _ _, Parameter.map_name_freshened _ _, ?_, ?_,
    ⟨_, leftBody, rightBody, rfl, ?_, ?_⟩, ?_⟩
  · intro p hp
    exact ⟨fun tree htree => (hvalid.exprs tree htree).notMem_of_mem_freshened hp,
      fun lambda hlambda => hnew lambda hlambda p hp⟩
  · rw [Lambda.uses, uses_binary, hleftUses, hrightUses]
    rfl
  · exact fun p hp => occurrencesIn_eq_zero_of_mem_params hleftNodup hcount.symm
      (hnew left hleft) hleftShape hp
  · exact fun p hp => occurrencesIn_eq_zero_of_mem_params hrightNodup
      (hcount.trans hlength).symm (hnew right hright) hrightShape hp
  · obtain ⟨records, hjournal, hreplaced, hnumber⟩ := Build.journal_of_runIn_unifyParams
      hleftNodup hrightNodup hcount.symm (hcount.trans hlength).symm (hundeclared left hleft)
      (hundeclared right hright) hunify
    refine ⟨records, ?_, hreplaced, hnumber⟩
    rw [Array.toList_push, hjournal]

namespace Crossed

def x : Parameter := ⟨0, some "x", .boolean⟩

def y : Parameter := ⟨1, some "y", .boolean⟩

/-- `(x && y)`. -/
def both : Expr := .binary 0 .andAlso (.parameter x) (.parameter y)

/-- A native function that takes a predicate. -/
def decides : Method := .declared "decides" .static [.function [.boolean] .boolean] .boolean

/-- `decides(x => (x && y))`. -/
def decided : Expr := .call 2 decides [.lambda 1 [x] both]

/-- `(x, y) => x` and `(y, x) => decides(x => (x && y))`: the lambdas share both parameters in crossed
positions, and the second one declares `x` again inside. -/
def workspace : Workspace where
  session := { serials := 3, parameters := 2 }
  exprs := [decided, .lambda 1 [x] both, both, .parameter y, .parameter x]
  lambdas := [⟨[y, x], decided⟩, ⟨[x, y], .parameter x⟩, ⟨[x], both⟩]

theorem reachable : workspace.Reachable := by
  have hx : Reachable ⟨{ parameters := 1 }, [.parameter x], []⟩ :=
    .step .start (.built (.parameter (some "x") .boolean) rfl)
  have hy : Reachable ⟨{ parameters := 2 }, [.parameter y, .parameter x], []⟩ :=
    .step hx (.built (.parameter (some "y") .boolean) rfl)
  have hboth : Reachable ⟨{ serials := 1, parameters := 2 },
      [both, .parameter y, .parameter x], []⟩ :=
    .step hy (.built (@Builds.binary _ (.parameter x) (.parameter y) .andAlso (by simp) (by simp)) rfl)
  have hinner : Reachable ⟨{ serials := 1, parameters := 2 },
      [both, .parameter y, .parameter x], [⟨[x], both⟩]⟩ :=
    .step hboth (.builtLambda (@BuildsLambda.lambda _ [x] both (by simp) (by simp)) rfl)
  have hnode : Reachable ⟨{ serials := 2, parameters := 2 },
      [.lambda 1 [x] both, both, .parameter y, .parameter x], [⟨[x], both⟩]⟩ :=
    .step hinner (.built (@Builds.toExpr _ ⟨[x], both⟩ (by simp)) rfl)
  have hdecided : Reachable { workspace with lambdas := [⟨[x], both⟩] } :=
    .step hnode (.built (@Builds.call _ none [.lambda 1 [x] both] decides (by simp)) rfl)
  have hleft : Reachable { workspace with lambdas := [⟨[x, y], .parameter x⟩, ⟨[x], both⟩] } :=
    .step hdecided (.builtLambda (@BuildsLambda.lambda _ [x, y] (.parameter x)
      (by simp [workspace]) (by simp [workspace])) rfl)
  exact .step hleft (.builtLambda (@BuildsLambda.lambda _ [y, x] decided
    (by simp [workspace]) (by simp [workspace])) rfl)

/-- `(x, y) => (x && decides(y => (y && x)))`, with new parameters. -/
def joined : Lambda :=
  let p : Parameter := ⟨2, some "x", .boolean⟩
  let q : Parameter := ⟨3, some "y", .boolean⟩
  ⟨[p, q], .binary 9 .andAlso (.parameter p)
    (.call 8 decides [.lambda 7 [q] (.binary 6 .andAlso (.parameter q) (.parameter p))])⟩

/-- The first new parameter stands for `x` on the left and `y` on the right, once each; the second one
stands in the two places of `x` on the right. So there are four records, and the join. -/
theorem joinOptional_unifies_crossed : ∃ session',
    (Lambda.joinOptional .and (some ⟨[x, y], .parameter x⟩) (some ⟨[y, x], decided⟩)).runIn
      workspace.session = (.ok (some joined), session') ∧
    joined.uses = [2, 2] ∧ session'.journal.toList.length = 5 := by
  have hjoin : (Lambda.joinOptional .and (some ⟨[x, y], .parameter x⟩)
      (some ⟨[y, x], decided⟩)).runIn workspace.session = (.ok (some joined), _) := rfl
  obtain ⟨-, -, -, -, huses, -, records, hjournal, -, hnumber⟩ :=
    reachable.joinOptional_unifies (by simp [workspace]) (by simp [workspace]) hjoin
  have hcrossed : List.zipWith (· + ·) (Lambda.uses ⟨[x, y], .parameter x⟩)
      (Lambda.uses ⟨[y, x], decided⟩) = [2, 2] := by decide
  rw [hcrossed] at huses hnumber
  refine ⟨_, hjoin, huses, ?_⟩
  rw [hjournal, List.length_append, List.length_append, hnumber]
  rfl

end Crossed

end Workspace

end ExprTree
