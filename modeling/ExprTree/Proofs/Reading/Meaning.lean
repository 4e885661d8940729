/-
# What printed forms mean

An expression means what its printed form says: expressions that say the same have the same value in
frames where parameters of the same name stand for the same. Of the names it only takes that they tell
the parameters of each expression apart, so expressions that differ in the parameters of their lambdas
are covered. With the reader this gives the meaning of printed forms.
-/
import ExprTree.Proofs.Outcome
import ExprTree.Proofs.Reachable
import ExprTree.Proofs.Reading.Expr

namespace ExprTree

namespace Expr

/-! ## From what is said back to nodes -/

section Nodes

variable {e : Expr}

theorem of_reading_value {v : Value} (h : e.reading = .value v) :
    ∃ serial value type, e = .constant serial value type := by
  fun_cases reading e <;> grind [reading]

theorem of_reading_number {n : Nat} (h : e.reading = .number n) :
    ∃ serial value type, e = .constant serial value type := by
  fun_cases reading e <;> grind [reading]

theorem of_reading_name {name : String} (h : e.reading = .name name) :
    ∃ p, e = .parameter p ∧ p.print = name := by
  fun_cases reading e <;> grind [reading]

theorem of_reading_member {target : Reading} {name : String}
    (h : e.reading = .member target name) :
    ∃ serial target' type, e = .member serial target' name type ∧ target'.reading = target := by
  fun_cases reading e <;> grind [reading]

theorem of_reading_call {name : String} {args : List Reading} (h : e.reading = .call name args) :
    ∃ serial method operands, e = .call serial method operands := by
  fun_cases reading e <;> grind [reading]

theorem of_reading_send {receiver : Reading} {name : String} {args : List Reading}
    (h : e.reading = .send receiver name args) :
    ∃ serial method operands, e = .call serial method operands := by
  fun_cases reading e <;> grind [reading]

/-- A sign in front of a number is a negative constant or an operation. -/
theorem of_reading_signed {op : UnaryOp} {operand : Reading} (h : e.reading = .signed op operand) :
    (∃ serial operand', e = .unary serial op operand' ∧ operand'.reading = operand) ∨
      ∃ serial value type, e = .constant serial value type := by
  fun_cases reading e <;> grind [reading]

theorem of_reading_binary {op : BinaryOp} {left right : Reading}
    (h : e.reading = .binary op left right) :
    ∃ serial left' right', e = .binary serial op left' right' ∧ left'.reading = left ∧
      right'.reading = right := by
  fun_cases reading e <;> grind [reading]

theorem of_reading_lambda {names : List String} {body : Reading}
    (h : e.reading = .lambda names body) :
    ∃ serial params body', e = .lambda serial params body' ∧ params.map Parameter.print = names ∧
      body'.reading = body := by
  fun_cases reading e <;> grind [reading]

end Nodes

end Expr

/-! ## Constants -/

/-- The value that is written down, if nothing else is. -/
def Reading.value? : Reading → Option Value
  | .value v => some v
  | .number n => some (.int32 (Int32.ofNat n))
  | .signed .negate (.number n) => some (.int32 (-Int32.ofNat n))
  | _ => none

namespace Expr

variable {evaluator : Evaluator} {frames : Frames}

theorem value?_reading_constant (serial : Nat) (value : Value) (type : Ty) :
    (Expr.constant serial value type).reading.value? = some value := by
  cases value with
  | int32 n =>
      have hvalue := Value.ofNat_natAbs n
      rw [reading]
      split at hvalue
      next hneg => rw [if_pos hneg, Reading.value?, hvalue]
      next hneg => rw [if_neg hneg, Reading.value?, hvalue]
  | _ => rfl

theorem lambda?_of_value? {e : Expr} {value : Value} (h : e.reading.value? = some value) :
    e.lambda? = none := by
  cases e with
  | lambda => cases h
  | _ => rfl

theorem evaluate_constant_of_value? {serial : Nat} {value value' : Value} {type : Ty}
    (h : (Expr.constant serial value type).reading.value? = some value') :
    evaluator.evaluate frames (.constant serial value type) = pure value' := by
  rw [value?_reading_constant, Option.some.injEq] at h
  rw [← h]
  rfl

/-- What is written as a value has that value. -/
theorem evaluate_of_value? {e : Expr} {value : Value} (h : e.reading.value? = some value) :
    evaluator.evaluate frames e = pure value := by
  cases hreading : e.reading with
  | value =>
      obtain ⟨serial, value, type, rfl⟩ := of_reading_value hreading
      exact evaluate_constant_of_value? h
  | number =>
      obtain ⟨serial, value, type, rfl⟩ := of_reading_number hreading
      exact evaluate_constant_of_value? h
  | signed op said =>
      rcases of_reading_signed hreading with ⟨serial, operand, rfl, rfl⟩ | ⟨serial, value, type, rfl⟩
      · cases op with
        | not => cases h
        | negate =>
            cases hoperand : operand.reading with
            | number n =>
                have hvalue : evaluator.evaluate frames operand = pure (.int32 (Int32.ofNat n)) := by
                  obtain ⟨serial, value, type, rfl⟩ := of_reading_number hoperand
                  exact evaluate_constant_of_value? (by rw [hoperand]; rfl)
                rw [hreading, hoperand, Reading.value?, Option.some.injEq] at h
                rw [Evaluator.evaluate, hvalue, ← h]
                rfl
            | _ => simp [hreading, hoperand, Reading.value?] at h
      · exact evaluate_constant_of_value? h
  | _ => simp [hreading, Reading.value?] at h

end Expr

/-! ## Calls -/

theorem Quantifier.eq_of_name_eq {quantifier quantifier' : Quantifier}
    (h : quantifier.name = quantifier'.name) : quantifier = quantifier' := by
  revert h
  cases quantifier <;> cases quantifier' <;> decide

/-- The name and all operands of a call, wherever the first of them is written. -/
def Reading.call? : Reading → Option (String × List Reading)
  | .call n args => some (n, args)
  | .send receiver n args => some (n, receiver :: args)
  | _ => none

namespace Expr

variable {evaluator : Evaluator} {frames : Frames}

theorem call?_reading_call (serial : Nat) (method : Method) (operands : List Expr) :
    (Expr.call serial method operands).reading.call?
      = some (method.name, operands.map reading) := by
  rw [reading, readingAll_eq_map]
  cases method.form <;> cases operands.map reading <;> rfl

theorem of_call? {e : Expr} {parts : String × List Reading} (h : e.reading.call? = some parts) :
    ∃ serial method operands, e = .call serial method operands := by
  cases hreading : e.reading with
  | call => exact of_reading_call hreading
  | send => exact of_reading_send hreading
  | _ => simp [hreading, Reading.call?] at h

/-- What a call says does not tell whether its method is called on a target or an extension. -/
theorem of_reading_eq_call {e : Expr} {serial : Nat} {method : Method} {operands : List Expr}
    (h : e.reading = (Expr.call serial method operands).reading) :
    ∃ serial' method' operands', e = .call serial' method' operands' ∧
      method'.name = method.name ∧ operands.map reading = operands'.map reading := by
  have hcall := call?_reading_call serial method operands
  rw [← h] at hcall
  obtain ⟨serial', method', operands', rfl⟩ := of_call? hcall
  rw [call?_reading_call, Option.some.injEq, Prod.mk.injEq] at hcall
  exact ⟨serial', method', operands', rfl, hcall.1, hcall.2.symm⟩

/-- The name of a method decides what a call of it does. -/
theorem evaluate_call_of_name {method method' : Method} (hmethod : method.isLegible = true)
    (hmethod' : method'.isLegible = true) (hname : method.name = method'.name) {serial : Nat}
    {operands : List Expr} :
    evaluator.evaluate frames (.call serial method operands)
      = evaluator.evaluate frames (.call serial method' operands) := by
  cases method with
  | declared name =>
      cases method' with
      | declared name' =>
          obtain rfl : name = name' := hname
          simp only [Evaluator.evaluate]
      | sequence quantifier => exact absurd hname (Method.name_ne_of_isLegible hmethod quantifier)
  | sequence quantifier =>
      cases method' with
      | declared => exact absurd hname.symm (Method.name_ne_of_isLegible hmethod' quantifier)
      | sequence quantifier' =>
          obtain rfl : quantifier = quantifier' := Quantifier.eq_of_name_eq hname
          -- The type of the elements plays no part, whatever the number of operands.
          rcases operands with _ | ⟨source, _ | ⟨operand, _ | ⟨third, others⟩⟩⟩ <;> rfl

end Expr

namespace Comparison

variable {evaluator : Evaluator} {C : Comparison evaluator} {frames frames' : Frames}

/-- Two parameters of the same name stand for the same on the inside of two lambdas that give their
parameters the same names, if they do on the outside. -/
theorem lookup_of_print_eq (hC : C.Lenient) {params params' : List Parameter} {args : List Value}
    {p p' : Parameter} (hparams : params.map Parameter.print = params'.map Parameter.print)
    (hp : ∀ q ∈ params, q.print = p.print → q = p) (hp' : ∀ q ∈ params', q.print = p'.print → q = p')
    (hprint : p.print = p'.print)
    (houter : p ∉ params → p' ∉ params' → C.rel (frames.lookup p) (frames'.lookup p')) :
    C.rel (Frames.lookup (⟨params, args⟩ :: frames) p)
      (Frames.lookup (⟨params', args⟩ :: frames') p') := by
  have hposition : params.idxOf? p = params'.idxOf? p' := by
    rw [← Frames.idxOf?_map hp, ← Frames.idxOf?_map hp', hparams, hprint]
  rw [Frames.lookup_cons, Frames.lookup_cons]
  simp only [← hposition]
  cases hcases : params.idxOf? p with
  | none =>
      rw [hcases] at hposition
      exact houter (List.idxOf?_eq_none_iff.mp hcases) (List.idxOf?_eq_none_iff.mp hposition.symm)
  | some position => exact argument_congr hC _ _ _ _

/-- Expressions that are written as the same value mean the same. -/
theorem simulates_of_value? (hC : C.Lenient) {e e' : Expr} {value : Value}
    (h : e.reading.value? = some value) (h' : e'.reading.value? = some value) :
    C.Simulates frames e frames' e' := by
  refine .of_value ?_ (Expr.lambda?_of_value? h) (Expr.lambda?_of_value? h') (hC.relNotLambda _ _)
  rw [Expr.evaluate_of_value? h, Expr.evaluate_of_value? h']
  exact C.pure value

/-- **Expressions that say the same mean the same**, if parameters of the same name stand for the
same. -/
theorem simulates_of_reading_eq (hC : C.Lenient) {e e' : Expr} (he : e.Readable)
    (he' : e'.Readable) (h : e.reading = e'.reading)
    (hlookup : ∀ p p', Expr.OccursFree p e → Expr.OccursFree p' e' → p.print = p'.print →
      C.rel (frames.lookup p) (frames'.lookup p')) :
    C.Simulates frames e frames' e' := by
  induction e generalizing frames frames' e' with
  | constant serial value type =>
      have hvalue := Expr.value?_reading_constant serial value type
      exact simulates_of_value? hC hvalue (h ▸ hvalue)
  | parameter p =>
      obtain ⟨p', rfl, hprint⟩ := Expr.of_reading_name h.symm
      exact .of_value (hlookup p p' .parameter .parameter hprint.symm) rfl rfl (hC.relNotLambda _ _)
  | member _ target name _ ih =>
      obtain ⟨serial', target', type', rfl, htarget⟩ := Expr.of_reading_member h.symm
      have htargets := ih (he.child List.mem_cons_self) (he'.child List.mem_cons_self) htarget.symm
        fun p p' hp hp' => hlookup p p' (.member hp) (.member hp')
      exact .of_value (value_member htargets.value) rfl rfl (hC.relNotLambda _ _)
  | call serial method operands ih =>
      obtain ⟨serial', method', operands', rfl, hname, hoperands⟩ := Expr.of_reading_eq_call h.symm
      have hmethod := he.named.legible _ (Expr.mem_nodes_self _)
      have hmethod' := he'.named.legible _ (Expr.mem_nodes_self _)
      rw [← List.forall₂_eq_eq_eq, List.forall₂_map_left_iff, List.forall₂_map_right_iff,
        List.forall₂_iff_zip] at hoperands
      refine .of_value ?_ rfl rfl (hC.relNotLambda _ _)
      rw [Expr.evaluate_call_of_name hmethod hmethod' hname.symm]
      refine Simulates.value_call (List.forall₂_iff_zip.mpr ⟨hoperands.1, fun {e e'} hzip => ?_⟩)
      obtain ⟨hmem, hmem'⟩ := List.of_mem_zip hzip
      exact ih e hmem (he.child hmem) (he'.child hmem') (hoperands.2 hzip) fun p p' hp hp' =>
        hlookup p p' (.call hmem hp) (.call hmem' hp')
  | unary serial op operand ih =>
      rcases Expr.of_reading_signed h.symm with
        ⟨serial', operand', rfl, hoperand⟩ | ⟨serial', value, type, rfl⟩
      · have hoperands := ih (he.child List.mem_cons_self) (he'.child List.mem_cons_self)
          hoperand.symm fun p p' hp hp' => hlookup p p' (.unary hp) (.unary hp')
        exact .of_value (value_unary hoperands.value) rfl rfl (hC.relNotLambda _ _)
      · have hvalue := Expr.value?_reading_constant serial' value type
        exact simulates_of_value? hC (h ▸ hvalue) hvalue
  | binary serial op left right ihl ihr =>
      obtain ⟨serial', left', right', rfl, hleft, hright⟩ := Expr.of_reading_binary h.symm
      have hlefts := ihl (he.child List.mem_cons_self) (he'.child List.mem_cons_self) hleft.symm
        fun p p' hp hp' => hlookup p p' (.left hp) (.left hp')
      have hrights := ihr (he.child (List.mem_cons_of_mem _ List.mem_cons_self))
        (he'.child (List.mem_cons_of_mem _ List.mem_cons_self)) hright.symm
        fun p p' hp hp' => hlookup p p' (.right hp) (.right hp')
      exact .of_value (value_binary hlefts.value hrights.value) rfl rfl (hC.relNotLambda _ _)
  | lambda serial params body ih =>
      obtain ⟨serial', params', body', rfl, hparams, hbody⟩ := Expr.of_reading_lambda h.symm
      refine .lambda fun x => ih (he.child List.mem_cons_self) (he'.child List.mem_cons_self)
        hbody.symm fun p p' hp hp' hprint => ?_
      have hmem : p ∈ params ++ body.parameters := List.mem_append_right _ hp.mem_parameters
      have hmem' : p' ∈ params' ++ body'.parameters := List.mem_append_right _ hp'.mem_parameters
      exact lookup_of_print_eq hC hparams.symm
        (fun q hq => he.named.apart q (List.mem_append_left _ hq) p hmem)
        (fun q hq => he'.named.apart q (List.mem_append_left _ hq) p' hmem') hprint
        fun houter houter' => hlookup p p' (.lambda houter hp) (.lambda houter' hp') hprint

end Comparison

/-! ## Printed forms -/

namespace Workspace

/-- **The printed form decides what an expression means**, as far as names can be read and tell the
parameters of each expression apart, and no call is written behind a sign or a lambda. -/
theorem Reachable.evaluate_agrees_of_print_eq {w : Workspace} (hw : w.Reachable) {e e' : Expr}
    (he : e ∈ w.exprs) (he' : e' ∈ w.exprs) (hnames : e.IsNamed) (hnames' : e'.IsNamed)
    (hreceivers : e.ReceiversStandAlone) (hreceivers' : e'.ReceiversStandAlone)
    (hfree : ∀ p, p ∈ e.free ↔ p ∈ e'.free) (hprint : e.print = e'.print)
    (evaluator : Evaluator) (frames : Frames) :
    (evaluator.evaluate frames e).Agrees (evaluator.evaluate frames e') := by
  have hreadable : e.Readable := ⟨(hw.sound.exprs e he).wellFormed, hnames, hreceivers⟩
  have hreadable' : e'.Readable := ⟨(hw.sound.exprs e' he').wellFormed, hnames', hreceivers'⟩
  have hreading := Expr.reading_eq_of_print_eq hreadable hreadable' hprint
  refine (Comparison.simulates_of_reading_eq Comparison.lenient_agreement hreadable hreadable'
    hreading fun p p' hp hp' hname => ?_).value
  -- Both expressions have the same free parameters, so one name is one parameter.
  have hoccurs : Expr.OccursFree p e' := by rwa [← Expr.mem_free, ← hfree, Expr.mem_free]
  obtain rfl := hnames'.apart p hoccurs.mem_parameters p' hp'.mem_parameters hname
  exact Comparison.lookup _ frames p

namespace Signs

def x : Parameter := ⟨0, some "x", .int32⟩

/-- `-5`, as a negative constant. -/
def negative : Expr := .constant 0 (.int32 (-5)) .int32

/-- `-5`, as the negation of a constant. -/
def negated : Expr := .unary 2 .negate (.constant 1 (.int32 5) .int32)

/-- `(x == -5)`, built in two ways. -/
def workspace : Workspace where
  session := { serials := 5, parameters := 1 }
  exprs := [.binary 4 .eq (.parameter x) negated, .binary 3 .eq (.parameter x) negative,
    negated, .constant 1 (.int32 5) .int32, negative, .parameter x]

theorem reachable : workspace.Reachable := by
  have hx : Reachable ⟨{ parameters := 1 }, [.parameter x], []⟩ :=
    .step .start (.built (.parameter (some "x") .int32) rfl)
  have hconstants : Reachable ⟨{ serials := 2, parameters := 1 }, workspace.exprs.drop 3, []⟩ :=
    .step (.step hx (.built (.int32 (-5)) rfl)) (.built (.int32 5) rfl)
  have hnegated : Reachable ⟨{ serials := 3, parameters := 1 }, workspace.exprs.drop 2, []⟩ :=
    .step hconstants (.built (@Builds.unary _ (.constant 1 (.int32 5) .int32) .negate
      (by simp [workspace])) rfl)
  have hnegative : Reachable ⟨{ serials := 4, parameters := 1 }, workspace.exprs.drop 1, []⟩ :=
    .step hnegated (.built (@Builds.binary _ (.parameter x) negative .eq (by simp [workspace])
      (by simp [workspace])) rfl)
  exact .step hnegative (.built (@Builds.binary _ (.parameter x) negated .eq (by simp [workspace])
    (by simp [workspace])) rfl)

/-- The negative constant and the negation, which print alike, compare alike. -/
theorem evaluate_signs_agrees :
    (Evaluator.evaluate {} [⟨[x], [.int32 (-5)]⟩] (.binary 3 .eq (.parameter x) negative)).Agrees
      (Evaluator.evaluate {} [⟨[x], [.int32 (-5)]⟩] (.binary 4 .eq (.parameter x) negated)) :=
  reachable.evaluate_agrees_of_print_eq (by simp [workspace]) (by simp [workspace])
    ⟨by decide, by decide⟩ ⟨by decide, by decide⟩ (by decide) (by decide) (fun _ => Iff.rfl) rfl {} _

end Signs

namespace Receivers

def x : Parameter := ⟨0, some "x", .boolean⟩

/-- A call of `F` behind its target. -/
def call (serial : Nat) (target : Expr) : Expr :=
  .call serial (.declared "F" .onTarget [] .boolean) [target]

/-- `!x`. -/
def notX : Expr := .unary 0 .not (.parameter x)

/-- `!x.F()`, where `F` is called on `x`. -/
def outside : Expr := .unary 2 .not (call 1 (.parameter x))

/-- `!x.F()`, where `F` is called on `!x`. -/
def inside : Expr := call 3 notX

def workspace : Workspace where
  session := { serials := 4, parameters := 1 }
  exprs := [inside, outside, call 1 (.parameter x), notX, .parameter x]

theorem reachable : workspace.Reachable := by
  have hx : Reachable ⟨{ parameters := 1 }, [.parameter x], []⟩ :=
    .step .start (.built (.parameter (some "x") .boolean) rfl)
  have hnot : Reachable ⟨{ serials := 1, parameters := 1 }, workspace.exprs.drop 3, []⟩ :=
    .step hx (.built (@Builds.unary _ (.parameter x) .not (by simp)) rfl)
  have hcall : Reachable ⟨{ serials := 2, parameters := 1 }, workspace.exprs.drop 2, []⟩ :=
    .step hnot (.built (@Builds.call _ (some (.parameter x)) []
      (.declared "F" .onTarget [] .boolean) (by simp [workspace])) rfl)
  have houtside : Reachable ⟨{ serials := 3, parameters := 1 }, workspace.exprs.drop 1, []⟩ :=
    .step hcall (.built (@Builds.unary _ (call 1 (.parameter x)) .not (by simp [workspace])) rfl)
  exact .step houtside (.built (@Builds.call _ (some notX) []
    (.declared "F" .onTarget [] .boolean) (by simp [workspace])) rfl)

/-- `F` holds of everything. -/
def evaluator : Evaluator := ⟨[("F", fun _ _ => .ok (.boolean true))]⟩

/-- **Nothing tells a sign in front of a call from a sign in front of its target.** The negation of `F`
of `x` and `F` of the negation of `x` print alike, but the first one is false and the second one
true. -/
theorem not_agrees_outside_inside :
    workspace.Reachable ∧ outside ∈ workspace.exprs ∧ inside ∈ workspace.exprs ∧
    outside.IsNamed ∧ inside.IsNamed ∧ (∀ p, p ∈ outside.free ↔ p ∈ inside.free) ∧
    outside.print = inside.print ∧
    ¬ (evaluator.evaluate [⟨[x], [.boolean true]⟩] outside).Agrees
      (evaluator.evaluate [⟨[x], [.boolean true]⟩] inside) := by
  refine ⟨reachable, by simp [workspace], by simp [workspace], ⟨by decide, by decide⟩,
    ⟨by decide, by decide⟩, fun _ => Iff.rfl, rfl, fun h => ?_⟩
  have houtside : (evaluator.evaluate [⟨[x], [.boolean true]⟩] outside).value? #[]
      = some (.boolean false) := rfl
  have hinside : (evaluator.evaluate [⟨[x], [.boolean true]⟩] inside).value? #[]
      = some (.boolean true) := rfl
  rw [EvalM.value?, h #[], ← EvalM.value?, hinside] at houtside
  cases houtside

end Receivers

end Workspace

end ExprTree
