/-
# Type soundness

Evaluation gives values that fit the declared types, and fails only for reasons that types cannot
rule out. This needs constants that fit their types, members declared as a schema has them, and
native functions that keep to the result types of their methods; the rest is checked by the
constructors.
-/
import ExprTree.Proofs.Assignability
import ExprTree.Proofs.Outcome
import ExprTree.Proofs.Reachable

namespace ExprTree

/-! ## Values that fit a type -/

/-- The types of the fields of entities, by the names of the entity and the field. -/
abbrev Schema := String → String → Option Ty

/-- The value fits the type. No value fits a function type. -/
inductive Value.Fits (schema : Schema) : Value → Ty → Prop
  | object (value : Value) : Fits schema value .object
  | boolean (b : Bool) : Fits schema (.boolean b) .boolean
  | int32 (n : Int32) : Fits schema (.int32 n) .int32
  | string (text : String) : Fits schema (.string text) .string
  | record {typeName : String} {fields : List (String × Value)} :
      (∀ name value type, (Record.mk typeName fields).get? name = some value →
        schema typeName name = some type → Fits schema value type) →
      Fits schema (.record typeName fields) (.entity typeName)
  | list {elements : List Value} {element : Ty} :
      (∀ value ∈ elements, Fits schema value element) →
      Fits schema (.list elements) (.sequence element)

namespace Value

variable {schema : Schema} {value : Value}

theorem eq_of_fits_boolean (h : value.Fits schema .boolean) : ∃ b, value = .boolean b := by
  cases h with | boolean b => exact ⟨b, rfl⟩

theorem eq_of_fits_int32 (h : value.Fits schema .int32) : ∃ n, value = .int32 n := by
  cases h with | int32 n => exact ⟨n, rfl⟩

theorem eq_of_fits_string (h : value.Fits schema .string) : ∃ text, value = .string text := by
  cases h with | string text => exact ⟨text, rfl⟩

/-- **A value fits whatever accepts a type that it fits.** -/
theorem Fits.of_accepts {value : Value} {source target : Ty} (h : value.Fits schema source)
    (haccepts : target.accepts source = true) : value.Fits schema target := by
  rcases Ty.accepts_iff.mp haccepts with
    rfl | rfl | ⟨a, b, rfl, rfl, hab⟩ | ⟨_, _, _, _, -, rfl, -⟩
  · exact h
  · exact .object _
  · cases h with
    | list helements =>
        exact .list fun element helement => (helements element helement).of_accepts hab
  · cases h

end Value

/-! ## Safe evaluations -/

/-- Failures that types rule out: a parameter without a value, a value of the wrong kind, a wrong
number of operands. -/
def EvalFault.isTypeFault : EvalFault → Bool
  | .argumentCount .. | .unbound _ | .noArgument _ | .notBoolean .. | .unaryOperand ..
  | .binaryOperands .. | .quantifierArity .. | .notList .. => true
  | .noMember .. | .notRecord .. | .unknownFunction _ | .divisionByZero | .lambdaValue
  | .notLambda .. | .native _ => false

namespace EvalM

variable {α β : Type}

/-- The evaluation gives a result with the property or fails for a reason that types do not rule
out. -/
def Safe (property : α → Prop) (action : EvalM α) : Prop :=
  ∀ history, match (action.runAfter history).1 with
    | .ok a => property a
    | .error fault => fault.isTypeFault = false

namespace Safe

variable {property : α → Prop} {property' : β → Prop}

theorem pure {a : α} (h : property a) : Safe property (Pure.pure a) :=
  fun _ => h

theorem fail {fault : EvalFault} (h : fault.isTypeFault = false) :
    Safe property (EvalM.fail fault) :=
  fun _ => h

theorem bind {action : EvalM α} {next : α → EvalM β} (h : Safe property action)
    (hnext : ∀ a, property a → Safe property' (next a)) : Safe property' (action >>= next) := by
  intro history
  have hfirst := h history
  rw [runAfter_bind]
  revert hfirst
  rcases action.runAfter history with ⟨fault | a, middle⟩ <;> intro hfirst
  · exact hfirst
  · exact hnext a hfirst middle

/-- A test of elements that is safe on each is safe on all of them. -/
theorem anyM {test : Value → EvalM Bool} {values : List Value}
    (h : ∀ value ∈ values, Safe (fun _ => True) (test value)) :
    Safe (fun _ => True) (values.anyM test) := by
  induction values with
  | nil => exact pure trivial
  | cons value values ih =>
      refine bind (h value List.mem_cons_self) fun found _ => ?_
      cases found with
      | true => exact pure trivial
      | false => exact ih fun value hvalue => h value (List.mem_cons_of_mem _ hvalue)

theorem allM {test : Value → EvalM Bool} {values : List Value}
    (h : ∀ value ∈ values, Safe (fun _ => True) (test value)) :
    Safe (fun _ => True) (values.allM test) := by
  induction values with
  | nil => exact pure trivial
  | cons value values ih =>
      refine bind (h value List.mem_cons_self) fun holds _ => ?_
      cases holds with
      | true => exact ih fun value hvalue => h value (List.mem_cons_of_mem _ hvalue)
      | false => exact pure trivial

end Safe

end EvalM

/-! ## Operations on values that fit -/

section Operations

open EvalM

variable {schema : Schema} {value : Value}

/-- Negations and changes of sign of values that fit are safe. -/
theorem UnaryOp.safe_apply {op : UnaryOp} (h : value.Fits schema op.resultType) :
    Safe (·.Fits schema op.resultType) (EvalM.ofExcept (op.apply value)) := by
  cases op with
  | not =>
      obtain ⟨b, rfl⟩ := Value.eq_of_fits_boolean h
      exact .pure (Value.Fits.boolean _)
  | negate =>
      obtain ⟨n, rfl⟩ := Value.eq_of_fits_int32 h
      exact .pure (Value.Fits.int32 _)

/-- Operations with both operands evaluated are safe on values that fit. -/
theorem BinaryOp.safe_apply {op : BinaryOp} {left right : Ty} {a b : Value}
    (htakes : op.takes left right = true) (ha : a.Fits schema left) (hb : b.Fits schema right) :
    Safe (·.Fits schema op.resultType) (EvalM.ofExcept (op.apply a b)) := by
  cases op with
  | eq | ne => exact .pure (Value.Fits.boolean _)
  | add | sub | mul =>
      obtain ⟨rfl, rfl⟩ : left = .int32 ∧ right = .int32 := by simpa [takes] using htakes
      obtain ⟨m, rfl⟩ := Value.eq_of_fits_int32 ha
      obtain ⟨n, rfl⟩ := Value.eq_of_fits_int32 hb
      exact .pure (Value.Fits.int32 _)
  | div =>
      obtain ⟨rfl, rfl⟩ : left = .int32 ∧ right = .int32 := by simpa [takes] using htakes
      obtain ⟨m, rfl⟩ := Value.eq_of_fits_int32 ha
      obtain ⟨n, rfl⟩ := Value.eq_of_fits_int32 hb
      by_cases hn : n = 0
      · rw [apply, if_pos hn]
        exact .fail rfl
      · rw [apply, if_neg hn]
        exact .pure (Value.Fits.int32 _)
  | lt | le | gt | ge =>
      have hboth : left = .int32 ∧ right = .int32 ∨ left = .string ∧ right = .string := by
        simpa [takes] using htakes
      rcases hboth with ⟨rfl, rfl⟩ | ⟨rfl, rfl⟩
      · obtain ⟨m, rfl⟩ := Value.eq_of_fits_int32 ha
        obtain ⟨n, rfl⟩ := Value.eq_of_fits_int32 hb
        exact .pure (Value.Fits.boolean _)
      · obtain ⟨m, rfl⟩ := Value.eq_of_fits_string ha
        obtain ⟨n, rfl⟩ := Value.eq_of_fits_string hb
        exact .pure (Value.Fits.boolean _)
  | andAlso | orElse =>
      obtain ⟨rfl, rfl⟩ : left = .boolean ∧ right = .boolean := by simpa [takes] using htakes
      obtain ⟨m, rfl⟩ := Value.eq_of_fits_boolean ha
      obtain ⟨n, rfl⟩ := Value.eq_of_fits_boolean hb
      exact .pure (Value.Fits.boolean _)

/-- The truth value of a value that fits the type of truth values is there. -/
theorem safe_truth {place : TruthPlace} (h : value.Fits schema .boolean) :
    Safe (fun _ => True) (truth place value) := by
  obtain ⟨b, rfl⟩ := Value.eq_of_fits_boolean h
  exact .pure trivial

/-- The elements of a value that fits a sequence type are there and fit the type of the elements. -/
theorem safe_elements {quantifier : Quantifier} {element : Ty}
    (h : value.Fits schema (.sequence element)) :
    Safe (fun elements => ∀ v ∈ elements, v.Fits schema element) (elements quantifier value) := by
  cases h with
  | list helements => exact .pure helements

end Operations

/-! ## Expressions that keep to a schema -/

/-- What is asked of a node: constants fit their types; a member has the top type, or a text as its
target, or it is declared as the schema has it; a native function keeps to the result type. -/
def Expr.KeepsTo (schema : Schema) (evaluator : Evaluator) : Expr → Prop
  | .constant _ value type => value.Fits schema type
  | .member _ target name type =>
      type = .object ∨ target.type = .string ∨
        ∃ entity field, target.type = .entity entity ∧ schema entity name = some field ∧
          type.accepts field = true
  | .call _ (.declared name _ _ result) _ =>
      ∀ function, evaluator.function? name = some function →
        ∀ history args value, function history args = .ok value → value.Fits schema result
  | _ => True

/-- The frames give the parameter a value that fits its type. -/
def Frames.Binds (schema : Schema) (frames : Frames) (p : Parameter) : Prop :=
  ∃ value, frames.lookup p = pure value ∧ value.Fits schema p.type

namespace Evaluator

open EvalM

variable {schema : Schema} {evaluator : Evaluator} {frames : Frames}

/-- In these frames the expression is safe as a value and, if a quantifier accepts it, as a predicate
on elements that fit. -/
structure SafeIn (schema : Schema) (evaluator : Evaluator) (frames : Frames) (e : Expr) : Prop where
  value : Safe (·.Fits schema e.type) (evaluator.evaluate frames e)
  predicate : ∀ quantifier element, Ty.accepts (.function [element] .boolean) e.type = true →
    Safe (fun test => ∀ value, value.Fits schema element → Safe (fun _ => True) (test value))
      (evaluator.evaluatePredicate frames quantifier e)

/-- A node that is no lambda fails as a predicate for a reason that types do not rule out. -/
theorem SafeIn.of_value {e : Expr} (h : Safe (·.Fits schema e.type) (evaluator.evaluate frames e))
    (hlambda : e.lambda? = none) : SafeIn schema evaluator frames e := by
  refine ⟨h, fun quantifier element _ => ?_⟩
  rw [evaluator.evaluatePredicate_of_not_lambda hlambda]
  exact .fail rfl

/-- Reading a member of a target that fits is safe. -/
theorem safe_member {target : Expr} {serial : Nat} {name : String} {type : Ty} {value : Value}
    (hkeeps : (Expr.member serial target name type).KeepsTo schema evaluator)
    (hvalue : value.Fits schema target.type) :
    Safe (·.Fits schema type) (EvalM.member name value) := by
  cases value with
  | record typeName fields =>
      simp only [EvalM.member]
      split
      next value hget =>
        -- A record fits neither the type of texts nor an entity of another name.
        rcases hkeeps with rfl | htext | ⟨entity, field, hentity, hschema, haccepts⟩
        · exact .pure (Value.Fits.object value)
        · rw [htext] at hvalue
          cases hvalue
        · rw [hentity] at hvalue
          cases hvalue with
          | record hfields =>
              have hfits := hfields name value field hget hschema
              exact .pure (hfits.of_accepts haccepts)
      next => exact .fail rfl
  | _ => exact .fail rfl

/-- Evaluating several expressions that are safe is safe. -/
theorem safe_evaluateAll {es : List Expr}
    (h : ∀ e ∈ es, Safe (·.Fits schema e.type) (evaluator.evaluate frames e)) :
    Safe (fun _ => True) (evaluator.evaluateAll frames es) := by
  induction es with
  | nil => exact .pure trivial
  | cons e es ih =>
      rw [evaluateAll]
      refine .bind (h e List.mem_cons_self) fun value _ => ?_
      refine .bind (ih fun e he => h e (List.mem_cons_of_mem _ he)) fun values _ => ?_
      exact .pure trivial

/-- A call of a native function that keeps to a type is safe. -/
theorem safe_callNative {name : String} {function : Native} {args : List Value} {result : Ty}
    (h : ∀ history args value, function history args = .ok value → value.Fits schema result) :
    Safe (·.Fits schema result) (EvalM.callNative name function args) := by
  intro history
  rw [runAfter_callNative]
  cases hresult : function history args with
  | ok value => exact h history args value hresult
  | error failure => rfl

/-- An application of a binary operator to operands that are safe is safe. -/
theorem safe_binary {serial : Nat} {op : BinaryOp} {left right : Expr}
    (htakes : op.takes left.type right.type = true)
    (hleft : Safe (·.Fits schema left.type) (evaluator.evaluate frames left))
    (hright : Safe (·.Fits schema right.type) (evaluator.evaluate frames right)) :
    Safe (·.Fits schema op.resultType)
      (evaluator.evaluate frames (.binary serial op left right)) := by
  simp only [evaluate]
  split
  next =>
    obtain ⟨hl, hr⟩ : left.type = .boolean ∧ right.type = .boolean := by
      simpa [BinaryOp.takes] using htakes
    refine .bind hleft fun value hvalue => .bind (safe_truth (hl ▸ hvalue)) fun b _ => ?_
    cases b with
    | true =>
        refine .bind hright fun value hvalue => .bind (safe_truth (hr ▸ hvalue)) fun b _ => ?_
        exact .pure (Value.Fits.boolean b)
    | false => exact .pure (Value.Fits.boolean false)
  next =>
    obtain ⟨hl, hr⟩ : left.type = .boolean ∧ right.type = .boolean := by
      simpa [BinaryOp.takes] using htakes
    refine .bind hleft fun value hvalue => .bind (safe_truth (hl ▸ hvalue)) fun b _ => ?_
    cases b with
    | true => exact .pure (Value.Fits.boolean true)
    | false =>
        refine .bind hright fun value hvalue => .bind (safe_truth (hr ▸ hvalue)) fun b _ => ?_
        exact .pure (Value.Fits.boolean b)
  next =>
    exact .bind hleft fun a ha => .bind hright fun b hb => BinaryOp.safe_apply htakes ha hb

/-- A quantifier whose operands are safe is safe. -/
theorem safe_quantifier {serial : Nat} {quantifier : Quantifier} {element : Ty}
    {operands : List Expr}
    (hfault : Build.callFault? (Method.splitOperands (.sequence quantifier element) operands).1
      (.sequence quantifier element)
      (Method.splitOperands (.sequence quantifier element) operands).2 = none)
    (hoperands : ∀ e ∈ operands, SafeIn schema evaluator frames e) :
    Safe (·.Fits schema .boolean)
      (evaluator.evaluate frames (.call serial (.sequence quantifier element) operands)) := by
  obtain ⟨source, operand, rfl, hsource, hoperand⟩ := Build.operands_of_quantifier hfault
  have hvalue := (hoperands source (by simp)).value
  have hsafe := hoperands operand (by simp)
  simp only [evaluate]
  refine .bind hvalue fun value hfits => ?_
  refine .bind (safe_elements (hfits.of_accepts hsource)) fun elements helements => ?_
  cases quantifier with
  | contains => exact .bind hsafe.value fun needle _ => .pure (Value.Fits.boolean _)
  | any =>
      refine .bind (hsafe.predicate .any element (hoperand (by decide))) fun test htest => ?_
      refine .bind (.anyM fun v hv => htest v (helements v hv)) fun found _ => ?_
      exact .pure (Value.Fits.boolean found)
  | all =>
      refine .bind (hsafe.predicate .all element (hoperand (by decide))) fun test htest => ?_
      refine .bind (.allM fun v hv => htest v (helements v hv)) fun holds _ => ?_
      exact .pure (Value.Fits.boolean holds)

/-- A lambda is safe as a predicate if its body is safe wherever what is free in it is bound. -/
theorem safeIn_lambda {serial : Nat} {params : List Parameter} {body : Expr}
    (hframes : ∀ p, Expr.OccursFree p (.lambda serial params body) → frames.Binds schema p)
    (hbody : ∀ {inner : Frames}, (∀ p, Expr.OccursFree p body → inner.Binds schema p) →
      SafeIn schema evaluator inner body) :
    SafeIn schema evaluator frames (.lambda serial params body) := by
  refine ⟨.fail rfl, fun quantifier element haccepts => ?_⟩
  obtain ⟨param, result, htype, hparam, hresult⟩ := Ty.eq_of_accepts_function haccepts
  rw [Expr.type, Ty.function.injEq] at htype
  obtain ⟨hparams, htype⟩ := htype
  obtain ⟨p, rfl, rfl⟩ := List.map_eq_singleton_iff.mp hparams
  have hboolean : body.type = .boolean := htype.trans (Ty.accepts_boolean_iff.mp hresult)
  refine .pure fun value hvalue => ?_
  -- What is free in the body is the parameter, or it is free in the lambda as well.
  have hinner : ∀ q, Expr.OccursFree q body →
      Frames.Binds schema (⟨[p], [value]⟩ :: frames) q := by
    intro q hq
    by_cases hqp : q = p
    · subst hqp
      exact ⟨value, Frames.lookup_cons_self value, hvalue.of_accepts hparam⟩
    · obtain ⟨v, hv, hfits⟩ := hframes q (.lambda (by simpa using hqp) hq)
      exact ⟨v, (Frames.lookup_cons_of_notMem (by simpa using hqp)).trans hv, hfits⟩
  exact .bind (hbody hinner).value fun result hresult => safe_truth (hboolean ▸ hresult)

/-- **What keeps to a schema is safe in frames that bind its free parameters.** -/
theorem safeIn_of_keepsTo {e : Expr} (hwell : e.WellFormed)
    (hkeeps : ∀ n ∈ e.nodes, n.KeepsTo schema evaluator)
    (hframes : ∀ p, Expr.OccursFree p e → frames.Binds schema p) :
    SafeIn schema evaluator frames e := by
  induction e generalizing frames with
  | constant serial value type =>
      exact .of_value (.pure (hkeeps _ (Expr.mem_nodes_self _))) rfl
  | parameter p =>
      obtain ⟨value, hvalue, hfits⟩ := hframes p .parameter
      refine .of_value ?_ rfl
      rw [evaluate, hvalue]
      exact .pure hfits
  | member serial target name type ih =>
      rw [Expr.nodes, List.forall_mem_cons] at hkeeps
      have htarget := (ih (Expr.wellFormed_member.mp hwell).2 hkeeps.2
        fun p hp => hframes p (.member hp)).value
      refine .of_value ?_ rfl
      rw [evaluate]
      exact .bind htarget fun value hvalue => safe_member hkeeps.1 hvalue
  | call serial method operands ih =>
      rw [Expr.nodes, List.forall_mem_cons, Expr.nodesAll_eq_flatMap] at hkeeps
      obtain ⟨hfault, hoperands⟩ := Expr.wellFormed_call.mp hwell
      have ih := fun e he => ih e he (hoperands e he)
        (fun n hn => hkeeps.2 n (List.mem_flatMap_of_mem he hn))
        fun p hp => hframes p (.call he hp)
      refine .of_value ?_ rfl
      cases method with
      | declared name form params result =>
          simp only [evaluate]
          split
          next => exact .fail rfl
          next function hfunction =>
            refine .bind (safe_evaluateAll fun e he => (ih e he).value) fun args _ => ?_
            exact safe_callNative (hkeeps.1 function hfunction)
      | sequence quantifier element => exact safe_quantifier hfault ih
  | unary serial op operand ih =>
      rw [Expr.nodes, List.forall_mem_cons] at hkeeps
      obtain ⟨htype, hoperand⟩ := Expr.wellFormed_unary.mp hwell
      have hoperand := (ih hoperand hkeeps.2 fun p hp => hframes p (.unary hp)).value
      have htype : operand.type = op.resultType := by simpa [UnaryOp.outputType?] using htype
      refine .of_value ?_ rfl
      rw [evaluate]
      exact .bind hoperand fun value hvalue => UnaryOp.safe_apply (htype ▸ hvalue)
  | binary serial op left right ihl ihr =>
      rw [Expr.nodes, List.forall_mem_cons, List.forall_mem_append] at hkeeps
      obtain ⟨htakes, hleft, hright⟩ := Expr.wellFormed_binary.mp hwell
      have hleft := (ihl hleft hkeeps.2.1 fun p hp => hframes p (.left hp)).value
      have hright := (ihr hright hkeeps.2.2 fun p hp => hframes p (.right hp)).value
      have htakes : op.takes left.type right.type = true := by
        simpa [BinaryOp.outputType?] using htakes
      exact .of_value (safe_binary htakes hleft hright) rfl
  | lambda serial params body ih =>
      rw [Expr.nodes, List.forall_mem_cons] at hkeeps
      exact safeIn_lambda hframes fun hinner => ih (Expr.wellFormed_lambda.mp hwell).2 hkeeps.2 hinner

end Evaluator

/-- **Type soundness.** Take an expression that was built and keeps to a schema, and frames that bind
its free parameters to values that fit. From every history, if it is evaluated to a value then the
value fits its type, and if evaluation fails then for a reason that types do not rule out. -/
theorem Workspace.Reachable.evaluate_sound {w : Workspace} (hw : w.Reachable) {e : Expr}
    (he : e ∈ w.exprs) {schema : Schema} {evaluator : Evaluator}
    (hkeeps : ∀ n ∈ e.nodes, n.KeepsTo schema evaluator) {frames : Frames}
    (hframes : ∀ p ∈ e.free, frames.Binds schema p) (history : History) :
    (∀ value, ((evaluator.evaluate frames e).runAfter history).1 = .ok value →
      value.Fits schema e.type) ∧
    ∀ fault, ((evaluator.evaluate frames e).runAfter history).1 = .error fault →
      fault.isTypeFault = false := by
  have hwell := (hw.sound.exprs e he).wellFormed
  have hsafe := (Evaluator.safeIn_of_keepsTo hwell hkeeps
    fun p hp => hframes p (Expr.mem_free.mpr hp)).value history
  revert hsafe
  cases ((evaluator.evaluate frames e).runAfter history).1 with
  | ok value => simp
  | error fault => simp

namespace Workspace.Orders

/-- Orders have a total and a list of prices. -/
def schema : Schema
  | "Order", "Total" => some .int32
  | "Order", "Prices" => some (.sequence .int32)
  | _, _ => none

def x : Parameter := ⟨0, some "x", .entity "Order"⟩

def i : Parameter := ⟨1, some "i", .int32⟩

/-- An order of 120 with the prices 20 and 100. -/
def order : Value :=
  .record "Order" [("Prices", .list [.int32 20, .int32 100]), ("Total", .int32 120)]

def total : Expr := .member 0 (.parameter x) "Total" .int32

def below : Expr := .binary 1 .lt (.parameter i) total

def prices : Expr := .member 3 (.parameter x) "Prices" (.sequence .int32)

/-- That some price is below the total: `x.Prices.Any(i => (i < x.Total))`. -/
def somePriceBelow : Expr :=
  .call 4 (.sequence .any .int32) [prices, .lambda 2 [i] below]

def workspace : Workspace where
  session := { serials := 5, parameters := 2 }
  exprs := [somePriceBelow, prices, .lambda 2 [i] below, below, total, .parameter i, .parameter x]
  lambdas := [⟨[i], below⟩]

theorem reachable : workspace.Reachable := by
  have hparameters : Reachable ⟨{ parameters := 2 }, [.parameter i, .parameter x], []⟩ :=
    .step (.step .start (.built (.parameter (some "x") (.entity "Order")) rfl))
      (.built (.parameter (some "i") .int32) rfl)
  have htotal : Reachable ⟨{ serials := 1, parameters := 2 },
      [total, .parameter i, .parameter x], []⟩ :=
    .step hparameters (.built (@Builds.member _ (.parameter x) "Total" .int32 (by simp)) rfl)
  have hbelow : Reachable ⟨{ serials := 2, parameters := 2 },
      [below, total, .parameter i, .parameter x], []⟩ :=
    .step htotal (.built (@Builds.binary _ (.parameter i) total .lt (by simp) (by simp)) rfl)
  have hlambda : Reachable ⟨{ serials := 2, parameters := 2 },
      [below, total, .parameter i, .parameter x], [⟨[i], below⟩]⟩ :=
    .step hbelow (.builtLambda (@BuildsLambda.lambda _ [i] below (by simp) (by simp)) rfl)
  have htest : Reachable ⟨{ serials := 3, parameters := 2 },
      [.lambda 2 [i] below, below, total, .parameter i, .parameter x], [⟨[i], below⟩]⟩ :=
    .step hlambda (.built (@Builds.toExpr _ ⟨[i], below⟩ (by simp)) rfl)
  have hprices : Reachable ⟨{ serials := 4, parameters := 2 },
      [prices, .lambda 2 [i] below, below, total, .parameter i, .parameter x], [⟨[i], below⟩]⟩ :=
    .step htest (.built (@Builds.member _ (.parameter x) "Prices" (.sequence .int32) (by simp)) rfl)
  exact .step hprices (.built (@Builds.call _ none [prices, .lambda 2 [i] below]
    (.sequence .any .int32) (by simp)) rfl)

theorem fits_order : order.Fits schema (.entity "Order") := by
  refine .record fun name value type hget hschema => ?_
  simp only [Record.get?, List.lookup_cons, List.lookup_nil] at hget
  split at hget
  next hname =>
    obtain rfl := eq_of_beq hname
    obtain rfl := Option.some.inj hget
    obtain rfl := Option.some.inj hschema
    refine .list fun price hprice => ?_
    rcases List.mem_pair.mp hprice with rfl | rfl <;> exact .int32 _
  next =>
    split at hget
    next hname =>
      obtain rfl := eq_of_beq hname
      obtain rfl := Option.some.inj hget
      obtain rfl := Option.some.inj hschema
      exact .int32 120
    next => cases hget

theorem keepsTo_schema : ∀ n ∈ somePriceBelow.nodes, n.KeepsTo schema {} := by
  have htotal : total.KeepsTo schema {} := Or.inr (Or.inr ⟨"Order", .int32, rfl, rfl, rfl⟩)
  have hprices : prices.KeepsTo schema {} :=
    Or.inr (Or.inr ⟨"Order", .sequence .int32, rfl, rfl, rfl⟩)
  have hnodes : somePriceBelow.nodes = [somePriceBelow, prices, .parameter x, .lambda 2 [i] below,
      below, .parameter i, total, .parameter x] := rfl
  simp only [hnodes, List.forall_mem_cons]
  exact ⟨trivial, hprices, trivial, trivial, trivial, trivial, htotal, trivial, by simp⟩

theorem binds_free : ∀ p ∈ somePriceBelow.free, Frames.Binds schema [⟨[x], [order]⟩] p := by
  have hfree : somePriceBelow.free = [x] := rfl
  intro p hp
  obtain rfl := List.mem_singleton.mp (hfree ▸ hp)
  exact ⟨order, Frames.lookup_cons_self order, fits_order⟩

/-- Looking for a price below the total of an order is sound. -/
theorem evaluate_somePriceBelow :
    (∀ value, ((Evaluator.evaluate {} [⟨[x], [order]⟩] somePriceBelow).runAfter #[]).1 = .ok value →
      value.Fits schema .boolean) ∧
    ∀ fault, ((Evaluator.evaluate {} [⟨[x], [order]⟩] somePriceBelow).runAfter #[]).1
      = .error fault → fault.isTypeFault = false :=
  reachable.evaluate_sound (by simp [workspace]) keepsTo_schema binds_free #[]

end Workspace.Orders

end ExprTree
