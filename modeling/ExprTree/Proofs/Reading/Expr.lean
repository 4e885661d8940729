/-
# Reading expressions

What the printed form of an expression says: names instead of parameters, no types, no serials, and a
sign in front of a number instead of a negative constant. A reader gets it from the printed form if
names are names and what a method is called on needs no brackets, so expressions that print alike say
the same.
-/
import ExprTree.Proofs.Printing
import ExprTree.Proofs.Reading.Value
import ExprTree.Proofs.WellFormed

namespace ExprTree

open Text

/-! ## What a printed form says -/

/-- What the printed form of an expression says. -/
inductive Reading where
  | value (value : Value)
  | number (n : Nat)
  | name (name : String)
  | member (target : Reading) (name : String)
  | call (name : String) (args : List Reading)
  /-- A call written behind its receiver, which may be a target or a first argument. -/
  | send (receiver : Reading) (name : String) (args : List Reading)
  | signed (op : UnaryOp) (operand : Reading)
  | binary (op : BinaryOp) (left right : Reading)
  | lambda (params : List String) (body : Reading)

namespace Expr

mutual

/-- What an expression says when it is printed. -/
def reading : Expr → Reading
  | .constant _ (.int32 n) _ =>
      if n < 0 then .signed .negate (.number n.toInt.natAbs) else .number n.toInt.natAbs
  | .constant _ value _ => .value value
  | .parameter p => .name p.print
  | .member _ target name _ => .member target.reading name
  | .call _ method operands =>
      match method.form, readingAll operands with
      | .static, args => .call method.name args
      | _, [] => .call method.name []
      | _, receiver :: args => .send receiver method.name args
  | .unary _ op operand => .signed op operand.reading
  | .binary _ op left right => .binary op left.reading right.reading
  | .lambda _ params body => .lambda (params.map Parameter.print) body.reading

/-- What several expressions say. -/
def readingAll : List Expr → List Reading
  | [] => []
  | e :: es => e.reading :: readingAll es

end

theorem readingAll_eq_map (es : List Expr) : readingAll es = es.map reading := by
  induction es with
  | nil => rfl
  | cons e es ih => rw [readingAll, ih]; rfl

end Expr

/-! ## The reader -/

namespace Expr

variable (item : Reader Reading)

/-- Read arguments up to the closing bracket. -/
def readArgs : Reader (List Reading) := fun text =>
  match readList item text with
  | (args, ')' :: rest) => some (args, rest)
  | _ => none

/-- Read the members and the calls written behind an expression. Nothing read is taken to leave a
longer rest than it found. -/
def readSuffixes (start : Reading) (text : List Char) : Option (Reading × List Char) :=
  match text with
  | '.' :: text =>
      match readName text with
      | (name, '(' :: front) =>
          match readArgs item front with
          | none => none
          | some (args, rest) =>
              if rest.length ≤ text.length then readSuffixes (.send start name args) rest else none
      | (name, rest) =>
          if rest.length ≤ text.length then readSuffixes (.member start name) rest else none
  | text => some (start, text)
termination_by text.length
decreasing_by
  all_goals
    simp only [List.length_cons]
    omega

/-- Read the operator between two operands, up to the blank behind it. -/
def readOperator (text : List Char) : Option (BinaryOp × List Char) := do
  let op ← BinaryOp.forms.find? fun op => op.symbol.toList = text.takeWhile (· != ' ')
  return (op, (text.dropWhile (· != ' ')).tail)

/-- Read a lambda from behind its parameter list. -/
def readBody (params : List String) : Reader Reading := fun text =>
  match text with
  | ' ' :: '=' :: '>' :: ' ' :: text => do
      let (body, rest) ← item text
      return (.lambda params body, rest)
  | _ => none

/-- Read what begins with a bracket, from behind it: an operation, a bracketed operand of a sign, or a
lambda that does not have one parameter. -/
def readBracketed : Reader Reading := fun text =>
  match item text with
  | none =>
      match text with
      | ')' :: text => readBody item [] text
      | _ => none
  | some (first, ' ' :: rest) => do
      let (op, rest) ← readOperator rest
      let (right, rest) ← item rest
      match rest with
      | ')' :: rest => readSuffixes item (.binary op first right) rest
      | _ => none
  | some (first, ')' :: rest) => readSuffixes item first rest
  | some (Reading.name p, rest) =>
      match readMore (fun text => some (readName text)) rest with
      | some (ps, ')' :: rest) => readBody item (p :: ps) rest
      | _ => none
  | _ => none

/-- Read what begins with a name. Only a record has an opening brace behind its name. -/
def readNamed (depth : Nat) : Reader Reading := fun text =>
  match readName text with
  | (name, rest) =>
      if name = "" then none
      else match rest with
        | '(' :: rest => do
            let (args, rest) ← readArgs item rest
            readSuffixes item (.call name args) rest
        | ' ' :: '\x7b' :: _ => do
            let (value, rest) ← Value.read depth text
            readSuffixes item (.value value) rest
        | ' ' :: '=' :: '>' :: _ => readBody item [name] rest
        | _ =>
            if name = "true" then readSuffixes item (.value (.boolean true)) rest
            else if name = "false" then readSuffixes item (.value (.boolean false)) rest
            else readSuffixes item (.name name) rest

/-- Read an expression in which expressions are nested less deep than `depth`. -/
def read (depth : Nat) : Reader Reading := fun text =>
  match depth, text with
  | depth + 1, c :: rest =>
      if c = '!' then do
        let (operand, rest) ← read depth rest
        return (.signed .not operand, rest)
      else if c = '-' then do
        let (operand, rest) ← read depth rest
        return (.signed .negate operand, rest)
      else if c = '(' then readBracketed (read depth) rest
      else if c = '"' then do
        let (value, rest) ← Value.read (depth + 1) text
        readSuffixes (read depth) (.value value) rest
      else if c.isDigit then
        let (n, rest) := readNumber text
        readSuffixes (read depth) (.number n) rest
      else readNamed (read depth) (depth + 1) text
  | _, _ => none

/-! ## What can follow -/

/-- What can follow an expression, whatever it is. -/
inductive Stop : List Char → Prop
  | nil : Stop []
  | comma (text : List Char) : Stop (',' :: text)
  | close (text : List Char) : Stop (')' :: text)
  | operator (op : BinaryOp) (text : List Char) : Stop (' ' :: (op.symbol.toList ++ ' ' :: text))

/-- What can follow an expression that stands alone. -/
inductive Follow : List Char → Prop
  | stop {text : List Char} : Stop text → Follow text
  | dot (text : List Char) : Follow ('.' :: text)

theorem Follow.ends {text : List Char} (h : Follow text) : Value.Ends text := by
  cases h with
  | dot => exact Value.ends_of_stops (by decide) (by decide)
  | stop h =>
      cases h with
      | nil => exact ⟨stops_nil, nofun⟩
      | comma | close => exact Value.ends_of_stops (by decide) (by decide)
      | operator op text =>
          refine ⟨stops_cons.mpr (by decide), ?_⟩
          intro rest heq
          cases op <;> simp [BinaryOp.symbol] at heq

theorem Stop.ends {text : List Char} (h : Stop text) : Value.Ends text :=
  (Follow.stop h).ends

section Parts

variable {item : Reader Reading} {text rest : List Char} {depth : Nat}

/-- Behind an expression that nothing is written behind, nothing is read. -/
theorem readSuffixes_stop {start : Reading} (h : Stop text) :
    readSuffixes item start text = some (start, text) := by
  rw [readSuffixes.eq_def]
  cases h <;> rfl

/-- A member written behind an expression is read. -/
theorem readSuffixes_member {start : Reading} {name : String} (hname : isName name = true)
    (htext : Follow text) : readSuffixes item start ('.' :: (name.toList ++ text))
      = readSuffixes item (.member start name) text := by
  have hlength : text.length ≤ (name.toList ++ text).length := by simp
  rw [readSuffixes, readName_append hname htext.ends.1]
  split
  next name front heq =>
    -- An argument list cannot follow a member.
    have hfront := congrArg Prod.snd heq
    cases htext with
    | stop h => cases h <;> cases hfront
    | dot => cases hfront
  next name rest _ heq =>
    obtain ⟨rfl, rfl⟩ := Prod.mk.inj heq
    rw [if_pos hlength]

/-- A call written behind its receiver is read if its arguments are. -/
theorem readSuffixes_send {start : Reading} {name : String} {args : List Reading}
    {front : List Char} (hname : isName name = true)
    (hargs : readArgs item (front ++ ')' :: text) = some (args, text)) :
    readSuffixes item start ('.' :: (name.toList ++ '(' :: (front ++ ')' :: text)))
      = readSuffixes item (.send start name args) text := by
  have hstops : Stops isNameChar ('(' :: (front ++ ')' :: text)) := stops_cons.mpr (by decide)
  have hlength : text.length ≤ (name.toList ++ '(' :: (front ++ ')' :: text)).length := by
    simp only [List.length_append, List.length_cons]
    omega
  rw [readSuffixes, readName_append hname hstops]
  simp only [hargs, if_pos hlength]

/-- Arguments are read back if each of them is. -/
theorem readArgs_print {es : List Expr} (hitem : ∀ e ∈ es, ∀ rest, Stop rest →
      item (e.print.toList ++ rest) = some (e.reading, rest))
    (hclose : item (')' :: text) = none) :
    readArgs item ((", ".intercalate (printAll es)).toList ++ ')' :: text)
      = some (readingAll es, text) := by
  have hlist := readList_intercalate hitem Stop.comma (Stop.close text) (fun _ => by simp) hclose
  rw [printAll_eq_map, readingAll_eq_map, readArgs]
  simp only [hlist]

/-- An operator is read back. -/
theorem readOperator_symbol (op : BinaryOp) :
    readOperator (op.symbol.toList ++ ' ' :: text) = some (op, text) := by
  cases op <;> simp [readOperator, BinaryOp.symbol, BinaryOp.forms]

/-- The body of a lambda is read behind its arrow. -/
theorem readBody_arrow {params : List String} {body : Reading}
    (h : item text = some (body, rest)) :
    readBody item params (' ' :: '=' :: '>' :: ' ' :: text) = some (.lambda params body, rest) := by
  simp [readBody, h]

/-! ## Names and brackets -/

theorem ne_empty_of_isName {name : String} (h : isName name = true) : name ≠ "" := by
  rintro rfl
  revert h
  decide

/-- Behind a name that stands alone nothing is read that changes what it is. -/
theorem readNamed_of_follow {name : String} (hname : isName name = true) (htext : Follow text) :
    readNamed item depth (name.toList ++ text) =
      if name = "true" then readSuffixes item (.value (.boolean true)) text
      else if name = "false" then readSuffixes item (.value (.boolean false)) text
      else readSuffixes item (.name name) text := by
  rw [readNamed, readName_append hname htext.ends.1]
  simp only [if_neg (ne_empty_of_isName hname)]
  cases htext with
  | dot => rfl
  | stop h =>
      cases h with
      | operator op => cases op <;> rfl
      | _ => rfl

/-- A name that is not written like a truth value is read back. -/
theorem readNamed_identifier {name : String} (hname : isIdentifier name = true)
    (htext : Follow text) :
    readNamed item depth (name.toList ++ text) = readSuffixes item (.name name) text := by
  simp only [isIdentifier, Bool.and_eq_true, bne_iff_ne] at hname
  obtain ⟨⟨hname, htrue⟩, hfalse⟩ := hname
  rw [readNamed_of_follow hname htext, if_neg htrue, if_neg hfalse]

/-- A call is read if its arguments are. -/
theorem readNamed_call {name : String} {args : List Reading} {front : List Char}
    (hname : isName name = true) (hargs : readArgs item front = some (args, text)) :
    readNamed item depth (name.toList ++ '(' :: front)
      = readSuffixes item (.call name args) text := by
  rw [readNamed, readName_append hname (stops_cons.mpr (by decide))]
  simp only [if_neg (ne_empty_of_isName hname), hargs]
  rfl

/-- A record is read back. -/
theorem readNamed_record {typeName : String} {fields : List (String × Value)}
    (hdepth : sizeOf (Value.record typeName fields) < depth)
    (hv : (Value.record typeName fields).isNamed = true) (htext : Follow text) :
    readNamed item depth ((Value.record typeName fields).print.toList ++ text)
      = readSuffixes item (.value (.record typeName fields)) text := by
  have hname : isName typeName = true := by
    simp only [Value.isNamed, Bool.and_eq_true] at hv
    exact hv.1
  have hvalue := Value.read_print hdepth hv htext.ends
  obtain ⟨front, hchars⟩ := Value.exists_toList_print_record typeName fields
  rw [hchars, List.append_assoc] at hvalue ⊢
  simp only [List.cons_append] at hvalue ⊢
  rw [readNamed, readName_append hname (stops_cons.mpr (by decide))]
  simp only [if_neg (ne_empty_of_isName hname), hvalue]
  rfl

/-- A lambda with one parameter is read if its body is. -/
theorem readNamed_lambda {name : String} {body : Reading} (hname : isName name = true)
    (hbody : item text = some (body, rest)) :
    readNamed item depth (name.toList ++ ' ' :: '=' :: '>' :: ' ' :: text)
      = some (.lambda [name] body, rest) := by
  rw [readNamed, readName_append hname (stops_cons.mpr (by decide))]
  simp only [if_neg (ne_empty_of_isName hname)]
  exact readBody_arrow hbody

/-- What begins with a name is read as that. -/
theorem read_of_name {name : String} (hname : isName name = true) :
    read (depth + 1) (name.toList ++ text) = readNamed (read depth) (depth + 1) (name.toList ++ text)
    := by
  obtain ⟨c, cs, hchars, hc, hdigit, -⟩ := isName_iff.mp hname
  rw [hchars, List.cons_append, read, if_neg (Value.isNameChar_ne hc (by decide)),
    if_neg (Value.isNameChar_ne hc (by decide)), if_neg (Value.isNameChar_ne hc (by decide)),
    if_neg (Value.isNameChar_ne hc (by decide)), if_neg (by simp [hdigit])]

/-- A number is read back. -/
theorem read_number {n : Nat} (h : Stops Char.isDigit text) :
    read (depth + 1) (Nat.toDigits 10 n ++ text) = readSuffixes (read depth) (.number n) text := by
  obtain ⟨c, cs, hchars, hdigit, hc⟩ := exists_toDigits_eq_cons n
  have hnumber : readNumber (Nat.toDigits 10 n ++ text) = (n, text) := readNumber_append h
  rw [hchars] at hnumber ⊢
  rw [List.cons_append, read, if_neg (Value.isNameChar_ne hc (by decide)),
    if_neg (Value.isNameChar_ne hc (by decide)), if_neg (Value.isNameChar_ne hc (by decide)),
    if_neg (Value.isNameChar_ne hc (by decide)), if_pos hdigit, ← List.cons_append, hnumber]

/-- No expression begins with a closing bracket. -/
theorem read_close : read depth (')' :: text) = none := by
  cases depth with
  | zero => rfl
  | succ depth =>
      rw [read, if_neg (by decide), if_neg (by decide), if_neg (by decide), if_neg (by decide),
        if_neg (by decide), readNamed, readName_of_stops (stops_cons.mpr (by decide))]
      rfl

/-- A bracketed expression is read if the expression is. -/
theorem readBracketed_group {front : List Char} {e : Reading}
    (h : item front = some (e, ')' :: text)) :
    readBracketed item front = readSuffixes item e text := by
  simp only [readBracketed, h]

/-- An operation is read if its operands are. -/
theorem readBracketed_binary {front : List Char} {op : BinaryOp} {left right : Reading}
    (hleft : item front = some (left, ' ' :: (op.symbol.toList ++ ' ' :: rest)))
    (hright : item rest = some (right, ')' :: text)) :
    readBracketed item front = readSuffixes item (.binary op left right) text := by
  simp only [readBracketed, hleft, readOperator_symbol, hright, Option.bind_eq_bind,
    Option.bind_some]

/-- A lambda without parameters is read if its body is. -/
theorem readBracketed_nil {body : Reading} (hclose : ∀ text, item (')' :: text) = none)
    (hbody : item text = some (body, rest)) :
    readBracketed item (')' :: ' ' :: '=' :: '>' :: ' ' :: text) = some (.lambda [] body, rest) := by
  simp only [readBracketed, hclose, readBody_arrow hbody]

/-- A lambda with several parameters is read if its body is. -/
theorem readBracketed_params {p q : Parameter} {params : List Parameter} {body : Reading}
    {front : List Char}
    (hfirst : item front = some (.name p.print, more Parameter.print (q :: params)
      ++ ')' :: ' ' :: '=' :: '>' :: ' ' :: text))
    (hnames : ∀ r ∈ q :: params, isName r.print = true) (hbody : item text = some (body, rest)) :
    readBracketed item front
      = some (.lambda ((p :: q :: params).map Parameter.print) body, rest) := by
  have hread : readMore (fun text => some (readName text)) (more Parameter.print (q :: params)
        ++ ')' :: ' ' :: '=' :: '>' :: ' ' :: text)
      = some ((q :: params).map Parameter.print, ')' :: ' ' :: '=' :: '>' :: ' ' :: text) := by
    have hname : ∀ r ∈ q :: params, ∀ rest, Stops isNameChar rest →
        some (readName (r.print.toList ++ rest)) = some (r.print, rest) := by
      intro r hr rest hrest
      rw [readName_append (hnames r hr) hrest]
    have hstops : ∀ c rest, isNameChar c = false → Stops isNameChar (c :: rest) :=
      fun c rest hc => stops_cons.mpr hc
    exact readMore_more hname (fun rest => hstops _ rest (by decide)) (hstops _ _ (by decide))
      (fun _ => by simp)
  simp only [more, List.flatMap_cons, List.cons_append] at hfirst hread
  simp only [readBracketed, hfirst]
  -- A comma behind the first name tells that names of parameters follow.
  change (match readMore _ _ with
    | some (ps, ')' :: rest) => readBody item (p.print :: ps) rest
    | _ => none) = _
  simp only [hread, readBody_arrow hbody, List.map_cons]

/-- A sign is read in front of its operand. -/
theorem read_sign {op : UnaryOp} {operand : Reading} (h : read depth text = some (operand, rest)) :
    read (depth + 1) (op.symbol.toList ++ text) = some (.signed op operand, rest) := by
  cases op with
  | not =>
      change read (depth + 1) ('!' :: text) = _
      rw [read, if_pos rfl, h]
      rfl
  | negate =>
      change read (depth + 1) ('-' :: text) = _
      rw [read, if_neg (by decide), if_pos rfl, h]
      rfl

theorem read_bracket : read (depth + 1) ('(' :: text) = readBracketed (read depth) text := by
  rw [read, if_neg (by decide), if_neg (by decide), if_pos rfl]

end Parts

end Expr

/-! ## Expressions that can be read back -/

/-- Whether a parameter has a name that can be read. -/
def Parameter.isLegible (p : Parameter) : Bool :=
  p.name.any isIdentifier

theorem Parameter.isIdentifier_print {p : Parameter} (h : p.isLegible = true) :
    isIdentifier p.print = true := by
  unfold isLegible at h
  unfold print
  cases hname : p.name with
  | none => simp [hname] at h
  | some name => simpa [hname] using h

theorem Parameter.isName_print {p : Parameter} (h : p.isLegible = true) : isName p.print = true := by
  have := isIdentifier_print h
  simp only [isIdentifier, Bool.and_eq_true] at this
  exact this.1.1

/-- Whether a method has a name that can be read. Only quantifiers have the names of quantifiers. -/
def Method.isLegible : Method → Bool
  | .declared name .. =>
      isIdentifier name && Quantifier.forms.all fun quantifier => name != quantifier.name
  | .sequence .. => true

theorem Method.name_ne_of_isLegible {name : String} {form : CallForm} {params : List Ty} {result : Ty}
    (h : (Method.declared name form params result).isLegible = true) (quantifier : Quantifier) :
    name ≠ quantifier.name := by
  simp only [isLegible, Bool.and_eq_true, List.all_eq_true, bne_iff_ne] at h
  exact h.2 quantifier (by cases quantifier <;> decide)

theorem Method.isName_name {method : Method} (h : method.isLegible = true) :
    isName method.name = true := by
  cases method with
  | declared name =>
      simp only [isLegible, isIdentifier, Bool.and_eq_true] at h
      exact h.1.1.1
  | sequence quantifier =>
      change isName quantifier.name = true
      cases quantifier <;> decide

namespace Expr

/-- Whether the names in a node can be read. -/
def isLegible : Expr → Bool
  | .constant _ value _ => value.isNamed
  | .parameter p => p.isLegible
  | .member _ _ name _ => isIdentifier name
  | .call _ method _ => method.isLegible
  | .unary .. | .binary .. => true
  | .lambda _ params _ => params.all Parameter.isLegible

/-- What a call is written behind, if anything. -/
def receiver? : Expr → Option Expr
  | .call _ method operands => if method.form = .static then none else operands.head?
  | _ => none

/-- Whether what is written behind the expression applies to the whole of it, without brackets. -/
def standsAlone (e : Expr) : Bool :=
  !e.startsWithSign && e.lambda?.isNone

/-- The names in the expression can be read, and they tell its parameters apart. -/
structure IsNamed (e : Expr) : Prop where
  legible : ∀ n ∈ e.nodes, n.isLegible = true
  apart : ∀ p ∈ e.parameters, ∀ q ∈ e.parameters, p.print = q.print → p = q

/-- No call in the expression is written behind a sign or a lambda. -/
def ReceiversStandAlone (e : Expr) : Prop :=
  ∀ n ∈ e.nodes, n.receiver?.all standsAlone = true

instance (e : Expr) : Decidable e.ReceiversStandAlone :=
  inferInstanceAs (Decidable (∀ n ∈ e.nodes, n.receiver?.all standsAlone = true))

/-- What it takes to read the expression back from its printed form. -/
structure Readable (e : Expr) : Prop where
  wellFormed : e.WellFormed
  named : e.IsNamed
  receivers : e.ReceiversStandAlone

theorem IsNamed.child {e child : Expr} (h : e.IsNamed) (hchild : child ∈ e.children) :
    child.IsNamed := by
  have hnode := mem_nodes_of_mem_children hchild
  have hparameters := parameters_subset hnode
  exact ⟨fun n hn => h.legible n (nodes_subset hnode hn),
    fun p hp q hq => h.apart p (hparameters hp) q (hparameters hq)⟩

theorem Readable.child {e child : Expr} (h : e.Readable) (hchild : child ∈ e.children) :
    child.Readable := by
  have hnode := mem_nodes_of_mem_children hchild
  exact ⟨h.wellFormed.of_mem_nodes hnode, h.named.child hchild,
    fun n hn => h.receivers n (nodes_subset hnode hn)⟩

/-- The printed form is read back, in front of anything that can follow. -/
structure ReadsBack (e : Expr) : Prop where
  alone : e.standsAlone = true → ∀ depth, sizeOf e ≤ depth → ∀ text, Follow text →
    read (depth + 1) (e.print.toList ++ text) = readSuffixes (read depth) e.reading text
  whole : ∀ depth, sizeOf e ≤ depth → ∀ text, Stop text →
    read (depth + 1) (e.print.toList ++ text) = some (e.reading, text)

namespace ReadsBack

variable {serial : Nat}

/-- What is read in front of members and calls is read where nothing of the kind follows. -/
theorem of_alone {e : Expr} (h : ∀ depth, sizeOf e ≤ depth → ∀ text, Follow text →
      read (depth + 1) (e.print.toList ++ text) = readSuffixes (read depth) e.reading text) :
    e.ReadsBack :=
  ⟨fun _ => h, fun depth hdepth text htext => by
    rw [h depth hdepth text (.stop htext), readSuffixes_stop htext]⟩

theorem of_prefixed {e : Expr} (halone : e.standsAlone = false)
    (h : ∀ depth, sizeOf e ≤ depth → ∀ text, Stop text →
      read (depth + 1) (e.print.toList ++ text) = some (e.reading, text)) : e.ReadsBack :=
  ⟨fun htrue => by simp [halone] at htrue, h⟩

/-- A reader that goes deep enough reads the expression back. -/
theorem item {e : Expr} (h : e.ReadsBack) {depth : Nat} (hdepth : sizeOf e < depth)
    {text : List Char} (htext : Stop text) :
    read depth (e.print.toList ++ text) = some (e.reading, text) := by
  obtain ⟨depth, rfl⟩ := Nat.exists_eq_add_one_of_ne_zero (Nat.ne_of_gt (Nat.zero_lt_of_lt hdepth))
  exact h.whole depth (Nat.le_of_lt_succ hdepth) text htext

theorem constant_boolean {b : Bool} {type : Ty} :
    (Expr.constant serial (.boolean b) type).ReadsBack := by
  have hname : isName (Value.boolean b).print = true := by cases b <;> decide
  apply of_alone
  intro depth _ text htext
  rw [print, read_of_name hname, readNamed_of_follow hname htext]
  cases b <;> rfl

/-- A negative constant is read as a sign and a number, other integers as a number. -/
theorem constant_int32 {n : Int32} {type : Ty} :
    (Expr.constant serial (.int32 n) type).ReadsBack := by
  by_cases hneg : n < 0
  · have halone : (Expr.constant serial (.int32 n) type).standsAlone = false := by
      simp [standsAlone, startsWithSign, hneg]
    apply of_prefixed halone
    intro depth hdepth text htext
    obtain ⟨depth, rfl⟩ : ∃ d, depth = d + 1 := by
      simp only [constant.sizeOf_spec] at hdepth
      exact ⟨depth - 1, by omega⟩
    have hnumber : read (depth + 1) (Nat.toDigits 10 n.toInt.natAbs ++ text)
        = some (.number n.toInt.natAbs, text) := by
      rw [read_number htext.ends.stops_isDigit, readSuffixes_stop htext]
    rw [print, Value.toList_print_int32, if_pos hneg, reading, if_pos hneg]
    exact @read_sign _ _ _ .negate _ hnumber
  · apply of_alone
    intro depth _ text htext
    rw [print, Value.toList_print_int32, if_neg hneg, reading, if_neg hneg,
      read_number htext.ends.stops_isDigit]

theorem constant_string {chars : String} {type : Ty} :
    (Expr.constant serial (.string chars) type).ReadsBack := by
  apply of_alone
  intro depth _ text _
  have hvalue := @Value.read_string Text.isUnprintable depth chars text
  rw [print, ← Value.printWith_isUnprintable]
  rw [Value.toList_printWith_string, List.cons_append] at hvalue ⊢
  rw [read, if_neg (by decide), if_neg (by decide), if_neg (by decide), if_pos rfl, hvalue]
  rfl

theorem constant_record {typeName : String} {fields : List (String × Value)} {type : Ty}
    (hnamed : (Value.record typeName fields).isNamed = true) :
    (Expr.constant serial (.record typeName fields) type).ReadsBack := by
  apply of_alone
  intro depth hdepth text htext
  have hsize : sizeOf (Value.record typeName fields) < depth + 1 := by
    simp only [constant.sizeOf_spec] at hdepth
    omega
  have hname : isName typeName = true := by
    simp only [Value.isNamed, Bool.and_eq_true] at hnamed
    exact hnamed.1
  have hread := @readNamed_record (read depth) text (depth + 1) _ _ hsize hnamed htext
  obtain ⟨rest, hrest⟩ := Value.exists_toList_print_record typeName fields
  rw [print]
  rw [hrest, List.append_assoc] at hread ⊢
  rw [read_of_name hname, hread]
  rfl

theorem constant {value : Value} {type : Ty} (hchecked : (Expr.constant serial value type).Checked)
    (hnamed : value.isNamed = true) : (Expr.constant serial value type).ReadsBack := by
  cases value with
  | boolean => exact constant_boolean
  | int32 => exact constant_int32
  | string => exact constant_string
  | record => exact constant_record hnamed
  | list => simp [Checked, Value.type?] at hchecked

theorem parameter {p : Parameter} (hp : p.isLegible = true) : (Expr.parameter p).ReadsBack := by
  apply of_alone
  intro depth _ text htext
  rw [print, read_of_name (Parameter.isName_print hp),
    readNamed_identifier (Parameter.isIdentifier_print hp) htext]
  rfl

/-- The type of a member's target rules out that it begins with a sign or is a lambda. -/
theorem standsAlone_of_hasMembers {target : Expr} (hchecked : target.Checked)
    (h : target.type.hasMembers = true) : target.standsAlone = true := by
  cases target with
  | constant _ value type =>
      cases value with
      | int32 n =>
          obtain rfl : Ty.int32 = type := by simpa [Checked, Value.type?] using hchecked
          simp [type, Ty.hasMembers] at h
      | _ => rfl
  | unary _ op => cases op <;> simp [type, UnaryOp.resultType, Ty.hasMembers] at h
  | lambda => simp [type, Ty.hasMembers] at h
  | _ => rfl

theorem member {target : Expr} {name : String} {type : Ty} (htarget : target.ReadsBack)
    (halone : target.standsAlone = true) (hname : isIdentifier name = true) :
    (Expr.member serial target name type).ReadsBack := by
  simp only [isIdentifier, Bool.and_eq_true] at hname
  apply of_alone
  intro depth hdepth text htext
  have hsize : sizeOf target ≤ depth := by
    simp only [member.sizeOf_spec] at hdepth
    omega
  have hchars : (Expr.member serial target name type).print.toList ++ text
      = target.print.toList ++ '.' :: (name.toList ++ text) := by
    simp [print]
  rw [hchars, htarget.alone halone depth hsize _ (.dot _), readSuffixes_member hname.1.1 htext]
  rfl

/-- The arguments of a call are read back if each of them is. -/
theorem args {es : List Expr} (h : ∀ e ∈ es, e.ReadsBack) {depth : Nat} (hdepth : sizeOf es ≤ depth)
    (text : List Char) :
    readArgs (read depth) ((", ".intercalate (printAll es)).toList ++ ')' :: text)
      = some (readingAll es, text) := by
  refine readArgs_print (fun e he rest hrest => (h e he).item ?_ hrest) read_close
  exact Nat.lt_of_lt_of_le (List.sizeOf_lt_of_mem he) hdepth

theorem call_static {method : Method} {operands : List Expr} (hmethod : method.isLegible = true)
    (hform : method.form = .static) (hoperands : ∀ e ∈ operands, e.ReadsBack) :
    (Expr.call serial method operands).ReadsBack := by
  apply of_alone
  intro depth hdepth text htext
  have hsize : sizeOf operands ≤ depth := by
    simp only [call.sizeOf_spec] at hdepth
    omega
  have hchars : (Expr.call serial method operands).print.toList ++ text
      = method.name.toList ++ '(' :: ((", ".intercalate (printAll operands)).toList
        ++ ')' :: text) := by
    simp [print, Method.printCall, hform]
  have hreading : (Expr.call serial method operands).reading
      = .call method.name (readingAll operands) := by
    simp [reading, hform]
  rw [hchars, read_of_name (Method.isName_name hmethod),
    readNamed_call (Method.isName_name hmethod) (args hoperands hsize text), hreading]

theorem call_behind {method : Method} {receiver : Expr} {others : List Expr}
    (hmethod : method.isLegible = true) (hform : method.form ≠ .static)
    (halone : receiver.standsAlone = true) (hreceiver : receiver.ReadsBack)
    (hothers : ∀ e ∈ others, e.ReadsBack) :
    (Expr.call serial method (receiver :: others)).ReadsBack := by
  apply of_alone
  intro depth hdepth text htext
  have hsizes : sizeOf (receiver :: others) = 1 + sizeOf receiver + sizeOf others := rfl
  simp only [call.sizeOf_spec] at hdepth
  have hchars : (Expr.call serial method (receiver :: others)).print.toList ++ text
      = receiver.print.toList ++ '.' :: (method.name.toList ++
        '(' :: ((", ".intercalate (printAll others)).toList ++ ')' :: text)) := by
    cases hcases : method.form with
    | static => exact absurd hcases hform
    | _ => simp [print, printAll, Method.printCall, hcases]
  have hreading : (Expr.call serial method (receiver :: others)).reading
      = .send receiver.reading method.name (readingAll others) := by
    cases hcases : method.form with
    | static => exact absurd hcases hform
    | _ => simp [reading, readingAll, hcases]
  have hargs := args hothers (show sizeOf others ≤ depth by omega) text
  rw [hchars, hreceiver.alone halone depth (by omega) _ (.dot _),
    readSuffixes_send (Method.isName_name hmethod) hargs, hreading]

/-- A method that is called behind a receiver has one. -/
theorem ne_nil_of_checked {method : Method} {operands : List Expr}
    (hchecked : (Expr.call serial method operands).Checked) (hform : method.form ≠ .static) :
    operands ≠ [] := by
  rintro rfl
  simp only [Checked, Method.splitOperands, Build.callFault?_eq_none_iff] at hchecked
  obtain ⟨htarget, hparams, hargs⟩ := hchecked
  cases hcases : method.form with
  | static => exact hform hcases
  | onTarget => simp [hcases] at htarget
  | extension =>
      obtain ⟨param, params, hcons⟩ := List.exists_cons_of_ne_nil (hparams hcases)
      simp [hcons, hcases] at hargs

theorem call {method : Method} {operands : List Expr}
    (hchecked : (Expr.call serial method operands).Checked) (hmethod : method.isLegible = true)
    (halone : (Expr.call serial method operands).receiver?.all standsAlone = true)
    (hoperands : ∀ e ∈ operands, e.ReadsBack) : (Expr.call serial method operands).ReadsBack := by
  by_cases hform : method.form = .static
  · exact call_static hmethod hform hoperands
  · obtain ⟨receiver, others, rfl⟩ := List.exists_cons_of_ne_nil (ne_nil_of_checked hchecked hform)
    have hreceiver : receiver.standsAlone = true := by simpa [receiver?, hform] using halone
    obtain ⟨hfirst, hothers⟩ := List.forall_mem_cons.mp hoperands
    exact call_behind hmethod hform hreceiver hfirst hothers

theorem unary {op : UnaryOp} {operand : Expr} (hoperand : operand.ReadsBack) :
    (Expr.unary serial op operand).ReadsBack := by
  apply of_prefixed rfl
  intro depth hdepth text htext
  have hop : sizeOf op = 1 := by cases op <;> rfl
  simp only [unary.sizeOf_spec, hop] at hdepth
  rw [print]
  split
  next =>
    obtain ⟨depth, rfl⟩ : ∃ d, depth = d + 1 := ⟨depth - 1, by omega⟩
    have hread : read (depth + 1) ('(' :: (operand.print.toList ++ ')' :: text))
        = some (operand.reading, text) := by
      rw [read_bracket, readBracketed_group (hoperand.item (by omega) (.close text)),
        readSuffixes_stop htext]
    have hchars : (op.symbol ++ "(" ++ operand.print ++ ")").toList ++ text
        = op.symbol.toList ++ '(' :: (operand.print.toList ++ ')' :: text) := by
      simp
    rw [hchars]
    exact read_sign hread
  next =>
    have hread := hoperand.item (show sizeOf operand < depth by omega) htext
    rw [String.toList_append, List.append_assoc]
    exact read_sign hread

theorem binary {op : BinaryOp} {left right : Expr} (hleft : left.ReadsBack)
    (hright : right.ReadsBack) : (Expr.binary serial op left right).ReadsBack := by
  apply of_alone
  intro depth hdepth text htext
  have hop : sizeOf op = 1 := by cases op <;> rfl
  simp only [binary.sizeOf_spec, hop] at hdepth
  have hchars : (Expr.binary serial op left right).print.toList ++ text
      = '(' :: (left.print.toList ++ ' ' :: (op.symbol.toList ++ ' ' ::
        (right.print.toList ++ ')' :: text))) := by
    simp [print]
  rw [hchars, read_bracket, readBracketed_binary (hleft.item (by omega) (.operator op _))
    (hright.item (by omega) (.close text))]
  rfl

theorem lambda {params : List Parameter} {body : Expr}
    (hparams : ∀ p ∈ params, p.isLegible = true) (hbody : body.ReadsBack) :
    (Expr.lambda serial params body).ReadsBack := by
  apply of_prefixed rfl
  intro depth hdepth text htext
  simp only [lambda.sizeOf_spec] at hdepth
  have hread := hbody.item (show sizeOf body < depth by omega) htext
  rcases params with _ | ⟨p, _ | ⟨q, params⟩⟩
  · have hchars : (Expr.lambda serial [] body).print.toList ++ text
        = '(' :: ')' :: ' ' :: '=' :: '>' :: ' ' :: (body.print.toList ++ text) := by
      simp [print, printParams]
    rw [hchars, read_bracket, readBracketed_nil (fun _ => read_close) hread]
    rfl
  · have hchars : (Expr.lambda serial [p] body).print.toList ++ text
        = p.print.toList ++ ' ' :: '=' :: '>' :: ' ' :: (body.print.toList ++ text) := by
      simp [print, printParams]
    have hp := Parameter.isName_print (hparams p List.mem_cons_self)
    rw [hchars, read_of_name hp, readNamed_lambda hp hread]
    rfl
  · have hchars : (Expr.lambda serial (p :: q :: params) body).print.toList ++ text
        = '(' :: (p.print.toList ++ (more Parameter.print (q :: params) ++
          ')' :: ' ' :: '=' :: '>' :: ' ' :: (body.print.toList ++ text))) := by
      simp only [print, printParams, String.toList_append, toList_intercalate]
      simp
    have hsize : sizeOf (Expr.parameter p) < depth := by
      have hparam : sizeOf (Expr.parameter p) = 1 + sizeOf p := rfl
      have hall : sizeOf (p :: q :: params) = 1 + sizeOf p + (1 + sizeOf q + sizeOf params) := rfl
      omega
    have hfirst : read depth (p.print.toList ++ (more Parameter.print (q :: params) ++
          ')' :: ' ' :: '=' :: '>' :: ' ' :: (body.print.toList ++ text)))
        = some (.name p.print, more Parameter.print (q :: params) ++
          ')' :: ' ' :: '=' :: '>' :: ' ' :: (body.print.toList ++ text)) :=
      (parameter (hparams p List.mem_cons_self)).item hsize (.comma _)
    rw [hchars, read_bracket, readBracketed_params hfirst
      (fun r hr => Parameter.isName_print (hparams r (List.mem_cons_of_mem _ hr))) hread]
    rfl

end ReadsBack

/-- **Readable expressions are read back.** -/
theorem Readable.readsBack {e : Expr} (h : e.Readable) : e.ReadsBack := by
  induction e with
  | constant =>
      exact .constant (h.wellFormed _ (mem_nodes_self _)) (h.named.legible _ (mem_nodes_self _))
  | parameter p => exact .parameter (h.named.legible _ (mem_nodes_self _))
  | member _ target _ _ ih =>
      have htarget := h.child List.mem_cons_self
      refine .member (ih htarget) ?_ (h.named.legible _ (mem_nodes_self _))
      exact ReadsBack.standsAlone_of_hasMembers (htarget.wellFormed _ (mem_nodes_self _))
        (h.wellFormed _ (mem_nodes_self _))
  | call _ _ operands ih =>
      exact .call (h.wellFormed _ (mem_nodes_self _)) (h.named.legible _ (mem_nodes_self _))
        (h.receivers _ (mem_nodes_self _)) fun e he => ih e he (h.child he)
  | unary _ _ operand ih => exact .unary (ih (h.child List.mem_cons_self))
  | binary _ _ left right ihl ihr =>
      exact .binary (ihl (h.child List.mem_cons_self))
        (ihr (h.child (List.mem_cons_of_mem _ List.mem_cons_self)))
  | lambda _ params body ih =>
      have hparams := List.all_eq_true.mp (h.named.legible _ (mem_nodes_self _))
      exact .lambda hparams (ih (h.child List.mem_cons_self))

/-- **Readable expressions that print alike say the same.** -/
theorem reading_eq_of_print_eq {e e' : Expr} (he : e.Readable) (he' : e'.Readable)
    (h : e.print = e'.print) : e.reading = e'.reading := by
  have hread := he.readsBack.whole (sizeOf e + sizeOf e') (by omega) [] .nil
  have hread' := he'.readsBack.whole (sizeOf e + sizeOf e') (by omega) [] .nil
  rw [h, hread'] at hread
  simpa using hread.symm

end Expr

end ExprTree
