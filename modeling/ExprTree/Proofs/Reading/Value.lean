/-
# Reading values

A reader of printed values. It reads back every value whose records and fields have names, in front of
anything but a character of a name and an opening brace. So such values print alike only if they are
the same, and that does not depend on the characters of texts that are written as code points.
-/
import ExprTree.Proofs.Reading.Text
import ExprTree.Value

namespace ExprTree

open Text

namespace Value

/-! ## Named values -/

mutual

/-- Whether all type names of records and all names of fields in a value are names. -/
def isNamed : Value → Bool
  | .boolean _ | .int32 _ | .string _ => true
  | .record typeName fields => isName typeName && isNamedFields fields
  | .list elements => isNamedAll elements

/-- Whether all names in a field table are names. -/
def isNamedFields : List (String × Value) → Bool
  | [] => true
  | (name, value) :: fields => isName name && value.isNamed && isNamedFields fields

/-- Whether all names in several values are names. -/
def isNamedAll : List Value → Bool
  | [] => true
  | value :: values => value.isNamed && isNamedAll values

end

theorem isNamedFields_iff {fields : List (String × Value)} :
    isNamedFields fields = true ↔
      ∀ field ∈ fields, isName field.1 = true ∧ field.2.isNamed = true := by
  induction fields with
  | nil => simp [isNamedFields]
  | cons field fields ih => simp [isNamedFields, ih, and_assoc]

theorem isNamedAll_iff {values : List Value} :
    isNamedAll values = true ↔ ∀ value ∈ values, value.isNamed = true := by
  induction values with
  | nil => simp [isNamedAll]
  | cons value values ih => simp [isNamedAll, ih]

/-! ## Printed forms -/

mutual

/-- The printed form of a value, for any choice of the further characters of texts that are written as
code points. -/
def printWith (escaped : Char → Bool) : Value → String
  | .boolean b => if b then "true" else "false"
  | .int32 n => toString n.toInt
  | .string text => quoteWith escaped text
  | .record typeName [] => typeName ++ " \x7b \x7d"
  | .record typeName fields =>
      typeName ++ " \x7b " ++ ", ".intercalate (printFieldsWith escaped fields) ++ " \x7d"
  | .list elements => "[" ++ ", ".intercalate (printAllWith escaped elements) ++ "]"

/-- The printed fields of a record. -/
def printFieldsWith (escaped : Char → Bool) : List (String × Value) → List String
  | [] => []
  | (name, value) :: fields =>
      (name ++ " = " ++ value.printWith escaped) :: printFieldsWith escaped fields

/-- The printed forms of several values. -/
def printAllWith (escaped : Char → Bool) : List Value → List String
  | [] => []
  | value :: values => value.printWith escaped :: printAllWith escaped values

end

mutual

/-- Printing writes the unprintable characters as code points. -/
theorem printWith_isUnprintable : ∀ v : Value, v.printWith isUnprintable = v.print
  | .boolean _ | .int32 _ | .record _ [] => rfl
  | .string text => quoteWith_isUnprintable text
  | .record _ (field :: fields) => by
      rw [printWith, print, printFieldsWith_isUnprintable (field :: fields)]
      all_goals exact List.cons_ne_nil _ _
  | .list elements => by rw [printWith, print, printAllWith_isUnprintable elements]

theorem printFieldsWith_isUnprintable :
    ∀ fields : List (String × Value), printFieldsWith isUnprintable fields = printFields fields
  | [] => rfl
  | (name, value) :: fields => by
      rw [printFieldsWith, printFields, printWith_isUnprintable value,
        printFieldsWith_isUnprintable fields]

theorem printAllWith_isUnprintable :
    ∀ values : List Value, printAllWith isUnprintable values = printAll values
  | [] => rfl
  | value :: values => by
      rw [printAllWith, printAll, printWith_isUnprintable value, printAllWith_isUnprintable values]

end

section Printed

variable {escaped : Char → Bool}

/-- The printed form of a field. -/
def printFieldWith (escaped : Char → Bool) (field : String × Value) : String :=
  field.1 ++ " = " ++ field.2.printWith escaped

theorem printFieldsWith_eq_map (fields : List (String × Value)) :
    printFieldsWith escaped fields = fields.map (printFieldWith escaped) := by
  induction fields with
  | nil => rfl
  | cons field fields ih => rw [printFieldsWith, ih]; rfl

theorem printAllWith_eq_map (values : List Value) :
    printAllWith escaped values = values.map (printWith escaped) := by
  induction values with
  | nil => rfl
  | cons value values ih => rw [printAllWith, ih]; rfl

/-- The printed form of an integer is that of its absolute value, behind a sign if it is negative. -/
theorem toList_print_int32 (n : Int32) :
    (print (.int32 n)).toList =
      if n < 0 then '-' :: Nat.toDigits 10 n.toInt.natAbs else Nat.toDigits 10 n.toInt.natAbs := by
  have hlt : n < 0 ↔ ¬ 0 ≤ n.toInt := by
    rw [Int32.lt_iff_toInt_lt, Int32.toInt_zero]
    exact Int.not_le.symm
  rw [print, Int.toString_eq_repr, Int.repr_eq_if]
  by_cases h : 0 ≤ n.toInt
  · have habs : n.toInt.toNat = n.toInt.natAbs := by omega
    rw [if_pos h, if_neg (by rw [hlt]; exact not_not_intro h), Nat.toList_repr, habs]
  · have habs : (-n.toInt).toNat = n.toInt.natAbs := by omega
    rw [if_neg h, if_pos (hlt.mpr h), String.toList_append, Nat.toList_repr, habs]
    rfl

theorem toList_printWith_string (chars : String) :
    (printWith escaped (.string chars)).toList
      = '"' :: (quoteCharsWith escaped chars.toList ++ ['"']) := by
  simp [printWith, quoteWith]

/-- A record begins with the name of its type and an opening brace. -/
theorem exists_toList_printWith_record (typeName : String) (fields : List (String × Value)) :
    ∃ rest, (printWith escaped (.record typeName fields)).toList
      = typeName.toList ++ ' ' :: '\x7b' :: rest := by
  cases fields <;> simp [printWith]

theorem exists_toList_print_record (typeName : String) (fields : List (String × Value)) :
    ∃ rest, (print (.record typeName fields)).toList = typeName.toList ++ ' ' :: '\x7b' :: rest := by
  rw [← printWith_isUnprintable]
  exact exists_toList_printWith_record typeName fields

/-- An integer is its absolute value, or the negation of that if it is negative. -/
theorem ofNat_natAbs (n : Int32) :
    (if n < 0 then -Int32.ofNat n.toInt.natAbs else Int32.ofNat n.toInt.natAbs) = n := by
  split
  next h =>
    have hlt : n.toInt < 0 := by simpa [Int32.lt_iff_toInt_lt] using h
    have habs : (n.toInt.natAbs : Int) = -n.toInt := by omega
    rw [← Int32.ofInt_eq_ofNat, habs, Int32.ofInt_neg, Int32.neg_neg, Int32.ofInt_toInt]
  next h =>
    have hle : 0 ≤ n.toInt := by
      have := mt Int32.lt_iff_toInt_lt.mpr h
      simpa using this
    have habs : (n.toInt.natAbs : Int) = n.toInt := by omega
    rw [← Int32.ofInt_eq_ofNat, habs, Int32.ofInt_toInt]

end Printed

/-! ## The reader -/

/-- Read a field of a record. -/
def readField (value : Reader Value) : Reader (String × Value) := fun text =>
  match readName text with
  | (name, ' ' :: '=' :: ' ' :: rest) => do
      let (v, rest) ← value rest
      return ((name, v), rest)
  | _ => none

/-- Read a value that begins with a name: a record or a truth value. -/
def readNamed (value : Reader Value) : Reader Value := fun text =>
  match readName text with
  | (name, ' ' :: '\x7b' :: ' ' :: rest) =>
      match readList (readField value) rest with
      | (fields, '\x7d' :: rest) | (fields, ' ' :: '\x7d' :: rest) => some (.record name fields, rest)
      | _ => none
  | (name, rest) =>
      if name = "true" then some (.boolean true, rest)
      else if name = "false" then some (.boolean false, rest)
      else none

/-- Read a value in which values are nested less deep than `depth`. -/
def read (depth : Nat) : Reader Value := fun text =>
  match depth, text with
  | depth + 1, c :: rest =>
      if c = '"' then do
        let (chars, rest) ← readQuoted rest
        return (.string (String.ofList chars), rest)
      else if c = '[' then
        match readList (read depth) rest with
        | (elements, ']' :: rest) => some (.list elements, rest)
        | _ => none
      else if c = '-' then
        let (n, rest) := readNumber rest
        some (.int32 (-Int32.ofNat n), rest)
      else if c.isDigit then
        let (n, rest) := readNumber text
        some (.int32 (Int32.ofNat n), rest)
      else readNamed (read depth) text
  | _, _ => none

/-! ## Reading back -/

/-- What can follow a value: no character of a name, and no opening brace behind a blank. -/
def Ends (text : List Char) : Prop :=
  Stops isNameChar text ∧ ∀ rest, text ≠ ' ' :: '\x7b' :: rest

theorem ends_nil : Ends [] :=
  ⟨stops_nil, fun _ heq => List.cons_ne_nil _ _ heq.symm⟩

theorem ends_of_stops {c : Char} {text : List Char} (h : isNameChar c = false) (hc : c ≠ ' ') :
    Ends (c :: text) :=
  ⟨stops_cons.mpr h, fun _ heq => hc (List.cons.inj heq).1⟩

theorem ends_close (text : List Char) : Ends (' ' :: '\x7d' :: text) :=
  ⟨stops_cons.mpr (by decide), fun _ heq => absurd (List.cons.inj (List.cons.inj heq).2).1 (by decide)⟩

theorem Ends.stops_isDigit {text : List Char} (h : Ends text) : Stops Char.isDigit text := by
  intro c hc
  have := h.1 c hc
  by_contra hdigit
  rw [Bool.not_eq_false] at hdigit
  rw [isNameChar_of_isDigit hdigit] at this
  cases this

variable {value : Reader Value} {escaped : Char → Bool}

/-- A field is read back if its value is. -/
theorem readField_printWith {field : String × Value} {text : List Char}
    (hname : isName field.1 = true)
    (hvalue : value ((field.2.printWith escaped).toList ++ text) = some (field.2, text)) :
    readField value ((printFieldWith escaped field).toList ++ text) = some (field, text) := by
  have hchars : (printFieldWith escaped field).toList ++ text
      = field.1.toList ++ ' ' :: '=' :: ' ' :: ((field.2.printWith escaped).toList ++ text) := by
    simp [printFieldWith]
  have hstops : Stops isNameChar (' ' :: '=' :: ' ' :: ((field.2.printWith escaped).toList ++ text)) :=
    stops_cons.mpr (by decide)
  rw [hchars, readField, readName_append hname hstops]
  simp [hvalue]

theorem readField_close (text : List Char) : readField value ('\x7d' :: text) = none := by
  rw [readField, readName_of_stops (stops_cons.mpr (by decide))]
  rfl

theorem readField_blank (text : List Char) : readField value (' ' :: '\x7d' :: text) = none := by
  rw [readField, readName_of_stops (stops_cons.mpr (by decide))]
  rfl

/-- A record is read back if the values of its fields are. -/
theorem readNamed_record {typeName : String} {fields : List (String × Value)} {text : List Char}
    (hname : isName typeName = true) (hfields : ∀ field ∈ fields, isName field.1 = true)
    (hvalues : ∀ field ∈ fields, ∀ rest, Ends rest →
      value ((field.2.printWith escaped).toList ++ rest) = some (field.2, rest)) :
    readNamed value ((printWith escaped (.record typeName fields)).toList ++ text)
      = some (.record typeName fields, text) := by
  have hstops : ∀ rest, Stops isNameChar (' ' :: '\x7b' :: ' ' :: rest) :=
    fun _ => stops_cons.mpr (by decide)
  cases hcases : fields with
  | nil =>
      have hchars : (printWith escaped (.record typeName [])).toList ++ text
          = typeName.toList ++ ' ' :: '\x7b' :: ' ' :: '\x7d' :: text := by
        simp [printWith]
      rw [hchars, readNamed, readName_append hname (hstops _)]
      simp [readList, readItems, readField_close]
  | cons field others =>
      have hchars : (printWith escaped (.record typeName (field :: others))).toList ++ text
          = typeName.toList ++ ' ' :: '\x7b' :: ' ' ::
            ((", ".intercalate ((field :: others).map (printFieldWith escaped))).toList
              ++ ' ' :: '\x7d' :: text) := by
        rw [printWith, printFieldsWith_eq_map]
        · simp
        · exact List.cons_ne_nil _ _
      have hlist : readList (readField value)
          ((", ".intercalate ((field :: others).map (printFieldWith escaped))).toList
            ++ ' ' :: '\x7d' :: text)
          = ((field :: others).map id, ' ' :: '\x7d' :: text) := by
        have hitem : ∀ f ∈ field :: others, ∀ rest, Ends rest →
            readField value ((printFieldWith escaped f).toList ++ rest) = some (f, rest) := by
          intro f hf rest hrest
          rw [← hcases] at hf
          exact readField_printWith (hfields f hf) (hvalues f hf rest hrest)
        have hcomma : ∀ rest, Ends (',' :: rest) :=
          fun rest => ends_of_stops (by decide) (by decide)
        exact readList_intercalate hitem hcomma (ends_close text) (fun _ => by simp)
          (readField_blank text)
      rw [List.map_id] at hlist
      rw [hchars, readNamed, readName_append hname (hstops _)]
      simp only [hlist]

/-- A truth value is written like a name. -/
theorem isName_printWith_boolean (b : Bool) : isName (printWith escaped (.boolean b)) = true := by
  have hprint : printWith escaped (.boolean b) = print (.boolean b) := rfl
  rw [hprint]
  cases b <;> decide

/-- A truth value is read back. -/
theorem readNamed_boolean {b : Bool} {text : List Char} (htext : Ends text) :
    readNamed value ((printWith escaped (.boolean b)).toList ++ text) = some (.boolean b, text) := by
  rw [readNamed, readName_append (isName_printWith_boolean b) htext.1]
  -- What follows is no opening brace, so the name is not that of a record.
  split
  next name rest heq => exact absurd (congrArg Prod.snd heq) (htext.2 _)
  next name rest _ heq =>
    obtain ⟨rfl, rfl⟩ := Prod.mk.inj heq
    cases b <;> rfl

theorem isNameChar_ne {c d : Char} (hc : isNameChar c = true) (hd : isNameChar d = false) :
    c ≠ d := by
  rintro rfl
  rw [hc] at hd
  cases hd

/-- A value that begins with a name is read as one. -/
theorem read_of_name {depth : Nat} {name : String} {text : List Char} (hname : isName name = true) :
    read (depth + 1) (name.toList ++ text) = readNamed (read depth) (name.toList ++ text) := by
  obtain ⟨c, cs, hchars, hc, hdigit, -⟩ := isName_iff.mp hname
  rw [hchars, List.cons_append, read, if_neg (isNameChar_ne hc (by decide)),
    if_neg (isNameChar_ne hc (by decide)), if_neg (isNameChar_ne hc (by decide)),
    if_neg (by simp [hdigit])]

/-- A number is read as a value. -/
theorem read_number {depth n : Nat} {text : List Char} (h : Stops Char.isDigit text) :
    read (depth + 1) (Nat.toDigits 10 n ++ text) = some (.int32 (Int32.ofNat n), text) := by
  obtain ⟨c, cs, hchars, hdigit, hc⟩ := exists_toDigits_eq_cons n
  have hnumber := readNumber_append (n := n) h
  rw [hchars] at hnumber ⊢
  rw [List.cons_append, read, if_neg (isNameChar_ne hc (by decide)),
    if_neg (isNameChar_ne hc (by decide)), if_neg (isNameChar_ne hc (by decide)), if_pos hdigit,
    ← List.cons_append, hnumber]

/-- No value begins with a closing bracket. -/
theorem read_close {depth : Nat} (text : List Char) : read depth (']' :: text) = none := by
  cases depth with
  | zero => rfl
  | succ depth =>
      rw [read, if_neg (by decide), if_neg (by decide), if_neg (by decide), if_neg (by decide),
        readNamed, readName_of_stops (stops_cons.mpr (by decide))]
      rfl

theorem read_int32 {depth : Nat} {n : Int32} {text : List Char} (htext : Ends text) :
    read (depth + 1) ((printWith escaped (.int32 n)).toList ++ text) = some (.int32 n, text) := by
  have hvalue := ofNat_natAbs n
  have hprint : printWith escaped (.int32 n) = print (.int32 n) := rfl
  rw [hprint, toList_print_int32]
  split at hvalue
  next hneg =>
    rw [if_pos hneg, List.cons_append, read, if_neg (by decide), if_neg (by decide), if_pos rfl,
      readNumber_append htext.stops_isDigit]
    simp only [hvalue]
  next hneg => rw [if_neg hneg, read_number htext.stops_isDigit, hvalue]

theorem read_string {depth : Nat} {chars : String} {text : List Char} :
    read (depth + 1) ((printWith escaped (.string chars)).toList ++ text)
      = some (.string chars, text) := by
  rw [toList_printWith_string, List.cons_append, List.append_assoc, List.singleton_append, read,
    if_pos rfl, readQuoted_quoteCharsWith]
  simp

/-- A list is read back if its elements are. -/
theorem read_list {depth : Nat} {elements : List Value} {text : List Char}
    (helements : ∀ v ∈ elements, ∀ rest, Ends rest →
      read depth ((v.printWith escaped).toList ++ rest) = some (v, rest)) :
    read (depth + 1) ((printWith escaped (.list elements)).toList ++ text)
      = some (.list elements, text) := by
  have hchars : (printWith escaped (.list elements)).toList ++ text
      = '[' :: ((", ".intercalate (elements.map (printWith escaped))).toList ++ ']' :: text) := by
    simp [printWith, printAllWith_eq_map]
  have hcomma : ∀ rest, Ends (',' :: rest) := fun rest => ends_of_stops (by decide) (by decide)
  have hclose : Ends (']' :: text) := ends_of_stops (by decide) (by decide)
  have hlist := readList_intercalate helements hcomma hclose (fun _ => by simp) (read_close text)
  rw [List.map_id'] at hlist
  rw [hchars, read, if_neg (by decide), if_pos rfl]
  simp only [hlist]

/-- **A value is read back.** -/
theorem read_printWith {depth : Nat} {v : Value} {text : List Char} (hdepth : sizeOf v < depth)
    (hv : v.isNamed = true) (htext : Ends text) :
    read depth ((v.printWith escaped).toList ++ text) = some (v, text) := by
  induction depth generalizing v text with
  | zero => exact absurd hdepth (Nat.not_lt_zero _)
  | succ depth ih =>
      cases v with
      | boolean b => rw [read_of_name (isName_printWith_boolean b), readNamed_boolean htext]
      | int32 => exact read_int32 htext
      | string => exact read_string
      | record typeName fields =>
          simp only [isNamed, Bool.and_eq_true, isNamedFields_iff] at hv
          have hfields : ∀ field ∈ fields, ∀ rest, Ends rest →
              read depth ((field.2.printWith escaped).toList ++ rest) = some (field.2, rest) := by
            intro field hf rest hrest
            have hsize := List.sizeOf_lt_of_mem hf
            have hfield : sizeOf field = 1 + sizeOf field.1 + sizeOf field.2 := rfl
            simp only [record.sizeOf_spec] at hdepth
            exact ih (by omega) (hv.2 field hf).2 hrest
          have hread :
              read (depth + 1) ((printWith escaped (.record typeName fields)).toList ++ text)
                = readNamed (read depth)
                    ((printWith escaped (.record typeName fields)).toList ++ text) := by
            obtain ⟨rest, hrest⟩ := exists_toList_printWith_record typeName fields
            rw [hrest, List.append_assoc, read_of_name hv.1]
          rw [hread, readNamed_record hv.1 (fun field hf => (hv.2 field hf).1) hfields]
      | list elements =>
          simp only [isNamed, isNamedAll_iff] at hv
          apply read_list
          intro v hmem rest hrest
          have hsize := List.sizeOf_lt_of_mem hmem
          simp only [list.sizeOf_spec] at hdepth
          exact ih (by omega) (hv v hmem) hrest

/-- The printed form of a value is read back. -/
theorem read_print {depth : Nat} {v : Value} {text : List Char} (hdepth : sizeOf v < depth)
    (hv : v.isNamed = true) (htext : Ends text) :
    read depth (v.print.toList ++ text) = some (v, text) := by
  rw [← printWith_isUnprintable]
  exact read_printWith hdepth hv htext

/-! ## Values told apart -/

/-- Values with the same printed form are the same, whatever characters are written as code points. -/
theorem eq_of_printWith_eq {v w : Value} (hv : v.isNamed = true) (hw : w.isNamed = true)
    (h : v.printWith escaped = w.printWith escaped) : v = w := by
  -- One depth that is enough for both, so the same reader reads the same text.
  obtain ⟨depth, hvdepth, hwdepth⟩ : ∃ depth, sizeOf v < depth ∧ sizeOf w < depth :=
    ⟨sizeOf v + sizeOf w + 1, by omega, by omega⟩
  have hleft : read depth ((v.printWith escaped).toList ++ []) = some (v, []) :=
    read_printWith hvdepth hv ends_nil
  have hright : read depth ((w.printWith escaped).toList ++ []) = some (w, []) :=
    read_printWith hwdepth hw ends_nil
  rw [h, hright] at hleft
  exact (congrArg Prod.fst (Option.some.inj hleft)).symm

/-- **The printed form of a value determines the value** if all names in it are names: nothing in a
text, however much it looks like a separator or the end of a record, makes two values print alike.
The same holds whatever further characters of texts are written as code points. -/
theorem print_inj {v w : Value} (hv : v.isNamed = true) (hw : w.isNamed = true) :
    (v.print = w.print ↔ v = w) ∧
      ∀ escaped : Char → Bool, v.printWith escaped = w.printWith escaped ↔ v = w := by
  have hwith : ∀ escaped : Char → Bool, v.printWith escaped = w.printWith escaped ↔ v = w :=
    fun escaped => ⟨eq_of_printWith_eq hv hw, congrArg (printWith escaped)⟩
  refine ⟨?_, hwith⟩
  rw [← printWith_isUnprintable, ← printWith_isUnprintable]
  exact hwith isUnprintable

namespace Separators

/-- A record with one text in it, which reads like the fields of another record. -/
def folded : Value :=
  .list [.record "Item" [("Name", .string "\", Note = \"")], .list [.int32 (-1)]]

/-- The other record. -/
def spread : Value :=
  .list [.record "Item" [("Name", .string ""), ("Note", .string "")], .list [.int32 (-1)]]

/-- The printed forms differ in two backslashes alone. -/
theorem print_folded_ne_spread :
    folded.isNamed = true ∧ spread.isNamed = true ∧ folded.print ≠ spread.print ∧
      ∀ escaped : Char → Bool, folded.printWith escaped ≠ spread.printWith escaped := by
  have hfolded : folded.isNamed = true := by decide
  have hspread : spread.isNamed = true := by decide
  have hne : folded ≠ spread := by decide
  have hinj := print_inj hfolded hspread
  exact ⟨hfolded, hspread, mt hinj.1.mp hne, fun escaped => mt (hinj.2 escaped).mp hne⟩

end Separators

end Value

end ExprTree
