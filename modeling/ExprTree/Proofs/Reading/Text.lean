/-
# Reading text

A reader takes the front of a text and gives what it says together with the rest. Names, numbers and
quoted texts are read back in front of any character that cannot go on with them, and so are lists of
items with separators if the items are.
-/
import Mathlib.Data.List.TakeWhile
import ExprTree.Text.Quoted

namespace ExprTree

/-- A reader: from a text to what its front says and the rest, if the front says something. -/
abbrev Reader (α : Type) := List Char → Option (α × List Char)

namespace Text

/-! ## Runs of characters -/

/-- The text is empty or begins with a character that fails the test. -/
def Stops (p : Char → Bool) (text : List Char) : Prop :=
  ∀ c ∈ text.head?, p c = false

section Runs

variable {p : Char → Bool} {run text : List Char}

@[simp] theorem stops_nil : Stops p [] := nofun

@[simp] theorem stops_cons {c : Char} : Stops p (c :: text) ↔ p c = false := by
  simp [Stops]

theorem takeWhile_of_stops (h : Stops p text) : text.takeWhile p = [] := by
  cases text with
  | nil => rfl
  | cons c text => rw [List.takeWhile_cons, stops_cons.mp h, if_neg Bool.false_ne_true]

theorem dropWhile_of_stops (h : Stops p text) : text.dropWhile p = text := by
  cases text with
  | nil => rfl
  | cons c text => rw [List.dropWhile_cons, stops_cons.mp h, if_neg Bool.false_ne_true]

/-- A run ends where the text behind it stops. -/
theorem takeWhile_append (hrun : ∀ c ∈ run, p c = true) (h : Stops p text) :
    (run ++ text).takeWhile p = run := by
  rw [List.takeWhile_append_of_pos hrun, takeWhile_of_stops h, List.append_nil]

/-- Behind a run comes the text that stops it. -/
theorem dropWhile_append (hrun : ∀ c ∈ run, p c = true) (h : Stops p text) :
    (run ++ text).dropWhile p = text := by
  rw [List.dropWhile_append_of_pos hrun, dropWhile_of_stops h]

end Runs

/-! ## Names -/

/-- The characters of names: ASCII letters and digits, and the underscore. -/
def isNameChar (c : Char) : Bool :=
  c.isAlphanum || c == '_'

/-- Whether a text is a name: characters of names, the first of them not a digit. -/
def isName (name : String) : Bool :=
  match name.toList with
  | [] => false
  | c :: cs => isNameChar c && !c.isDigit && cs.all isNameChar

theorem isNameChar_of_isDigit {c : Char} (h : c.isDigit = true) : isNameChar c = true := by
  simp [isNameChar, Char.isAlphanum, h]

/-- A name begins with a character of names that is not a digit and goes on with such characters. -/
theorem isName_iff {name : String} :
    isName name = true ↔ ∃ c cs, name.toList = c :: cs ∧ isNameChar c = true ∧ c.isDigit = false ∧
      ∀ d ∈ cs, isNameChar d = true := by
  unfold isName
  cases name.toList with
  | nil => simp
  | cons c cs => simp [and_assoc]

/-- Whether a text is a name that is not written like a truth value. -/
def isIdentifier (name : String) : Bool :=
  isName name && name != "true" && name != "false"

/-- The name at the front of a text; it may be empty. -/
def readName (text : List Char) : String × List Char :=
  (String.ofList (text.takeWhile isNameChar), text.dropWhile isNameChar)

theorem readName_of_stops {text : List Char} (h : Stops isNameChar text) :
    readName text = ("", text) := by
  rw [readName, takeWhile_of_stops h, dropWhile_of_stops h, String.ofList_nil]

/-- A name is read back. -/
theorem readName_append {name : String} {text : List Char} (hname : isName name = true)
    (h : Stops isNameChar text) : readName (name.toList ++ text) = (name, text) := by
  obtain ⟨c, cs, hchars, hc, -, hcs⟩ := isName_iff.mp hname
  have hall : ∀ d ∈ name.toList, isNameChar d = true := by
    rw [hchars]
    exact List.forall_mem_cons.mpr ⟨hc, hcs⟩
  rw [readName, takeWhile_append hall h, dropWhile_append hall h, String.ofList_toList]

/-! ## Numbers -/

/-- The value of a digit in lower-case notation. -/
def digitValue (c : Char) : Nat :=
  if c.isDigit then c.toNat - '0'.toNat else c.toNat - 'a'.toNat + 10

/-- The number that digits stand for. -/
def ofDigits (base : Nat) (digits : List Char) : Nat :=
  digits.foldl (fun n c => base * n + digitValue c) 0

theorem digitValue_digitChar {n : Nat} (h : n < 16) : digitValue n.digitChar = n := by
  have hall : ∀ n < 16, digitValue n.digitChar = n := by decide
  exact hall n h

/-- The digits of a number stand for it. -/
theorem ofDigits_toDigits {base : Nat} (hbase : 1 < base) (hle : base ≤ 16) (n : Nat) :
    ofDigits base (Nat.toDigits base n) = n := by
  induction n using Nat.strong_induction_on with
  | _ n ih =>
      rw [Nat.toDigits_eq_if hbase]
      split
      next hlt => simp [ofDigits, digitValue_digitChar (Nat.lt_of_lt_of_le hlt hle)]
      next hge =>
        have hmod : n % base < 16 := Nat.lt_of_lt_of_le (Nat.mod_lt _ (by omega)) hle
        have hdiv : n / base < n := Nat.div_lt_self (by omega) hbase
        have ih := ih (n / base) hdiv
        unfold ofDigits at ih ⊢
        rw [List.foldl_append, ih, List.foldl_cons, List.foldl_nil, digitValue_digitChar hmod]
        exact Nat.div_add_mod n base

/-- The number at the front of a text. -/
def readNumber (text : List Char) : Nat × List Char :=
  (ofDigits 10 (text.takeWhile Char.isDigit), text.dropWhile Char.isDigit)

/-- The written form of a number begins with a digit. -/
theorem exists_toDigits_eq_cons (n : Nat) :
    ∃ c cs, Nat.toDigits 10 n = c :: cs ∧ c.isDigit = true ∧ isNameChar c = true := by
  cases hchars : Nat.toDigits 10 n with
  | nil => exact absurd hchars Nat.toDigits_ne_nil
  | cons c cs =>
      have hdigit : c.isDigit = true :=
        Nat.isDigit_of_mem_toDigits (by decide) (by decide) (hchars ▸ List.mem_cons_self)
      exact ⟨c, cs, rfl, hdigit, isNameChar_of_isDigit hdigit⟩

/-- A number is read back. -/
theorem readNumber_append {n : Nat} {text : List Char} (h : Stops Char.isDigit text) :
    readNumber (Nat.toDigits 10 n ++ text) = (n, text) := by
  have hdigits : ∀ c ∈ Nat.toDigits 10 n, c.isDigit = true :=
    fun c hc => Nat.isDigit_of_mem_toDigits (by decide) (by decide) hc
  rw [readNumber, takeWhile_append hdigits h, dropWhile_append hdigits h,
    ofDigits_toDigits (by decide) (by decide)]

/-! ## Quoted texts -/

/-- The written form of one character of a quoted text, for any choice of the further characters that
are written as code points. -/
def quoteCharWith (escaped : Char → Bool) (c : Char) : List Char :=
  if c = '"' then ['\\', '"']
  else if c = '\\' then ['\\', '\\']
  else if c = '\t' then ['\\', 't']
  else if c = '\r' then ['\\', 'r']
  else if c = '\n' then ['\\', 'n']
  else if c = '\x00' then ['\\', '0']
  else if escaped c then ['\\', 'u', '\x7b'] ++ Nat.toDigits 16 c.toNat ++ ['\x7d']
  else [c]

/-- The written form of the characters of a text, without the quotes around it. -/
def quoteCharsWith (escaped : Char → Bool) (text : List Char) : List Char :=
  text.flatMap (quoteCharWith escaped)

/-- The quoted form of a text. -/
def quoteWith (escaped : Char → Bool) (text : String) : String :=
  String.ofList ('"' :: quoteCharsWith escaped text.toList ++ ['"'])

/-- Quoting writes the unprintable characters as code points. -/
theorem quoteWith_isUnprintable (text : String) : quoteWith isUnprintable text = quote text := rfl

/-- The character that a letter behind a backslash stands for. -/
def unescape : Char → Option Char
  | '"' => some '"'
  | '\\' => some '\\'
  | 't' => some '\t'
  | 'r' => some '\r'
  | 'n' => some '\n'
  | '0' => some '\x00'
  | _ => none

/-- Read a quoted text from behind its first quote up to the last one. -/
def readQuoted : Reader (List Char)
  | [] => none
  | '"' :: rest => some ([], rest)
  | '\\' :: 'u' :: '\x7b' :: rest => do
      let code := ofDigits 16 (rest.takeWhile (· != '\x7d'))
      let (text, rest) ← readQuoted (rest.dropWhile (· != '\x7d')).tail
      return (Char.ofNat code :: text, rest)
  | '\\' :: c :: rest => do
      let c ← unescape c
      let (text, rest) ← readQuoted rest
      return (c :: text, rest)
  | c :: rest => do
      let (text, rest) ← readQuoted rest
      return (c :: text, rest)
termination_by text => text.length
decreasing_by
  · have := List.length_dropWhile_le (· != '\x7d') rest
    simp only [List.length_tail, List.length_cons]
    omega
  · simp only [List.length_cons]
    omega
  · simp only [List.length_cons]
    omega

/-- The digits of a code point do not end the escape. -/
theorem ne_of_mem_toDigits {n : Nat} : ∀ c ∈ Nat.toDigits 16 n, (c != '\x7d') = true := by
  induction n using Nat.strong_induction_on with
  | _ n ih =>
      have hdigit : ∀ d < 16, (d.digitChar != '\x7d') = true := by decide
      rw [Nat.toDigits_eq_if (by decide)]
      split
      next hlt => exact List.forall_mem_singleton.mpr (hdigit n hlt)
      next hge =>
        have hdiv : n / 16 < n := Nat.div_lt_self (by omega) (by decide)
        refine List.forall_mem_append.mpr ⟨ih _ hdiv, ?_⟩
        exact List.forall_mem_singleton.mpr (hdigit _ (Nat.mod_lt _ (by decide)))

section Escapes

variable {escaped : Char → Bool}

/-- One character of a quoted text is read back. -/
theorem readQuoted_quoteCharWith {c : Char} {chars text rest : List Char}
    (h : readQuoted text = some (chars, rest)) :
    readQuoted (quoteCharWith escaped c ++ text) = some (c :: chars, rest) := by
  unfold quoteCharWith
  split_ifs with hquote hbackslash htab hreturn hfeed hnul hescaped
  · simp [readQuoted, unescape, h, hquote]
  · simp [readQuoted, unescape, h, hbackslash]
  · simp [readQuoted, unescape, h, htab]
  · simp [readQuoted, unescape, h, hreturn]
  · simp [readQuoted, unescape, h, hfeed]
  · simp [readQuoted, unescape, h, hnul]
  · -- The code point ends at the closing brace.
    have hstops : Stops (· != '\x7d') ('\x7d' :: text) := stops_cons.mpr (by decide)
    have hcode : ofDigits 16 (Nat.toDigits 16 c.toNat) = c.toNat :=
      ofDigits_toDigits (by decide) (by decide) _
    simp only [List.append_assoc, List.cons_append, List.nil_append]
    rw [readQuoted, takeWhile_append ne_of_mem_toDigits hstops,
      dropWhile_append ne_of_mem_toDigits hstops, hcode, Char.ofNat_toNat, List.tail_cons, h]
    rfl
  · simp [readQuoted, h, hbackslash]

/-- **A quoted text is read back**, whatever characters are written as code points. -/
theorem readQuoted_quoteCharsWith (chars text : List Char) :
    readQuoted (quoteCharsWith escaped chars ++ '"' :: text) = some (chars, text) := by
  induction chars with
  | nil => simp [quoteCharsWith, readQuoted]
  | cons c chars ih =>
      rw [quoteCharsWith, List.flatMap_cons, List.append_assoc]
      exact readQuoted_quoteCharWith ih

end Escapes

/-! ## Lists -/

/-- Read the items that follow the first one of a list, each behind a comma and a blank. No item is
taken to leave a longer rest than it found. -/
def readMore {α : Type} (item : Reader α) (text : List Char) : Option (List α × List Char) :=
  match text with
  | ',' :: ' ' :: front =>
      match item front with
      | none => none
      | some (a, rest) =>
          if rest.length ≤ front.length then
            match readMore item rest with
            | none => none
            | some (as, rest) => some (a :: as, rest)
          else none
  | _ => some ([], text)
termination_by text.length
decreasing_by
  simp only [List.length_cons]
  omega

/-- Read a list of at least one item. -/
def readItems {α : Type} (item : Reader α) : Reader (List α) := fun text => do
  let (a, rest) ← item text
  let (as, rest) ← readMore item rest
  return (a :: as, rest)

/-- Read a list that may be empty. -/
def readList {α : Type} (item : Reader α) (text : List Char) : List α × List Char :=
  (readItems item text).getD ([], text)

/-- The written items that follow the first one of a list. -/
def more {β : Type} (print : β → String) (bs : List β) : List Char :=
  bs.flatMap fun b => ',' :: ' ' :: (print b).toList

theorem toList_intercalate {β : Type} (print : β → String) (b : β) (bs : List β) :
    (", ".intercalate ((b :: bs).map print)).toList = (print b).toList ++ more print bs := by
  induction bs generalizing b with
  | nil => simp [more]
  | cons c bs ih =>
      rw [List.map_cons, List.map_cons, String.intercalate_cons_cons, String.toList_append,
        String.toList_append, ← List.map_cons, ih]
      simp [more]

section Lists

variable {α β : Type} {item : Reader α} {print : β → String} {read : β → α}
  {stop : List Char → Prop} {bs : List β} {text : List Char}

/-- The items that follow the first one of a list are read back, if items are in front of a comma and
of what follows the list. -/
theorem readMore_more (hitem : ∀ b ∈ bs, ∀ rest, stop rest →
      item ((print b).toList ++ rest) = some (read b, rest))
    (hcomma : ∀ rest, stop (',' :: rest)) (htext : stop text)
    (hnext : ∀ rest, text ≠ ',' :: ' ' :: rest) :
    readMore item (more print bs ++ text) = some (bs.map read, text) := by
  induction bs with
  | nil =>
      rw [more, List.flatMap_nil, List.nil_append, readMore.eq_def]
      split
      next rest => exact absurd rfl (hnext rest)
      next => rfl
  | cons b bs ih =>
      have hrest : stop (more print bs ++ text) := by
        cases bs with
        | nil => exact htext
        | cons c bs => exact hcomma _
      have hfirst := hitem b List.mem_cons_self _ hrest
      have ih := ih fun c hc => hitem c (List.mem_cons_of_mem _ hc)
      have hmore : more print (b :: bs) ++ text
          = ',' :: ' ' :: ((print b).toList ++ (more print bs ++ text)) := by
        simp [more]
      rw [hmore, readMore]
      simp [hfirst, ih]

/-- **A list is read back.** -/
theorem readList_intercalate (hitem : ∀ b ∈ bs, ∀ rest, stop rest →
      item ((print b).toList ++ rest) = some (read b, rest))
    (hcomma : ∀ rest, stop (',' :: rest)) (htext : stop text)
    (hnext : ∀ rest, text ≠ ',' :: ' ' :: rest) (hempty : item text = none) :
    readList item ((", ".intercalate (bs.map print)).toList ++ text) = (bs.map read, text) := by
  cases bs with
  | nil => simp [readList, readItems, hempty]
  | cons b bs =>
      have hrest : stop (more print bs ++ text) := by
        cases bs with
        | nil => exact htext
        | cons c bs => exact hcomma _
      have hfirst := hitem b List.mem_cons_self _ hrest
      have hothers := readMore_more (fun c hc => hitem c (List.mem_cons_of_mem _ hc)) hcomma htext
        hnext
      rw [toList_intercalate, List.append_assoc, readList, readItems, hfirst]
      simp [hothers]

end Lists

end Text

end ExprTree
