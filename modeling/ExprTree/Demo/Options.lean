/-
# The options of the demonstration

Which compositions are shown, and with which literal. An option has a long and a one-letter name; a
value follows as the next argument, after an equals sign, or right behind the letter, and letters can
share one dash. Each option is given at most once, and there are no other arguments.
-/

namespace ExprTree.Demo

/-- The compositions that can be shown. -/
inductive Composition where
  | or
  | and
  | any
  | all
  | contains
  | tail
  /-- Optional filters joined into one. -/
  | fold
  deriving DecidableEq, Repr

namespace Composition

/-- All compositions, in the order in which they are shown. -/
def forms : List Composition :=
  [.or, .and, .any, .all, .contains, .tail, .fold]

/-- The name by which a composition is asked for. -/
def name : Composition → String
  | .or => "or"
  | .and => "and"
  | .any => "any"
  | .all => "all"
  | .contains => "contains"
  | .tail => "tail"
  | .fold => "fold"

/-- The title under which a composition is shown. -/
def title (composition : Composition) : String :=
  composition.name.toUpper

/-- The compositions a name asks for; `every` asks for all. -/
def select? (name : String) : Option (List Composition) :=
  if name = "every" then some forms
  else (forms.find? fun composition => composition.name = name).map ([·])

end Composition

/-- The options of a run. -/
structure Options where
  compositions : List Composition := Composition.forms
  threshold : Int32 := 5
  debug : Bool := false

/-! ## Reading single arguments -/

/-- The names of options. -/
inductive Flag where
  | demo
  | threshold
  | debug
  deriving DecidableEq, Repr

/-- What one argument says: options with their values, and at the end perhaps one whose value is the
next argument. -/
structure Argument where
  given : List (Flag × String) := []
  pending : Option Flag := none

/-- An option with what stands right behind its letter. -/
def attached (flag : Flag) : List Char → Argument
  | [] => { pending := some flag }
  | '=' :: value => { given := [(flag, String.ofList value)] }
  | value => { given := [(flag, String.ofList value)] }

/-- Read the letters behind a single dash. -/
def readLetters : List Char → Option Argument
  | [] => some {}
  | 'd' :: letters => do
      let rest ← readLetters letters
      return { rest with given := (.debug, "") :: rest.given }
  | 'm' :: value => some (attached .demo value)
  | 't' :: value => some (attached .threshold value)
  | _ => none

/-- Read what stands behind two dashes. -/
def readLong (text : List Char) : Option Argument :=
  let name := String.ofList (text.takeWhile (· ≠ '='))
  let value := text.dropWhile (· ≠ '=')
  if name = "debug" ∧ value = [] then some { given := [(.debug, "")] }
  else if name = "demo" then some (attached .demo value)
  else if name = "threshold" then some (attached .threshold value)
  else none

/-- Read an argument that is not the value of an option. -/
def readArgument (text : String) : Option Argument :=
  match text.toList with
  | '-' :: '-' :: name => readLong name
  | '-' :: letter :: letters => readLetters (letter :: letters)
  | _ => none

/-- Read a signed 32-bit integer: a sign if wanted, then digits. -/
def readInt32 (text : String) : Option Int32 :=
  let (negative, digits) := match text.toList with
    | '-' :: digits => (true, digits)
    | '+' :: digits => (false, digits)
    | digits => (false, digits)
  if digits ≠ [] ∧ digits.all Char.isDigit then
    let size := digits.foldl (fun n digit => 10 * n + (digit.toNat - '0'.toNat)) 0
    let n : Int := if negative then -size else size
    if Int32.minValue.toInt ≤ n ∧ n ≤ Int32.maxValue.toInt then some (Int32.ofInt n) else none
  else none

/-! ## Reading all arguments -/

/-- The options found so far. -/
structure Given where
  compositions : Option (List Composition) := none
  threshold : Option Int32 := none
  debug : Bool := false

namespace Given

/-- Add an option that was not given before and has a readable value. -/
def add (found : Given) : Flag × String → Option Given
  | (.demo, value) => do
      guard found.compositions.isNone
      return { found with compositions := some (← Composition.select? value) }
  | (.threshold, value) => do
      guard found.threshold.isNone
      return { found with threshold := some (← readInt32 value) }
  | (.debug, _) => do
      guard !found.debug
      return { found with debug := true }

/-- The options of a run, with the usual value for each that was not given. -/
def toOptions (found : Given) : Options where
  compositions := found.compositions.getD Composition.forms
  threshold := found.threshold.getD 5
  debug := found.debug

/-- Add the options in a list of arguments. Two dashes end the options, and nothing may follow. -/
def addAll (found : Given) : List String → Option Given
  | [] => some found
  | text :: rest => do
      if text = "--" then
        guard rest.isEmpty
        return found
      else
        let argument ← readArgument text
        let found ← argument.given.foldlM add found
        match argument.pending, rest with
        | none, rest => addAll found rest
        | some _, [] => none
        | some flag, value :: rest => do
            guard !value.startsWith "-"
            addAll (← found.add (flag, value)) rest

end Given

/-- Read the arguments of a run, if they can be read. -/
def Options.ofArguments? (arguments : List String) : Option Options := do
  return (← Given.addAll {} arguments).toOptions

end ExprTree.Demo
