/-
# Sessions

Nodes and parameters are told apart by numbers, and a session hands these out. It also keeps a journal
of what was replaced and combined, in order. An operation that fails keeps the numbers it used and
the events it noted.
-/
import ExprTree.Error

namespace ExprTree

/-- What a journal remembers. -/
inductive Event where
  /-- A node was found and another one put in its place. -/
  | replaced (node replacement : Expr)
  | joined (left : Lambda) (connective : Connective) (right result : Lambda)
  | lifted (selector : Lambda) (quantifier : Quantifier) (result : Lambda)
  | spliced (continuation selector result : Lambda)

namespace Event

/-- The levels of detail of events. -/
inductive Level where
  /-- A step of an operation. -/
  | trace
  /-- A finished operation. -/
  | debug
  deriving DecidableEq, Repr

/-- The name of a level. -/
def Level.name : Level → String
  | .trace => "TRACE"
  | .debug => "DEBUG"

/-- The level of detail of an event. -/
def level : Event → Level
  | .replaced .. => .trace
  | .joined .. | .lifted .. | .spliced .. => .debug

/-- The wording of an event. -/
def message : Event → String
  | .replaced node replacement => s!"replacing {node} with {replacement}"
  | .joined left connective right result =>
      s!"joined {left} {connective} {right} into {result}"
  | .lifted selector quantifier result =>
      s!"lifted {selector} with {quantifier} into {result}"
  | .spliced continuation selector result =>
      s!"spliced {continuation} onto {selector} giving {result}"

end Event

/-- The numbers handed out so far and the journal. -/
structure Session where
  /-- How many serials were handed out. -/
  serials : Nat := 0
  /-- How many parameters were made. -/
  parameters : Nat := 0
  journal : Array Event := #[]
  deriving Inhabited

/-- Operations that build expressions: they use a session and may fail. -/
abbrev Build := ExceptT Error (StateM Session)

namespace Build

/-- Hand out a serial. -/
def freshSerial : Build Nat :=
  modifyGet fun session => (session.serials, { session with serials := session.serials + 1 })

/-- Make a parameter unlike all made before. -/
def freshParameter (name : Option String) (type : Ty) : Build Parameter :=
  modifyGet fun session =>
    (⟨session.parameters, name, type⟩, { session with parameters := session.parameters + 1 })

/-- Note an event in the journal. -/
def note (event : Event) : Build Unit :=
  modify fun session => { session with journal := session.journal.push event }

/-- Fail because a node cannot be built. -/
def invalid {α : Type} (fault : NodeFault) : Build α :=
  throw (.invalidNode fault)

/-- Fail because lambdas cannot be combined. -/
def mismatch {α : Type} (cause : Mismatch) : Build α :=
  throw (.mismatch cause)

/-- Run an operation in a session. What it used up and noted stays, whether it fails or not. -/
def runIn {α : Type} (action : Build α) (session : Session) : Except Error α × Session :=
  action.run.run session

end Build

end ExprTree
