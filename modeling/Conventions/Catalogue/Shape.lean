import Conventions.Syntax.Call
import Conventions.Syntax.Walk
import Conventions.Vocabulary
import Conventions.Number.Binary64

/-!
# Catalogue/Shape — what a recognisable construct is

A shape speaks which nodes to look at, which node proves the construct there, and which label that
supports how strongly. A rule looks at names and at the form of nodes only.
-/

namespace Conventions

/-- A rule that finds the node proving a construct at a visit. -/
abbrev Proof? := Source → Visit → Option Node

/-- **One recognisable construct.** -/
structure Shape where
  name : String
  category : Category
  facet : String
  label : String
  kinds : List Kind
  proof? : Proof?
  strength : Binary64

namespace Shape

/-- A strength in hundredths. -/
def hundredths (n : Nat) : Binary64 := Binary64.ofDecimal false n (-2)

/-- A rule that cites the visited node itself. -/
def citing (holds : Source → Visit → Bool) : Proof? := fun s v =>
  if holds s v then some v.node else none

/-! ## Names that rules look for -/

/-- The usual names of a request. -/
def requestNames : List String := ["req", "request", "ctx"]

/-- The usual names of a response. -/
def responseNames : List String := ["res", "response", "reply", "ctx"]

/-- The usual names of a caught error. -/
def errorNames : List String := ["err", "error", "e", "er", "ex", "exc", "exception"]

/-- The keys of an error payload. -/
def errorKeys : List String :=
  ["error", "errors", "message", "msg", "code", "details", "status", "statusCode"]

/-- The usual names of a logger. -/
def loggerNames : List String := ["logger", "log", "winston", "pino", "bunyan"]

/-- Is the visited node the left side of an assignment? -/
def isAssignmentTarget (v : Visit) : Bool :=
  match v.parent with
  | some p =>
    (p.kind == .assignmentExpression || p.kind == .augmentedAssignmentExpression)
      && ((p.child? .left).map (·.sameAs v.node)).getD false
  | none => false

end Shape
end Conventions
