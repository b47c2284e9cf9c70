import Conventions.Json.Parts
import Conventions.Number.Binary64
import Conventions.Sequence

/-!
# Schema — what a JSON document has to look like

A schema is a list of rules, or refers to one by name. A document is checked rule by rule, in the
order of the schema; `Schema.check` reports the first violation with the path to the value that
breaks a rule.
-/

namespace Conventions

/-- **The kinds of JSON values** that a rule can ask for. -/
inductive TypeName where
  | object
  | array
  | string
  | integer
  | number
  | boolean
  deriving DecidableEq, Repr

namespace TypeName

def name : TypeName → String
  | object => "object"
  | array => "array"
  | string => "string"
  | integer => "integer"
  | number => "number"
  | boolean => "boolean"

/-- Is the value of the kind? A number without a fraction is an integer however it is written. -/
def holds : TypeName → Json → Bool
  | object, .obj _ => true
  | array, .arr _ => true
  | string, .str _ => true
  | integer, .int _ => true
  | integer, .float (.finite _ n) => n % Binary64.unit == 0
  | number, .int _ => true
  | number, .float _ => true
  | boolean, .bool _ => true
  | _, _ => false

end TypeName

/-- **A form that a text can have**: how the form is written, and which texts have it. -/
structure TextForm where
  text : String
  holds : String → Bool

mutual

/-- **A schema.** -/
inductive Schema where
  | direct (rs : List Rule)
  | reference (name : String)

/-- **A rule of a schema.** A rule says nothing of values of other kinds than its own. -/
inductive Rule where
  | kind (t : TypeName)
  | required (keys : List String)
  /-- No keys but these. -/
  | closed (known : List String)
  /-- The schema of every value of an object. -/
  | values (s : Schema)
  | properties (ps : List (String × Schema))
  | items (s : Schema)
  /-- The form of every key of an object. -/
  | keys (form : TextForm)
  | constant (value : String)
  | oneOf (values : List Json)
  | form (f : TextForm)
  | filledText
  | filledArray
  | filledObject
  | mostItems (most : Nat)
  | least (bound : Int)
  | most (bound : Int)
  | above (bound : Int)

end

/-- A step from a value to a part of it. -/
inductive PathStep where
  | key (k : String)
  | index (i : Nat)
  deriving DecidableEq, Repr

/-- **A violation of a rule.** -/
structure Violation where
  message : String
  path : List PathStep
  keyword : String
  deriving DecidableEq, Repr

/-- A violation inside a part. -/
def Violation.inside (step : PathStep) (v : Violation) : Violation := { v with path := step :: v.path }

namespace Rule

/-- The word by which a rule is known. -/
def keyword : Rule → String
  | .kind _ => "type"
  | .required _ => "required"
  | .closed _ | .values _ => "additionalProperties"
  | .properties _ => "properties"
  | .items _ => "items"
  | .keys _ | .form _ => "pattern"
  | .constant _ => "const"
  | .oneOf _ => "enum"
  | .filledText => "minLength"
  | .filledArray => "minItems"
  | .filledObject => "minProperties"
  | .mostItems _ => "maxItems"
  | .least _ => "minimum"
  | .most _ => "maximum"
  | .above _ => "exclusiveMinimum"

/-- The violation of a rule by a value as a whole. -/
def broken (r : Rule) (message : String) : Option Violation := some ⟨message, [], r.keyword⟩

/-- The quantity of a number. -/
def quantity? : Json → Option Quantity
  | .int i => some (.whole i)
  | .float .nan => none
  | .float x => some (.binary x)
  | _ => none

/-- The message about keys that are not allowed. -/
def extraMessage (extras : List String) : String :=
  let names := (Text.sorted extras).map Text.quoted
  "Additional properties are not allowed (" ++ String.intercalate ", " names
    ++ (if extras.length = 1 then " was" else " were") ++ " unexpected)"

/-- Does a value equal one of those that are allowed? -/
def allows (allowed : List Json) (j : Json) : Bool :=
  allowed.any fun v =>
    match v, j with
    | .str a, .str b => a == b
    | .null, .null => true
    | _, _ => false

/-- **The violation of a rule that does not look into parts.** -/
def shallow (r : Rule) (j : Json) : Option Violation :=
  let shown := j.quotedText
  match r, j with
  | .kind t, j =>
    if t.holds j then none else r.broken (shown ++ " is not of type " ++ Text.quoted t.name)
  | .required names, .obj members =>
    (names.find? fun k => (Json.lookup k members).isNone).bind fun k =>
      r.broken (Text.quoted k ++ " is a required property")
  | .closed known, .obj members =>
    match (members.map (·.1)).filter fun k => !known.contains k with
    | [] => none
    | extras => r.broken (extraMessage extras)
  | .keys f, .obj members =>
    (members.find? fun m => !f.holds m.1).bind fun m =>
      r.broken (Text.quoted m.1 ++ " does not match " ++ Text.quoted f.text)
  | .constant value, j =>
    if j.str? = some value then none else r.broken (Text.quoted value ++ " was expected")
  | .oneOf allowed, j =>
    if allows allowed j then none
    else r.broken (shown ++ " is not one of " ++ (Json.arr allowed).quotedText)
  | .form f, .str s =>
    if f.holds s then none else r.broken (shown ++ " does not match " ++ Text.quoted f.text)
  | .filledText, .str s => if s = "" then r.broken (shown ++ " should be non-empty") else none
  | .filledArray, .arr [] => r.broken (shown ++ " should be non-empty")
  | .filledObject, .obj [] => r.broken (shown ++ " should be non-empty")
  | .mostItems limit, .arr xs =>
    if limit < xs.length then r.broken (shown ++ " is too long") else none
  | .least bound, j =>
    (quantity? j).bind fun q =>
      if q.key < (Quantity.whole bound).key then
        r.broken (shown ++ " is less than the minimum of " ++ toString bound)
      else none
  | .most bound, j =>
    (quantity? j).bind fun q =>
      if (Quantity.whole bound).key < q.key then
        r.broken (shown ++ " is greater than the maximum of " ++ toString bound)
      else none
  | .above bound, j =>
    (quantity? j).bind fun q =>
      if q.key ≤ (Quantity.whole bound).key then
        r.broken (shown ++ " is less than or equal to the minimum of " ++ toString bound)
      else none
  | _, _ => none

end Rule

/-- **Schemas that others refer to**, as their rules. -/
abbrev Definitions := List (String × List Rule)

namespace Schema

/-- The rules of a schema. -/
def resolve (defs : Definitions) : Schema → List Rule
  | .direct rs => rs
  | .reference name => ((defs.find? fun d => d.1 == name).map (·.2)).getD []

/-- **The first violation of some rules by a value.** -/
def firstViolation (defs : Definitions) (rs : List Rule) (j : Json) : Option Violation :=
  rs.findSome? fun r =>
    match r with
    | .properties ps =>
      ps.findSome? fun p =>
        ((j.smallerMembers.find? fun m => m.1 == p.1).bind fun m =>
          firstViolation defs (p.2.resolve defs) m.2.1).map (·.inside (.key p.1))
    | .values s =>
      j.smallerMembers.findSome? fun m =>
        (firstViolation defs (s.resolve defs) m.2.1).map (·.inside (.key m.1))
    | .items s =>
      j.smallerItems.zipIdx.findSome? fun x =>
        (firstViolation defs (s.resolve defs) x.1.1).map (·.inside (.index x.2))
    | r => r.shallow j
  termination_by j.size
  decreasing_by
    · exact m.2.2
    · exact m.2.2
    · exact x.1.2

end Schema

/-- **A contract**: what a kind of document has to look like. -/
structure Contract where
  name : String
  definitions : Definitions
  rules : List Rule

/-- **The first violation of a contract by a document.** -/
def Contract.check (c : Contract) (j : Json) : Option Violation :=
  Schema.firstViolation c.definitions c.rules j

end Conventions
