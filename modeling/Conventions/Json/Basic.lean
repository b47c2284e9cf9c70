import Conventions.Number.Shortest
import Conventions.Text.Printable

/-!
# Json/Basic — JSON values

Whole numbers and binary64 numbers are kept apart, and an object keeps the order of its members.
`Json.text` spells a value the way it is shown to a reader, `Json.quotedText` the way it is shown
inside a container.
-/

namespace Conventions

/-- **A JSON value.** The keys of an object are distinct; a reader keeps the last value written
for a key, at the place of the first. -/
inductive Json where
  | null
  | bool (b : Bool)
  | int (i : Int)
  | float (x : Binary64)
  | str (s : String)
  | arr (items : List Json)
  | obj (members : List (String × Json))
  deriving Inhabited

namespace Json

/-- The value of a key in a list of members. -/
def lookup (key : String) (members : List (String × Json)) : Option Json :=
  (members.find? fun m => m.1 == key).map (·.2)

/-- The members with a key set: in place if it is there, else at the end. -/
def insert (key : String) (value : Json) : List (String × Json) → List (String × Json)
  | [] => [(key, value)]
  | m :: rest => if m.1 = key then (key, value) :: rest else m :: insert key value rest

/-- The value of a key, when the value is an object that has it. -/
def get? (key : String) : Json → Option Json
  | .obj members => lookup key members
  | _ => none

def str? : Json → Option String
  | .str s => some s
  | _ => none

def items? : Json → Option (List Json)
  | .arr xs => some xs
  | _ => none

def members? : Json → Option (List (String × Json))
  | .obj ms => some ms
  | _ => none

/-! ## Spelling -/

mutual

/-- The value as it is shown inside a container. -/
def quotedText : Json → String
  | .null => "None"
  | .bool b => if b then "True" else "False"
  | .int i => toString i
  | .float x => x.text
  | .str s => Text.quoted s
  | .arr items => "[" ++ String.intercalate ", " (quotedTexts items) ++ "]"
  | .obj members => "\x7b" ++ String.intercalate ", " (quotedMembers members) ++ "\x7d"

def quotedTexts : List Json → List String
  | [] => []
  | x :: rest => quotedText x :: quotedTexts rest

def quotedMembers : List (String × Json) → List String
  | [] => []
  | (k, v) :: rest => (Text.quoted k ++ ": " ++ quotedText v) :: quotedMembers rest

end

/-- **The value as it is shown on its own**: text without quotes, everything else as inside a
container. -/
def text : Json → String
  | .str s => s
  | v => quotedText v

/-! ## Truth -/

/-- Is the value something: not null, false, zero or empty? -/
def truthy : Json → Bool
  | .null => false
  | .bool b => b
  | .int i => i != 0
  | .float x => !(x.same .zero)
  | .str s => s != ""
  | .arr items => !items.isEmpty
  | .obj members => !members.isEmpty

end Json
end Conventions
