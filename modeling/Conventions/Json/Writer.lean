import Conventions.Json.Basic

/-!
# Json/Writer — writing JSON text

`compact` writes a value on one line, `indented` on many; both leave characters beyond ASCII as
they are. `sorted` puts the keys of every object into order.
-/

namespace Conventions
namespace Json

/-- One character inside a string. -/
def escapeChar (c : Char) : List Char :=
  if c = '"' then ['\\', '"']
  else if c = '\\' then ['\\', '\\']
  else if c = '\n' then ['\\', 'n']
  else if c = '\r' then ['\\', 'r']
  else if c = '\t' then ['\\', 't']
  else if c = '\x08' then ['\\', 'b']
  else if c = '\x0C' then ['\\', 'f']
  else if c.val < 32 then '\\' :: 'u' :: Text.hex 4 c.toNat
  else [c]

/-- A string with its quotes. -/
def stringText (s : String) : String :=
  String.ofList ('"' :: s.toList.flatMap escapeChar ++ ['"'])

/-- The spelling of a number that may not be finite. -/
def floatText : Binary64 → String
  | .nan => "NaN"
  | .infinite s => if s then "-Infinity" else "Infinity"
  | x => x.text

mutual

/-- **The value on one line**, a blank after each comma and colon. -/
def compact : Json → String
  | .null => "null"
  | .bool b => if b then "true" else "false"
  | .int i => toString i
  | .float x => floatText x
  | .str s => stringText s
  | .arr items => "[" ++ String.intercalate ", " (compactItems items) ++ "]"
  | .obj members => "\x7b" ++ String.intercalate ", " (compactMembers members) ++ "\x7d"

def compactItems : List Json → List String
  | [] => []
  | x :: rest => compact x :: compactItems rest

def compactMembers : List (String × Json) → List String
  | [] => []
  | (k, v) :: rest => (stringText k ++ ": " ++ compact v) :: compactMembers rest

end

/-- A line feed and two blanks for each level. -/
def newline (level : Nat) : String := "\n" ++ String.ofList (List.replicate (2 * level) ' ')

mutual

/-- The value on many lines, starting at a level. -/
def indentedAt (level : Nat) : Json → String
  | .arr (x :: rest) =>
    "[" ++ newline (level + 1)
      ++ String.intercalate ("," ++ newline (level + 1)) (indentedItems (level + 1) (x :: rest))
      ++ newline level ++ "]"
  | .obj (m :: rest) =>
    "\x7b" ++ newline (level + 1)
      ++ String.intercalate ("," ++ newline (level + 1)) (indentedMembers (level + 1) (m :: rest))
      ++ newline level ++ "\x7d"
  | .arr [] => "[]"
  | .obj [] => "\x7b\x7d"
  | .null => "null"
  | .bool b => if b then "true" else "false"
  | .int i => toString i
  | .float x => floatText x
  | .str s => stringText s

def indentedItems (level : Nat) : List Json → List String
  | [] => []
  | x :: rest => indentedAt level x :: indentedItems level rest

def indentedMembers (level : Nat) : List (String × Json) → List String
  | [] => []
  | (k, v) :: rest => (stringText k ++ ": " ++ indentedAt level v) :: indentedMembers level rest

end

/-- **The value on many lines**, two blanks for each level. -/
def indented (v : Json) : String := indentedAt 0 v

/-! ## Sorted keys -/

/-- Put a member before the first one with a greater key. -/
def insertSorted (m : String × Json) : List (String × Json) → List (String × Json)
  | [] => [m]
  | n :: rest => if m.1 < n.1 then m :: n :: rest else n :: insertSorted m rest

mutual

/-- The value with the keys of every object in order. -/
def sorted : Json → Json
  | .arr items => .arr (sortedItems items)
  | .obj members => .obj (sortedMembers members)
  | v => v

def sortedItems : List Json → List Json
  | [] => []
  | x :: rest => sorted x :: sortedItems rest

def sortedMembers : List (String × Json) → List (String × Json)
  | [] => []
  | (k, v) :: rest => insertSorted (k, sorted v) (sortedMembers rest)

end

end Json
end Conventions
