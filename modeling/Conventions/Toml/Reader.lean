import Conventions.Toml.Basic
import Conventions.Toml.Scalar

/-!
# Toml/Reader — reading a document

A document is read line by line. Lines end with line feeds.
-/

namespace Conventions
namespace Toml

/-! ## Keys -/

/-- One name of a key. The number is above the length of the text. -/
def keyPart (bound : Nat) (cs : List Char) : Except Fault (String × List Char) :=
  match cs with
  | '\'' :: rest => literalText rest
  | '"' :: rest => do
    let (body, rest) ← quotedText false bound [] rest
    .ok (String.ofList body, rest)
  | _ =>
    let name := cs.takeWhile isBareKey
    if name.isEmpty then .error .malformed else .ok (String.ofList name, cs.drop name.length)

/-- The further names of a key, behind points. -/
def keyRest : Nat → List Char → Except Fault (List String × List Char)
  | 0, cs => .ok ([], cs)
  | n + 1, cs =>
    match skipSpace cs with
    | '.' :: rest => do
      let (name, rest) ← keyPart n (skipSpace rest)
      let (names, rest) ← keyRest n rest
      .ok (name :: names, rest)
    | rest => .ok ([], rest)

/-- **A key**: its names, the last one apart. -/
def key (bound : Nat) (cs : List Char) : Except Fault ((List String × String) × List Char) := do
  let (first, rest) ← keyPart bound cs
  let (others, rest) ← keyRest bound rest
  .ok (((first :: others).dropLast, others.getLast?.getD first), rest)

/-- A change that is allowed. -/
def allowed {α : Type} (r : Option α) : Except Fault α :=
  match r with
  | some a => .ok a
  | none => .error .malformed

/-! ## Values -/

/-- What an array, and an inline table, takes from the depth to which values may be nested. -/
def arrayDepth : Nat := 2

def tableDepth : Nat := 3

mutual

/-- **A value in front.** The first number is above the length of the text, the second one is the
depth to which values may still be nested. -/
def value : Nat → Nat → List Char → Except Fault (Toml × List Char)
  | 0, _, _ => .error .tooDeep
  | fuel + 1, depth, cs =>
    match text? fuel cs with
    | some r => r.map fun (s, rest) => (.str s, rest)
    | none =>
      match cs with
      | 't' :: 'r' :: 'u' :: 'e' :: rest => .ok (.bool true, rest)
      | 'f' :: 'a' :: 'l' :: 's' :: 'e' :: rest => .ok (.bool false, rest)
      | '[' :: rest =>
        if depth < arrayDepth then .error .tooDeep
        else do
          match ← skipGaps fuel rest with
          | ']' :: rest => .ok (.arr [], rest)
          | rest => elements fuel (depth - arrayDepth) [] rest
      | '{' :: rest =>
        if depth < tableDepth then .error .tooDeep
        else
          match skipSpace rest with
          | '}' :: rest => .ok (.table [], rest)
          | rest => pairs fuel (depth - tableDepth) [] rest
      | _ =>
        match calendar? cs, number? cs, specialNumber? cs with
        | some r, _, _ => r
        | none, some r, _ => r
        | none, none, some r => .ok r
        | none, none, none => .error .malformed

/-- The items of an array from the next one on; `done` are those read, reversed. -/
def elements : Nat → Nat → List Toml → List Char → Except Fault (Toml × List Char)
  | 0, _, _, _ => .error .tooDeep
  | fuel + 1, depth, done, cs => do
    let (v, rest) ← value fuel depth cs
    match ← skipGaps fuel rest with
    | ']' :: rest => .ok (.arr (v :: done).reverse, rest)
    | ',' :: rest =>
      match ← skipGaps fuel rest with
      | ']' :: rest => .ok (.arr (v :: done).reverse, rest)
      | rest => elements fuel depth (v :: done) rest
    | _ => .error .malformed

/-- The members of an inline table from the next one on, after those read. -/
def pairs : Nat → Nat → List (String × Draft) → List Char → Except Fault (Toml × List Char)
  | 0, _, _, _ => .error .tooDeep
  | fuel + 1, depth, done, cs => do
    let ((names, last), rest) ← key fuel cs
    match rest with
    | '=' :: rest =>
      let (v, rest) ← value fuel depth (skipSpace rest)
      let done ← allowed (Draft.edit (Draft.assign v) last (names.map (⟨·, false⟩)) done)
      match skipSpace rest with
      | '}' :: rest => .ok (.table (Draft.finishMembers done), rest)
      | ',' :: rest => pairs fuel depth done (skipSpace rest)
      | _ => .error .malformed
    | _ => .error .malformed

end

/-- The depth to which values may be nested. -/
def maxDepth : Nat := 984

/-! ## Lines -/

/-- **A document that has been read in part**: its members, the table that lines belong to, and the
tables that lines have opened since. -/
structure Reading where
  members : List (String × Draft)
  header : List String
  opened : List (List String)

namespace Reading

/-- The tables that lines have opened count as declared from the next header on. -/
def closeOpened (r : Reading) : Reading :=
  let close (members : List (String × Draft)) (path : List String) :=
    match path.getLast? with
    | some last =>
      (Draft.edit Draft.close last (path.dropLast.map (⟨·, false⟩)) members).getD members
    | none => members
  { r with members := r.opened.foldl close r.members, opened := [] }

/-- A header in front, from behind its brackets: the change that it makes, and the brackets that
close it. -/
def headed (r : Reading) (bound : Nat) (change : Option Draft → Option Draft)
    (closing cs : List Char) : Except Fault (Reading × List Char) := do
  let ((names, last), rest) ← key bound (skipSpace cs)
  let members ← allowed (Draft.edit change last (names.map (⟨·, false⟩)) r.closeOpened.members)
  if closing.isPrefixOf rest then .ok (⟨members, names ++ [last], []⟩, rest.drop closing.length)
  else .error .malformed

/-- A key with its value in front. -/
def assigned (r : Reading) (bound : Nat) (cs : List Char) :
    Except Fault (Reading × List Char) := do
  let ((names, last), rest) ← key bound cs
  match rest with
  | '=' :: rest =>
    let (v, rest) ← value (2 * bound + 2) maxDepth (skipSpace rest)
    let steps := r.header.map (⟨·, false⟩) ++ names.map (⟨·, true⟩)
    let members ← allowed (Draft.edit (Draft.assign v) last steps r.members)
    let prefixes := (List.range names.length).map fun i => r.header ++ names.take (i + 1)
    .ok ({ r with members := members, opened := r.opened ++ prefixes }, rest)
  | _ => .error .malformed

/-- What the front of a line says. -/
def statement (r : Reading) (bound : Nat) : List Char → Except Fault (Reading × List Char)
  | '[' :: '[' :: rest => r.headed bound Draft.extend [']', ']'] rest
  | '[' :: rest => r.headed bound Draft.declare [']'] rest
  | '#' :: rest => .ok (r, '#' :: rest)
  | cs => r.assigned bound cs

/-- Read line after line. The number is above the length of the text. -/
def lines : Nat → Reading → List Char → Except Fault Reading
  | 0, r, _ => .ok r
  | n + 1, r, cs =>
    match skipSpace cs with
    | [] => .ok r
    | '\n' :: rest => lines n r rest
    | cs => do
      let (r, rest) ← r.statement (n + 1) cs
      match ← skipComment (skipSpace rest) with
      | [] => .ok r
      | '\n' :: rest => lines n r rest
      | _ => .error .malformed

end Reading

/-- **The document that a text spells.** -/
def read (s : String) : Except Fault Toml :=
  (Reading.lines (s.toList.length + 1) ⟨[], [], []⟩ s.toList).map fun r =>
    .table (Draft.finishMembers r.members)

end Toml
end Conventions
