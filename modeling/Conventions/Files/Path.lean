import Conventions.Text.Lower

/-!
# Files/Path — names of files in a project

A path is written with slashes. The extension of a file is what its name ends with, from its last
point on, in small letters.
-/

namespace Conventions
namespace Path

/-- The parts of a text between the characters that hold a test. -/
def splitWhere (isMark : Char → Bool) : List Char → List (List Char)
  | [] => [[]]
  | c :: rest =>
    if isMark c then [] :: splitWhere isMark rest
    else
      match splitWhere isMark rest with
      | part :: parts => (c :: part) :: parts
      | [] => [[c]]

/-- The parts of a path between its slashes. -/
def segments (path : String) : List String :=
  (splitWhere (· == '/') path.toList).map String.ofList

/-- Is a path given from the top of the file system? -/
def isAbsolute (path : String) : Bool := path.toList.head? == some '/'

/-- Follow the segments of a path from a directory: a point stays, two points go up. The directory
is given by its segments, the last one first. -/
def follow (directory : List String) : List String → List String
  | [] => directory
  | segment :: rest =>
    if segment = "" ∨ segment = "." then follow directory rest
    else if segment = ".." then follow directory.tail rest
    else follow (segment :: directory) rest

/-- **The segments of a path as seen from a directory**, without points. -/
def resolve (directory : List String) (path : String) : List String :=
  (follow (if isAbsolute path then [] else directory.reverse) (segments path)).reverse

/-- The path from the top of the file system with some segments. -/
def absolute (parts : List String) : String := "/" ++ String.intercalate "/" parts

/-- The mark that a path begins with if it is absolute: one slash, or exactly two. -/
def root (path : String) : String :=
  match path.toList with
  | '/' :: '/' :: '/' :: _ => "/"
  | '/' :: '/' :: _ => "//"
  | '/' :: _ => "/"
  | _ => ""

/-- The segments of a path that name something; points and gaps between slashes do not. -/
def parts (path : String) : List String := (segments path).filter fun p => p != "" && p != "."

/-- The last segment of a path that names something; there may be none. -/
def lastName (path : String) : String := (parts path).getLast?.getD ""

/-- A name without its extension: the text before the last point, unless that point stands at the
front or at the end. -/
def stem (name : String) : String :=
  match (splitWhere (· == '.') name.toList).reverse with
  | last :: front :: others =>
    let before := ['.'].intercalate (front :: others).reverse
    if last.isEmpty || before.isEmpty then name else String.ofList before
  | _ => name

/-- **A file in a directory**, without idle points and slashes. -/
def join (directory name : String) : String :=
  root directory ++ String.intercalate "/" (parts directory ++ parts name)

/-- A path without idle points and slashes; one that names nothing is a point. -/
def tidy (path : String) : String :=
  let plain := root path ++ String.intercalate "/" (parts path)
  if plain = "" then "." else plain

/-- **The name of a file**: the last segment of its path. -/
def fileName (path : String) : String := (segments path).getLast?.getD ""

/-- **The extension of a file**, its point included; a name without a point has none. -/
def extension (path : String) : String :=
  match (splitWhere (· == '.') (fileName path).toList).reverse with
  | last :: _ :: _ => "." ++ Text.lower (String.ofList last)
  | _ => ""

end Path
end Conventions
