import Conventions.Files.Tree
import Conventions.Json.Reader
import Conventions.Text.Blank
import Conventions.Text.Lower
import Conventions.Text.Utf8
import Conventions.Toml.Reader
import Conventions.Xml.Reader

/-!
# Project/Manifest — what the manifests of a project say

Four files in the directory of a project name its dependencies. One that cannot be read is noted and
left aside.
-/

namespace Conventions

/-- **What is noted about a manifest** that does not count, or not in full. -/
inductive ManifestNote where
  | oversized (name : String)
  | unreadable (name : String)
  | malformed (name : String)
  | notObject
  deriving DecidableEq, Repr

/-- The wording of a note, with marks for the name of the file and for the reason. -/
def ManifestNote.template : ManifestNote → String
  | .oversized _ => "Skipping oversized manifest %s"
  | .unreadable _ => "Unable to read manifest %s: %s"
  | .malformed name => "Malformed " ++ name ++ " ignored: %s"
  | .notObject => "package.json is not an object; ignored."

/-- **What a manifest may hold that goes beyond what is read.** -/
inductive ManifestFault where
  | tooManyDigits
  | tooDeep
  | unknownEncoding
  | wideEncoding
  | brokenEncoding
  deriving DecidableEq, Repr

/-- A look at manifests that keeps notes. -/
abbrev Survey := StateT (List ManifestNote) (Except ManifestFault)

namespace Survey

def note (n : ManifestNote) : Survey Unit := modify (· ++ [n])

/-- Something that is noted and gives nothing. -/
def without {α : Type} (n : ManifestNote) : Survey (Option α) := do
  note n
  pure none

def stop {α : Type} (f : ManifestFault) : Survey α := throw f

end Survey

namespace Manifest

/-- How many bytes a manifest may have. -/
def mostBytes : Nat := 512000

/-- The text of a manifest in the directory of a project, if the file is there and can be read. -/
def text? (top : FileNode) (root : List String) (name : String) : Survey (Option String) :=
  match top.reach (root ++ [name]) with
  | .ok (.file content _) =>
    if mostBytes < content.size then Survey.without (.oversized name)
    else
      match Text.decode? content with
      | some s => pure (some (String.ofList (Text.unifyNewlines s.toList)))
      | none => Survey.without (.unreadable name)
  | _ => pure none

/-! ## Packages -/

/-- The members of the object in `package.json`. -/
def package? (top : FileNode) (root : List String) :
    Survey (Option (List (String × Json))) := do
  match ← text? top root "package.json" with
  | none => pure none
  | some s =>
    match Json.read s with
    | .ok (.obj members) => pure (some members)
    | .ok _ => Survey.without .notObject
    | .error .tooManyDigits => Survey.stop .tooManyDigits
    | .error .tooDeep => Survey.stop .tooDeep
    | .error _ => Survey.without (.malformed "package.json")

/-! ## Requirements -/

def isNameStart (c : Char) : Bool := c.isAlphanum

def isNameChar (c : Char) : Bool := c.isAlphanum || c == '.' || c == '_' || c == '-'

/-- **The name that a requirement begins with**, in small letters. -/
def requirement? (s : String) : Option String :=
  match Text.stripStart s.toList with
  | c :: rest =>
    if isNameStart c then some (Text.lower (String.ofList (c :: rest.takeWhile isNameChar)))
    else none
  | [] => none

/-- Does a value hold a whole number with more digits than are written? -/
def isTooLong : Toml → Bool
  | .int i => (Nat.toDigits 10 i.natAbs).length > Toml.maxDigits
  | _ => false

mutual

/-- Does a value hold such a number anywhere? -/
def holdsTooLong : Toml → Bool
  | .arr items => anyTooLong items
  | .table members => anyMemberTooLong members
  | v => isTooLong v

def anyTooLong : List Toml → Bool
  | [] => false
  | v :: rest => holdsTooLong v || anyTooLong rest

def anyMemberTooLong : List (String × Toml) → Bool
  | [] => false
  | m :: rest => holdsTooLong m.2 || anyMemberTooLong rest

end

/-- The requirements of a project in a document. -/
def requirementsOf (document : Toml) : List Toml :=
  match (document.get? "project").bind (Toml.get? "dependencies") with
  | some (.arr items) => items
  | _ => []

/-- The names required in `pyproject.toml`; none if it cannot be understood. -/
def projectNames? (top : FileNode) (root : List String) : Survey (Option (List String)) := do
  match ← text? top root "pyproject.toml" with
  | none => pure none
  | some s =>
    match Toml.read s with
    | .ok document =>
      let items := requirementsOf document
      if anyTooLong items then Survey.stop .tooManyDigits
      else pure (some (items.filterMap fun v => v.spelled?.bind requirement?))
    | .error .tooManyDigits => Survey.stop .tooManyDigits
    | .error .tooDeep => Survey.stop .tooDeep
    | .error .malformed => do
      Survey.note (.malformed "pyproject.toml")
      pure (some [])

/-- Is a line a comment or an option? -/
def isAside (line : String) : Bool :=
  let front := (Text.stripStart line.toList).head?
  front == some '#' || front == some '-'

/-- The names required in `requirements.txt`, line by line. -/
def listedNames? (top : FileNode) (root : List String) : Survey (Option (List String)) := do
  match ← text? top root "requirements.txt" with
  | none => pure none
  | some s =>
    pure (some (((Text.lines s).filter fun line => !isAside line).filterMap requirement?))

/-! ## Artifacts -/

/-- The names of artifacts in a document. -/
def artifactsOf (e : XmlElement) : List String :=
  ((e.all.filter fun e => e.name == "artifactId").map fun e => Text.strip e.text).filter (· != "")

/-- **The artifacts in `pom.xml`**, or nothing that is understood of it. -/
inductive Artifacts where
  | absent
  | notUnderstood
  | named (names : List String)

def artifacts (top : FileNode) (root : List String) : Survey Artifacts := do
  match ← text? top root "pom.xml" with
  | none => pure .absent
  | some s =>
    match Xml.read s with
    | .ok e => pure (.named (artifactsOf e))
    | .error .malformed => do
      Survey.note (.malformed "pom.xml")
      pure .notUnderstood
    | .error .unknownEncoding => Survey.stop .unknownEncoding
    | .error .wideEncoding => Survey.stop .wideEncoding
    | .error .brokenEncoding => Survey.stop .brokenEncoding

end Manifest
end Conventions
