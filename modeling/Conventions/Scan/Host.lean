import Conventions.Environment
import Conventions.Files.Tree

/-!
# Scan/Host — what a scan finds around it, and where its root is

The root of a scan is given as text. It may begin with the name of a home directory, and it is
looked for from the directory that the scan was started in. A root that is no directory is refused.
-/

namespace Conventions

/-- **What a scan finds around it.** Time stands still while it works: `now` is when it was started,
and `elapsed` are the seconds that it is said to have taken. -/
structure Host where
  top : FileNode
  environment : Environment
  workingDirectory : List String
  homes : List (String × List String)
  now : Binary64
  elapsed : Binary64

/-- **Why a scan has no root.** -/
inductive RootFault where
  | unreadable
  | brokenName
  | nameTooLong
  | linkLoop
  | noHome
  deriving DecidableEq, Repr

/-- What is said of a root that a scan has not got. -/
def RootFault.message : RootFault → String
  | .unreadable => "Scan root is not a readable directory."
  | .brokenName => "A path has no place for a null character."
  | .nameTooLong => "File name too long"
  | .linkLoop => "The links of a path lead in a circle."
  | .noHome => "Could not determine home directory."

namespace Host

instance : Inhabited Host := ⟨⟨default, [], [], [], .zero, .zero⟩⟩

/-- The names that a path has from the top. -/
def place (h : Host) (path : String) : List String :=
  (if Path.isAbsolute path then [] else h.workingDirectory) ++ Path.parts path

/-- Does a text have a null character, which no path has? -/
def isBroken (path : String) : Bool := path.toList.contains '\x00'

/-- **The place where a path leads to**, as names from the top, whether something is there or not. -/
def locate (h : Host) (directory : List String) (path : String) :
    Except RootFault (List String) :=
  if isBroken path then .error .brokenName
  else (h.top.settled? directory path).elim (.error .linkLoop) .ok

/-- Take a place as a root. -/
def checkRoot (h : Host) (place : List String) : Except RootFault (List String) :=
  match h.top.reach place with
  | .ok (.directory _) => .ok place
  | .error .nameTooLong => .error .nameTooLong
  | _ => .error .unreadable

/-- **The root at a path**, seen from a directory. -/
def rootFrom (h : Host) (directory : List String) (path : String) :
    Except RootFault (List String) := do
  h.checkRoot (← h.locate directory path)

/-- A path with the home directory that it begins with. -/
def expanded (h : Host) (path : String) : Except RootFault (List String × String) :=
  match Path.root path, Path.parts path with
  | "", first :: rest =>
    match first.toList with
    | '~' :: name =>
      match h.homes.find? fun home => home.1 == String.ofList name with
      | some (_, home) => .ok (home, String.intercalate "/" rest)
      | none => .error .noHome
    | _ => .ok (h.workingDirectory, path)
  | _, _ => .ok (h.workingDirectory, path)

/-- **The root that a text names.** -/
def root (h : Host) (path : String) : Except RootFault (List String) := do
  let (directory, path) ← h.expanded path
  h.rootFrom directory path

end Host
end Conventions
