import Conventions.Files.Path
import Conventions.Number.Binary64

/-!
# Files/Tree — files, directories and links

A file system is the directory at its top. `follow` goes along a path from there, through symbolic
links, and says what stands in the way; `settle` only asks where a path would lead.
-/

namespace Conventions

/-- **What a name in a directory stands for.** A file has a time of its last change, in seconds. -/
inductive FileNode where
  | file (content : ByteArray) (modified : Binary64)
  | directory (entries : List (String × FileNode))
  | link (target : String)

instance : Inhabited FileNode := ⟨.directory []⟩

/-- **Why a path leads to no content.** -/
inductive PathFault where
  | missing
  | notDirectory
  | isDirectory
  | tooManyLinks
  | nameTooLong
  | taken
  deriving DecidableEq, Repr

def PathFault.message : PathFault → String
  | .missing => "No such file or directory"
  | .notDirectory => "Not a directory"
  | .isDirectory => "Is a directory"
  | .tooManyLinks => "Too many levels of symbolic links"
  | .nameTooLong => "File name too long"
  | .taken => "File exists"

namespace FileNode

def isDirectory : FileNode → Bool
  | .directory _ => true
  | _ => false

def isFile : FileNode → Bool
  | .file .. => true
  | _ => false

/-- What a directory holds; anything else holds nothing. -/
def entries : FileNode → List (String × FileNode)
  | .directory es => es
  | _ => []

/-- The entry of a name. -/
def child? (n : FileNode) (name : String) : Option FileNode :=
  (n.entries.find? fun e => e.1 == name).map (·.2)

/-- **What is found along some names**, without following links. -/
def at? : FileNode → List String → Option FileNode
  | n, [] => some n
  | n, name :: rest => (n.child? name).bind fun c => c.at? rest

/-! ## Following paths -/

/-- How many links a path may lead through. -/
def mostLinks : Nat := 40

/-- How many bytes a name may have. -/
def mostNameBytes : Nat := 255

/-- How many bytes a path may have. -/
def mostPathBytes : Nat := 4095

/-- The bytes of a path from the top. -/
def pathBytes (path : List String) : Nat :=
  path.foldr (fun name bytes => name.utf8ByteSize + 1 + bytes) 0

/-- What stands at a place, given by its names, the last one first. -/
def standing? (top : FileNode) (place : List String) : Option FileNode := top.at? place.reverse

/-- **Follow the segments of a path** from a directory, given by its names, the last one first. The
result is where the path ends: the names from the top, the last one first. The last name of a path
to something that is created may be missing. -/
def follow (top : FileNode) (creating : Bool) (links : Nat) (here : List String) :
    List String → Except PathFault (List String)
  | [] => .ok here
  | name :: rest =>
    match top.standing? here with
    | some (.directory _) =>
      if name = "" ∨ name = "." then follow top creating links here rest
      else if name = ".." then follow top creating links here.tail rest
      else if mostNameBytes < name.utf8ByteSize then .error .nameTooLong
      else
        match top.standing? (name :: here) with
        | none => if creating && rest.isEmpty then .ok (name :: here) else .error .missing
        | some (.link target) =>
          match links with
          | 0 => .error .tooManyLinks
          | k + 1 =>
            follow top creating k (if Path.isAbsolute target then [] else here)
              (Path.segments target ++ rest)
        | some _ => follow top creating links (name :: here) rest
    | _ => .error .notDirectory
  termination_by rest => (links, rest.length)

/-- **What a path leads to**, given by its segments from the top. -/
def reach (top : FileNode) (path : List String) : Except PathFault FileNode :=
  if mostPathBytes < pathBytes path then .error .nameTooLong
  else
    match follow top false mostLinks [] path with
    | .error fault => .error fault
    | .ok place => (top.at? place.reverse).elim (.error .missing) .ok

/-- **Where the last name of a path stands**, given by the names from the top, the last one first. A
link of that name is not followed, and nothing has to stand there. -/
def placeOf (top : FileNode) (path : List String) : Except PathFault (List String) :=
  if mostPathBytes < pathBytes path then .error .nameTooLong
  else
    match follow top false mostLinks [] path.dropLast, path.getLast? with
    | .error fault, _ => .error fault
    | .ok _, none => .error .isDirectory
    | .ok here, some name =>
      match top.standing? here with
      | some (.directory _) =>
        if name = "" ∨ name = "." ∨ name = ".." then .error .isDirectory
        else if mostNameBytes < name.utf8ByteSize then .error .nameTooLong
        else .ok (name :: here)
      | _ => .error .notDirectory

/-- Does a path lead to something? -/
def reaches (top : FileNode) (path : List String) : Bool := (top.reach path).toBool

/-- Does a path lead to a directory? -/
def reachesDirectory (top : FileNode) (path : List String) : Bool :=
  match top.reach path with
  | .ok n => n.isDirectory
  | .error _ => false

/-- **The content that a path leads to**, with the time of its last change. -/
def content (top : FileNode) (path : List String) : Except PathFault (ByteArray × Binary64) :=
  match top.reach path with
  | .ok (.file bytes modified) => .ok (bytes, modified)
  | .ok _ => .error .isDirectory
  | .error fault => .error fault

/-- **Where a path would lead**: names that are missing are kept as they are. Nothing is said of a
path through too many links. -/
def settle (top : FileNode) (links : Nat) (here : List String) : List String → Option (List String)
  | [] => some here
  | name :: rest =>
    if name = "" ∨ name = "." then settle top links here rest
    else if name = ".." then settle top links here.tail rest
    else
      match top.at? (name :: here).reverse with
      | some (.link target) =>
        match links with
        | 0 => none
        | k + 1 =>
          settle top k (if Path.isAbsolute target then [] else here) (Path.segments target ++ rest)
      | _ => settle top links (name :: here) rest
  termination_by rest => (links, rest.length)

/-- The place where a path would lead, as names from the top. The path is seen from a directory. -/
def settled? (top : FileNode) (directory : List String) (path : String) : Option (List String) :=
  let start := if Path.isAbsolute path then [] else directory.reverse
  (settle top mostLinks start (Path.segments path)).map List.reverse

/-! ## Changes -/

/-- The entries with a name set: in place if it is there, else at the end. -/
def setEntry (name : String) (node : FileNode) : List (String × FileNode) → List (String × FileNode)
  | [] => [(name, node)]
  | e :: rest => if e.1 = name then (name, node) :: rest else e :: setEntry name node rest

/-- **The tree with something put at a place**; what is no directory on the way becomes one. -/
def put : FileNode → List String → FileNode → FileNode
  | _, [], new => new
  | n, name :: rest, new =>
    .directory (setEntry name (put ((n.child? name).getD default) rest new) n.entries)

/-- **The tree without what is at a place.** -/
def remove : FileNode → List String → FileNode
  | n, [] => n
  | n, [name] =>
    match n with
    | .directory es => .directory (es.filter fun e => e.1 != name)
    | other => other
  | n, name :: rest =>
    match n.child? name with
    | some c => .directory (setEntry name (c.remove rest) n.entries)
    | none => n

/-- Make one directory: nothing is done if the path leads to a directory. A link that leads nowhere
is in the way. -/
def makeDirectory (top : FileNode) (path : List String) : Except PathFault FileNode :=
  match top.reach path with
  | .ok n => if n.isDirectory then .ok top else .error .taken
  | .error .missing =>
    match top.placeOf path with
    | .error fault => .error fault
    | .ok place =>
      if (top.standing? place).isSome then .error .taken
      else .ok (top.put place.reverse default)
  | .error fault => .error fault

/-- **Make a directory and those above it** that are missing. -/
def makeDirectories (top : FileNode) (path : List String) : Except PathFault FileNode :=
  ((List.range (path.length + 1)).map path.take).foldlM makeDirectory top

/-- **Write a file.** The directory it belongs to has to be there. -/
def write (top : FileNode) (path : List String) (content : ByteArray) (modified : Binary64) :
    Except PathFault FileNode :=
  if mostPathBytes < pathBytes path then .error .nameTooLong
  else
    match follow top true mostLinks [] path with
    | .error fault => .error fault
    | .ok place =>
      match top.standing? place with
      | some (.directory _) => .error .isDirectory
      | _ => .ok (top.put place.reverse (.file content modified))

/-- **Move what is at a place to another one.** A file takes the place of a file, and a directory
that of an empty directory. -/
def rename (top : FileNode) (source target : List String) : Except PathFault FileNode :=
  match top.at? source, top.at? target with
  | none, _ => .error .missing
  | some n, none => .ok ((top.remove source).put target n)
  | some n, some old =>
    if n.isDirectory && !old.isDirectory then .error .notDirectory
    else if old.isDirectory && !(n.isDirectory && old.entries.isEmpty) then .error .isDirectory
    else .ok ((top.remove source).put target n)

/-- **Move what a path names to another one.** Links are moved, not what they lead to. -/
def move (top : FileNode) (source target : List String) : Except PathFault FileNode := do
  let place ← top.placeOf source
  let aside ← top.placeOf target
  top.rename place.reverse aside.reverse

/-- The bytes that a directory takes by itself. -/
def directoryBytes : Nat := 4096

/-- The size of what a path leads to. -/
def sizeAt (top : FileNode) (path : List String) : Except PathFault Nat :=
  (top.reach path).map fun
    | .file content _ => content.size
    | _ => directoryBytes

/-! ## Listing -/

mutual

/-- **The files below a directory**, as names from there. Directories with an ignored name are left
out. A link is listed, unless it leads to a directory. -/
def files (ignored : String → Bool) (leadsToDirectory : List String → Bool) (here : List String) :
    FileNode → List (List String)
  | .directory es => filesIn ignored leadsToDirectory here es
  | _ => []

def filesIn (ignored : String → Bool) (leadsToDirectory : List String → Bool)
    (here : List String) : List (String × FileNode) → List (List String)
  | [] => []
  | (name, node) :: rest =>
    (match node with
      | .file .. => [here ++ [name]]
      | .link _ => if leadsToDirectory (here ++ [name]) then [] else [here ++ [name]]
      | .directory es =>
        if ignored name then [] else filesIn ignored leadsToDirectory (here ++ [name]) es) ++
      filesIn ignored leadsToDirectory here rest

end

end FileNode
end Conventions
