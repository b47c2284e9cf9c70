import Conventions.Files.Glob
import Conventions.Files.Tree
import Conventions.Scan.Options
import Conventions.Sequence

/-!
# Files/Selection — the files that a scan looks at

Files are selected by extension and patterns. The main entries of a project come first, and no
pattern has to include them; each part is in the order of paths. A ceiling cuts the list.
-/

namespace Conventions

/-- **The files selected**, and how many there were before the ceiling cut the list. -/
structure FileSelection where
  selected : List String
  discovered : Nat
  capped : Bool
  deriving DecidableEq, Repr, Inhabited

/-- **Is a path that of a main entry** of a project: a file with one of some names, in the project
directory or in its source directory? Only the last extension is taken from the name. Nothing is
said of a path that names nothing. -/
def Path.mainEntry? (names : List String) (path : String) : Option Bool :=
  let all := (if root path = "" then [] else [root path]) ++ parts path
  all.getLast?.map fun last =>
    let name := stem (if last.toList.head? = some '/' then "" else last)
    !name.toList.contains '.' && names.contains name
      && (all.length == 1 || (all.length == 2 && all.head? == some "src"))

namespace FileSelection

/-- Does a name end with one of the extensions, whatever the case of its letters? -/
def hasExtension (extensions : List String) (name : String) : Bool :=
  extensions.any fun e => (Text.lower e).toList.isSuffixOf (Text.lower name).toList

/-- Is the path that of a main entry? -/
def isMain (o : ScanOptions) (path : String) : Bool :=
  (Path.mainEntry? o.mainEntryNames path).getD false

/-- **Does a scan look at a file?** -/
def admits (o : ScanOptions) (path : String) : Bool :=
  hasExtension o.extensions (Path.fileName path)
    && !(o.excluded.any fun p => Glob.covers p path)
    && (isMain o path || o.included.isEmpty || o.included.any fun p => Glob.covers p path)

/-- The selected files in their order, before the ceiling cuts. -/
def ordered (o : ScanOptions) (paths : List String) : List String :=
  let admitted := paths.filter (admits o)
  Text.distinct (admitted.filter (isMain o)) ++ Text.distinct (admitted.filter fun p => !isMain o p)

/-- **The selection from some paths.** -/
def ofPaths (o : ScanOptions) (paths : List String) : FileSelection :=
  let all := ordered o paths
  { selected := Sequence.firstItems o.maxFiles all
    discovered := all.length
    capped := decide (o.maxFiles < all.length) }

/-- The paths of the files below a directory of a file system that no excluded directory hides. -/
def paths (o : ScanOptions) (top : FileNode) (root : List String) : List String :=
  match top.at? root with
  | some n =>
    (n.files o.excludedDirs.contains (fun p => top.reachesDirectory (root ++ p)) []).map
      (String.intercalate "/")
  | none => []

/-- **The selection of a project**, given by the names of its directory. -/
def ofProject (o : ScanOptions) (top : FileNode) (root : List String) : FileSelection :=
  ofPaths o (paths o top root)

end FileSelection
end Conventions
