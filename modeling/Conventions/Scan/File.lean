import Conventions.Cache.Basic
import Conventions.Extraction
import Conventions.Files.Digest
import Conventions.Files.Tree
import Conventions.Scan.Options

/-!
# Scan/File — one file of a scan

A selected file is read, unless it is too large, and its evidence is taken from the cache or
extracted. Evidence is told of the path in the project, whichever scan it was extracted for.
-/

namespace Conventions

/-- **Why a selected file was not looked into.** -/
inductive SkipReason where
  | tooLarge
  | unreadable
  deriving DecidableEq, Repr

def SkipReason.name : SkipReason → String
  | .tooLarge => "too-large"
  | .unreadable => "unreadable"

/-- **What comes of a selected file.** -/
inductive FileOutcome where
  | skipped (reason : SkipReason)
  | scanned (extraction : Extraction) (modified : Binary64) (cached : Bool)
  deriving DecidableEq, Repr, Inhabited

/-- **A file that a scan is done with.** -/
structure FileReport where
  path : String
  outcome : FileOutcome
  deriving DecidableEq, Repr

/-- **How files are scanned**: the fingerprint of a content, and what is extracted from the content
of a file at a path. -/
structure Scanner where
  fingerprint : ByteArray → String
  extract : String → ByteArray → Attempt

/-- **A project that is scanned**: the file system, the names of its directory, and the options. -/
structure ScanTarget where
  top : FileNode
  root : List String
  options : ScanOptions

namespace ScanTarget

/-- The place of a file of the project. -/
def place (t : ScanTarget) (path : String) : List String := t.root ++ Path.segments path

/-- The path of a file of the project, from the top. -/
def absolute (t : ScanTarget) (path : String) : String := Path.absolute (t.place path)

/-- **Read a file of the project**: its content and the time of its last change. -/
def read (t : ScanTarget) (path : String) : Except SkipReason (ByteArray × Binary64) :=
  match t.top.content (t.place path) with
  | .ok (content, modified) =>
    if t.options.maxFileBytes < content.size then .error .tooLarge else .ok (content, modified)
  | .error _ => .error .unreadable

end ScanTarget

/-- An extraction with all evidence told of a path. -/
def Extraction.told (x : Extraction) (path : String) : Extraction :=
  { x with evidence := x.evidence.map fun e => { e with file := path } }

namespace Scanner

/-- **The scanner of this library.** -/
def standard : Scanner where
  fingerprint := Digest.fingerprint
  extract := fun path content => .gives ((Source.mk content).extraction path)

/-- What the cache keeps the extraction of a content under. -/
def key (s : Scanner) (t : ScanTarget) (path : String) (content : ByteArray) : CacheKey :=
  ⟨t.absolute path, s.fingerprint content⟩

/-- **Take the evidence of a content from the cache, or extract it.** An exception leaves a file
that could not be parsed, and an extraction that hangs leaves nothing. -/
def examine (s : Scanner) (t : ScanTarget) (now : Binary64) (cache : EvidenceCache) (path : String)
    (content : ByteArray) : Option (Extraction × Bool) × EvidenceCache :=
  let (answer, cache) :=
    cache.getOrExtract (s.key t path content) (fun _ => s.extract path content) now
  (answer.map fun
    | .ok found => found
    | .error reason => (.failed reason, false), cache)

/-- **Scan one file**; nothing comes of a file whose extraction hangs. -/
def scanFile (s : Scanner) (t : ScanTarget) (now : Binary64) (cache : EvidenceCache)
    (path : String) : Option FileOutcome × EvidenceCache :=
  match t.read path with
  | .error reason => (some (.skipped reason), cache)
  | .ok (content, modified) =>
    let (found, cache) := s.examine t now cache path content
    (found.map fun (x, cached) => .scanned (x.told path) modified cached, cache)

/-- **Scan some files**, in their order, by a number of workers. A worker whose extraction hangs
takes no other file; what all workers together leave is not scanned. The answer says whether
anything was left. -/
def scanFiles (s : Scanner) (t : ScanTarget) (now : Binary64) :
    Nat → EvidenceCache → List String → List FileReport × Bool × EvidenceCache
  | _, cache, [] => ([], false, cache)
  | 0, cache, _ :: _ => ([], true, cache)
  | workers + 1, cache, path :: rest =>
    match s.scanFile t now cache path with
    | (some outcome, cache) =>
      let (reports, left, cache) := s.scanFiles t now (workers + 1) cache rest
      (⟨path, outcome⟩ :: reports, left, cache)
    | (none, cache) =>
      let (reports, _, cache) := s.scanFiles t now workers cache rest
      (reports, true, cache)

end Scanner
end Conventions
