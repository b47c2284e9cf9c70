import Conventions.Audit.Event
import Conventions.Files.Selection
import Conventions.Project.Metadata
import Conventions.Scan.File
import Conventions.Verdict.Document

/-!
# Scan/Context — what a scan tells of a project

The files that a scan is done with are taken in the order of their paths, whichever order they were
done in. Their evidence makes the verdicts, and their outcomes are counted. A scan that did not come
to all files is partial, and leaves an event for each reason.
-/

namespace Conventions

/-- **The files of a scan**: those selected, those it is done with, and whether it ran out of
time. -/
structure ScanCoverage where
  selection : FileSelection
  reports : List FileReport
  timedOut : Bool
  deriving Repr

namespace ScanCoverage

/-- The files that the scan is done with, in the order of their paths. -/
def ordered (c : ScanCoverage) : List FileReport :=
  c.reports.mergeSort fun a b => (compare a.path b.path).isLE

/-- The files that were scanned, in the order of their paths. -/
def scanned (c : ScanCoverage) : List (String × Extraction × Binary64 × Bool) :=
  c.ordered.filterMap fun r =>
    match r.outcome with
    | .scanned x modified cached => some (r.path, x, modified, cached)
    | .skipped _ => none

/-- The files that were skipped, in the order of their paths. -/
def skipped (c : ScanCoverage) : List (String × SkipReason) :=
  c.ordered.filterMap fun r =>
    match r.outcome with
    | .scanned .. => none
    | .skipped reason => some (r.path, reason)

/-- **The evidence of the files scanned.** -/
def evidence (c : ScanCoverage) : List Evidence := c.scanned.flatMap fun f => f.2.1.evidence

/-- The times of the files scanned. -/
def times (c : ScanCoverage) : Times := Times.ofList (c.scanned.map fun f => (f.1, f.2.2.1))

/-- **The verdicts on the project.** -/
def patterns (c : ScanCoverage) : Patterns := .ofEvidence c.times c.evidence

/-- The files that could not be parsed. -/
def parseFailures (c : ScanCoverage) : List String :=
  (c.scanned.filter fun f => f.2.1.parseFailed).map (·.1)

/-- How many files had their evidence in the cache. -/
def hits (c : ScanCoverage) : Nat := c.scanned.countP fun f => f.2.2.2

/-- How many files had their evidence extracted. -/
def extractions (c : ScanCoverage) : Nat := c.scanned.countP fun f => !f.2.2.2

/-- **Why the scan is partial**, in the order of time. -/
def reasons (c : ScanCoverage) : List CapReason :=
  (if c.selection.capped then [.maxFiles] else []) ++ (if c.timedOut then [.scanTimeout] else [])

/-- **The events that the scan leaves.** -/
def events (c : ScanCoverage) (o : ScanOptions) (elapsed : Binary64) : List CapEvent :=
  c.reasons.map fun reason =>
    ⟨reason, o.limits, c.selection.discovered, c.scanned.length, c.skipped.length, .binary elapsed⟩

end ScanCoverage

/-- **How a scan went.** -/
structure ScanDiagnostics where
  discovered : Nat
  scanned : Nat
  parseFailures : List String
  skipped : List (String × SkipReason)
  hits : Nat
  extractions : Nat
  isPartial : Bool
  capReason : Option CapReason
  elapsed : Binary64
  deriving DecidableEq, Repr

namespace ScanDiagnostics

/-- **The diagnostics of a scan** of some files. -/
def ofCoverage (c : ScanCoverage) (elapsed : Binary64) : ScanDiagnostics where
  discovered := c.selection.discovered
  scanned := c.scanned.length
  parseFailures := c.parseFailures
  skipped := c.skipped
  hits := c.hits
  extractions := c.extractions
  isPartial := c.timedOut || c.selection.capped
  capReason := c.reasons.getLast?
  elapsed := elapsed

def document (d : ScanDiagnostics) : Json :=
  .obj [("files_discovered", .int d.discovered), ("files_scanned", .int d.scanned),
    ("parse_failures", .arr (d.parseFailures.map .str)),
    ("skipped", .arr (d.skipped.map fun (path, reason) =>
      .obj [("path", .str path), ("reason", .str reason.name)])),
    ("cache_hits", .int d.hits), ("extractions", .int d.extractions),
    ("partial", .bool d.isPartial), ("cap_reason", (d.capReason.map (.str ·.name)).getD .null),
    ("elapsed_seconds", .float (d.elapsed.roundTo 4))]

end ScanDiagnostics

/-- **What a scan tells of a project.** -/
structure ProjectContext where
  metadata : ProjectMetadata
  patterns : Patterns
  diagnostics : ScanDiagnostics

/-- The verdicts as a document, by the names of their categories. -/
def Patterns.document (p : Patterns) : Json :=
  .obj ((Text.sortedBy Category.name Category.all).map fun c => (c.name, (p c).document))

/-- **A context as a document.** -/
def ProjectContext.document (c : ProjectContext) : Json :=
  .obj [("metadata", c.metadata.document), ("patterns", c.patterns.document),
    ("diagnostics", c.diagnostics.document)]

end Conventions
