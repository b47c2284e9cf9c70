import Conventions.Scan.Context
import Conventions.Scan.Host

/-!
# Scan/Run — a scan from its root to its context

A scan selects the files of its root, looks into them and gives its context. When it came to all
files, the cache forgets those below the root that are gone. `Scanner.cover` and `Scanner.forget`
are the steps that touch the cache.
-/

namespace Conventions

/-- **Why a scan gives no context.** -/
inductive ScanFault where
  | root (fault : RootFault)
  | limitTooLong
  | manifest (fault : ManifestFault)
  deriving DecidableEq, Repr

/-- **What a scan leaves**: the cache, the events and the context. -/
structure ScanRun where
  cache : EvidenceCache
  events : List CapEvent
  context : Except ScanFault ProjectContext

/-- The most seconds that one can wait: a clock counts nanoseconds in 63 bits. -/
def ScanOptions.longestWait : Binary64 := Binary64.ofDecimal false 9223372036854775 (-6)

/-- Is the limit of a scan longer than one can wait? -/
def ScanOptions.limitTooLong (o : ScanOptions) : Bool :=
  (o.timeout.map ScanOptions.longestWait.lt).getD false

namespace ScanTarget

/-- The files that a scan selects. -/
def selection (t : ScanTarget) : FileSelection := .ofProject t.options t.top t.root

/-- How many files are looked into at a time. -/
def workers (t : ScanTarget) : Nat := (max 1 t.options.concurrency).toNat

/-- **Forget what the cache has of files that are gone**, if a scan came to all files. -/
def forget (t : ScanTarget) (c : ScanCoverage) (cache : EvidenceCache) : EvidenceCache :=
  if c.timedOut || c.selection.capped then cache
  else cache.retain (Path.absolute t.root) (c.selection.selected.map t.absolute)

/-- **The context of a scan** of some files. -/
def context (t : ScanTarget) (c : ScanCoverage) (elapsed : Binary64) :
    Except ScanFault ProjectContext :=
  match ProjectMetadata.detect t.top t.root with
  | .ok (metadata, _) => .ok ⟨metadata, c.patterns, .ofCoverage c elapsed⟩
  | .error fault => .error (.manifest fault)

end ScanTarget

namespace Scanner

/-- **Look into the files that are selected.** -/
def cover (s : Scanner) (t : ScanTarget) (now : Binary64) (cache : EvidenceCache) :
    ScanCoverage × EvidenceCache :=
  let (reports, timedOut, cache) := s.scanFiles t now t.workers cache t.selection.selected
  (⟨t.selection, reports, timedOut⟩, cache)

/-- **Scan a project.** -/
def scanTarget (s : Scanner) (t : ScanTarget) (now elapsed : Binary64) (cache : EvidenceCache) :
    ScanRun :=
  if !t.selection.selected.isEmpty && t.options.limitTooLong then
    ⟨cache, [], .error .limitTooLong⟩
  else
    let (c, cache) := s.cover t now cache
    ⟨t.forget c cache, c.events t.options elapsed, t.context c elapsed⟩

/-- **Scan the project at a root**, if it is one. -/
def scan (s : Scanner) (h : Host) (o : ScanOptions) (cache : EvidenceCache)
    (root : Except RootFault (List String)) : ScanRun :=
  match root with
  | .ok root => s.scanTarget ⟨h.top, root, o⟩ h.now h.elapsed cache
  | .error fault => ⟨cache, [], .error (.root fault)⟩

end Scanner
end Conventions
