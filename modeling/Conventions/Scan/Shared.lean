import Conventions.Cache.Calls
import Conventions.Cache.Store
import Conventions.Scan.Run

/-!
# Scan/Shared — scans that share a cache

Any number of scans work at the same time, each on a file system of its own. A worker takes up a
file, asks the cache for the evidence and reports what came of it, and between two of these steps
anything else may happen: other workers go on, the cache is written to a file, loaded or cleared, or
all ends and begins again with nothing but what was written.
`SharedScans.step` makes one step; a step that cannot be made changes nothing.
-/

namespace Conventions

/-- **A file whose evidence was asked for**: the call, and what was read. -/
structure ScanTask where
  call : Nat
  path : String
  content : ByteArray
  modified : Binary64

/-- **A scan at work**: the files that were asked for, and those it is done with, in the order in
which it was. -/
structure OpenScan where
  target : ScanTarget
  tasks : List ScanTask
  reports : List FileReport

namespace OpenScan

/-- Was a file taken up already? -/
def hasTaken (w : OpenScan) (path : String) : Bool :=
  w.tasks.any (·.path == path) || w.reports.any (·.path == path)

/-- Is a file reported already? -/
def hasReported (w : OpenScan) (path : String) : Bool := w.reports.any (·.path == path)

/-- Is the scan done with all the files that it selected? -/
def isDone (w : OpenScan) : Bool := w.target.selection.selected.all w.hasReported

/-- The scan with one more file that it is done with. -/
def report (w : OpenScan) (r : FileReport) : OpenScan := { w with reports := w.reports ++ [r] }

/-- The files of a scan that did not run out of time. -/
def coverage (w : OpenScan) : ScanCoverage := ⟨w.target.selection, w.reports, false⟩

end OpenScan

/-- **The scans at work on one cache**, and the texts of the stores that it was written to. -/
structure SharedScans where
  calls : CacheCalls
  scans : List OpenScan
  stores : List String

/-- **A step**: one of a worker, for a scan and one of its tasks given by their places, or something
else that is done to the cache. -/
inductive ScanStep where
  | begin (t : ScanTarget)
  | take (i : Nat) (path : String)
  | extract (i j : Nat) (time : Binary64)
  | handOut (call : Nat)
  | receive (call : Nat)
  | report (i j : Nat)
  | finish (i : Nat)
  | flush
  | load (top : FileNode) (path : List String)
  | get (k : CacheKey)
  | retain (root : String) (present : List String)
  | clear
  | stats
  | restart

/-- What is reported of a file whose evidence was asked for. -/
def ScanTask.outcome (task : ScanTask) : Except String (Extraction × Bool) → FileOutcome
  | .ok (x, cached) => .scanned (x.told task.path) task.modified cached
  | .error reason => .scanned ((Extraction.failed reason).told task.path) task.modified false

namespace SharedScans

/-- An empty cache, and no scans. -/
def start : SharedScans := ⟨.start .empty, [], []⟩

/-- The cache that the scans share. -/
def cache (m : SharedScans) : EvidenceCache := m.calls.cache

/-- A step of the cache. -/
def touch (m : SharedScans) (st : CacheStep) : SharedScans := { m with calls := m.calls.step st }

/-- The scan at a place goes on. -/
def put (m : SharedScans) (i : Nat) (w : OpenScan) : SharedScans :=
  { m with scans := m.scans.set i w }

/-- The scan at a place, with the task at a place of it. -/
def task? (m : SharedScans) (i j : Nat) : Option (OpenScan × ScanTask) :=
  m.scans[i]?.bind fun w => w.tasks[j]?.map fun task => (w, task)

/-- A worker of a scan takes up a file: one that cannot be read is reported, and the evidence of
any other is asked for. -/
def take (s : Scanner) (m : SharedScans) (i : Nat) (w : OpenScan) (path : String) : SharedScans :=
  match w.target.read path with
  | .error reason => m.put i (w.report ⟨path, .skipped reason⟩)
  | .ok (content, modified) =>
    (m.touch (.call (s.key w.target path content))).put i
      { w with tasks := w.tasks ++ [⟨m.calls.calls.length, path, content, modified⟩] }

/-- **Make a step.** -/
def step (s : Scanner) (m : SharedScans) : ScanStep → SharedScans
  | .begin t =>
    if !t.selection.selected.isEmpty && t.options.limitTooLong then m
    else { m with scans := m.scans ++ [⟨t, [], []⟩] }
  | .take i path =>
    match m.scans[i]? with
    | some w =>
      if w.target.selection.selected.contains path && !w.hasTaken path then take s m i w path else m
    | none => m
  | .extract i j time =>
    match m.task? i j with
    | some (_, task) =>
      match s.extract task.path task.content with
      | .gives x => m.touch (.succeed task.call x time)
      | .raises reason => m.touch (.raise task.call reason)
      | .hangs => m
    | none => m
  | .handOut call => m.touch (.handOut call)
  | .receive call => m.touch (.receive call)
  | .report i j =>
    match m.task? i j with
    | some (w, task) =>
      match m.calls.state? task.call with
      | some (_, .answered a) =>
        if w.hasReported task.path then m else m.put i (w.report ⟨task.path, task.outcome a⟩)
      | _ => m
    | none => m
  | .finish i =>
    match m.scans[i]? with
    | some w =>
      if w.isDone then
        { m with calls := { m.calls with cache := w.target.forget w.coverage m.cache } }
      else m
    | none => m
  | .flush => { m with stores := m.cache.storeText :: m.stores }
  | .load top path =>
    match top.content path, m.cache.load top path with
    | .ok (content, _), .ok (cache, _) =>
      if (Text.decode? content).any m.stores.contains then
        { m with calls := { m.calls with cache := cache } }
      else m
    | _, _ => m
  | .get k => m.touch (.get k)
  | .retain root present => m.touch (.retain root present)
  | .clear => m.touch .clear
  | .stats => m.touch .stats
  | .restart => { start with stores := m.stores }

/-- **The scans after some steps**, made one after the other. -/
def after (s : Scanner) (steps : List ScanStep) : SharedScans := steps.foldl (step s) start

end SharedScans
end Conventions
