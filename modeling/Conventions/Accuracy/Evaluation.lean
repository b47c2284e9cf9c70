import Conventions.Accuracy.Report
import Conventions.Scan.Run

/-!
# Accuracy/Evaluation — a corpus held against scans

The projects of a corpus are scanned in their order, with one cache. A project whose root cannot be
read is left out; the reports tell of it.
-/

namespace Conventions

/-- **Why an evaluation gives no reports.** -/
inductive EvaluationFault where
  | corpus (fault : Corpus.ReadFault)
  | scan (fault : ScanFault)
  | verdict (fault : VerdictFault)
  deriving DecidableEq, Repr

/-- **What an evaluation leaves**: the cache, the events and the result. -/
structure EvaluationRun (α : Type) where
  cache : EvidenceCache
  events : List CapEvent
  result : Except EvaluationFault α

/-- **The corpus in a file**, and the directory that its paths are seen from. -/
def Corpus.load (h : Host) (path : String) : Except EvaluationFault (Corpus × List String) :=
  match h.locate h.workingDirectory path, h.top.content (h.place path) with
  | .error .brokenName, _ => .error (.scan (.root .brokenName))
  | _, .error fault => .error (.corpus (.corpus (.unreadable fault.message)))
  | .error fault, _ => .error (.scan (.root fault))
  | .ok place, .ok (content, _) =>
    match Corpus.read content with
    | .ok corpus => .ok (corpus, place.dropLast)
    | .error fault => .error (.corpus fault)

namespace Scanner

/-- **Scan the projects of some cases**, seen from a directory. -/
def runCases (s : Scanner) (h : Host) (o : ScanOptions) (base : List String)
    (cache : EvidenceCache) : List CorpusCase → EvaluationRun (List CaseRun)
  | [] => ⟨cache, [], .ok []⟩
  | case :: rest =>
    let run := s.scan h o cache (h.rootFrom base case.path)
    let after (patterns : Option Patterns) : EvaluationRun (List CaseRun) :=
      let later := s.runCases h o base run.cache rest
      ⟨later.cache, run.events ++ later.events, later.result.map (⟨case, patterns⟩ :: ·)⟩
    match run.context with
    | .ok context => after (some context.patterns)
    | .error (.root .unreadable) => after none
    | .error fault => ⟨run.cache, run.events, .error (.scan fault)⟩

/-- **Hold a corpus against scans.** -/
def evaluate (s : Scanner) (h : Host) (o : ScanOptions) (cache : EvidenceCache)
    (corpus : Corpus) (base : List String) (measure : Option (List String)) :
    EvaluationRun (List AccuracyReport) :=
  match MeasurePlan.ofRequest corpus measure with
  | .error fault => ⟨cache, [], .error (.corpus (.corpus fault))⟩
  | .ok plan =>
    let run := s.runCases h o base cache corpus.cases
    ⟨run.cache, run.events, run.result.bind fun runs =>
      (AccuracyReport.all plan runs).mapError .verdict⟩

end Scanner
end Conventions
