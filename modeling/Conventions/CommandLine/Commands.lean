import Conventions.Accuracy.Document
import Conventions.Accuracy.Evaluation
import Conventions.Cache.Store
import Conventions.CommandLine.Arguments
import Conventions.Service

/-!
# CommandLine/Commands — scans and evaluations from the command line

One command scans a project and prints the answer of the service, with a cache in a file if one is
named. The other holds a corpus against scans and prints the reports; a corpus that cannot be
trusted ends it with an error.
-/

namespace Conventions

/-- **Why a command breaks off.** -/
inductive CommandFault where
  | service (fault : ServiceFault)
  | store (fault : StoreFault)
  | flush (fault : FlushFault)
  | evaluation (fault : EvaluationFault)
  | brokenContract
  deriving DecidableEq, Repr

/-- **How a command ends**: with a status and what it prints, without having begun, or by breaking
off. -/
inductive CommandEnd where
  | finished (status : Nat) (output errors : String)
  | turnedAway (status : Nat)
  | broken (fault : CommandFault)
  deriving DecidableEq, Repr

/-- **What a command leaves**: the files, the events, and how it ended. -/
structure CommandRun where
  top : FileNode
  events : List CapEvent
  ending : CommandEnd

namespace Command

/-- The status of a command that was done. -/
def done : Nat := 0

/-- The status of a scan that was answered with an error. -/
def failed : Nat := 1

/-- The status of a command that could not be begun, or has nothing to trust. -/
def refused : Nat := 2

/-- A document as a command prints it. -/
def printed (j : Json) : String := j.indented ++ "\n"

/-- An option with any text as its value. -/
def textForm (name : String) : OptionForm := ⟨name, true, fun _ => true⟩

/-- An option with a whole number as its value. -/
def wholeForm (name : String) : OptionForm := ⟨name, true, fun s => (Numeral.whole? s).isSome⟩

/-! ## Scans -/

/-- **The options of a scan.** -/
def scanForms : List OptionForm :=
  [textForm "--include", textForm "--exclude", wholeForm "--max-files", wholeForm "--concurrency",
    ⟨"--timeout", true, fun s => (Numeral.binary64? s).isSome⟩, textForm "--cache-file",
    ⟨"--verbose", false, fun _ => false⟩]

/-- **The request that the words of a command make.** -/
def scanRequest (path : String) (values : List (String × String)) : Json :=
  let list (key name : String) : List (String × Json) :=
    match Arguments.valuesOf name values with
    | [] => []
    | texts => [(key, .arr (texts.map .str))]
  let whole (key name : String) : List (String × Json) :=
    (((Arguments.lastOf name values).bind Numeral.whole?).map fun i => (key, Json.int i)).toList
  let seconds := ((Arguments.lastOf "--timeout" values).bind Numeral.binary64?).map fun x =>
    ("timeout_seconds", Json.float x)
  .obj ([("root", .str (Path.tidy path))] ++ list "include" "--include" ++
    list "exclude" "--exclude" ++ whole "max_files" "--max-files" ++
    whole "concurrency" "--concurrency" ++ seconds.toList)

/-- The status of a command that prints the answer of the service. -/
def statusOf (answer : Json) : Nat :=
  if (answer.get? "status").bind Json.str? = some "error" then failed else done

/-- The cache that a scan begins with, from the file of the cache. -/
def loaded (h : Host) (file : Option String) : Except StoreFault EvidenceCache :=
  match file with
  | some path => (EvidenceCache.empty.load h.top (h.place path)).map (·.1)
  | none => .ok .empty

/-- The files with that of the cache written. -/
def flushed (h : Host) (file : Option String) (cache : EvidenceCache) :
    Except FlushFault FileNode :=
  match file with
  | some path => cache.flush h.top (h.place path) h.now
  | none => .ok h.top

/-- **Scan a project** as the words of a command say. -/
def scan (s : Scanner) (h : Host) (words : List String) : CommandRun :=
  match Arguments.read scanForms words with
  | .refused => ⟨h.top, [], .turnedAway refused⟩
  | .help => ⟨h.top, [], .turnedAway done⟩
  | .given path values =>
    let file := Arguments.lastOf "--cache-file" values
    match loaded h file with
    | .error fault => ⟨h.top, [], .broken (.store fault)⟩
    | .ok cache =>
      let run := s.respond h cache (scanRequest path values)
      match run.answer, flushed h file run.cache with
      | .error fault, _ => ⟨h.top, run.events, .broken (.service fault)⟩
      | .ok _, .error fault => ⟨h.top, run.events, .broken (.flush fault)⟩
      | .ok answer, .ok top =>
        ⟨top, run.events, .finished (statusOf answer) (printed answer) ""⟩

/-! ## Evaluations -/

/-- **The options of an evaluation.** -/
def evaluateForms : List OptionForm := [textForm "--measure", wholeForm "--concurrency"]

/-- How an evaluation ends. -/
def evaluationEnd (result : Except EvaluationFault (List AccuracyReport)) : CommandEnd :=
  match result with
  | .ok reports =>
    let answer := AccuracyReport.answer reports
    if (Contract.accuracyReport.check answer).isNone then .finished done (printed answer) ""
    else .broken .brokenContract
  | .error (.corpus (.corpus fault)) =>
    .finished refused "" ("error: " ++ fault.message ++ "\n")
  | .error fault => .broken (.evaluation fault)

/-- **Hold a corpus against scans** as the words of a command say. -/
def evaluate (s : Scanner) (h : Host) (words : List String) : CommandRun :=
  match Arguments.read evaluateForms words with
  | .refused => ⟨h.top, [], .turnedAway refused⟩
  | .help => ⟨h.top, [], .turnedAway done⟩
  | .given path values =>
    let measure := match Arguments.valuesOf "--measure" values with
      | [] => none
      | texts => some texts
    match Corpus.load h path with
    | .error fault => ⟨h.top, [], evaluationEnd (.error fault)⟩
    | .ok (corpus, base) =>
      let run := s.evaluate h (.ofEnvironment h.environment) .empty corpus base measure
      ⟨h.top, run.events, evaluationEnd run.result⟩

end Command
end Conventions
