import Conventions.Accuracy.Corpus
import Conventions.Verdict

/-!
# Accuracy/Report — how often verdicts are right

Every expected label that a plan includes is judged against the verdict it names. The judgements of
a framework make its report: the share of right ones by facet key and by label, the failures, and
what to do about keys that are often wrong.
-/

namespace Conventions

/-- **Why a facet key names no verdict**: the vocabulary does not know it, or there is no verdict on
its facet. -/
inductive VerdictFault where
  | vocabulary (fault : VocabularyError)
  | missing (facet : String)
  deriving DecidableEq, Repr

/-- **The verdict that a facet key names.** -/
def Patterns.verdictOf (p : Patterns) (key : String) : Except VerdictFault Verdict :=
  match FacetKey.parse key with
  | .error fault => .error (.vocabulary fault)
  | .ok (c, facet) =>
    if facet = c.primaryFacet then .ok (p c).primary
    else
      match (p c).facets.find? fun f => f.1 == facet with
      | some (_, v) => .ok v
      | none => .error (.missing facet)

/-- **A project that was tried**; without patterns it could not be scanned. -/
structure CaseRun where
  case : CorpusCase
  patterns : Option Patterns

/-- **An expected label held against a verdict.** -/
structure Judgement where
  project : String
  key : String
  expected : String
  verdict : Verdict
  deriving DecidableEq, Repr, Inhabited

namespace Judgement

/-- Is the verdict right? -/
def correct (j : Judgement) : Bool := j.verdict.label == j.expected

/-- The facet key and the expected label. -/
def labelKey (j : Judgement) : String := j.key ++ ":" ++ j.expected

/-- Was the expected label found, and did it lose to another one? -/
def lostConflict (j : Judgement) : Bool :=
  j.verdict.conflict && j.verdict.rejected.any fun r => r.label == j.expected

/-- The judgements on a project, in the order of the plan. -/
def ofRun (plan : MeasurePlan) (run : CaseRun) : Except VerdictFault (List Judgement) :=
  match run.patterns with
  | none => .ok []
  | some patterns => (plan.expectations run.case).mapM fun (key, expected) =>
    (patterns.verdictOf key).map fun v => ⟨run.case.project, key, expected, v⟩

/-- **The judgements on some projects.** -/
def all (plan : MeasurePlan) (runs : List CaseRun) : Except VerdictFault (List Judgement) :=
  (runs.mapM (ofRun plan)).map List.flatten

end Judgement

/-- **A wrong verdict**, with what was seen. -/
structure CaseFailure where
  project : String
  facetKey : String
  expected : String
  actual : String
  confidence : Int
  evidence : List String
  rejected : List String
  deriving DecidableEq, Repr, Inhabited

namespace CaseFailure

/-- The most observations that a failure cites. -/
def cited : Nat := 3

/-- The failure of a judgement. -/
def ofJudgement (j : Judgement) : CaseFailure where
  project := j.project
  facetKey := j.key
  expected := j.expected
  actual := j.verdict.label
  confidence := j.verdict.confidence
  evidence := (j.verdict.evidence.take cited).map fun e => e.reference ++ " " ++ e.excerpt
  rejected := j.verdict.rejected.map fun r => r.label ++ " (" ++ toString r.confidence ++ "%)"

/-- A failure in one sentence. -/
def description (f : CaseFailure) : String :=
  let found :=
    if f.evidence.isEmpty then "no evidence found" else String.intercalate "; " f.evidence
  f.project ++ " [" ++ f.facetKey ++ "]: expected '" ++ f.expected ++ "', detected '" ++ f.actual
    ++ "' (" ++ toString f.confidence ++ "%): " ++ found

end CaseFailure

/-- **The report on a framework.** -/
structure AccuracyReport where
  framework : String
  casesEvaluated : Int
  byCategory : List (String × Binary64)
  byLabel : List (String × Binary64)
  failures : List CaseFailure
  recommendations : List String
  skippedCases : List String
  deriving DecidableEq, Repr, Inhabited

namespace AccuracyReport

/-- The average of the accuracies of all facet keys; zero without any. -/
def average (r : AccuracyReport) : Binary64 :=
  match r.byCategory with
  | [] => .zero
  | entries => (Binary64.sum (entries.map (·.2))).divNat entries.length

/-- How many judgements have a value of a key. -/
def total (key : Judgement → String) (js : List Judgement) (k : String) : Nat :=
  js.countP fun j => key j == k

/-- How many of these are right. -/
def totalRight (key : Judgement → String) (js : List Judgement) (k : String) : Nat :=
  js.countP fun j => key j == k && j.correct

/-- The share of right judgements for every value of a key, in the order of first use. -/
def shares (key : Judgement → String) (js : List Judgement) : List (String × Binary64) :=
  ((js.map key).eraseDups).map fun k => (k, .ofRatio false (totalRight key js k) (total key js k))

/-! ## Recommendations -/

/-- Accuracies below this one call for a recommendation. -/
def acceptable : Binary64 := .ofDecimal false 7 (-1)

/-- The most frequent text of a list; of equally frequent ones the first. -/
def mostFrequent? (xs : List String) : Option String :=
  xs.foldl (fun best x =>
    match best with
    | none => some x
    | some b => if xs.count b < xs.count x then some x else some b) none

/-- What to do about the wrong judgements on a facet key. -/
def advice (key : String) (misses : List Judgement) : String :=
  let expected := (mostFrequent? (misses.map (·.expected))).getD ""
  let unknown := misses.countP fun j => j.verdict.isUnknown
  let conflicts := misses.countP Judgement.lostConflict
  if misses.length ≤ unknown * 2 then
    key ++ ": no evidence found in " ++ toString unknown
      ++ " case(s); the extraction catalogue is likely missing a construct shape for '"
      ++ expected ++ "'."
  else if misses.length ≤ conflicts * 2 then
    key ++ ": the expected label was detected but lost conflict resolution in "
      ++ toString conflicts ++ " case(s); review the recency policy and threshold."
  else
    let actual := (mostFrequent?
      ((misses.filter fun j => !j.verdict.isUnknown).map (·.verdict.label))).getD ""
    key ++ ": '" ++ actual ++ "' was reported where '" ++ expected
      ++ "' was expected; tighten the matchers that emit '" ++ actual ++ "'."

/-- The recommendation for a facet key, if its accuracy is too low. -/
def recommendation? (js : List Judgement) (key : String) (accuracy : Binary64) : Option String :=
  let misses := js.filter fun j => j.key == key && !j.correct
  if acceptable.le accuracy || misses.isEmpty then none else some (advice key misses)

/-! ## Reports -/

/-- The failures by facet key and project. -/
def failuresOf (js : List Judgement) : List CaseFailure :=
  let misses := js.filter fun j => !j.correct
  (Text.sortedBy (·.key) (Text.sortedBy (·.project) misses)).map CaseFailure.ofJudgement

/-- The report that the judgements on the runs of a framework make. -/
def ofJudgements (framework : String) (runs : List CaseRun) (js : List Judgement) :
    AccuracyReport :=
  let byCategory := shares (·.key) js
  { framework := framework
    casesEvaluated := runs.countP fun run => run.patterns.isSome
    byCategory := byCategory
    byLabel := shares Judgement.labelKey js
    failures := failuresOf js
    recommendations := (Text.sortedBy (·.1) byCategory).filterMap fun (key, accuracy) =>
      recommendation? js key accuracy
    skippedCases := Text.sorted ((runs.filter fun run => run.patterns.isNone).map (·.case.project)) }

/-- **The report on the runs of a framework.** -/
def ofRuns (framework : String) (plan : MeasurePlan) (runs : List CaseRun) :
    Except VerdictFault AccuracyReport :=
  (Judgement.all plan runs).map (ofJudgements framework runs)

/-- **The reports on some runs**, one for each framework. -/
def all (plan : MeasurePlan) (runs : List CaseRun) : Except VerdictFault (List AccuracyReport) :=
  (Text.distinct (runs.map (·.case.framework))).mapM fun framework =>
    ofRuns framework plan (runs.filter fun run => run.case.framework == framework)

end AccuracyReport
end Conventions
