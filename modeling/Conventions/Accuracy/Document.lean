import Conventions.Accuracy.Report
import Conventions.Json.Writer

/-!
# Accuracy/Document — accuracy reports as JSON
-/

namespace Conventions

/-- Some texts as an array. -/
def Json.texts (xs : List String) : Json := .arr (xs.map .str)

def CaseFailure.document (f : CaseFailure) : Json :=
  .obj [("project", .str f.project), ("facet_key", .str f.facetKey),
    ("expected", .str f.expected), ("actual", .str f.actual), ("confidence", .int f.confidence),
    ("evidence", .texts f.evidence), ("rejected", .texts f.rejected),
    ("description", .str f.description)]

namespace AccuracyReport

/-- Accuracies rounded to ten thousandths, in the order of their names. -/
def ratios (entries : List (String × Binary64)) : Json :=
  .obj ((Text.sortedBy (·.1) entries).map fun e => (e.1, .float (e.2.roundTo 4)))

/-- **A report as a document.** -/
def document (r : AccuracyReport) : Json :=
  .obj [("framework", .str r.framework), ("cases_evaluated", .int r.casesEvaluated),
    ("average_accuracy", .float (r.average.roundTo 4)),
    ("accuracy_by_category", ratios r.byCategory), ("accuracy_by_label", ratios r.byLabel),
    ("failures", .arr (r.failures.map CaseFailure.document)),
    ("recommendations", .texts r.recommendations), ("skipped_cases", .texts r.skippedCases)]

/-- **The answer of an evaluation.** -/
def answer (reports : List AccuracyReport) : Json :=
  .obj [("operation", .str "accuracy_evaluation"), ("reports", .arr (reports.map document))]

end AccuracyReport
end Conventions
