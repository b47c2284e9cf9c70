import Conventions.Schema

/-!
# Schema/Contracts — the documents that are exchanged

What a request for a scan, its answer, a corpus of labelled projects and an accuracy report have to
look like.
-/

namespace Conventions
namespace Contract

open Rule Schema

/-! ## Building blocks -/

/-- An object with no other keys than its fields; `true` marks a field that has to be there. -/
def recordRules (fields : List (String × Bool × Schema)) : List Rule :=
  [.kind .object, .required ((fields.filter (·.2.1)).map (·.1)), .closed (fields.map (·.1)),
    .properties (fields.map fun f => (f.1, f.2.2))]

def record (fields : List (String × Bool × Schema)) : Schema := direct (recordRules fields)

/-- A field that has to be there. -/
def field (name : String) (s : Schema) : String × Bool × Schema := (name, true, s)

/-- A field that may be left out. -/
def optional (name : String) (s : Schema) : String × Bool × Schema := (name, false, s)

def anyText : Schema := direct [.kind .string]

def filled : Schema := direct [.kind .string, .filledText]

def listOf (s : Schema) : Schema := direct [.kind .array, .items s]

def mapOf (s : Schema) : Schema := direct [.kind .object, .values s]

def truth : Schema := direct [.kind .boolean]

def wholeFrom (bound : Int) : Schema := direct [.kind .integer, .least bound]

def wholeBetween (low high : Int) : Schema := direct [.kind .integer, .least low, .most high]

/-- A number between zero and one. -/
def ratioRules : List Rule := [.kind .number, .least 0, .most 1]

def words (ws : List String) : Schema := direct [.oneOf (ws.map .str)]

/-! ## Forms of texts -/

/-- The text without one line feed at its end. -/
def withoutFinalNewline (cs : List Char) : List Char :=
  match cs.reverse with
  | '\n' :: rest => rest.reverse
  | _ => cs

/-- A form that a text has if its characters, perhaps without a line feed at the end, pass a
test. -/
def formOf (text : String) (test : List Char → Bool) : TextForm where
  text := text
  holds s := test s.toList || test (withoutFinalNewline s.toList)

/-- Letters and digits, perhaps after a point. -/
def isExtension (cs : List Char) : Bool :=
  let name := match cs with
    | '.' :: rest => rest
    | _ => cs
  !name.isEmpty && name.all Char.isAlphanum

def extensionForm : TextForm := formOf "^\\.?[A-Za-z0-9]+$" isExtension

/-- The name of a category, perhaps with a point and the name of a facet in small letters. -/
def isFacetKey (cs : List Char) : Bool :=
  let category := cs.takeWhile (· != '.')
  ["authentication", "apiResponses", "errorHandling"].contains (String.ofList category) &&
    match cs.drop category.length with
    | [] => true
    | _ :: facet => !facet.isEmpty && facet.all fun c => c.isLower || c == '_'

def facetKeyForm : TextForm :=
  formOf "^(authentication|apiResponses|errorHandling)(\\.[a-z_]+)?$" isFacetKey

/-! ## The contracts -/

/-- A request for a scan. -/
def scanRequest : Contract where
  name := "scan_request_v0.1"
  definitions := []
  rules := recordRules
    [field "root" filled, optional "include" (listOf filled), optional "exclude" (listOf filled),
      optional "extensions" (listOf (direct [.kind .string, .form extensionForm])),
      optional "max_files" (wholeBetween 1 100000), optional "max_file_bytes" (wholeFrom 1),
      optional "concurrency" (wholeBetween 1 64),
      optional "timeout_seconds" (direct [.kind .number, .above 0])]

/-- Facts about a project. -/
def metadataRules : List Rule := recordRules
  [field "project_type" anyText, field "language" anyText, field "framework" anyText,
    field "package_manager" anyText, field "dependencies" (listOf anyText),
    field "scripts" (mapOf anyText),
    field "directories" (listOf (record [field "path" anyText, field "purpose" anyText]))]

/-- An observation as a verdict cites it. -/
def evidenceRules : List Rule := recordRules
  [field "label" anyText, field "excerpt" anyText, field "file" filled, field "line" (wholeFrom 1),
    field "strength" (direct ratioRules), field "shape" anyText]

/-- At most ten observations. -/
def shownEvidence : Schema :=
  direct [.kind .array, .mostItems 10, .items (reference "evidence")]

/-- A label that did not hold. -/
def rejectedRules : List Rule := recordRules
  [field "label" anyText, field "confidence" (wholeBetween 0 100),
    field "evidence_count" (wholeFrom 1), field "file_count" (wholeFrom 1),
    field "evidence" shownEvidence]

/-- A verdict, perhaps with those of other facets. -/
def verdictRules : List Rule := recordRules
  [field "category" (words ["authentication", "apiResponses", "errorHandling"]),
    field "facet" filled, field "label" filled, field "confidence" (wholeBetween 0 100),
    field "level" (words ["low", "medium", "high", "very-high"]), field "conflict" truth,
    field "resolution" (words ["single-label", "most-recent", "highest-confidence",
      "evidence-count", "first-seen", "no-evidence"]),
    field "evidence_count" (wholeFrom 0), field "evidence" shownEvidence,
    field "rejected" (listOf (reference "rejected")),
    optional "facets" (mapOf (reference "verdict"))]

/-- What a scan tells about itself. -/
def diagnosticsRules : List Rule := recordRules
  [field "files_discovered" (wholeFrom 0), field "files_scanned" (wholeFrom 0),
    field "parse_failures" (listOf anyText),
    field "skipped" (listOf (record
      [field "path" anyText, field "reason" (words ["too-large", "unreadable"])])),
    field "cache_hits" (wholeFrom 0), field "extractions" (wholeFrom 0), field "partial" truth,
    field "cap_reason" (direct [.oneOf [.null, .str "MAX_FILES", .str "SCAN_TIMEOUT"]]),
    field "elapsed_seconds" (direct [.kind .number, .least 0])]

/-- The answer to a request for a scan. -/
def projectContext : Contract where
  name := "project_context_response_v0.1"
  definitions :=
    [("metadata", metadataRules), ("evidence", evidenceRules), ("rejected", rejectedRules),
      ("verdict", verdictRules), ("diagnostics", diagnosticsRules)]
  rules := recordRules
    [field "operation" (direct [.constant "project_conventions_scan"]),
      field "context" (record
        [field "metadata" (reference "metadata"),
          field "patterns" (record
            [field "authentication" (reference "verdict"),
              field "apiResponses" (reference "verdict"),
              field "errorHandling" (reference "verdict")]),
          field "diagnostics" (reference "diagnostics")])]

/-- A corpus of labelled projects. -/
def corpus : Contract where
  name := "ground_truth_corpus_v0.1"
  definitions := []
  rules := recordRules
    [field "version" (direct [.constant "0.1"]),
      field "cases" (direct [.kind .array, .filledArray, .items (record
        [field "project" filled, field "path" filled, field "framework" filled,
          field "expected" (direct
            [.kind .object, .filledObject, .keys facetKeyForm, .values filled])])])]

/-- A case that was judged wrongly. -/
def failureRules : List Rule := recordRules
  [field "project" anyText, field "facet_key" anyText, field "expected" anyText,
    field "actual" anyText, field "confidence" (wholeBetween 0 100),
    field "evidence" (listOf anyText), field "rejected" (listOf anyText),
    field "description" anyText]

/-- The reports of an evaluation. -/
def accuracyReport : Contract where
  name := "accuracy_report_v0.1"
  definitions := [("ratio", ratioRules), ("failure", failureRules)]
  rules := recordRules
    [field "operation" (direct [.constant "accuracy_evaluation"]),
      field "reports" (listOf (record
        [field "framework" anyText, field "cases_evaluated" (wholeFrom 0),
          field "average_accuracy" (reference "ratio"),
          field "accuracy_by_category" (mapOf (reference "ratio")),
          field "accuracy_by_label" (mapOf (reference "ratio")),
          field "failures" (listOf (reference "failure")),
          field "recommendations" (listOf anyText), field "skipped_cases" (listOf anyText)]))]

/-- Every contract. -/
def all : List Contract := [scanRequest, projectContext, corpus, accuracyReport]

/-- The contract of a name. -/
def ofName? (name : String) : Option Contract := all.find? fun c => c.name == name

end Contract
end Conventions
