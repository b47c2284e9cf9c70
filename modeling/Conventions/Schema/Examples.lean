import Conventions.Json.Basic

/-!
# Schema/Examples — a small document for each contract
-/

namespace Conventions
namespace Examples

/-- A small request for a scan. -/
def scanRequest : Json :=
  .obj [("root", .str "fixtures/express-api"), ("exclude", .arr [.str "tests"]), ("max_files",
    .int 200), ("concurrency", .int 4)]

/-- The answer for a small project. -/
def projectContext : Json :=
  .obj [("operation", .str "project_conventions_scan"), ("context", .obj [("metadata", .obj
    [("project_type", .str "Express API"), ("language", .str "TypeScript"), ("framework", .str
    "Express.js"), ("package_manager", .str "npm"), ("dependencies", .arr [.str "cookie-parser",
    .str "express", .str "jsonwebtoken"]), ("scripts", .obj [("dev", .str "ts-node src/index.ts"),
    ("test", .str "jest")]), ("directories", .arr [.obj [("path", .str "src"), ("purpose", .str
    "source code")], .obj [("path", .str "src/middleware"), ("purpose", .str
    "middleware functions")]])]), ("patterns", .obj [("apiResponses", .obj [("category", .str
    "apiResponses"), ("facet", .str "envelope"), ("label", .str "data-wrapper"), ("confidence",
    .int 36), ("level", .str "low"), ("conflict", .bool false), ("resolution", .str
    "single-label"), ("evidence_count", .int 1), ("evidence", .arr [.obj [("label", .str
    "data-wrapper"), ("excerpt", .str "res.json({ data: users })"), ("file", .str
    "src/routes/users.ts"), ("line", .int 12), ("strength", .float (.ofDecimal false 9 (-1))),
    ("shape", .str "response-data-wrapper")]]), ("rejected", .arr [])]), ("authentication", .obj
    [("category", .str "authentication"), ("facet", .str "token_location"), ("label", .str
    "cookie"), ("confidence", .int 57), ("level", .str "low"), ("conflict", .bool true),
    ("resolution", .str "most-recent"), ("evidence_count", .int 2), ("evidence", .arr [.obj
    [("label", .str "cookie"), ("excerpt", .str "const token = req.cookies.token"), ("file", .str
    "src/middleware/auth.ts"), ("line", .int 8), ("strength", .float (.ofDecimal false 8 (-1))),
    ("shape", .str "cookie-read")], .obj [("label", .str "cookie"), ("excerpt", .str
    "res.cookie('token', token, { httpOnly: true })"), ("file", .str "src/routes/login.ts"),
    ("line", .int 21), ("strength", .float (.ofDecimal false 9 (-1))), ("shape", .str
    "http-only-cookie-set")]]), ("rejected", .arr [.obj [("label", .str "local-storage"),
    ("confidence", .int 33), ("evidence_count", .int 1), ("file_count", .int 1), ("evidence", .arr
    [.obj [("label", .str "local-storage"), ("excerpt", .str "localStorage.getItem('token')"),
    ("file", .str "src/legacy/client.ts"), ("line", .int 3), ("strength", .float (.ofDecimal false
    8 (-1))), ("shape", .str "local-storage-token")]])]])]), ("errorHandling", .obj [("category",
    .str "errorHandling"), ("facet", .str "catch_style"), ("label", .str "unknown"),
    ("confidence", .int 0), ("level", .str "low"), ("conflict", .bool false), ("resolution", .str
    "no-evidence"), ("evidence_count", .int 0), ("evidence", .arr []), ("rejected", .arr []),
    ("facets", .obj [("logging", .obj [("category", .str "errorHandling"), ("facet", .str
    "logging"), ("label", .str "unknown"), ("confidence", .int 0), ("level", .str "low"),
    ("conflict", .bool false), ("resolution", .str "no-evidence"), ("evidence_count", .int 0),
    ("evidence", .arr []), ("rejected", .arr [])])])])]), ("diagnostics", .obj
    [("files_discovered", .int 4), ("files_scanned", .int 4), ("parse_failures", .arr []),
    ("skipped", .arr []), ("cache_hits", .int 0), ("extractions", .int 4), ("partial", .bool
    false), ("cap_reason", .null), ("elapsed_seconds", .float (.ofDecimal false 412 (-4)))])])]

/-- A corpus of one project. -/
def corpus : Json :=
  .obj [("version", .str "0.1"), ("cases", .arr [.obj [("project", .str "express-cookie-auth"),
    ("path", .str "projects/express-cookie-auth"), ("framework", .str "express"), ("expected",
    .obj [("authentication", .str "cookie"), ("apiResponses", .str "data-wrapper"),
    ("errorHandling", .str "global-middleware"), ("errorHandling.propagation", .str
    "next-error")])]])]

/-- The report on one project. -/
def accuracyReport : Json :=
  .obj [("operation", .str "accuracy_evaluation"), ("reports", .arr [.obj [("framework", .str
    "express"), ("cases_evaluated", .int 1), ("average_accuracy", .float (.ofDecimal false 75
    (-2))), ("accuracy_by_category", .obj [("apiResponses", .float (.ofDecimal false 10 (-1))),
    ("authentication", .float (.ofDecimal false 10 (-1))), ("errorHandling", .float (.ofDecimal
    false 10 (-1))), ("errorHandling.propagation", .float (.ofDecimal false 0 (-1)))]),
    ("accuracy_by_label", .obj [("apiResponses:data-wrapper", .float (.ofDecimal false 10 (-1))),
    ("authentication:cookie", .float (.ofDecimal false 10 (-1))),
    ("errorHandling.propagation:next-error", .float (.ofDecimal false 0 (-1))),
    ("errorHandling:global-middleware", .float (.ofDecimal false 10 (-1)))]), ("failures", .arr
    [.obj [("project", .str "express-cookie-auth"), ("facet_key", .str
    "errorHandling.propagation"), ("expected", .str "next-error"), ("actual", .str "unknown"),
    ("confidence", .int 0), ("evidence", .arr []), ("rejected", .arr []), ("description", .str
    "express-cookie-auth [errorHandling.propagation]: expected 'next-error', detected 'unknown' (0%): no evidence found")]]),
    ("recommendations", .arr [.str
    "errorHandling.propagation: no evidence found in 1 case(s); the extraction catalogue is likely missing a construct shape for 'next-error'."]),
    ("skipped_cases", .arr [])]])]

/-- Every example with its name. -/
def all : List (String × Json) :=
  [("scan_request_example_min", scanRequest),
    ("project_context_response_example_min", projectContext),
    ("ground_truth_corpus_example_min", corpus),
    ("accuracy_report_example_min", accuracyReport)]

/-- The example of a name. -/
def ofName? (name : String) : Option Json := Json.lookup name all

end Examples
end Conventions
