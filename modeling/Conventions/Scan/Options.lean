import Conventions.Environment
import Conventions.Json.Numeric
import Conventions.Text.Lower

/-!
# Scan/Options — what a scan looks at, and how far it goes

The options of a scan select files and set its ceilings. Ceilings come from the environment unless
a request gives them.
-/

namespace Conventions

/-- **The options of a scan.** -/
structure ScanOptions where
  included : List String
  excluded : List String
  extensions : List String
  excludedDirs : List String
  mainEntryNames : List String
  maxFiles : Int
  maxFileBytes : Int
  concurrency : Int
  timeout : Option Binary64
  deriving DecidableEq, Repr

namespace ScanOptions

/-- The most workers of a scan. -/
def mostConcurrency : Int := 64

/-- **The usual options.** -/
def standard : ScanOptions where
  included := []
  excluded := ["*.d.ts", "*.min.js", "*.bundle.js"]
  extensions := [".js", ".jsx", ".mjs", ".cjs", ".ts", ".tsx", ".mts", ".cts"]
  excludedDirs := [".git", ".next", ".nuxt", ".nyc_output", ".turbo", "build", "coverage", "dist",
    "node_modules", "out", "vendor"]
  mainEntryNames := ["app", "index", "main", "server"]
  maxFiles := 500
  maxFileBytes := 1048576
  concurrency := 8
  timeout := none

instance : Inhabited ScanOptions := ⟨standard⟩

/-- **The options under an environment.** -/
def ofEnvironment (env : Environment) : ScanOptions :=
  { standard with
    maxFiles := env.whole "PATTERNSCOUT_MAX_FILES" standard.maxFiles 1 none
    maxFileBytes := env.whole "PATTERNSCOUT_MAX_FILE_BYTES" standard.maxFileBytes 1 none
    concurrency := env.whole "PATTERNSCOUT_SCAN_CONCURRENCY" standard.concurrency 1
      (some mostConcurrency)
    timeout := env.seconds? "PATTERNSCOUT_SCAN_TIMEOUT_SECONDS" }

/-! ## Requests -/

/-- The texts of a list; text is read as the list of its characters, an object as that of its
keys. -/
def texts : Json → Except ConversionFault (List String)
  | .arr items => items.mapM fun
    | .str s => .ok s
    | _ => .error .notText
  | .str s => .ok (s.toList.map fun c => String.ofList [c])
  | .obj members => .ok (members.map (·.1))
  | _ => .error .wrongKind

/-- An extension in small letters, with its point. -/
def dotted (extension : String) : String :=
  let e := Text.lower extension
  if extension.toList.head? = some '.' then e else "." ++ e

/-- The value of a key, read in some way, if a request has it. -/
def given {α : Type} (key : String) (read : Json → Except ConversionFault α) (default : α)
    (request : List (String × Json)) : Except ConversionFault α :=
  match Json.lookup key request with
  | some v => read v
  | none => .ok default

/-- **The options of a request** over those of the environment. -/
def ofRequest (env : Environment) (request : List (String × Json)) :
    Except ConversionFault ScanOptions := do
  let o := ofEnvironment env
  let included ← given "include" texts o.included request
  let excluded ← given "exclude" texts o.excluded request
  let extensions ←
    given "extensions" (fun v => (texts v).map (·.map dotted)) o.extensions request
  let maxFiles ← given "max_files" Json.whole o.maxFiles request
  let maxFileBytes ← given "max_file_bytes" Json.whole o.maxFileBytes request
  let concurrency ←
    given "concurrency" (fun v => v.whole.map (min · mostConcurrency)) o.concurrency request
  let timeout ← given "timeout_seconds" (fun v => v.binary64.map some) o.timeout request
  pure { o with
    included := included
    excluded := excluded
    extensions := extensions
    maxFiles := maxFiles
    maxFileBytes := maxFileBytes
    concurrency := concurrency
    timeout := timeout }

/-- The ceilings, as events tell them. -/
def limits (o : ScanOptions) : List (String × Json) :=
  [("max_files", .int o.maxFiles), ("max_file_bytes", .int o.maxFileBytes),
    ("concurrency", .int o.concurrency),
    ("timeout_seconds", (o.timeout.map Json.float).getD .null)]

end ScanOptions
end Conventions
