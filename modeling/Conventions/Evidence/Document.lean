import Conventions.Evidence
import Conventions.Json.Numeric

/-!
# Evidence/Document — evidence as JSON
-/

namespace Conventions
namespace Evidence

/-- **An observation with all it says.** -/
def document (e : Evidence) : Json :=
  .obj [("category", .str e.category), ("facet", .str e.facet), ("label", .str e.label),
    ("excerpt", .str e.excerpt), ("file", .str e.file), ("line", .int e.line),
    ("strength", .ofQuantity e.strength), ("shape", .str e.shape)]

/-- **An observation as a verdict cites it**: without its category and facet, and with its strength
in thousandths. -/
def summary (e : Evidence) : Json :=
  .obj [("label", .str e.label), ("excerpt", .str e.excerpt), ("file", .str e.file),
    ("line", .int e.line), ("strength", .ofQuantity (e.strength.roundTo 3)), ("shape", .str e.shape)]

/-- **The observation that a document describes**: text for every part except the line and the
strength, which are numbers. -/
def ofDocument (members : List (String × Json)) : Except ConversionFault Evidence := do
  let text (key : String) : Except ConversionFault String :=
    (Json.required key members).map Json.text
  let category ← text "category"
  let facet ← text "facet"
  let label ← text "label"
  let excerpt ← text "excerpt"
  let file ← text "file"
  let line ← (← Json.required "line" members).whole
  let strength ← (← Json.required "strength" members).binary64
  let shape := ((Json.lookup "shape" members).map Json.text).getD ""
  pure ⟨category, facet, label, excerpt, file, line, .binary strength, shape⟩

/-- Some observations with all they say. -/
def documents (es : List Evidence) : Json := .arr (es.map document)

end Evidence

/-- What was found in one file, as JSON. -/
def Extraction.document (x : Extraction) : Json :=
  .obj [("evidence", Evidence.documents x.evidence), ("parse_failed", .bool x.parseFailed),
    ("detail", .str x.detail)]

end Conventions
