import Conventions.Verdict
import Conventions.Evidence.Document
import Conventions.Json.Writer
import Conventions.Sequence

/-!
# Verdict/Document — verdicts as JSON
-/

namespace Conventions

def RejectedLabel.document (r : RejectedLabel) : Json :=
  .obj [("label", .str r.label), ("confidence", .int r.confidence),
    ("evidence_count", .int r.evidenceCount), ("file_count", .int r.fileCount),
    ("evidence", .arr (r.evidence.map Evidence.summary))]

namespace Verdict

/-- The members of the document of a verdict. -/
def members (v : Verdict) : List (String × Json) :=
  [("category", .str v.category), ("facet", .str v.facet), ("label", .str v.label),
    ("confidence", .int v.confidence), ("level", .str (levelOf v.confidence)),
    ("conflict", .bool v.conflict), ("resolution", .str v.rule.name),
    ("evidence_count", .int v.evidenceCount),
    ("evidence", .arr (v.evidence.map Evidence.summary)),
    ("rejected", .arr (v.rejected.map RejectedLabel.document))]

/-- **A verdict as a document.** -/
def document (v : Verdict) : Json := .obj v.members

end Verdict

/-- **The verdicts on a category as a document**, the other facets by name. -/
def CategoryVerdict.document (v : CategoryVerdict) : Json :=
  .obj (v.primary.members ++
    if v.facets.isEmpty then []
    else [("facets", .obj ((Text.sortedBy (·.1) v.facets).map fun f => (f.1, f.2.document)))])

end Conventions
