import Conventions.Number.Binary64

/-!
# Evidence — located observations

An observation names the label it supports, the place it was made at and how strongly it speaks.
-/

namespace Conventions

/-- **A labelled observation** in one file. -/
structure Evidence where
  category : String
  facet : String
  label : String
  excerpt : String
  file : String
  line : Int
  strength : Quantity
  shape : String
  deriving DecidableEq, Repr, Inhabited

namespace Evidence

/-- The place of an observation. -/
def reference (e : Evidence) : String := e.file ++ ":" ++ toString e.line

/-- The order in which the evidence of a file is listed: line, category, facet, label, shape. -/
def listing (a b : Evidence) : Ordering :=
  (compare a.line b.line).then <| (compare a.category b.category).then <|
    (compare a.facet b.facet).then <| (compare a.label b.label).then (compare a.shape b.shape)

end Evidence

/-- **What was found in one file**: its evidence, or why it could not be read. -/
structure Extraction where
  evidence : List Evidence
  parseFailed : Bool
  detail : String
  deriving DecidableEq, Repr, Inhabited

namespace Extraction

/-- The evidence of a file that could be read. -/
def ofEvidence (es : List Evidence) : Extraction := ⟨es, false, ""⟩

/-- A file that could not be read. -/
def failed (detail : String) : Extraction := ⟨[], true, detail⟩

end Extraction
end Conventions
