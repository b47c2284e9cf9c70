import Conventions.Verdict.Resolution
import Conventions.Vocabulary

/-!
# Verdict — what the evidence of a facet amounts to

A verdict names the label that holds for a facet, how sure that is and which labels were rejected.
The verdict of a category is that of its primary facet, with the verdicts of the others beside it.
-/

namespace Conventions

/-- **A label that did not hold**, with its own evidence. -/
structure RejectedLabel where
  label : String
  confidence : Int
  evidenceCount : Nat
  fileCount : Nat
  evidence : List Evidence
  deriving DecidableEq, Repr, Inhabited

/-- **The verdict on one facet.** -/
structure Verdict where
  category : String
  facet : String
  label : String
  confidence : Int
  evidence : List Evidence
  rejected : List RejectedLabel
  conflict : Bool
  rule : ResolutionRule
  evidenceCount : Nat
  deriving DecidableEq, Repr, Inhabited

/-- **The verdicts on a category**: its primary facet and the others by name. -/
structure CategoryVerdict where
  primary : Verdict
  facets : List (String × Verdict)
  deriving DecidableEq, Repr, Inhabited

namespace Verdict

/-- A verdict without evidence. -/
def unknown (category facet : String) : Verdict :=
  ⟨category, facet, unknownLabel, 0, [], [], false, .noEvidence, 0⟩

/-- Does a verdict name no label? -/
def isUnknown (v : Verdict) : Bool := v.label == unknownLabel

/-- **The word for a confidence.** -/
def levelOf (confidence : Int) : String :=
  if 90 ≤ confidence then "very-high"
  else if 75 ≤ confidence then "high"
  else if 60 ≤ confidence then "medium"
  else "low"

/-- A group as a rejected label. -/
def rejection (times : Times) (g : LabelGroup) : RejectedLabel :=
  ⟨g.label, g.confidence, g.evidenceCount, g.fileCount, Evidence.ranked times Evidence.shown
    g.evidence⟩

/-- The verdict that a decision amounts to. -/
def ofResolution (times : Times) (category facet : String) (r : Resolution) : Verdict :=
  ⟨category, facet, r.winner.label, r.winner.confidence,
    Evidence.ranked times Evidence.shown r.winner.evidence, r.rejected.map (rejection times),
    r.conflict, r.rule, r.winner.evidenceCount⟩

/-- **The verdict on the evidence of one facet.** A name that is left empty is that of the first
observation. -/
def ofEvidence (times : Times) (category facet : String) (es : List Evidence) : Verdict :=
  match es.head?, resolve? Resolution.contention (LabelGroup.all times es) with
  | some first, some r =>
    ofResolution times (if category = "" then first.category else category)
      (if facet = "" then first.facet else facet) r
  | _, _ => unknown category facet

end Verdict

namespace Category

/-- The observations of one facet of a category. -/
def evidenceOf (c : Category) (facet : String) (es : List Evidence) : List Evidence :=
  es.filter fun e => e.category == c.name && e.facet == facet

/-- The verdict on one facet of a category. -/
def facetVerdict (c : Category) (times : Times) (es : List Evidence) (facet : String) : Verdict :=
  Verdict.ofEvidence times c.name facet (c.evidenceOf facet es)

/-- **The verdicts on a category**, each from the evidence of its own facet alone. -/
def verdict (c : Category) (times : Times) (es : List Evidence) : CategoryVerdict where
  primary := c.facetVerdict times es c.primaryFacet
  facets := (c.facets.filter (· != c.primaryFacet)).map fun facet =>
    (facet, c.facetVerdict times es facet)

end Category

/-- **The verdicts on a project**, by category. -/
abbrev Patterns := Category → CategoryVerdict

/-- **The verdicts that the evidence of a project amounts to.** -/
def Patterns.ofEvidence (times : Times) (es : List Evidence) : Patterns := fun c => c.verdict times es

end Conventions
