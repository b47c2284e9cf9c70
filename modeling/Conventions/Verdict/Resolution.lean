import Conventions.Verdict.Group

/-!
# Verdict/Resolution — which label of a facet holds

Labels that are sure enough contend with one another. A contender whose files are all newer than
every file of its rivals wins; otherwise confidence, the number of observations, the first path and
the name decide, in this order. Every label that does not win is kept as rejected.
-/

namespace Conventions

/-- **What decided between the labels.** -/
inductive ResolutionRule where
  | singleLabel
  | mostRecent
  | highestConfidence
  | evidenceCount
  | firstSeen
  | noEvidence
  deriving DecidableEq, Repr, Inhabited

def ResolutionRule.name : ResolutionRule → String
  | .singleLabel => "single-label"
  | .mostRecent => "most-recent"
  | .highestConfidence => "highest-confidence"
  | .evidenceCount => "evidence-count"
  | .firstSeen => "first-seen"
  | .noEvidence => "no-evidence"

/-- **A decision between labels.** -/
structure Resolution where
  winner : LabelGroup
  rejected : List LabelGroup
  rule : ResolutionRule
  conflict : Bool
  deriving DecidableEq, Repr, Inhabited

namespace Resolution

/-- The confidence from which on a label contends with others. -/
def contention : Int := 15

/-- The order of groups: confidence, number of observations, first path, label. -/
def ranking (a b : LabelGroup) : Ordering :=
  (compare b.confidence a.confidence).then <|
    (compare b.evidenceCount a.evidenceCount).then <|
      (compare a.firstPath b.firstPath).then (compare a.label b.label)

/-- What puts one group before another. -/
def rankingRule (a b : LabelGroup) : ResolutionRule :=
  if a.confidence ≠ b.confidence then .highestConfidence
  else if a.evidenceCount ≠ b.evidenceCount then .evidenceCount
  else .firstSeen

/-- Every item of a list together with the others. -/
def picks {α : Type} : List α → List (α × List α)
  | [] => []
  | x :: rest => (x, rest) :: (picks rest).map fun (y, others) => (y, x :: others)

/-- Does a group contend? -/
def contends (threshold : Int) (g : LabelGroup) : Bool := threshold ≤ g.confidence

/-- Are all files of a group newer than every file of its rivals among the others? -/
def isNewest (threshold : Int) (g : LabelGroup) (others : List LabelGroup) : Bool :=
  Binary64.lt (LabelGroup.greatest ((others.filter (contends threshold)).map (·.newest))) g.oldest

/-- The first contender that is newer than all its rivals, with all other groups. -/
def newest? (threshold : Int) (ordered : List LabelGroup) :
    Option (LabelGroup × List LabelGroup) :=
  (picks ordered).find? fun (g, others) => contends threshold g && isNewest threshold g others

/-- The decision between groups in the order of their ranking. -/
def ofRanked (threshold : Int) (first : LabelGroup) (rest : List LabelGroup) : Resolution :=
  let rivals := rest.filter (contends threshold)
  let conflict := contends threshold first && !rivals.isEmpty
  match rest with
  | [] => ⟨first, rest, .singleLabel, conflict⟩
  | second :: _ =>
    if contends threshold first && rivals.isEmpty then ⟨first, rest, .singleLabel, conflict⟩
    else if conflict then
      match newest? threshold (first :: rest) with
      | some (winner, others) => ⟨winner, others, .mostRecent, conflict⟩
      | none => ⟨first, rest, rankingRule first second, conflict⟩
    else ⟨first, rest, rankingRule first second, conflict⟩

end Resolution

/-- **The decision between some groups**; without a group there is none. -/
def resolve? (threshold : Int) (groups : List LabelGroup) : Option Resolution :=
  match groups.mergeSort fun a b => (Resolution.ranking a b).isLE with
  | [] => none
  | first :: rest => some (Resolution.ofRanked threshold first rest)

end Conventions
