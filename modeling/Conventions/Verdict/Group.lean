import Conventions.Evidence
import Conventions.Sequence

/-!
# Verdict/Group — the evidence for one label

The evidence of a facet falls into one group for each label. A group knows how sure it makes and
when its files were written.

To be sure, every file counts once, with its strongest observation: repeating a construct inside one
file adds nothing, another file always adds something. The support of all files saturates at one
hundred, and a single file alone never gets beyond a ceiling.
-/

namespace Conventions

/-! ## How sure the evidence makes -/

namespace Confidence

/-- The highest confidence. -/
def most : Nat := 100

/-- The highest confidence that one file alone can give. -/
def singleFileCeiling : Nat := 60

/-- A strength kept between zero and one. -/
def clamp (strength : Quantity) : Binary64 := .min (.max strength.toBinary64 .zero) .one

/-- The strongest observation of each file, in the order in which the files were met. -/
abbrev Support := List (String × Binary64)

namespace Support

/-- Count one more observation in a file. -/
def add (file : String) (strength : Binary64) : Support → Support
  | [] => [(file, .max .zero strength)]
  | entry :: rest =>
    if entry.1 = file then (file, .max entry.2 strength) :: rest
    else entry :: add file strength rest

/-- The support of some observations. -/
def ofEvidence (es : List Evidence) : Support :=
  es.foldl (fun support e => support.add e.file (clamp e.strength)) []

/-- The support of all files together. -/
def total (support : Support) : Binary64 := .sum (support.map (·.2))

end Support

/-- **The share of full confidence that a support gives**, in hundredths: `100 (1 - e ^ (-x / 2))`,
to the nearest whole number. -/
def saturated (total : Binary64) : Nat :=
  let share := Binary64.sub .one (total.divNat 2).decay
  Nat.min most ((((Binary64.ofNat 100).mul share).roundToInt?.getD 0).toNat)

/-- **The confidence that some observations of one label give.** -/
def ofEvidence (es : List Evidence) : Nat :=
  match Support.ofEvidence es with
  | [] => 0
  | [entry] => Nat.min (saturated (Support.total [entry])) singleFileCeiling
  | support => saturated (Support.total support)

end Confidence

/-! ## The evidence of a label -/

/-- **When files were last written**; zero for a file that is not known. -/
abbrev Times := String → Binary64

/-- The times of a list of files. -/
def Times.ofList (entries : List (String × Binary64)) : Times := fun path =>
  ((entries.find? fun e => e.1 == path).map (·.2)).getD .zero

namespace Evidence

/-- The order of presentation: the strongest first, then the newest file, then the place. -/
def presentation (times : Times) (a b : Evidence) : Ordering :=
  (compare b.strength.key a.strength.key).then <|
    (compare (times b.file).key (times a.file).key).then <|
      (compare a.file b.file).then <| (compare a.line b.line).then (compare a.shape b.shape)

/-- The order of places. -/
def byPlace (a b : Evidence) : Ordering :=
  (compare a.file b.file).then <| (compare a.line b.line).then (compare a.shape b.shape)

/-- The most observations that a verdict shows for a label. -/
def shown : Int := 10

/-- **The observations to show**, in the order of presentation. -/
def ranked (times : Times) (cap : Int) (es : List Evidence) : List Evidence :=
  Sequence.firstItems cap (es.mergeSort fun a b => (presentation times a b).isLE)

end Evidence

/-- **The evidence for one label**, with what decides between labels. -/
structure LabelGroup where
  label : String
  evidence : List Evidence
  confidence : Int
  fileCount : Nat
  newest : Binary64
  oldest : Binary64
  firstPath : String
  deriving DecidableEq, Repr, Inhabited

namespace LabelGroup

/-- The number of observations of a group. -/
def evidenceCount (g : LabelGroup) : Nat := g.evidence.length

/-- The greatest number of a list. -/
def greatest : List Binary64 → Binary64
  | [] => .zero
  | x :: rest => rest.foldl .max x

/-- The least number of a list. -/
def least : List Binary64 → Binary64
  | [] => .zero
  | x :: rest => rest.foldl .min x

/-- The group of some observations of a label. -/
def ofEvidence (times : Times) (label : String) (es : List Evidence) : LabelGroup :=
  let files := Text.distinct (es.map (·.file))
  { label := label
    evidence := es.mergeSort fun a b => (Evidence.byPlace a b).isLE
    confidence := Confidence.ofEvidence es
    fileCount := files.length
    newest := greatest (files.map times)
    oldest := least (files.map times)
    firstPath := files.head?.getD "" }

/-- **The groups of some observations**, in the order of their labels. -/
def all (times : Times) (es : List Evidence) : List LabelGroup :=
  (Text.distinct (es.map (·.label))).map fun label =>
    ofEvidence times label (es.filter fun e => e.label == label)

end LabelGroup
end Conventions
