import Conventions.Json.Reader
import Conventions.Schema.Contracts
import Conventions.Vocabulary
import Conventions.Sequence
import Conventions.Text.Utf8
import Conventions.Text.Blank

/-!
# Accuracy/Corpus — projects with known labels, and what to measure on them

A corpus lists projects with the label that is expected for each facet key. It is read from a
document that has to meet the contract, name every project once and use the vocabulary only.

A request to measure names facet keys, or a facet key and one of its labels after a colon. Without a
request everything is measured that some case expects.
-/

namespace Conventions

/-- **A project with its expected labels** by facet key. -/
structure CorpusCase where
  project : String
  path : String
  framework : String
  expected : List (String × String)
  deriving DecidableEq, Repr, Inhabited

/-- The label that a case expects for a facet key. -/
def CorpusCase.expected? (case : CorpusCase) (key : String) : Option String :=
  (case.expected.find? fun e => e.1 == key).map (·.2)

/-- **A corpus of labelled projects.** -/
structure Corpus where
  cases : List CorpusCase
  deriving DecidableEq, Repr, Inhabited

/-- **Why a corpus, or a request to measure it, cannot be trusted.** -/
inductive CorpusFault where
  | unreadable (reason : String)
  | notJson (message : String)
  | violatesContract (message : String)
  | duplicateProject (project : String)
  | unknownExpectation (project : String) (fault : VocabularyError)
  | unknownMeasure (fault : VocabularyError)
  | unlabelledKey (key : String)
  | unexpectedLabel (key label : String)
  | nothingToMeasure
  deriving DecidableEq, Repr

def CorpusFault.message : CorpusFault → String
  | .unreadable reason => "Unable to read corpus: " ++ reason
  | .notJson message => "Corpus is not valid JSON: " ++ message
  | .violatesContract message => "Corpus violates schema: " ++ message
  | .duplicateProject project => "Duplicate project '" ++ project ++ "' in corpus."
  | .unknownExpectation project fault => "Case '" ++ project ++ "': " ++ fault.message
  | .unknownMeasure fault => fault.message
  | .unlabelledKey key => "No ground-truth case labels '" ++ key ++ "'."
  | .unexpectedLabel key label =>
    "No ground-truth case expects '" ++ label ++ "' for '" ++ key ++ "'."
  | .nothingToMeasure => "Nothing to measure."

namespace Corpus

/-- Every facet key that some case expects a label for, in order. -/
def facetKeys (c : Corpus) : List String :=
  Text.distinct (c.cases.flatMap fun case => case.expected.map (·.1))

/-- Every facet key with a label that some case expects for it. -/
def labels (c : Corpus) : List (String × String) := (c.cases.flatMap (·.expected)).eraseDups

/-! ## Reading a document -/

/-- The text of a member. -/
def textOf (key : String) (members : List (String × Json)) : String :=
  ((Json.lookup key members).bind Json.str?).getD ""

/-- The case that a document describes, before its labels are checked. -/
def caseOf (j : Json) : CorpusCase :=
  let members := (j.members?).getD []
  { project := textOf "project" members
    path := textOf "path" members
    framework := textOf "framework" members
    expected := (((Json.lookup "expected" members).bind Json.members?).getD []).map fun m =>
      (m.1, (m.2.str?).getD "") }

/-- The first expected label that the vocabulary does not know. -/
def unknownLabel? (case : CorpusCase) : Option VocabularyError :=
  case.expected.findSome? fun (key, label) =>
    match FacetKey.checkLabel key label with
    | .error fault => some fault
    | .ok () => none

/-- Check the cases in their order; `seen` are the projects met before. -/
def checkCases (seen : List String) : List CorpusCase → Except CorpusFault Unit
  | [] => .ok ()
  | case :: rest =>
    if seen.contains case.project then .error (.duplicateProject case.project)
    else
      match unknownLabel? case with
      | some fault => .error (.unknownExpectation case.project fault)
      | none => checkCases (case.project :: seen) rest

/-- **The corpus that a document describes.** -/
def ofDocument (j : Json) : Except CorpusFault Corpus :=
  match Contract.corpus.check j with
  | some v => .error (.violatesContract v.message)
  | none =>
    let cases := (((j.get? "cases").bind Json.items?).getD []).map caseOf
    match checkCases [] cases with
    | .error fault => .error fault
    | .ok () => .ok ⟨cases⟩

/-! ## Reading a file -/

/-- **Why a file could not be taken for a corpus**: the corpus is at fault, or the file goes beyond
what is read at all. -/
inductive ReadFault where
  | corpus (fault : CorpusFault)
  | notText
  | tooManyDigits
  | tooDeep
  deriving DecidableEq, Repr

/-- **The corpus in a file.** -/
def read (content : ByteArray) : Except ReadFault Corpus :=
  match Text.decode? content with
  | none => .error .notText
  | some text =>
    match Json.read (String.ofList (Text.unifyNewlines text.toList)) with
    | .error .tooManyDigits => .error .tooManyDigits
    | .error .tooDeep => .error .tooDeep
    | .error fault => .error (.corpus (.notJson fault.message))
    | .ok j =>
      match ofDocument j with
      | .error fault => .error (.corpus fault)
      | .ok corpus => .ok corpus

end Corpus

/-! ## What to measure -/

/-- **What is measured**: facet keys, some of them only for certain labels. -/
structure MeasurePlan where
  keys : List String
  narrowed : List (String × List String)
  deriving DecidableEq, Repr, Inhabited

namespace MeasurePlan

/-- **Is an expected label measured?** -/
def includes (p : MeasurePlan) (key label : String) : Bool :=
  p.keys.contains key &&
    match p.narrowed.find? fun e => e.1 == key with
    | some e => e.2.contains label
    | none => true

/-- **What is measured of a case**: facet keys, each with the label that the case expects. -/
def expectations (p : MeasurePlan) (case : CorpusCase) : List (String × String) :=
  p.keys.filterMap fun key =>
    ((case.expected? key).filter (p.includes key)).map fun label => (key, label)

/-- An entry of a request: a facet key and perhaps one of its labels. -/
structure Entry where
  key : String
  label : Option String
  deriving DecidableEq, Repr

/-- The entry that a text writes; an empty label stands for all of them. -/
def Entry.ofText (s : String) : Entry :=
  let cs := s.toList
  let key := cs.takeWhile (· != ':')
  let label := cs.drop (key.length + 1)
  ⟨String.ofList key, if label.isEmpty then none else some (String.ofList label)⟩

/-- What is wrong with an entry. -/
def Entry.fault? (corpus : Corpus) (e : Entry) : Option CorpusFault :=
  match FacetKey.parse e.key with
  | .error fault => some (.unknownMeasure fault)
  | .ok _ =>
    let unknown : Option CorpusFault := e.label.bind fun label =>
      match FacetKey.checkLabel e.key label with
      | .error fault => some (.unknownMeasure fault)
      | .ok () => none
    let unexpected : Option CorpusFault := e.label.bind fun label =>
      if corpus.labels.contains (e.key, label) then none else some (.unexpectedLabel e.key label)
    unknown <|> (if corpus.facetKeys.contains e.key then none else some (.unlabelledKey e.key))
      <|> unexpected

/-- The labels that some entries narrow a key to; none if an entry asks for the whole key. -/
def narrowing? (entries : List Entry) (key : String) : Option (List String) :=
  let asked := entries.filter fun e => e.key == key
  if asked.any fun e => e.label.isNone then none
  else some (Text.distinct (asked.filterMap (·.label)))

/-- The plan for entries without fault. -/
def ofEntries (entries : List Entry) : MeasurePlan :=
  let keys := Text.distinct (entries.map (·.key))
  ⟨keys, keys.filterMap fun key => (narrowing? entries key).map fun labels => (key, labels)⟩

/-- The plan that measures everything. -/
def everything (corpus : Corpus) : MeasurePlan := ⟨corpus.facetKeys, []⟩

/-- **The plan for a request.** -/
def ofRequest (corpus : Corpus) : Option (List String) → Except CorpusFault MeasurePlan
  | none => .ok (everything corpus)
  | some texts =>
    let entries := texts.map Entry.ofText
    match entries.findSome? (Entry.fault? corpus) with
    | some fault => .error fault
    | none => if entries.isEmpty then .error .nothingToMeasure else .ok (ofEntries entries)

end MeasurePlan
end Conventions
