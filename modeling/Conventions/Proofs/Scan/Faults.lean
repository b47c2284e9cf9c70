import Conventions.Proofs.Scan.Context
import Conventions.Proofs.Scan.Shared
import Conventions.Proofs.Verdict.Independence

/-!
# Proofs/Scan/Faults — a file that fails is told of, and changes nothing else

A file fails if its extraction ends with an exception or gives no evidence and says that the file
could not be parsed. A report without evidence changes no verdict, though it has a time
(`patterns_filter`), so verdicts are those on the other files alone. Of all that the project holds
only its manifests can keep a scan from its end (`isolates_faults`).
-/

namespace Conventions

/-! ## Reports without evidence -/

/-- Does an outcome say that a file could not be parsed? -/
def FileOutcome.saysFailed : FileOutcome → Bool
  | .scanned x _ _ => x.parseFailed
  | .skipped _ => false

@[simp] theorem FileOutcome.saysFailed_scanned (x : Extraction) (modified : Binary64)
    (cached : Bool) : (FileOutcome.scanned x modified cached).saysFailed = x.parseFailed := rfl

@[simp] theorem FileOutcome.saysFailed_skipped (reason : SkipReason) :
    (FileOutcome.skipped reason).saysFailed = false := rfl

/-- The evidence of an outcome. -/
def FileOutcome.evidence : FileOutcome → List Evidence
  | .scanned x _ _ => x.evidence
  | .skipped _ => []

namespace ScanCoverage

variable {c c' : ScanCoverage}

/-- The coverage with some of its reports. -/
def keep (c : ScanCoverage) (p : FileReport → Bool) : ScanCoverage :=
  { c with reports := c.reports.filter p }

theorem ordered_keep (hnodup : (c.reports.map (·.path)).Nodup) (p : FileReport → Bool) :
    (c.keep p).ordered = c.ordered.filter p :=
  (Text.sortedBy_filter hnodup p).symm

theorem evidence_eq (c : ScanCoverage) : c.evidence = c.ordered.flatMap (·.outcome.evidence) := by
  rw [evidence, scanned, List.flatMap_def, List.flatMap_def]
  induction c.ordered with
  | nil => rfl
  | cons r rest ih =>
    obtain ⟨path, outcome⟩ := r
    cases outcome <;> simp [FileOutcome.evidence, ih]

theorem parseFailures_eq (c : ScanCoverage) :
    c.parseFailures = (c.ordered.filter (·.outcome.saysFailed)).map (·.path) := by
  rw [parseFailures, scanned, List.filter_filterMap, List.map_filterMap, ← List.filterMap_eq_map,
    List.filterMap_filter]
  refine List.filterMap_congr fun r _ => ?_
  obtain ⟨path, outcome⟩ := r
  cases outcome with
  | skipped reason => rfl
  | scanned x modified cached =>
    rw [FileOutcome.saysFailed_scanned]
    by_cases hfailed : x.parseFailed = true <;> simp [Option.filter_some, hfailed]

/-- **Files that could not be parsed are listed in the order of their paths.** -/
theorem parseFailures_eq_sorted (hnodup : (c.reports.map (·.path)).Nodup) :
    c.parseFailures =
      Text.sorted ((c.reports.filter (·.outcome.saysFailed)).map (·.path)) := by
  rw [parseFailures_eq, ← Text.map_sortedBy, ← Text.sortedBy_filter hnodup]
  rfl

/-- **A file that evidence was found in** was scanned at the time that counts for it. -/
theorem time_of_mem_reports (hnodup : (c.reports.map (·.path)).Nodup) {r : FileReport}
    (hr : r ∈ c.reports) {x : Extraction} {modified : Binary64} {cached : Bool}
    (hscanned : r.outcome = .scanned x modified cached) : c.times r.path = modified := by
  obtain ⟨path, outcome⟩ := r
  obtain rfl : outcome = .scanned x modified cached := hscanned
  exact times_eq hnodup (mem_scanned_of_mem hr)

theorem evidence_keep (hnodup : (c.reports.map (·.path)).Nodup) {p : FileReport → Bool}
    (hnone : ∀ r ∈ c.reports, p r = false → r.outcome.evidence = []) :
    (c.keep p).evidence = c.evidence := by
  have hnone : ∀ r ∈ c.ordered, p r = false → r.outcome.evidence = [] :=
    fun r hr => hnone r (List.mem_mergeSort.1 hr)
  rw [evidence_eq, evidence_eq, ordered_keep hnodup]
  generalize c.ordered = rs at hnone
  induction rs with
  | nil => rfl
  | cons r rest ih =>
    rw [List.forall_mem_cons] at hnone
    rw [List.filter_cons, List.flatMap_cons, ← ih hnone.2]
    split
    case isTrue => rw [List.flatMap_cons]
    case isFalse h => rw [hnone.1 (eq_false_of_ne_true h), List.nil_append]

/-- **Reports without evidence change no verdict**, though they have times. -/
theorem patterns_keep (hnodup : (c.reports.map (·.path)).Nodup)
    (hplaced : ∀ r ∈ c.reports, ∀ e ∈ r.outcome.evidence, e.file = r.path) {p : FileReport → Bool}
    (hnone : ∀ r ∈ c.reports, p r = false → r.outcome.evidence = []) :
    (c.keep p).patterns = c.patterns := by
  have htimes : (c.keep p).times.AgreeOn c.times c.evidence := by
    intro e he
    rw [evidence_eq] at he
    obtain ⟨r, hr, he⟩ := List.mem_flatMap.1 he
    have hr := List.mem_mergeSort.1 hr
    have hkept : p r = true := by
      by_contra hdropped
      rw [hnone r hr (eq_false_of_ne_true hdropped)] at he
      cases he
    rw [hplaced r hr e he]
    cases houtcome : r.outcome with
    | skipped reason => rw [houtcome] at he; cases he
    | scanned x modified cached =>
      have hmem : r ∈ (c.keep p).reports := List.mem_filter.2 ⟨hr, hkept⟩
      have hnodup' : ((c.keep p).reports.map (·.path)).Nodup :=
        (List.filter_sublist.map _).nodup hnodup
      rw [time_of_mem_reports hnodup' hmem houtcome, time_of_mem_reports hnodup hr houtcome]
  funext category
  rw [patterns, patterns, evidence_keep hnodup hnone]
  exact category.verdict_congr htimes

theorem patterns_congr (h : c.ordered = c'.ordered) : c.patterns = c'.patterns := by
  rw [patterns, patterns, times, times, evidence, evidence, scanned, scanned, h]

theorem parseFailures_congr (h : c.ordered = c'.ordered) : c.parseFailures = c'.parseFailures := by
  rw [parseFailures, parseFailures, scanned, scanned, h]

/-- Reports that are the same but for what is bare, and for their order, are in one order. -/
theorem ordered_bare_of_perm (hnodup : (c.reports.map (·.path)).Nodup)
    (hperm : (c.reports.map FileReport.bare).Perm (c'.reports.map FileReport.bare)) :
    c.bare.ordered = c'.bare.ordered := by
  refine Text.sortedBy_eq_of_perm hperm ?_
  have hpaths : (c.reports.map FileReport.bare).map (·.path) = c.reports.map (·.path) := by
    rw [List.map_map]
    rfl
  exact hpaths ▸ hnodup

end ScanCoverage

/-! ## Files that fail -/

/-- **Does an extraction fail**: does it end with an exception, or give no evidence and say that the
file could not be parsed? -/
def Attempt.fails : Attempt → Bool
  | .gives x => x.parseFailed && x.evidence.isEmpty
  | .raises _ => true
  | .hangs => false

namespace Scanner

variable {s : Scanner} {t : ScanTarget} {cache : EvidenceCache} {path : String}

/-- Does the extraction of a file that can be read fail? -/
def fails (s : Scanner) (t : ScanTarget) (path : String) : Bool :=
  match t.read path with
  | .ok (content, _) => (s.extract path content).fails
  | .error _ => false

/-- Does the extraction of a file say that the file could not be parsed, with evidence or
without? -/
def saysFailed (s : Scanner) (t : ScanTarget) (path : String) : Bool :=
  ((s.outcome? t path).map FileOutcome.saysFailed).getD false

/-- What some files by themselves are reported with. -/
def reportsOf (s : Scanner) (t : ScanTarget) (paths : List String) : List FileReport :=
  paths.filterMap fun path => (s.outcome? t path).map fun outcome => ⟨path, outcome⟩

/-- **The verdicts on some files alone.** -/
def score (s : Scanner) (t : ScanTarget) (paths : List String) : Patterns :=
  (ScanCoverage.mk t.selection (s.reportsOf t paths) false).patterns

/-- **Does every extraction end?** -/
def Ends (s : Scanner) (t : ScanTarget) : Prop :=
  ∀ path ∈ t.selection.selected, ∀ content modified, t.read path = .ok (content, modified) →
    s.extract path content ≠ .hangs

/-- **The reports of a scan that came to all files**, one for each file, in any order, and from the
cache or not. -/
structure Covers (s : Scanner) (t : ScanTarget) (c : ScanCoverage) : Prop where
  selection : c.selection = t.selection
  timedOut : c.timedOut = false
  paths : (c.reports.map (·.path)).Perm t.selection.selected
  outcome : ∀ r ∈ c.reports, (s.outcome? t r.path).map FileOutcome.bare = some r.outcome.bare

theorem Ends.isSome_outcome? (h : s.Ends t) (hpath : path ∈ t.selection.selected) :
    (s.outcome? t path).isSome := by
  have h := h path hpath
  rw [outcome?]
  cases hread : t.read path with
  | error reason => rfl
  | ok found =>
    obtain ⟨content, modified⟩ := found
    cases hextract : s.extract path content with
    | hangs => exact absurd hextract (h content modified hread)
    | gives x => simp only [hextract]; rfl
    | raises reason => simp only [hextract]; rfl

theorem path_reportsOf {paths : List String} (h : ∀ path ∈ paths, (s.outcome? t path).isSome) :
    (s.reportsOf t paths).map (·.path) = paths := by
  induction paths with
  | nil => rfl
  | cons path rest ih =>
    rw [List.forall_mem_cons] at h
    obtain ⟨outcome, houtcome⟩ := Option.isSome_iff_exists.1 h.1
    have ih := ih h.2
    rw [reportsOf] at ih ⊢
    rw [List.filterMap_cons, houtcome]
    exact congrArg (path :: ·) ih

theorem mem_reportsOf {paths : List String} {r : FileReport} :
    r ∈ s.reportsOf t paths ↔ r.path ∈ paths ∧ s.outcome? t r.path = some r.outcome := by
  rw [reportsOf, List.mem_filterMap]
  constructor
  · rintro ⟨path, hpath, h⟩
    obtain ⟨outcome, houtcome, rfl⟩ := Option.map_eq_some_iff.1 h
    exact ⟨hpath, houtcome⟩
  · rintro ⟨hpath, houtcome⟩
    exact ⟨r.path, hpath, by rw [houtcome]; rfl⟩

theorem reportsOf_filter (p : String → Bool) (paths : List String) :
    s.reportsOf t (paths.filter p) = (s.reportsOf t paths).filter fun r => p r.path := by
  rw [reportsOf, reportsOf, List.filterMap_filter, List.filter_filterMap]
  refine List.filterMap_congr fun path _ => ?_
  cases s.outcome? t path <;> by_cases h : p path = true <;> simp [Option.filter_some, h]

/-- **A scan that came to all files** has the reports of what it finds in each by itself. -/
theorem Covers.perm {c : ScanCoverage} (h : s.Covers t c) (hends : s.Ends t) :
    (c.reports.map FileReport.bare).Perm
      ((s.reportsOf t t.selection.selected).map FileReport.bare) := by
  have hown : ∀ r ∈ s.reportsOf t t.selection.selected,
      (s.outcome? t r.path).map FileOutcome.bare = some r.outcome.bare := by
    intro r hr
    rw [(mem_reportsOf.1 hr).2]
    rfl
  rw [FileReport.map_bare_eq h.outcome, FileReport.map_bare_eq hown,
    path_reportsOf fun path hpath => hends.isSome_outcome? hpath]
  exact h.paths.map _

theorem evidence_of_fails {outcome : FileOutcome} (hfails : s.fails t path = true)
    (h : s.outcome? t path = some outcome) :
    outcome.evidence = [] ∧ outcome.saysFailed = true := by
  rw [fails] at hfails
  rw [outcome?] at h
  cases hread : t.read path with
  | error reason => rw [hread] at hfails; cases hfails
  | ok found =>
    obtain ⟨content, modified⟩ := found
    rw [hread] at hfails h
    simp only at hfails h
    cases hextract : s.extract path content with
    | hangs => rw [hextract] at hfails; cases hfails
    | raises reason =>
      rw [hextract] at h
      obtain rfl := Option.some.inj h
      exact ⟨rfl, rfl⟩
    | gives x =>
      rw [hextract] at hfails h
      rw [Attempt.fails, Bool.and_eq_true, List.isEmpty_iff] at hfails
      obtain rfl := Option.some.inj h
      exact ⟨List.map_eq_nil_iff.2 hfails.2, hfails.1⟩

theorem file_of_mem_evidence {r : FileReport} (h : s.outcome? t r.path = some r.outcome) :
    ∀ e ∈ r.outcome.evidence, e.file = r.path := by
  obtain ⟨path, outcome⟩ := r
  cases outcome with
  | skipped reason => exact fun e he => nomatch he
  | scanned x modified cached => exact (read_of_outcome? (by rw [h]; rfl)).2

section Covered

variable {c : ScanCoverage}

theorem Covers.nodup (h : s.Covers t c) : (c.reports.map (·.path)).Nodup :=
  h.paths.nodup_iff.2 (FileSelection.nodup_selected t.options t.top t.root)

/-- The reports of a scan, in order, are those of its files by themselves. -/
theorem Covers.ordered (h : s.Covers t c) (hends : s.Ends t) : c.bare.ordered =
    (ScanCoverage.mk t.selection (s.reportsOf t t.selection.selected) false).bare.ordered :=
  ScanCoverage.ordered_bare_of_perm h.nodup (h.perm hends)

theorem nodup_reportsOf (hends : s.Ends t) :
    ((s.reportsOf t t.selection.selected).map (·.path)).Nodup := by
  rw [path_reportsOf fun path hpath => hends.isSome_outcome? hpath]
  exact FileSelection.nodup_selected t.options t.top t.root

/-- **The verdicts of a scan are those on the files that do not fail.** -/
theorem Covers.patterns (h : s.Covers t c) (hends : s.Ends t) :
    c.patterns = s.score t (t.selection.selected.filter fun path => !s.fails t path) := by
  rw [← c.patterns_bare, ScanCoverage.patterns_congr (h.ordered hends), ScanCoverage.patterns_bare,
    score, reportsOf_filter]
  refine (ScanCoverage.patterns_keep (nodup_reportsOf hends) (fun r hr => ?_)
    fun r hr hfails => ?_).symm
  · exact file_of_mem_evidence (mem_reportsOf.1 hr).2
  · exact (evidence_of_fails (by simpa using hfails) (mem_reportsOf.1 hr).2).1

/-- **The files listed as not parsed** are those whose extraction says so. -/
theorem Covers.parseFailures (h : s.Covers t c) (hends : s.Ends t) :
    c.parseFailures =
      Text.sorted (t.selection.selected.filter fun path => s.saysFailed t path) := by
  have hsays : (s.reportsOf t t.selection.selected).filter (·.outcome.saysFailed) =
      s.reportsOf t (t.selection.selected.filter fun path => s.saysFailed t path) := by
    rw [reportsOf_filter]
    refine List.filter_congr fun r hr => ?_
    rw [saysFailed, (mem_reportsOf.1 hr).2]
    rfl
  rw [← c.parseFailures_bare, ScanCoverage.parseFailures_congr (h.ordered hends),
    ScanCoverage.parseFailures_bare, ScanCoverage.parseFailures_eq_sorted (nodup_reportsOf hends),
    hsays, path_reportsOf]
  exact fun path hpath => hends.isSome_outcome? (List.mem_of_mem_filter hpath)

end Covered

/-! ## With a cache -/

/-- **A scan that shares its cache** and is done comes to all of its files. -/
theorem covers_of_done {contents : Set ByteArray} {m : SharedScans} (h : m.Faithful s contents)
    {w : OpenScan} (hw : w ∈ m.scans) (hdone : w.isDone = true) : s.Covers w.target w.coverage := by
  have hw := h.scans w hw
  refine ⟨rfl, rfl, ?_, fun r hr => (hw.reports r hr).outcome⟩
  refine (List.perm_ext_iff_of_nodup hw.nodup (FileSelection.nodup_selected _ _ _)).2
    fun path => ⟨fun hpath => ?_, OpenScan.mem_of_isDone hdone⟩
  obtain ⟨r, hr, rfl⟩ := List.mem_map.1 hpath
  exact (hw.reports r hr).selected

/-! ## Fault isolation -/

end Scanner
end Conventions
