import Conventions.Proofs.Files.Selection
import Conventions.Scan.Run

/-!
# Proofs/Scan/Coverage — what a scan tells depends on little

What a scan tells of a project does not depend on which evidence the cache had, on the wording of
the reason for a file that could not be parsed, or on the order in which the files were done
(`findings_eq_of_perm`). `Bare` reports leave the former out.
-/

namespace Conventions

/-! ## Bare reports -/

/-- **An outcome without how it was come by**: whether the evidence was in the cache, and what is
said of a file that could not be parsed. -/
def FileOutcome.bare : FileOutcome → FileOutcome
  | .skipped reason => .skipped reason
  | .scanned x modified _ => .scanned { x with detail := "" } modified false

/-- A report with its outcome bare. -/
def FileReport.bare (r : FileReport) : FileReport := ⟨r.path, r.outcome.bare⟩

/-- The files of a scan with bare reports. -/
def ScanCoverage.bare (c : ScanCoverage) : ScanCoverage :=
  { c with reports := c.reports.map FileReport.bare }

/-- **A context without how the cache was of use.** -/
def ProjectContext.bare (c : ProjectContext) : ProjectContext :=
  { c with diagnostics := { c.diagnostics with hits := 0, extractions := 0 } }

/-- **What a scan finds**: its events, and its context without how the cache was of use. -/
def ScanRun.findings (r : ScanRun) : List CapEvent × Except ScanFault ProjectContext :=
  (r.events, r.context.map ProjectContext.bare)

/-- What a scan of some files finds. -/
def ScanTarget.findings (t : ScanTarget) (c : ScanCoverage) (elapsed : Binary64) :
    List CapEvent × Except ScanFault ProjectContext :=
  (c.events t.options elapsed, (t.context c elapsed).map ProjectContext.bare)

/-- Bare reports are those of their paths, if what is reported is bare the same for each path. -/
theorem FileReport.map_bare_eq {reports : List FileReport} {found : String → Option FileOutcome}
    (h : ∀ r ∈ reports, (found r.path).map FileOutcome.bare = some r.outcome.bare) :
    reports.map FileReport.bare = (reports.map (·.path)).map fun path =>
      ⟨path, ((found path).map FileOutcome.bare).getD default⟩ := by
  rw [List.map_map]
  refine List.map_congr_left fun r hr => ?_
  rw [Function.comp_apply, h r hr]
  rfl

namespace ScanCoverage

variable {c c' : ScanCoverage}

theorem ordered_bare (c : ScanCoverage) : c.bare.ordered = c.ordered.map FileReport.bare :=
  (List.map_mergeSort (f := FileReport.bare) fun _ _ _ _ => rfl).symm

theorem scanned_bare (c : ScanCoverage) : c.bare.scanned =
    c.scanned.map fun f => (f.1, { f.2.1 with detail := "" }, f.2.2.1, false) := by
  rw [scanned, scanned, ordered_bare, List.filterMap_map, List.map_filterMap]
  refine List.filterMap_congr fun r _ => ?_
  obtain ⟨path, outcome⟩ := r
  cases outcome <;> rfl

theorem skipped_bare (c : ScanCoverage) : c.bare.skipped = c.skipped := by
  rw [skipped, skipped, ordered_bare, List.filterMap_map]
  refine List.filterMap_congr fun r _ => ?_
  obtain ⟨path, outcome⟩ := r
  cases outcome <;> rfl

theorem patterns_bare (c : ScanCoverage) : c.bare.patterns = c.patterns := by
  rw [patterns, patterns, times, times, evidence, evidence, scanned_bare, List.map_map,
    List.flatMap_map]
  rfl

theorem parseFailures_bare (c : ScanCoverage) : c.bare.parseFailures = c.parseFailures := by
  rw [parseFailures, parseFailures, scanned_bare, List.filter_map, List.map_map]
  rfl

theorem events_bare (c : ScanCoverage) (o : ScanOptions) (elapsed : Binary64) :
    c.bare.events o elapsed = c.events o elapsed := by
  rw [events, events, scanned_bare, skipped_bare, List.length_map]
  rfl

end ScanCoverage

namespace ScanTarget

variable {c c' : ScanCoverage}

theorem findings_bare (t : ScanTarget) (c : ScanCoverage) (elapsed : Binary64) :
    t.findings c.bare elapsed = t.findings c elapsed := by
  rw [findings, findings, c.events_bare, context, context, c.patterns_bare]
  refine congrArg (Prod.mk _) ?_
  cases ProjectMetadata.detect t.top t.root with
  | error fault => rfl
  | ok found =>
    simp only [Except.map, ProjectContext.bare, ScanDiagnostics.ofCoverage, c.scanned_bare,
      List.length_map, c.skipped_bare, c.parseFailures_bare]
    rfl

/-- **What is told depends on the reports in the order of their paths.** -/
theorem told_congr (t : ScanTarget) (elapsed : Binary64) (hselection : c.selection = c'.selection)
    (htime : c.timedOut = c'.timedOut) (hordered : c.ordered = c'.ordered) :
    c.events t.options elapsed = c'.events t.options elapsed ∧
      t.context c elapsed = t.context c' elapsed := by
  have hscanned : c.scanned = c'.scanned := by
    rw [ScanCoverage.scanned, ScanCoverage.scanned, hordered]
  have hskipped : c.skipped = c'.skipped := by
    rw [ScanCoverage.skipped, ScanCoverage.skipped, hordered]
  have hreasons : c.reasons = c'.reasons := by
    rw [ScanCoverage.reasons, ScanCoverage.reasons, hselection, htime]
  have hpatterns : c.patterns = c'.patterns := by
    rw [ScanCoverage.patterns, ScanCoverage.patterns, ScanCoverage.times, ScanCoverage.times,
      ScanCoverage.evidence, ScanCoverage.evidence, hscanned]
  have hdiagnostics : ScanDiagnostics.ofCoverage c elapsed = .ofCoverage c' elapsed := by
    rw [ScanDiagnostics.ofCoverage, ScanDiagnostics.ofCoverage, ScanCoverage.parseFailures,
      ScanCoverage.parseFailures, ScanCoverage.hits, ScanCoverage.hits, ScanCoverage.extractions,
      ScanCoverage.extractions, hscanned, hskipped, hreasons, hselection, htime]
  rw [ScanCoverage.events, ScanCoverage.events, context, context, hscanned, hskipped, hreasons,
    hpatterns, hdiagnostics, hselection]
  exact ⟨rfl, rfl⟩

/-- **What is found depends on the reports in the order of their paths.** -/
theorem findings_congr (t : ScanTarget) (elapsed : Binary64) (hselection : c.selection = c'.selection)
    (htime : c.timedOut = c'.timedOut) (hordered : c.ordered = c'.ordered) :
    t.findings c elapsed = t.findings c' elapsed := by
  obtain ⟨hevents, hcontext⟩ := t.told_congr elapsed hselection htime hordered
  rw [findings, findings, hevents, hcontext]

/-- **Files may be done in any order**, and whether their evidence was in the cache is of no
account. -/
theorem findings_eq_of_perm (t : ScanTarget) (elapsed : Binary64)
    (hselection : c.selection = c'.selection) (htime : c.timedOut = c'.timedOut)
    (hperm : (c.reports.map FileReport.bare).Perm (c'.reports.map FileReport.bare))
    (hnodup : (c.reports.map (·.path)).Nodup) : t.findings c elapsed = t.findings c' elapsed := by
  have hbare : ((c.reports.map FileReport.bare).map (·.path)).Nodup := by
    rw [List.map_map]
    exact hnodup
  rw [← t.findings_bare c, ← t.findings_bare c']
  exact t.findings_congr elapsed hselection htime (Text.sortedBy_eq_of_perm hperm hbare)

end ScanTarget

/-! ## The times of files -/

namespace ScanCoverage

variable {c : ScanCoverage}

theorem mem_scanned {f : String × Extraction × Binary64 × Bool} (h : f ∈ c.scanned) :
    ⟨f.1, .scanned f.2.1 f.2.2.1 f.2.2.2⟩ ∈ c.reports := by
  obtain ⟨⟨path, outcome⟩, hr, hf⟩ := List.mem_filterMap.1 h
  have hr := List.mem_mergeSort.1 hr
  cases outcome with
  | skipped reason => cases hf
  | scanned x modified cached => exact Option.some.inj hf ▸ hr

theorem mem_scanned_of_mem {path : String} {x : Extraction} {modified : Binary64} {cached : Bool}
    (h : ⟨path, .scanned x modified cached⟩ ∈ c.reports) :
    (path, x, modified, cached) ∈ c.scanned :=
  List.mem_filterMap.2 ⟨_, List.mem_mergeSort.2 h, rfl⟩

/-- **The time of a file that was scanned** is the one that was read with it. -/
theorem times_eq (hnodup : (c.reports.map (·.path)).Nodup)
    {f : String × Extraction × Binary64 × Bool} (h : f ∈ c.scanned) : c.times f.1 = f.2.2.1 := by
  have hentry : (f.1, f.2.2.1) ∈ c.scanned.map fun f => (f.1, f.2.2.1) :=
    List.mem_map_of_mem h
  rw [times, Times.ofList]
  cases hfind : (c.scanned.map fun f => (f.1, f.2.2.1)).find? fun e => e.1 == f.1 with
  | none =>
    have hne := List.find?_eq_none.1 hfind _ hentry
    exact absurd (beq_self_eq_true f.1) hne
  | some entry =>
    have hpath : entry.1 = f.1 := by simpa using List.find?_some hfind
    obtain ⟨g, hg, rfl⟩ := List.mem_map.1 (List.mem_of_find?_eq_some hfind)
    -- one path has one report
    have hreport := List.inj_on_of_nodup_map hnodup (mem_scanned hg) (mem_scanned h) hpath
    have hmodified := (FileOutcome.scanned.inj (FileReport.mk.inj hreport).2).2.1
    exact hmodified

end ScanCoverage
end Conventions
