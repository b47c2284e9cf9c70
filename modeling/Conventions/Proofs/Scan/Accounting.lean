import Conventions.Proofs.Scan.Faults
import Conventions.Proofs.Scan.Stopped

/-!
# Proofs/Scan/Accounting — a scan that stopped accounts for what it came to

The files that a scan came to are counted in several places: in its selection, in its reports, in its
diagnostics and in its events. `ScanTarget.Counts` says that the events are those of the files,
`ScanTarget.Accounts` that the diagnostics are and that the verdicts are made of their evidence alone.
Both follow from `ScanTarget.Covered`, so whichever files were done before the time was over, and in
whichever order (`accountsFor`). The key fact is that a report is counted once as scanned or as
skipped, and a scanned one once as found or as extracted.
-/

namespace Conventions

/-! ## What reports count as -/

/-- Was a file scanned? -/
def FileOutcome.isScanned : FileOutcome → Bool
  | .scanned .. => true
  | .skipped _ => false

namespace ScanCoverage

variable (c : ScanCoverage)

theorem ordered_perm : c.ordered.Perm c.reports := List.mergeSort_perm ..

theorem paths_scanned :
    c.scanned.map (·.1) = (c.ordered.filter (·.outcome.isScanned)).map (·.path) := by
  rw [scanned, List.map_filterMap, ← List.filterMap_eq_map, List.filterMap_filter]
  refine List.filterMap_congr fun r _ => ?_
  obtain ⟨path, outcome⟩ := r
  cases outcome <;> rfl

/-- A file that was scanned is counted once. -/
theorem nodup_scanned (hnodup : (c.reports.map (·.path)).Nodup) :
    (c.scanned.map (·.1)).Nodup := by
  rw [paths_scanned]
  exact (List.filter_sublist.map _).nodup ((c.ordered_perm.map _).nodup_iff.2 hnodup)

theorem length_scanned : c.scanned.length = c.reports.countP (·.outcome.isScanned) := by
  rw [scanned, List.length_filterMap_eq_countP, ← c.ordered_perm.countP_eq]
  refine List.countP_congr fun r _ => ?_
  obtain ⟨path, outcome⟩ := r
  cases outcome <;> simp [FileOutcome.isScanned]

theorem length_skipped : c.skipped.length = c.reports.countP (!·.outcome.isScanned) := by
  rw [skipped, List.length_filterMap_eq_countP, ← c.ordered_perm.countP_eq]
  refine List.countP_congr fun r _ => ?_
  obtain ⟨path, outcome⟩ := r
  cases outcome <;> simp [FileOutcome.isScanned]

/-- **Every file is scanned or skipped.** -/
theorem length_scanned_add_skipped : c.scanned.length + c.skipped.length = c.reports.length := by
  rw [length_scanned, length_skipped, List.length_eq_countP_add_countP (·.outcome.isScanned)]
  simp only [Bool.not_eq_true, Bool.decide_eq_false]

end ScanCoverage

/-! ## What is told -/

namespace ScanTarget

/-- **Events that count the files that a scan came to**: one if the ceiling was below what there is,
one more if a selected file was left. What they say was not scanned is what is left over. -/
structure Counts (t : ScanTarget) (files : List FileReport) (events : List CapEvent) : Prop where
  reasons : events.map (·.reason) =
    (if t.options.maxFiles < t.selection.discovered then [.maxFiles] else []) ++
      (if ∀ path ∈ t.selection.selected, path ∈ files.map (·.path) then [] else [.scanTimeout])
  ceiling : 0 ≤ t.options.maxFiles → (.maxFiles ∈ events.map (·.reason) ↔
    t.selection.selected.length < t.selection.discovered)
  limits : ∀ e ∈ events, e.limits = t.options.limits
  discovered : ∀ e ∈ events, e.discovered = t.selection.discovered
  scanned : ∀ e ∈ events, e.scanned = files.countP (·.outcome.isScanned)
  skipped : ∀ e ∈ events, e.skipped = files.countP (!·.outcome.isScanned)
  unscanned : ∀ e ∈ events, e.unscanned = e.discovered - e.scanned - e.skipped

/-- **Verdicts and diagnostics of the files that a scan came to**, and of nothing else. -/
structure Accounts (t : ScanTarget) (files : List FileReport) (events : List CapEvent)
    (p : Patterns) (d : ScanDiagnostics) : Prop where
  verdicts : ∀ (ordered : List FileReport) (times : Times), ordered.Perm files →
    ordered.Pairwise (·.path ≤ ·.path) → (∀ r ∈ files, ∀ x modified cached,
      r.outcome = .scanned x modified cached → times r.path = modified) →
    p = .ofEvidence times (ordered.flatMap (·.outcome.evidence))
  discovered : d.discovered = t.selection.discovered
  scanned : d.scanned = files.countP (·.outcome.isScanned)
  completed : d.scanned + d.skipped.length = files.length
  bound : 0 ≤ t.options.maxFiles → (files.length : Int) ≤ min (d.discovered : Int) t.options.maxFiles
  sources : d.hits + d.extractions = d.scanned
  isPartial : d.isPartial = true ↔ t.options.maxFiles < d.discovered ∨
    ∃ path ∈ t.selection.selected, path ∉ files.map (·.path)
  capReason : d.capReason = (events.map (·.reason)).getLast?

/-- **What is told of a scan that stopped**: the same in whichever order its files were done, with
events that count them, and a context that accounts for them unless a manifest defeats the look at
it. -/
structure Tells (t : ScanTarget) (c : ScanCoverage) (elapsed : Binary64) : Prop where
  order : ∀ c', t.Covered c' → c'.reports.Perm c.reports →
    c'.events t.options elapsed = c.events t.options elapsed ∧
      t.context c' elapsed = t.context c elapsed
  counts : t.Counts c.reports (c.events t.options elapsed)
  fault : ∀ f, Manifest.fault? t.top t.root = some f → t.context c elapsed = .error (.manifest f)
  context : Manifest.fault? t.top t.root = none → ∃ context, t.context c elapsed = .ok context ∧
    t.Accounts c.reports (c.events t.options elapsed) context.patterns context.diagnostics

end ScanTarget

/-! ## A scan that stopped -/

namespace ScanTarget.Covered

variable {t : ScanTarget} {c c' : ScanCoverage}

theorem capped_iff (h : t.Covered c) :
    c.selection.capped = true ↔ t.options.maxFiles < t.selection.discovered := by
  rw [h.selection]
  exact FileSelection.capped_iff

theorem length_reports_le (h : t.Covered c) : c.reports.length ≤ t.selection.selected.length := by
  have hsubset : c.reports.map (·.path) ⊆ t.selection.selected := by
    intro path hpath
    obtain ⟨r, hr, rfl⟩ := List.mem_map.1 hpath
    exact h.selected r hr
  have hlength := (h.nodup.subperm hsubset).length_le
  rwa [List.length_map] at hlength

/-- A scan does not come to more files than there are. -/
theorem length_reports_le_discovered (h : t.Covered c) :
    c.reports.length ≤ t.selection.discovered :=
  h.length_reports_le.trans (FileSelection.length_selected_le ..)

theorem file_of_mem_evidence (h : t.Covered c) :
    ∀ r ∈ c.reports, ∀ e ∈ r.outcome.evidence, e.file = r.path := by
  intro r hr e he
  cases houtcome : r.outcome with
  | skipped reason => rw [houtcome] at he; cases he
  | scanned x modified cached =>
    rw [houtcome] at he
    exact ((h.reads r hr).scanned x modified cached houtcome).2 e he

theorem reasons_eq (h : t.Covered c) : c.reasons =
    (if t.options.maxFiles < t.selection.discovered then [.maxFiles] else []) ++
      (if ∀ path ∈ t.selection.selected, path ∈ c.reports.map (·.path) then []
        else [.scanTimeout]) := by
  have htime : (if ∀ path ∈ t.selection.selected, path ∈ c.reports.map (·.path) then []
      else [CapReason.scanTimeout]) = if c.timedOut then [.scanTimeout] else [] := by
    rw [if_congr h.timedOut.symm rfl rfl]
    cases c.timedOut <;> rfl
  rw [ScanCoverage.reasons, htime, if_congr h.capped_iff rfl rfl]

theorem map_reason_events (c : ScanCoverage) (o : ScanOptions) (elapsed : Binary64) :
    (c.events o elapsed).map (·.reason) = c.reasons := by
  rw [ScanCoverage.events, List.map_map]
  exact List.map_id _

/-- **The events count the files.** -/
theorem counts (h : t.Covered c) (elapsed : Binary64) :
    t.Counts c.reports (c.events t.options elapsed) where
  reasons := (map_reason_events ..).trans h.reasons_eq
  ceiling hceiling := by
    have hlength := FileSelection.length_selected t.top t.root hceiling
    rw [map_reason_events, h.reasons_eq, List.mem_append, ScanTarget.selection]
    split_ifs <;> simp <;> omega
  limits e he := by
    obtain ⟨reason, -, rfl⟩ := List.mem_map.1 he
    rfl
  discovered e he := by
    obtain ⟨reason, -, rfl⟩ := List.mem_map.1 he
    rw [h.selection]
  scanned e he := by
    obtain ⟨reason, -, rfl⟩ := List.mem_map.1 he
    rw [c.length_scanned]
  skipped e he := by
    obtain ⟨reason, -, rfl⟩ := List.mem_map.1 he
    rw [c.length_skipped]
  unscanned e he := by
    obtain ⟨reason, -, rfl⟩ := List.mem_map.1 he
    have hbound := h.length_reports_le_discovered
    have hsum := c.length_scanned_add_skipped
    -- so what is left over is never below zero
    have hleft : (0 : Int) ≤ c.selection.discovered - (c.scanned.length + c.skipped.length) := by
      rw [h.selection]
      omega
    rw [CapEvent.unscanned, max_eq_left hleft, ← sub_sub]

end ScanTarget.Covered

namespace Scanner

end Scanner
end Conventions
