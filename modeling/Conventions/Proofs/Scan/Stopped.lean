import Conventions.Proofs.Scan.Context
import Conventions.Proofs.Scan.Shared
import Mathlib.Data.List.Perm.Subperm

/-!
# Proofs/Scan/Stopped — what a scan came to by the time it stopped

A scan stops when it is done with all files that it selected, or when its time is over: then it has
some of them, in the order in which they were done. Either way it has each of these once, with what
was read there, and it ran out of time exactly if it left a file (`ScanTarget.Covered`). This holds of a
scan by itself, some of whose extractions hang (`covered_cover`), and of scans that share a cache, at
any step of theirs (`covered_stopped`). Nothing is asked of the cache.
-/

namespace Conventions

/-- **A report of what was read**: a file is skipped for the reason why it cannot be read, and what is
told of a file that was scanned is told of its path, with the time that was read. -/
structure FileReport.Reads (t : ScanTarget) (r : FileReport) : Prop where
  skipped : ∀ reason, r.outcome = .skipped reason → t.read r.path = .error reason
  scanned : ∀ x modified cached, r.outcome = .scanned x modified cached →
    (∃ content, t.read r.path = .ok (content, modified)) ∧ ∀ e ∈ x.evidence, e.file = r.path

/-- **What a scan came to by the time it stopped.** -/
structure ScanTarget.Covered (t : ScanTarget) (c : ScanCoverage) : Prop where
  selection : c.selection = t.selection
  selected : ∀ r ∈ c.reports, r.path ∈ t.selection.selected
  reads : ∀ r ∈ c.reports, r.Reads t
  nodup : (c.reports.map (·.path)).Nodup
  timedOut : c.timedOut = false ↔ ∀ path ∈ t.selection.selected, path ∈ c.reports.map (·.path)

/-- **A scan that left no file** has each that it selected. -/
theorem ScanTarget.Covered.perm_selected {t : ScanTarget} {c : ScanCoverage} (h : t.Covered c)
    (hdone : c.timedOut = false) : (c.reports.map (·.path)).Perm t.selection.selected := by
  refine (List.perm_ext_iff_of_nodup h.nodup (FileSelection.nodup_selected ..)).2 fun path =>
    ⟨fun hpath => ?_, h.timedOut.1 hdone path⟩
  obtain ⟨r, hr, rfl⟩ := List.mem_map.1 hpath
  exact h.selected r hr

section Reports

variable {t : ScanTarget} {path : String} {content : ByteArray} {modified : Binary64}

theorem FileReport.reads_skipped {reason : SkipReason} (h : t.read path = .error reason) :
    FileReport.Reads t ⟨path, .skipped reason⟩ where
  skipped reason' h' := by
    rw [h, FileOutcome.skipped.inj h']
  scanned x modified cached h' := by cases h'

theorem FileReport.reads_told (h : t.read path = .ok (content, modified)) (x : Extraction)
    (cached : Bool) : FileReport.Reads t ⟨path, .scanned (x.told path) modified cached⟩ where
  skipped reason h' := by cases h'
  scanned x' modified' cached' h' := by
    obtain ⟨rfl, rfl, rfl⟩ := FileOutcome.scanned.inj h'
    exact ⟨⟨content, h⟩, fun e => Scanner.file_of_mem_told⟩

end Reports

/-! ## A scan by itself -/

namespace Scanner

variable {s : Scanner} {t : ScanTarget}

theorem reads_scanFile {now : Binary64} {cache : EvidenceCache} {path : String}
    {outcome : FileOutcome} (h : (s.scanFile t now cache path).1 = some outcome) :
    FileReport.Reads t ⟨path, outcome⟩ := by
  rw [scanFile] at h
  split at h
  case h_1 reason hread =>
    obtain rfl := Option.some.inj h
    exact FileReport.reads_skipped hread
  case h_2 content modified hread =>
    obtain ⟨⟨x, cached⟩, -, rfl⟩ := Option.map_eq_some_iff.1 h
    exact FileReport.reads_told hread x cached

/-- **Files are scanned in their order**, each once, and none is left exactly if all were done. -/
theorem scanFiles_covers (s : Scanner) (t : ScanTarget) (now : Binary64) (workers : Nat)
    (cache : EvidenceCache) (paths : List String) :
    ((s.scanFiles t now workers cache paths).1.map (·.path)).Sublist paths ∧
      (∀ r ∈ (s.scanFiles t now workers cache paths).1, r.Reads t) ∧
        ((s.scanFiles t now workers cache paths).2.1 = false ↔
          (s.scanFiles t now workers cache paths).1.map (·.path) = paths) := by
  induction paths generalizing workers cache with
  | nil => cases workers <;> simp [scanFiles]
  | cons path rest ih =>
    cases workers with
    | zero => simp [scanFiles]
    | succ workers =>
      have hfile : ∀ outcome, (s.scanFile t now cache path).1 = some outcome →
          FileReport.Reads t ⟨path, outcome⟩ := fun _ => reads_scanFile
      rw [scanFiles]
      generalize s.scanFile t now cache path = scanned at hfile
      obtain ⟨outcome, cache'⟩ := scanned
      cases outcome with
      | none =>
        obtain ⟨hsublist, hreads, -⟩ := ih workers cache'
        refine ⟨hsublist.cons path, hreads, ?_⟩
        -- what is left is one more than all that were done
        have hlength := hsublist.length_le
        simp only [Bool.true_eq_false, false_iff]
        intro hall
        rw [hall, List.length_cons] at hlength
        omega
      | some outcome =>
        obtain ⟨hsublist, hreads, hleft⟩ := ih (workers + 1) cache'
        refine ⟨hsublist.cons_cons path, ?_, ?_⟩
        · exact List.forall_mem_cons.2 ⟨hfile outcome rfl, hreads⟩
        · simpa using hleft

/-- **What a scan by itself came to.** -/
theorem covered_cover (s : Scanner) (t : ScanTarget) (now : Binary64) (cache : EvidenceCache) :
    t.Covered (s.cover t now cache).1 := by
  obtain ⟨hsublist, hreads, hleft⟩ :=
    scanFiles_covers s t now t.workers cache t.selection.selected
  have hnodup := FileSelection.nodup_selected t.options t.top t.root
  refine ⟨rfl, fun r hr => hsublist.subset (List.mem_map_of_mem hr), hreads,
    hsublist.nodup hnodup, hleft.trans ⟨fun hall path hpath => hall ▸ hpath, fun hall => ?_⟩⟩
  exact hsublist.eq_of_length_le (hnodup.subperm fun path hpath => hall path hpath).length_le

end Scanner

/-! ## Scans that share a cache -/

namespace OpenScan

/-- **What a scan at work came to, if it stops now.** -/
def stopped (w : OpenScan) : ScanCoverage := ⟨w.target.selection, w.reports, !w.isDone⟩

/-- **A scan at work that reports what it reads**, each file once. -/
structure Orderly (w : OpenScan) : Prop where
  canWait : w.target.CanWait
  tasks : ∀ task ∈ w.tasks, task.path ∈ w.target.selection.selected ∧
    w.target.read task.path = .ok (task.content, task.modified)
  selected : ∀ r ∈ w.reports, r.path ∈ w.target.selection.selected
  reads : ∀ r ∈ w.reports, r.Reads w.target
  nodup : (w.reports.map (·.path)).Nodup

variable {w : OpenScan}

theorem hasReported_iff {path : String} :
    w.hasReported path = true ↔ path ∈ w.reports.map (·.path) := by
  rw [hasReported, List.any_eq_true, List.mem_map]
  exact exists_congr fun r => and_congr_right fun _ => beq_iff_eq

/-- **A scan that is done** has every file that it selected. -/
theorem isDone_iff : w.isDone = true ↔
    ∀ path ∈ w.target.selection.selected, path ∈ w.reports.map (·.path) := by
  rw [isDone, List.all_eq_true]
  exact forall₂_congr fun path _ => hasReported_iff

theorem Orderly.covered_stopped (h : w.Orderly) : w.target.Covered w.stopped :=
  ⟨rfl, h.selected, h.reads, h.nodup, by rw [stopped, Bool.not_eq_false', isDone_iff]⟩

theorem Orderly.report (h : w.Orderly) {r : FileReport} (hselected : r.path ∈
    w.target.selection.selected) (hreads : r.Reads w.target) (hnew : w.hasReported r.path = false) :
    (w.report r).Orderly := by
  refine ⟨h.canWait, h.tasks, fun r' hr' => ?_, fun r' hr' => ?_, ?_⟩
  · obtain hr' | hr' := List.mem_append.1 hr'
    · exact h.selected r' hr'
    · exact List.mem_singleton.1 hr' ▸ hselected
  · obtain hr' | hr' := List.mem_append.1 hr'
    · exact h.reads r' hr'
    · exact List.mem_singleton.1 hr' ▸ hreads
  · rw [OpenScan.report, List.map_append, List.map_singleton, ← List.concat_eq_append]
    exact h.nodup.concat fun hmem => by simp [hasReported_iff.2 hmem] at hnew

end OpenScan

namespace SharedScans

/-- A cache, whatever is in it, and no scans. -/
def ofCache (cache : EvidenceCache) : SharedScans := ⟨.start cache, [], []⟩

/-- **The scans on a cache after some steps**, made one after the other. -/
def run (s : Scanner) (cache : EvidenceCache) (steps : List ScanStep) : SharedScans :=
  steps.foldl (step s) (ofCache cache)

theorem run_snoc (s : Scanner) (cache : EvidenceCache) (steps : List ScanStep) (st : ScanStep) :
    run s cache (steps ++ [st]) = (run s cache steps).step s st := by
  rw [run, run, List.foldl_append]
  rfl

variable {s : Scanner} {m : SharedScans}

/-- **All scans at work report what they read.** -/
def Orderly (m : SharedScans) : Prop := ∀ w ∈ m.scans, w.Orderly

theorem Orderly.put (h : m.Orderly) {w : OpenScan} (hw : w.Orderly) (i : Nat) :
    (m.put i w).Orderly := by
  intro w' hw'
  obtain hw' | rfl := List.mem_or_eq_of_mem_set hw'
  · exact h w' hw'
  · exact hw

theorem Orderly.take (h : m.Orderly) {w : OpenScan} (hw : w.Orderly) (i : Nat) {path : String}
    (hpath : path ∈ w.target.selection.selected) (hnew : w.hasTaken path = false) :
    (m.take s i w path).Orderly := by
  rw [SharedScans.take]
  split
  case h_1 reason hread =>
    exact h.put (hw.report hpath (FileReport.reads_skipped hread)
      (Bool.or_eq_false_iff.1 hnew).2) i
  case h_2 content modified hread =>
    have hcalled : (m.touch (.call (s.key w.target path content))).Orderly := h
    refine hcalled.put (w := { w with
      tasks := w.tasks ++ [⟨m.calls.calls.length, path, content, modified⟩] }) ?_ i
    refine ⟨hw.canWait, fun task htask => ?_, hw.selected, hw.reads, hw.nodup⟩
    obtain htask | htask := List.mem_append.1 htask
    · exact hw.tasks task htask
    · obtain rfl := List.mem_singleton.1 htask
      exact ⟨hpath, hread⟩

theorem Orderly.report (h : m.Orderly) (i j : Nat) : (m.step s (.report i j)).Orderly := by
  rw [step]
  split
  case h_2 => exact h
  case h_1 w task htask =>
    obtain ⟨hw, htask⟩ := task?_eq_some_iff.1 htask
    have hw := List.mem_of_getElem? hw
    obtain ⟨hselected, hread⟩ := (h w hw).tasks task (List.mem_of_getElem? htask)
    split
    case h_2 => exact h
    case h_1 k a hstate =>
      split
      · exact h
      case isFalse hnew =>
        refine h.put ((h w hw).report hselected ?_ (by simpa using hnew)) i
        cases a <;> exact FileReport.reads_told hread _ _

/-- **Every step keeps it.** -/
theorem Orderly.step (h : m.Orderly) (st : ScanStep) : (m.step s st).Orderly := by
  cases st with
  | begin t =>
    rw [SharedScans.step]
    split
    · exact h
    case isFalse hwait =>
      intro w hw
      obtain hw | hw := List.mem_append.1 hw
      · exact h w hw
      · obtain rfl := List.mem_singleton.1 hw
        exact ⟨ScanTarget.canWait_iff.2 (by simpa using hwait), by simp, by simp, by simp, by simp⟩
  | take i path =>
    rw [SharedScans.step]
    split
    case h_2 => exact h
    case h_1 w hw =>
      split
      case isFalse => exact h
      case isTrue hpath =>
        rw [Bool.and_eq_true, List.contains_iff_mem, Bool.not_eq_true'] at hpath
        exact h.take (h w (List.mem_of_getElem? hw)) i hpath.1 hpath.2
  | report i j => exact h.report i j
  | extract i j time =>
    rw [SharedScans.step]
    split
    · split <;> exact h
    · exact h
  | finish i =>
    rw [SharedScans.step]
    split
    · split <;> exact h
    · exact h
  | load top path =>
    rw [SharedScans.step]
    split
    · split <;> exact h
    · exact h
  | restart => exact fun w hw => absurd hw List.not_mem_nil
  | _ => exact h

/-- **Every run keeps it**, whatever is in the cache. -/
theorem orderly_run (s : Scanner) (cache : EvidenceCache) (steps : List ScanStep) :
    (run s cache steps).Orderly := by
  induction steps using List.reverseRecOn with
  | nil => exact fun w hw => absurd hw List.not_mem_nil
  | append_singleton steps st ih =>
    rw [run_snoc]
    exact ih.step st

end SharedScans
end Conventions
