import Conventions.Proofs.Project.Manifest
import Conventions.Scan.Run

/-!
# Proofs/Scan/Context — when a scan gives a context

Two things keep a scan from its context: a limit of time that is longer than one can wait for some
files (`ScanTarget.CanWait`), and a manifest that defeats the look at it. In the first case nothing is
scanned and nothing recorded; in the second one the files were scanned, and the events are there.
-/

namespace Conventions

namespace ScanTarget

/-- **Can one wait for a scan**: has it nothing to wait for, or no limit that is too long? -/
def CanWait (t : ScanTarget) : Prop :=
  t.selection.selected = [] ∨ t.options.limitTooLong = false

variable {t : ScanTarget}

theorem canWait_iff :
    t.CanWait ↔ (!t.selection.selected.isEmpty && t.options.limitTooLong) = false := by
  rw [CanWait, Bool.and_eq_false_iff, Bool.not_eq_false', List.isEmpty_iff]

/-- Without a limit one can wait. -/
theorem canWait_of_timeout (h : t.options.timeout = none) : t.CanWait := by
  refine .inr ?_
  rw [ScanOptions.limitTooLong, h]
  rfl

/-- Without a fault in the manifests, there is a context, with the metadata of the project. -/
theorem exists_metadata (h : Manifest.fault? t.top t.root = none) : ∃ metadata,
    ∀ c elapsed, t.context c elapsed = .ok ⟨metadata, c.patterns, .ofCoverage c elapsed⟩ := by
  obtain ⟨m, notes, hdetect, -⟩ | ⟨f, -, hsome⟩ := ProjectMetadata.detect_cases t.top t.root
  · refine ⟨m, fun c elapsed => ?_⟩
    rw [context, hdetect]
  · cases h.symm.trans hsome

theorem exists_context (c : ScanCoverage) (elapsed : Binary64)
    (h : Manifest.fault? t.top t.root = none) : ∃ context, t.context c elapsed = .ok context := by
  obtain ⟨metadata, hcontext⟩ := exists_metadata h
  exact ⟨_, hcontext c elapsed⟩

end ScanTarget

namespace Scanner

variable {t : ScanTarget}

theorem scanTarget_of_not_canWait (s : Scanner) (now elapsed : Binary64) (cache : EvidenceCache)
    (hwait : ¬ t.CanWait) :
    s.scanTarget t now elapsed cache = ⟨cache, [], .error .limitTooLong⟩ := by
  rw [ScanTarget.canWait_iff, Bool.not_eq_false] at hwait
  rw [scanTarget, if_pos hwait]

theorem scanTarget_of_canWait (s : Scanner) (now elapsed : Binary64) (cache : EvidenceCache)
    (hwait : t.CanWait) :
    s.scanTarget t now elapsed cache =
      ⟨t.forget (s.cover t now cache).1 (s.cover t now cache).2,
        (s.cover t now cache).1.events t.options elapsed,
        t.context (s.cover t now cache).1 elapsed⟩ := by
  rw [ScanTarget.canWait_iff] at hwait
  rw [scanTarget, if_neg (by rw [hwait]; exact Bool.false_ne_true)]

theorem context_of_not_canWait (s : Scanner) (now elapsed : Binary64) (cache : EvidenceCache)
    (hwait : ¬ t.CanWait) :
    (s.scanTarget t now elapsed cache).context = .error .limitTooLong := by
  rw [scanTarget_of_not_canWait s now elapsed cache hwait]

theorem context_of_canWait (s : Scanner) (now elapsed : Binary64) (cache : EvidenceCache)
    (hwait : t.CanWait) :
    (s.scanTarget t now elapsed cache).context = t.context (s.cover t now cache).1 elapsed := by
  rw [scanTarget_of_canWait s now elapsed cache hwait]

end Scanner
end Conventions
