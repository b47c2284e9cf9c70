import Conventions.Proofs.Files.Below
import Conventions.Proofs.Scan.Alone

/-!
# Proofs/Scan/Eviction — what a scan takes from the cache

A scan that came to all files takes from the cache exactly what belongs to paths below its root that it
did not select (`ScanTarget.Gone`), and one that did not takes nothing (`Scanner.evicts_gone`). What
stays is as it was, in its order, with what was extracted behind it. Whether a path is below the root is
told by its text, which is the same as whether it goes through the root (`Path.Named`).
-/

namespace Conventions

namespace ScanTarget

/-- **Is the file at a path gone** from a project: is the path below the root, and not that of a file
that is selected? -/
def Gone (t : ScanTarget) (path : String) : Prop :=
  (Path.under t.root).toList <+: path.toList ∧ path ∉ t.selection.selected.map t.absolute

instance (t : ScanTarget) (path : String) : Decidable (t.Gone path) :=
  inferInstanceAs (Decidable (_ ∧ _))

/-- **What a scan of some files takes from a cache**, and what it leaves there. -/
structure Evicts (t : ScanTarget) (before : EvidenceCache) (c : ScanCoverage)
    (after : EvidenceCache) : Prop where
  isPartial : c.timedOut = true ∨ c.selection.capped = true → before.entries <+: after.entries
  complete : c.timedOut = false → c.selection.capped = false → ∃ added,
    (∀ p ∈ added, p.1.path ∈ t.selection.selected.map t.absolute) ∧
      after.entries = (before.entries.filter fun p => !decide (t.Gone p.1.path)) ++ added
  beside : ∀ p ∈ before.entries, ∀ names, Path.Named names → names ≠ [] →
    p.1.path = Path.absolute names → ¬ (t.root <+: names ∧ t.root ≠ names) → p ∈ after.entries
  again : t.forget c after = after

variable {t : ScanTarget} {c : ScanCoverage}

theorem isStale_eq (hroot : Path.Named t.root) (k : CacheKey) :
    EvidenceCache.isStale (Path.absolute t.root) (t.selection.selected.map t.absolute) k =
      decide (t.Gone k.path) := by
  refine Bool.eq_iff_iff.2 ?_
  rw [decide_eq_true_iff, EvidenceCache.isStale, Path.below_absolute hroot, Bool.and_eq_true,
    List.isPrefixOf_iff_prefix, Bool.not_eq_true', ← Bool.not_eq_true, List.contains_iff_mem]
  rfl

/-- **A scan that did not come to all files** takes nothing. -/
theorem forget_of_isPartial (h : c.timedOut = true ∨ c.selection.capped = true)
    (cache : EvidenceCache) : t.forget c cache = cache := by
  rw [forget, if_pos (Bool.or_eq_true_iff.2 h)]

/-- **A scan that came to all files** takes what is gone. -/
theorem entries_forget (hroot : Path.Named t.root) (hselection : c.selection = t.selection)
    (htime : c.timedOut = false) (hcapped : c.selection.capped = false) (cache : EvidenceCache) :
    (t.forget c cache).entries = cache.entries.filter fun p => !decide (t.Gone p.1.path) := by
  rw [forget, htime, hcapped, hselection]
  exact List.filter_congr fun p _ => by rw [isStale_eq hroot]

/-- **Taking what is gone again** takes nothing. -/
theorem forget_forget (t : ScanTarget) (c : ScanCoverage) (cache : EvidenceCache) :
    t.forget c (t.forget c cache) = t.forget c cache := by
  simp only [forget]
  split
  · rfl
  · simp only [EvidenceCache.retain, List.filter_filter, Bool.and_self]

/-- **A path that does not go through the root** is not one of a file that is gone. -/
theorem not_gone_of_beside (hroot : Path.Named t.root) {names : List String}
    (hnames : Path.Named names) (hne : names ≠ []) (hbeside : ¬ (t.root <+: names ∧ t.root ≠ names)) :
    ¬ t.Gone (Path.absolute names) := fun hgone =>
  hbeside ((Path.under_isPrefix_absolute_iff hroot hnames hne).1 hgone.1)

/-- A file that is selected is not gone. -/
theorem not_gone_of_mem {path : String} (h : path ∈ t.selection.selected.map t.absolute) :
    ¬ t.Gone path := fun hgone => hgone.2 h

end ScanTarget

namespace Scanner

variable {s : Scanner} {t : ScanTarget} {before after : EvidenceCache} {c : ScanCoverage}

/-- What is added belongs to files that are selected. -/
theorem Leaves.path_mem {paths : List String} {reports : List FileReport}
    {added : List (CacheKey × CacheEntry)} (h : s.Leaves t before paths reports after added) :
    ∀ p ∈ added, p.1.path ∈ paths.map t.absolute := by
  intro p hp
  obtain ⟨path, hpath, content, modified, -, hkey, -⟩ := h.adds p hp
  exact List.mem_map.2 ⟨path, hpath, by rw [hkey]; rfl⟩

/-- **A scan takes exactly what is gone**, if it came to all files; else it takes nothing. Every root
that a host finds has names (`Host.named_root`). -/
theorem evicts_gone (h : s.RunsAlone t before c after) (hidle : before.running = [])
    (hroot : Path.Named t.root) : t.Evicts before c after := by
  obtain ⟨mid, hran, rfl⟩ := h.exists_ranAlone hidle
  obtain ⟨added, hleaves⟩ := hran.leaves
  have hadded := hleaves.path_mem
  have hcomplete (htime : c.timedOut = false) (hcapped : c.selection.capped = false) :
      (t.forget c mid).entries =
        (before.entries.filter fun p => !decide (t.Gone p.1.path)) ++ added := by
    have hstay : (added.filter fun p => !decide (t.Gone p.1.path)) = added := by
      refine List.filter_eq_self.2 fun p hp => ?_
      rw [decide_eq_false (ScanTarget.not_gone_of_mem (hadded p hp))]
      rfl
    rw [ScanTarget.entries_forget hroot hran.covered.selection htime hcapped, hleaves.entries,
      List.filter_append, hstay]
  have hpartial (hpartial : c.timedOut = true ∨ c.selection.capped = true) :
      before.entries <+: (t.forget c mid).entries := by
    rw [ScanTarget.forget_of_isPartial hpartial, hleaves.entries]
    exact List.prefix_append _ _
  refine ⟨hpartial, fun htime hcapped => ⟨added, hadded, hcomplete htime hcapped⟩,
    fun p hp names hnames hne hpath hbeside => ?_, ScanTarget.forget_forget t c mid⟩
  by_cases hall : c.timedOut = true ∨ c.selection.capped = true
  · exact (hpartial hall).subset hp
  · rw [not_or, Bool.not_eq_true, Bool.not_eq_true] at hall
    rw [hcomplete hall.1 hall.2]
    refine List.mem_append_left _ (List.mem_filter.2 ⟨hp, ?_⟩)
    rw [hpath, decide_eq_false (ScanTarget.not_gone_of_beside hroot hnames hne hbeside)]
    rfl

/-- A project of one file, in a directory below the top. -/
def nestedProject : ScanTarget where
  top := .directory [("app", .directory [("a.js", .file "x".toUTF8 .one)])]
  root := ["app"]
  options := .standard

/-- A cache with another content of the file, with a file that is gone, and with one of a directory
whose name begins like that of the project. -/
def nestedCache : EvidenceCache :=
  { EvidenceCache.empty with
    entries := [(⟨"/app/a.js", "1"⟩, ⟨"1", .failed "", .one⟩),
      (⟨"/app/gone.js", "2"⟩, ⟨"2", .failed "", .one⟩),
      (⟨"/apps/b.js", "3"⟩, ⟨"3", .failed "", .one⟩)] }

theorem selection_nestedProject : nestedProject.selection = ⟨["a.js"], 1, false⟩ := by
  have hpaths : FileSelection.paths nestedProject.options nestedProject.top
      nestedProject.root = ["a.js"] := by
    simp only [FileSelection.paths, nestedProject, FileNode.at?, FileNode.child?, FileNode.entries,
      List.find?_cons, beq_self_eq_true, Option.map_some, Option.bind_some, FileNode.files,
      FileNode.filesIn, List.nil_append, List.append_nil]
    rfl
  rw [ScanTarget.selection, FileSelection.ofProject, hpaths, FileSelection.ofPaths_of_sorted]
  · decide
  · decide +kernel
  · decide +kernel
  · decide

/-- The other content and the other directory stay, the file that is gone goes. -/
theorem evicts_gone_nested :
    let s := Scanner.standard
    let t := nestedProject
    let before := nestedCache
    let c := (s.cover t .one before).1
    let after := (s.scanTarget t .one .one before).cache
    s.RunsAlone t before c after ∧ before.running = [] ∧ Path.Named t.root ∧
      t.Evicts before c after ∧
        ∃ added, after.entries.map (·.1.path) = ["/app/a.js", "/apps/b.js"] ++ added := by
  intro s t before c after
  have hwait : t.CanWait := ScanTarget.canWait_of_timeout rfl
  have hrun : s.RunsAlone t before c after := .inOrder .one .one hwait
  have hroot : Path.Named t.root := by decide
  have hevicts := evicts_gone hrun rfl hroot
  have hends : s.Ends t := fun path _ content _ _ => by simp [s, Scanner.standard]
  have hcapped : c.selection.capped = false := by
    have hselection : c.selection = t.selection := (covered_cover s t .one before).selection
    rw [hselection, selection_nestedProject]
  obtain ⟨added, -, hentries⟩ := hevicts.complete (timedOut_cover hends .one before) hcapped
  have hgone : ∀ path, t.Gone path ↔ "/app/".toList <+: path.toList ∧ path ∉ ["/app/a.js"] := by
    intro path
    rw [ScanTarget.Gone, selection_nestedProject]
    rfl
  have hkept : (before.entries.filter fun p => !decide (t.Gone p.1.path)).map (·.1.path) =
      ["/app/a.js", "/apps/b.js"] := by
    simp only [hgone]
    decide +kernel
  exact ⟨hrun, rfl, hroot, hevicts, added.map (·.1.path), by rw [hentries, List.map_append, hkept]⟩

end Scanner
end Conventions
