import Conventions.Files.Selection
import Conventions.Proofs.Sequence

/-!
# Proofs/Files/Selection — no file is selected twice

A path is that of a main entry or not, so the two parts of a selection have no path in common. Every
path that is selected has a name, for it ends with an extension. The ceiling leaves as many files as it
allows, and a selection is said to be capped exactly if it leaves some out.
-/

namespace Conventions

/-- A text with characters has some in small letters too. -/
theorem Text.lower_eq_empty_iff {s : String} : lower s = "" ↔ s = "" := by
  have hlower : ∀ afterCased cs, lowerFrom afterCased cs = [] ↔ cs = [] := by
    intro afterCased cs
    cases cs with
    | nil => simp [lowerFrom]
    | cons c rest =>
      rw [lowerFrom]
      split_ifs <;> simp
  rw [lower, ← String.toList_inj, String.toList_ofList, String.toList_empty, hlower,
    ← String.toList_inj, String.toList_empty]

namespace FileSelection

variable {o : ScanOptions} {top : FileNode} {root : List String} {path : String}

theorem nodup_ordered (o : ScanOptions) (paths : List String) : (ordered o paths).Nodup := by
  refine (Text.nodup_distinct _).append (Text.nodup_distinct _) fun path hmain hother => ?_
  have hmain := List.of_mem_filter (Text.mem_distinct.1 hmain)
  have hother := List.of_mem_filter (Text.mem_distinct.1 hother)
  rw [hmain] at hother
  cases hother

/-- **No file is selected twice.** -/
theorem nodup_selected (o : ScanOptions) (top : FileNode) (root : List String) :
    (ofProject o top root).selected.Nodup :=
  (Sequence.firstItems_sublist ..).nodup (nodup_ordered o _)

theorem length_selected_le (o : ScanOptions) (top : FileNode) (root : List String) :
    (ofProject o top root).selected.length ≤ (ofProject o top root).discovered :=
  (Sequence.firstItems_sublist ..).length_le

/-- **The ceiling** leaves as many files as it allows. -/
theorem length_selected (top : FileNode) (root : List String) (ho : 0 ≤ o.maxFiles) :
    ((ofProject o top root).selected.length : Int) =
      min o.maxFiles (ofProject o top root).discovered :=
  Sequence.length_firstItems ho _

theorem capped_iff :
    (ofProject o top root).capped = true ↔ o.maxFiles < (ofProject o top root).discovered :=
  decide_eq_true_iff

theorem admits_of_mem_selected (h : path ∈ (ofProject o top root).selected) :
    admits o path = true := by
  have hordered := (Sequence.firstItems_sublist ..).subset h
  obtain hmain | hother := List.mem_append.1 hordered
  · exact List.of_mem_filter (List.mem_of_mem_filter (Text.mem_distinct.1 hmain))
  · exact List.of_mem_filter (List.mem_of_mem_filter (Text.mem_distinct.1 hother))

/-- **Files in order without a main entry** are selected as they are, up to the ceiling. -/
theorem ofPaths_of_sorted {paths : List String} (hadmits : ∀ path ∈ paths, admits o path = true)
    (hmain : ∀ path ∈ paths, isMain o path = false) (hsorted : paths.Pairwise (· < ·)) :
    ofPaths o paths =
      ⟨Sequence.firstItems o.maxFiles paths, paths.length, decide (o.maxFiles < paths.length)⟩ := by
  have hnone : (paths.filter (isMain o)) = [] :=
    List.filter_eq_nil_iff.2 fun path hpath => Bool.not_eq_true _ ▸ hmain path hpath
  have hall : (paths.filter fun path => !isMain o path) = paths :=
    List.filter_eq_self.2 fun path hpath => by rw [hmain path hpath]; rfl
  have hordered : ordered o paths = paths := by
    rw [ordered, List.filter_eq_self.2 hadmits, hnone, hall, Text.distinct_of_sorted hsorted,
      Text.distinct_of_sorted .nil, List.nil_append]
  rw [ofPaths, hordered]

/-- **Every file that is selected has a name.** -/
theorem ne_empty_of_mem_selected (ho : ∀ e ∈ o.extensions, e ≠ "")
    (h : path ∈ (ofProject o top root).selected) : path ≠ "" := by
  rintro rfl
  have hadmits := admits_of_mem_selected h
  rw [admits, Bool.and_eq_true, Bool.and_eq_true, hasExtension, List.any_eq_true] at hadmits
  obtain ⟨⟨⟨e, he, hsuffix⟩, -⟩, -⟩ := hadmits
  have hname : Text.lower (Path.fileName "") = "" := Text.lower_eq_empty_iff.2 rfl
  have hnil : (Text.lower e).toList = [] := by
    rw [hname, List.isSuffixOf_iff_suffix, String.toList_empty] at hsuffix
    exact List.suffix_nil.1 hsuffix
  exact ho e he (Text.lower_eq_empty_iff.1 (String.toList_inj.1 hnil))

end FileSelection
end Conventions
