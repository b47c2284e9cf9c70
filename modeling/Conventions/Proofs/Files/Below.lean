import Conventions.Cache.Basic
import Conventions.Proofs.Fallible
import Conventions.Proofs.Files.Path
import Conventions.Scan.Host
import Mathlib.Data.List.DropRight

/-!
# Proofs/Files/Below — what is below a directory, by the text of its path

A path is below a directory if it begins with the path of the directory and one slash; the top of the
file system is its own slash (`Path.under`). For names that are names, this is the case exactly if the
path goes through the directory (`under_isPrefix_absolute_iff`), so a sibling whose name merely begins
with that of the directory is not below it. The slash is what decides: no name has one.
-/

namespace Conventions
namespace Path

/-- **Names of directories and files**: none is empty, and none has a slash. -/
def Named (names : List String) : Prop := ∀ name ∈ names, name ≠ "" ∧ '/' ∉ name.toList

instance (names : List String) : Decidable (Named names) :=
  inferInstanceAs (Decidable (∀ name ∈ names, name ≠ "" ∧ '/' ∉ name.toList))

/-- **What the paths below a directory begin with**: its own path and one slash. The top of the file
system is its own slash. -/
def under (directory : List String) : String :=
  if directory = [] then "/" else absolute directory ++ "/"

variable {directory names : List String}

theorem slash_notMem_of_mem_segments {path name : String} (h : name ∈ segments path) :
    '/' ∉ name.toList := by
  intro hslash
  have hmark := not_slash_of_mem_segments h '/' hslash
  simp at hmark

theorem toList_under (directory : List String) : (under directory).toList =
    (directory.map String.toList).flatMap ("/".toList ++ ·) ++ ['/'] := by
  rw [under]
  split_ifs with h
  · subst h
    rfl
  · rw [String.toList_append, toList_absolute_of_ne_nil h]
    rfl

/-- **What is kept below a directory** is told by the same text. -/
theorem below_absolute (h : Named directory) :
    EvidenceCache.below (absolute directory) = (under directory).toList := by
  obtain rfl | ⟨front, last, rfl⟩ := List.eq_nil_or_concat directory
  · rfl
  · rw [List.concat_eq_append] at h ⊢
    obtain ⟨hne, hslash⟩ := h last (by simp)
    obtain ⟨before, hbefore⟩ := toList_absolute front last
    have hlast : last.toList ≠ [] := fun hnil => hne (String.toList_inj.1 hnil)
    have hkept : (absolute (front ++ [last])).toList.rdropWhile (· == '/') =
        (absolute (front ++ [last])).toList := by
      rw [List.rdropWhile_eq_self_iff]
      intro hpath heq
      simp only [hbefore] at heq
      rw [List.getLast_append_of_ne_nil _ (List.cons_ne_nil _ _), List.getLast_cons hlast] at heq
      exact hslash (eq_of_beq heq ▸ List.getLast_mem hlast)
    rw [under, if_neg (by simp), String.toList_append, EvidenceCache.below, ← List.rdropWhile,
      hkept]
    rfl

/-- Texts without slashes, before texts that begin with one if at all, are compared by themselves. -/
theorem append_slash_isPrefix_iff {first second rest others : List Char} (hfirst : '/' ∉ first)
    (hsecond : '/' ∉ second) (hothers : others = [] ∨ ∃ cs, others = '/' :: cs) :
    first ++ '/' :: rest <+: second ++ others ↔ first = second ∧ '/' :: rest <+: others := by
  induction first generalizing second with
  | nil =>
    cases second with
    | nil => simp
    | cons d second =>
      have hd : '/' ≠ d := fun heq => hsecond (heq ▸ List.mem_cons_self)
      simp [List.cons_prefix_cons, hd]
  | cons c first ih =>
    rw [List.mem_cons, not_or] at hfirst
    cases second with
    | nil =>
      obtain rfl | ⟨cs, rfl⟩ := hothers
      · simp
      · simp [List.cons_prefix_cons, Ne.symm hfirst.1]
    | cons d second =>
      rw [List.mem_cons, not_or] at hsecond
      rw [List.cons_append, List.cons_append, List.cons_prefix_cons, ih hfirst.2 hsecond.2,
        List.cons.injEq, and_assoc]

/-- **A path is below a directory exactly if it goes through it.** -/
theorem under_isPrefix_absolute_iff (hdirectory : Named directory) (hnames : Named names)
    (hne : names ≠ []) : (under directory).toList <+: (absolute names).toList ↔
      directory <+: names ∧ directory ≠ names := by
  rw [toList_under, toList_absolute_of_ne_nil hne]
  clear hne
  induction directory generalizing names with
  | nil => cases names <;> simp
  | cons name rest ih =>
    cases names with
    | nil => simp
    | cons name' rest' =>
      obtain ⟨⟨-, hname⟩, hdirectory⟩ := List.forall_mem_cons.1 hdirectory
      obtain ⟨⟨-, hname'⟩, hnames⟩ := List.forall_mem_cons.1 hnames
      obtain ⟨cs, hcs⟩ : ∃ cs, (rest.map String.toList).flatMap ("/".toList ++ ·) ++ ['/'] =
          '/' :: cs := by
        cases rest with
        | nil => exact ⟨[], rfl⟩
        | cons next rest => exact ⟨_, rfl⟩
      have hrest' : (rest'.map String.toList).flatMap ("/".toList ++ ·) = [] ∨
          ∃ cs, (rest'.map String.toList).flatMap ("/".toList ++ ·) = '/' :: cs := by
        cases rest' with
        | nil => exact .inl rfl
        | cons next rest' => exact .inr ⟨_, rfl⟩
      have ih := ih hdirectory hnames
      rw [hcs] at ih
      rw [List.map_cons, List.map_cons, List.flatMap_cons, List.flatMap_cons, List.append_assoc,
        List.append_assoc, List.append_assoc, hcs, List.prefix_append_right_inj,
        append_slash_isPrefix_iff hname hname' hrest', ih, String.toList_inj,
        List.cons_prefix_cons, and_assoc]
      refine and_congr_right fun heq => and_congr_right fun _ => ?_
      rw [heq, Ne, Ne, List.cons.injEq, eq_self, true_and]

end Path

/-! ## The names of a root -/

namespace FileNode

/-- **Where a path leads** has names, if the directory has that it is seen from. -/
theorem named_settle {top : FileNode} {links : Nat} {here path place : List String}
    (hhere : Path.Named here) (hpath : ∀ name ∈ path, '/' ∉ name.toList)
    (h : settle top links here path = some place) : Path.Named place := by
  fun_induction settle top links here path with
  | case1 => exact Option.some.inj h ▸ hhere
  | case2 links here name rest _ ih => exact ih hhere (List.forall_mem_cons.1 hpath).2 h
  | case3 links here rest _ ih =>
    have htail : Path.Named here.tail := fun name hname => hhere name (List.mem_of_mem_tail hname)
    exact ih htail (List.forall_mem_cons.1 hpath).2 h
  | case4 => cases h
  | case5 here name rest _ _ target _ k ih =>
    refine ih ?_ (List.forall_mem_append.2 ⟨?_, (List.forall_mem_cons.1 hpath).2⟩) h
    · split
      · exact fun name hname => absurd hname List.not_mem_nil
      · exact hhere
    · exact fun name hname => Path.slash_notMem_of_mem_segments hname
  | case6 links here name rest hne _ _ ih =>
    rw [not_or] at hne
    obtain ⟨hname, hrest⟩ := List.forall_mem_cons.1 hpath
    exact ih (List.forall_mem_cons.2 ⟨⟨hne.1, hname⟩, hhere⟩) hrest h

end FileNode

namespace Host

variable {h : Host} {directory root : List String} {path : String}

theorem named_locate (hdirectory : Path.Named directory)
    (hlocate : h.locate directory path = .ok root) : Path.Named root := by
  rw [locate] at hlocate
  split at hlocate
  · cases hlocate
  · cases hsettled : h.top.settled? directory path with
    | none => simp [hsettled] at hlocate
    | some place =>
      obtain ⟨back, hsettle, rfl⟩ := Option.map_eq_some_iff.1 hsettled
      rw [hsettled] at hlocate
      obtain rfl := Except.ok.inj hlocate
      have hstart : Path.Named (if Path.isAbsolute path then [] else directory.reverse) := by
        split
        · exact fun name hname => absurd hname List.not_mem_nil
        · exact fun name hname => hdirectory name (List.mem_reverse.1 hname)
      have hback := FileNode.named_settle hstart
        (fun name hname => Path.slash_notMem_of_mem_segments hname) hsettle
      exact fun name hname => hback name (List.mem_reverse.1 hname)

theorem checkRoot_eq {place : List String} (hroot : h.checkRoot place = .ok root) :
    place = root := by
  rw [checkRoot] at hroot
  split at hroot
  · exact Except.ok.inj hroot
  · cases hroot
  · cases hroot

theorem expanded_cases {rest : String} (h' : h.expanded path = .ok (directory, rest)) :
    directory = h.workingDirectory ∨ ∃ home ∈ h.homes, directory = home.2 := by
  rw [expanded] at h'
  split at h'
  · split at h'
    · split at h'
      case h_1 name home hfind =>
        obtain ⟨rfl, -⟩ := Prod.mk.inj (Except.ok.inj h')
        exact .inr ⟨_, List.mem_of_find?_eq_some hfind, rfl⟩
      case h_2 => cases h'
    · exact .inl (Prod.mk.inj (Except.ok.inj h')).1.symm
  · exact .inl (Prod.mk.inj (Except.ok.inj h')).1.symm

/-- **A root has names**, if the directories have that it may be seen from. -/
theorem named_root (hdirectory : Path.Named h.workingDirectory)
    (hhomes : ∀ home ∈ h.homes, Path.Named home.2) (hroot : h.root path = .ok root) :
    Path.Named root := by
  obtain ⟨⟨directory, rest⟩, hexpanded, hfrom⟩ := Fallible.bind_eq_ok_iff.1 hroot
  obtain ⟨place, hlocate, hcheck⟩ := Fallible.bind_eq_ok_iff.1 hfrom
  have hstart : Path.Named directory := by
    obtain rfl | ⟨home, hhome, rfl⟩ := expanded_cases hexpanded
    · exact hdirectory
    · exact hhomes home hhome
  exact checkRoot_eq hcheck ▸ named_locate hstart hlocate

end Host
end Conventions
