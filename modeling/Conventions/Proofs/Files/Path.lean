import Conventions.Scan.File

/-!
# Proofs/Files/Path — paths from the top of the file system

A path ends with the name of its file (`fileName_absolute`), so the path in a project and the path
from the top of the file system have the same extension. Files of one project have different paths
from the top (`absolute_segments_inj`).
-/

namespace Conventions
namespace Path

/-! ## Parts of a text -/

section SplitWhere

variable {isMark : Char → Bool}

theorem splitWhere_ne_nil (isMark : Char → Bool) (cs : List Char) : splitWhere isMark cs ≠ [] := by
  cases cs with
  | nil => simp [splitWhere]
  | cons c rest =>
    rw [splitWhere]
    split
    · simp
    · split <;> simp

/-- A mark divides the parts. -/
theorem splitWhere_append {c : Char} (hc : isMark c = true) (cs ds : List Char) :
    splitWhere isMark (cs ++ c :: ds) = splitWhere isMark cs ++ splitWhere isMark ds := by
  induction cs with
  | nil => simp [splitWhere, hc]
  | cons d rest ih =>
    rw [List.cons_append, splitWhere, splitWhere, ih]
    split
    · rfl
    · obtain ⟨part, parts, h⟩ := List.exists_cons_of_ne_nil (splitWhere_ne_nil isMark rest)
      rw [h]
      rfl

/-- A text without marks has one part. -/
theorem splitWhere_of_forall {cs : List Char} (h : ∀ c ∈ cs, isMark c = false) :
    splitWhere isMark cs = [cs] := by
  induction cs with
  | nil => rfl
  | cons c rest ih =>
    rw [List.forall_mem_cons] at h
    rw [splitWhere, ih h.2, h.1]
    rfl

/-- No part has a mark. -/
theorem isMark_of_mem_splitWhere {cs part : List Char} (h : part ∈ splitWhere isMark cs) :
    ∀ c ∈ part, isMark c = false := by
  induction cs generalizing part with
  | nil =>
    obtain rfl := List.mem_singleton.1 h
    intro c hc
    cases hc
  | cons d rest ih =>
    rw [splitWhere] at h
    split at h
    · obtain rfl | h := List.mem_cons.1 h
      · intro c hc
        cases hc
      · exact ih h
    case isFalse hd =>
      obtain ⟨first, parts, hparts⟩ :=
        List.exists_cons_of_ne_nil (splitWhere_ne_nil isMark rest)
      rw [hparts] at h ih
      obtain rfl | h := List.mem_cons.1 h
      · exact List.forall_mem_cons.2 ⟨by simpa using hd, ih List.mem_cons_self⟩
      · exact ih (List.mem_cons_of_mem _ h)

end SplitWhere

/-! ## The name of a file -/

theorem segments_ne_nil (path : String) : segments path ≠ [] := by
  simp [segments, splitWhere_ne_nil]

theorem not_slash_of_mem_segments {path name : String} (h : name ∈ segments path) :
    ∀ c ∈ name.toList, (c == '/') = false := by
  obtain ⟨part, hpart, rfl⟩ := List.mem_map.1 h
  rw [String.toList_ofList]
  exact isMark_of_mem_splitWhere hpart

/-- Between texts and in front of the first one, a mark stands before each. -/
theorem append_intercalate (mark first : List Char) (rest : List (List Char)) :
    mark ++ mark.intercalate (first :: rest) = (first :: rest).flatMap (mark ++ ·) := by
  induction rest generalizing first with
  | nil => rw [List.intercalate_singleton, List.flatMap_cons, List.flatMap_nil, List.append_nil]
  | cons second rest ih =>
    rw [List.intercalate_cons_cons, List.append_assoc, ih]
    simp

theorem toList_absolute_of_ne_nil {names : List String} (h : names ≠ []) :
    (absolute names).toList = (names.map String.toList).flatMap ("/".toList ++ ·) := by
  obtain ⟨first, rest, hnames⟩ : ∃ first rest, names.map String.toList = first :: rest :=
    List.exists_cons_of_ne_nil (by simpa using h)
  rw [absolute, String.toList_append, String.toList_intercalate, hnames, append_intercalate]

/-- A text is what stands between its slashes, with them. -/
theorem flatMap_splitWhere (cs : List Char) :
    (splitWhere (· == '/') cs).flatMap ("/".toList ++ ·) = '/' :: cs := by
  induction cs with
  | nil => rfl
  | cons c rest ih =>
    rw [splitWhere]
    split
    case isTrue hc =>
      rw [List.flatMap_cons, ih, eq_of_beq hc]
      rfl
    case isFalse =>
      obtain ⟨part, parts, h⟩ := List.exists_cons_of_ne_nil (splitWhere_ne_nil (· == '/') rest)
      rw [h] at ih ⊢
      simp only [List.flatMap_cons] at ih ⊢
      exact congrArg (fun cs => '/' :: c :: cs) (List.cons.inj ih).2

/-- **Files of a directory have different paths from the top.** -/
theorem absolute_segments_inj {directory : List String} {p q : String}
    (h : absolute (directory ++ segments p) = absolute (directory ++ segments q)) : p = q := by
  have hparts (path : String) : (absolute (directory ++ segments path)).toList =
      (directory.map String.toList).flatMap ("/".toList ++ ·) ++ '/' :: path.toList := by
    have hback : String.toList ∘ String.ofList = id := funext fun _ => String.toList_ofList
    rw [toList_absolute_of_ne_nil (by simp [segments_ne_nil]), List.map_append, List.flatMap_append,
      segments, List.map_map, hback, List.map_id, flatMap_splitWhere]
  have hsame := congrArg String.toList h
  rw [hparts, hparts] at hsame
  exact String.toList_inj.1 (List.cons.inj (List.append_cancel_left hsame)).2

/-- The last of some names stands behind a slash in the path that they make. -/
theorem toList_absolute (names : List String) (name : String) :
    ∃ front, (absolute (names ++ [name])).toList = front ++ '/' :: name.toList := by
  refine ⟨(names.map String.toList).flatMap ("/".toList ++ ·), ?_⟩
  rw [toList_absolute_of_ne_nil (by simp), List.map_append, List.flatMap_append]
  simp

/-- **A path from the top ends with the name of the file.** -/
theorem fileName_absolute (directory : List String) (path : String) :
    fileName (absolute (directory ++ segments path)) = fileName path := by
  obtain ⟨front, name, hname⟩ : ∃ front name, segments path = front ++ [name] := by
    simpa using (List.eq_nil_or_concat _).resolve_left (segments_ne_nil path)
  obtain ⟨before, hbefore⟩ := toList_absolute (directory ++ front) name
  have hslash : ∀ c ∈ name.toList, (c == '/') = false :=
    not_slash_of_mem_segments (show name ∈ segments path by simp [hname])
  rw [fileName, fileName, hname, ← List.append_assoc, segments, hbefore, splitWhere_append rfl,
    splitWhere_of_forall hslash]
  simp

/-- **The extension of a file** is the same on its path from the top. -/
theorem extension_absolute (directory : List String) (path : String) :
    extension (absolute (directory ++ segments path)) = extension path := by
  rw [extension, fileName_absolute, extension]

end Path

theorem ScanTarget.absolute_injective (t : ScanTarget) : t.absolute.Injective :=
  fun _ _ => Path.absolute_segments_inj

theorem ScanTarget.extension_absolute (t : ScanTarget) (path : String) :
    Path.extension (t.absolute path) = Path.extension path :=
  Path.extension_absolute t.root path

end Conventions
