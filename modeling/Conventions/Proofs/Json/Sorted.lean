import Conventions.Proofs.Json.Members
import Conventions.Proofs.Json.RoundTrip

/-!
# Proofs/Json/Sorted — putting keys into order changes no value

The value with the keys of its objects in order is the same value (`same_sorted`): every key stands for
the same as before. So a value that is written on one line with its keys in order is read as the same
value (`Writable.read_compact_sorted`).
-/

namespace Conventions
namespace Json

variable {k : String} {v : Json} {ms : List (String × Json)} {items : List Json} {depth : Nat}

/-- **The same value**: keys of objects stand for the same values, in whatever order. -/
inductive Same : Json → Json → Prop
  | refl (v : Json) : Same v v
  | arr {xs ys : List Json} (h : List.Forall₂ Same xs ys) : Same (.arr xs) (.arr ys)
  | obj {ms ns : List (String × Json)} (hkeys : ∀ k, (lookup k ms).isSome = (lookup k ns).isSome)
      (hvalues : ∀ k v w, lookup k ms = some v → lookup k ns = some w → Same v w) :
      Same (.obj ms) (.obj ns)

/-! ## Keys in order -/

theorem perm_insertSorted (m : String × Json) (ms : List (String × Json)) :
    (insertSorted m ms).Perm (m :: ms) := by
  induction ms with
  | nil => exact .refl _
  | cons n ms ih =>
    rw [insertSorted]
    split
    · exact .refl _
    · exact (ih.cons n).trans (.swap ..)

theorem sortedItems_eq : sortedItems items = items.map sorted := by
  induction items with
  | nil => rfl
  | cons x items ih => rw [sortedItems, ih, List.map_cons]

/-- **The members in order** are the members, each with its keys in order. -/
theorem perm_sortedMembers (ms : List (String × Json)) :
    (sortedMembers ms).Perm (ms.map fun m => (m.1, m.2.sorted)) := by
  induction ms with
  | nil => exact .refl _
  | cons m ms ih =>
    rw [sortedMembers, List.map_cons]
    exact (perm_insertSorted _ _).trans (ih.cons _)

theorem keys_sortedMembers (ms : List (String × Json)) :
    ((sortedMembers ms).map (·.1)).Perm (ms.map (·.1)) := by
  have hkeys := (perm_sortedMembers ms).map (·.1)
  rwa [List.map_map] at hkeys

/-- What holds of the values of members in order. -/
theorem forall_mem_sortedMembers (P : Json → Prop) :
    (∀ m ∈ sortedMembers ms, P m.2) ↔ ∀ m ∈ ms, P m.2.sorted := by
  simp only [(perm_sortedMembers ms).mem_iff, List.forall_mem_map]

/-- **A key stands for what it stood for**, with its keys in order. -/
theorem lookup_sortedMembers (hkeys : (ms.map (·.1)).Nodup) :
    lookup k (sortedMembers ms) = (lookup k ms).map sorted := by
  have hsorted : ((sortedMembers ms).map (·.1)).Nodup := (keys_sortedMembers ms).nodup_iff.2 hkeys
  refine Option.ext fun v => ?_
  rw [lookup_eq_some_iff hsorted, (perm_sortedMembers ms).mem_iff, Option.map_eq_some_iff]
  simp only [lookup_eq_some_iff hkeys, List.mem_map, Prod.mk.injEq]
  constructor
  · rintro ⟨m, hm, rfl, rfl⟩
    exact ⟨m.2, hm, rfl⟩
  · rintro ⟨w, hw, rfl⟩
    exact ⟨(k, w), hw, rfl, rfl⟩

theorem nodup_of_fits (h : fits depth (.obj ms) = true) : (ms.map (·.1)).Nodup := by
  simp only [fits, Bool.and_eq_true, decide_eq_true_eq] at h
  exact h.1.2

/-- **A value with its keys in order is the same value.** -/
theorem same_sorted (h : v.fits depth = true) : Same v.sorted v := by
  induction v using partsInduction generalizing depth with
  | arr items ih =>
    simp only [fits, Bool.and_eq_true, fitsItems_iff] at h
    rw [sorted, sortedItems_eq]
    refine .arr (List.forall₂_map_left_iff.2 (List.forall₂_same.2 fun x hx => ?_))
    exact ih x hx (h.2 x hx)
  | obj ms ih =>
    have hkeys := nodup_of_fits h
    simp only [fits, Bool.and_eq_true, fitsMembers_iff] at h
    rw [sorted]
    refine .obj (fun k => ?_) fun k w v hw hv => ?_
    · rw [lookup_sortedMembers hkeys, Option.isSome_map]
    · rw [lookup_sortedMembers hkeys, hv] at hw
      cases hw
      exact ih (k, v) (mem_of_lookup hv) (h.2 (k, v) (mem_of_lookup hv))
  | _ => exact .refl _

/-! ## Reading what was written in order -/

theorem fits_sorted (h : v.fits depth = true) : v.sorted.fits depth = true := by
  induction v using partsInduction generalizing depth with
  | arr items ih =>
    simp only [fits, Bool.and_eq_true, fitsItems_iff, sorted, sortedItems_eq,
      List.forall_mem_map] at h ⊢
    exact ⟨h.1, fun x hx => ih x hx (h.2 x hx)⟩
  | obj ms ih =>
    have hkeys := (keys_sortedMembers ms).nodup_iff.2 (nodup_of_fits h)
    simp only [fits, Bool.and_eq_true, fitsMembers_iff, sorted, decide_eq_true_eq] at h ⊢
    exact ⟨⟨h.1.1, hkeys⟩,
      (forall_mem_sortedMembers fun v => v.fits (depth - 1)).2 fun m hm => ih m hm (h.2 m hm)⟩
  | _ => exact h

theorem isLong_sorted (h : v.isLong = false) : v.sorted.isLong = false := by
  induction v using partsInduction with
  | arr items ih =>
    simp only [isLong, isLongItems_eq_false_iff, sorted, sortedItems_eq, List.forall_mem_map] at h ⊢
    exact fun x hx => ih x hx (h x hx)
  | obj ms ih =>
    simp only [isLong, isLongMembers_eq_false_iff, sorted] at h ⊢
    exact (forall_mem_sortedMembers fun v => v.isLong = false).2 fun m hm => ih m hm (h m hm)
  | _ => exact h

mutual

/-- The binary64 numbers of a value. -/
def floats : Json → List Binary64
  | .float x => [x]
  | .arr items => floatsOfItems items
  | .obj members => floatsOfMembers members
  | _ => []

def floatsOfItems : List Json → List Binary64
  | [] => []
  | x :: items => floats x ++ floatsOfItems items

def floatsOfMembers : List (String × Json) → List Binary64
  | [] => []
  | m :: members => floats m.2 ++ floatsOfMembers members

end

theorem forall_mem_floatsOfItems {P : Binary64 → Prop} :
    (∀ x ∈ floatsOfItems items, P x) ↔ ∀ v ∈ items, ∀ x ∈ v.floats, P x := by
  induction items with
  | nil => simp [floatsOfItems]
  | cons v items ih => simp only [floatsOfItems, List.forall_mem_append, List.forall_mem_cons, ih]

theorem forall_mem_floatsOfMembers {P : Binary64 → Prop} :
    (∀ x ∈ floatsOfMembers ms, P x) ↔ ∀ m ∈ ms, ∀ x ∈ m.2.floats, P x := by
  induction ms with
  | nil => simp [floatsOfMembers]
  | cons m ms ih => simp only [floatsOfMembers, List.forall_mem_append, List.forall_mem_cons, ih]

/-- **What can be written and read**: a value that is not nested too deep, with no key twice, whose
whole numbers are not too long and whose other numbers are binary64 numbers. -/
structure Writable (v : Json) : Prop where
  fits : v.fits maxDepth = true
  short : v.isLong = false
  exact : ∀ x ∈ v.floats, x.IsExact

theorem reread_sorted (h : ∀ x ∈ v.floats, x.IsExact) : v.sorted.reread = v.sorted := by
  induction v using partsInduction with
  | float x => exact congrArg float (rereadNumber_eq (h x List.mem_cons_self))
  | arr items ih =>
    rw [floats, forall_mem_floatsOfItems] at h
    rw [sorted, sortedItems_eq, reread, rereadItems_eq, List.map_map]
    exact congrArg _ (List.map_congr_left fun x hx => ih x hx (h x hx))
  | obj ms ih =>
    rw [floats, forall_mem_floatsOfMembers] at h
    have hmembers : ∀ m ∈ sortedMembers ms, m.2.reread = m.2 :=
      (forall_mem_sortedMembers fun v => v.reread = v).2 fun m hm => ih m hm (h m hm)
    rw [sorted, reread, rereadMembers_eq]
    refine congrArg obj ((List.map_congr_left fun m hm => ?_).trans (List.map_id _))
    rw [hmembers m hm, id]
  | _ => rfl

/-- **A value that is written with its keys in order is read as the same value.** -/
theorem Writable.read_compact_sorted (h : v.Writable) :
    ∃ w, read v.sorted.compact = .ok w ∧ w.Same v := by
  have hread := read_compact (fits_sorted h.fits) (isLong_sorted h.short)
  rw [reread_sorted h.exact] at hread
  exact ⟨v.sorted, hread, same_sorted h.fits⟩

end Json
end Conventions
