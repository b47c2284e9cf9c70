import Conventions.Json.Basic

/-!
# Json/Parts — what a JSON value is made of

Every part of a value is smaller than the value, which is what recursion over parts ends by.
-/

namespace Conventions
namespace Json

mutual

/-- The number of values in a value, itself included. -/
def size : Json → Nat
  | .arr items => 1 + sizeItems items
  | .obj members => 1 + sizeMembers members
  | _ => 1

def sizeItems : List Json → Nat
  | [] => 0
  | x :: rest => x.size + sizeItems rest

def sizeMembers : List (String × Json) → Nat
  | [] => 0
  | (_, v) :: rest => v.size + sizeMembers rest

end

theorem size_le_sizeItems {x : Json} {items : List Json} (h : x ∈ items) :
    x.size ≤ sizeItems items := by
  induction items with
  | nil => cases h
  | cons y rest ih =>
    rw [sizeItems]
    rcases List.mem_cons.1 h with rfl | h
    · omega
    · have := ih h
      omega

theorem size_lt_of_mem_items {x : Json} {items : List Json} (h : x ∈ items) :
    x.size < (arr items).size := by
  have := size_le_sizeItems h
  rw [size]
  omega

theorem size_le_sizeMembers {m : String × Json} {members : List (String × Json)}
    (h : m ∈ members) : m.2.size ≤ sizeMembers members := by
  induction members with
  | nil => cases h
  | cons n rest ih =>
    rw [sizeMembers]
    rcases List.mem_cons.1 h with rfl | h
    · omega
    · have := ih h
      omega

theorem size_lt_of_mem_members {m : String × Json} {members : List (String × Json)}
    (h : m ∈ members) : m.2.size < (obj members).size := by
  have := size_le_sizeMembers h
  rw [size]
  omega

/-- The items of an array, each smaller than the array. -/
def smallerItems (j : Json) : List { v : Json // v.size < j.size } :=
  match j with
  | .arr items => items.attach.map fun x => ⟨x.1, size_lt_of_mem_items x.2⟩
  | _ => []

/-- The members of an object, each value smaller than the object. -/
def smallerMembers (j : Json) : List (String × { v : Json // v.size < j.size }) :=
  match j with
  | .obj members => members.attach.map fun m => (m.1.1, ⟨m.1.2, size_lt_of_mem_members m.2⟩)
  | _ => []

end Json
end Conventions
