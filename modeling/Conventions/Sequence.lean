/-!
# Sequence — the front of a list, and texts in order

Texts are ordered by their characters.
-/

namespace Conventions
namespace Sequence

/-- The first items of a list; a negative number counts from its end. -/
def firstItems {α : Type} (cap : Int) (xs : List α) : List α :=
  if 0 ≤ cap then xs.take cap.toNat else xs.take (xs.length - cap.natAbs)

end Sequence

namespace Text

/-- The texts in order. -/
def sorted (xs : List String) : List String := xs.mergeSort fun a b => (compare a b).isLE

/-- **The distinct texts of a list**, in order. -/
def distinct (xs : List String) : List String := (sorted xs).eraseDups

/-- The values that belong to texts, in the order of the texts. -/
def sortedBy {α : Type} (key : α → String) (xs : List α) : List α :=
  xs.mergeSort fun a b => (compare (key a) (key b)).isLE

end Text
end Conventions
