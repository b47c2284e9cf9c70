import Conventions.Syntax.Kind
import Conventions.Syntax.Source

/-!
# Syntax/Node — syntax trees

A node has a kind, its role in its parent, the bytes it spans and its named children. `Node.size`
counts nodes; a child is smaller than its parent, which is what every walk down a tree ends by.
-/

namespace Conventions

/-- **A node of a syntax tree.** -/
structure Node where
  kind : Kind
  field : Option Field
  span : Span
  children : List Node
  deriving Inhabited

namespace Node

mutual

/-- The number of nodes of a tree. -/
def size : Node → Nat
  | ⟨_, _, _, children⟩ => 1 + sizeAll children

/-- The number of nodes of a forest. -/
def sizeAll : List Node → Nat
  | [] => 0
  | n :: rest => n.size + sizeAll rest

end

theorem size_eq (n : Node) : n.size = 1 + sizeAll n.children := by
  cases n
  rw [size]

theorem size_pos (n : Node) : 0 < n.size := by
  rw [size_eq]
  omega

theorem size_le_sizeAll {c : Node} {ns : List Node} (h : c ∈ ns) : c.size ≤ sizeAll ns := by
  induction ns with
  | nil => cases h
  | cons n rest ih =>
    rw [sizeAll]
    rcases List.mem_cons.1 h with rfl | h
    · omega
    · have := ih h
      omega

/-- **A child is smaller than its parent.** -/
theorem size_lt_of_mem {c n : Node} (h : c ∈ n.children) : c.size < n.size := by
  rw [size_eq n]
  have := size_le_sizeAll h
  omega

theorem sizeAll_append (xs ys : List Node) : sizeAll (xs ++ ys) = sizeAll xs + sizeAll ys := by
  induction xs with
  | nil => simp [sizeAll]
  | cons x xs ih => simp only [List.cons_append, sizeAll, ih]; omega

/-! ## Children -/

/-- The first child with a role. -/
def child? (n : Node) (f : Field) : Option Node := n.children.find? fun c => c.field == some f

theorem mem_of_child? {n c : Node} {f : Field} (h : n.child? f = some c) : c ∈ n.children :=
  List.mem_of_find?_eq_some h

theorem size_lt_of_child? {n c : Node} {f : Field} (h : n.child? f = some c) : c.size < n.size :=
  size_lt_of_mem (mem_of_child? h)

/-- The first child. -/
def first? (n : Node) : Option Node := n.children.head?

theorem size_lt_of_first? {n c : Node} (h : n.first? = some c) : c.size < n.size :=
  size_lt_of_mem (List.mem_of_head? h)

/-- Do two nodes have the same kind and the same place? -/
def sameAs (a b : Node) : Bool := a.kind == b.kind && a.span == b.span

/-- The same node in another role. -/
def withField (n : Node) (f : Field) : Node := { n with field := some f }

/-! ## Text -/

/-- The text of a node. -/
def text (s : Source) (n : Node) : String := String.ofList (s.slice n.span)

/-- The line that a node starts on. -/
def line (s : Source) (n : Node) : Nat := s.lineAt n.span.start

/-- The excerpt that shows a node. -/
def excerpt (s : Source) (n : Node) : String := s.excerpt n.span

end Node
end Conventions
