import Conventions.Syntax.Node

/-!
# Syntax/Walk — visiting the nodes of a tree

`Node.walk` visits a tree in document order and does not enter opaque nodes; `Node.bodyNodes`
visits what lies below a node and enters neither opaque nodes nor functions. Both keep a list of
the visits still to make; `Node.preorder` and `Node.bodyOrder` are the plain recursive orders that
they follow.
-/

namespace Conventions

/-- **A visit**: a node and the node it was reached from. -/
structure Visit where
  parent : Option Node
  node : Node

namespace Visit

/-- The visits to the children, unless the node is opaque. -/
def next (v : Visit) : List Visit :=
  if v.node.kind.isOpaque then [] else v.node.children.map fun c => ⟨some v.node, c⟩

/-- The number of nodes below a list of visits. -/
def total (vs : List Visit) : Nat := Node.sizeAll (vs.map (·.node))

theorem total_append (xs ys : List Visit) : total (xs ++ ys) = total xs + total ys := by
  simp [total, Node.sizeAll_append]

theorem total_next_lt (v : Visit) : total v.next < v.node.size := by
  unfold next total
  rw [Node.size_eq]
  split
  · simp only [List.map_nil, Node.sizeAll]
    omega
  · simp [Function.comp_def]

/-- Make the visits of a list, and after each one those it leads to. -/
def run : List Visit → List Visit
  | [] => []
  | v :: rest =>
    have : total (v.next ++ rest) < total (v :: rest) := by
      have := v.total_next_lt
      rw [total_append]
      simp only [total, List.map_cons, Node.sizeAll] at *
      omega
    v :: run (v.next ++ rest)
  termination_by vs => total vs

end Visit

namespace Node

/-- **The visits to a tree in document order**; opaque nodes are not entered. -/
def walk (root : Node) : List Visit := Visit.run [⟨none, root⟩]

/-- Is a node not entered on a walk through a body? -/
def closesBody (n : Node) : Bool := n.kind.isFunction || n.kind.isOpaque

/-- The nodes that the walk through a body enters from a node. -/
def entered (n : Node) : List Node := if n.closesBody then [] else n.children

theorem sizeAll_entered_lt (n : Node) : sizeAll n.entered < n.size := by
  rw [entered, size_eq]
  split
  · simp only [sizeAll]
    omega
  · omega

theorem sizeAll_entered_append_lt (n : Node) (rest : List Node) :
    sizeAll (n.entered ++ rest) < sizeAll (n :: rest) := by
  have := n.sizeAll_entered_lt
  rw [sizeAll_append, sizeAll]
  omega

/-- Visit the nodes of a list, and after each one those below it. -/
def runBody : List Node → List Node
  | [] => []
  | n :: rest =>
    have := n.sizeAll_entered_append_lt rest
    n :: runBody (n.entered ++ rest)
  termination_by ns => sizeAll ns
  decreasing_by exact this

/-- **The nodes below a node in document order**; functions and opaque nodes are not entered. -/
def bodyNodes (n : Node) : List Node := runBody n.children

/-! ## Pre-order -/

mutual

/-- The tree in pre-order, opaque nodes being leaves. -/
def preorder (parent : Option Node) : Node → List Visit
  | ⟨kind, field, span, children⟩ =>
    let n : Node := ⟨kind, field, span, children⟩
    ⟨parent, n⟩ :: if kind.isOpaque then [] else preorderAll (some n) children

def preorderAll (parent : Option Node) : List Node → List Visit
  | [] => []
  | n :: rest => preorder parent n ++ preorderAll parent rest

end

mutual

/-- The tree in pre-order, functions and opaque nodes being leaves. -/
def bodyOrder : Node → List Node
  | ⟨kind, field, span, children⟩ =>
    let n : Node := ⟨kind, field, span, children⟩
    n :: if n.closesBody then [] else bodyOrderAll children

def bodyOrderAll : List Node → List Node
  | [] => []
  | n :: rest => bodyOrder n ++ bodyOrderAll rest

end

end Node
end Conventions
