import Conventions.Proofs.Syntax.Reading
import Conventions.Proofs.Syntax.Sight
import Conventions.Proofs.Text.Utf8

/-!
# Proofs/Syntax/Nesting — what is read below a node stands in its text

In the tree that a parser makes, the span of a node lies in that of its parent (`SpansNested`). What
is read below a node is then a part of the text of the node, as long as that text is ASCII
(`Plain`): every segment of its path is (`Plain.spells_of_mem_path?`), and so is the name that a call
calls (`Plain.spells_calleeName`). Without ASCII this fails, for a span may cut a character.
-/

namespace Conventions

/-- Does a span lie in another? -/
def Span.Within (inner outer : Span) : Prop := outer.start ≤ inner.start ∧ inner.stop ≤ outer.stop

instance (inner outer : Span) : Decidable (inner.Within outer) :=
  inferInstanceAs (Decidable (_ ∧ _))

namespace Node

variable {s : Source} {root n c : Node} {w : String}

/-- **The span of every node lies in that of its parent.** -/
def SpansNested (root : Node) : Prop := ∀ n ∈ root.nodes, ∀ c ∈ n.children, c.span.Within n.span

instance (root : Node) : Decidable root.SpansNested :=
  inferInstanceAs (Decidable (∀ n ∈ root.nodes, ∀ c ∈ n.children, c.span.Within n.span))

theorem SpansNested.of_mem_nodes (h : root.SpansNested) (hn : n ∈ root.nodes) : n.SpansNested :=
  fun o ho => h o (nodes_subset_nodes hn ho)

/-- **The span of every node of a tree** lies in that of the tree. -/
theorem SpansNested.within {root n : Node} (h : root.SpansNested) (hn : n ∈ root.nodes) :
    n.span.Within root.span := by
  obtain rfl | ⟨c, hc, hn⟩ := mem_nodes.1 hn
  · exact ⟨Nat.le_refl _, Nat.le_refl _⟩
  · have := size_lt_of_mem hc
    have hchild := h root (mem_nodes_self root) c hc
    have hinner := (h.of_mem_nodes (mem_nodes.2 (.inr ⟨c, hc, mem_nodes_self c⟩))).within hn
    exact ⟨Nat.le_trans hchild.1 hinner.1, Nat.le_trans hinner.2 hchild.2⟩
  termination_by root.size

/-- **Below a node in ASCII**, whose spans are nested, every text is a part of that of the node. -/
structure Plain (s : Source) (n : Node) : Prop where
  nested : n.SpansNested
  ascii : ∀ c ∈ s.slice n.span, c.toNat < 0x80

/-- Does a word stand in the text of a node? -/
def Spells (s : Source) (n : Node) (w : String) : Prop := w.toList <:+: s.slice n.span

/-! ## Children -/

theorem Plain.slice_infix (h : n.Plain s) (hc : c ∈ n.children) :
    s.slice c.span <:+: s.slice n.span :=
  have hwithin := h.nested n (mem_nodes_self n) c hc
  Source.slice_infix h.ascii hwithin.1 hwithin.2

theorem Plain.child (h : n.Plain s) (hc : c ∈ n.children) : c.Plain s where
  nested := h.nested.of_mem_nodes (mem_nodes_of_mem_children (mem_nodes_self n) hc)
  ascii := fun x hx => h.ascii x ((h.slice_infix hc).subset hx)

theorem Plain.spells_of_child (h : n.Plain s) (hc : c ∈ n.children) (hw : c.Spells s w) :
    n.Spells s w :=
  hw.trans (h.slice_infix hc)

/-! ## Readers -/

theorem toList_text (s : Source) (n : Node) : (n.text s).toList = s.slice n.span :=
  String.toList_ofList

theorem spells_text (s : Source) (n : Node) : n.Spells s (n.text s) := by
  unfold Spells
  simp only [toList_text, List.infix_refl]

theorem spells_of_literal? (h : n.literal? s = some w) : n.Spells s w := by
  unfold literal? at h
  split at h
  case isTrue =>
    cases h
    rw [Spells, String.toList_ofList]
    exact (List.dropLast_prefix _).isInfix.trans (List.drop_suffix 1 _).isInfix
  case isFalse => cases h

/-- **Every segment of a path stands in the text.** -/
theorem Plain.spells_of_mem_path? {n : Node} (h : n.Plain s) {path : List String}
    (hpath : n.path? s = some path) (hw : w ∈ path) : n.Spells s w := by
  -- the last segment is read off one child, the others off the object
  have ends {object : Node} {segment : String} {front : List String}
      (ho : n.child? .object = some object) (hfront : object.path? s = some front)
      (hsegment : n.Spells s segment) (heq : front ++ [segment] = path) : n.Spells s w := by
    subst heq
    have := size_lt_of_child? ho
    obtain hw | hw := List.mem_append.1 hw
    · exact h.spells_of_child (mem_of_child? ho)
        ((h.child (mem_of_child? ho)).spells_of_mem_path? hfront hw)
    · rwa [List.mem_singleton.1 hw]
  rw [path?_eq] at hpath
  split at hpath
  case h_1 | h_2 | h_3 =>
    cases hpath
    rw [List.mem_singleton.1 hw]
    exact spells_text s n
  case h_4 =>
    simp only [Option.bind_eq_some_iff, Option.map_eq_some_iff] at hpath
    obtain ⟨property, hp, object, ho, front, hfront, heq⟩ := hpath
    exact ends ho hfront (h.spells_of_child (mem_of_child? hp) (spells_text s property)) heq
  case h_5 =>
    simp only [Option.bind_eq_some_iff, Option.map_eq_some_iff] at hpath
    obtain ⟨segment, ⟨index, hi, hsegment⟩, object, ho, front, hfront, heq⟩ := hpath
    exact ends ho hfront (h.spells_of_child (mem_of_child? hi) (spells_of_literal? hsegment)) heq
  case h_6 =>
    obtain ⟨inner, hi, hpath⟩ := Option.bind_eq_some_iff.1 hpath
    have := size_lt_of_first? hi
    have hmem := List.mem_of_head? hi
    exact h.spells_of_child hmem ((h.child hmem).spells_of_mem_path? hpath hw)
  case h_7 => cases hpath
  termination_by n.size

theorem Plain.spells_calleeName {target : Node} (h : target.Plain s)
    (ht : n.callee? = some target) : target.Spells s (n.calleeName s) := by
  simp only [calleeName, ht]
  split
  case h_1 => exact spells_text s target
  case h_2 =>
    cases hp : target.child? .property with
    | none => exact List.nil_infix
    | some property => exact h.spells_of_child (mem_of_child? hp) (spells_text s property)
  case h_3 => exact List.nil_infix

end Node
end Conventions
