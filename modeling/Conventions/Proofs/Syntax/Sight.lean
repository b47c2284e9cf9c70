import Conventions.Proofs.Syntax.Visits
import Mathlib.Data.List.Flatten
import Mathlib.Data.List.Nodup
import Mathlib.Data.List.Pairwise

/-!
# Proofs/Syntax/Sight — what a walk gets to see of a tree

A node is *reached* from another that it stands in if no node of some kinds is in between, and it is
*shut in* if it stands in a node of these kinds. In a tree whose nodes all differ nothing is both
(`Reached.not_shutsIn`). With opaque nodes in between, a node is *in sight*, or it is *hidden*. Walks keep
to what is in sight (`inSight_walk`), and the walk through a body to what is reached past opaque nodes and
functions (`reached_bodyNodes`).
-/

namespace Conventions
namespace Node

/-! ## The nodes of a tree -/

variable {root n o c p : Node} {f : Field}

theorem nodesAll_eq_flatMap (ns : List Node) : nodesAll ns = ns.flatMap nodes := by
  induction ns with
  | nil => rfl
  | cons n rest ih => rw [nodesAll, List.flatMap_cons, ih]

theorem mem_inner : p ∈ n.inner ↔ ∃ c ∈ n.children, p ∈ c.nodes := by
  rw [inner, nodesAll_eq_flatMap, List.mem_flatMap]

theorem mem_nodes : p ∈ n.nodes ↔ p = n ∨ ∃ c ∈ n.children, p ∈ c.nodes := by
  rw [nodes_eq, List.mem_cons, mem_inner]

/-- **Below a node of a tree** stands only what is below the tree's root. -/
theorem inner_subset_inner {root o : Node} (h : o ∈ root.nodes) : o.inner ⊆ root.inner := by
  obtain rfl | ⟨c, hc, ho⟩ := mem_nodes.1 h
  · exact List.Subset.refl _
  · have := size_lt_of_mem hc
    exact List.Subset.trans (inner_subset_inner ho)
      (List.Subset.trans (inner_subset_nodes c) (nodes_subset_inner hc))
  termination_by root.size

theorem nodes_subset_nodes (h : o ∈ root.nodes) : o.nodes ⊆ root.nodes := by
  rw [nodes_eq o]
  exact List.cons_subset.2 ⟨h, List.Subset.trans (inner_subset_inner h) (inner_subset_nodes root)⟩

theorem mem_nodes_of_mem_children (h : n ∈ root.nodes) (hc : c ∈ n.children) : c ∈ root.nodes :=
  nodes_subset_nodes h (mem_nodes.2 (.inr ⟨c, hc, mem_nodes_self c⟩))

/-- **The nodes of a tree are told apart** by their kinds and places, as `Node.sameAs` does. -/
def ToldApart (root : Node) : Prop := (root.nodes.map fun n => (n.kind, n.span)).Nodup

theorem ToldApart.nodup (h : root.ToldApart) : root.nodes.Nodup := h.of_map

theorem ToldApart.eq (h : root.ToldApart) (ho : o ∈ root.nodes) (hp : p ∈ root.nodes)
    (hk : o.kind = p.kind) (hplace : o.span = p.span) : o = p :=
  List.inj_on_of_nodup_map h ho hp (Prod.ext hk hplace)

/-- Different children of a node share no nodes if the nodes of the tree all differ. -/
theorem eq_of_mem_nodes (hdiffer : root.nodes.Nodup) {d : Node} (hc : c ∈ root.children)
    (hd : d ∈ root.children) (hpc : p ∈ c.nodes) (hpd : p ∈ d.nodes) : c = d := by
  rw [nodes_eq, List.nodup_cons, inner, nodesAll_eq_flatMap, List.nodup_flatMap] at hdiffer
  have : Std.Symm (Function.onFun List.Disjoint nodes) := ⟨fun _ _ h => List.disjoint_symm h⟩
  by_contra hne
  exact hdiffer.2.2.forall hc hd hne hpc hpd

theorem nodup_nodes_of_mem (hdiffer : root.nodes.Nodup) (hc : c ∈ root.children) :
    c.nodes.Nodup := by
  rw [nodes_eq, List.nodup_cons, inner, nodesAll_eq_flatMap, List.nodup_flatMap] at hdiffer
  exact hdiffer.2.1 c hc

/-- If the nodes of a tree all differ, then those of a part of it do. -/
theorem nodup_nodes {root : Node} (hdiffer : root.nodes.Nodup) (h : n ∈ root.nodes) :
    n.nodes.Nodup := by
  obtain rfl | ⟨c, hc, hn⟩ := mem_nodes.1 h
  · exact hdiffer
  · have := size_lt_of_mem hc
    exact nodup_nodes (nodup_nodes_of_mem hdiffer hc) hn
  termination_by root.size

/-- The tree itself stands nowhere below its nodes. -/
theorem notMem_inner (hdiffer : root.nodes.Nodup) (ho : o ∈ root.nodes) : root ∉ o.inner := by
  rw [nodes_eq, List.nodup_cons] at hdiffer
  exact fun hroot => hdiffer.1 (inner_subset_inner ho hroot)

/-! ## Reached past nodes of some kinds -/

section

variable {shut : Kind → Bool}

/-- **A node is reached** from another that it stands in if no node of some kinds is in between, the
other included. -/
inductive Reached (shut : Kind → Bool) (root : Node) : Node → Prop
  | self : Reached shut root root
  | child {n c : Node} (h : Reached shut root n) (hopen : shut n.kind = false)
      (hc : c ∈ n.children) : Reached shut root c

/-- **A tree shuts a node in** that stands in one of its nodes of some kinds. -/
def ShutsIn (shut : Kind → Bool) (root p : Node) : Prop :=
  ∃ o ∈ root.nodes, shut o.kind = true ∧ p ∈ o.inner

/-- What is reached from a tree is the tree itself or reached from one of its children. -/
theorem Reached.cases_head (h : root.Reached shut p) :
    p = root ∨ shut root.kind = false ∧ ∃ c ∈ root.children, c.Reached shut p := by
  induction h with
  | self => exact .inl rfl
  | child _ hopen hc ih =>
    obtain rfl | ⟨hroot, c, hmem, hreached⟩ := ih
    · exact .inr ⟨hopen, _, hc, .self⟩
    · exact .inr ⟨hroot, c, hmem, .child hreached hopen hc⟩

theorem Reached.mem_nodes (h : root.Reached shut p) : p ∈ root.nodes := by
  induction h with
  | self => exact mem_nodes_self root
  | child _ _ hc ih => exact mem_nodes_of_mem_children ih hc

/-- **What is reached is not shut in**, if the nodes of the tree all differ. -/
theorem Reached.not_shutsIn {root p : Node} (h : root.Reached shut p)
    (hdiffer : root.nodes.Nodup) : ¬ root.ShutsIn shut p := by
  rintro ⟨o, ho, hshut, hp⟩
  obtain rfl | ⟨hopen, c, hc, hreached⟩ := h.cases_head
  · exact notMem_inner hdiffer ho hp
  obtain rfl | ⟨d, hd, ho⟩ := Node.mem_nodes.1 ho
  · rw [hopen] at hshut
    cases hshut
  -- both lead into the same child, where the same holds
  have hpd : p ∈ d.nodes := nodes_subset_nodes ho (inner_subset_nodes o hp)
  obtain rfl := eq_of_mem_nodes hdiffer hc hd hreached.mem_nodes hpd
  have := size_lt_of_mem hc
  exact hreached.not_shutsIn (nodup_nodes_of_mem hdiffer hc) ⟨o, ho, hshut, hp⟩
  termination_by root.size

theorem closesBody_eq_false_of_mem_entered (h : c ∈ n.entered) : n.closesBody = false := by
  rw [entered] at h
  split at h
  case isTrue => cases h
  case isFalse hopen => exact eq_false_of_ne_true hopen

/-- **The nodes of a body** are reached from it past functions and opaque nodes, unless it is one of
them itself. -/
theorem reached_bodyNodes (hcloses : ∀ n : Node, shut n.kind = true → n.closesBody = true)
    (hopen : shut n.kind = false) : ∀ c ∈ n.bodyNodes, n.Reached shut c := by
  refine forall_runBody (fun m hm c hc => ?_) fun c hc => .child .self hopen hc
  refine hm.child (eq_false_of_ne_true fun hshut => ?_) (mem_children_of_mem_entered hc)
  cases (hcloses m hshut).symm.trans (closesBody_eq_false_of_mem_entered hc)

/-- The nodes of a body stand in it, whatever it is. -/
theorem bodyNodes_subset_inner (n : Node) : n.bodyNodes ⊆ n.inner :=
  forall_runBody
    (fun _ hm _ hc => mem_inner.2 <| (mem_inner.1 hm).imp fun _ h =>
      ⟨h.1, mem_nodes_of_mem_children h.2 (mem_children_of_mem_entered hc)⟩)
    fun c hc => mem_inner.2 ⟨c, hc, mem_nodes_self c⟩

end

/-! ## In sight -/

/-- **A node is in sight** of another that it stands in if no opaque node is in between, the other
included. -/
inductive InSight (root : Node) : Node → Prop
  | self : InSight root root
  | child {n c : Node} (h : InSight root n) (hopen : n.kind.isOpaque = false)
      (hc : c ∈ n.children) : InSight root c

theorem inSight_iff_reached : root.InSight p ↔ root.Reached Kind.isOpaque p := by
  constructor
  · intro h
    induction h with
    | self => exact .self
    | child _ hopen hc ih => exact .child ih hopen hc
  · intro h
    induction h with
    | self => exact .self
    | child _ hopen hc ih => exact .child ih hopen hc

theorem InSight.trans (h : root.InSight n) (hp : n.InSight p) : root.InSight p := by
  induction hp with
  | self => exact h
  | child _ hopen hc ih => exact .child ih hopen hc

theorem InSight.child? (h : root.InSight n) (hopen : n.kind.isOpaque = false)
    (hc : n.child? f = some c) : root.InSight c :=
  .child h hopen (mem_of_child? hc)

theorem InSight.mem_nodes (h : root.InSight p) : p ∈ root.nodes :=
  (inSight_iff_reached.1 h).mem_nodes

/-- **A walk visits what is in sight.** -/
theorem inSight_walk : ∀ v ∈ root.walk, root.InSight v.node := by
  refine Visit.forall_run (P := fun v => root.InSight v.node) (fun v hv w hw => ?_) fun v hv => ?_
  · rw [Visit.next] at hw
    split at hw
    case isTrue => cases hw
    case isFalse hopen =>
      obtain ⟨c, hc, rfl⟩ := List.mem_map.1 hw
      exact hv.child (eq_false_of_ne_true hopen) hc
  · obtain rfl := List.mem_singleton.1 hv
    exact .self

/-- **The nodes of a body** are in sight of it, unless the body itself is opaque. -/
theorem inSight_bodyNodes (hopen : n.kind.isOpaque = false) : ∀ c ∈ n.bodyNodes, n.InSight c :=
  fun c hc => inSight_iff_reached.2 <| reached_bodyNodes
    (fun _ hopaque => Bool.or_eq_true_iff.2 (.inr hopaque)) hopen c hc

/-! ## Hidden -/

/-- **A tree hides a node** that stands in one of its opaque nodes. -/
def Hides (root p : Node) : Prop := ∃ o ∈ root.nodes, o.kind.isOpaque = true ∧ p ∈ o.inner

theorem Hides.of_mem_nodes (h : n.Hides p) (hn : n ∈ root.nodes) : root.Hides p := by
  obtain ⟨o, ho, hcovered, hp⟩ := h
  exact ⟨o, nodes_subset_nodes hn ho, hcovered, hp⟩

/-- **What is in sight is not hidden**, if the nodes of the tree all differ. -/
theorem InSight.not_hides {root p : Node} (h : root.InSight p) (hdiffer : root.nodes.Nodup) :
    ¬ root.Hides p :=
  (inSight_iff_reached.1 h).not_shutsIn hdiffer

end Node
end Conventions
