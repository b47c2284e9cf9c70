import Conventions.Proofs.Sequence
import Conventions.Proofs.Syntax.Sight
import Mathlib.Data.List.Forall2
import Mathlib.Data.Nat.Basic

/-!
# Proofs/Syntax/Order — walks go through a tree in pre-order

A traversal in which some kinds of nodes are leaves gives a node and then, one after the other, what it
gives for the children (`IsPreorder`). Two things are shown of every such traversal.

* A loop that keeps a stack, takes a node off its top and pushes the children in reverse yields it
  (`unstacks_flatMap`); the invariant is that a stack still yields the traversals of its nodes from the
  top down.
* It lists the places of the tree that are reached past those kinds, each place once and in document
  order (`IsPreorder.inDocumentOrder`).

The walk through a tree and the walk through a body are such traversals (`walks_in_preorder`).
-/

namespace Conventions

/-! ## A loop over a stack -/

/-- **A loop over a stack whose top is its end**: the top is taken off and yielded, and what it leads to
is pushed in reverse. -/
inductive Unstacks {α : Type} (next : α → List α) : List α → List α → Prop
  | done : Unstacks next [] []
  | turn {stack out : List α} {x : α} (h : Unstacks next (stack ++ (next x).reverse) out) :
      Unstacks next (stack ++ [x]) (x :: out)

section Unstacks

variable {α : Type} {next : α → List α} {stack out out' : List α} {x : α}

theorem unstacks_concat_iff : Unstacks next (stack ++ [x]) out ↔
    ∃ rest, out = x :: rest ∧ Unstacks next (stack ++ (next x).reverse) rest := by
  constructor
  · intro h
    generalize hs : stack ++ [x] = s at h
    cases h with
    | done => simp at hs
    | turn h =>
      obtain ⟨rfl, heq⟩ := List.append_inj' hs rfl
      obtain rfl := List.singleton_inj.1 heq
      exact ⟨_, rfl, h⟩
  · rintro ⟨rest, rfl, h⟩
    exact .turn h

/-- **What a stack yields** is determined by it. -/
theorem Unstacks.unique (h : Unstacks next stack out) (h' : Unstacks next stack out') : out = out' := by
  induction h generalizing out' with
  | done =>
    generalize hs : ([] : List α) = s at h'
    cases h' with
    | done => rfl
    | turn => simp at hs
  | turn _ ih =>
    obtain ⟨rest, rfl, hrest⟩ := unstacks_concat_iff.1 h'
    rw [ih hrest]

end Unstacks

namespace Node

variable {shut : Kind → Bool} {n c m : Node} {ns stack out : List Node} {i : ℕ} {place : List ℕ}
  {places : List (List ℕ)} {f : Node → List Node}

/-! ## Traversals -/

/-- The children that are entered if some kinds of nodes are not. -/
def opened (shut : Kind → Bool) (n : Node) : List Node := if shut n.kind then [] else n.children

/-- **A traversal in pre-order** in which nodes of some kinds are leaves. -/
def IsPreorder (shut : Kind → Bool) (f : Node → List Node) : Prop :=
  ∀ n, f n = n :: (n.opened shut).flatMap f

theorem sizeAll_opened_lt (shut : Kind → Bool) (n : Node) : sizeAll (n.opened shut) < n.size := by
  rw [opened, size_eq]
  split
  · rw [sizeAll]
    omega
  · omega

theorem mem_opened_iff : c ∈ n.opened shut ↔ shut n.kind = false ∧ c ∈ n.children := by
  rw [opened]
  split
  case isTrue hshut => simp [hshut]
  case isFalse hopen => simp [hopen]

/-- **A loop over a stack** yields the traversals of its nodes from the top down. -/
theorem unstacks_flatMap (h : IsPreorder shut f) (stack : List Node) :
    Unstacks (opened shut) stack.reverse (stack.flatMap f) := by
  match stack with
  | [] => exact .done
  | n :: rest =>
    have : sizeAll (n.opened shut ++ rest) < sizeAll (n :: rest) := by
      have := sizeAll_opened_lt shut n
      rw [sizeAll_append, sizeAll]
      omega
    have ih := unstacks_flatMap h (n.opened shut ++ rest)
    rw [List.reverse_append, List.flatMap_append] at ih
    rw [List.reverse_cons, List.flatMap_cons, h n, List.cons_append]
    exact .turn ih
  termination_by sizeAll stack

/-- **What a loop yields** is what the traversal gives. -/
theorem unstacks_iff (h : IsPreorder shut f) :
    Unstacks (opened shut) stack.reverse out ↔ out = stack.flatMap f := by
  constructor
  · intro hout
    exact hout.unique (unstacks_flatMap h stack)
  · rintro rfl
    exact unstacks_flatMap h stack

/-! ## Places -/

/-- **A node stands at a place of a tree**, the place being the numbers of the children on the way to
it, and no node of some kinds is passed on this way. -/
inductive StandsAt (shut : Kind → Bool) : Node → List ℕ → Node → Prop
  | here {n : Node} : StandsAt shut n [] n
  | child {n c m : Node} {i : ℕ} {place : List ℕ} (hc : (n.opened shut)[i]? = some c)
      (h : StandsAt shut c place m) : StandsAt shut n (i :: place) m

theorem Reached.trans (h : n.Reached shut c) (hm : c.Reached shut m) : n.Reached shut m := by
  induction hm with
  | self => exact h
  | child _ hopen hc ih => exact .child ih hopen hc

/-- One node stands at a place. -/
theorem StandsAt.unique {m' : Node} (h : n.StandsAt shut place m) (h' : n.StandsAt shut place m') :
    m = m' := by
  induction h with
  | here =>
    cases h'
    rfl
  | child hc _ ih =>
    cases h' with
    | child hc' h' =>
      obtain rfl := Option.some.inj (hc.symm.trans hc')
      exact ih h'

/-- What stands at some place is what is reached. -/
theorem exists_standsAt_iff {n m : Node} : (∃ place, n.StandsAt shut place m) ↔ n.Reached shut m := by
  constructor
  · rintro ⟨place, h⟩
    induction h with
    | here => exact .self
    | child hc _ ih =>
      obtain ⟨hopen, hmem⟩ := mem_opened_iff.1 (List.mem_of_getElem? hc)
      exact (Reached.child .self hopen hmem).trans ih
  · intro h
    obtain rfl | ⟨hopen, c, hc, hm⟩ := h.cases_head
    · exact ⟨[], .here⟩
    · have := size_lt_of_mem hc
      obtain ⟨place, hplace⟩ := exists_standsAt_iff.2 hm
      obtain ⟨i, hi⟩ := List.getElem?_of_mem (mem_opened_iff.2 ⟨hopen, hc⟩)
      exact ⟨i :: place, .child hi hplace⟩
  termination_by n.size

/-- **A list of what is reached from a node**: it has what stands at each place, once and in document
order. -/
def InDocumentOrder (shut : Kind → Bool) (n : Node) (ns : List Node) : Prop :=
  ∃ places : List (List ℕ), places.Pairwise (· < ·) ∧
    (∀ place m, n.StandsAt shut place m → place ∈ places) ∧
    List.Forall₂ (n.StandsAt shut) places ns

/-- **Nothing else is listed, and nothing is missing.** -/
theorem InDocumentOrder.mem_iff (h : n.InDocumentOrder shut ns) : m ∈ ns ↔ n.Reached shut m := by
  obtain ⟨places, -, hall, hstand⟩ := h
  rw [← exists_standsAt_iff]
  constructor
  · intro hm
    obtain ⟨place, -, hplace⟩ := Sequence.exists_of_mem_left hstand.flip hm
    exact ⟨place, hplace⟩
  · rintro ⟨place, hplace⟩
    obtain ⟨m', hm', hstands⟩ := Sequence.exists_of_mem_left hstand (hall place m hplace)
    rwa [hplace.unique hstands]

/-- The places below some children, which are numbered from `k`. -/
theorem exists_places_below {cs : List Node} (h : ∀ c ∈ cs, c.InDocumentOrder shut (f c)) (k : ℕ) :
    ∃ places : List (List ℕ), places.Pairwise (· < ·) ∧
      (∀ i place c m, cs[i]? = some c → c.StandsAt shut place m → (k + i) :: place ∈ places) ∧
      List.Forall₂ (fun place m => ∃ i rest c, place = (k + i) :: rest ∧ cs[i]? = some c ∧
        c.StandsAt shut rest m) places (cs.flatMap f) := by
  induction cs generalizing k with
  | nil => exact ⟨[], .nil, by simp, .nil⟩
  | cons c cs ih =>
    obtain ⟨hc, hcs⟩ := List.forall_mem_cons.1 h
    obtain ⟨first, hfirst, hall, hstand⟩ := hc
    obtain ⟨later, hlater, hlaterAll, hlaterStand⟩ := ih hcs (k + 1)
    refine ⟨first.map (k :: ·) ++ later, ?_, ?_, ?_⟩
    · refine List.pairwise_append.2 ⟨?_, hlater, ?_⟩
      · refine hfirst.map _ fun a b hab => ?_
        exact List.cons_lt_cons_iff.2 (.inr ⟨rfl, hab⟩)
      · -- a place below a later child begins with a greater number
        intro a ha b hb
        obtain ⟨a, -, rfl⟩ := List.mem_map.1 ha
        obtain ⟨m, -, i, rest, d, rfl, -⟩ := Sequence.exists_of_mem_left hlaterStand hb
        exact List.cons_lt_cons_iff.2 (.inl (by omega))
    · intro i place d m hd hm
      cases i with
      | zero =>
        obtain rfl : c = d := by simpa using hd
        exact List.mem_append_left _ (List.mem_map_of_mem (hall place m hm))
      | succ i =>
        have hmem := hlaterAll i place d m (by simpa using hd) hm
        rw [show k + (i + 1) = k + 1 + i by omega]
        exact List.mem_append_right _ hmem
    · rw [List.flatMap_cons]
      refine List.rel_append ?_ ?_
      · refine List.forall₂_map_left_iff.2 (hstand.imp fun rest m hm => ?_)
        exact ⟨0, rest, c, rfl, rfl, hm⟩
      · refine hlaterStand.imp fun place m => ?_
        rintro ⟨i, rest, d, rfl, hd, hm⟩
        exact ⟨i + 1, rest, d, by rw [Nat.add_right_comm, Nat.add_assoc], by simpa using hd, hm⟩

/-- **A traversal lists what is reached**, each place once and in document order. -/
theorem IsPreorder.inDocumentOrder (h : IsPreorder shut f) (n : Node) :
    n.InDocumentOrder shut (f n) := by
  have below : ∀ c ∈ n.opened shut, c.InDocumentOrder shut (f c) := by
    intro c hc
    have := size_lt_of_mem (mem_opened_iff.1 hc).2
    exact h.inDocumentOrder c
  obtain ⟨places, hpairwise, hall, hstand⟩ := exists_places_below below 0
  rw [h n]
  refine ⟨[] :: places, List.pairwise_cons.2 ⟨?_, hpairwise⟩, ?_, .cons .here ?_⟩
  · intro place hplace
    obtain ⟨m, -, i, rest, c, rfl, -⟩ := Sequence.exists_of_mem_left hstand hplace
    exact List.nil_lt_cons _ _
  · intro place m hm
    cases hm with
    | here => exact List.mem_cons_self
    | child hc hm =>
      have hmem := hall _ _ _ m hc hm
      rw [Nat.zero_add] at hmem
      exact List.mem_cons_of_mem _ hmem
  · refine hstand.imp fun place m => ?_
    rintro ⟨i, rest, c, rfl, hc, hm⟩
    rw [Nat.zero_add]
    exact .child hc hm
  termination_by n.size

/-! ## The walk through a tree -/

theorem preorderAll_eq_flatMap (parent : Option Node) (ns : List Node) :
    preorderAll parent ns = ns.flatMap (preorder parent) := by
  induction ns with
  | nil => rfl
  | cons n rest ih => rw [preorderAll, List.flatMap_cons, ih]

theorem preorder_eq (v : Visit) :
    v.node.preorder v.parent = v :: v.next.flatMap fun w => w.node.preorder w.parent := by
  obtain ⟨parent, n⟩ := v
  obtain ⟨kind, field, span, children⟩ := n
  rw [preorder, preorderAll_eq_flatMap, Visit.next]
  split
  · rfl
  · rw [List.flatMap_map]

/-- **The visits of a stack** are the traversals of its nodes from the top down. -/
theorem run_eq_flatMap (vs : List Visit) :
    Visit.run vs = vs.flatMap fun v => v.node.preorder v.parent := by
  induction vs using Visit.run.induct with
  | case1 => rw [Visit.run, List.flatMap_nil]
  | case2 v rest _ ih =>
    rw [Visit.run_cons, ih, List.flatMap_append, List.flatMap_cons, preorder_eq v, List.cons_append]

theorem walk_eq_preorder (n : Node) : n.walk = n.preorder none := by
  rw [walk, run_eq_flatMap, List.flatMap_singleton]

/-- From wherever a node is reached, the same nodes follow. -/
theorem map_node_preorder (parent : Option Node) (n : Node) :
    (n.preorder parent).map (·.node) = (n.preorder none).map (·.node) := by
  obtain ⟨kind, field, span, children⟩ := n
  simp only [preorder, List.map_cons]

/-- **The walk through a tree is a traversal** in which opaque nodes are leaves. -/
theorem isPreorder_walk : IsPreorder Kind.isOpaque fun n => n.walk.map (·.node) := by
  intro n
  simp only [walk_eq_preorder]
  rw [preorder_eq ⟨none, n⟩, List.map_cons, List.map_flatMap, Visit.next, opened]
  split
  · rfl
  · rw [List.flatMap_map]
    simp only [map_node_preorder]

/-! ## The walk through a body -/

/-- The kinds of nodes that a walk through a body does not enter. -/
def closing (k : Kind) : Bool := k.isFunction || k.isOpaque

theorem bodyOrderAll_eq_flatMap (ns : List Node) : bodyOrderAll ns = ns.flatMap bodyOrder := by
  induction ns with
  | nil => rfl
  | cons n rest ih => rw [bodyOrderAll, List.flatMap_cons, ih]

theorem isPreorder_bodyOrder : IsPreorder closing bodyOrder := by
  rintro ⟨kind, field, span, children⟩
  rw [bodyOrder, bodyOrderAll_eq_flatMap, opened, closing, closesBody]
  split <;> rfl

/-- **The nodes of a stack** are the traversals of its nodes from the top down. -/
theorem runBody_eq_flatMap (ns : List Node) : runBody ns = ns.flatMap bodyOrder := by
  induction ns using runBody.induct with
  | case1 => rw [runBody, List.flatMap_nil]
  | case2 n rest _ ih =>
    rw [runBody_cons, ih, List.flatMap_append, List.flatMap_cons, isPreorder_bodyOrder n,
      List.cons_append]
    rfl

theorem bodyNodes_eq_flatMap (n : Node) : n.bodyNodes = n.children.flatMap bodyOrder :=
  runBody_eq_flatMap n.children

/-! ## Both walks -/

/-- **A walk visits all that is in sight**, and nothing else. -/
theorem mem_walk_iff : m ∈ n.walk.map (·.node) ↔ n.InSight m :=
  (isPreorder_walk.inDocumentOrder n).mem_iff.trans inSight_iff_reached.symm

/-- **A walk through a body visits all** that is reached from one of its children past functions and
opaque nodes. -/
theorem mem_bodyNodes_iff : m ∈ n.bodyNodes ↔ ∃ c ∈ n.children, c.Reached closing m := by
  rw [bodyNodes_eq_flatMap, List.mem_flatMap]
  simp only [(isPreorder_bodyOrder.inDocumentOrder _).mem_iff]

/-- **Walks follow the tree.** The walk from a node is the traversal of its tree in which opaque nodes
are leaves; the walk through its body is that of its children, one after the other, in which functions
are leaves as well. Loops over a stack yield just these, and each place that is reached is visited once,
in document order. -/
theorem walks_in_preorder (n : Node) :
    n.walk = n.preorder none ∧
    (∀ out, Unstacks (opened Kind.isOpaque) [n] out ↔ out = n.walk.map (·.node)) ∧
    n.InDocumentOrder Kind.isOpaque (n.walk.map (·.node)) ∧
    n.bodyNodes = n.children.flatMap bodyOrder ∧
    (∀ out, Unstacks (opened closing) n.children.reverse out ↔ out = n.bodyNodes) ∧
    ∀ c : Node, c.InDocumentOrder closing c.bodyOrder := by
  refine ⟨walk_eq_preorder n, fun out => ?_, isPreorder_walk.inDocumentOrder n,
    bodyNodes_eq_flatMap n, fun out => ?_, isPreorder_bodyOrder.inDocumentOrder⟩
  · have h : Unstacks (opened Kind.isOpaque) [n].reverse out ↔
        out = [n].flatMap fun m => m.walk.map (·.node) := unstacks_iff isPreorder_walk
    rwa [List.reverse_singleton, List.flatMap_singleton] at h
  · rw [bodyNodes_eq_flatMap]
    exact unstacks_iff isPreorder_bodyOrder

end Node
end Conventions
