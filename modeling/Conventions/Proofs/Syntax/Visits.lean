import Conventions.Proofs.Syntax.Comments

/-!
# Proofs/Syntax/Visits — walks past comments

A walk through a tree without comments makes the visits of the walk through the tree with them,
those to the comments left out. A comment leads to no further visits, being opaque.
-/

namespace Conventions

variable {allowed : Kind → Bool} {gone : Comments} {s : Source}

namespace Visit

/-- A visit in the tree without some comments. -/
def without (gone : Comments) (v : Visit) : Visit :=
  ⟨v.parent.map (Node.without gone), v.node.without gone⟩

/-- Is it a visit to a node that stays? -/
def stays (gone : Comments) (v : Visit) : Bool := !v.node.isGone gone

theorem next_without (v : Visit) :
    (v.without gone).next = (v.next.filter (stays gone)).map (without gone) := by
  rw [next, next, without, Node.kind_without, Node.children_without]
  split
  · rfl
  · simp [List.filter_map, Function.comp_def, stays, without]

theorem next_of_gone {v : Visit} (h : v.node.isGone gone = true) : v.next = [] := by
  rw [next, (Node.isGone_iff.1 h).1]
  rfl

theorem run_cons (v : Visit) (rest : List Visit) : run (v :: rest) = v :: run (v.next ++ rest) := by
  rw [run]

/-- The visits of two lists are made one list after the other. -/
theorem run_append (vs ws : List Visit) : run (vs ++ ws) = run vs ++ run ws := by
  induction vs using run.induct with
  | case1 => simp [run]
  | case2 v rest _ ih =>
    rw [List.cons_append, run_cons, run_cons, ← List.append_assoc, ih, List.cons_append]

/-- **Visits without comments** are the visits, those to comments left out. -/
theorem run_without (gone : Comments) (vs : List Visit) :
    run ((vs.filter (stays gone)).map (without gone)) =
      ((run vs).filter (stays gone)).map (without gone) := by
  induction vs using run.induct with
  | case1 => simp [run]
  | case2 v rest _ ih =>
    rw [run_cons]
    cases hv : v.node.isGone gone with
    | true =>
      rw [next_of_gone hv] at ih ⊢
      rw [List.filter_cons_of_neg (by simp [stays, hv]), List.filter_cons_of_neg (by simp [stays, hv])]
      exact ih
    | false =>
      rw [List.filter_cons_of_pos (by simp [stays, hv]), List.filter_cons_of_pos (by simp [stays, hv]),
        List.map_cons, List.map_cons, run_cons, next_without, ← List.map_append,
        ← List.filter_append, ih]

/-- **What is true of the first visits**, and of those that such a visit leads to, is true of all. -/
theorem forall_run {P : Visit → Prop} (hnext : ∀ v, P v → ∀ w ∈ v.next, P w) {vs : List Visit}
    (h : ∀ v ∈ vs, P v) : ∀ v ∈ run vs, P v := by
  induction vs using run.induct with
  | case1 => simp [run]
  | case2 v rest _ ih =>
    rw [run_cons]
    obtain ⟨hv, hrest⟩ := List.forall_mem_cons.1 h
    refine List.forall_mem_cons.2 ⟨hv, ih fun w hw => ?_⟩
    obtain hw | hw := List.mem_append.1 hw
    · exact hnext v hv w hw
    · exact hrest w hw

end Visit

namespace Node

theorem runBody_cons (n : Node) (rest : List Node) :
    runBody (n :: rest) = n :: runBody (n.entered ++ rest) := by
  rw [runBody]

theorem entered_without (gone : Comments) (n : Node) :
    (n.without gone).entered = (n.entered.filter fun c => !c.isGone gone).map (without gone) := by
  rw [entered, entered, closesBody, closesBody, kind_without, children_without]
  split <;> rfl

theorem entered_of_isGone {gone : Comments} {n : Node} (h : n.isGone gone = true) :
    n.entered = [] := by
  rw [entered, (isGone_iff.1 h).2.2.1, ite_self]

/-- **The nodes of a body without comments** are its nodes, the comments left out. -/
theorem runBody_without (gone : Comments) (ns : List Node) :
    runBody ((ns.filter fun n => !n.isGone gone).map (without gone)) =
      ((runBody ns).filter fun n => !n.isGone gone).map (without gone) := by
  induction ns using runBody.induct with
  | case1 => simp [runBody]
  | case2 n rest _ ih =>
    rw [runBody_cons]
    cases hn : n.isGone gone with
    | true =>
      rw [entered_of_isGone hn] at ih ⊢
      rw [List.filter_cons_of_neg (by simp [hn]), List.filter_cons_of_neg (by simp [hn])]
      exact ih
    | false =>
      rw [List.filter_cons_of_pos (by simp [hn]), List.filter_cons_of_pos (by simp [hn]),
        List.map_cons, List.map_cons, runBody_cons, entered_without, ← List.map_append,
        ← List.filter_append, ih]

theorem bodyNodes_without (gone : Comments) (n : Node) : (n.without gone).bodyNodes =
    (n.bodyNodes.filter fun c => !c.isGone gone).map (without gone) := by
  rw [bodyNodes, bodyNodes, children_without, runBody_without]

/-- **What is true of some nodes**, and of those that are entered from such a node, is true of all
nodes of a body. -/
theorem forall_runBody {P : Node → Prop} (hentered : ∀ n, P n → ∀ c ∈ n.entered, P c)
    {ns : List Node} (h : ∀ n ∈ ns, P n) : ∀ n ∈ runBody ns, P n := by
  induction ns using runBody.induct with
  | case1 => simp [runBody]
  | case2 n rest _ ih =>
    rw [runBody_cons]
    obtain ⟨hn, hrest⟩ := List.forall_mem_cons.1 h
    refine List.forall_mem_cons.2 ⟨hn, ih fun c hc => ?_⟩
    obtain hc | hc := List.mem_append.1 hc
    · exact hentered n hn c hc
    · exact hrest c hc

theorem mem_children_of_mem_entered {n c : Node} (h : c ∈ n.entered) : c ∈ n.children := by
  rw [entered] at h
  split at h
  · cases h
  · exact h

theorem Commented.bodyNodes {n : Node} (h : n.Commented allowed gone s) :
    ∀ c ∈ n.bodyNodes, c.Commented allowed gone s :=
  forall_runBody (fun _ hn _ hc => hn.child (mem_children_of_mem_entered hc)) fun _ => h.child

/-- **A visit is in order** if comments stand in order where it comes from and where it goes. -/
structure Commented.AtVisit (allowed : Kind → Bool) (gone : Comments) (s : Source) (v : Visit) :
    Prop where
  node : v.node.Commented allowed gone s
  parent : ∀ p, v.parent = some p → p.Commented allowed gone s

theorem Commented.walk {root : Node} (h : root.Commented allowed gone s) :
    ∀ v ∈ root.walk, Commented.AtVisit allowed gone s v := by
  refine Visit.forall_run (fun v hv w hw => ?_) fun v hv => ?_
  · unfold Visit.next at hw
    split at hw
    · cases hw
    · obtain ⟨c, hc, rfl⟩ := List.mem_map.1 hw
      refine ⟨hv.node.child hc, fun p hp => ?_⟩
      cases hp
      exact hv.node
  · obtain rfl := List.mem_singleton.1 hv
    exact ⟨h, fun p hp => nomatch hp⟩

end Node
end Conventions
