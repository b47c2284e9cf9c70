import Conventions.Proofs.Catalogue.Sight
import Conventions.Proofs.Syntax.Nesting
import Mathlib.Data.Prod.Lex

/-!
# Proofs/Catalogue/Statements — a file's evidence is the sum of its statements

The statements of a program are judged each by itself. A rule looks at the visited node and below it; of
the parent it asks only whether it assigns to the node (`Catalogue.isLocal_of_mem_shapes`), which a program
does not, so a statement has the same hits in any program. What proves a hit stands in the statement, and
statements that stand apart share no place, so no hit of one is taken for a repetition of a hit of another
(`Hit.firsts_append`). Sorting what is kept of all of them is then merging what is kept of some and of the
others (`Node.evidence_append`).
-/

namespace Conventions

/-! ## What rules ask of the parent -/

/-- A rule asks of the parent of a node only whether it assigns to the node. -/
def Proof?.IsLocal (rule : Proof?) : Prop :=
  ∀ s p p' n, Shape.isAssignmentTarget ⟨p, n⟩ = Shape.isAssignmentTarget ⟨p', n⟩ →
    rule s ⟨p, n⟩ = rule s ⟨p', n⟩

namespace Shape

theorem reads_isLocal (segments : List Segment) : (reads segments).IsLocal := by
  intro s p p' n h
  simp only [reads, citing, h]

theorem readsUser_isLocal (label : String) : (readsUser label).IsLocal := by
  intro s p p' n h
  simp only [readsUser, citing, h]

end Shape

namespace Catalogue

open Shape

variable {s : Source} {v : Visit} {p : Node} {shape : Shape}

/-- **Every rule of the catalogue is local**: the parent is asked for only where a member is read. -/
theorem isLocal_of_mem_shapes (h : shape ∈ shapes) : shape.proof?.IsLocal :=
  forall_shapes (P := fun rule _ => rule.IsLocal) reads_isLocal (fun _ _ _ _ _ _ => rfl)
    (fun _ _ _ _ _ => rfl) (fun _ _ _ _ _ => rfl) (fun _ _ _ _ _ => rfl) (fun _ _ _ _ _ => rfl)
    (fun _ _ _ _ _ _ _ => rfl) (fun _ _ _ _ _ => rfl) (fun _ _ _ _ _ => rfl)
    (fun _ _ _ _ _ _ => rfl) readsUser_isLocal (fun _ _ _ _ _ _ _ => rfl) (fun _ _ _ _ _ _ => rfl)
    (fun _ _ _ _ _ => rfl) (fun _ _ _ _ _ => rfl) (fun _ _ _ _ _ _ => rfl)
    (fun _ _ _ _ _ => rfl) (fun _ _ _ _ _ => rfl) (fun _ _ _ _ _ => rfl) (fun _ _ _ _ _ => rfl)
    (fun _ _ _ _ _ => rfl) (fun _ _ _ _ _ _ => rfl) (fun _ _ _ _ _ _ => rfl) shape h

/-- **What a rule cites stands in the visited node.** -/
theorem mem_nodes_of_mem_shapes (h : shape ∈ shapes) (hp : shape.proof? s v = some p) :
    p ∈ v.node.nodes := by
  revert s v p
  refine forall_rules (P := fun rule => ∀ {s v p}, rule s v = some p → p ∈ v.node.nodes) ?_ ?_ ?_
    shape h
  · rintro holds s v p hp
    obtain ⟨-, rfl⟩ := of_citing hp
    exact Node.mem_nodes_self v.node
  · rintro label s v p hp
    obtain ⟨-, rfl, -⟩ | ⟨-, body, hbody, hmem, -⟩ := of_propagates hp
    · exact Node.mem_nodes_self v.node
    · exact mem_nodes_of_mem_handlerNodes hbody hmem
  · rintro label s v p hp
    obtain ⟨body, hbody, hmem, -⟩ := of_logsWith hp
    exact mem_nodes_of_mem_handlerNodes hbody hmem

/-- No shape is for a kind of nodes without a name of its own. -/
theorem shapesFor_other (name : String) : shapesFor (.other name) = [] := by
  rw [shapesFor_eq_filter]
  refine List.filter_eq_nil_iff.2 fun shape h => ?_
  have hkinds : Kind.other name ∉ shape.kinds :=
    forall_shapes (P := fun _ kinds => Kind.other name ∉ kinds) (by simp [memberKinds])
      (by simp [callKinds]) (by simp [callKinds]) (by simp [callKinds]) (by simp [callKinds])
      (by simp [callKinds]) (by simp [callKinds]) (by simp [callKinds]) (by simp [memberKinds])
      (by simp) (by simp) (by simp [callKinds]) (by simp) (by simp [callOrDecorator])
      (by simp [callKinds]) (by simp [callKinds]) (by simp [Kind.functions])
      (by simp [callOrDecorator]) (by simp) (by simp [callKinds]) (by simp)
      (by simp [handlerKinds, Kind.functions]) (by simp [handlerKinds, Kind.functions]) shape h
  simpa using hkinds

end Catalogue

/-! ## The hits below a program -/

namespace Node

variable {s : Source} {root : Node} {front back ns : List Node}

/-- The hits at some nodes and below them, as children of a node. -/
def hitsAmong (s : Source) (parent : Node) (ns : List Node) : List Hit :=
  (Visit.run (ns.map fun n => ⟨some parent, n⟩)).flatMap fun v =>
    hitsOf s (Catalogue.shapesFor v.node.kind) v

theorem hitsAmong_append (s : Source) (parent : Node) (front back : List Node) :
    hitsAmong s parent (front ++ back) = hitsAmong s parent front ++ hitsAmong s parent back := by
  rw [hitsAmong, List.map_append, Visit.run_append, List.flatMap_append]
  rfl

/-- The same node with other children. -/
def withChildren (n : Node) (children : List Node) : Node := { n with children := children }

/-- **A program is no construct itself**: its hits are those of its statements. -/
theorem hits_of_program (h : root.kind = .other "program") :
    root.hits s = hitsAmong s root root.children := by
  have hnone : hitsOf s (Catalogue.shapesFor root.kind) ⟨none, root⟩ = [] := by
    rw [h, Catalogue.shapesFor_other, hitsOf, List.filterMap_nil]
  have hnext : (⟨none, root⟩ : Visit).next = root.children.map fun n => ⟨some root, n⟩ := by
    rw [Visit.next, h]
    rfl
  rw [hits, walk, Visit.run_cons, List.flatMap_cons, hnone, hnext, List.append_nil, List.nil_append,
    hitsAmong]

/-- **A statement has the same hits in any program.** -/
theorem hitsAmong_congr {root' : Node} (h : root.kind = .other "program")
    (h' : root'.kind = .other "program") (ns : List Node) :
    hitsAmong s root ns = hitsAmong s root' ns := by
  have htarget {parent : Node} (hp : parent.kind = .other "program") (n : Node) :
      Shape.isAssignmentTarget ⟨some parent, n⟩ = false := by
    simp only [Shape.isAssignmentTarget, hp]
    rfl
  induction ns with
  | nil => rfl
  | cons n ns ih =>
    have hhead : hitsOf s (Catalogue.shapesFor n.kind) ⟨some root, n⟩ =
        hitsOf s (Catalogue.shapesFor n.kind) ⟨some root', n⟩ := by
      refine List.filterMap_congr fun shape hshape => ?_
      rw [Catalogue.shapesFor_eq_filter] at hshape
      rw [Catalogue.isLocal_of_mem_shapes (List.mem_of_mem_filter hshape) s (some root) (some root') n
        ((htarget h n).trans (htarget h' n).symm)]
    -- below the statement the visits are the same
    have hfirst : hitsAmong s root [n] = hitsAmong s root' [n] := by
      rw [hitsAmong, hitsAmong, List.map_singleton, List.map_singleton, Visit.run_cons,
        Visit.run_cons, List.flatMap_cons, List.flatMap_cons, hhead]
      rfl
    rw [← List.singleton_append, hitsAmong_append, hitsAmong_append, hfirst, ih]

theorem hits_withChildren (h : root.kind = .other "program") (ns : List Node) :
    (root.withChildren ns).hits s = hitsAmong s root ns := by
  have h' : (root.withChildren ns).kind = .other "program" := h
  rw [hits_of_program h', hitsAmong_congr h' h]
  rfl

/-- What proves a hit among some nodes stands in one of them. -/
theorem exists_mem_nodes_of_mem_hitsAmong {parent : Node} {h : Hit} (hh : h ∈ hitsAmong s parent ns) :
    ∃ n ∈ ns, h.proof ∈ n.nodes := by
  have hvisits : ∀ v ∈ Visit.run (ns.map fun n => ⟨some parent, n⟩), ∃ n ∈ ns, v.node ∈ n.nodes := by
    refine Visit.forall_run (P := fun v => ∃ n ∈ ns, v.node ∈ n.nodes) (fun v hv w hw => ?_) ?_
    · rw [Visit.next] at hw
      split at hw
      · cases hw
      · obtain ⟨c, hc, rfl⟩ := List.mem_map.1 hw
        exact hv.imp fun n hn => ⟨hn.1, mem_nodes_of_mem_children hn.2 hc⟩
    · rintro v hv
      obtain ⟨n, hn, rfl⟩ := List.mem_map.1 hv
      exact ⟨n, hn, mem_nodes_self n⟩
  obtain ⟨v, hv, hh⟩ := List.mem_flatMap.1 hh
  obtain ⟨shape, hshape, hproof⟩ := List.mem_filterMap.1 hh
  obtain ⟨p, hp, rfl⟩ := Option.map_eq_some_iff.1 hproof
  rw [Catalogue.shapesFor_eq_filter] at hshape
  obtain ⟨n, hn, hv⟩ := hvisits v hv
  exact ⟨n, hn, nodes_subset_nodes hv <|
    Catalogue.mem_nodes_of_mem_shapes (List.mem_of_mem_filter hshape) hp⟩

end Node

namespace Hit

variable {hs hs' : List Hit}

/-- What has been seen does not matter to hits of other keys. -/
theorem firsts_congr {seen seen' : List (Category × String × String × Span)}
    (h : ∀ a ∈ hs, seen.contains a.key = seen'.contains a.key) : firsts seen hs = firsts seen' hs := by
  rw [firsts_eq_eraseDupsBy_filter, firsts_eq_eraseDupsBy_filter, List.filter_congr fun a ha => ?_]
  rw [h a ha]

/-- **Hits that share no key** are kept or dropped each list by itself. -/
theorem firsts_append (seen : List (Category × String × String × Span))
    (h : ∀ a ∈ hs, ∀ b ∈ hs', a.key ≠ b.key) :
    firsts seen (hs ++ hs') = firsts seen hs ++ firsts seen hs' := by
  induction hs generalizing seen with
  | nil => rfl
  | cons a hs ih =>
    obtain ⟨ha, hrest⟩ := List.forall_mem_cons.1 h
    rw [List.cons_append, firsts, firsts]
    split
    case isTrue => exact ih seen hrest
    case isFalse =>
      have hseen : firsts (a.key :: seen) hs' = firsts seen hs' := by
        refine firsts_congr fun b hb => ?_
        simp [(ha b hb).symm]
      rw [ih _ hrest, hseen, List.cons_append]

end Hit

/-! ## Statements that stand apart -/

/-- Does one of two spans end before the other begins? -/
def Span.Apart (a b : Span) : Prop := a.stop ≤ b.start ∨ b.stop ≤ a.start

instance (a b : Span) : Decidable (a.Apart b) := inferInstanceAs (Decidable (_ ∨ _))

namespace Evidence

/-- What the evidence of a file is listed by: line, category, facet, label and shape. -/
def listingKey (e : Evidence) : Int ×ₗ String ×ₗ String ×ₗ String ×ₗ String :=
  toLex (e.line, toLex (e.category, toLex (e.facet, toLex (e.label, e.shape))))

theorem listing_eq_compare (a b : Evidence) :
    listing a b = compare a.listingKey b.listingKey := rfl

end Evidence

namespace Node

variable {root : Node} {front back : List Node}

/-- **The nodes of a tree are laid out in its text**: below the root none is empty, each stands in its
parent, and children of one node stand apart. -/
structure LaidOut (root : Node) : Prop where
  filled : ∀ n ∈ root.inner, n.span.start < n.span.stop
  nested : root.SpansNested
  apart : ∀ n ∈ root.nodes, n.children.Pairwise fun c d => c.span.Apart d.span

/-- In a tree that is laid out, different statements share no place. -/
theorem LaidOut.span_ne (h : root.LaidOut) (hsplit : root.children = front ++ back) {c d p q : Node}
    (hc : c ∈ front) (hd : d ∈ back) (hp : p ∈ c.nodes) (hq : q ∈ d.nodes) : p.span ≠ q.span := by
  have hchild : c ∈ root.children := hsplit ▸ List.mem_append_left _ hc
  have hchild' : d ∈ root.children := hsplit ▸ List.mem_append_right _ hd
  have hwithin (n : Node) (hn : n ∈ root.children) : n.SpansNested :=
    h.nested.of_mem_nodes (mem_nodes_of_mem_children (mem_nodes_self root) hn)
  have happart : c.span.Apart d.span := by
    have hpairwise := h.apart root (mem_nodes_self root)
    rw [hsplit, List.pairwise_append] at hpairwise
    exact hpairwise.2.2 c hc d hd
  have hfilled := h.filled p (nodes_subset_inner hchild hp)
  obtain ⟨hstart, hstop⟩ := (hwithin c hchild).within hp
  obtain ⟨hstart', hstop'⟩ := (hwithin d hchild').within hq
  intro heq
  rw [← heq] at hstart' hstop'
  obtain hlt | hlt := happart <;> omega

/-- **A file's evidence is the sum of its statements.** However the statements of a program are split into
those in front and those behind, its evidence is that of the program with the ones in front merged with
that of the program with the others: in the order of the listing, and what is in front first where the
listing tells no difference. Nothing is lost, and nothing comes in. -/
theorem evidence_append (s : Source) (file : String) (hprogram : root.kind = .other "program")
    (h : root.LaidOut) (hsplit : root.children = front ++ back) :
    root.evidence s file =
        ((root.withChildren front).evidence s file).merge ((root.withChildren back).evidence s file)
          (fun a b => (Evidence.listing a b).isLE) ∧
      (root.evidence s file).Perm
        ((root.withChildren front).evidence s file ++ (root.withChildren back).evidence s file) := by
  have hhits : root.hits s = hitsAmong s root front ++ hitsAmong s root back := by
    rw [hits_of_program hprogram, hsplit, hitsAmong_append]
  have hkeys : ∀ a ∈ hitsAmong s root front, ∀ b ∈ hitsAmong s root back, a.key ≠ b.key := by
    intro a ha b hb heq
    obtain ⟨c, hc, hp⟩ := exists_mem_nodes_of_mem_hitsAmong ha
    obtain ⟨d, hd, hq⟩ := exists_mem_nodes_of_mem_hitsAmong hb
    exact h.span_ne hsplit hc hd hp hq (congrArg (fun k => k.2.2.2) heq)
  have hmerge : root.evidence s file =
      ((root.withChildren front).evidence s file).merge ((root.withChildren back).evidence s file)
        fun a b => (Evidence.listing a b).isLE := by
    rw [evidence, hhits, Hit.firsts_append [] hkeys, List.map_append,
      Sequence.mergeSort_append Evidence.listing_eq_compare, evidence, evidence,
      hits_withChildren hprogram, hits_withChildren hprogram]
  refine ⟨hmerge, ?_⟩
  rw [hmerge]
  exact List.merge_perm_append _

/-- `p.catch(next); res.json({data: 1});` -/
def twoStatements : Node :=
  ⟨.other "program", none, ⟨0, 35⟩,
    [⟨.other "expression_statement", none, ⟨0, 14⟩,
        [⟨.callExpression, none, ⟨0, 13⟩,
          [⟨.memberExpression, some .function, ⟨0, 7⟩,
              [⟨.identifier, some .object, ⟨0, 1⟩, []⟩,
                ⟨.propertyIdentifier, some .property, ⟨2, 7⟩, []⟩]⟩,
            ⟨.arguments, some .arguments, ⟨7, 13⟩, [⟨.identifier, none, ⟨8, 12⟩, []⟩]⟩]⟩]⟩,
      ⟨.other "expression_statement", none, ⟨15, 35⟩,
        [⟨.callExpression, none, ⟨15, 34⟩,
          [⟨.memberExpression, some .function, ⟨15, 23⟩,
              [⟨.identifier, some .object, ⟨15, 18⟩, []⟩,
                ⟨.propertyIdentifier, some .property, ⟨19, 23⟩, []⟩]⟩,
            ⟨.arguments, some .arguments, ⟨23, 34⟩,
              [⟨.object, none, ⟨24, 33⟩,
                [⟨.pair, none, ⟨25, 32⟩,
                  [⟨.propertyIdentifier, some .key, ⟨25, 29⟩, []⟩,
                    ⟨.number, some .value, ⟨31, 32⟩, []⟩]⟩]⟩]⟩]⟩]⟩]⟩

/-- Both statements stand on one line and show something. -/
theorem evidence_append_twoStatements :
    let s : Source := ⟨"p.catch(next); res.json(\x7bdata: 1\x7d);".toUTF8⟩
    let front := twoStatements.withChildren (twoStatements.children.take 1)
    let back := twoStatements.withChildren (twoStatements.children.drop 1)
    twoStatements.LaidOut ∧
      twoStatements.evidence s "a.js" = (front.evidence s "a.js").merge (back.evidence s "a.js")
        (fun a b => (Evidence.listing a b).isLE) ∧
      (front.walk.any fun v => (Shape.promiseCatch s v).isSome) = true ∧
      (back.walk.any fun v => (Shape.implicitStatus s v).isSome) = true := by
  intro s front back
  have h : twoStatements.LaidOut := ⟨by decide, by decide, by decide⟩
  exact ⟨h, (evidence_append s "a.js" rfl h (List.take_append_drop 1 _).symm).1, by cbv, by cbv⟩

end Node
end Conventions
