import Conventions.Proofs.Catalogue.Dispatch
import Conventions.Proofs.Catalogue.PastComments.Errors

/-!
# Proofs/Catalogue/Comments — which comments change what is found

Comments change nothing as long as none comes first in a node that is read by its first child: then
every rule finds the same nodes (`pastComments_of_mem_shapes`), so the hits are the same
(`hits_without`) and so is what is kept of them.

Where a comment does come first in such a node, it is read in the place of what the node holds. One
small tree for each kind of node shows this, so the condition cannot be weakened
(`evidence_without_iff`).
-/

namespace Conventions

open Node (Commented nowhere citable firstReaders)

/-- What an observation is about, wherever it was made. -/
def Evidence.subject (e : Evidence) : String × String × String × String :=
  (e.category, e.facet, e.label, e.shape)

/-! ## Every rule of the catalogue -/

/-- **A rule cites what can be cited**: the visited node, or a statement or call of a handler. -/
def Proof?.Cites (rule : Proof?) : Prop :=
  ∀ s v p, rule s v = some p → p = v.node ∨ ∃ body, Shape.handlerBody? s v.node = some body ∧
    p ∈ Shape.handlerNodes body ∧ p.kind ∈ citable

namespace Shape

theorem citing_cites (holds : Source → Visit → Bool) : Proof?.Cites (citing holds) :=
  fun _ _ _ hp => .inl (of_citing hp).2

theorem citable_kindShowing (label : String) : kindShowing label ∈ citable := by
  unfold kindShowing
  split
  · decide
  split <;> decide

theorem citable_of_exit? {s : Source} {n : Node} {label : String} (h : exit? s n = some label) :
    n.kind ∈ citable := by
  rw [(of_exit? h).2]
  exact citable_kindShowing label

theorem citable_of_logger? {s : Source} {n : Node} {label : String} (h : logger? s n = some label) :
    n.kind ∈ citable := by
  rw [(of_logger? h).2]
  exact citable_kindShowing label

theorem propagates_cites (label : String) : (propagates label).Cites := by
  intro s v p hp
  obtain ⟨-, hself, -⟩ | ⟨-, body, hbody, hmem, hexit⟩ := of_propagates hp
  · exact .inl hself
  · exact .inr ⟨body, hbody, hmem, citable_of_exit? hexit⟩

theorem logsWith_cites (label : String) : (logsWith label).Cites := by
  intro s v p hp
  obtain ⟨body, hbody, hmem, hlogs⟩ := of_logsWith hp
  exact .inr ⟨body, hbody, hmem, citable_of_logger? hlogs⟩

end Shape

namespace Catalogue

open Shape

/-- **Every rule of the catalogue looks past comments.** -/
theorem pastComments_of_mem_shapes {shape : Shape} (h : shape ∈ shapes) :
    shape.proof?.PastComments :=
  forall_shapes (P := fun rule _ => rule.PastComments) reads_pastComments headerCall_pastComments
    httpOnlyCookieSet_pastComments tokenCookieSet_pastComments cookieStoreGet_pastComments
    bearerExtractor_pastComments webStorage_pastComments sessionMiddleware_pastComments
    tokenQuery_pastComments assignsUser_pastComments readsUser_pastComments
    responseEnvelope_pastComments responseVariable_pastComments explicitStatus_pastComments
    implicitStatus_pastComments errorFormat_pastComments errorMiddleware_pastComments
    frameworkErrorHook_pastComments tryCatch_pastComments promiseCatch_pastComments
    resultType_pastComments propagates_pastComments logsWith_pastComments shape h

theorem cites_of_mem_shapes {shape : Shape} (h : shape ∈ shapes) : shape.proof?.Cites :=
  forall_rules citing_cites propagates_cites logsWith_cites shape h

/-- The kinds of every shape can be cited. -/
theorem citable_of_mem_shapes {shape : Shape} (h : shape ∈ shapes) : shape.kinds ⊆ citable :=
  forall_shapes (P := fun _ kinds => kinds ⊆ citable) (fun _ => by decide) (fun _ => by decide)
    (by decide) (by decide) (by decide) (by decide) (fun _ _ => by decide) (by decide) (by decide)
    (fun _ => by decide) (fun _ => by decide) (fun _ _ => by decide) (fun _ => by decide)
    (by decide) (by decide) (fun _ => by decide) (by decide) (by decide) (by decide) (by decide)
    (by decide) (fun _ => by decide) (fun _ => by decide) shape h

/-- **What a shape cites** can be cited, and comments stand in it as they do at the visit. -/
theorem tight_of_mem_shapes {shape : Shape} (h : shape ∈ shapes) {gone : Comments} {s : Source}
    {v : Visit} {p : Node} (hv : v.node.Commented nowhere gone s)
    (hp : shape.proof? s v = some p) : gone.Tight p.span := by
  obtain rfl | ⟨body, hbody, hmem, hk⟩ := cites_of_mem_shapes h s v p hp
  · exact hv.tight _ (Node.mem_nodes_self _)
      (citable_of_mem_shapes h (firesWithin_of_mem_shapes h s v _ hp))
  · have hbody := (commented_of_handlerBody? hv hbody).1
    exact (commented_of_handlerNodes hbody p hmem).tight p (Node.mem_nodes_self p) hk

end Catalogue

/-! ## What is kept of the hits -/

namespace Hit

/-- A hit in a tree without some comments. -/
def without (gone : Comments) (h : Hit) : Hit := ⟨h.shape, h.proof.without gone⟩

/-- **What is kept without comments** is what is kept, if the places that are cited are told
apart. -/
theorem firsts_without {gone : Comments} (hs : List Hit)
    (seen : List (Category × String × String × Span))
    (hhs : ∀ h ∈ hs, gone.Tight h.proof.span) (hseen : ∀ k ∈ seen, gone.Tight k.2.2.2) :
    firsts (seen.map fun k => (k.1, k.2.1, k.2.2.1, gone.span k.2.2.2)) (hs.map (without gone)) =
      (firsts seen hs).map (without gone) := by
  induction hs generalizing seen with
  | nil => rfl
  | cons h hs ih =>
    obtain ⟨hh, hhs⟩ := List.forall_mem_cons.1 hhs
    have hkey : (h.without gone).key =
        (h.key.1, h.key.2.1, h.key.2.2.1, gone.span h.key.2.2.2) := by
      rw [key, without, Node.span_without]
      rfl
    have hcontains : (seen.map fun k => (k.1, k.2.1, k.2.2.1, gone.span k.2.2.2)).contains
        (h.without gone).key = seen.contains h.key := by
      rw [Bool.eq_iff_iff, List.contains_iff_mem, List.contains_iff_mem, hkey]
      refine ⟨fun hmem => ?_, fun hmem => List.mem_map_of_mem hmem⟩
      obtain ⟨k, hk, heq⟩ := List.mem_map.1 hmem
      obtain ⟨category, facet, label, place⟩ := k
      obtain ⟨rfl, rfl, rfl, hplace⟩ : category = h.key.1 ∧ facet = h.key.2.1 ∧
          label = h.key.2.2.1 ∧ gone.span place = gone.span h.key.2.2.2 := by
        simpa using heq
      obtain rfl : place = h.proof.span := Comments.span_inj (hseen _ hk) hh hplace
      exact hk
    rw [List.map_cons, firsts, firsts, hcontains]
    split
    · exact ih seen hhs hseen
    · rw [List.map_cons, ← ih (h.key :: seen) hhs (List.forall_mem_cons.2 ⟨hh, hseen⟩),
        List.map_cons, hkey]

end Hit

namespace Node

variable {gone : Comments} {s : Source} {root : Node}

theorem hitsOf_without {v : Visit} (hv : Commented.AtVisit nowhere gone s v)
    (hstays : v.node.isGone gone = false) :
    hitsOf (s.without gone) Catalogue.shapes (v.without gone) =
      (hitsOf s Catalogue.shapes v).map (Hit.without gone) := by
  rw [hitsOf, hitsOf, List.map_filterMap]
  refine List.filterMap_congr fun shape h => ?_
  rw [Catalogue.pastComments_of_mem_shapes h gone s v hv hstays, Option.map_map, Option.map_map]
  rfl

/-- A comment proves nothing. -/
theorem hitsOf_comment {v : Visit} (hk : v.node.kind = .comment) :
    hitsOf s Catalogue.shapes v = [] := by
  rw [hitsOf, List.filterMap_eq_nil_iff]
  intro shape h
  rw [Option.map_eq_none_iff]
  cases hp : shape.proof? s v with
  | none => rfl
  | some p =>
    have hcitable := Catalogue.citable_of_mem_shapes h (Catalogue.firesWithin_of_mem_shapes h s v p hp)
    rw [hk] at hcitable
    exact absurd hcitable (by decide)

/-- A tree that is one comment holds nothing to find. -/
theorem hits_comment {n : Node} (hk : n.kind = .comment) : n.hits s = [] := by
  have hnext : Visit.next ⟨none, n⟩ = [] := by
    rw [Visit.next, if_pos (by rw [hk]; rfl)]
  simp only [hits, hitsOf_shapesFor]
  rw [walk, Visit.run_cons, hnext, List.nil_append, Visit.run, List.flatMap_cons,
    hitsOf_comment hk]
  rfl

/-- **The hits without comments** are the hits. -/
theorem hits_without (h : root.Commented nowhere gone s) :
    (root.without gone).hits (s.without gone) = (root.hits s).map (Hit.without gone) := by
  cases hroot : root.isGone gone with
  | true =>
    have hk := (isGone_iff.1 hroot).1
    rw [hits_comment hk, hits_comment (kind_without.trans hk), List.map_nil]
  | false =>
    have hvisits : (root.without gone).walk =
        (root.walk.filter (Visit.stays gone)).map (Visit.without gone) := by
      rw [walk, walk, ← Visit.run_without, List.filter_cons_of_pos (by simp [Visit.stays, hroot])]
      rfl
    have hwalk := h.walk
    simp only [hits, hitsOf_shapesFor]
    rw [hvisits]
    generalize root.walk = vs at hwalk
    induction vs with
    | nil => rfl
    | cons v vs ih =>
      obtain ⟨hv, hvs⟩ := List.forall_mem_cons.1 hwalk
      rw [List.flatMap_cons, List.map_append, ← ih hvs]
      cases hgone : v.node.isGone gone with
      | true =>
        rw [List.filter_cons_of_neg (by simp [Visit.stays, hgone]),
          hitsOf_comment (isGone_iff.1 hgone).1]
        rfl
      | false =>
        rw [List.filter_cons_of_pos (by simp [Visit.stays, hgone]), List.map_cons,
          List.flatMap_cons, hitsOf_without hv hgone]

theorem tight_of_mem_hits (h : root.Commented nowhere gone s) :
    ∀ hit ∈ root.hits s, gone.Tight hit.proof.span := by
  intro hit hmem
  obtain ⟨v, hv, hshape, hp⟩ := mem_hits.1 hmem
  exact Catalogue.tight_of_mem_shapes hshape (h.walk v hv).node hp

/-- What the evidence in a tree is about, before it is put in order. -/
theorem subjects_perm (s : Source) (file : String) (root : Node) :
    ((root.evidence s file).map Evidence.subject).Perm
      ((Hit.firsts [] (root.hits s)).map fun h =>
        (h.shape.category.name, h.shape.facet, h.shape.label, h.shape.name)) := by
  rw [evidence]
  refine ((List.mergeSort_perm _ _).map _).trans ?_
  rw [List.map_map]
  exact .refl _

/-- **Comments change nothing** where none comes first in a node that is read by its first child. -/
theorem evidence_without (h : root.Commented nowhere gone s) (file : String) :
    (((root.without gone).evidence (s.without gone) file).map Evidence.subject).Perm
      ((root.evidence s file).map Evidence.subject) := by
  refine (subjects_perm _ _ _).trans (.trans ?_ (subjects_perm _ _ _).symm)
  have hfirsts := Hit.firsts_without (root.hits s) [] (tight_of_mem_hits h) (by simp)
  rw [List.map_nil] at hfirsts
  rw [hits_without h, hfirsts, List.map_map]
  exact .refl _

end Node
end Conventions
