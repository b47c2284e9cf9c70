import Mathlib
import Conventions.Proofs.Catalogue.Dispatch
import Conventions.Proofs.Syntax.Reading
import Conventions.Proofs.Syntax.Sight

/-!
# Proofs/Catalogue/Sight — opaque nodes are looked into only as bodies of handlers

A walk does not enter opaque nodes, and neither does the walk through a body; but the latter starts
below the body, whatever the body is. So a template that is the whole body of a handler is looked
into (`Shape.looksInside`).

Everything else that proves something is in sight (`staysInSight_of_mem_shapes`). Where a handler
looks inside its body, some node in there is cited (`exists_of_looksInside`) and what is kept of it
is that node (`Node.exists_hidden`), so these are exactly the trees in which something hidden is
cited (`Node.proofs_unhidden_iff`).
-/

namespace Conventions

/-! ## What rules cite -/

namespace Shape

variable {s : Source} {n body p : Node}

/-- **Does a handler look inside an opaque body** and find there a way out or a way of logging? -/
def looksInside (s : Source) (n : Node) : Bool :=
  (handlerBody? s n).any fun body => body.kind.isOpaque && body.bodyNodes.any fun c =>
    (logger? s c).isSome || !catchesWithNext s n && (exit? s c).isSome

theorem isOpaque_eq_false_of_isFunction {k : Kind} (h : k.isFunction = true) :
    k.isOpaque = false := by
  have hall : ∀ k ∈ Kind.functions, k.isOpaque = false := by decide
  exact hall k (List.contains_iff_mem.1 h)

/-- The body of a handler is in sight of it. -/
theorem inSight_of_handlerBody? (h : handlerBody? s n = some body) : n.InSight body := by
  unfold handlerBody? at h
  split at h
  case isTrue hk => exact Node.InSight.self.child? (by rw [hk]; rfl) h
  split at h
  case isTrue hm =>
    rw [isErrorMiddleware, Bool.and_eq_true] at hm
    exact Node.InSight.self.child? (isOpaque_eq_false_of_isFunction hm.1) h
  split at h
  case isTrue hc =>
    split at h
    case h_1 handler hfirst =>
      split at h
      case isTrue hfunction =>
        obtain ⟨a, ha, hk, hmem, -⟩ := Node.exists_arguments_of_mem (List.mem_of_head? hfirst)
        have harguments : n.InSight a :=
          Node.InSight.self.child? (by rw [kind_of_isCatchCall hc]; rfl) ha
        have hhandler : n.InSight handler := harguments.child (by rw [hk]; rfl) hmem
        exact hhandler.child? (isOpaque_eq_false_of_isFunction hfunction) h
      case isFalse => cases h
    case h_2 => cases h
  case isFalse => cases h

/-- The nodes of a handler are in sight of it, unless they stand in an opaque body. -/
theorem inSight_of_mem_handlerNodes (hbody : handlerBody? s n = some body)
    (hmem : p ∈ handlerNodes body) (hopen : p ∈ body.bodyNodes → body.kind.isOpaque = false) :
    n.InSight p := by
  have hsight := inSight_of_handlerBody? hbody
  obtain rfl | hp := eq_or_mem_of_mem_handlerNodes hmem
  · exact hsight
  · exact hsight.trans (Node.inSight_bodyNodes (hopen hp) p hp)

/-- The nodes of a handler stand in it, whatever its body is. -/
theorem mem_nodes_of_mem_handlerNodes (hbody : handlerBody? s n = some body)
    (hmem : p ∈ handlerNodes body) : p ∈ n.nodes := by
  refine Node.nodes_subset_nodes (inSight_of_handlerBody? hbody).mem_nodes ?_
  obtain rfl | hp := eq_or_mem_of_mem_handlerNodes hmem
  · exact Node.mem_nodes_self p
  · exact Node.inner_subset_nodes body (Node.bodyNodes_subset_inner body hp)

end Shape

/-- A rule cites what is in sight of the visited node, unless a handler looks inside its body. -/
def Proof?.StaysInSight (rule : Proof?) : Prop :=
  ∀ s v p, rule s v = some p → Shape.looksInside s v.node = false → v.node.InSight p

namespace Shape

variable {s : Source} {v : Visit} {n body p : Node} {shape shape' : Shape}

theorem citing_staysInSight (holds : Source → Visit → Bool) :
    Proof?.StaysInSight (citing holds) := by
  intro s v p hp _
  obtain ⟨-, rfl⟩ := of_citing hp
  exact .self

theorem propagates_staysInSight (label : String) : (propagates label).StaysInSight := by
  intro s v p hp hshut
  obtain ⟨-, rfl, -⟩ | ⟨hnext, body, hbody, hmem, hexit⟩ := of_propagates hp
  · exact .self
  refine inSight_of_mem_handlerNodes hbody hmem fun hp => eq_false_of_ne_true fun hcovered => ?_
  exact ne_true_of_eq_false hshut (looksInto_of_cites hbody hp hcovered (.inr ⟨hnext, hexit⟩))

theorem logsWith_staysInSight (label : String) : (logsWith label).StaysInSight := by
  intro s v p hp hshut
  obtain ⟨body, hbody, hmem, hlogs⟩ := of_logsWith hp
  refine inSight_of_mem_handlerNodes hbody hmem fun hp => eq_false_of_ne_true fun hcovered => ?_
  exact ne_true_of_eq_false hshut (looksInto_of_cites hbody hp hcovered (.inl hlogs))

/-! ## Shapes about handlers -/

/-- **What a shape about handlers cites** stands in the handler and is of the kind for its label. -/
theorem of_mem_handlers (h : shape ∈ Catalogue.handlers) (hp : shape.proof? s v = some p) :
    p.kind = kindShowing shape.label ∧ p ∈ v.node.nodes := by
  obtain ⟨-, hrule⟩ | ⟨-, hrule⟩ := rule_of_mem_handlers h <;> rw [hrule] at hp
  · obtain ⟨hlabel, rfl, hk⟩ | ⟨-, body, hbody, hmem, hexit⟩ := of_propagates hp
    · rw [hlabel]
      exact ⟨hk, Node.mem_nodes_self _⟩
    · exact ⟨(of_exit? hexit).2, mem_nodes_of_mem_handlerNodes hbody hmem⟩
  · obtain ⟨body, hbody, hmem, hlogs⟩ := of_logsWith hp
    exact ⟨(of_logger? hlogs).2, mem_nodes_of_mem_handlerNodes hbody hmem⟩

theorem isOpaque_kindShowing (label : String) : (kindShowing label).isOpaque = false := by
  unfold kindShowing
  split
  · rfl
  split <;> rfl

/-- **Where a handler looks inside its body**, some shape cites a node that stands in there. -/
theorem exists_of_looksInside (h : looksInside s v.node = true) :
    ∃ shape ∈ Catalogue.handlers, ∃ p, shape.proof? s v = some p ∧ v.node.Hides p := by
  obtain ⟨body, hbody, hcovered, shape, hshape, p, hp, hmem, label, hk⟩ := exists_of_looksInto h
  refine ⟨shape, hshape, p, hp, body, (inSight_of_handlerBody? hbody).mem_nodes, hcovered, ?_⟩
  -- the body itself shows nothing
  obtain rfl | hp := eq_or_mem_of_mem_handlerNodes hmem
  · rw [hk, isOpaque_kindShowing] at hcovered
    cases hcovered
  · exact Node.bodyNodes_subset_inner body hp

end Shape

namespace Catalogue

open Shape

/-- **What a shape cites** is in sight, unless a handler looks inside its body. -/
theorem staysInSight_of_mem_shapes {shape : Shape} (h : shape ∈ shapes) :
    shape.proof?.StaysInSight :=
  forall_rules citing_staysInSight propagates_staysInSight logsWith_staysInSight shape h

end Catalogue

namespace Node

variable {s : Source} {file : String} {root p : Node} {e : Evidence}

/-! ## The proofs of the evidence -/

/-- **A node proves an observation** if that is what a hit that is kept cites for it. -/
def ProvedBy (s : Source) (file : String) (root : Node) (e : Evidence) (p : Node) : Prop :=
  ∃ h ∈ Hit.firsts [] (root.hits s), h.evidence s file = e ∧ h.proof = p

/-- Every observation is proved by some node, and nothing else is observed. -/
theorem mem_evidence_iff : e ∈ root.evidence s file ↔ ∃ p, ProvedBy s file root e p := by
  rw [evidence, List.mem_mergeSort, List.mem_map]
  constructor
  · rintro ⟨h, hmem, he⟩
    exact ⟨h.proof, h, hmem, he, rfl⟩
  · rintro ⟨p, h, hmem, he, -⟩
    exact ⟨h, hmem, he⟩

/-- **What proves an observation is in sight** if no handler looks inside its body. -/
theorem ProvedBy.inSight (h : ProvedBy s file root e p)
    (hshut : ∀ v ∈ root.walk, Shape.looksInside s v.node = false) : root.InSight p := by
  obtain ⟨h, hmem, -, rfl⟩ := h
  obtain ⟨v, hv, hshape, hp⟩ := mem_hits.1 (Hit.mem_of_mem_firsts hmem)
  exact (inSight_walk v hv).trans <|
    Catalogue.staysInSight_of_mem_shapes hshape s v h.proof hp (hshut v hv)

/-- **Where a handler looks inside its body**, something hidden is cited: the hit that is kept for
the label and the place is one for a node of the same kind. -/
theorem exists_hidden (htold : root.ToldApart) {v : Visit} (hv : v ∈ root.walk)
    (hlooks : Shape.looksInside s v.node = true) :
    ∃ e ∈ root.evidence s file, ∃ p, ProvedBy s file root e p ∧ root.Hides p := by
  obtain ⟨shape, hshape, p, hp, hhides⟩ := Shape.exists_of_looksInside hlooks
  have hit : ⟨shape, p⟩ ∈ root.hits s := mem_hits.2 ⟨v, hv, List.mem_append_right _ hshape, hp⟩
  obtain ⟨h, hkept, hkey⟩ := Hit.exists_mem_firsts hit [] (by simp)
  obtain ⟨w, hw, hcatalogue, hproof⟩ := mem_hits.1 (Hit.mem_of_mem_firsts hkept)
  have hlabel : h.shape.label = shape.label := congrArg (fun k => k.2.2.1) hkey
  have hplace : h.proof.span = p.span := congrArg (fun k => k.2.2.2) hkey
  obtain ⟨hk, hmem⟩ := Shape.of_mem_handlers hshape hp
  obtain ⟨hk', hmem'⟩ :=
    Shape.of_mem_handlers (Shape.mem_handlers_of_label hcatalogue hshape hlabel) hproof
  have hv := (inSight_walk v hv).mem_nodes
  have hw := (inSight_walk w hw).mem_nodes
  have hsame : h.proof = p := htold.eq (nodes_subset_nodes hw hmem') (nodes_subset_nodes hv hmem)
    (by rw [hk', hk, hlabel]) hplace
  have hproved : ProvedBy s file root (h.evidence s file) p := ⟨h, hkept, rfl, hsame⟩
  exact ⟨_, mem_evidence_iff.2 ⟨p, hproved⟩, p, hproved, hhides.of_mem_nodes hv⟩

/-- **Nothing hidden is cited exactly if no handler looks inside its body.** In any tree without
such handlers all that proves an observation is in sight. In a tree whose nodes are told apart, this
is to say that no observation is proved by a node that stands in an opaque one, and a single handler
that looks inside its body makes for one that is. -/
theorem proofs_unhidden_iff (s : Source) (file : String) (root : Node) :
    ((∀ v ∈ root.walk, Shape.looksInside s v.node = false) →
        ∀ e ∈ root.evidence s file, ∀ p, ProvedBy s file root e p → root.InSight p) ∧
      (root.ToldApart →
        ((∀ e ∈ root.evidence s file, ∀ p, ProvedBy s file root e p → ¬ root.Hides p) ↔
          ∀ v ∈ root.walk, Shape.looksInside s v.node = false)) := by
  refine ⟨fun hshut e _ p hp => hp.inSight hshut, fun htold => ⟨fun hunhidden v hv => ?_,
    fun hshut e _ p hp => (hp.inSight hshut).not_hides htold.nodup⟩⟩
  refine eq_false_of_ne_true fun hlooks => ?_
  obtain ⟨e, he, p, hp, hhides⟩ := exists_hidden htold hv hlooks
  exact hunhidden e he p hp hhides

/-- `p.catch(err => ...)` with a template for the body and `logger.error(err)` in it. -/
def loggingTemplate : Node :=
  ⟨.other "program", none, ⟨0, 39⟩,
    [⟨.other "expression_statement", none, ⟨0, 39⟩,
      [⟨.callExpression, none, ⟨0, 38⟩,
        [⟨.memberExpression, some .function, ⟨0, 7⟩,
            [⟨.identifier, some .object, ⟨0, 1⟩, []⟩,
              ⟨.propertyIdentifier, some .property, ⟨2, 7⟩, []⟩]⟩,
          ⟨.arguments, some .arguments, ⟨7, 38⟩,
            [⟨.arrowFunction, none, ⟨8, 37⟩,
              [⟨.identifier, some .parameter, ⟨8, 11⟩, []⟩,
                ⟨.templateString, some .body, ⟨15, 37⟩,
                  [⟨.templateSubstitution, none, ⟨16, 36⟩,
                    [⟨.callExpression, none, ⟨18, 35⟩,
                      [⟨.memberExpression, some .function, ⟨18, 30⟩,
                          [⟨.identifier, some .object, ⟨18, 24⟩, []⟩,
                            ⟨.propertyIdentifier, some .property, ⟨25, 30⟩, []⟩]⟩,
                        ⟨.arguments, some .arguments, ⟨30, 35⟩,
                          [⟨.identifier, none, ⟨31, 34⟩, []⟩]⟩]⟩]⟩]⟩]⟩]⟩]⟩]⟩]⟩

/-- The call of a logger inside the template of `loggingTemplate` is cited. -/
theorem hidden_call_cited :
    ∃ s root, root.kind.isOpaque = false ∧ ToldApart root ∧
      ∃ e ∈ root.evidence s "a.js", ∃ p, ProvedBy s "a.js" root e p ∧ root.Hides p := by
  let s : Source := ⟨"p.catch(err => `$\x7blogger.error(err)\x7d`);".toUTF8⟩
  have htold : loggingTemplate.ToldApart := by
    unfold ToldApart
    decide
  have hlooks : loggingTemplate.walk.any (fun v => Shape.looksInside s v.node) = true := by cbv
  obtain ⟨v, hv, hlooks⟩ := List.any_eq_true.1 hlooks
  exact ⟨s, loggingTemplate, rfl, htold, exists_hidden htold hv hlooks⟩

end Node

end Conventions
