import Conventions.Proofs.Catalogue.Sight

/-!
# Proofs/Catalogue/OwnStatements — handlers are judged by their own statements

How errors leave a handler, and how it logs, is to be read off its own statements, not off those of
functions that stand in it. The walk through a body does not enter functions, so this is so whether the
body is a block or an expression (`Shape.isOwn_of_mem_handlers`), but for one case: the walk begins below
the body without asking what it is, and the body of `err => () => { throw err; }` is a function. There the
statements of the inner function are taken for those of the handler, and these are the only handlers that
are judged by them (`Node.judged_by_own_iff`).
-/

namespace Conventions

/-! ## Functions in a handler -/

/-- **A node nests another one** in a function that stands in it. -/
def Node.Nests (n p : Node) : Prop := ∃ f ∈ n.inner, f.kind.isFunction = true ∧ p ∈ f.inner

/-- What is reached from a child past functions is not nested, if the nodes of the tree all differ. -/
theorem Node.Reached.not_nests {n c p : Node} (h : c.Reached Kind.isFunction p)
    (hc : c ∈ n.children) (hdiffer : n.nodes.Nodup) : ¬ n.Nests p := by
  rintro ⟨f, hf, hfunction, hp⟩
  obtain ⟨d, hd, hf⟩ := Node.mem_inner.1 hf
  have hpd : p ∈ d.nodes := Node.nodes_subset_nodes hf (Node.inner_subset_nodes f hp)
  obtain rfl := Node.eq_of_mem_nodes hdiffer hc hd h.mem_nodes hpd
  exact h.not_shutsIn (Node.nodup_nodes_of_mem hdiffer hc) ⟨f, hf, hfunction, hp⟩

namespace Shape

variable {s : Source} {v : Visit} {n handler body p : Node} {shape : Shape}

/-- **The handler that a node brings**: a catch clause or middleware for errors is one itself, and a call
of `.catch` is given one. -/
def handler? (s : Source) (n : Node) : Option Node :=
  if n.kind = .catchClause ∨ isErrorMiddleware s n = true then some n
  else if isCatchCall s n then n.firstArgument?.filter fun handler => handler.kind.isFunction
  else none

theorem handlerBody?_eq (s : Source) (n : Node) :
    handlerBody? s n = (handler? s n).bind fun handler => handler.child? .body := by
  rw [handlerBody?, handler?]
  by_cases hclause : n.kind = .catchClause
  · rw [if_pos hclause, if_pos (.inl hclause), Option.bind_some]
  rw [if_neg hclause]
  by_cases hmiddleware : isErrorMiddleware s n = true
  · rw [if_pos hmiddleware, if_pos (.inr hmiddleware), Option.bind_some, Node.body?]
  rw [if_neg hmiddleware, if_neg (not_or.2 ⟨hclause, hmiddleware⟩)]
  by_cases hcatch : isCatchCall s n = true
  · rw [if_pos hcatch, if_pos hcatch]
    cases n.firstArgument? with
    | none => rfl
    | some handler =>
      rw [Option.filter_some]
      split_ifs with hfunction
      · simp [hfunction, Node.body?]
      · simp [hfunction]
  · rw [if_neg hcatch, if_neg hcatch, Option.bind_none]

theorem exists_handler (h : handlerBody? s n = some body) :
    ∃ handler, handler? s n = some handler ∧ handler.child? .body = some body :=
  Option.bind_eq_some_iff.1 (handlerBody?_eq s n ▸ h)

/-- A handler stands in the node that brings it. -/
theorem mem_nodes_of_handler? (h : handler? s n = some handler) : handler ∈ n.nodes := by
  rw [handler?] at h
  split at h
  · obtain rfl := Option.some.inj h
    exact Node.mem_nodes_self n
  split at h
  · obtain ⟨hfirst, -⟩ := Option.filter_eq_some_iff.1 h
    obtain ⟨a, ha, -, hmem, -⟩ := Node.exists_arguments_of_mem (List.mem_of_head? hfirst)
    refine Node.mem_nodes.2 (.inr ⟨a, Node.mem_of_child? ha, ?_⟩)
    exact Node.mem_nodes.2 (.inr ⟨handler, hmem, Node.mem_nodes_self handler⟩)
  · cases h

/-! ## What a handler is judged by -/

/-- **A node is the handler's own**: no function stands between it and the body, which is none itself
unless it is the node. -/
def IsOwn (s : Source) (n p : Node) : Prop :=
  ∃ handler body, handler? s n = some handler ∧ handler.child? .body = some body ∧
    body.Reached Kind.isFunction p

theorem isFunction_kindShowing (label : String) : (kindShowing label).isFunction = false := by
  unfold kindShowing
  split
  · rfl
  split <;> rfl

/-- **What is cited for a handler** is the node that brings it, or shows a way out or a way of logging
among the nodes of the body. -/
theorem cites_of_mem_handlers (h : shape ∈ Catalogue.handlers) (hp : shape.proof? s v = some p) :
    p = v.node ∨ ∃ body, handlerBody? s v.node = some body ∧ p ∈ handlerNodes body ∧
      (logger? s p = some shape.label ∨
        catchesWithNext s v.node = false ∧ exit? s p = some shape.label) := by
  obtain ⟨-, hrule⟩ | ⟨-, hrule⟩ := rule_of_mem_handlers h <;> rw [hrule] at hp
  · obtain ⟨-, rfl, -⟩ | ⟨hnext, body, hbody, hmem, hexit⟩ := of_propagates hp
    · exact .inl rfl
    · exact .inr ⟨body, hbody, hmem, .inr ⟨hnext, hexit⟩⟩
  · obtain ⟨body, hbody, hmem, hlogs⟩ := of_logsWith hp
    exact .inr ⟨body, hbody, hmem, .inl hlogs⟩

/-- **What is cited for a handler is its own**, unless it looks into a function that is its body. -/
theorem isOwn_of_mem_handlers (hown : looksInto Kind.isFunction s v.node = false)
    (h : shape ∈ Catalogue.handlers) (hp : shape.proof? s v = some p) :
    p = v.node ∨ IsOwn s v.node p := by
  obtain rfl | ⟨body, hbody, hmem, hshows⟩ := cites_of_mem_handlers h hp
  · exact .inl rfl
  obtain ⟨handler, hhandler, hchild⟩ := exists_handler hbody
  refine .inr ⟨handler, body, hhandler, hchild, ?_⟩
  obtain rfl | hmem := eq_or_mem_of_mem_handlerNodes hmem
  · exact .self
  · refine Node.reached_bodyNodes (fun _ hfunction => Bool.or_eq_true_iff.2 (.inl hfunction))
      (eq_false_of_ne_true fun hfunction => ?_) p hmem
    exact ne_true_of_eq_false hown (looksInto_of_cites hbody hmem hfunction hshows)

theorem IsOwn.not_nests (h : IsOwn s n p) (hhandler : handler? s n = some handler)
    (hdiffer : n.nodes.Nodup) : ¬ handler.Nests p := by
  obtain ⟨handler', body, hhandler', hbody, hreached⟩ := h
  obtain rfl := Option.some.inj (hhandler.symm.trans hhandler')
  exact hreached.not_nests (Node.mem_of_child? hbody)
    (Node.nodup_nodes hdiffer (mem_nodes_of_handler? hhandler))

/-- **A handler that looks into a function** is judged by what stands in there. -/
theorem exists_nests_of_looksInto (h : looksInto Kind.isFunction s v.node = true) :
    ∃ handler, handler? s v.node = some handler ∧ ∃ shape ∈ Catalogue.handlers, ∃ p,
      shape.proof? s v = some p ∧ handler.Nests p := by
  obtain ⟨body, hbody, hfunction, shape, hshape, p, hp, hmem, label, hk⟩ := exists_of_looksInto h
  obtain ⟨handler, hhandler, hchild⟩ := exists_handler hbody
  refine ⟨handler, hhandler, shape, hshape, p, hp, body, ?_, hfunction, ?_⟩
  · exact Node.mem_inner.2 ⟨body, Node.mem_of_child? hchild, Node.mem_nodes_self body⟩
  · -- a function itself shows nothing
    obtain rfl | hmem := eq_or_mem_of_mem_handlerNodes hmem
    · rw [hk, isFunction_kindShowing] at hfunction
      cases hfunction
    · exact Node.bodyNodes_subset_inner body hmem

end Shape

namespace Node

open Shape

/-- **Handlers are judged by their own statements** unless they look into a function that is their body.
In any tree, what is cited for another handler is the node that brings it, or is reached from its body past
functions. In a tree whose nodes all differ, this is to say that no function of the handler nests it, and
every handler that looks into its body is judged by something that the body nests. -/
theorem judged_by_own_iff (s : Source) (root : Node) :
    (∀ v : Visit, looksInto Kind.isFunction s v.node = false → ∀ shape ∈ Catalogue.handlers, ∀ p,
        shape.proof? s v = some p → p = v.node ∨ IsOwn s v.node p) ∧
      (root.nodes.Nodup →
        ((∀ v : Visit, v.node ∈ root.nodes → ∀ handler, handler? s v.node = some handler →
            ∀ shape ∈ Catalogue.handlers, ∀ p, shape.proof? s v = some p → ¬ handler.Nests p) ↔
          ∀ n ∈ root.nodes, looksInto Kind.isFunction s n = false)) := by
  refine ⟨fun v hown shape hshape p hp => isOwn_of_mem_handlers hown hshape hp,
    fun hdiffer => ⟨fun hjudged n hn => ?_, fun hown v hv handler hhandler shape hshape p hp => ?_⟩⟩
  · refine eq_false_of_ne_true fun hlooks => ?_
    obtain ⟨handler, hhandler, shape, hshape, p, hp, hnests⟩ :=
      exists_nests_of_looksInto (v := ⟨none, n⟩) hlooks
    exact hjudged ⟨none, n⟩ hn handler hhandler shape hshape p hp hnests
  · have hnodes := nodup_nodes hdiffer hv
    obtain rfl | hp := isOwn_of_mem_handlers (hown v.node hv) hshape hp
    · rintro ⟨f, hf, -, hp⟩
      refine notMem_inner hnodes ?_ hp
      exact nodes_subset_nodes (mem_nodes_of_handler? hhandler) (inner_subset_nodes handler hf)
    · exact hp.not_nests hhandler hnodes

/-- `p.catch(err => () => { throw err; });`, where the handler gives back a function. -/
def thrownLater : Node :=
  ⟨.other "program", none, ⟨0, 37⟩,
    [⟨.other "expression_statement", none, ⟨0, 37⟩,
      [⟨.callExpression, none, ⟨0, 36⟩,
        [⟨.memberExpression, some .function, ⟨0, 7⟩,
            [⟨.identifier, some .object, ⟨0, 1⟩, []⟩,
              ⟨.propertyIdentifier, some .property, ⟨2, 7⟩, []⟩]⟩,
          ⟨.arguments, some .arguments, ⟨7, 36⟩,
            [⟨.arrowFunction, none, ⟨8, 35⟩,
              [⟨.identifier, some .parameter, ⟨8, 11⟩, []⟩,
                ⟨.arrowFunction, some .body, ⟨15, 35⟩,
                  [⟨.other "formal_parameters", some .parameters, ⟨15, 17⟩, []⟩,
                    ⟨.statementBlock, some .body, ⟨21, 35⟩,
                      [⟨.throwStatement, none, ⟨23, 33⟩,
                        [⟨.identifier, none, ⟨29, 32⟩, []⟩]⟩]⟩]⟩]⟩]⟩]⟩]⟩]⟩

/-- The `throw` of the function that is given back is taken for one of the handler. -/
theorem thrown_later_cited :
    ∃ s root, ToldApart root ∧ ∃ v ∈ root.walk, ∃ handler, handler? s v.node = some handler ∧
      ∃ shape ∈ Catalogue.handlers, ∃ p, shape.proof? s v = some p ∧ handler.Nests p := by
  let s : Source := ⟨"p.catch(err => () => \x7b throw err; \x7d);".toUTF8⟩
  have htold : thrownLater.ToldApart := by
    unfold ToldApart
    decide
  have hlooks : thrownLater.walk.any (fun v => looksInto Kind.isFunction s v.node) = true := by cbv
  obtain ⟨v, hv, hlooks⟩ := List.any_eq_true.1 hlooks
  exact ⟨s, thrownLater, htold, v, hv, exists_nests_of_looksInto hlooks⟩

end Node
end Conventions
