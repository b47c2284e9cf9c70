import Conventions.Catalogue

/-!
# Proofs/Catalogue/Handlers — what the rules about handlers cite

How errors leave a handler and how it logs is read off the nodes of its body. The node that is cited
shows the label it is cited for (`of_propagates`, `of_logsWith`), and a label that some node of the
body shows is not overlooked (`exists_propagates`, `exists_logsWith`). The walk through a body begins
below it, whatever it is; where it is of some kinds, a handler may look into it (`looksInto`), and then
some shape cites a node of the body (`exists_of_looksInto`).
-/

namespace Conventions
namespace Shape

variable {s : Source} {v : Visit} {n body p : Node} {label : String}

/-! ## The nodes of a handler -/

theorem mem_handlerNodes (h : p ∈ body.bodyNodes) : p ∈ handlerNodes body := by
  rw [handlerNodes]
  split
  · exact h
  · exact List.mem_cons_of_mem _ h

theorem eq_or_mem_of_mem_handlerNodes (h : p ∈ handlerNodes body) :
    p = body ∨ p ∈ body.bodyNodes := by
  rw [handlerNodes] at h
  split at h
  · exact .inr h
  · exact List.mem_cons.1 h

/-- The node that shows the first of some labels among the nodes of a handler. -/
theorem mem_handlerNodes_of_findSome? {labels : List String} {shows : Node → Option String}
    (h : labels.findSome? (fun l => ((handlerNodes body).find? fun n => shows n == some l).map
      fun n => (l, n)) = some (label, p)) :
    p ∈ handlerNodes body ∧ shows p = some label := by
  obtain ⟨l, -, hl⟩ := List.exists_of_findSome?_eq_some h
  obtain ⟨n, hn, heq⟩ := Option.map_eq_some_iff.1 hl
  cases heq
  exact ⟨List.mem_of_find?_eq_some hn, by simpa using List.find?_some hn⟩

/-- Some label is found if a node shows one of them. -/
theorem exists_findSome? {labels : List String} {shows : Node → Option String}
    (hlabel : label ∈ labels) (hmem : n ∈ handlerNodes body) (hshows : shows n = some label) :
    ∃ l p, labels.findSome? (fun l => ((handlerNodes body).find? fun n => shows n == some l).map
      fun n => (l, n)) = some (l, p) := by
  cases hfound : labels.findSome? fun l =>
      ((handlerNodes body).find? fun n => shows n == some l).map fun n => (l, n) with
  | none =>
    have hnone := List.findSome?_eq_none_iff.1 hfound label hlabel
    rw [Option.map_eq_none_iff, List.find?_eq_none] at hnone
    exact absurd (beq_iff_eq.2 hshows) (hnone n hmem)
  | some found => exact ⟨found.1, found.2, rfl⟩

/-! ## How errors leave a handler -/

/-- The kind of the nodes that show a label of a handler. -/
def kindShowing (label : String) : Kind :=
  if label = "rethrow" then .throwStatement
  else if label = "return-error" then .returnStatement
  else .callExpression

theorem of_exit? (h : exit? s n = some label) : label ∈ exits ∧ n.kind = kindShowing label := by
  unfold exit? at h
  split at h
  case h_1 hk =>
    cases h
    exact ⟨by decide, hk⟩
  case h_2 hk =>
    split at h
    · cases h
      exact ⟨by decide, hk⟩
    split at h
    · cases h
      exact ⟨by decide, hk⟩
    · cases h
  case h_3 hk =>
    split at h
    · cases h
      exact ⟨by decide, hk⟩
    · cases h
  case h_4 => cases h

/-- **What is cited for a way out of a handler** is the call of `.catch` with `next`, or a node of
the handler that shows this way. -/
theorem of_propagates (h : propagates label s v = some p) :
    (label = "next-error" ∧ p = v.node ∧ v.node.kind = .callExpression) ∨
      (catchesWithNext s v.node = false ∧ ∃ body, handlerBody? s v.node = some body ∧
        p ∈ handlerNodes body ∧ exit? s p = some label) := by
  unfold propagates at h
  split at h
  case isTrue hnext =>
    split at h
    · rw [catchesWithNext, isCatchCall, Bool.and_eq_true, Bool.and_eq_true, beq_iff_eq] at hnext
      exact .inl ⟨‹_›, (Option.some.inj h).symm, hnext.1.1⟩
    · cases h
  case isFalse hnext =>
    split at h
    case h_1 found proof hfound =>
      split at h
      case isTrue heq =>
        cases h
        obtain ⟨body, hbody, hfound⟩ := Option.bind_eq_some_iff.1 hfound
        exact .inr ⟨eq_false_of_ne_true hnext, body, hbody,
          heq ▸ mem_handlerNodes_of_findSome? hfound⟩
      case isFalse => cases h
    case h_2 => cases h

/-- **A way out is cited** if a node of the handler shows one. -/
theorem exists_propagates (hnext : catchesWithNext s v.node = false)
    (hbody : handlerBody? s v.node = some body) (hmem : n ∈ handlerNodes body)
    (hexit : exit? s n = some label) :
    ∃ l, ∃ p ∈ handlerNodes body, exit? s p = some l ∧ propagates l s v = some p := by
  obtain ⟨l, p, hfound⟩ := exists_findSome? (of_exit? hexit).1 hmem hexit
  obtain ⟨hp, hshows⟩ := mem_handlerNodes_of_findSome? hfound
  refine ⟨l, p, hp, hshows, ?_⟩
  rw [propagates, hnext, if_neg Bool.false_ne_true, hbody, Option.bind_some, propagation?, hfound]
  exact if_pos rfl

/-! ## How handlers log -/

/-- The labels for the ways of logging, the weightiest first. -/
def loggers : List String := ["structured-logger", "console"]

theorem of_logger? (h : logger? s n = some label) :
    label ∈ loggers ∧ n.kind = kindShowing label := by
  unfold logger? at h
  split at h
  case isTrue hk =>
    dsimp only at h
    split at h
    · cases h
    -- which path is looked at does not matter
    generalize (if (n.calleePath s).head? = some "this" then (n.calleePath s).drop 1
      else n.calleePath s) = path at h
    split at h
    · cases h
      exact ⟨by decide, hk⟩
    split at h
    · cases h
      exact ⟨by decide, hk⟩
    · cases h
  case isFalse => cases h

/-- **What is cited for a way of logging** is a node of the handler that shows it. -/
theorem of_logsWith (h : logsWith label s v = some p) :
    ∃ body, handlerBody? s v.node = some body ∧ p ∈ handlerNodes body ∧
      logger? s p = some label := by
  unfold logsWith at h
  split at h
  case h_1 found proof hfound =>
    split at h
    case isTrue heq =>
      cases h
      obtain ⟨body, hbody, hfound⟩ := Option.bind_eq_some_iff.1 hfound
      exact ⟨body, hbody, heq ▸ mem_handlerNodes_of_findSome? hfound⟩
    case isFalse => cases h
  case h_2 => cases h

/-- **A way of logging is cited** if a node of the handler shows one. -/
theorem exists_logsWith (hbody : handlerBody? s v.node = some body) (hmem : n ∈ handlerNodes body)
    (hlogs : logger? s n = some label) :
    ∃ l, ∃ p ∈ handlerNodes body, logger? s p = some l ∧ logsWith l s v = some p := by
  obtain ⟨l, p, hfound⟩ := exists_findSome? (of_logger? hlogs).1 hmem hlogs
  obtain ⟨hp, hshows⟩ := mem_handlerNodes_of_findSome? hfound
  refine ⟨l, p, hp, hshows, ?_⟩
  rw [logsWith, hbody, Option.bind_some, logging?, ← loggers, hfound]
  exact if_pos rfl

/-! ## Shapes about handlers -/

variable {shape shape' : Shape}

/-- A shape about handlers is told by its label. -/
theorem mem_handlers_of_label (h : shape ∈ Catalogue.shapes) (h' : shape' ∈ Catalogue.handlers)
    (hlabel : shape.label = shape'.label) : shape ∈ Catalogue.handlers := by
  have hothers : ∀ label ∈ Catalogue.handlers.map (·.label), label ∉
      (Catalogue.tokenLocation ++ Catalogue.userProperty ++ Catalogue.responseEnvelopes
        ++ Catalogue.statusCodes ++ Catalogue.errorFormats ++ Catalogue.catchStyle).map
          (·.label) := by decide
  rw [Catalogue.shapes, List.mem_append] at h
  refine h.resolve_left fun hmem => hothers _ (List.mem_map_of_mem h') ?_
  rw [← hlabel]
  exact List.mem_map_of_mem hmem

/-- The rule of a shape about handlers is about its label, and one of the two that its facet has. -/
theorem rule_of_mem_handlers (h : shape ∈ Catalogue.handlers) :
    shape.facet = "propagation" ∧ shape.proof? = propagates shape.label ∨
      shape.facet = "logging" ∧ shape.proof? = logsWith shape.label := by
  revert shape
  simp [Catalogue.handlers]

theorem exists_handlers_of_exits {label : String} (h : label ∈ exits) :
    ∃ shape ∈ Catalogue.handlers, shape.proof? = propagates label := by
  revert label
  simp [exits, Catalogue.handlers]

theorem exists_handlers_of_loggers {label : String} (h : label ∈ loggers) :
    ∃ shape ∈ Catalogue.handlers, shape.proof? = logsWith label := by
  revert label
  simp [loggers, Catalogue.handlers]

/-! ## Looking into a body -/

/-- **Does a handler look into a body** of some kinds and find there a way out or a way of logging? -/
def looksInto (kinds : Kind → Bool) (s : Source) (n : Node) : Bool :=
  (handlerBody? s n).any fun body => kinds body.kind && body.bodyNodes.any fun c =>
    (logger? s c).isSome || !catchesWithNext s n && (exit? s c).isSome

variable {kinds : Kind → Bool}

theorem looksInto_iff : looksInto kinds s n = true ↔
    ∃ body, handlerBody? s n = some body ∧ kinds body.kind = true ∧
      ∃ c ∈ body.bodyNodes, (∃ label, logger? s c = some label) ∨
        catchesWithNext s n = false ∧ ∃ label, exit? s c = some label := by
  simp [looksInto, Option.any_eq_true, Option.isSome_iff_exists]

/-- **Where a handler looks into its body**, some shape cites a node of it. -/
theorem exists_of_looksInto (h : looksInto kinds s v.node = true) :
    ∃ body, handlerBody? s v.node = some body ∧ kinds body.kind = true ∧
      ∃ shape ∈ Catalogue.handlers, ∃ p, shape.proof? s v = some p ∧ p ∈ handlerNodes body ∧
        ∃ label, p.kind = kindShowing label := by
  obtain ⟨body, hbody, hkinds, c, hc, ⟨label, hlogs⟩ | ⟨hnext, label, hexit⟩⟩ := looksInto_iff.1 h
  · obtain ⟨l, p, hmem, hshows, hp⟩ := exists_logsWith hbody (mem_handlerNodes hc) hlogs
    obtain ⟨hl, hk⟩ := of_logger? hshows
    obtain ⟨shape, hshape, hrule⟩ := exists_handlers_of_loggers hl
    exact ⟨body, hbody, hkinds, shape, hshape, p, hrule ▸ hp, hmem, l, hk⟩
  · obtain ⟨l, p, hmem, hshows, hp⟩ := exists_propagates hnext hbody (mem_handlerNodes hc) hexit
    obtain ⟨hl, hk⟩ := of_exit? hshows
    obtain ⟨shape, hshape, hrule⟩ := exists_handlers_of_exits hl
    exact ⟨body, hbody, hkinds, shape, hshape, p, hrule ▸ hp, hmem, l, hk⟩

/-- What stands below a body that a handler looks into is what it finds there. -/
theorem looksInto_of_cites {label : String} (hbody : handlerBody? s n = some body)
    (hmem : p ∈ body.bodyNodes) (hkinds : kinds body.kind = true)
    (hshows : logger? s p = some label ∨ catchesWithNext s n = false ∧ exit? s p = some label) :
    looksInto kinds s n = true :=
  looksInto_iff.2 ⟨body, hbody, hkinds, p, hmem,
    hshows.imp (fun h => ⟨label, h⟩) fun h => ⟨h.1, label, h.2⟩⟩

end Shape
end Conventions
