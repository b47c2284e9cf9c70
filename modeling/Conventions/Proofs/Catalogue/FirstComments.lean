import Mathlib
import Conventions.Proofs.Catalogue.Comments

/-!
# Proofs/Catalogue/FirstComments — a comment that comes first is read for what follows it

Parentheses, `await`, `!`, `return`, a decorator and a generic type without a name are read by
their first child, be it a comment or not. `evidence_without_iff` says that these are exactly the
places where comments can change what is found: nowhere else do they, and for each kind of node
there is a small tree where one does.
-/

namespace Conventions

open Node (Commented nowhere firstReaders)

/-! ## Labels -/

namespace Node

variable {s : Source} {root : Node} {file label : String}

/-- **A label is found** in a tree if one of its shapes is recognised at some visit. -/
theorem mem_labels_iff : label ∈ (root.evidence s file).map (·.label) ↔
    ∃ v ∈ root.walk, ∃ shape ∈ Catalogue.shapes, shape.label = label ∧
      (shape.proof? s v).isSome = true := by
  have hkept : label ∈ (root.evidence s file).map (·.label) ↔
      ∃ h ∈ Hit.firsts [] (root.hits s), h.shape.label = label := by
    simp [evidence, Hit.evidence]
  rw [hkept]
  constructor
  · rintro ⟨h, hmem, rfl⟩
    obtain ⟨v, hv, hshape, hp⟩ := mem_hits.1 (Hit.mem_of_mem_firsts hmem)
    exact ⟨v, hv, h.shape, hshape, rfl, by rw [hp]; rfl⟩
  · rintro ⟨v, hv, shape, hshape, rfl, hsome⟩
    obtain ⟨p, hp⟩ := Option.isSome_iff_exists.1 hsome
    obtain ⟨h, hmem, hkey⟩ := Hit.exists_mem_firsts
      (mem_hits.2 ⟨v, hv, hshape, hp⟩ : ⟨shape, p⟩ ∈ root.hits s) [] (by simp)
    exact ⟨h, hmem, congrArg (fun k => k.2.2.1) hkey⟩

/-- **A label that one rule supports** is found where the rule finds something. -/
theorem mem_labels_of_rule {rule : Proof?}
    (hrule : ∀ shape ∈ Catalogue.shapes, shape.label = label → shape.proof? = rule)
    (hshape : ∃ shape ∈ Catalogue.shapes, shape.label = label) :
    label ∈ (root.evidence s file).map (·.label) ↔
      (root.walk.any fun v => (rule s v).isSome) = true := by
  rw [mem_labels_iff, List.any_eq_true]
  refine exists_congr fun v => and_congr_right fun _ => ⟨?_, fun h => ?_⟩
  · rintro ⟨shape, hmem, hlabel, hsome⟩
    rwa [← hrule shape hmem hlabel]
  · obtain ⟨shape, hmem, hlabel⟩ := hshape
    exact ⟨shape, hmem, hlabel, by rwa [hrule shape hmem hlabel]⟩

/-! ## One small tree for each kind of node -/

/-- Is a span before or after each of the comments? -/
def isApart (gone : Comments) (place : Span) : Bool :=
  gone.all fun e => decide (place.stop ≤ e.start) || decide (e.stop ≤ place.start)

theorem spares_of_isApart {gone : Comments} {place : Span} (h : isApart gone place = true) :
    gone.Spares place := by
  intro x hx hlt
  rw [← Bool.not_eq_true, Comments.covers_iff]
  rintro ⟨e, he, hstart, hstop⟩
  have := List.all_eq_true.1 h e he
  simp only [Bool.or_eq_true, decide_eq_true_eq] at this
  omega

/-- Do comments stand around a node as `Commented` says? -/
def standsWell (allowed : Kind → Bool) (gone : Comments) (n : Node) : Bool :=
  (n.isGone gone || gone.all fun e =>
      (decide (n.span.start ≤ e.start) && decide (e.stop ≤ n.span.stop))
        || isApart [e] n.span)
    && (!n.isToken || isApart gone n.span)
    && (!citable.contains n.kind || (decide (n.span.start < n.span.stop)
      && !gone.covers n.span.start && !gone.covers (n.span.stop - 1)))
    && (!n.readsFirst || allowed n.kind || n.first?.all fun c => !c.isGone gone)

/-- Is a node apart from the comments, or more than a word? -/
def isWhole (gone : Comments) (s : Source) (n : Node) : Bool :=
  n.isGone gone || isApart gone n.span
    || ((n.without gone).text (s.without gone)).toList.any [' ', '(', '{'].contains

theorem not_cut_of_isWord {w : String} (h : isWord w = true) {c : Char} (hc : c ∈ w.toList) :
    ¬ [' ', '(', '{'].contains c = true := by
  intro hcut
  have hmem : c ∈ [' ', '(', '{'] := List.contains_iff_mem.1 hcut
  have hword := wordChar_of_isWord h hc
  obtain rfl | rfl | rfl : c = ' ' ∨ c = '(' ∨ c = '{' := by simpa using hmem
  all_goals exact absurd hword (by decide)

/-- **Whether comments stand in a tree as they should** can be computed. -/
def isCommented (allowed : Kind → Bool) (gone : Comments) (s : Source) (root : Node) : Bool :=
  gone.all (fun e => (s.bytesOf e).contains 0x2F) && root.nodes.all (standsWell allowed gone)
    && root.inner.all (isWhole gone s)

theorem commented_of_isCommented {allowed : Kind → Bool} {gone : Comments} {s : Source}
    {root : Node} (h : root.isCommented allowed gone s = true) :
    root.Commented allowed gone s := by
  simp only [isCommented, Bool.and_eq_true, List.all_eq_true] at h
  obtain ⟨⟨hsolidus, hplaces⟩, hwhole⟩ := h
  refine ⟨fun e he => List.contains_iff_mem.1 (hsolidus e he), fun n hn hstays e he => ?_,
    fun n hn htoken => ?_, fun n hn hstays hword => ?_, fun n hn hk => ?_,
    fun n hn hreads c hc hgone => ?_⟩
  · have := hplaces n hn
    simp only [standsWell, Bool.and_eq_true] at this
    have hall := (Bool.or_eq_true _ _ ▸ this.1.1.1).resolve_left (by simp [hstays])
    simpa [isApart] using List.all_eq_true.1 hall e he
  · have := hplaces n hn
    simp only [standsWell, Bool.and_eq_true] at this
    exact spares_of_isApart ((Bool.or_eq_true _ _ ▸ this.1.1.2).resolve_left (by simp [htoken]))
  · have := hwhole n hn
    simp only [isWhole, hstays, Bool.false_or, Bool.or_eq_true, List.any_eq_true] at this
    obtain hapart | ⟨c, hc, hcut⟩ := this
    · exact spares_of_isApart hapart
    · exact absurd hcut (not_cut_of_isWord hword hc)
  · have := hplaces n hn
    simp only [standsWell, Bool.and_eq_true] at this
    have htight := (Bool.or_eq_true _ _ ▸ this.1.2).resolve_left (by simp [hk])
    simpa [Comments.Tight, and_assoc] using htight
  · have := hplaces n hn
    simp only [standsWell, Bool.and_eq_true] at this
    simpa [hreads, hc, hgone] using this.2

end Node

/-- **A tree with comments.** -/
structure CommentedTree where
  source : Source
  gone : Comments
  root : Node

namespace CommentedTree

/-- Does a rule find something? -/
def finds (rule : Proof?) (s : Source) (root : Node) : Bool :=
  root.walk.any fun v => (rule s v).isSome

/-- `res.json((/**/{error: {}}))` -/
def parenthesized : CommentedTree where
  source := ⟨"res.json((/**/{error: {}}))".toUTF8⟩
  gone := [⟨10, 14⟩]
  root :=
    ⟨.callExpression, none, ⟨0, 27⟩,
      [⟨.memberExpression, some .function, ⟨0, 8⟩,
          [⟨.identifier, some .object, ⟨0, 3⟩, []⟩,
            ⟨.propertyIdentifier, some .property, ⟨4, 8⟩, []⟩]⟩,
        ⟨.arguments, some .arguments, ⟨8, 27⟩,
          [⟨.parenthesizedExpression, none, ⟨9, 26⟩,
            [⟨.comment, none, ⟨10, 14⟩, []⟩,
              ⟨.object, none, ⟨14, 25⟩,
                [⟨.pair, none, ⟨15, 24⟩,
                  [⟨.propertyIdentifier, some .key, ⟨15, 20⟩, []⟩,
                    ⟨.object, some .value, ⟨22, 24⟩, []⟩]⟩]⟩]⟩]⟩]⟩

/-- `(await /**/res).json({error: {}})` -/
def awaited : CommentedTree where
  source := ⟨"(await /**/res).json({error: {}})".toUTF8⟩
  gone := [⟨7, 11⟩]
  root :=
    ⟨.callExpression, none, ⟨0, 33⟩,
      [⟨.memberExpression, some .function, ⟨0, 20⟩,
          [⟨.parenthesizedExpression, some .object, ⟨0, 15⟩,
              [⟨.awaitExpression, none, ⟨1, 14⟩,
                [⟨.comment, none, ⟨7, 11⟩, []⟩, ⟨.identifier, none, ⟨11, 14⟩, []⟩]⟩]⟩,
            ⟨.propertyIdentifier, some .property, ⟨16, 20⟩, []⟩]⟩,
        ⟨.arguments, some .arguments, ⟨20, 33⟩,
          [⟨.object, none, ⟨21, 32⟩,
            [⟨.pair, none, ⟨22, 31⟩,
              [⟨.propertyIdentifier, some .key, ⟨22, 27⟩, []⟩,
                ⟨.object, some .value, ⟨29, 31⟩, []⟩]⟩]⟩]⟩]⟩

/-- `(/**/req)!.query.token` -/
def nonNull : CommentedTree where
  source := ⟨"(/**/req)!.query.token".toUTF8⟩
  gone := [⟨1, 5⟩]
  root :=
    ⟨.memberExpression, none, ⟨0, 22⟩,
      [⟨.memberExpression, some .object, ⟨0, 16⟩,
          [⟨.nonNullExpression, some .object, ⟨0, 10⟩,
              [⟨.comment, none, ⟨1, 5⟩, []⟩, ⟨.identifier, none, ⟨5, 8⟩, []⟩]⟩,
            ⟨.propertyIdentifier, some .property, ⟨11, 16⟩, []⟩]⟩,
        ⟨.propertyIdentifier, some .property, ⟨17, 22⟩, []⟩]⟩

/-- `catch (e) { return /**/; }` -/
def returned : CommentedTree where
  source := ⟨"catch (e) { return /**/; }".toUTF8⟩
  gone := [⟨19, 23⟩]
  root :=
    ⟨.catchClause, none, ⟨0, 26⟩,
      [⟨.statementBlock, some .body, ⟨10, 26⟩,
        [⟨.returnStatement, none, ⟨12, 24⟩, [⟨.comment, none, ⟨19, 23⟩, []⟩]⟩]⟩]⟩

/-- `@/**/HttpCode(200)` -/
def decorated : CommentedTree where
  source := ⟨"@/**/HttpCode(200)".toUTF8⟩
  gone := [⟨1, 5⟩]
  root :=
    ⟨.decorator, none, ⟨0, 18⟩,
      [⟨.comment, none, ⟨1, 5⟩, []⟩,
        ⟨.callExpression, none, ⟨5, 18⟩,
          [⟨.identifier, some .function, ⟨5, 13⟩, []⟩,
            ⟨.arguments, some .arguments, ⟨13, 18⟩, [⟨.number, none, ⟨14, 17⟩, []⟩]⟩]⟩]⟩

/-- `(/**/Result<T>)` -/
def generic : CommentedTree where
  source := ⟨"(/**/Result<T>)".toUTF8⟩
  gone := [⟨1, 5⟩]
  root :=
    ⟨.genericType, none, ⟨0, 15⟩,
      [⟨.comment, none, ⟨1, 5⟩, []⟩, ⟨.other "type_identifier", none, ⟨5, 11⟩, []⟩]⟩

/-- **A tree shows that comments matter** in nodes of a kind: they stand well in it but for nodes of
that kind, and a rule finds something either with them or without them. -/
structure Shows (x : CommentedTree) (k : Kind) (rule : Proof?) : Prop where
  standing : x.root.Commented (· == k) x.gone x.source
  found : finds rule (x.source.without x.gone) (x.root.without x.gone) =
    !finds rule x.source x.root

set_option maxRecDepth 10000 in
theorem parenthesized_shows :
    parenthesized.Shows .parenthesizedExpression (Shape.errorFormat "error-object") :=
  ⟨Node.commented_of_isCommented (by cbv), by cbv⟩

set_option maxRecDepth 10000 in
theorem awaited_shows : awaited.Shows .awaitExpression (Shape.errorFormat "error-object") :=
  ⟨Node.commented_of_isCommented (by cbv), by cbv⟩

set_option maxRecDepth 10000 in
theorem nonNull_shows : nonNull.Shows .nonNullExpression Shape.tokenQuery :=
  ⟨Node.commented_of_isCommented (by cbv), by cbv⟩

set_option maxRecDepth 10000 in
theorem returned_shows : returned.Shows .returnStatement (Shape.propagates "return-error") :=
  ⟨Node.commented_of_isCommented (by cbv), by cbv⟩

set_option maxRecDepth 10000 in
theorem decorated_shows : decorated.Shows .decorator Shape.explicitStatus :=
  ⟨Node.commented_of_isCommented (by cbv), by cbv⟩

set_option maxRecDepth 10000 in
theorem generic_shows : generic.Shows .genericType Shape.resultType :=
  ⟨Node.commented_of_isCommented (by cbv), by cbv⟩

/-- Labels that one rule alone supports. -/
def ruled : List (String × Proof?) :=
  [("error-object", Shape.errorFormat "error-object"), ("query-param", Shape.tokenQuery),
    ("return-error", Shape.propagates "return-error"), ("explicit-status", Shape.explicitStatus),
    ("result-type", Shape.resultType)]

theorem rules_of_label : ∀ r ∈ ruled,
    (Catalogue.shapes.filter (·.label == r.1)).map (·.proof?) = [r.2] := by
  simp only [ruled, List.forall_mem_cons, List.not_mem_nil, false_imp_iff, implies_true, and_true]
  exact ⟨rfl, rfl, rfl, rfl, rfl⟩

theorem rule_of_label : ∀ r ∈ ruled, ∀ shape ∈ Catalogue.shapes, shape.label = r.1 →
    shape.proof? = r.2 := by
  intro r hr shape hshape hlabel
  have hmem : shape.proof? ∈ (Catalogue.shapes.filter (·.label == r.1)).map (·.proof?) :=
    List.mem_map_of_mem (List.mem_filter.2 ⟨hshape, beq_iff_eq.2 hlabel⟩)
  rw [rules_of_label r hr] at hmem
  exact List.mem_singleton.1 hmem

theorem exists_label : ∀ r ∈ ruled, ∃ shape ∈ Catalogue.shapes, shape.label = r.1 := by
  intro r hr
  have hmem : r.2 ∈ (Catalogue.shapes.filter (·.label == r.1)).map (·.proof?) := by
    rw [rules_of_label r hr]
    exact List.mem_singleton_self _
  obtain ⟨shape, hshape, -⟩ := List.mem_map.1 hmem
  obtain ⟨hshape, hlabel⟩ := List.mem_filter.1 hshape
  exact ⟨shape, hshape, beq_iff_eq.1 hlabel⟩

/-- **A tree that shows it** refutes that comments change nothing. -/
theorem Shows.not_perm {x : CommentedTree} {k : Kind} {r : String × Proof?}
    (h : x.Shows k r.2) (hr : r ∈ ruled) (file : String) :
    ¬ (((x.root.without x.gone).evidence (x.source.without x.gone) file).map
        Evidence.subject).Perm ((x.root.evidence x.source file).map Evidence.subject) := by
  intro hperm
  have hlabels := (hperm.map fun subject => subject.2.2.1).mem_iff (a := r.1)
  rw [List.map_map, List.map_map] at hlabels
  have hfound {s : Source} {root : Node} : r.1 ∈ (root.evidence s file).map
      ((fun subject => subject.2.2.1) ∘ Evidence.subject) ↔ finds r.2 s root = true :=
    Node.mem_labels_of_rule (rule_of_label r hr) (exists_label r hr)
  rw [hfound, hfound, h.found] at hlabels
  simp at hlabels

/-- **For each kind of node that is read by its first child** a tree shows that comments matter. -/
theorem exists_shows {k : Kind} (hk : k ∈ firstReaders) :
    ∃ x : CommentedTree, ∃ r ∈ ruled, x.Shows k r.2 := by
  simp only [firstReaders, List.mem_cons, List.not_mem_nil, or_false] at hk
  obtain rfl | rfl | rfl | rfl | rfl | rfl := hk
  · exact ⟨parenthesized, _, .head _, parenthesized_shows⟩
  · exact ⟨awaited, _, .head _, awaited_shows⟩
  · exact ⟨nonNull, _, .tail _ (.head _), nonNull_shows⟩
  · exact ⟨returned, _, .tail _ (.tail _ (.head _)), returned_shows⟩
  · exact ⟨decorated, _, .tail _ (.tail _ (.tail _ (.head _))), decorated_shows⟩
  · exact ⟨generic, _, .tail _ (.tail _ (.tail _ (.tail _ (.head _)))), generic_shows⟩

end CommentedTree

/-! ## Exactly where comments change what is found -/

/-- **Comments change nothing exactly if none comes first in a node that is read by its first
child**: if comments may come first there in nodes of some kinds only, then the evidence is about
the same with and without them in every tree just when none of these kinds is one of those nodes'. -/
theorem Node.evidence_without_iff (allowed : Kind → Bool) :
    (∀ gone s root file, Node.Commented allowed gone s root →
      (((root.without gone).evidence (s.without gone) file).map Evidence.subject).Perm
        ((root.evidence s file).map Evidence.subject)) ↔
      ∀ k ∈ firstReaders, allowed k = false := by
  constructor
  · intro h k hk
    obtain ⟨x, r, hr, hshows⟩ := CommentedTree.exists_shows hk
    refine Bool.eq_false_iff.2 fun hallowed => hshows.not_perm hr "" ?_
    refine h x.gone x.source x.root "" (hshows.standing.allow fun j _ hj => ?_)
    rw [eq_of_beq hj]
    exact hallowed
  · intro h gone s root file hcommented
    refine Node.evidence_without (hcommented.allow fun k hk hallowed => ?_) file
    rw [h k hk] at hallowed
    cases hallowed

/-- A comment in parentheses hides the error payload of `res.json((/**/{error: {}}))`. -/
theorem Node.comment_hides_payload :
    ∃ gone s root, Node.Commented (fun _ => true) gone s root ∧
      ¬ (((root.without gone).evidence (s.without gone) "a.js").map Evidence.subject).Perm
        ((root.evidence s "a.js").map Evidence.subject) :=
  ⟨CommentedTree.parenthesized.gone, CommentedTree.parenthesized.source,
    CommentedTree.parenthesized.root,
    CommentedTree.parenthesized_shows.standing.allow fun _ _ _ => rfl,
    CommentedTree.parenthesized_shows.not_perm (r := ("error-object", _)) (.head _) "a.js"⟩

end Conventions
