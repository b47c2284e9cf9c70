import Conventions.Catalogue
import Conventions.Proofs.Syntax.Objects
import Conventions.Proofs.Syntax.Visits

/-!
# Proofs/Catalogue/PastComments/Authentication — rules on tokens and users, past comments

A rule looks past comments (`Proof?.PastComments`) if it finds the same node with and without them,
given that none comes first where only the first child is read. The rules ask for words, paths and
kinds, and the lemmas on the readers say that these do not change.
-/

namespace Conventions

open Node (isWord nowhere citable SameWords)

/-- **A rule looks past comments**: at a node that stays it finds the same with and without them. -/
def Proof?.PastComments (rule : Proof?) : Prop :=
  ∀ gone s v, Node.Commented.AtVisit nowhere gone s v → v.node.isGone gone = false →
    rule (s.without gone) (v.without gone) = (rule s v).map (Node.without gone)

namespace Node

variable {gone : Comments} {s : Source} {n c : Node} {f : Field}

/-! ## Questions about words -/

theorem SameWords.contains {ks ls : List String} (h : SameWords ks ls) {w : String}
    (hw : isWord w = true) : ks.contains w = ls.contains w := by
  rw [Bool.eq_iff_iff, List.contains_iff_mem, List.contains_iff_mem]
  exact h.mem w hw

theorem SameWords.refl (ks : List String) : SameWords ks ks :=
  ⟨.rfl, fun _ _ => .rfl, fun _ _ => .rfl⟩

theorem Commented.sameWords_of {o : Option Node}
    (h : ∀ c, o = some c → c.Commented nowhere gone s) :
    SameWords (objectKeysOf (s.without gone) (o.map (without gone))).names
      (objectKeysOf s o).names := by
  cases o with
  | none => exact .refl _
  | some c => exact (h c rfl).sameWords

theorem Commented.text_beq (h : n.Commented nowhere gone s) (hc : n.child? f = some c) {w : String}
    (hw : isWord w = true) :
    ((c.without gone).text (s.without gone) == w) = (c.text s == w) := by
  rw [Bool.eq_iff_iff, beq_iff_eq, beq_iff_eq]
  exact h.text_word_child? hc hw

theorem Commented.text_mem (h : n.Commented nowhere gone s) (hc : c ∈ n.children)
    (hstays : c.isGone gone = false) {ws : List String} (hws : ∀ w ∈ ws, isWord w = true) :
    (c.without gone).text (s.without gone) ∈ ws ↔ c.text s ∈ ws := by
  refine ⟨fun hmem => ?_, fun hmem => ?_⟩
  · exact (h.text_word hc hstays (hws _ hmem)).1 rfl ▸ hmem
  · exact (h.text_word hc hstays (hws _ hmem)).2 rfl ▸ hmem

/-- **Whether the text of a child with a role is a certain word** does not depend on comments. -/
theorem Commented.textOf_word (h : n.Commented nowhere gone s) (f : Field) {w : String}
    (hw : isWord w = true) :
    textOf (s.without gone) ((n.without gone).child? f) = w ↔ textOf s (n.child? f) = w := by
  rw [child?_without]
  cases hc : n.child? f with
  | none => rfl
  | some c => exact h.text_word_child? hc hw

theorem Commented.firstArgument? (h : n.Commented nowhere gone s) (hc : n.firstArgument? = some c) :
    c.Commented nowhere gone s :=
  h.argument (List.mem_of_head? hc)

/-- The literal value of the first argument. -/
theorem Commented.firstLiteral (h : n.Commented nowhere gone s) :
    ((n.without gone).firstArgument?.bind fun c => c.literal? (s.without gone)) =
      n.firstArgument?.bind fun c => c.literal? s := by
  rw [firstArgument?_without]
  cases hc : n.firstArgument? with
  | none => rfl
  | some c => exact (h.firstArgument? hc).literal?_without

theorem Commented.sameWords_argument (h : n.Commented nowhere gone s) (i : Nat) :
    SameWords (objectKeysOf (s.without gone) (n.without gone).callArguments[i]?).names
      (objectKeysOf s n.callArguments[i]?).names := by
  rw [callArguments_without, List.getElem?_map]
  exact sameWords_of fun c hc => h.argument (List.mem_of_getElem? hc)

theorem Commented.pathOf_child? (h : n.Commented nowhere gone s) (f : Field) :
    (((n.without gone).child? f).bind fun c => c.path? (s.without gone)) =
      (n.child? f).bind fun c => c.path? s := by
  rw [child?_without]
  cases hc : n.child? f with
  | none => rfl
  | some c => exact (h.child? hc).path?_without

/-- **Whether two nodes that can be cited are the same** does not depend on comments. -/
theorem Commented.sameAs_without (hn : n.Commented nowhere gone s) (hc : c.Commented nowhere gone s)
    (hk : c.kind ∈ citable) :
    (n.without gone).sameAs (c.without gone) = n.sameAs c := by
  rw [Bool.eq_iff_iff]
  simp only [sameAs, kind_without, span_without, Bool.and_eq_true, beq_iff_eq]
  refine and_congr_right fun hkind => ⟨fun h => ?_, fun h => by rw [h]⟩
  exact Comments.span_inj (hn.tight n (mem_nodes_self n) (hkind ▸ hk))
    (hc.tight c (mem_nodes_self c) hk) h

end Node

namespace Shape

open Node

variable {gone : Comments} {s : Source} {n : Node} {v : Visit}

theorem pastComments_citing {holds : Source → Visit → Bool}
    (h : ∀ gone s v, Commented.AtVisit nowhere gone s v → v.node.isGone gone = false →
      holds (s.without gone) (v.without gone) = holds s v) :
    (citing holds).PastComments := by
  intro gone s v hv hstays
  rw [citing, citing, h gone s v hv hstays]
  split <;> rfl

/-! ## Tokens and users -/

theorem isAssignmentTarget_without (h : Commented.AtVisit nowhere gone s v)
    (hk : v.node.kind ∈ citable) :
    isAssignmentTarget (v.without gone) = isAssignmentTarget v := by
  rw [isAssignmentTarget, isAssignmentTarget, Visit.without]
  cases hp : v.parent with
  | none => rfl
  | some p =>
    simp only [Option.map_some, kind_without, child?_without]
    refine congrArg (and _) ?_
    cases hl : p.child? .left with
    | none => rfl
    | some left => exact ((h.parent p hp).child? hl).sameAs_without h.node hk

theorem reads_pastComments (segments : List Segment) : (reads segments).PastComments := by
  refine pastComments_citing fun gone s v h _ => ?_
  have hpath : (v.without gone).node.path? (s.without gone) = v.node.path? s :=
    h.node.path?_without
  have hkind : (v.without gone).node.kind = v.node.kind := kind_without
  rw [hpath, hkind]
  by_cases hk : v.node.kind = .memberExpression ∨ v.node.kind = .subscriptExpression
  · rw [isAssignmentTarget_without h (by obtain hk | hk := hk <;> simp [hk, citable])]
  · rw [beq_false_of_ne (not_or.1 hk).1, beq_false_of_ne (not_or.1 hk).2]
    rfl

theorem headerCall_pastComments (header : String) : (headerCall header).PastComments := by
  refine pastComments_citing fun gone s v h _ => ?_
  simp only [Visit.without, kind_without, h.node.calleePath_without, h.node.firstLiteral]

theorem isCookieSet_without (h : n.Commented nowhere gone s) :
    isCookieSet (s.without gone) (n.without gone) = isCookieSet s n := by
  simp only [isCookieSet, kind_without, h.calleePath_without]

theorem mentionsHttpOnly_without (h : n.Commented nowhere gone s) :
    mentionsHttpOnly (s.without gone) (n.without gone) = mentionsHttpOnly s n :=
  (h.sameWords_argument 2).contains (by decide)

theorem httpOnlyCookieSet_pastComments : httpOnlyCookieSet.PastComments := by
  refine pastComments_citing fun gone s v h _ => ?_
  simp only [Visit.without, isCookieSet_without h.node, mentionsHttpOnly_without h.node]

theorem tokenCookieSet_pastComments : tokenCookieSet.PastComments := by
  refine pastComments_citing fun gone s v h _ => ?_
  simp only [Visit.without, isCookieSet_without h.node, mentionsHttpOnly_without h.node,
    h.node.firstLiteral]

theorem cookieStoreGet_pastComments : cookieStoreGet.PastComments := by
  refine pastComments_citing fun gone s v h _ => ?_
  simp only [Visit.without, kind_without, h.node.calleeName_without, receiver?_without]
  refine congrArg (and _) ?_
  cases hr : v.node.receiver? with
  | none => rfl
  | some receiver =>
    simp only [Option.map_some, kind_without, callee?_without]
    refine congrArg (and _) ?_
    cases ht : receiver.callee? with
    | none => rfl
    | some target => exact (h.node.receiver? hr).text_beq ht (by decide)

theorem bearerExtractor_pastComments : bearerExtractor.PastComments := by
  refine pastComments_citing fun gone s v h _ => ?_
  simp only [Visit.without, kind_without, h.node.calleePath_without]

theorem webStorage_pastComments (store : String) (tokenKey : Bool) :
    (webStorage store tokenKey).PastComments := by
  refine pastComments_citing fun gone s v h _ => ?_
  simp only [Visit.without, kind_without, h.node.calleePath_without, h.node.firstLiteral]

theorem sessionMiddleware_pastComments : sessionMiddleware.PastComments := by
  refine pastComments_citing fun gone s v h _ => ?_
  simp only [Visit.without, kind_without, callee?_without, firstArgument?_without]
  refine congrArg₂ (fun a b => _ && a && b) ?_ ?_
  · cases ht : v.node.callee? with
    | none => rfl
    | some target =>
      exact congrArg₂ (· || ·) (h.node.text_beq ht (by decide)) (h.node.text_beq ht (by decide))
  · cases v.node.firstArgument? with
    | none => rfl
    | some first => exact congrArg (· == _) kind_without

theorem tokenQuery_pastComments : tokenQuery.PastComments := by
  refine pastComments_citing fun gone s v h _ => ?_
  simp only [Visit.without, kind_without, h.node.path?_without]

theorem setsUserContext_without (h : n.Commented nowhere gone s) :
    setsUserContext (s.without gone) (n.without gone) = setsUserContext s n := by
  have hright : SameWords
      (objectKeysOf (s.without gone) ((n.without gone).child? .right)).names
        (objectKeysOf s (n.child? .right)).names := by
    rw [child?_without]
    exact Commented.sameWords_of fun c => h.child?
  simp only [setsUserContext, h.pathOf_child?, hright.contains (w := "user") (by decide)]

theorem assignsUser_pastComments (label : String) : (assignsUser label).PastComments := by
  refine pastComments_citing fun gone s v h _ => ?_
  simp only [Visit.without, kind_without, h.node.pathOf_child?, setsUserContext_without h.node]

theorem readsUser_pastComments (label : String) : (readsUser label).PastComments := by
  refine pastComments_citing fun gone s v h _ => ?_
  have hpath : (v.without gone).node.path? (s.without gone) = v.node.path? s :=
    h.node.path?_without
  have hkind : (v.without gone).node.kind = v.node.kind := kind_without
  rw [hpath, hkind]
  by_cases hk : v.node.kind = .memberExpression
  · rw [isAssignmentTarget_without h (by simp [hk, citable])]
  · rw [beq_false_of_ne hk]
    rfl

end Shape
end Conventions
