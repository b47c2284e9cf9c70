import Conventions.Syntax.Call
import Conventions.Proofs.Syntax.Without

/-!
# Proofs/Syntax/Comments — reading a tree past its comments

`Node.Commented` says how comments can stand in a tree: between tokens and words, never inside one.
Then the readers of a tree find the same with and without them, if none comes first in a node that
is read by its first child (`readsFirst`): there the readers take the comment for what they look
for.
-/

namespace Conventions
namespace Node

/-! ## The nodes of a tree -/

mutual

/-- The nodes of a tree, all of them. -/
def nodes : Node → List Node
  | ⟨kind, field, span, children⟩ => ⟨kind, field, span, children⟩ :: nodesAll children

/-- The nodes of a forest. -/
def nodesAll : List Node → List Node
  | [] => []
  | n :: rest => n.nodes ++ nodesAll rest

end

/-- The nodes below a node. -/
def inner (n : Node) : List Node := nodesAll n.children

theorem nodes_eq (n : Node) : n.nodes = n :: n.inner := by
  cases n
  rfl

theorem mem_nodes_self (n : Node) : n ∈ n.nodes := by
  rw [nodes_eq]
  exact List.mem_cons_self

theorem nodes_subset_nodesAll {c : Node} {ns : List Node} (h : c ∈ ns) : c.nodes ⊆ nodesAll ns := by
  induction ns with
  | nil => cases h
  | cons d rest ih =>
    rw [nodesAll]
    obtain rfl | h := List.mem_cons.1 h
    · exact List.subset_append_left _ _
    · exact List.Subset.trans (ih h) (List.subset_append_right _ _)

theorem nodes_subset_inner {n c : Node} (h : c ∈ n.children) : c.nodes ⊆ n.inner :=
  nodes_subset_nodesAll h

theorem inner_subset_nodes (n : Node) : n.inner ⊆ n.nodes := by
  rw [nodes_eq]
  exact List.subset_cons_self _ _

/-! ## Where comments can stand -/

/-- Is a node a token, which nothing can stand in? -/
def isToken (n : Node) : Bool :=
  [Kind.identifier, .thisExpression, .propertyIdentifier, .shorthandPropertyIdentifier,
      .stringLiteral].contains n.kind
    || n.kind == .templateString && n.children.all (·.kind != .templateSubstitution)
    || n.field == some .property

/-- Is a text one word, perhaps with a line feed after it? -/
def isWord (text : String) : Bool :=
  let cs := if text.toList.getLast? = some '\n' then text.toList.dropLast else text.toList
  !cs.isEmpty && cs.all fun c => c.isAlphanum || c == '_' || c == '$'

/-- The kinds of the nodes that can be cited as a proof. -/
def citable : List Kind :=
  [.memberExpression, .subscriptExpression, .callExpression, .decorator, .assignmentExpression,
    .variableDeclarator, .tryStatement, .genericType, .catchClause, .throwStatement,
    .returnStatement] ++ Kind.functions

/-- The kinds of nodes that are read by their first child. -/
def firstReaders : List Kind :=
  [.parenthesizedExpression, .awaitExpression, .nonNullExpression, .returnStatement, .decorator,
    .genericType]

/-- **Is a node read by its first child**, whatever that child is? A generic type is so if none of
its children is its name. -/
def readsFirst (n : Node) : Bool :=
  firstReaders.contains n.kind && (n.kind != .genericType || (n.child? .name).isNone)

/-- **How comments stand in a tree.** They are written with a solidus and split neither a token nor
a word, and no node that can be cited begins or ends with one. In a node that is read by its first
child a comment comes first only if the kind of the node is one of those allowed. -/
structure Commented (allowed : Kind → Bool) (gone : Comments) (s : Source) (root : Node) :
    Prop where
  /-- Every comment is written with a solidus. -/
  solidus : ∀ e ∈ gone, 0x2F ∈ s.bytesOf e
  /-- A comment stands in a node, before it or after it. -/
  nested : ∀ n ∈ root.nodes, n.isGone gone = false → ∀ e ∈ gone,
    (n.span.start ≤ e.start ∧ e.stop ≤ n.span.stop) ∨ n.span.stop ≤ e.start ∨ e.stop ≤ n.span.start
  /-- No comment stands in a token. -/
  token : ∀ n ∈ root.nodes, n.isToken = true → gone.Spares n.span
  /-- No comment stands in a word. -/
  word : ∀ n ∈ root.inner, n.isGone gone = false →
    isWord ((n.without gone).text (s.without gone)) = true → gone.Spares n.span
  /-- What can be cited neither begins nor ends with a comment. -/
  tight : ∀ n ∈ root.nodes, n.kind ∈ citable → gone.Tight n.span
  /-- A comment comes first only where that is allowed. -/
  first : ∀ n ∈ root.nodes, n.readsFirst = true → ∀ c, n.first? = some c →
    c.isGone gone = true → allowed n.kind = true

/-- Where comments may come first in more kinds of nodes. -/
theorem Commented.allow {allowed allowed' : Kind → Bool} {gone : Comments} {s : Source}
    {root : Node} (h : root.Commented allowed gone s)
    (hk : ∀ k ∈ firstReaders, allowed k = true → allowed' k = true) :
    root.Commented allowed' gone s :=
  { h with
    first := fun n hn hreads c hc hgone => by
      refine hk n.kind ?_ (h.first n hn hreads c hc hgone)
      exact List.contains_iff_mem.1 (Bool.and_eq_true_iff.1 hreads).1 }

/-- No kind is allowed. -/
def nowhere : Kind → Bool := fun _ => false

section

variable {allowed : Kind → Bool} {gone : Comments} {s : Source} {n c : Node} {f : Field}

/-- How comments stand in a tree is how they stand in each part of it. -/
theorem Commented.child (h : n.Commented allowed gone s) (hc : c ∈ n.children) :
    c.Commented allowed gone s where
  solidus := h.solidus
  nested m hm := h.nested m (inner_subset_nodes n (nodes_subset_inner hc hm))
  token m hm := h.token m (inner_subset_nodes n (nodes_subset_inner hc hm))
  word m hm := h.word m (nodes_subset_inner hc (inner_subset_nodes c hm))
  tight m hm := h.tight m (inner_subset_nodes n (nodes_subset_inner hc hm))
  first m hm := h.first m (inner_subset_nodes n (nodes_subset_inner hc hm))

theorem Commented.child? (h : n.Commented allowed gone s) (hc : n.child? f = some c) :
    c.Commented allowed gone s :=
  h.child (mem_of_child? hc)

theorem Commented.first? (h : n.Commented allowed gone s) (hc : n.first? = some c) :
    c.Commented allowed gone s :=
  h.child (List.mem_of_head? hc)

/-- **Where nothing is allowed**, the first child that is read is no comment. -/
theorem Commented.first_stays (h : n.Commented nowhere gone s) (hn : n.readsFirst = true)
    (c : Node) (hc : n.first? = some c) : c.isGone gone = false := by
  cases hgone : c.isGone gone with
  | true => cases h.first n (mem_nodes_self n) hn c hc hgone
  | false => rfl

/-! ## Text -/

theorem text_without (h : gone.Spares n.span) :
    (n.without gone).text (s.without gone) = n.text s := by
  rw [text, text, span_without, Source.slice_without h]

theorem Commented.text_token (h : n.Commented allowed gone s) (hn : n.isToken = true) :
    (n.without gone).text (s.without gone) = n.text s :=
  text_without (h.token n (mem_nodes_self n) hn)

/-- A node that a comment touches shows its solidus. -/
theorem Commented.solidus_mem_text (h : n.Commented allowed gone s) (hn : n.isGone gone = false)
    (ht : ¬ gone.Spares n.span) : '/' ∈ (n.text s).toList := by
  obtain ⟨x, hstart, hstop, hx⟩ := Comments.exists_of_not_spares ht
  obtain ⟨e, he, hex, hxe⟩ := Comments.covers_iff.1 hx
  obtain ⟨hin, hout⟩ | hbefore | hafter := h.nested n (mem_nodes_self n) hn e he
  · rw [text, String.toList_ofList]
    exact Text.solidus_mem_decodeLossy _
      (Source.mem_bytesOf_of_within hin hout (h.solidus e he))
  · omega
  · omega

/-- The characters of a word. -/
theorem wordChar_of_isWord {w : String} (h : isWord w = true) {c : Char} (hc : c ∈ w.toList) :
    (c == '\n' || (c.isAlphanum || c == '_' || c == '$')) = true := by
  simp only [isWord, Bool.and_eq_true, List.all_eq_true] at h
  split at h
  case isTrue hlast =>
    obtain ⟨front, hfront⟩ := List.getLast?_eq_some_iff.1 hlast
    rw [hfront] at hc h
    obtain hc | hc := List.mem_append.1 hc
    · rw [Bool.or_eq_true]
      exact .inr (h.2 c (by simpa using hc))
    · obtain rfl := List.mem_singleton.1 hc
      rfl
  case isFalse =>
    rw [Bool.or_eq_true]
    exact .inr (h.2 c hc)

theorem not_solidus_of_isWord {w : String} (h : isWord w = true) : '/' ∉ w.toList :=
  fun hmem => absurd (wordChar_of_isWord h hmem) (by decide)

/-- **Whether a child is a certain word** does not depend on comments. -/
theorem Commented.text_word (h : n.Commented allowed gone s) (hc : c ∈ n.children)
    (hstays : c.isGone gone = false) {w : String} (hw : isWord w = true) :
    (c.without gone).text (s.without gone) = w ↔ c.text s = w := by
  by_cases hs : gone.Spares c.span
  · rw [text_without hs]
  · refine ⟨fun heq => ?_, fun heq => ?_⟩
    · exact absurd (h.word c (nodes_subset_inner hc (mem_nodes_self c)) hstays (heq ▸ hw)) hs
    · exact absurd (heq ▸ (h.child hc).solidus_mem_text hstays hs) (not_solidus_of_isWord hw)

theorem Commented.text_word_child? (h : n.Commented allowed gone s) (hc : n.child? f = some c)
    {w : String} (hw : isWord w = true) :
    (c.without gone).text (s.without gone) = w ↔ c.text s = w :=
  h.text_word (mem_of_child? hc) (isGone_of_field (field_of_child? hc)) hw

end
end Node
end Conventions
