import Mathlib
import Conventions.Proofs.Syntax.Reading

/-!
# Proofs/Syntax/MemberPath — member paths are read back

A member path is written as a chain: a root, and around it one link for each segment, which is the name
of a property or a literal in a subscript; links that assert that something is not null add no segment
(`Link`, `WritesPath`). Reading takes off one link after the other (`Link.path?_eq`), so what a node
writes is read back (`WritesPath.path?_eq`). Nothing is read exactly if the spine of the node, which leads
from each link to what it is around, meets a node that breaks the path (`path?_eq_none_iff`): a computed
subscript, an end that is no root, or a link without its name or its index.
-/

namespace Conventions
namespace Node

variable {s : Source} {n inner c : Node} {content : String} {added segments : List String}

/-! ## Literals -/

/-- Is the value of a node spelled out: is it a string, or a template without substitutions? -/
def IsLiteral (n : Node) : Prop :=
  n.kind = .stringLiteral ∨
    n.kind = .templateString ∧ ∀ c ∈ n.children, c.kind ≠ .templateSubstitution

/-- **A literal quotes a text**, which stands between the first and the last character of its own. -/
structure Quotes (s : Source) (n : Node) (content : String) : Prop where
  literal : n.IsLiteral
  delimited : ∃ first last, s.slice n.span = first :: content.toList ++ [last]

theorem isLiteral_iff : n.IsLiteral ↔ n.kind = .stringLiteral ∨
    (n.kind = .templateString ∧ n.children.all fun c => c.kind != .templateSubstitution) := by
  simp only [IsLiteral, List.all_eq_true, bne_iff_ne]

theorem literal?_eq_none_iff : n.literal? s = none ↔ ¬ n.IsLiteral := by
  rw [isLiteral_iff, literal?]
  split
  case isTrue h => simp only [reduceCtorEq, h, not_true]
  case isFalse h => simp only [h, not_false_iff]

theorem Quotes.literal?_eq (h : n.Quotes s content) : n.literal? s = some content := by
  obtain ⟨first, last, htext⟩ := h.delimited
  rw [literal?, if_pos (isLiteral_iff.1 h.literal), htext, List.cons_append, List.drop_one,
    List.tail_cons, List.dropLast_concat, String.ofList_toList]

/-! ## Roots and links -/

/-- The kinds of nodes that a member path begins with. -/
def pathRoots : List Kind := [.identifier, .thisExpression, .propertyIdentifier]

/-- What a link is around; any other node is around nothing, and the path ends there. -/
def front? (n : Node) : Option Node :=
  match n.kind with
  | .memberExpression | .subscriptExpression => n.child? .object
  | .nonNullExpression => n.first?
  | _ => none

/-- What a link adds to the path. -/
def added? (s : Source) (n : Node) : Option (List String) :=
  match n.kind with
  | .memberExpression => (n.child? .property).map fun property => [property.text s]
  | .subscriptExpression => ((n.child? .index).bind (literal? s)).map fun segment => [segment]
  | .nonNullExpression => some []
  | _ => none

theorem size_lt_of_front? (h : n.front? = some c) : c.size < n.size := by
  unfold front? at h
  split at h
  case h_1 | h_2 => exact size_lt_of_child? h
  case h_3 => exact size_lt_of_first? h
  case h_4 => cases h

theorem not_root_of_front? (h : n.front? = some c) : n.kind ∉ pathRoots := by
  intro hroot
  simp only [pathRoots, List.mem_cons, List.not_mem_nil, or_false] at hroot
  obtain hk | hk | hk := hroot <;> simp only [front?, hk, reduceCtorEq] at h

theorem path?_root (s : Source) (hroot : n.kind ∈ pathRoots) : n.path? s = some [n.text s] := by
  simp only [pathRoots, List.mem_cons, List.not_mem_nil, or_false] at hroot
  obtain hk | hk | hk := hroot <;> rw [path?_eq, hk]

/-- **A path is read link by link**, from its end to its root. -/
theorem path?_link (s : Source) (hroot : n.kind ∉ pathRoots) : n.path? s =
    (n.added? s).bind fun added => n.front?.bind fun c => (c.path? s).map (· ++ added) := by
  rw [path?_eq]
  unfold added? front?
  split
  case h_1 hk | h_2 hk | h_3 hk => exact absurd (by simp [hk, pathRoots]) hroot
  case h_4 hk => cases n.child? .property <;> simp [hk]
  case h_5 hk => cases (n.child? .index).bind (literal? s) <;> simp [hk]
  case h_6 hk => simp [hk]
  case h_7 hmember hsubscript hnonNull =>
    split
    case h_1 | h_2 | h_3 => contradiction
    case h_4 => rfl

/-! ## What a node writes -/

/-- **One link of a member path**: a node, what it is around, and the segments that it adds. -/
inductive Link (s : Source) (n inner : Node) : List String → Prop
  | name {property : Node} (hk : n.kind = .memberExpression) (hobject : n.child? .object = some inner)
      (hproperty : n.child? .property = some property) : Link s n inner [property.text s]
  | literal {index : Node} {content : String} (hk : n.kind = .subscriptExpression)
      (hobject : n.child? .object = some inner) (hindex : n.child? .index = some index)
      (hcontent : index.Quotes s content) : Link s n inner [content]
  | nonNull (hk : n.kind = .nonNullExpression) (hfirst : n.first? = some inner) : Link s n inner []

/-- **A node writes a member path**: it is the root, or a link around a node that writes the front. -/
inductive WritesPath (s : Source) : Node → List String → Prop
  | root {n : Node} (hroot : n.kind ∈ pathRoots) : WritesPath s n [n.text s]
  | link {n inner : Node} {front added : List String} (h : n.Link s inner added)
      (hfront : WritesPath s inner front) : WritesPath s n (front ++ added)

theorem Link.front?_eq (h : n.Link s inner added) : n.front? = some inner := by
  cases h with
  | name hk hobject | literal hk hobject => simp only [front?, hk, hobject]
  | nonNull hk hfirst => simp only [front?, hk, hfirst]

theorem Link.added?_eq (h : n.Link s inner added) : n.added? s = some added := by
  cases h with
  | name hk _ hproperty => simp only [added?, hk, hproperty, Option.map_some]
  | literal hk _ hindex hcontent =>
    simp only [added?, hk, hindex, Option.bind_some, hcontent.literal?_eq, Option.map_some]
  | nonNull hk => simp only [added?, hk]

/-- **A link adds its segments** at the end of the path. -/
theorem Link.path?_eq (h : n.Link s inner added) :
    n.path? s = (inner.path? s).map (· ++ added) := by
  rw [path?_link s (not_root_of_front? h.front?_eq), h.added?_eq, h.front?_eq, Option.bind_some,
    Option.bind_some]

/-- **What is written is read back.** -/
theorem WritesPath.path?_eq (h : n.WritesPath s segments) : n.path? s = some segments := by
  induction h with
  | root hroot => exact path?_root s hroot
  | link h _ ih => rw [h.path?_eq, ih, Option.map_some]

/-! ## What breaks a path -/

/-- **A node breaks a member path**: its subscript is computed, the spine ends in it although it is no
root, or it is a link without its name or its index. -/
inductive BreaksPath (n : Node) : Prop
  | computed {index : Node} (hk : n.kind = .subscriptExpression)
      (hindex : n.child? .index = some index) (hliteral : ¬ index.IsLiteral)
  | ends (hroot : n.kind ∉ pathRoots) (hfront : n.front? = none)
  | nameless (hk : n.kind = .memberExpression) (hproperty : n.child? .property = none)
  | indexless (hk : n.kind = .subscriptExpression) (hindex : n.child? .index = none)

/-- **A node stands on the spine** of another: one comes to it from link to link. -/
def OnSpine (n m : Node) : Prop := Relation.ReflTransGen (fun a b => a.front? = some b) n m

/-- A link that adds nothing it could name is computed or lacks its name or its index. -/
theorem breaksPath_of_added? (hc : n.front? = some c) (h : n.added? s = none) : n.BreaksPath := by
  unfold added? at h
  split at h
  case h_1 hk => exact .nameless hk (Option.map_eq_none_iff.1 h)
  case h_2 hk =>
    cases hindex : n.child? .index with
    | none => exact .indexless hk hindex
    | some index =>
      rw [hindex, Option.bind_some, Option.map_eq_none_iff] at h
      exact .computed hk hindex (literal?_eq_none_iff.1 h)
  case h_3 => cases h
  case h_4 hmember hsubscript hnonNull =>
    unfold front? at hc
    split at hc <;> contradiction

/-- **Just these nodes** add nothing to a path, or have nothing to go on with. -/
theorem breaksPath_iff (s : Source) :
    n.BreaksPath ↔ n.kind ∉ pathRoots ∧ (n.added? s = none ∨ n.front? = none) := by
  constructor
  · intro h
    cases h with
    | computed hk hindex hliteral =>
      refine ⟨by simp [hk, pathRoots], .inl ?_⟩
      simp only [added?, hk, hindex, Option.bind_some, literal?_eq_none_iff.2 hliteral, Option.map_none]
    | ends hroot hfront => exact ⟨hroot, .inr hfront⟩
    | nameless hk hproperty =>
      refine ⟨by simp [hk, pathRoots], .inl ?_⟩
      simp only [added?, hk, hproperty, Option.map_none]
    | indexless hk hindex =>
      refine ⟨by simp [hk, pathRoots], .inl ?_⟩
      simp only [added?, hk, hindex, Option.bind_none, Option.map_none]
  · rintro ⟨hroot, h⟩
    cases hfront : n.front? with
    | none => exact .ends hroot hfront
    | some c =>
      simp only [hfront, reduceCtorEq, or_false] at h
      exact breaksPath_of_added? hfront h

/-- **Nothing is read** off a node that breaks the path, nor if nothing is read off what it is around. -/
theorem path?_eq_none_iff_link :
    n.path? s = none ↔ n.BreaksPath ∨ ∃ c, n.front? = some c ∧ c.path? s = none := by
  rw [breaksPath_iff s]
  by_cases hroot : n.kind ∈ pathRoots
  · have hfront : n.front? = none := Option.eq_none_iff_forall_ne_some.2 fun c hc =>
      not_root_of_front? hc hroot
    simp [path?_root s hroot, hroot, hfront]
  · rw [path?_link s hroot]
    cases n.added? s with
    | none => simp [hroot]
    | some added => cases n.front? <;> simp [hroot]

theorem exists_breaksPath {n : Node} (h : n.path? s = none) : ∃ m, n.OnSpine m ∧ m.BreaksPath := by
  -- the path breaks here, or further down the spine, where the nodes are smaller
  obtain hbreaks | ⟨c, hc, hnone⟩ := path?_eq_none_iff_link.1 h
  · exact ⟨n, .refl, hbreaks⟩
  · have := size_lt_of_front? hc
    obtain ⟨m, hm, hbreaks⟩ := exists_breaksPath hnone
    exact ⟨m, hm.head hc, hbreaks⟩
  termination_by n.size

theorem OnSpine.path?_eq_none {m : Node} (h : n.OnSpine m) (hm : m.path? s = none) :
    n.path? s = none := by
  induction h using Relation.ReflTransGen.head_induction_on with
  | refl => exact hm
  | head hc _ ih => exact path?_eq_none_iff_link.2 (.inr ⟨_, hc, ih⟩)

/-- **Nothing is read exactly if the spine breaks.** -/
theorem path?_eq_none_iff : n.path? s = none ↔ ∃ m, n.OnSpine m ∧ m.BreaksPath := by
  constructor
  · exact exists_breaksPath
  · rintro ⟨m, hm, hbreaks⟩
    exact hm.path?_eq_none (path?_eq_none_iff_link.2 (.inl hbreaks))

/-- **Member paths are read back.** Whatever a node writes, by roots, names, literal subscripts and
assertions in any mixture, is what is read off it; and nothing is read off it exactly if a node on its
spine breaks the path, as each computed subscript does and each end that is no root. -/
theorem path?_reads_back (s : Source) (n : Node) :
    (∀ segments, n.WritesPath s segments → n.path? s = some segments) ∧
    (n.path? s = none ↔ ∃ m, n.OnSpine m ∧ m.BreaksPath) :=
  ⟨fun _ => WritesPath.path?_eq, path?_eq_none_iff⟩

/-- The file of `spelledOut` and `computedLast`. -/
def spelledFile : Source := ⟨"this.req!['headers']![`x y`]![i]".toUTF8⟩

/-- The key `'headers'`. -/
def quotedKey : Node :=
  ⟨.stringLiteral, some .index, ⟨10, 19⟩, [⟨.other "string_fragment", none, ⟨11, 18⟩, []⟩]⟩

/-- The key `x y`, as a template. -/
def templateKey : Node :=
  ⟨.templateString, some .index, ⟨22, 27⟩, [⟨.other "string_fragment", none, ⟨23, 26⟩, []⟩]⟩

/-- ``this.req!['headers']![`x y`]!`` -/
def spelledOut : Node :=
  ⟨.nonNullExpression, some .object, ⟨0, 29⟩,
    [⟨.subscriptExpression, none, ⟨0, 28⟩,
      [⟨.nonNullExpression, some .object, ⟨0, 21⟩,
          [⟨.subscriptExpression, none, ⟨0, 20⟩,
            [⟨.nonNullExpression, some .object, ⟨0, 9⟩,
                [⟨.memberExpression, none, ⟨0, 8⟩,
                  [⟨.thisExpression, some .object, ⟨0, 4⟩, []⟩,
                    ⟨.propertyIdentifier, some .property, ⟨5, 8⟩, []⟩]⟩]⟩,
              quotedKey]⟩]⟩,
        templateKey]⟩]⟩

/-- ``this.req!['headers']![`x y`]![i]`` -/
def computedLast : Node :=
  ⟨.subscriptExpression, none, ⟨0, 32⟩, [spelledOut, ⟨.identifier, some .index, ⟨30, 31⟩, []⟩]⟩

theorem writesPath_spelledOut :
    spelledOut.WritesPath spelledFile ["this", "req", "headers", "x y"] := by
  have hkey : quotedKey.Quotes spelledFile "headers" := ⟨.inl rfl, '\'', '\'', by cbv⟩
  have htemplate : templateKey.Quotes spelledFile "x y" :=
    ⟨.inr ⟨rfl, by simp [templateKey]⟩, '\x60', '\x60', by cbv⟩
  have hroot : Node.text spelledFile ⟨.thisExpression, some .object, ⟨0, 4⟩, []⟩ = "this" := by cbv
  have hname : Node.text spelledFile ⟨.propertyIdentifier, some .property, ⟨5, 8⟩, []⟩ = "req" := by cbv
  have hlinks : ["this", "req", "headers", "x y"] =
    ["this"] ++ ["req"] ++ [] ++ ["headers"] ++ [] ++ ["x y"] ++ [] := rfl
  rw [hlinks, ← hroot, ← hname]
  exact .link (.nonNull rfl rfl) <| .link (.literal rfl rfl rfl htemplate) <|
    .link (.nonNull rfl rfl) <| .link (.literal rfl rfl rfl hkey) <|
    .link (.nonNull rfl rfl) <| .link (.name rfl rfl rfl) <| .root (.tail _ (.head _))

theorem breaksPath_computedLast : computedLast.BreaksPath :=
  .computed rfl rfl (by simp [IsLiteral])

theorem path?_reads_back_mixed :
    spelledOut.WritesPath spelledFile ["this", "req", "headers", "x y"] ∧
      spelledOut.path? spelledFile = some ["this", "req", "headers", "x y"] ∧
      computedLast.BreaksPath ∧ computedLast.path? spelledFile = none :=
  ⟨writesPath_spelledOut, (path?_reads_back spelledFile spelledOut).1 _ writesPath_spelledOut,
    breaksPath_computedLast,
    (path?_reads_back spelledFile computedLast).2.2 ⟨_, .refl, breaksPath_computedLast⟩⟩

/-- A name that begins a path need not be an identifier: the name of a property is read as one, here at
the front of `req.cookies`. -/
theorem path?_begins_with_property : ¬ ∀ (s : Source) (n m : Node), n.OnSpine m → m.front? = none →
    m.kind ∉ [.identifier, .thisExpression] → n.path? s = none := by
  intro h
  let first : Node := ⟨.propertyIdentifier, some .object, ⟨0, 3⟩, []⟩
  let access : Node :=
    ⟨.memberExpression, none, ⟨0, 11⟩, [first, ⟨.propertyIdentifier, some .property, ⟨4, 11⟩, []⟩]⟩
  have hread : access.path? ⟨"req.cookies".toUTF8⟩ = some ["req", "cookies"] := by cbv
  rw [h _ access first (.single rfl) rfl (by decide)] at hread
  cases hread

end Node
end Conventions
