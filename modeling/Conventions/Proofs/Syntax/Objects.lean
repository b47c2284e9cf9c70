import Conventions.Proofs.Syntax.Reading
import Mathlib.Data.List.Forall2

/-!
# Proofs/Syntax/Objects — the keys of an object

An object is read by writing its keys one after the other. `find?_foldl_set` says what is found
under a key in the end: the value that was written for it last. From this the keys and values of an
object are seen to be the same without comments (`Commented.find?_objectKeys`), as far as keys that
are words go.
-/

namespace Conventions
namespace Node

/-! ## Writing keys -/

theorem find?_cons_key (w : String) (e : String × Option Node) (es : List (String × Option Node)) :
    (e :: es).find? (·.1 == w) = if e.1 = w then some e else es.find? (·.1 == w) := by
  by_cases h : e.1 = w
  · rw [if_pos h, List.find?_cons_of_pos (by simpa using h)]
  · rw [if_neg h, List.find?_cons_of_neg (by simpa using h)]

theorem find?_set (key w : String) (value : Option Node) (ks : Keys) :
    (Keys.set key value ks).find? (·.1 == w) =
      if key = w then some (key, value) else ks.find? (·.1 == w) := by
  induction ks with
  | nil => exact find?_cons_key w (key, value) []
  | cons k rest ih =>
    rw [Keys.set]
    split
    case isTrue hk =>
      rw [find?_cons_key, find?_cons_key, hk]
      by_cases h : key = w
      · rw [if_pos h, if_pos h]
      · rw [if_neg h, if_neg h, if_neg h]
    case isFalse hk =>
      rw [find?_cons_key, find?_cons_key, ih]
      by_cases h : k.1 = w
      · rw [if_pos h, if_neg fun hw => hk (h.trans hw.symm), if_pos h]
      · rw [if_neg h, if_neg h]

/-- **Under each key stands what was written for it last.** -/
theorem find?_foldl_set (w : String) (es : List (String × Option Node)) (ks : Keys) :
    (es.foldl (fun ks e => Keys.set e.1 e.2 ks) ks).find? (·.1 == w) =
      (es.reverse.find? (·.1 == w)).or (ks.find? (·.1 == w)) := by
  induction es generalizing ks with
  | nil => rfl
  | cons e es ih =>
    rw [List.foldl_cons, ih, find?_set, List.reverse_cons, List.find?_append, Option.or_assoc]
    refine congrArg (Option.or _) ?_
    rw [find?_cons_key]
    split <;> rfl

/-- What is written in an object, key by key. -/
def written (s : Source) (n : Node) : List (String × Option Node) :=
  if n.kind = .object then n.children.filterMap (keyWritten? s) else []

theorem objectKeys_eq (s : Source) (n : Node) :
    n.objectKeys s = (n.written s).foldl (fun ks e => Keys.set e.1 e.2 ks) [] := by
  rw [objectKeys, written]
  split <;> rfl

theorem find?_objectKeys (s : Source) (n : Node) (w : String) :
    (n.objectKeys s).find? (·.1 == w) = (n.written s).reverse.find? (·.1 == w) := by
  rw [objectKeys_eq, find?_foldl_set]
  simp

theorem mem_names_iff {s : Source} {n : Node} {w : String} :
    w ∈ (n.objectKeys s).names ↔ ∃ e ∈ n.written s, e.1 = w := by
  have hfound : w ∈ (n.objectKeys s).names ↔
      ((n.objectKeys s).find? (·.1 == w)).isSome = true := by
    simp [Keys.names]
  rw [hfound, find?_objectKeys]
  simp

/-! ## Keys without comments -/

/-- **Two lists of keys agree on words**: they hold the same words, both hold something or neither
does, and both hold only words from a list or neither does. -/
structure SameWords (ks ls : List String) : Prop where
  nil : ks = [] ↔ ls = []
  mem : ∀ w, isWord w = true → (w ∈ ks ↔ w ∈ ls)
  all : ∀ ws : List String, (∀ w ∈ ws, isWord w = true) →
    ((∀ k ∈ ks, k ∈ ws) ↔ ∀ k ∈ ls, k ∈ ws)

/-- One member of an object is written without comments as it was with them. -/
structure SameMember (gone : Comments) (e e' : String × Option Node) : Prop where
  key : ∀ w, isWord w = true → (e'.1 = w ↔ e.1 = w)
  value : e'.2 = e.2.map (without gone)

variable {gone : Comments} {s : Source} {n c : Node}

theorem Commented.keyWritten?_without (h : n.Commented nowhere gone s) (hc : c ∈ n.children)
    (hstays : c.isGone gone = false) :
    (keyWritten? s c = none ∧ keyWritten? (s.without gone) (c.without gone) = none) ∨
      ∃ e e', keyWritten? s c = some e ∧
        keyWritten? (s.without gone) (c.without gone) = some e' ∧ SameMember gone e e' := by
  have hchild := h.child hc
  rw [keyWritten?, keyWritten?, kind_without]
  split
  case h_1 =>
    rw [child?_without, child?_without]
    cases hk : c.child? .key with
    | none => exact .inl ⟨rfl, rfl⟩
    | some key =>
      refine .inr ⟨_, _, rfl, rfl, ⟨fun w hw => ?_, rfl⟩⟩
      simp only [(hchild.child? hk).literal?_without]
      cases key.literal? s with
      | some value => rfl
      | none => exact hchild.text_word_child? hk hw
  case h_2 => exact .inr ⟨_, _, rfl, rfl, ⟨fun w hw => h.text_word hc hstays hw, rfl⟩⟩
  case h_3 => exact .inl ⟨rfl, rfl⟩

/-- What is written in an object is the same member by member. -/
theorem Commented.written_without (h : n.Commented nowhere gone s) :
    List.Forall₂ (SameMember gone) (n.written s) ((n.without gone).written (s.without gone)) := by
  rw [written, written, kind_without]
  split
  case isFalse => exact .nil
  case isTrue =>
    rw [children_without]
    have grow : ∀ cs ⊆ n.children, List.Forall₂ (SameMember gone) (cs.filterMap (keyWritten? s))
        (((cs.filter fun c => !c.isGone gone).map (without gone)).filterMap
          (keyWritten? (s.without gone))) := by
      intro cs hcs
      induction cs with
      | nil => exact .nil
      | cons c cs ih =>
        obtain ⟨hc, hcs⟩ := List.cons_subset.1 hcs
        cases hgone : c.isGone gone with
        | true =>
          have hnone : keyWritten? s c = none := by
            rw [keyWritten?, (isGone_iff.1 hgone).1]
          simpa [hgone, hnone] using ih hcs
        | false =>
          obtain ⟨hnone, hnone'⟩ | ⟨e, e', he, he', hsame⟩ := h.keyWritten?_without hc hgone
          · simpa [hgone, hnone, hnone'] using ih hcs
          · rw [List.filterMap_cons_some he, List.filter_cons_of_pos (by simp [hgone]), List.map_cons,
              List.filterMap_cons_some he']
            exact .cons hsame (ih hcs)
    exact grow n.children (List.Subset.refl _)

theorem find?_of_sameMember {es es' : List (String × Option Node)} {w : String}
    (hw : isWord w = true) (h : List.Forall₂ (SameMember gone) es es') :
    es'.find? (·.1 == w) =
      (es.find? (·.1 == w)).map fun e => (e.1, e.2.map (without gone)) := by
  induction h with
  | nil => rfl
  | @cons e e' es es' hsame _ ih =>
    rw [find?_cons_key, find?_cons_key, ih]
    by_cases he : e.1 = w
    · have he' : e'.1 = w := (hsame.key w hw).2 he
      rw [if_pos he, if_pos he', Option.map_some, he, ← he', ← hsame.value]
    · rw [if_neg he, if_neg fun h => he ((hsame.key w hw).1 h)]

/-- **What stands under a word in an object** does not depend on comments. -/
theorem Commented.find?_objectKeys (h : n.Commented nowhere gone s) {w : String}
    (hw : isWord w = true) :
    ((n.without gone).objectKeys (s.without gone)).find? (·.1 == w) =
      ((n.objectKeys s).find? (·.1 == w)).map fun e => (e.1, e.2.map (without gone)) := by
  rw [Node.find?_objectKeys, Node.find?_objectKeys]
  exact find?_of_sameMember hw (List.rel_reverse h.written_without)

theorem mem_of_sameMember {es es' : List (String × Option Node)} {w : String}
    (hw : isWord w = true) (h : List.Forall₂ (SameMember gone) es es') :
    (∃ e ∈ es', e.1 = w) ↔ ∃ e ∈ es, e.1 = w := by
  induction h with
  | nil => rfl
  | cons hmember _ ih => simp only [List.exists_mem_cons_iff, ih, hmember.key w hw]

theorem all_of_sameMember {es es' : List (String × Option Node)} {ws : List String}
    (hws : ∀ w ∈ ws, isWord w = true) (h : List.Forall₂ (SameMember gone) es es') :
    (∀ e ∈ es', e.1 ∈ ws) ↔ ∀ e ∈ es, e.1 ∈ ws := by
  induction h with
  | nil => rfl
  | @cons e e' _ _ hmember _ ih =>
    have hkey : e'.1 ∈ ws ↔ e.1 ∈ ws := by
      refine ⟨fun hmem => ?_, fun hmem => ?_⟩
      · exact (hmember.key e'.1 (hws _ hmem)).1 rfl ▸ hmem
      · exact (hmember.key e.1 (hws _ hmem)).2 rfl ▸ hmem
    simp only [List.forall_mem_cons, ih, hkey]

theorem names_eq_nil_iff {s : Source} {n : Node} :
    (n.objectKeys s).names = [] ↔ n.written s = [] := by
  simp only [List.eq_nil_iff_forall_not_mem, mem_names_iff]
  exact ⟨fun h e he => h e.1 ⟨e, he, rfl⟩, fun h w ⟨e, he, _⟩ => h e he⟩

theorem forall_names_iff {s : Source} {n : Node} {ws : List String} :
    (∀ k ∈ (n.objectKeys s).names, k ∈ ws) ↔ ∀ e ∈ n.written s, e.1 ∈ ws := by
  simp only [mem_names_iff]
  exact ⟨fun h e he => h e.1 ⟨e, he, rfl⟩, fun h k ⟨e, he, hk⟩ => hk ▸ h e he⟩

/-- **The keys of an object** agree on words without comments. -/
theorem Commented.sameWords (h : n.Commented nowhere gone s) :
    SameWords ((n.without gone).objectKeys (s.without gone)).names (n.objectKeys s).names := by
  have hsame := h.written_without
  refine ⟨?_, fun w hw => ?_, fun ws hws => ?_⟩
  · rw [names_eq_nil_iff, names_eq_nil_iff, ← List.length_eq_zero_iff, ← List.length_eq_zero_iff,
      hsame.length_eq]
  · rw [mem_names_iff, mem_names_iff, mem_of_sameMember hw hsame]
  · rw [forall_names_iff, forall_names_iff, all_of_sameMember hws hsame]

/-- A value that stands under a key is a part of the object. -/
theorem Commented.value {allowed : Kind → Bool} (h : n.Commented allowed gone s)
    {e : String × Option Node} {w : String}
    (he : (n.objectKeys s).find? (·.1 == w) = some e) {v : Node} (hv : e.2 = some v) :
    v.Commented allowed gone s := by
  rw [Node.find?_objectKeys] at he
  have hwritten : e ∈ n.written s := List.mem_reverse.1 (List.mem_of_find?_eq_some he)
  unfold written at hwritten
  split at hwritten
  case isFalse => cases hwritten
  case isTrue =>
    obtain ⟨member, hmember, hkey⟩ := List.mem_filterMap.1 hwritten
    unfold keyWritten? at hkey
    split at hkey
    case h_1 =>
      obtain ⟨key, -, rfl⟩ := Option.map_eq_some_iff.1 hkey
      exact (h.child hmember).child? hv
    case h_2 =>
      cases hkey
      cases hv
    case h_3 => cases hkey

end Node
end Conventions
