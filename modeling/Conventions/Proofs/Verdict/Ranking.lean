import Conventions.Proofs.Sequence
import Conventions.Verdict.Resolution
import Mathlib.Data.Prod.Lex
import Mathlib.Data.String.Basic

/-!
# Proofs/Verdict/Ranking — the order of the groups given does not matter

Groups are ranked by keys (`ranking_eq_compare`), and groups with different labels have different
keys. So the list that a decision is made on is the same for every order of the groups, and
the decision takes one group out of it and leaves the others where they are (`Chosen`).
-/

namespace Conventions

/-- **What ranks a group**: confidence and number of observations, the greater first, then the first
path and the label. -/
def LabelGroup.key (g : LabelGroup) : Int ×ₗ Int ×ₗ String ×ₗ String :=
  toLex (-g.confidence, toLex (-(g.evidenceCount : Int), toLex (g.firstPath, g.label)))

namespace Resolution

variable {threshold : Int} {a b : LabelGroup} {groups groups' : List LabelGroup}

/-! ## Keys -/

theorem compare_neg (i j : Int) : compare (-i) (-j) = compare j i := by
  simp only [compare, compareOfLessAndEq]
  grind

theorem compare_natCast (m n : Nat) : compare (m : Int) (n : Int) = compare m n := by
  simp only [compare, compareOfLessAndEq]
  grind

/-- **Groups are ranked by their keys.** -/
theorem ranking_eq_compare (a b : LabelGroup) : ranking a b = compare a.key b.key := by
  simp only [Prod.Lex.compare_def, compareLex, compareOn, LabelGroup.key, ofLex_toLex]
  rw [compare_neg, compare_neg, compare_natCast]
  rfl

theorem label_eq_of_key_eq (h : a.key = b.key) : a.label = b.label :=
  congrArg (fun k => (ofLex (ofLex (ofLex k).2).2).2) h

theorem nodup_keys (h : (groups.map (·.label)).Nodup) : (groups.map LabelGroup.key).Nodup :=
  (List.Nodup.of_map _ h).map_on fun _ ha _ hb hkey =>
    List.inj_on_of_nodup_map h ha hb (label_eq_of_key_eq hkey)

/-- Some groups, the first in the ranking first. -/
def ranked (groups : List LabelGroup) : List LabelGroup :=
  groups.mergeSort fun a b => (ranking a b).isLE

theorem ranked_perm (groups : List LabelGroup) : (ranked groups).Perm groups :=
  List.mergeSort_perm ..

theorem ranked_eq_of_perm (h : (groups.map (·.label)).Nodup) (hperm : groups.Perm groups') :
    ranked groups = ranked groups' :=
  Sequence.mergeSort_eq_of_perm ranking_eq_compare (nodup_keys h) hperm

/-- **Groups with different labels are ranked strictly.** -/
theorem pairwise_ranked (h : (groups.map (·.label)).Nodup) :
    (ranked groups).Pairwise fun a b => a.key < b.key := by
  have hle := Sequence.pairwise_mergeSort ranking_eq_compare groups
  have hne : (ranked groups).Pairwise fun a b => a.key ≠ b.key :=
    List.pairwise_map.1 ((((ranked_perm groups).map _).nodup_iff).2 (nodup_keys h))
  exact (hle.and hne).imp fun hab => lt_of_le_of_ne hab.1 hab.2

theorem resolve?_eq_ranked (threshold : Int) (groups : List LabelGroup) :
    resolve? threshold groups =
      (ranked groups).head?.map fun first => ofRanked threshold first (ranked groups).tail := by
  rw [resolve?, ranked]
  cases groups.mergeSort fun a b => (ranking a b).isLE <;> rfl

/-- Some groups have a first one in the ranking. -/
theorem exists_ranked (h : groups ≠ []) : ∃ first rest, ranked groups = first :: rest := by
  refine List.exists_cons_of_ne_nil fun hnil => h ?_
  exact List.nil_perm.1 (hnil ▸ ranked_perm groups)

theorem resolve?_of_ranked {first : LabelGroup} {rest : List LabelGroup}
    (h : ranked groups = first :: rest) :
    resolve? threshold groups = some (ofRanked threshold first rest) := by
  rw [resolve?_eq_ranked, h]
  rfl

theorem ne_nil_of_resolve? {r : Resolution} (h : resolve? threshold groups = some r) :
    groups ≠ [] := by
  rintro rfl
  rw [resolve?, List.mergeSort_nil] at h
  cases h

/-! ## Taking one out -/

/-- **An item with the others of a list**, in their order. -/
structure Chosen {α : Type} (xs : List α) (x : α) (others : List α) : Prop where
  perm : (x :: others).Perm xs
  sublist : others.Sublist xs

section

variable {α : Type} {x : α} {xs others : List α}

theorem Chosen.head (x : α) (xs : List α) : Chosen (x :: xs) x xs :=
  ⟨.refl _, List.sublist_cons_self x xs⟩

theorem Chosen.mem_others_iff (h : Chosen xs x others) (hxs : xs.Nodup) {y : α} :
    y ∈ others ↔ y ∈ xs ∧ y ≠ x := by
  have hnodup := List.nodup_cons.1 (h.perm.nodup_iff.2 hxs)
  rw [← h.perm.mem_iff, List.mem_cons]
  constructor
  · intro hy
    exact ⟨.inr hy, fun heq => hnodup.1 (heq ▸ hy)⟩
  · rintro ⟨hy, hne⟩
    exact hy.resolve_left hne

theorem chosen_of_mem_picks (h : (x, others) ∈ picks xs) : Chosen xs x others := by
  induction xs generalizing x others with
  | nil => cases h
  | cons y ys ih =>
    obtain h | h := List.mem_cons.1 h
    · cases h
      exact .head ..
    · obtain ⟨⟨z, rest⟩, hz, heq⟩ := List.mem_map.1 h
      cases heq
      obtain ⟨hperm, hsublist⟩ := ih hz
      exact ⟨(List.Perm.swap ..).trans (hperm.cons y), hsublist.cons_cons y⟩

/-- Every item can be taken out. -/
theorem exists_mem_picks (h : x ∈ xs) : ∃ others, (x, others) ∈ picks xs := by
  induction xs with
  | nil => cases h
  | cons y ys ih =>
    obtain rfl | h := List.mem_cons.1 h
    · exact ⟨ys, List.mem_cons_self⟩
    · obtain ⟨others, hmem⟩ := ih h
      exact ⟨y :: others, List.mem_cons_of_mem _ (List.mem_map.2 ⟨_, hmem, rfl⟩)⟩

end

/-- **A decision takes out the winner** and leaves the others in the order of their ranking. -/
theorem chosen_ofRanked (threshold : Int) (first : LabelGroup) (rest : List LabelGroup) :
    Chosen (first :: rest) (ofRanked threshold first rest).winner
      (ofRanked threshold first rest).rejected := by
  cases rest with
  | nil => exact .head first []
  | cons second others =>
    simp only [ofRanked]
    split
    · exact .head ..
    split
    · cases hnewest : newest? threshold (first :: second :: others) with
      | none => exact .head ..
      | some pick => exact chosen_of_mem_picks (List.mem_of_find?_eq_some hnewest)
    · exact .head ..

/-! ## Decisions -/

/-- **There is a decision between some groups**, for one of them. -/
theorem exists_chosen (threshold : Int) (h : groups ≠ []) :
    ∃ r, resolve? threshold groups = some r ∧ Chosen (ranked groups) r.winner r.rejected := by
  obtain ⟨first, rest, hranked⟩ := exists_ranked h
  exact ⟨_, resolve?_of_ranked hranked, hranked ▸ chosen_ofRanked threshold first rest⟩

/-- **The order of the groups does not matter**: among groups with different labels the decision is
the same in whatever order they are given. It keeps every group once, and those that are rejected
are in the strict order of their ranking. -/
theorem resolve?_regardless_of_order (threshold : Int) (groups : List LabelGroup)
    (hne : groups ≠ []) (hlabels : (groups.map (·.label)).Nodup) :
    ∃ r, (∀ groups', groups'.Perm groups → resolve? threshold groups' = some r) ∧
      (r.winner :: r.rejected).Perm groups ∧ r.rejected.Pairwise fun a b => a.key < b.key := by
  obtain ⟨r, hr, hchosen⟩ := exists_chosen threshold hne
  refine ⟨r, fun groups' hperm => ?_, hchosen.perm.trans (ranked_perm groups),
    (pairwise_ranked hlabels).sublist hchosen.sublist⟩
  rw [resolve?_eq_ranked, ← ranked_eq_of_perm hlabels hperm.symm, ← resolve?_eq_ranked, hr]

/-- Two groups that differ in their labels alone, in both orders. -/
theorem resolve?_regardless_of_order_of_twins :
    let groups : List LabelGroup :=
      [⟨"session", [default], 40, 1, .zero, .zero, "a.js"⟩,
        ⟨"cookie", [default], 40, 1, .zero, .zero, "a.js"⟩]
    groups ≠ [] ∧ (groups.map (·.label)).Nodup ∧
      ∃ r, (∀ groups', groups'.Perm groups → resolve? 15 groups' = some r) ∧
        (r.winner :: r.rejected).Perm groups ∧ r.rejected.Pairwise fun a b => a.key < b.key :=
  ⟨by decide, by decide, resolve?_regardless_of_order 15 _ (by decide) (by decide)⟩

end Resolution
end Conventions
