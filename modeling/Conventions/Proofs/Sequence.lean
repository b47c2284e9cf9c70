import Conventions.Sequence
import Mathlib.Data.List.Forall2
import Mathlib.Data.List.Nodup
import Mathlib.Data.String.Basic
import Mathlib.Order.Lattice

/-!
# Proofs/Sequence — the front of a list, repetition, extension, lists side by side, and sorting

A list that is sorted by a comparison is sorted by keys, if the comparison is that of the keys. Where
no key is there twice, sorting then forgets the order that the list was in (`mergeSort_eq_of_perm`).
Items with the same key stay in their order (`filter_mergeSort`), so that sorting by one key after another
sorts by both, and sorting two lists together is merging them sorted (`mergeSort_append`). Sorting by
texts puts a list into an order that its texts alone decide, if no text is there twice
(`Text.sortedBy_eq_of_perm`).
-/

namespace Conventions
namespace Sequence

variable {α κ : Type}

/-- **Erasing repetitions leaves none.** -/
theorem nodup_eraseDups [BEq α] [LawfulBEq α] : ∀ xs : List α, xs.eraseDups.Nodup
  | [] => by simp
  | x :: xs => by
    have : (xs.filter fun y => !y == x).length < (x :: xs).length :=
      Nat.lt_succ_of_le (List.length_filter_le ..)
    rw [List.eraseDups_cons, List.nodup_cons]
    exact ⟨by simp [List.mem_eraseDups], nodup_eraseDups _⟩
  termination_by xs => xs.length
  decreasing_by exact this

theorem eraseDups_sublist [BEq α] [LawfulBEq α] : ∀ xs : List α, xs.eraseDups.Sublist xs
  | [] => by simp
  | x :: xs => by
    have : (xs.filter fun y => !y == x).length < (x :: xs).length :=
      Nat.lt_succ_of_le (List.length_filter_le ..)
    rw [List.eraseDups_cons]
    exact ((eraseDups_sublist _).trans List.filter_sublist).cons_cons x
  termination_by xs => xs.length
  decreasing_by exact this

theorem eraseDups_perm [BEq α] [LawfulBEq α] {xs ys : List α} (h : xs.Perm ys) :
    xs.eraseDups.Perm ys.eraseDups := by
  classical
  refine (List.perm_ext_iff_of_nodup (nodup_eraseDups xs) (nodup_eraseDups ys)).2 fun x => ?_
  rw [List.mem_eraseDups, List.mem_eraseDups, h.mem_iff]

/-- **Where nothing is repeated** there is nothing to erase. -/
theorem eraseDups_of_nodup [BEq α] [LawfulBEq α] {xs : List α} (h : xs.Nodup) :
    xs.eraseDups = xs := by
  induction xs with
  | nil => rfl
  | cons x xs ih =>
    obtain ⟨hx, hxs⟩ := List.nodup_cons.1 h
    have hkept : (xs.filter fun y => !y == x) = xs := by
      refine List.filter_eq_self.2 fun y hy => ?_
      simpa using fun heq : y = x => hx (heq ▸ hy)
    rw [List.eraseDups_cons, hkept, ih hxs]

theorem firstItems_sublist (cap : Int) (xs : List α) : (firstItems cap xs).Sublist xs := by
  unfold firstItems
  split <;> exact List.take_sublist _ _

theorem length_firstItems {cap : Int} (h : 0 ≤ cap) (xs : List α) :
    ((firstItems cap xs).length : Int) = min cap xs.length := by
  rw [firstItems, if_pos h, List.length_take]
  omega

theorem countP_add_countP_not (p q : α → Bool) (xs : List α) :
    (xs.countP fun x => p x && q x) + (xs.countP fun x => p x && !q x) = xs.countP p := by
  induction xs with
  | nil => rfl
  | cons x xs ih =>
    rw [List.countP_cons, List.countP_cons, List.countP_cons, ← ih]
    cases p x <;> cases q x <;> simp <;> omega

/-- **What is listed beside a name** is found under it. -/
theorem find?_map_pair [BEq κ] [LawfulBEq κ] {f : κ → α} {ks : List κ} {k : κ} (h : k ∈ ks) :
    ((ks.map fun x => (x, f x)).find? fun e => e.1 == k) = some (k, f k) := by
  rw [List.find?_map, Function.comp_def]
  cases hfind : ks.find? fun x => x == k with
  | none => exact absurd (List.find?_eq_none.1 hfind k h) (by simp)
  | some x =>
    obtain rfl : x = k := by simpa using List.find?_some hfind
    rw [Option.map_some]

/-- **What is left of items without repetition** is one item at most, if all that are left agree. -/
theorem length_filter_le_one {f : α → κ} {p : α → Bool} {xs : List α} (hn : (xs.map f).Nodup)
    (h : ∀ a ∈ xs, ∀ b ∈ xs, p a = true → p b = true → f a = f b) : (xs.filter p).length ≤ 1 := by
  have hfew : ((xs.filter p).map f).Nodup := hn.sublist (List.filter_sublist.map f)
  have hsame : ∀ a ∈ xs.filter p, ∀ b ∈ xs.filter p, f a = f b := fun a ha b hb =>
    h a (List.mem_filter.1 ha).1 b (List.mem_filter.1 hb).1 (List.mem_filter.1 ha).2
      (List.mem_filter.1 hb).2
  match hxs : xs.filter p with
  | [] => exact Nat.zero_le 1
  | [_] => exact Nat.le_refl 1
  | a :: b :: rest =>
    rw [hxs] at hfew hsame
    have heq : f a = f b := hsame a List.mem_cons_self b (List.mem_cons_of_mem _ List.mem_cons_self)
    simp [heq] at hfew

/-- **Where what satisfies a condition comes first**, a list is what satisfies it and then the others. -/
theorem filter_append_filter_not {p : α → Bool} {xs : List α}
    (h : xs.Pairwise fun a b => p b = true → p a = true) :
    (xs.filter p ++ xs.filter fun x => !p x) = xs := by
  induction xs with
  | nil => rfl
  | cons x xs ih =>
    obtain ⟨hfirst, hrest⟩ := List.pairwise_cons.1 h
    by_cases hx : p x = true
    · rw [List.filter_cons_of_pos hx, List.filter_cons_of_neg (by simp [hx]), List.cons_append,
        ih hrest]
    · have hnone : xs.filter p = [] := List.filter_eq_nil_iff.2 fun y hy hpy => hx (hfirst y hy hpy)
      have hrest := ih hrest
      rw [hnone, List.nil_append] at hrest
      rw [List.filter_cons_of_neg hx, hnone, List.nil_append, List.filter_cons_of_pos (by simp [hx]),
        hrest]

/-! ## Lists with more items in between -/

/-- **A list with more items put in**, at any places. -/
inductive Extends (p : α → Prop) : List α → List α → Prop
  | nil : Extends p [] []
  | keep (x : α) {xs ys : List α} : Extends p xs ys → Extends p (x :: xs) (x :: ys)
  | insert {x : α} {xs ys : List α} : p x → Extends p xs ys → Extends p xs (x :: ys)

/-- What is put in is not seen by what leaves it out. -/
theorem Extends.filter_eq {p : α → Prop} {q : α → Bool} {xs ys : List α} (h : Extends p xs ys)
    (hq : ∀ x, p x → q x = false) : ys.filter q = xs.filter q := by
  induction h with
  | nil => rfl
  | keep x _ ih => rw [List.filter_cons, List.filter_cons, ih]
  | insert hx _ ih => rw [List.filter_cons_of_neg (by simp [hq _ hx]), ih]

/-! ## Lists side by side -/

theorem forall₂_congr {β : Type} {R S : α → β → Prop} {xs : List α} {ys : List β}
    (h : ∀ x ∈ xs, ∀ y, R x y ↔ S x y) : List.Forall₂ R xs ys ↔ List.Forall₂ S xs ys := by
  induction xs generalizing ys with
  | nil => rw [List.forall₂_nil_left_iff, List.forall₂_nil_left_iff]
  | cons x xs ih =>
    rw [List.forall_mem_cons] at h
    rw [List.forall₂_cons_left_iff, List.forall₂_cons_left_iff]
    exact exists₂_congr fun y ys => by rw [h.1 y, ih h.2]

theorem exists_of_mem_left {β : Type} {R : α → β → Prop} {xs : List α} {ys : List β}
    (h : List.Forall₂ R xs ys) {x : α} (hx : x ∈ xs) : ∃ y ∈ ys, R x y := by
  induction h with
  | nil => cases hx
  | cons hhead _ ih =>
    obtain rfl | hx := List.mem_cons.1 hx
    · exact ⟨_, List.mem_cons_self, hhead⟩
    · obtain ⟨y, hy, hR⟩ := ih hx
      exact ⟨y, List.mem_cons_of_mem _ hy, hR⟩

theorem exists_forall₂_iff {β : Type} {R : α → β → Prop} {xs : List α} :
    (∃ ys, List.Forall₂ R xs ys) ↔ ∀ x ∈ xs, ∃ y, R x y := by
  induction xs with
  | nil => simp
  | cons x xs ih =>
    rw [List.forall_mem_cons, ← ih]
    constructor
    · rintro ⟨_, _ | ⟨hy, hys⟩⟩
      exact ⟨⟨_, hy⟩, _, hys⟩
    · rintro ⟨⟨y, hy⟩, ys, hys⟩
      exact ⟨y :: ys, .cons hy hys⟩

/-- What stands beside the items of one of two lists can be found for both. -/
theorem exists_forall₂_of_forall₂ {β γ : Type} {R : α → β → Prop} {S : α → γ → Prop}
    {T : β → γ → Prop} {xs : List α} {ys : List β} (h : ∀ x y, R x y → ∃ z, S x z ∧ T y z)
    (hxy : List.Forall₂ R xs ys) : ∃ zs, List.Forall₂ S xs zs ∧ List.Forall₂ T ys zs := by
  induction hxy with
  | nil => exact ⟨[], .nil, .nil⟩
  | cons hhead _ ih =>
    obtain ⟨z, hS, hT⟩ := h _ _ hhead
    obtain ⟨zs, hSs, hTs⟩ := ih
    exact ⟨z :: zs, .cons hS hSs, .cons hT hTs⟩

/-- **Sorting asks no more than how the items of a list compare.** -/
theorem mergeSort_congr {r s : α → α → Bool} {xs : List α}
    (h : ∀ a ∈ xs, ∀ b ∈ xs, r a b = s a b) : xs.mergeSort r = xs.mergeSort s := by
  have hmap : (xs.mergeSort r).map id = (xs.map id).mergeSort s := List.map_mergeSort h
  rwa [List.map_id, List.map_id] at hmap

/-! ## Sorting by keys -/

section

variable [LinearOrder κ] {cmp : α → α → Ordering} {key : α → κ} {xs ys : List α}

theorem isLE_iff (h : ∀ a b, cmp a b = compare (key a) (key b)) {a b : α} :
    (cmp a b).isLE = true ↔ key a ≤ key b := by
  rw [h, Ordering.isLE_iff_ne_gt, ← Ne, compare_le_iff_le]

/-- **What is sorted** is in the order of its keys. -/
theorem pairwise_mergeSort (h : ∀ a b, cmp a b = compare (key a) (key b)) (xs : List α) :
    (xs.mergeSort fun a b => (cmp a b).isLE).Pairwise fun a b => key a ≤ key b := by
  refine (List.pairwise_mergeSort (fun a b c hab hbc => ?_) (fun a b => ?_) xs).imp
    fun hab => (isLE_iff h).1 hab
  · exact (isLE_iff h).2 (le_trans ((isLE_iff h).1 hab) ((isLE_iff h).1 hbc))
  · rw [Bool.or_eq_true, isLE_iff h, isLE_iff h]
    exact le_total _ _

/-- **Sorting forgets the order**, where no key is there twice. -/
theorem mergeSort_eq_of_perm (h : ∀ a b, cmp a b = compare (key a) (key b))
    (hnodup : (xs.map key).Nodup) (hperm : xs.Perm ys) :
    (xs.mergeSort fun a b => (cmp a b).isLE) = ys.mergeSort fun a b => (cmp a b).isLE := by
  have hsorted : (xs.mergeSort fun a b => (cmp a b).isLE).Perm
      (ys.mergeSort fun a b => (cmp a b).isLE) :=
    (List.mergeSort_perm ..).trans (hperm.trans (List.mergeSort_perm ..).symm)
  refine hsorted.eq_of_pairwise (fun a b ha hb hab hba => ?_) (pairwise_mergeSort h xs)
    (pairwise_mergeSort h ys)
  exact List.inj_on_of_nodup_map hnodup (List.mem_mergeSort.1 ha)
    (hperm.mem_iff.2 (List.mem_mergeSort.1 hb)) (le_antisymm hab hba)

/-- **Sorting and leaving some out** go together, where no key is there twice. -/
theorem filter_mergeSort_of_nodup (h : ∀ a b, cmp a b = compare (key a) (key b))
    (hnodup : (xs.map key).Nodup) (p : α → Bool) :
    (xs.mergeSort fun a b => (cmp a b).isLE).filter p =
      (xs.filter p).mergeSort fun a b => (cmp a b).isLE := by
  have hperm := (List.mergeSort_perm xs fun a b => (cmp a b).isLE).filter p
  refine (hperm.trans (List.mergeSort_perm ..).symm).eq_of_pairwise (fun a b ha hb hab hba => ?_)
    ((pairwise_mergeSort h xs).filter p) (pairwise_mergeSort h _)
  have hmem {x : α} (hx : x ∈ xs.filter p) : x ∈ xs := List.mem_of_mem_filter hx
  exact List.inj_on_of_nodup_map hnodup (hmem (hperm.mem_iff.1 ha))
    (hmem (List.mem_mergeSort.1 hb)) (le_antisymm hab hba)

/-- **Sorting keeps the order** of items that have the same key. -/
theorem filter_mergeSort (h : ∀ a b, cmp a b = compare (key a) (key b)) (xs : List α) (k : κ) :
    ((xs.mergeSort fun a b => (cmp a b).isLE).filter fun x => decide (key x = k)) =
      xs.filter fun x => decide (key x = k) := by
  have hperm := (List.mergeSort_perm xs fun a b => (cmp a b).isLE).filter fun x => decide (key x = k)
  have hequal : (xs.filter fun x => decide (key x = k)).Pairwise fun a b => (cmp a b).isLE = true := by
    refine List.pairwise_of_forall_mem_list fun a ha b hb => (isLE_iff h).2 (le_of_eq ?_)
    have ha : key a = k := by simpa using List.of_mem_filter ha
    have hb : key b = k := by simpa using List.of_mem_filter hb
    rw [ha, hb]
  have hsublist := List.sublist_mergeSort (fun a b c hab hbc => ?_) (fun a b => ?_) hequal
    List.filter_sublist
  · have hfilter := hsublist.filter fun x => decide (key x = k)
    rw [List.filter_filter, List.filter_congr fun x _ => Bool.and_self _] at hfilter
    exact (hfilter.eq_of_length hperm.length_eq.symm).symm
  · exact (isLE_iff h).2 (le_trans ((isLE_iff h).1 hab) ((isLE_iff h).1 hbc))
  · rw [Bool.or_eq_true, isLE_iff h, isLE_iff h]
    exact le_total _ _

/-- **What is in the order of its keys** is told by the items of each key, in their order. -/
theorem eq_of_filter_eq (hxs : xs.Pairwise fun a b => key a ≤ key b)
    (hys : ys.Pairwise fun a b => key a ≤ key b)
    (h : ∀ k, (xs.filter fun x => decide (key x = k)) = ys.filter fun x => decide (key x = k)) :
    xs = ys := by
  induction xs generalizing ys with
  | nil =>
    cases ys with
    | nil => rfl
    | cons y ys => exact absurd (h (key y)) (by simp)
  | cons x xs ih =>
    cases ys with
    | nil => exact absurd (h (key x)) (by simp)
    | cons y ys =>
      have hmem (z : α) : z ∈ x :: xs ↔ z ∈ y :: ys := by
        have hkey := iff_of_eq (congrArg (z ∈ ·) (h (key z)))
        simpa only [List.mem_filter, decide_true, and_true] using hkey
      obtain ⟨hfirst, hrest⟩ := List.pairwise_cons.1 hxs
      obtain ⟨hfirst', hrest'⟩ := List.pairwise_cons.1 hys
      -- each of the two first items is in the other list, so they have the same key
      have hle : key x ≤ key y := by
        obtain rfl | hy := List.mem_cons.1 ((hmem y).2 List.mem_cons_self)
        · exact le_rfl
        · exact hfirst y hy
      have hge : key y ≤ key x := by
        obtain rfl | hx := List.mem_cons.1 ((hmem x).1 List.mem_cons_self)
        · exact le_rfl
        · exact hfirst' x hx
      have hhead := h (key x)
      rw [List.filter_cons_of_pos (by simp),
        List.filter_cons_of_pos (by simpa using le_antisymm hge hle)] at hhead
      obtain rfl := (List.cons.inj hhead).1
      refine congrArg (x :: ·) (ih hrest hrest' fun k => ?_)
      have hk := h k
      rw [List.filter_cons, List.filter_cons] at hk
      split at hk
      · exact (List.cons.inj hk).2
      · exact hk

/-- **Merging** puts what one list has of a key before what the other has. -/
theorem filter_merge (h : ∀ a b, cmp a b = compare (key a) (key b))
    (hx : xs.Pairwise fun a b => key a ≤ key b) (k : κ) :
    ((xs.merge ys fun a b => (cmp a b).isLE).filter fun x => decide (key x = k)) =
      (xs.filter fun x => decide (key x = k)) ++ ys.filter fun x => decide (key x = k) := by
  induction xs generalizing ys with
  | nil => simp
  | cons x xs ih =>
    induction ys with
    | nil => simp
    | cons y ys ihy =>
      rw [List.cons_merge_cons]
      split
      case isTrue =>
        rw [List.filter_cons, ih hx.tail, List.filter_cons (x := x)]
        split <;> rfl
      case isFalse hgt =>
        rw [List.filter_cons, ihy, List.filter_cons (x := y)]
        split
        case isTrue hk =>
          -- all that the first list has left comes after this key
          have hnone : ((x :: xs).filter fun z => decide (key z = k)) = [] := by
            refine List.filter_eq_nil_iff.2 fun z hz hkz => hgt ((isLE_iff h).2 ?_)
            rw [of_decide_eq_true hk, ← of_decide_eq_true hkz]
            obtain rfl | hz := List.mem_cons.1 hz
            · exact le_rfl
            · exact List.rel_of_pairwise_cons hx hz
          rw [hnone, List.nil_append, List.nil_append]
        case isFalse => rfl

/-- **Sorting two lists together** is merging them sorted. -/
theorem mergeSort_append (h : ∀ a b, cmp a b = compare (key a) (key b)) (xs ys : List α) :
    ((xs ++ ys).mergeSort fun a b => (cmp a b).isLE) =
      (xs.mergeSort fun a b => (cmp a b).isLE).merge (ys.mergeSort fun a b => (cmp a b).isLE)
        fun a b => (cmp a b).isLE := by
  refine eq_of_filter_eq (pairwise_mergeSort h _) ?_ fun k => ?_
  · refine (List.pairwise_merge (fun a b c hab hbc => ?_) (fun a b => ?_) _ _ ?_ ?_).imp
      fun hab => (isLE_iff h).1 hab
    · exact (isLE_iff h).2 (le_trans ((isLE_iff h).1 hab) ((isLE_iff h).1 hbc))
    · rw [Bool.or_eq_true, isLE_iff h, isLE_iff h]
      exact le_total _ _
    · exact (pairwise_mergeSort h xs).imp fun hab => (isLE_iff h).2 hab
    · exact (pairwise_mergeSort h ys).imp fun hab => (isLE_iff h).2 hab
  · rw [filter_merge h (pairwise_mergeSort h xs), filter_mergeSort h, filter_mergeSort h,
      filter_mergeSort h, List.filter_append]

end

/-! ## Sorting by one key after another -/

section

variable {κ' : Type} [LinearOrder κ] [LinearOrder κ'] {cmp cmp' : α → α → Ordering} {key : α → κ}
  {key' : α → κ'} {xs ys : List α}

/-- **What is sorted by one key after another** is sorted by the last one, and by the first where the
last is the same. -/
theorem pairwise_mergeSort_mergeSort (h : ∀ a b, cmp a b = compare (key a) (key b))
    (h' : ∀ a b, cmp' a b = compare (key' a) (key' b)) (xs : List α) :
    ((xs.mergeSort fun a b => (cmp' a b).isLE).mergeSort fun a b => (cmp a b).isLE).Pairwise
      fun a b => key a < key b ∨ key a = key b ∧ key' a ≤ key' b := by
  refine List.pairwise_iff_forall_sublist.2 fun {a b} hab => ?_
  obtain hlt | heq :=
    (List.pairwise_iff_forall_sublist.1 (pairwise_mergeSort h _) hab).lt_or_eq
  · exact .inl hlt
  · have hsame := hab.filter fun x => decide (key x = key a)
    rw [filter_mergeSort h, List.filter_cons_of_pos (by simp), List.filter_cons_of_pos (by simp [heq]),
      List.filter_nil] at hsame
    refine .inr ⟨heq, ?_⟩
    exact List.pairwise_iff_forall_sublist.1 (pairwise_mergeSort h' _)
      (hsame.trans List.filter_sublist)

/-- **Sorting by one key after another forgets the order**, where no two items have both the same. -/
theorem mergeSort_mergeSort_eq_of_perm (h : ∀ a b, cmp a b = compare (key a) (key b))
    (h' : ∀ a b, cmp' a b = compare (key' a) (key' b))
    (hnodup : (xs.map fun x => (key x, key' x)).Nodup) (hperm : xs.Perm ys) :
    ((xs.mergeSort fun a b => (cmp' a b).isLE).mergeSort fun a b => (cmp a b).isLE) =
      (ys.mergeSort fun a b => (cmp' a b).isLE).mergeSort fun a b => (cmp a b).isLE := by
  have hsort (zs : List α) : ((zs.mergeSort fun a b => (cmp' a b).isLE).mergeSort fun a b =>
      (cmp a b).isLE).Perm zs := (List.mergeSort_perm ..).trans (List.mergeSort_perm ..)
  refine ((hsort xs).trans (hperm.trans (hsort ys).symm)).eq_of_pairwise
    (fun a b ha hb hab hba => ?_) (pairwise_mergeSort_mergeSort h h' xs)
    (pairwise_mergeSort_mergeSort h h' ys)
  refine List.inj_on_of_nodup_map hnodup ((hsort xs).mem_iff.1 ha)
    (hperm.mem_iff.2 ((hsort ys).mem_iff.1 hb)) ?_
  obtain hlt | ⟨heq, hle⟩ := hab
  · obtain hgt | ⟨heq, -⟩ := hba
    · exact absurd hlt hgt.not_gt
    · exact absurd heq hlt.ne'
  · obtain hgt | ⟨-, hge⟩ := hba
    · exact absurd heq hgt.ne'
    · exact Prod.ext heq (le_antisymm hle hge)

end

end Sequence

/-! ## Sorting by texts -/

namespace Text

variable {α : Type} {key : α → String} {xs ys : List α}

/-- **Sorting forgets the order**, where no text is there twice. -/
theorem sortedBy_eq_of_perm (h : xs.Perm ys) (hnodup : (xs.map key).Nodup) :
    sortedBy key xs = sortedBy key ys :=
  Sequence.mergeSort_eq_of_perm (fun _ _ => rfl) hnodup h

/-- **Sorting by one text after another forgets the order**, where no two values have both the same. -/
theorem sortedBy_sortedBy_eq_of_perm {key' : α → String} (h : xs.Perm ys)
    (hnodup : (xs.map fun x => (key x, key' x)).Nodup) :
    sortedBy key (sortedBy key' xs) = sortedBy key (sortedBy key' ys) :=
  Sequence.mergeSort_mergeSort_eq_of_perm (fun _ _ => rfl) (fun _ _ => rfl) hnodup h

/-- **Sorting and leaving some out** go together, where no text is there twice. -/
theorem sortedBy_filter (hnodup : (xs.map key).Nodup) (p : α → Bool) :
    (sortedBy key xs).filter p = sortedBy key (xs.filter p) :=
  Sequence.filter_mergeSort_of_nodup (fun _ _ => rfl) hnodup p

/-- The texts of sorted values are sorted. -/
theorem map_sortedBy (key : α → String) (xs : List α) :
    (sortedBy key xs).map key = sorted (xs.map key) :=
  List.map_mergeSort fun _ _ _ _ => rfl

theorem pairwise_sorted (xs : List String) : (sorted xs).Pairwise (· ≤ ·) :=
  Sequence.pairwise_mergeSort (fun _ _ => rfl) xs

/-- **Different texts** are sorted strictly. -/
theorem pairwise_lt_sorted {xs : List String} (h : xs.Nodup) : (sorted xs).Pairwise (· < ·) := by
  have hnodup : (sorted xs).Nodup := (List.mergeSort_perm ..).nodup_iff.2 h
  exact ((pairwise_sorted xs).and hnodup).imp fun hab => lt_of_le_of_ne hab.1 hab.2

/-- **Sorting texts forgets the order** that they were in. -/
theorem sorted_eq_of_perm {xs ys : List String} (h : xs.Perm ys) : sorted xs = sorted ys := by
  have hsort : (sorted xs).Perm (sorted ys) :=
    (List.mergeSort_perm ..).trans (h.trans (List.mergeSort_perm ..).symm)
  exact hsort.eq_of_pairwise (fun a b _ _ hab hba => le_antisymm hab hba) (pairwise_sorted xs)
    (pairwise_sorted ys)

theorem nodup_distinct (xs : List String) : (distinct xs).Nodup := Sequence.nodup_eraseDups _

/-- **The distinct texts** stand in order, each once. -/
theorem pairwise_distinct (xs : List String) : (distinct xs).Pairwise (· < ·) :=
  (((pairwise_sorted xs).sublist (Sequence.eraseDups_sublist _)).and (nodup_distinct xs)).imp
    fun hab => lt_of_le_of_ne hab.1 hab.2

theorem mem_distinct {x : String} {xs : List String} : x ∈ distinct xs ↔ x ∈ xs := by
  rw [distinct, List.mem_eraseDups, sorted, List.mem_mergeSort]

/-- **The distinct texts** are the same for lists with the same texts. -/
theorem distinct_congr {xs ys : List String} (h : ∀ x, x ∈ xs ↔ x ∈ ys) : distinct xs = distinct ys := by
  have hperm : (distinct xs).Perm (distinct ys) := by
    refine (List.perm_ext_iff_of_nodup (nodup_distinct xs) (nodup_distinct ys)).2 fun x => ?_
    rw [mem_distinct, mem_distinct, h]
  exact hperm.eq_of_pairwise (fun a b _ _ hab hba => absurd hab hba.not_gt) (pairwise_distinct xs)
    (pairwise_distinct ys)

theorem distinct_eq_of_perm {xs ys : List String} (h : xs.Perm ys) : distinct xs = distinct ys :=
  distinct_congr fun _ => h.mem_iff

/-- **Texts that are in order**, each once, stay as they are. -/
theorem distinct_of_sorted {xs : List String} (h : xs.Pairwise (· < ·)) : distinct xs = xs := by
  have hsorted : sorted xs = xs := List.mergeSort_of_pairwise <| h.imp fun hab =>
    Ordering.isLE_iff_ne_gt.2 (compare_le_iff_le.2 hab.le)
  rw [distinct, hsorted, Sequence.eraseDups_of_nodup (h.imp fun hab => hab.ne)]

end Text

end Conventions
