import Conventions.Cache.Basic
import Mathlib.Data.List.Nodup

/-!
# Proofs/Cache/Entries — what each operation does to the entries

One lemma for each operation says what stands under a key afterwards. Everything later about a
cache goes through these.
-/

namespace Conventions
namespace EvidenceCache

section Pairs

variable {α : Type} {k j : CacheKey} {a : α} {xs : List (CacheKey × α)}

@[simp] theorem paired?_nil : paired? k ([] : List (CacheKey × α)) = none := rfl

theorem paired?_cons (p : CacheKey × α) :
    paired? k (p :: xs) = if p.1 = k then some p.2 else paired? k xs := by
  by_cases h : p.1 = k <;> simp [paired?, h]

theorem paired?_append (ys : List (CacheKey × α)) :
    paired? k (xs ++ ys) = (paired? k xs).or (paired? k ys) := by
  rw [paired?, paired?, paired?, List.find?_append, Option.map_or]

theorem mem_of_paired? (h : paired? k xs = some a) : (k, a) ∈ xs := by
  obtain ⟨⟨l, b⟩, hfind, rfl⟩ := Option.map_eq_some_iff.1 h
  have hl : l = k := by simpa using List.find?_some hfind
  exact hl ▸ List.mem_of_find?_eq_some hfind

theorem paired?_eq_none_iff : paired? k xs = none ↔ ∀ a, (k, a) ∉ xs := by
  simp only [paired?, Option.map_eq_none_iff, List.find?_eq_none, beq_iff_eq]
  exact ⟨fun h a hmem => h (k, a) hmem rfl, fun h p hmem hp => h p.2 (hp ▸ hmem)⟩

/-- Pairing a key anew leaves the other keys alone. -/
theorem paired?_pair : paired? k (pair j a xs) = if j = k then some a else paired? k xs := by
  induction xs with
  | nil => rw [pair, paired?_cons]
  | cons p rest ih =>
    rw [pair]
    by_cases hp : p.1 = j
    · rw [if_pos hp, paired?_cons, paired?_cons, hp]
      split <;> rfl
    · rw [if_neg hp, paired?_cons, paired?_cons, ih]
      by_cases hk : p.1 = k
      · rw [if_pos hk, if_pos hk, if_neg fun h => hp (hk.trans h.symm)]
      · rw [if_neg hk, if_neg hk]

theorem paired?_filter (keep : CacheKey → Bool) :
    paired? k (xs.filter fun p => keep p.1) = if keep k then paired? k xs else none := by
  induction xs with
  | nil => simp
  | cons p rest ih =>
    rw [List.filter_cons, paired?_cons]
    by_cases hp : p.1 = k
    · subst hp
      cases hkeep : keep p.1 with
      | true => simp [paired?_cons]
      | false => simpa [hkeep] using ih
    · rw [if_neg hp, ← ih]
      split
      · rw [paired?_cons, if_neg hp]
      · rfl

theorem mem_keys_iff : k ∈ xs.map (·.1) ↔ ∃ a, paired? k xs = some a := by
  induction xs with
  | nil => simp
  | cons p rest ih =>
    rw [List.map_cons, List.mem_cons, paired?_cons, ih]
    by_cases hp : p.1 = k
    · simp [hp]
    · simp [hp, Ne.symm hp]

theorem paired?_eq_none_iff_notMem : paired? k xs = none ↔ k ∉ xs.map (·.1) := by
  rw [mem_keys_iff, ← Option.isSome_iff_exists, Bool.not_eq_true, Option.isSome_eq_false_iff,
    Option.isNone_iff_eq_none]

theorem keys_pair : k ∈ (pair j a xs).map (·.1) ↔ k = j ∨ k ∈ xs.map (·.1) := by
  rw [mem_keys_iff, mem_keys_iff, paired?_pair]
  by_cases hj : j = k
  · simp [hj]
  · simp [hj, Ne.symm hj]

/-- A key that is paired anew is there once. -/
theorem nodup_keys_pair (h : (xs.map (·.1)).Nodup) : ((pair j a xs).map (·.1)).Nodup := by
  induction xs with
  | nil => simp [pair]
  | cons p rest ih =>
    obtain ⟨hp, hrest⟩ := List.nodup_cons.1 h
    rw [pair]
    split
    case isTrue heq => exact List.nodup_cons.2 ⟨heq ▸ hp, hrest⟩
    case isFalse hne =>
      refine List.nodup_cons.2 ⟨fun hmem => ?_, ih hrest⟩
      exact (keys_pair.1 hmem).elim hne hp

/-- A key that is not there is paired at the end. -/
theorem pair_of_notMem (h : k ∉ xs.map (·.1)) : pair k a xs = xs ++ [(k, a)] := by
  induction xs with
  | nil => rfl
  | cons p rest ih =>
    rw [List.map_cons, List.mem_cons, not_or] at h
    rw [pair, if_neg (Ne.symm h.1), ih h.2, List.cons_append]

/-- Where every key is there once, it is paired with what stands beside it. -/
theorem paired?_eq_some_iff (h : (xs.map (·.1)).Nodup) : paired? k xs = some a ↔ (k, a) ∈ xs := by
  refine ⟨mem_of_paired?, fun hmem => ?_⟩
  obtain ⟨b, hb⟩ := mem_keys_iff.1 (List.mem_map.2 ⟨(k, a), hmem, rfl⟩)
  have heq := List.inj_on_of_nodup_map h hmem (mem_of_paired? hb) rfl
  rw [hb, (Prod.mk.inj heq).2]

end Pairs

variable {c : EvidenceCache} {k j : CacheKey} {e : CacheEntry}

@[simp] theorem entryOf?_empty : empty.entryOf? k = none := rfl

theorem entryOf?_withEntry :
    (c.withEntry j e).entryOf? k = if j = k then some e else c.entryOf? k :=
  paired?_pair

/-- **What stands under a key after loading** stood there before or is in one of the records. -/
theorem entryOf?_withEntries {records : List (CacheKey × CacheEntry)}
    (h : (c.withEntries records).entryOf? k = some e) :
    c.entryOf? k = some e ∨ (k, e) ∈ records := by
  induction records generalizing c with
  | nil => exact .inl h
  | cons r records ih =>
    obtain hc | hmem := ih (c := c.withEntry r.1 r.2) h
    · rw [entryOf?_withEntry] at hc
      split at hc
      case isTrue hk => exact .inr (by simp [← hk, ← Option.some.inj hc])
      case isFalse => exact .inl hc
    · exact .inr (List.mem_cons_of_mem _ hmem)

/-- **What stands under a key after loading** is what the records have for it, or what stood there
before. -/
theorem entryOf?_withEntries_eq {records : List (CacheKey × CacheEntry)}
    (h : (records.map (·.1)).Nodup) :
    (c.withEntries records).entryOf? k = (paired? k records).or (c.entryOf? k) := by
  induction records generalizing c with
  | nil => rfl
  | cons r records ih =>
    obtain ⟨hr, hrecords⟩ := List.nodup_cons.1 h
    have hrest := ih (c := c.withEntry r.1 r.2) hrecords
    rw [entryOf?_withEntry] at hrest
    rw [paired?_cons]
    refine Eq.trans hrest ?_
    by_cases hk : r.1 = k
    · have hnone : paired? k records = none := by
        rw [paired?_eq_none_iff]
        exact fun e he => hr (List.mem_map.2 ⟨(k, e), he, hk.symm⟩)
      rw [if_pos hk, if_pos hk, hnone]
      rfl
    · rw [if_neg hk, if_neg hk]

theorem isSome_entryOf?_withEntries (records : List (CacheKey × CacheEntry))
    (h : (c.entryOf? k).isSome) : ((c.withEntries records).entryOf? k).isSome := by
  induction records generalizing c with
  | nil => exact h
  | cons r records ih =>
    refine ih (c := c.withEntry r.1 r.2) ?_
    rw [entryOf?_withEntry]
    split
    · rfl
    · exact h

theorem entryOf?_complete {x : Extraction} {time : Binary64} :
    (c.complete j x time).entryOf? k =
      if j = k then some ⟨j.fingerprint, x, time⟩ else c.entryOf? k :=
  entryOf?_withEntry

theorem entryOf?_retain {root : String} {present : List String} :
    (c.retain root present).entryOf? k = if isStale root present k then none else c.entryOf? k := by
  rw [entryOf?, retain, paired?_filter fun l => !isStale root present l]
  cases isStale root present k <;> rfl

@[simp] theorem entryOf?_clear : c.clear.entryOf? k = none := rfl

/-- An entry that is looked up stands under the key. -/
theorem entryOf?_of_get {x : Extraction} (h : (c.get k).1 = some x) :
    ∃ e, c.entryOf? k = some e ∧ e.extraction = x := by
  unfold get at h
  split at h
  case h_1 e he => exact ⟨e, (Option.filter_eq_some_iff.1 he).1, Option.some.inj h⟩
  case h_2 => cases h

theorem entryOf?_get : (c.get k).2.entryOf? j = c.entryOf? j := by
  unfold get
  split <;> rfl

/-! ## Loading and looking up do not start or end anything -/

@[simp] theorem running_withEntries (records : List (CacheKey × CacheEntry)) :
    (c.withEntries records).running = c.running := by
  induction records generalizing c with
  | nil => rfl
  | cons r records ih => exact ih (c := c.withEntry r.1 r.2)

@[simp] theorem nextTicket_withEntries (records : List (CacheKey × CacheEntry)) :
    (c.withEntries records).nextTicket = c.nextTicket := by
  induction records generalizing c with
  | nil => rfl
  | cons r records ih => exact ih (c := c.withEntry r.1 r.2)

@[simp] theorem running_get : (c.get k).2.running = c.running := by
  unfold get
  split <;> rfl

@[simp] theorem nextTicket_get : (c.get k).2.nextTicket = c.nextTicket := by
  unfold get
  split <;> rfl

end EvidenceCache
end Conventions
