import Conventions.Proofs.Cache.Load

/-!
# Proofs/Cache/Keyed — entries stand under the keys that they belong to

Every operation on a cache keeps two things: no key is there twice, and an entry has the fingerprint
of its key (`Keyed`). So they hold of every cache that operations have made (`Made.keyed`), whatever
was loaded into it.
-/

namespace Conventions
namespace EvidenceCache

/-- **Entries stand under the keys that they belong to**, each key once. -/
structure Keyed (c : EvidenceCache) : Prop where
  nodup : (c.entries.map (·.1)).Nodup
  fingerprint_eq : ∀ k e, c.entryOf? k = some e → e.fingerprint = k.fingerprint

/-- **A cache that operations have made** from an empty one. -/
inductive Made : EvidenceCache → Prop
  | empty : Made empty
  | get {c : EvidenceCache} (h : Made c) (k : CacheKey) : Made (c.get k).2
  | put {c : EvidenceCache} (h : Made c) (k : CacheKey) (x : Extraction) (time : Binary64) :
      Made (c.put k x time)
  | ask {c : EvidenceCache} (h : Made c) (k : CacheKey) : Made (c.ask k).2
  | complete {c : EvidenceCache} (h : Made c) (k : CacheKey) (x : Extraction) (time : Binary64) :
      Made (c.complete k x time)
  | abandon {c : EvidenceCache} (h : Made c) (k : CacheKey) : Made (c.abandon k)
  | retain {c : EvidenceCache} (h : Made c) (root : String) (present : List String) :
      Made (c.retain root present)
  | clear {c : EvidenceCache} (h : Made c) : Made c.clear
  | load {c c' : EvidenceCache} (h : Made c) {top : FileNode} {path : List String} {n : Nat}
      {notes : List StoreNote} (hload : c.load top path = .ok (c', n, notes)) : Made c'

variable {c c' : EvidenceCache}

/-! ## What each operation keeps -/

theorem Keyed.congr (h : c.Keyed) (hentries : c'.entries = c.entries) : c'.Keyed where
  nodup := hentries ▸ h.nodup
  fingerprint_eq k e hk := h.fingerprint_eq k e (by rwa [entryOf?, hentries] at hk)

theorem Keyed.withEntry (h : c.Keyed) (k : CacheKey) (x : Extraction) (time : Binary64) :
    (c.withEntry k ⟨k.fingerprint, x, time⟩).Keyed where
  nodup := nodup_keys_pair h.nodup
  fingerprint_eq k' e hk' := by
    rw [entryOf?_withEntry] at hk'
    split at hk'
    case isTrue heq =>
      cases hk'
      exact congrArg CacheKey.fingerprint heq
    case isFalse => exact h.fingerprint_eq k' e hk'

theorem entries_get (c : EvidenceCache) (k : CacheKey) : (c.get k).2.entries = c.entries := by
  unfold get
  split <;> rfl

theorem entries_ask (c : EvidenceCache) (k : CacheKey) : (c.ask k).2.entries = c.entries := by
  unfold ask
  split
  · rfl
  · split <;> rfl

theorem Keyed.retain (h : c.Keyed) (root : String) (present : List String) :
    (c.retain root present).Keyed where
  nodup := (List.filter_sublist.map _).nodup h.nodup
  fingerprint_eq k e hk := by
    rw [entryOf?_retain] at hk
    split at hk
    case isTrue => cases hk
    case isFalse => exact h.fingerprint_eq k e hk

theorem nodup_keys_withEntries (h : (c.entries.map (·.1)).Nodup)
    (records : List (CacheKey × CacheEntry)) :
    ((c.withEntries records).entries.map (·.1)).Nodup := by
  induction records generalizing c with
  | nil => exact h
  | cons r records ih => exact ih (c := c.withEntry r.1 r.2) (nodup_keys_pair h)

/-- **Whatever is loaded** has the fingerprint of its key. -/
theorem Keyed.load (h : c.Keyed) {top : FileNode} {path : List String} {n : Nat}
    {notes : List StoreNote} (hload : c.load top path = .ok (c', n, notes)) : c'.Keyed := by
  cases hcontent : top.content path with
  | error fault =>
    rw [EvidenceCache.load, hcontent] at hload
    cases fault <;> (cases hload; exact h)
  | ok found =>
    have hloads := loadsFrom_of_load hcontent hload
    constructor
    · obtain (hsame : c' = c) | ⟨records, -, (hrecords : c' = c.withEntries records)⟩ :=
        load_cases hcontent hload
      · rw [hsame]
        exact h.nodup
      · rw [hrecords]
        exact nodup_keys_withEntries h.nodup records
    · intro k e hk
      obtain ⟨_, j, _, -, ⟨_, -, hdescribed⟩, -⟩ | ⟨-, hc⟩ :=
        (hloads.entryOf?_eq_some_iff k e).1 hk
      · exact hdescribed.key_fingerprint.symm
      · exact h.fingerprint_eq k e hc

theorem Made.keyed (h : Made c) : c.Keyed := by
  induction h with
  | empty => exact ⟨List.nodup_nil, fun _ _ h => nomatch h⟩
  | get _ k ih => exact ih.congr (entries_get _ k)
  | put _ k x time ih => exact ih.withEntry k x time
  | ask _ k ih => exact ih.congr (entries_ask _ k)
  | complete _ k x time ih => exact (ih.withEntry k x time).congr rfl
  | abandon _ k ih => exact ih.congr rfl
  | retain _ root present ih => exact ih.retain root present
  | clear _ ih => exact ⟨List.nodup_nil, fun _ _ h => nomatch h⟩
  | load _ hload ih => exact ih.load hload

end EvidenceCache
end Conventions
