import Conventions.Cache.Store
import Conventions.Proofs.Fallible
import Conventions.Proofs.Json.Members

/-!
# Proofs/Cache/Record — what a record of a store has to say

A record describes an entry if every part of it is there and can be taken for what it should be
(`Describes`); a part that may be left out has a value of its own. Reading a record gives the entry
that it describes, and none if it describes none (`ofRecord_eq_ok_iff`). Of the records that describe
none, some hold a number that is too large (`Overflows`), and these alone are out of range
(`ofRecord_eq_outOfRange_iff`).
-/

namespace Conventions

namespace Json

variable {key : String} {members : List (String × Json)} {v : Json} {s : String}

theorem required_eq_ok_iff : required key members = .ok v ↔ lookup key members = some v := by
  rw [required]
  cases lookup key members <;> simp

theorem map_text_required_eq_ok_iff :
    (required key members).map text = .ok s ↔ (lookup key members).map text = some s := by
  rw [required]
  cases lookup key members <;> simp [Except.map]

end Json

open Fallible (bind_eq_ok_iff bind_eq_error_iff)
open Json (lookup required_eq_ok_iff map_text_required_eq_ok_iff)

/-! ## Observations -/

namespace Evidence

variable {members : List (String × Json)} {e : Evidence}

/-- **A document describes an observation**: there is a whole number for the line, a number for the
strength and something that can be shown as text for every other part. The shape may be left out. -/
structure DescribedBy (members : List (String × Json)) (e : Evidence) : Prop where
  category : (lookup "category" members).map Json.text = some e.category
  facet : (lookup "facet" members).map Json.text = some e.facet
  label : (lookup "label" members).map Json.text = some e.label
  excerpt : (lookup "excerpt" members).map Json.text = some e.excerpt
  file : (lookup "file" members).map Json.text = some e.file
  line : ∃ v, lookup "line" members = some v ∧ v.whole = .ok e.line
  strength : ∃ v b, lookup "strength" members = some v ∧ v.binary64 = .ok b ∧ e.strength = .binary b
  shape : ((lookup "shape" members).map Json.text).getD "" = e.shape

theorem ofDocument_eq_ok_iff : ofDocument members = .ok e ↔ DescribedBy members e := by
  obtain ⟨category, facet, label, excerpt, file, line, strength, shape⟩ := e
  simp only [ofDocument, bind_eq_ok_iff, required_eq_ok_iff, map_text_required_eq_ok_iff, pure,
    Except.pure, Except.ok.injEq, Evidence.mk.injEq]
  constructor
  · rintro ⟨_, hcategory, _, hfacet, _, hlabel, _, hexcerpt, _, hfile, v, hline, _, hwhole, w,
      hstrength, b, hnumber, rfl, rfl, rfl, rfl, rfl, rfl, rfl, hshape⟩
    exact ⟨hcategory, hfacet, hlabel, hexcerpt, hfile, ⟨v, hline, hwhole⟩,
      ⟨w, b, hstrength, hnumber, rfl⟩, hshape⟩
  · rintro ⟨hcategory, hfacet, hlabel, hexcerpt, hfile, ⟨v, hline, hwhole⟩,
      ⟨w, b, hstrength, hnumber, rfl⟩, hshape⟩
    exact ⟨_, hcategory, _, hfacet, _, hlabel, _, hexcerpt, _, hfile, v, hline, _, hwhole, w,
      hstrength, b, hnumber, rfl, rfl, rfl, rfl, rfl, rfl, rfl, hshape⟩

end Evidence

/-! ## Entries -/

namespace EvidenceCache

variable {j v : Json} {k : CacheKey} {e : CacheEntry} {es : List Evidence}

/-- **A value lists some observations**: it is an array of documents that describe them. Empty text
and an object without members list none. -/
inductive Lists : Json → List Evidence → Prop
  | documents {items : List Json} {es : List Evidence}
      (h : List.Forall₂ (fun item e => ∃ members, item = .obj members ∧
        Evidence.DescribedBy members e) items es) : Lists (.arr items) es
  | emptyText : Lists (.str "") []
  | noMembers : Lists (.obj []) []

/-- The observation that an item of a list describes. -/
def itemEvidence : Json → Except ConversionFault Evidence
  | .obj members => Evidence.ofDocument members
  | _ => .error .wrongKind

theorem evidenceOf_arr (items : List Json) : evidenceOf (.arr items) = items.mapM itemEvidence := rfl

theorem itemEvidence_eq_ok_iff {e : Evidence} :
    itemEvidence j = .ok e ↔ ∃ members, j = .obj members ∧ Evidence.DescribedBy members e := by
  cases j <;> simp [itemEvidence, Evidence.ofDocument_eq_ok_iff]

theorem evidenceOf_eq_ok_iff : evidenceOf v = .ok es ↔ Lists v es := by
  constructor
  · intro h
    cases v with
    | arr items =>
      rw [evidenceOf_arr, Fallible.mapM_eq_ok_iff] at h
      exact .documents (h.imp fun _ _ => itemEvidence_eq_ok_iff.1)
    | str s =>
      rw [evidenceOf] at h
      split at h
      case isTrue hempty =>
        cases h
        exact hempty ▸ .emptyText
      case isFalse => cases h
    | obj members =>
      cases members with
      | nil =>
        cases h
        exact .noMembers
      | cons => cases h
    | _ => cases h
  · rintro (h | _ | _)
    · rw [evidenceOf_arr, Fallible.mapM_eq_ok_iff]
      exact h.imp fun _ _ => itemEvidence_eq_ok_iff.2
    · rfl
    · rfl

/-- **The members of a record describe an entry.** -/
structure DescribedBy (members : List (String × Json)) (k : CacheKey) (e : CacheEntry) : Prop where
  evidence : ∃ v, lookup "evidence" members = some v ∧ Lists v e.extraction.evidence
  parseFailed : ((lookup "parse_failed" members).map Json.truthy).getD false =
    e.extraction.parseFailed
  detail : ((lookup "detail" members).map Json.text).getD "" = e.extraction.detail
  fingerprint : (lookup "fingerprint" members).map Json.text = some e.fingerprint
  extractedAt : ∃ v, lookup "extracted_at" members = some v ∧ v.binary64 = .ok e.extractedAt
  path : (lookup "path" members).map Json.text = some k.path
  key_fingerprint : k.fingerprint = e.fingerprint

/-- **A record describes an entry**: it is well-formed in all its parts. -/
def Describes (j : Json) (k : CacheKey) (e : CacheEntry) : Prop :=
  ∃ members, j = .obj members ∧ DescribedBy members k e

/-- **A record is read as the entry that it describes**, and not at all if it describes none. -/
theorem ofRecord_eq_ok_iff : ofRecord j = .ok (k, e) ↔ Describes j k e := by
  obtain ⟨path, fingerprint⟩ := k
  obtain ⟨fingerprint', ⟨es, parseFailed, detail⟩, extractedAt⟩ := e
  cases j with
  | obj members =>
    simp only [ofRecord, bind_eq_ok_iff, required_eq_ok_iff, evidenceOf_eq_ok_iff, pure, Except.pure,
      Except.ok.injEq, Prod.mk.injEq, CacheKey.mk.injEq, CacheEntry.mk.injEq, Extraction.mk.injEq]
    constructor
    · rintro ⟨v, hv, es, hes, w, hfingerprint, u, hu, time, htime, p, hpath, ⟨rfl, rfl⟩, rfl,
        ⟨rfl, rfl, rfl⟩, rfl⟩
      exact ⟨members, rfl, ⟨v, hv, hes⟩, rfl, rfl, by rw [hfingerprint]; rfl, ⟨u, hu, htime⟩,
        by rw [hpath]; rfl, rfl⟩
    · rintro ⟨_, hmembers, ⟨v, hv, hes⟩, hparse, hdetail, hfingerprint, ⟨u, hu, htime⟩, hpath, rfl⟩
      cases hmembers
      obtain ⟨w, hw, rfl⟩ := Option.map_eq_some_iff.1 hfingerprint
      obtain ⟨p, hp, rfl⟩ := Option.map_eq_some_iff.1 hpath
      exact ⟨v, hv, es, hes, w, hw, u, hu, _, htime, p, hp, ⟨rfl, rfl⟩, rfl, ⟨rfl, hparse, hdetail⟩,
        rfl⟩
  | _ =>
    constructor
    · intro h
      cases h
    · rintro ⟨_, h, -⟩
      cases h

end EvidenceCache
end Conventions
