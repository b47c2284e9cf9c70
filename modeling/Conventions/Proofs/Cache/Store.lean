import Conventions.Cache.Store
import Conventions.Proofs.Cache.Entries
import Conventions.Proofs.Json.Members
import Conventions.Proofs.Json.RoundTrip

/-!
# Proofs/Cache/Store — a store gives the entries that were written to it

A record is read as the entry that it was made of, made at the time that is read back. The only
other numbers that a store could change are the strengths of observations; those that 53 bits can
hold come back as they were (`Extraction.Storable`).
-/

namespace Conventions

/-- **Does an extraction come back from a store as it was?** -/
def Extraction.Storable (x : Extraction) : Prop :=
  ∀ e ∈ x.evidence, ∃ b : Binary64, e.strength = .binary b ∧ b.IsExact

namespace Json

variable {depth : Nat} {items : List Json}

theorem fits_arr (h : ∀ x ∈ items, x.fits depth = true) : (arr items).fits (depth + 1) = true := by
  simpa [fits] using fitsItems_iff.2 h

@[simp] theorem whole_int (i : Int) : (int i).whole = .ok i := rfl

@[simp] theorem binary64_float (b : Binary64) : (float b).binary64 = .ok b := rfl

end Json

/-! ## Observations -/

namespace Evidence

variable {e : Evidence} {b : Binary64}

theorem fits_document (depth : Nat) (e : Evidence) : e.document.fits (depth + 1) = true := by
  obtain ⟨category, facet, label, excerpt, file, line, strength, shape⟩ := e
  cases strength <;> simp [document, Json.fits, Json.fitsMembers, Json.ofQuantity]

theorem reread_document (h : e.strength = .binary b) (hb : b.IsExact) :
    e.document.reread = e.document := by
  rw [document, h, Json.reread]
  simp only [Json.rereadMembers, Json.reread, Json.ofQuantity, Json.rereadNumber_eq hb]

/-- **An observation is read as it was written.** -/
theorem ofDocument_document (h : e.strength = .binary b) {members : List (String × Json)}
    (hmembers : e.document = .obj members) : ofDocument members = .ok e := by
  obtain ⟨category, facet, label, excerpt, file, line, strength, shape⟩ := e
  obtain rfl : strength = .binary b := h
  obtain rfl := Json.obj.inj hmembers
  simp only [ofDocument, Json.required, Json.lookup_cons, String.reduceEq, if_true, if_false,
    Json.text, Json.whole_int, Json.ofQuantity, Json.binary64_float, Except.map, bind, Except.bind,
    pure, Except.pure, Option.map_some, Option.getD_some]

end Evidence

namespace Extraction

variable {x : Extraction}

theorem fits_documents (depth : Nat) (es : List Evidence) :
    (Evidence.documents es).fits (depth + 2) = true := by
  refine Json.fits_arr fun v hv => ?_
  obtain ⟨e, -, rfl⟩ := List.mem_map.1 hv
  exact e.fits_document depth

theorem Storable.reread_documents (h : x.Storable) :
    (Evidence.documents x.evidence).reread = Evidence.documents x.evidence := by
  rw [Evidence.documents, Json.reread, Json.rereadItems_eq, List.map_map]
  refine congrArg Json.arr (List.map_congr_left fun e he => ?_)
  obtain ⟨b, hstrength, hb⟩ := h e he
  exact Evidence.reread_document hstrength hb

theorem Storable.evidenceOf_documents (h : x.Storable) :
    EvidenceCache.evidenceOf (Evidence.documents x.evidence) = .ok x.evidence := by
  obtain ⟨es, parseFailed, detail⟩ := x
  rw [Evidence.documents, EvidenceCache.evidenceOf]
  induction es with
  | nil => rfl
  | cons e es ih =>
    obtain ⟨b, hstrength, -⟩ := h e List.mem_cons_self
    have hread := Evidence.ofDocument_document hstrength rfl
    have hrest := ih fun e he => h e (List.mem_cons_of_mem _ he)
    simp only at hrest ⊢
    rw [List.map_cons, List.mapM_cons, hrest, Evidence.document]
    simp only [hread]
    rfl

end Extraction

/-! ## Entries -/

namespace EvidenceCache

/-- An entry that was written, as it is read. -/
def stored (p : CacheKey × CacheEntry) : CacheKey × CacheEntry :=
  (⟨p.1.path, p.2.fingerprint⟩,
    ⟨p.2.fingerprint, p.2.extraction, Json.rereadNumber p.2.extractedAt⟩)

theorem fits_record (depth : Nat) (k : CacheKey) (e : CacheEntry) :
    (record k e).fits (depth + 3) = true := by
  have := Extraction.fits_documents depth e.extraction.evidence
  simp [record, Json.fits, Json.fitsMembers, this]

/-- **A record is read as the entry that it was made of.** -/
theorem ofRecord_record (k : CacheKey) {e : CacheEntry} (h : e.extraction.Storable) :
    ofRecord (record k e).reread = .ok (stored (k, e)) := by
  rw [record, Json.reread]
  simp only [Json.rereadMembers, Json.reread, h.reread_documents]
  simp only [ofRecord, Json.required, Json.lookup_cons, String.reduceEq, if_true, if_false,
    Json.text, Json.binary64_float, h.evidenceOf_documents, Json.truthy, bind, Except.bind, pure,
    Except.pure, Option.map_some, Option.getD_some]
  rfl

theorem mem_pair {α : Type} {k : CacheKey} {a : α} {p : CacheKey × α} {xs : List (CacheKey × α)}
    (h : p ∈ pair k a xs) : p = (k, a) ∨ p ∈ xs := by
  induction xs with
  | nil => exact .inl (List.mem_singleton.1 h)
  | cons q rest ih =>
    rw [pair] at h
    split at h
    · obtain rfl | h := List.mem_cons.1 h
      · exact .inl rfl
      · exact .inr (List.mem_cons_of_mem _ h)
    · obtain rfl | h := List.mem_cons.1 h
      · exact .inr List.mem_cons_self
      · exact (ih h).imp_right (List.mem_cons_of_mem _)

/-- Every entry of some records is the entry of one of them. -/
theorem mem_of_ofRecords {items : List Json} {done records : List (CacheKey × CacheEntry)}
    (h : ofRecords done items = .ok records) {r : CacheKey × CacheEntry} (hr : r ∈ records) :
    r ∈ done ∨ ∃ j ∈ items, ofRecord j = .ok r := by
  induction items generalizing done with
  | nil => exact .inl (Except.ok.inj h ▸ hr)
  | cons j rest ih =>
    have hlater : (∃ j ∈ rest, ofRecord j = .ok r) → ∃ j' ∈ j :: rest, ofRecord j' = .ok r :=
      fun ⟨j', hj', heq⟩ => ⟨j', List.mem_cons_of_mem _ hj', heq⟩
    rw [ofRecords] at h
    split at h
    case h_1 k e hj =>
      obtain hdone | hrest := ih h
      · obtain rfl | hdone := mem_pair hdone
        · exact .inr ⟨j, List.mem_cons_self, hj⟩
        · exact .inl hdone
      · exact .inr (hlater hrest)
    case h_2 => cases h
    case h_3 => exact (ih h).imp_right hlater

variable {c : EvidenceCache}

/-- The entries of a cache in the order in which they are written. -/
def ordered (c : EvidenceCache) : List (CacheKey × CacheEntry) :=
  c.entries.mergeSort fun a b => (keyOrder a.1 b.1).isLE

theorem ordered_perm (c : EvidenceCache) : c.ordered.Perm c.entries := List.mergeSort_perm ..

theorem document_eq (c : EvidenceCache) :
    c.document = .obj [("version", .int formatVersion),
      ("entries", .arr (c.ordered.map fun p => record p.1 p.2))] :=
  rfl

theorem reread_document (c : EvidenceCache) :
    c.document.reread = .obj [("version", .int formatVersion),
      ("entries", .arr (c.ordered.map fun p => (record p.1 p.2).reread))] := by
  simp only [document_eq, Json.reread, Json.rereadMembers, Json.rereadItems_eq, List.map_map,
    Function.comp_def]

theorem fits_document (c : EvidenceCache) : c.document.fits Json.maxDepth = true := by
  have hitems : Json.fitsItems 988 (c.ordered.map fun p => record p.1 p.2) = true := by
    refine Json.fitsItems_iff.2 fun j hj => ?_
    obtain ⟨p, -, rfl⟩ := List.mem_map.1 hj
    exact fits_record 985 p.1 p.2
  simp [document_eq, Json.fits, Json.fitsMembers, Json.maxDepth, hitems]

/-- What the document of a store gives is what its records give. -/
theorem ofDocument_entries (items : List Json) :
    ofDocument (.obj [("version", .int formatVersion), ("entries", .arr items)]) =
      (ofRecords [] items).map .entries := by
  simp only [ofDocument, Json.lookup_cons, String.reduceEq, if_true, if_false, Option.map_some,
    Option.getD_some, isVersion, BEq.rfl, recordsOf]
  rfl

/-- **A store gives nothing but the entries that were written to it.** -/
theorem mem_of_readStore (hc : ∀ p ∈ c.entries, p.2.extraction.Storable) {content : ByteArray}
    (htext : Text.decode? content = some c.storeText) {records : List (CacheKey × CacheEntry)}
    (h : readStore content = .ok (.entries records)) {r : CacheKey × CacheEntry}
    (hr : r ∈ records) : ∃ p ∈ c.entries, r = stored p := by
  simp only [readStore, htext, storeText, Json.unifyNewlines_indented] at h
  obtain hread | ⟨-, hread⟩ := Json.read_indented c.fits_document
  · simp only [hread, reread_document, ofDocument_entries] at h
    cases hrecords : ofRecords [] (c.ordered.map fun p => (record p.1 p.2).reread) with
    | error fault =>
      rw [hrecords] at h
      cases h
    | ok found =>
      rw [hrecords] at h
      obtain rfl : found = records := by cases h; rfl
      obtain hnone | ⟨j, hj, hrecord⟩ := mem_of_ofRecords hrecords hr
      · cases hnone
      · obtain ⟨p, hp, rfl⟩ := List.mem_map.1 hj
        have hmem := c.ordered_perm.mem_iff.1 hp
        rw [ofRecord_record p.1 (hc p hmem)] at hrecord
        exact ⟨p, hmem, (Except.ok.inj hrecord).symm⟩
  · rw [hread] at h
    cases h

/-- **Loading adds the entries that a store gives**, or nothing. -/
theorem load_cases {top : FileNode} {path : List String} {content : ByteArray}
    {modified : Binary64} (hcontent : top.content path = .ok (content, modified))
    {loaded : EvidenceCache × Nat × List StoreNote} (h : c.load top path = .ok loaded) :
    loaded.1 = c ∨ ∃ records, readStore content = .ok (.entries records) ∧
      loaded.1 = c.withEntries records := by
  rw [load, hcontent] at h
  cases hread : readStore content with
  | error fault => simp [hread, bind, Except.bind] at h
  | ok found =>
    simp only [hread, bind, Except.bind] at h
    cases found with
    | entries records => exact .inr ⟨records, rfl, Except.ok.inj h ▸ rfl⟩
    | noted n => exact .inl (Except.ok.inj h ▸ rfl)

end EvidenceCache
end Conventions
