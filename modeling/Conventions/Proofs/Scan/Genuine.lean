import Conventions.Proofs.Cache.Restart
import Conventions.Proofs.Scan.Coverage
import Conventions.Proofs.Scan.Extractor

/-!
# Proofs/Scan/Genuine — scans with extractions of this library alone

Whatever key an extraction is kept under, it was made by this library of some content. A cache that
holds nothing else holds nothing else after a scan, and after it was written to a store and loaded
(`Genuine.all`); so all evidence of a scan is about labels of the vocabulary, with a place and a
strength that can be told (`isKnown_of_mem_evidence`).
-/

namespace Conventions

/-! ## Evidence -/

/-- **An observation that can be told**: of a label of the vocabulary, at a line of a file with a
name, with a strength between zero and one. -/
structure Evidence.IsKnown (e : Evidence) : Prop where
  label : ∃ c : Category, e.category = c.name ∧ ∃ ls, c.labels? e.facet = some ls ∧ e.label ∈ ls
  file : e.file ≠ ""
  line : 1 ≤ e.line
  strength : ∃ n ≤ Binary64.unit, e.strength = .binary (.finite false n)

/-- **Was an extraction made by this library**, of some content at some path? -/
def Extraction.IsGenuine (x : Extraction) : Prop :=
  ∃ path content, x = (Source.mk content).extraction path

/-- Is a strength between zero and one? -/
def Shape.isMeasured (shape : Shape) : Bool :=
  match shape.strength with
  | .finite false n => decide (n ≤ Binary64.unit)
  | _ => false

/-- Is the label of a shape in the vocabulary? -/
def Shape.isListed (shape : Shape) : Bool :=
  ((shape.category.labels? shape.facet).getD []).contains shape.label

theorem Catalogue.isMeasured_of_mem_shapes : ∀ shape ∈ shapes, shape.isMeasured = true := by
  decide +kernel

theorem Catalogue.isListed_of_mem_shapes : ∀ shape ∈ shapes, shape.isListed = true := by
  decide +kernel

theorem Node.isKnown_of_mem_evidence {src : Source} {root : Node} {path path' : String}
    (hpath : path' ≠ "") {e : Evidence} (he : e ∈ root.evidence src path) :
    Evidence.IsKnown { e with file := path' } := by
  obtain ⟨h, hh, rfl⟩ := List.mem_map.1 (List.mem_mergeSort.1 he)
  obtain ⟨v, -, hshape, -⟩ := Node.mem_hits.1 (Hit.mem_of_mem_firsts hh)
  have hlisted := Catalogue.isListed_of_mem_shapes h.shape hshape
  have hmeasured := Catalogue.isMeasured_of_mem_shapes h.shape hshape
  refine ⟨⟨h.shape.category, rfl, ?_⟩, hpath, ?_, ?_⟩
  · rw [Shape.isListed, List.contains_iff_mem] at hlisted
    change ∃ ls, h.shape.category.labels? h.shape.facet = some ls ∧ h.shape.label ∈ ls
    cases hlabels : h.shape.category.labels? h.shape.facet with
    | none =>
      rw [hlabels] at hlisted
      cases hlisted
    | some ls =>
      rw [hlabels] at hlisted
      exact ⟨ls, rfl, hlisted⟩
  · change (1 : Int) ≤ (1 + _ : Nat)
    omega
  · change ∃ n ≤ Binary64.unit, Quantity.binary h.shape.strength = .binary (.finite false n)
    rw [Shape.isMeasured] at hmeasured
    split at hmeasured
    case h_1 n hstrength => exact ⟨n, of_decide_eq_true hmeasured, by rw [hstrength]⟩
    case h_2 => cases hmeasured

namespace Extraction

variable {x : Extraction}

theorem mem_told {path : String} {e : Evidence} :
    e ∈ (x.told path).evidence ↔ ∃ e' ∈ x.evidence, { e' with file := path } = e :=
  List.mem_map

/-- An extraction of this library has the evidence in a tree, or tells a reason. -/
theorem IsGenuine.cases (h : x.IsGenuine) :
    (∃ src path, ∃ root : Node, x = .ofEvidence (root.evidence src path)) ∨
      ∃ reason, x = .failed reason := by
  obtain ⟨path, content, hx⟩ := h
  rw [Source.extraction_eq] at hx
  generalize (Source.mk content).parse (Path.extension path) = parsed at hx
  cases parsed with
  | error fault => exact .inr ⟨_, hx⟩
  | ok root => exact .inl ⟨_, path, root, hx⟩

theorem IsGenuine.isKnown (h : x.IsGenuine) {path : String} (hpath : path ≠ "") {e : Evidence}
    (he : e ∈ (x.told path).evidence) : e.IsKnown := by
  obtain ⟨e', he', rfl⟩ := mem_told.1 he
  obtain ⟨src, path', root, rfl⟩ | ⟨reason, rfl⟩ := h.cases
  · exact Node.isKnown_of_mem_evidence hpath he'
  · cases he'

theorem IsGenuine.storable (h : x.IsGenuine) : x.Storable := by
  obtain ⟨path, content, hx⟩ := h
  rw [hx]
  exact Source.extraction_storable _ path

end Extraction

/-! ## Caches -/

namespace EvidenceCache

/-- Every extraction of a cache was made by this library. -/
def AllGenuine (c : EvidenceCache) : Prop := ∀ p ∈ c.entries, p.2.extraction.IsGenuine

theorem AllGenuine.empty : EvidenceCache.empty.AllGenuine := fun _ hp => nomatch hp

theorem AllGenuine.put {c : EvidenceCache} (h : c.AllGenuine) (k : CacheKey) {x : Extraction}
    (hx : x.IsGenuine) (time : Binary64) : (c.put k x time).AllGenuine := by
  intro p hp
  obtain rfl | hp := mem_pair hp
  · exact hx
  · exact h p hp

/-- **A cache that holds nothing but extractions of this library**, whether they were made here or
come from a store that such a cache was written to. -/
inductive Genuine : EvidenceCache → Prop
  | made {c : EvidenceCache} (h : c.AllGenuine) : Genuine c
  | loaded {c d d' : EvidenceCache} {top top' : FileNode} {path : List String} {time : Binary64}
      {n : Nat} {notes : List StoreNote} (hc : Genuine c) (hd : Genuine d)
      (hflush : c.flush top path time = .ok top') (hload : d.load top' path = .ok (d', n, notes)) :
      Genuine d'

theorem forall_mem_withEntries {c : EvidenceCache} {p : CacheKey × CacheEntry → Prop}
    {records : List (CacheKey × CacheEntry)} (hc : ∀ r ∈ c.entries, p r)
    (hrecords : ∀ r ∈ records, p r) : ∀ r ∈ (c.withEntries records).entries, p r := by
  induction records generalizing c with
  | nil => exact hc
  | cons r records ih =>
    rw [List.forall_mem_cons] at hrecords
    refine ih (c := c.withEntry r.1 r.2) (fun q hq => ?_) hrecords.2
    obtain rfl | hq := mem_pair hq
    · exact hrecords.1
    · exact hc q hq

/-- **A cache that holds nothing but extractions of this library** holds them as they were made. -/
theorem Genuine.all {c : EvidenceCache} (h : c.Genuine) : c.AllGenuine := by
  induction h with
  | made h => exact h
  | @loaded c d d' _ _ _ _ _ _ _ _ hflush hload hentries hentries' =>
    obtain ⟨made, -, -, hwrite⟩ := flush_eq_ok_iff.1 hflush
    have hstorable := fun p hp => (hentries p hp).storable
    obtain (hsame : d' = d) | ⟨records, hread, (hrecords : d' = d.withEntries records)⟩ :=
      load_cases (FileNode.content_write hwrite) hload
    · exact hsame ▸ hentries'
    · rw [hrecords]
      refine forall_mem_withEntries hentries' fun r hr => ?_
      obtain ⟨p, hp, rfl⟩ := mem_of_readStore hstorable (Text.decode?_toUTF8 _) hread hr
      exact hentries p hp

end EvidenceCache

/-! ## Scans -/

/-- **A scanner that extracts what this library extracts**, or is cut off. -/
def Scanner.IsGenuine (s : Scanner) : Prop :=
  ∀ path content, (∃ x, s.extract path content = .gives x ∧ x.IsGenuine) ∨
    s.extract path content = .hangs

theorem Scanner.standard_isGenuine : Scanner.standard.IsGenuine := fun path content =>
  .inl ⟨_, rfl, path, content, rfl⟩

/-- **A report whose evidence was made by this library**, of the file that it is told of. -/
def FileReport.IsGenuine (r : FileReport) : Prop :=
  ∀ x modified cached, r.outcome = .scanned x modified cached →
    ∃ y : Extraction, y.IsGenuine ∧ x = y.told r.path

namespace Scanner

variable {s : Scanner} {t : ScanTarget} {cache : EvidenceCache}

/-- **A file is examined with genuine extractions**, and the cache has no others afterwards. -/
theorem examine_genuine (hs : s.IsGenuine) (hcache : cache.AllGenuine) (now : Binary64)
    (path : String) (content : ByteArray) :
    (∀ f, (s.examine t now cache path content).1 = some f → f.1.IsGenuine) ∧
      (s.examine t now cache path content).2.AllGenuine := by
  have hask : (cache.ask (s.key t path content)).2.AllGenuine := by
    rw [EvidenceCache.ask]
    split
    · exact hcache
    · split <;> exact hcache
  have hfound : ∀ x, (cache.ask (s.key t path content)).1 = .found x → x.IsGenuine := by
    intro x hx
    rw [EvidenceCache.ask] at hx
    split at hx
    case h_1 e he =>
      exact EvidenceCache.Admission.found.inj hx ▸ hcache _ (EvidenceCache.mem_of_paired? he)
    case h_2 => split at hx <;> cases hx
  rw [examine, EvidenceCache.getOrExtract]
  generalize cache.ask (s.key t path content) = asked at hask hfound
  obtain ⟨admission, cache'⟩ := asked
  obtain ⟨x, hx, hgenuine⟩ | hhangs := hs path content
  · rw [hx]
    cases admission with
    | found y => exact ⟨fun f hf => Option.some.inj hf ▸ hfound y rfl, hask⟩
    | joined ticket => exact ⟨fun f hf => Option.some.inj hf ▸ hgenuine, hask⟩
    | started ticket =>
      exact ⟨fun f hf => Option.some.inj hf ▸ hgenuine, hask.put _ hgenuine now⟩
  · rw [hhangs]
    cases admission with
    | found y => exact ⟨fun f hf => Option.some.inj hf ▸ hfound y rfl, hask⟩
    | joined ticket => exact ⟨fun f hf => (nomatch hf), hask⟩
    | started ticket => exact ⟨fun f hf => (nomatch hf), hask⟩

theorem scanFile_genuine (hs : s.IsGenuine) (hcache : cache.AllGenuine) (now : Binary64)
    (path : String) :
    (∀ outcome, (s.scanFile t now cache path).1 = some outcome →
      FileReport.IsGenuine ⟨path, outcome⟩) ∧ (s.scanFile t now cache path).2.AllGenuine := by
  rw [scanFile]
  cases t.read path with
  | error reason =>
    refine ⟨fun outcome houtcome x modified cached hscanned => ?_, hcache⟩
    cases houtcome
    cases hscanned
  | ok found =>
    obtain ⟨hfound, hkept⟩ := examine_genuine (t := t) hs hcache now path found.1
    refine ⟨fun outcome houtcome x modified cached hscanned => ?_, hkept⟩
    obtain ⟨f, hf, rfl⟩ := Option.map_eq_some_iff.1 houtcome
    exact ⟨f.1, hfound f hf, (FileOutcome.scanned.inj hscanned).1.symm⟩

/-- **Files are scanned with genuine extractions.** -/
theorem scanFiles_genuine (hs : s.IsGenuine) (hcache : cache.AllGenuine) (now : Binary64)
    (workers : Nat) (paths : List String) :
    ∀ r ∈ (s.scanFiles t now workers cache paths).1, r.path ∈ paths ∧ r.IsGenuine := by
  induction paths generalizing workers cache with
  | nil => cases workers <;> exact fun r hr => nomatch hr
  | cons path rest ih =>
    cases workers with
    | zero => exact fun r hr => nomatch hr
    | succ workers =>
      obtain ⟨hfile, hkept⟩ := scanFile_genuine (t := t) hs hcache now path
      rw [scanFiles]
      generalize s.scanFile t now cache path = scanned at hfile hkept
      obtain ⟨outcome, cache'⟩ := scanned
      cases outcome with
      | none => exact fun r hr => (ih hkept workers r hr).imp_left (List.mem_cons_of_mem _)
      | some outcome =>
        refine List.forall_mem_cons.2 ⟨⟨List.mem_cons_self, hfile outcome rfl⟩, fun r hr => ?_⟩
        exact (ih hkept (workers + 1) r hr).imp_left (List.mem_cons_of_mem _)

end Scanner

/-! ## Evidence of a scan -/

theorem ScanCoverage.isKnown_of_mem_evidence {c : ScanCoverage}
    (hreports : ∀ r ∈ c.reports, r.path ≠ "" ∧ r.IsGenuine) {e : Evidence} (he : e ∈ c.evidence) :
    e.IsKnown := by
  obtain ⟨f, hf, he⟩ := List.mem_flatMap.1 he
  obtain ⟨hpath, hgenuine⟩ := hreports _ (mem_scanned hf)
  obtain ⟨x, hx, htold⟩ := hgenuine _ _ _ rfl
  rw [htold] at he
  exact hx.isKnown hpath he

end Conventions
