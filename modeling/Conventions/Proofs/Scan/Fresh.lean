import Conventions.Proofs.Scan.Coverage
import Conventions.Proofs.Scan.Extractor

/-!
# Proofs/Scan/Fresh — a scan with a sound cache finds what a scan without one finds

`Scanner.outcome?` and `Scanner.outcomes` say what a scan finds in its files by itself, without a
cache. A cache is sound if its entries fit their keys. A scan with a sound cache finds the same but
for what is bare, and leaves a sound cache (`scanFiles_bare`); so any two sound caches serve a scan
alike (`scan_eq_of_sound`).
-/

namespace Conventions

/-! ## Sound caches -/

/-- **Does an entry fit its key?** -/
def Scanner.FitsEntry (s : Scanner) (contents : Set ByteArray) (p : CacheKey × CacheEntry) : Prop :=
  p.2.fingerprint = p.1.fingerprint ∧ s.Fits contents p.1 (.ok p.2.extraction)

/-- **A cache whose entries fit their keys.** -/
def Scanner.Sound (s : Scanner) (contents : Set ByteArray) (c : EvidenceCache) : Prop :=
  ∀ p ∈ c.entries, s.FitsEntry contents p

namespace Scanner.Sound

variable {s : Scanner} {contents : Set ByteArray} {c : EvidenceCache} {k : CacheKey}
  {e : CacheEntry} {x : Extraction} {time : Binary64}

theorem empty : s.Sound contents .empty := fun _ h => nomatch h

theorem withEntry (h : s.Sound contents c) (he : s.FitsEntry contents (k, e)) :
    s.Sound contents (c.withEntry k e) := by
  intro p hp
  obtain rfl | hp := EvidenceCache.mem_pair hp
  · exact he
  · exact h p hp

theorem withEntries (h : s.Sound contents c) {records : List (CacheKey × CacheEntry)}
    (hrecords : ∀ r ∈ records, s.FitsEntry contents r) :
    s.Sound contents (c.withEntries records) := by
  induction records generalizing c with
  | nil => exact h
  | cons r records ih =>
    rw [List.forall_mem_cons] at hrecords
    exact ih (h.withEntry hrecords.1) hrecords.2

theorem retain (h : s.Sound contents c) (root : String) (present : List String) :
    s.Sound contents (c.retain root present) :=
  fun p hp => h p (List.mem_of_mem_filter hp)

theorem complete (h : s.Sound contents c) (hx : s.Fits contents k (.ok x)) :
    s.Sound contents (c.complete k x time) :=
  h.withEntry (e := ⟨k.fingerprint, x, time⟩) ⟨rfl, hx⟩

/-- Only the entries decide. -/
theorem of_entries {c' : EvidenceCache} (h : s.Sound contents c)
    (hentries : c'.entries = c.entries) : s.Sound contents c' :=
  fun p hp => h p (hentries ▸ hp)

/-- What is found in a sound cache fits the key that it was looked up with. -/
theorem fits_of_entryOf? (h : s.Sound contents c) (he : c.entryOf? k = some e) :
    s.Fits contents k (.ok e.extraction) :=
  (h (k, e) (EvidenceCache.mem_of_paired? he)).2

theorem ask (h : s.Sound contents c) : s.Sound contents (c.ask k).2 := by
  refine h.of_entries ?_
  rw [EvidenceCache.ask]
  split
  · rfl
  · split <;> rfl

theorem fits_of_ask (h : s.Sound contents c) (hx : (c.ask k).1 = .found x) :
    s.Fits contents k (.ok x) := by
  rw [EvidenceCache.ask] at hx
  split at hx
  case h_1 e he => exact EvidenceCache.Admission.found.inj hx ▸ h.fits_of_entryOf? he
  case h_2 => split at hx <;> cases hx

/-- **What a store gives** that a sound cache was written to fits its keys. -/
theorem fitsEntry_of_readStore (h : s.Sound contents c) {content : ByteArray}
    (htext : Text.decode? content = some c.storeText) {records : List (CacheKey × CacheEntry)}
    (hread : EvidenceCache.readStore content = .ok (.entries records)) :
    ∀ r ∈ records, s.FitsEntry contents r := by
  intro r hr
  have hstorable : ∀ p ∈ c.entries, p.2.extraction.Storable := fun p hp => (h p hp).2.storable _ rfl
  obtain ⟨⟨k, e⟩, hp, rfl⟩ := EvidenceCache.mem_of_readStore hstorable htext hread hr
  obtain ⟨hfingerprint, hfits⟩ := h (k, e) hp
  obtain ⟨path, fingerprint⟩ := k
  obtain rfl : e.fingerprint = fingerprint := hfingerprint
  exact ⟨rfl, hfits⟩

end Scanner.Sound

/-! ## Without a cache -/

/-- What is told of a file after an attempt to extract its evidence. -/
def Attempt.outcome? (path : String) (modified : Binary64) : Attempt → Option FileOutcome
  | .gives x => some (.scanned (x.told path) modified false)
  | .raises reason => some (.scanned ((Extraction.failed reason).told path) modified false)
  | .hangs => none

theorem Attempt.Alike.outcome? {a b : Attempt} (h : a.Alike b) (path : String)
    (modified : Binary64) :
    (a.outcome? path modified).map FileOutcome.bare =
      (b.outcome? path modified).map FileOutcome.bare := by
  cases h with
  | gives h => rw [Attempt.outcome?, Attempt.outcome?, h path]
  | raises => rfl
  | hangs => rfl

/-- **A target whose files have contents** of some set. -/
def ScanTarget.ReadsIn (t : ScanTarget) (contents : Set ByteArray) : Prop :=
  ∀ path content modified, t.read path = .ok (content, modified) → content ∈ contents

namespace Scanner

/-- **What a scan finds in a file by itself**, if its extraction ends. -/
def outcome? (s : Scanner) (t : ScanTarget) (path : String) : Option FileOutcome :=
  match t.read path with
  | .error reason => some (.skipped reason)
  | .ok (content, modified) => (s.extract path content).outcome? path modified

/-- What some workers find in some files, and whether they leave any. -/
def outcomes (s : Scanner) (t : ScanTarget) : Nat → List String → List FileReport × Bool
  | _, [] => ([], false)
  | 0, _ :: _ => ([], true)
  | workers + 1, path :: rest =>
    match s.outcome? t path with
    | some outcome =>
      let (reports, left) := s.outcomes t (workers + 1) rest
      (⟨path, outcome⟩ :: reports, left)
    | none => ((s.outcomes t workers rest).1, true)

/-! ## With a sound cache -/

section Sound

variable {s : Scanner} {contents : Set ByteArray} {t : ScanTarget} {c : EvidenceCache}

theorem examine_bare (hs : s.ByContent) (hinj : contents.InjOn s.fingerprint)
    (hc : s.Sound contents c) {content : ByteArray} (hcontent : content ∈ contents) (now : Binary64)
    (path : String) (modified : Binary64) :
    ((s.examine t now c path content).1.map fun f =>
      (FileOutcome.scanned (f.1.told path) modified f.2).bare) =
        ((s.extract path content).outcome? path modified).map FileOutcome.bare ∧
      s.Sound contents (s.examine t now c path content).2 := by
  have hask : s.Sound contents (c.ask (s.key t path content)).2 := hc.ask
  have hfound : ∀ x, (c.ask (s.key t path content)).1 = .found x →
      s.Fits contents (s.key t path content) (.ok x) := fun _ => hc.fits_of_ask
  rw [examine, EvidenceCache.getOrExtract]
  generalize c.ask (s.key t path content) = asked at hask hfound
  obtain ⟨admission, c'⟩ := asked
  cases admission with
  | found x =>
    have halike := ((hfound x rfl).extract hcontent).outcome? path modified
    exact ⟨halike.symm, hask⟩
  | joined ticket => cases s.extract path content <;> exact ⟨rfl, hask⟩
  | started ticket =>
    cases hextract : s.extract path content with
    | gives x =>
      exact ⟨rfl, hask.complete (fits_of_extract (r := .ok x) hs hinj hcontent hextract)⟩
    | raises reason => exact ⟨rfl, hask.of_entries rfl⟩
    | hangs => exact ⟨rfl, hask.of_entries rfl⟩

/-- **A file is scanned alike** with and without a sound cache. -/
theorem scanFile_bare (hs : s.ByContent) (hinj : contents.InjOn s.fingerprint)
    (hreads : t.ReadsIn contents) (hc : s.Sound contents c) (now : Binary64) (path : String) :
    (s.scanFile t now c path).1.map FileOutcome.bare =
        (s.outcome? t path).map FileOutcome.bare ∧
      s.Sound contents (s.scanFile t now c path).2 := by
  rw [scanFile, outcome?]
  cases hread : t.read path with
  | error reason => exact ⟨rfl, hc⟩
  | ok found =>
    obtain ⟨content, modified⟩ := found
    obtain ⟨hbare, hsound⟩ :=
      examine_bare hs hinj hc (t := t) (hreads path content modified hread) now path modified
    refine ⟨?_, hsound⟩
    rw [← hbare, Option.map_map]
    rfl

/-- **Files are scanned alike** with and without a sound cache. -/
theorem scanFiles_bare (hs : s.ByContent) (hinj : contents.InjOn s.fingerprint)
    (hreads : t.ReadsIn contents) (now : Binary64) (paths : List String) (workers : Nat)
    (hc : s.Sound contents c) :
    (s.scanFiles t now workers c paths).1.map FileReport.bare =
        (s.outcomes t workers paths).1.map FileReport.bare ∧
      (s.scanFiles t now workers c paths).2.1 = (s.outcomes t workers paths).2 ∧
        s.Sound contents (s.scanFiles t now workers c paths).2.2 := by
  induction paths generalizing workers c with
  | nil => exact ⟨by cases workers <;> rfl, by cases workers <;> rfl, by cases workers <;> exact hc⟩
  | cons path rest ih =>
    cases workers with
    | zero => exact ⟨rfl, rfl, hc⟩
    | succ workers =>
      obtain ⟨hfile, hsound⟩ := scanFile_bare hs hinj hreads hc now path
      rw [scanFiles, outcomes]
      generalize s.scanFile t now c path = scanned at hfile hsound
      obtain ⟨outcome, c'⟩ := scanned
      cases houtcome : s.outcome? t path with
      | none =>
        rw [houtcome] at hfile
        obtain rfl : outcome = none := Option.map_eq_none_iff.1 hfile
        obtain ⟨hreports, -, hrest⟩ := ih workers hsound
        exact ⟨hreports, rfl, hrest⟩
      | some expected =>
        rw [houtcome] at hfile
        obtain ⟨outcome, rfl, hbare⟩ := Option.map_eq_some_iff.1 hfile
        obtain ⟨hreports, hleft, hrest⟩ := ih (workers + 1) hsound
        refine ⟨?_, hleft, hrest⟩
        simp only [List.map_cons, hreports, FileReport.bare, hbare]

end Sound

/-! ## What a scan finds -/

/-- **A report of what a scan finds** in a file that it selects. -/
structure Reports (s : Scanner) (t : ScanTarget) (r : FileReport) : Prop where
  selected : r.path ∈ t.selection.selected
  outcome : (s.outcome? t r.path).map FileOutcome.bare = some r.outcome.bare

/-- **What a scan finds by itself.** -/
def finds (s : Scanner) (t : ScanTarget) (elapsed : Binary64) :
    List CapEvent × Except ScanFault ProjectContext :=
  if !t.selection.selected.isEmpty && t.options.limitTooLong then ([], .error .limitTooLong)
  else
    let (reports, left) := s.outcomes t t.workers t.selection.selected
    t.findings ⟨t.selection, reports, left⟩ elapsed

section Finds

variable {s : Scanner} {t : ScanTarget}

theorem path_outcomes_sublist (workers : Nat) (paths : List String) :
    ((s.outcomes t workers paths).1.map (·.path)).Sublist paths := by
  induction paths generalizing workers with
  | nil => cases workers <;> exact .refl _
  | cons path rest ih =>
    cases workers with
    | zero => exact List.nil_sublist _
    | succ workers =>
      rw [outcomes]
      cases s.outcome? t path with
      | none => exact (ih workers).cons path
      | some outcome => exact (ih (workers + 1)).cons_cons path

theorem outcome_of_mem_outcomes {workers : Nat} {paths : List String} {r : FileReport}
    (h : r ∈ (s.outcomes t workers paths).1) : s.outcome? t r.path = some r.outcome := by
  induction paths generalizing workers with
  | nil => cases workers <;> cases h
  | cons path rest ih =>
    cases workers with
    | zero => cases h
    | succ workers =>
      rw [outcomes] at h
      cases houtcome : s.outcome? t path with
      | none =>
        rw [houtcome] at h
        exact ih h
      | some outcome =>
        rw [houtcome] at h
        obtain rfl | h := List.mem_cons.1 h
        · exact houtcome
        · exact ih h

/-- Where every extraction ends, nothing is left. -/
theorem outcomes_of_forall (workers : Nat) {paths : List String}
    (h : ∀ path ∈ paths, (s.outcome? t path).isSome) :
    (s.outcomes t (workers + 1) paths).1.map (·.path) = paths ∧
      (s.outcomes t (workers + 1) paths).2 = false := by
  induction paths with
  | nil => exact ⟨rfl, rfl⟩
  | cons path rest ih =>
    rw [List.forall_mem_cons] at h
    obtain ⟨outcome, houtcome⟩ := Option.isSome_iff_exists.1 h.1
    obtain ⟨hpaths, hleft⟩ := ih h.2
    rw [outcomes, houtcome]
    exact ⟨congrArg (path :: ·) hpaths, hleft⟩

variable {contents : Set ByteArray} {c : EvidenceCache}

/-- **With a sound cache, a scan reports what it finds by itself.** -/
theorem reports_cover (hs : s.ByContent) (hinj : contents.InjOn s.fingerprint)
    (hreads : t.ReadsIn contents) (hc : s.Sound contents c) (now : Binary64) :
    (∀ r ∈ (s.cover t now c).1.reports, s.Reports t r) ∧
      ((s.cover t now c).1.reports.map (·.path)).Nodup := by
  obtain ⟨hreports, -, -⟩ := scanFiles_bare hs hinj hreads now t.selection.selected t.workers hc
  have hsublist := path_outcomes_sublist (s := s) (t := t) t.workers t.selection.selected
  refine ⟨fun r hr => ?_, ?_⟩
  · have hmem := hreports ▸ List.mem_map_of_mem (f := FileReport.bare) hr
    obtain ⟨r', hr', hbare⟩ := List.mem_map.1 hmem
    obtain ⟨hpath, houtcome⟩ := FileReport.mk.inj hbare
    have hselected := hsublist.subset (List.mem_map_of_mem (f := FileReport.path) hr')
    rw [hpath] at hselected
    refine ⟨hselected, ?_⟩
    rw [← hpath, outcome_of_mem_outcomes hr', ← houtcome]
    rfl
  · have hpaths := congrArg (List.map FileReport.path) hreports
    rw [List.map_map, List.map_map] at hpaths
    exact hpaths ▸ hsublist.nodup (FileSelection.nodup_selected t.options t.top t.root)

/-- **With a sound cache, a scan finds what it finds by itself.** -/
theorem findings_scanTarget (hs : s.ByContent) (hinj : contents.InjOn s.fingerprint)
    (hreads : t.ReadsIn contents) (hc : s.Sound contents c) (now elapsed : Binary64) :
    (s.scanTarget t now elapsed c).findings = s.finds t elapsed := by
  rw [scanTarget, finds]
  split
  case isTrue => rfl
  case isFalse =>
    obtain ⟨hreports, hleft, -⟩ :=
      scanFiles_bare hs hinj hreads now t.selection.selected t.workers hc
    exact t.findings_eq_of_perm elapsed rfl hleft (.of_eq hreports)
      (reports_cover hs hinj hreads hc now).2

/-- **What is found in all files**, in whatever order, is what a scan finds by itself. -/
theorem findings_of_reports {reports : List FileReport} (hreports : ∀ r ∈ reports, s.Reports t r)
    (hnodup : (reports.map (·.path)).Nodup)
    (hdone : ∀ path ∈ t.selection.selected, path ∈ reports.map (·.path))
    (hlimit : (!t.selection.selected.isEmpty && t.options.limitTooLong) = false)
    (elapsed : Binary64) :
    t.findings ⟨t.selection, reports, false⟩ elapsed = s.finds t elapsed := by
  have hpaths : (reports.map (·.path)).Perm t.selection.selected := by
    refine (List.perm_ext_iff_of_nodup hnodup
      (FileSelection.nodup_selected t.options t.top t.root)).2 fun path => ⟨fun h => ?_, hdone path⟩
    obtain ⟨r, hr, rfl⟩ := List.mem_map.1 h
    exact (hreports r hr).selected
  have hends : ∀ path ∈ t.selection.selected, (s.outcome? t path).isSome := by
    intro path hpath
    obtain ⟨r, hr, rfl⟩ := List.mem_map.1 (hdone path hpath)
    have houtcome := (hreports r hr).outcome
    rw [← Option.isSome_map, houtcome]
    rfl
  obtain ⟨workers, hworkers⟩ : ∃ workers, t.workers = workers + 1 :=
    Nat.exists_eq_succ_of_ne_zero (by rw [ScanTarget.workers]; omega)
  obtain ⟨hall, hleft⟩ := outcomes_of_forall workers hends
  have hexpected : ∀ r ∈ (s.outcomes t (workers + 1) t.selection.selected).1,
      (s.outcome? t r.path).map FileOutcome.bare = some r.outcome.bare := by
    intro r hr
    rw [outcome_of_mem_outcomes hr]
    rfl
  rw [finds, hlimit, hworkers]
  refine t.findings_eq_of_perm elapsed rfl hleft.symm ?_ hnodup
  simp only
  rw [FileReport.map_bare_eq fun r hr => (hreports r hr).outcome, FileReport.map_bare_eq hexpected,
    hall]
  exact hpaths.map _

/-! ## Where evidence is placed -/

theorem file_of_mem_told {x : Extraction} {path : String} {e : Evidence}
    (he : e ∈ (x.told path).evidence) : e.file = path := by
  obtain ⟨e, -, rfl⟩ := List.mem_map.1 he
  rfl

/-- What is told of a file is told of its path, with the time that was read. -/
theorem read_of_outcome? {path : String} {x : Extraction} {modified : Binary64} {cached : Bool}
    (h : (s.outcome? t path).map FileOutcome.bare =
      some (FileOutcome.scanned x modified cached).bare) :
    (∃ content, t.read path = .ok (content, modified)) ∧ ∀ e ∈ x.evidence, e.file = path := by
  rw [outcome?] at h
  cases hread : t.read path with
  | error reason =>
    rw [hread] at h
    cases h
  | ok found =>
    obtain ⟨content, modified'⟩ := found
    rw [hread] at h
    cases hextract : s.extract path content with
    | hangs =>
      simp only [hextract] at h
      cases h
    | gives y =>
      simp only [hextract] at h
      obtain ⟨hx, rfl, -⟩ := FileOutcome.scanned.inj (Option.some.inj h)
      refine ⟨⟨content, rfl⟩, fun e he => ?_⟩
      have hevidence : (y.told path).evidence = x.evidence := (Extraction.mk.inj hx).1
      exact file_of_mem_told (hevidence ▸ he)
    | raises reason =>
      simp only [hextract] at h
      obtain ⟨hx, rfl, -⟩ := FileOutcome.scanned.inj (Option.some.inj h)
      refine ⟨⟨content, rfl⟩, fun e he => ?_⟩
      have hevidence : [] = x.evidence := (Extraction.mk.inj hx).1
      exact nomatch hevidence ▸ he

end Finds

end Scanner

/-- **All evidence is placed**: an observation names a file that was scanned in this scan, and the
time that counts for it is the one read with the file. -/
def ScanTarget.Places (t : ScanTarget) (c : ScanCoverage) : Prop :=
  ∀ e ∈ c.evidence, ∃ x modified cached content, (e.file, x, modified, cached) ∈ c.scanned ∧
    e ∈ x.evidence ∧ t.read e.file = .ok (content, modified) ∧ c.times e.file = modified

theorem Scanner.places_of_reports {s : Scanner} {t : ScanTarget} {c : ScanCoverage}
    (hreports : ∀ r ∈ c.reports, s.Reports t r) (hnodup : (c.reports.map (·.path)).Nodup) :
    t.Places c := by
  intro e he
  obtain ⟨⟨path, x, modified, cached⟩, hf, he⟩ := List.mem_flatMap.1 he
  have houtcome := (hreports _ (ScanCoverage.mem_scanned hf)).outcome
  obtain ⟨⟨content, hread⟩, hfile⟩ := Scanner.read_of_outcome? houtcome
  obtain rfl := hfile e he
  exact ⟨x, modified, cached, content, hf, he, hread, ScanCoverage.times_eq hnodup hf⟩

end Conventions
