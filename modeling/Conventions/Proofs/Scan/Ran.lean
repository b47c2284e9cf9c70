import Conventions.Proofs.Cache.Keyed
import Conventions.Proofs.Files.Path
import Conventions.Proofs.Scan.Faults
import Conventions.Proofs.Scan.Stopped

/-!
# Proofs/Scan/Ran — what a scan does that has the cache for itself

What comes of a file then depends on what the cache had before the scan, and on nothing else
(`Scanner.outcomeWith?`): evidence that was there is taken, and any other is extracted. What was
extracted is left in the cache, behind what it had (`Scanner.Leaves`). `Scanner.RanAlone` says both of a
whole scan; here it is shown of a scan that takes its files in order.
-/

namespace Conventions

theorem Attempt.isSome_answer {a : Attempt} (h : a ≠ .hangs) (cached : Bool) :
    (a.answer cached).isSome = true := by
  cases a with
  | hangs => exact absurd rfl h
  | gives x => rfl
  | raises reason => rfl

namespace Scanner

/-- **What comes of a file** with what a cache has. -/
def outcomeWith? (s : Scanner) (t : ScanTarget) (cache : EvidenceCache) (path : String) :
    Option FileOutcome :=
  match t.read path with
  | .error reason => some (.skipped reason)
  | .ok (content, modified) =>
    match cache.entryOf? (s.key t path content) with
    | some e => some (.scanned (e.extraction.told path) modified true)
    | none => (s.extract path content).outcome? path modified

/-- **Is an entry what a file adds to a cache** that had nothing of its content? -/
def Adds (s : Scanner) (t : ScanTarget) (before : EvidenceCache) (path : String)
    (p : CacheKey × CacheEntry) : Prop :=
  ∃ content modified, t.read path = .ok (content, modified) ∧ p.1 = s.key t path content ∧
    before.entryOf? p.1 = none ∧ s.extract path content = .gives p.2.extraction

/-- **What is left in a cache** after some files, of which some were reported: what it had, and what
was added for these files; it has all that was scanned. -/
structure Leaves (s : Scanner) (t : ScanTarget) (before : EvidenceCache) (paths : List String)
    (reports : List FileReport) (after : EvidenceCache) (added : List (CacheKey × CacheEntry)) :
    Prop where
  entries : after.entries = before.entries ++ added
  nodup : (added.map (·.1)).Nodup
  fingerprint : ∀ p ∈ added, p.2.fingerprint = p.1.fingerprint
  adds : ∀ p ∈ added, ∃ path ∈ paths, s.Adds t before path p
  stored : ∀ r ∈ reports, ∀ content modified x, t.read r.path = .ok (content, modified) →
    s.extract r.path content = .gives x → s.key t r.path content ∈ after.entries.map (·.1)
  extractions : after.extractions = before.extractions + added.length

/-- **What a scan does that has the cache for itself.** When it is done, nothing is being extracted. -/
structure RanAlone (s : Scanner) (t : ScanTarget) (before : EvidenceCache) (c : ScanCoverage)
    (after : EvidenceCache) : Prop where
  covered : t.Covered c
  outcome : ∀ r ∈ c.reports, s.outcomeWith? t before r.path = some r.outcome
  leaves : ∃ added, s.Leaves t before t.selection.selected c.reports after added
  idle : c.timedOut = false → after.running = []

variable {s : Scanner} {t : ScanTarget} {before mid after : EvidenceCache} {path : String}
  {paths : List String} {reports : List FileReport} {added : List (CacheKey × CacheEntry)}

/-! ## What is left behind -/

theorem Leaves.mem_keys_iff (h : s.Leaves t before paths reports after added) {k : CacheKey} :
    k ∈ after.entries.map (·.1) ↔ k ∈ before.entries.map (·.1) ∨ k ∈ added.map (·.1) := by
  rw [h.entries, List.map_append, List.mem_append]

/-- **A key of another file** stands where it stood. -/
theorem Leaves.entryOf?_eq (h : s.Leaves t before paths reports after added) {k : CacheKey}
    (hk : ∀ path ∈ paths, k.path ≠ t.absolute path) : after.entryOf? k = before.entryOf? k := by
  have hnot : k ∉ added.map (·.1) := by
    intro hmem
    obtain ⟨p, hp, rfl⟩ := List.mem_map.1 hmem
    obtain ⟨path, hpath, content, modified, -, hkey, -⟩ := h.adds p hp
    exact hk path hpath (by rw [hkey]; rfl)
  rw [EvidenceCache.entryOf?, h.entries, EvidenceCache.paired?_append,
    EvidenceCache.paired?_eq_none_iff_notMem.2 hnot, Option.or_none]
  rfl

/-- What a file adds depends on what the cache has of it. -/
theorem Adds.congr {p : CacheKey × CacheEntry} (h : s.Adds t mid path p)
    (hentry : ∀ k : CacheKey, k.path = t.absolute path → mid.entryOf? k = before.entryOf? k) :
    s.Adds t before path p := by
  obtain ⟨content, modified, hread, hkey, hnone, hextract⟩ := h
  refine ⟨content, modified, hread, hkey, ?_, hextract⟩
  rw [← hentry p.1 (by rw [hkey]; rfl)]
  exact hnone

theorem outcomeWith?_congr
    (hentry : ∀ k : CacheKey, k.path = t.absolute path → mid.entryOf? k = before.entryOf? k) :
    s.outcomeWith? t mid path = s.outcomeWith? t before path := by
  rw [outcomeWith?, outcomeWith?]
  cases t.read path with
  | error reason => rfl
  | ok found => simp only [hentry (s.key t path found.1) rfl]

theorem leaves_nothing (s : Scanner) (t : ScanTarget) (cache : EvidenceCache)
    (hreports : ∀ r ∈ reports, ∀ content modified x, t.read r.path = .ok (content, modified) →
      s.extract r.path content = .gives x → s.key t r.path content ∈ cache.entries.map (·.1))
    (hentries : after.entries = cache.entries) (hextractions : after.extractions = cache.extractions) :
    s.Leaves t cache paths reports after [] where
  entries := by rw [hentries, List.append_nil]
  nodup := List.nodup_nil
  fingerprint p hp := absurd hp List.not_mem_nil
  adds p hp := absurd hp List.not_mem_nil
  stored := by rwa [hentries]
  extractions := hextractions

theorem Leaves.mono (h : s.Leaves t before paths reports after added) {reports' : List FileReport}
    (hsubset : reports' ⊆ reports) : s.Leaves t before paths reports' after added :=
  { h with stored := fun r hr => h.stored r (hsubset hr) }

/-- **What is left after some files and then others.** -/
theorem Leaves.append {rest : List String} {reports' : List FileReport}
    {added' : List (CacheKey × CacheEntry)} (h : s.Leaves t before paths reports mid added)
    (h' : s.Leaves t mid rest reports' after added') (hdisjoint : ∀ path ∈ rest, path ∉ paths) :
    s.Leaves t before (paths ++ rest) (reports ++ reports') after (added ++ added') := by
  have hentry : ∀ path ∈ rest, ∀ k : CacheKey, k.path = t.absolute path →
      mid.entryOf? k = before.entryOf? k := by
    intro path hpath k hk
    refine h.entryOf?_eq fun path' hpath' heq => hdisjoint path hpath ?_
    exact t.absolute_injective (hk.symm.trans heq) ▸ hpath'
  refine ⟨?_, ?_, ?_, ?_, ?_, ?_⟩
  · rw [h'.entries, h.entries, List.append_assoc]
  · rw [List.map_append]
    refine h.nodup.append h'.nodup fun k hk hk' => ?_
    obtain ⟨p, hp, rfl⟩ := List.mem_map.1 hk'
    obtain ⟨path, hpath, content, modified, -, hkey, hnone, -⟩ := h'.adds p hp
    -- what the first files added is there when the others are looked into
    have hmem : p.1 ∈ mid.entries.map (·.1) := h.mem_keys_iff.2 (.inr hk)
    exact EvidenceCache.paired?_eq_none_iff_notMem.1 hnone hmem
  · exact List.forall_mem_append.2 ⟨h.fingerprint, h'.fingerprint⟩
  · refine List.forall_mem_append.2 ⟨fun p hp => ?_, fun p hp => ?_⟩
    · obtain ⟨path, hpath, hadds⟩ := h.adds p hp
      exact ⟨path, List.mem_append_left _ hpath, hadds⟩
    · obtain ⟨path, hpath, hadds⟩ := h'.adds p hp
      exact ⟨path, List.mem_append_right _ hpath, hadds.congr (hentry path hpath)⟩
  · refine List.forall_mem_append.2 ⟨fun r hr content modified x hread hx => ?_, h'.stored⟩
    exact h'.mem_keys_iff.2 (.inl (h.stored r hr content modified x hread hx))
  · rw [h'.extractions, h.extractions, List.length_append, Nat.add_assoc]

/-! ## Files in order -/

/-- **A file that is looked into** with nothing being extracted. -/
theorem ran_examine {cache : EvidenceCache} (hidle : cache.running = []) (now : Binary64)
    {content : ByteArray} {modified : Binary64} (hread : t.read path = .ok (content, modified)) :
    ((s.examine t now cache path content).1.map fun f =>
        FileOutcome.scanned (f.1.told path) modified f.2) = s.outcomeWith? t cache path ∧
      (s.examine t now cache path content).2.running = [] ∧
      ∃ added, ∀ outcome, s.Leaves t cache [path] [⟨path, outcome⟩]
        (s.examine t now cache path content).2 added := by
  have hreports {after : EvidenceCache} (outcome : FileOutcome)
      (h : ∀ x, s.extract path content = .gives x →
        s.key t path content ∈ after.entries.map (·.1)) :
      ∀ r ∈ [FileReport.mk path outcome], ∀ content modified x,
        t.read r.path = .ok (content, modified) → s.extract r.path content = .gives x →
          s.key t r.path content ∈ after.entries.map (·.1) := by
    refine List.forall_mem_singleton.2 fun content' modified' x hread' hx => ?_
    obtain ⟨rfl, -⟩ := Prod.mk.inj (Except.ok.inj (hread.symm.trans hread'))
    exact h x hx
  simp only [examine, EvidenceCache.getOrExtract, EvidenceCache.ask, outcomeWith?, hread]
  cases hentry : cache.entryOf? (s.key t path content) with
  | some e =>
    have hmem := EvidenceCache.mem_keys_iff.2 ⟨e, hentry⟩
    exact ⟨rfl, hidle, [], fun outcome =>
      leaves_nothing s t cache (hreports outcome fun _ _ => hmem) rfl rfl⟩
  | none =>
    have hnone : EvidenceCache.paired? (s.key t path content) cache.running = none := by
      rw [hidle]
      rfl
    have hnot := EvidenceCache.paired?_eq_none_iff_notMem.1 hentry
    rw [hnone]
    cases hextract : s.extract path content with
    | gives x =>
      refine ⟨rfl, by simp [EvidenceCache.finish, EvidenceCache.complete, hidle],
        [(s.key t path content, ⟨(s.key t path content).fingerprint, x, now⟩)],
        fun outcome => ⟨?_, List.nodup_singleton _, ?_, ?_, hreports outcome fun _ _ => ?_, rfl⟩⟩
      · exact EvidenceCache.pair_of_notMem hnot
      · simp
      · simp only [List.mem_singleton, forall_eq, exists_eq_left]
        exact ⟨content, modified, hread, rfl, hentry, hextract⟩
      · exact EvidenceCache.keys_pair.2 (.inl rfl)
    | _ =>
      refine ⟨rfl, by simp [EvidenceCache.finish, EvidenceCache.abandon, hidle], [], fun outcome =>
        leaves_nothing s t cache (hreports outcome fun x hx => ?_) rfl rfl⟩
      rw [hextract] at hx
      cases hx

/-- **A file that is scanned** with nothing being extracted. -/
theorem ran_scanFile {cache : EvidenceCache} (hidle : cache.running = []) (now : Binary64)
    (path : String) :
    (s.scanFile t now cache path).1 = s.outcomeWith? t cache path ∧
      (s.scanFile t now cache path).2.running = [] ∧
      ∃ added, ∀ outcome, s.Leaves t cache [path] [⟨path, outcome⟩]
        (s.scanFile t now cache path).2 added := by
  rw [scanFile]
  cases hread : t.read path with
  | error reason =>
    refine ⟨by rw [outcomeWith?, hread], hidle, [], fun outcome => ?_⟩
    refine leaves_nothing s t cache (List.forall_mem_singleton.2 fun content modified x hok => ?_)
      rfl rfl
    cases hread.symm.trans hok
  | ok found => exact ran_examine hidle now hread

/-- **Files that are scanned in order**, with nothing being extracted. -/
theorem ran_scanFiles {cache : EvidenceCache} (hidle : cache.running = []) (now : Binary64)
    (hnodup : paths.Nodup) (workers : Nat) :
    (∀ r ∈ (s.scanFiles t now workers cache paths).1,
        s.outcomeWith? t cache r.path = some r.outcome) ∧
      (s.scanFiles t now workers cache paths).2.2.running = [] ∧
      ∃ added, s.Leaves t cache paths (s.scanFiles t now workers cache paths).1
        (s.scanFiles t now workers cache paths).2.2 added := by
  induction paths generalizing workers cache with
  | nil => cases workers <;> exact ⟨by simp [scanFiles], hidle, [],
      leaves_nothing s t cache (by simp [scanFiles]) rfl rfl⟩
  | cons path rest ih =>
    cases workers with
    | zero => exact ⟨by simp [scanFiles], hidle, [],
        leaves_nothing s t cache (by simp [scanFiles]) rfl rfl⟩
    | succ workers =>
      obtain ⟨hnot, hnodup⟩ := List.nodup_cons.1 hnodup
      obtain ⟨houtcome, hidle', first, hfirst⟩ := ran_scanFile (s := s) (t := t) hidle now path
      have hdisjoint : ∀ other ∈ rest, other ∉ [path] := fun other hother hmem =>
        hnot (List.mem_singleton.1 hmem ▸ hother)
      -- what the first file left makes no difference to the others
      have hkept : ∀ other ∈ rest, s.outcomeWith? t (s.scanFile t now cache path).2 other =
          s.outcomeWith? t cache other := by
        refine fun other hother => outcomeWith?_congr fun k hk => ?_
        refine (hfirst default).entryOf?_eq (List.forall_mem_singleton.2 fun heq => ?_)
        exact hnot (t.absolute_injective (hk.symm.trans heq) ▸ hother)
      have hpaths (workers : Nat) (cache : EvidenceCache) {r : FileReport}
          (hr : r ∈ (s.scanFiles t now workers cache rest).1) : r.path ∈ rest :=
        (scanFiles_covers s t now workers cache rest).1.subset (List.mem_map_of_mem hr)
      rw [scanFiles]
      generalize s.scanFile t now cache path = scanned at houtcome hidle' hfirst hkept
      obtain ⟨outcome, mid⟩ := scanned
      cases outcome with
      | none =>
        obtain ⟨hrest, hdone, added, hadded⟩ := ih hidle' hnodup workers
        refine ⟨fun r hr => ?_, hdone, first ++ added, ?_⟩
        · rw [← hkept r.path (hpaths _ _ hr)]
          exact hrest r hr
        · exact ((hfirst default).mono (List.nil_subset _)).append hadded hdisjoint
      | some outcome =>
        obtain ⟨hrest, hdone, added, hadded⟩ := ih hidle' hnodup (workers + 1)
        refine ⟨List.forall_mem_cons.2 ⟨houtcome.symm, fun r hr => ?_⟩, hdone, first ++ added, ?_⟩
        · rw [← hkept r.path (hpaths _ _ hr)]
          exact hrest r hr
        · exact (hfirst outcome).append hadded hdisjoint

/-- **A scan that takes its files in order.** -/
theorem ranAlone_cover {cache : EvidenceCache} (hidle : cache.running = []) (now : Binary64) :
    s.RanAlone t cache (s.cover t now cache).1 (s.cover t now cache).2 := by
  obtain ⟨houtcome, hdone, hleaves⟩ := ran_scanFiles (s := s) (t := t) hidle now
    (FileSelection.nodup_selected t.options t.top t.root) t.workers
  exact ⟨covered_cover s t now cache, houtcome, hleaves, fun _ => hdone⟩

/-- Something comes of a file whose extraction ends. -/
theorem isSome_scanFile (hends : ∀ content modified, t.read path = .ok (content, modified) →
    s.extract path content ≠ .hangs) (now : Binary64) (cache : EvidenceCache) :
    (s.scanFile t now cache path).1.isSome = true := by
  rw [scanFile]
  cases hread : t.read path with
  | error reason => rfl
  | ok found =>
    have hends := hends found.1 found.2 hread
    simp only [examine, EvidenceCache.getOrExtract]
    generalize cache.ask (s.key t path found.1) = asked
    obtain ⟨admission, cache'⟩ := asked
    cases admission with
    | found x => rfl
    | joined ticket => simpa using Attempt.isSome_answer hends true
    | started ticket => simpa using Attempt.isSome_answer hends false

/-- **If every extraction ends**, no file is left. -/
theorem timedOut_cover (hends : s.Ends t) (now : Binary64) (cache : EvidenceCache) :
    (s.cover t now cache).1.timedOut = false := by
  obtain ⟨workers, hworkers⟩ : ∃ workers, t.workers = workers + 1 :=
    Nat.exists_eq_succ_of_ne_zero (by rw [ScanTarget.workers]; omega)
  have hleft : ∀ paths, (∀ path ∈ paths, path ∈ t.selection.selected) → ∀ cache,
      (s.scanFiles t now (workers + 1) cache paths).2.1 = false := by
    intro paths hpaths
    induction paths with
    | nil => exact fun _ => rfl
    | cons path rest ih =>
      intro cache
      rw [List.forall_mem_cons] at hpaths
      have hsome := isSome_scanFile (hends path hpaths.1) now cache
      rw [scanFiles]
      generalize s.scanFile t now cache path = scanned at hsome
      obtain ⟨outcome, mid⟩ := scanned
      obtain ⟨outcome, rfl⟩ := Option.isSome_iff_exists.1 hsome
      exact ih hpaths.2 mid
  rw [cover, hworkers]
  exact hleft _ (fun _ h => h) cache

end Scanner
end Conventions
