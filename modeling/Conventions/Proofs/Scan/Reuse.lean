import Conventions.Proofs.Scan.Accounting
import Conventions.Proofs.Scan.Eviction

/-!
# Proofs/Scan/Reuse — what is extracted once is not extracted again

A scan that has the cache for itself extracts exactly the files of whose content the cache had nothing
(`Scanner.knows`). All that it extracts is left there under the path and the content, and what is taken
away later belongs to other paths. So a second scan extracts nothing and tells the same, after edits only
files are extracted that were edited, and a file whose content comes back is found, however many scans
were made in between (`Scanner.History`).
-/

namespace Conventions

/-- **What two contexts are compared by**: all but how the scan went. -/
def ProjectContext.compared (c : ProjectContext) : ProjectMetadata × Patterns :=
  (c.metadata, c.patterns)

namespace ScanTarget

/-- **Does a scan leave what the cache has of a path**: is the path that of a file it selects, or none
below its root? -/
def Spares (t : ScanTarget) (path : String) : Prop :=
  path ∈ t.selection.selected.map t.absolute ∨
    ¬ EvidenceCache.below (Path.absolute t.root) <+: path.toList

/-- **Was a file edited** between two scans: did the first one not select it, or read something else
there? -/
def Edited (t t' : ScanTarget) (path : String) : Prop :=
  path ∉ t.selection.selected ∨ (t.read path).map Prod.fst ≠ (t'.read path).map Prod.fst

end ScanTarget

namespace Scanner

/-- **Does a cache know a file**: has it an entry for the content that is read there? -/
def knows (s : Scanner) (t : ScanTarget) (cache : EvidenceCache) (path : String) : Bool :=
  match t.read path with
  | .ok (content, _) => (cache.entryOf? (s.key t path content)).isSome
  | .error _ => false

/-- **Does every extraction give something**, without an exception? -/
def Gives (s : Scanner) (t : ScanTarget) : Prop :=
  ∀ path ∈ t.selection.selected, ∀ content modified, t.read path = .ok (content, modified) →
    ∃ x, s.extract path content = .gives x

/-- **Scans one after the other**, each with the cache for itself and each of a project as it is then,
with what they came to. -/
inductive History (s : Scanner) :
    EvidenceCache → List (ScanTarget × ScanCoverage) → EvidenceCache → Prop where
  | nil (cache : EvidenceCache) : History s cache [] cache
  | cons {t : ScanTarget} {c : ScanCoverage} {before after last : EvidenceCache}
      {rest : List (ScanTarget × ScanCoverage)} (idle : before.running = [])
      (scan : s.RunsAlone t before c after) (scans : History s after rest last) :
    History s before ((t, c) :: rest) last

/-- **What a scan takes from the cache and extracts**, and what later scans do. -/
structure Reuses (s : Scanner) (t : ScanTarget) (before : EvidenceCache) (c : ScanCoverage)
    (after : EvidenceCache) : Prop where
  cached : ∀ f ∈ c.scanned, f.2.2.2 = s.knows t before f.1
  hits : c.hits = c.scanned.countP fun f => s.knows t before f.1
  extractions : c.extractions = c.scanned.countP fun f => !s.knows t before f.1
  completes : s.Gives t → t.options.timeout = none → c.timedOut = false
  counted : s.Gives t → c.timedOut = false →
    after.extractions = before.extractions + c.extractions
  again : s.Gives t → c.timedOut = false → ∀ c' after', s.RunsAlone t after c' after' →
    c'.timedOut = false → c'.extractions = 0 ∧ after'.extractions = after.extractions ∧
      (∀ elapsed, t.findings c' elapsed = t.findings c elapsed) ∧
        ∀ elapsed elapsed', (t.context c' elapsed').map ProjectContext.compared =
          (t.context c elapsed).map ProjectContext.compared
  edited : s.Gives t → c.timedOut = false → ∀ t' c' after', t'.root = t.root →
    s.RunsAlone t' after c' after' → ∀ f ∈ c'.scanned, f.2.2.2 = false → t.Edited t' f.1
  reverted : s.Gives t → c.timedOut = false → ∀ scans mid, s.History after scans mid →
    mid.running = [] → ∀ t' c' last, t'.root = t.root → s.RunsAlone t' mid c' last →
      ∀ f ∈ c'.scanned, ¬ t.Edited t' f.1 →
        (∀ scan ∈ scans, scan.2.timedOut = false → scan.2.selection.capped = false →
          scan.1.Spares (t.absolute f.1)) → f.2.2.2 = true

end Scanner

/-! ## What is taken away -/

namespace ScanTarget

variable {t : ScanTarget} {c : ScanCoverage} {cache : EvidenceCache} {k : CacheKey} {path : String}

theorem spares_of_mem (h : path ∈ t.selection.selected) : t.Spares (t.absolute path) :=
  .inl (List.mem_map_of_mem h)

theorem running_forget (t : ScanTarget) (c : ScanCoverage) (cache : EvidenceCache) :
    (t.forget c cache).running = cache.running := by
  rw [forget]
  split <;> rfl

theorem extractions_forget (t : ScanTarget) (c : ScanCoverage) (cache : EvidenceCache) :
    (t.forget c cache).extractions = cache.extractions := by
  rw [forget]
  split <;> rfl

/-- **What a scan spares** stands where it stood. -/
theorem entryOf?_forget (hselection : c.selection = t.selection)
    (hspares : c.timedOut = false → c.selection.capped = false → t.Spares k.path) :
    (t.forget c cache).entryOf? k = cache.entryOf? k := by
  rw [forget]
  split
  case isTrue => rfl
  case isFalse hcomplete =>
    rw [Bool.not_eq_true, Bool.or_eq_false_iff] at hcomplete
    rw [EvidenceCache.entryOf?_retain, if_neg]
    intro hstale
    rw [EvidenceCache.isStale, Bool.and_eq_true, List.isPrefixOf_iff_prefix, Bool.not_eq_true',
      ← Bool.not_eq_true, List.contains_iff_mem, hselection] at hstale
    exact (hspares hcomplete.1 hcomplete.2).elim hstale.2 fun hbelow => hbelow hstale.1

theorem compared_context (t : ScanTarget) {c c' : ScanCoverage} (h : c.patterns = c'.patterns)
    (elapsed elapsed' : Binary64) : (t.context c elapsed).map ProjectContext.compared =
      (t.context c' elapsed').map ProjectContext.compared := by
  rw [context, context, h]
  cases ProjectMetadata.detect t.top t.root <;> rfl

end ScanTarget

namespace Scanner

variable {s : Scanner} {t t' : ScanTarget} {before mid after last : EvidenceCache}
  {c c' : ScanCoverage} {path : String} {content : ByteArray} {modified : Binary64}

/-! ## What the cache had is taken -/

theorem key_congr (hroot : t'.root = t.root) : s.key t' path content = s.key t path content := by
  rw [key, key, ScanTarget.absolute, ScanTarget.absolute, ScanTarget.place, ScanTarget.place, hroot]

theorem knows_of_read (hread : t.read path = .ok (content, modified)) :
    s.knows t before path = (before.entryOf? (s.key t path content)).isSome := by
  rw [knows, hread]

/-- **A file that was scanned** was read, and found exactly if the cache had the content. -/
theorem read_of_outcomeWith? {x : Extraction} {cached : Bool}
    (h : s.outcomeWith? t before path = some (.scanned x modified cached)) :
    ∃ content, t.read path = .ok (content, modified) ∧ cached = s.knows t before path := by
  rw [outcomeWith?] at h
  cases hread : t.read path with
  | error reason => simp [hread] at h
  | ok found =>
    obtain ⟨content, time⟩ := found
    rw [knows_of_read hread]
    simp only [hread] at h
    cases hentry : before.entryOf? (s.key t path content) with
    | some e =>
      simp only [hentry, Option.some.injEq, FileOutcome.scanned.injEq] at h
      obtain ⟨-, rfl, rfl⟩ := h
      exact ⟨content, rfl, rfl⟩
    | none =>
      simp only [hentry] at h
      cases hextract : s.extract path content with
      | hangs => simp [hextract, Attempt.outcome?] at h
      | gives y =>
        rw [hextract] at h
        obtain ⟨-, rfl, rfl⟩ := FileOutcome.scanned.inj (Option.some.inj h)
        exact ⟨content, rfl, rfl⟩
      | raises reason =>
        rw [hextract] at h
        obtain ⟨-, rfl, rfl⟩ := FileOutcome.scanned.inj (Option.some.inj h)
        exact ⟨content, rfl, rfl⟩

/-- A path has one content, so what was added has different paths. -/
theorem Leaves.nodup_paths {paths : List String} {reports : List FileReport}
    {added : List (CacheKey × CacheEntry)} (h : s.Leaves t before paths reports after added) :
    (added.map (·.1.path)).Nodup := by
  have hinj : ∀ k ∈ added.map (·.1), ∀ l ∈ added.map (·.1), k.path = l.path → k = l := by
    intro k hk l hl hpath
    obtain ⟨p, hp, rfl⟩ := List.mem_map.1 hk
    obtain ⟨q, hq, rfl⟩ := List.mem_map.1 hl
    obtain ⟨path, -, content, modified, hread, hkey, -⟩ := h.adds p hp
    obtain ⟨path', -, content', modified', hread', hkey', -⟩ := h.adds q hq
    rw [hkey, hkey'] at hpath ⊢
    obtain rfl := t.absolute_injective hpath
    rw [(Prod.mk.inj (Except.ok.inj (hread.symm.trans hread'))).1]
  have hnodup := h.nodup.map_on hinj
  rwa [List.map_map] at hnodup

namespace RanAlone

variable {f : String × Extraction × Binary64 × Bool}

theorem read_of_scanned (h : s.RanAlone t before c after) (hf : f ∈ c.scanned) :
    ∃ content, t.read f.1 = .ok (content, f.2.2.1) ∧ f.2.2.2 = s.knows t before f.1 := by
  have houtcome := h.outcome _ (ScanCoverage.mem_scanned hf)
  obtain ⟨path, x, modified, cached⟩ := f
  exact read_of_outcomeWith? houtcome

theorem cached_eq (h : s.RanAlone t before c after) (hf : f ∈ c.scanned) :
    f.2.2.2 = s.knows t before f.1 := by
  obtain ⟨content, -, hcached⟩ := h.read_of_scanned hf
  exact hcached

theorem hits_eq (h : s.RanAlone t before c after) :
    c.hits = c.scanned.countP fun f => s.knows t before f.1 :=
  List.countP_congr fun f hf => by rw [h.cached_eq hf]

theorem extractions_eq (h : s.RanAlone t before c after) :
    c.extractions = c.scanned.countP fun f => !s.knows t before f.1 :=
  List.countP_congr fun f hf => by rw [h.cached_eq hf]

theorem selected_of_scanned (h : s.RanAlone t before c after) (hf : f ∈ c.scanned) :
    f.1 ∈ t.selection.selected :=
  h.covered.selected _ (ScanCoverage.mem_scanned hf)

/-- **The paths of what was added** are those of the files that were extracted. -/
theorem paths_added (h : s.RanAlone t before c after) (hgives : s.Gives t)
    (hdone : c.timedOut = false) {added : List (CacheKey × CacheEntry)}
    (hleaves : s.Leaves t before t.selection.selected c.reports after added) :
    (added.map (·.1.path)).Perm
      ((c.scanned.filter fun f => !f.2.2.2).map fun f => t.absolute f.1) := by
  refine (List.perm_ext_iff_of_nodup hleaves.nodup_paths ?_).2 fun a => ⟨fun ha => ?_, fun ha => ?_⟩
  · have hnodup := (List.filter_sublist (p := fun f => !f.2.2.2) (l := c.scanned)).map (·.1)
    have hnodup := (hnodup.nodup (c.nodup_scanned h.covered.nodup)).map t.absolute_injective
    rwa [List.map_map] at hnodup
  · obtain ⟨p, hp, rfl⟩ := List.mem_map.1 ha
    obtain ⟨path, hpath, content, modified, hread, hkey, hnone, hx⟩ := hleaves.adds p hp
    obtain ⟨r, hr, rfl⟩ := List.mem_map.1 (h.covered.timedOut.1 hdone path hpath)
    have houtcome := h.outcome r hr
    rw [outcomeWith?, hread] at houtcome
    rw [hkey] at hnone
    simp only [hnone, hx, Attempt.outcome?, Option.some.injEq] at houtcome
    have hscanned : (r.path, p.2.extraction.told r.path, modified, false) ∈ c.scanned := by
      refine ScanCoverage.mem_scanned_of_mem ?_
      rw [houtcome]
      exact hr
    exact List.mem_map.2 ⟨_, List.mem_filter.2 ⟨hscanned, rfl⟩, congrArg CacheKey.path hkey.symm⟩
  · obtain ⟨f, hf, rfl⟩ := List.mem_map.1 ha
    obtain ⟨hf, hcached⟩ := List.mem_filter.1 hf
    obtain ⟨content, hread, hknows⟩ := h.read_of_scanned hf
    obtain ⟨x, hx⟩ := hgives f.1 (h.selected_of_scanned hf) content _ hread
    have hstored := hleaves.stored _ (ScanCoverage.mem_scanned hf) content _ x hread hx
    rw [Bool.not_eq_true'] at hcached
    rw [hcached, knows_of_read hread, eq_comm, Option.isSome_eq_false_iff, Option.isNone_iff_eq_none,
      EvidenceCache.entryOf?, EvidenceCache.paired?_eq_none_iff_notMem] at hknows
    obtain ⟨p, hp, hkey⟩ := List.mem_map.1 ((hleaves.mem_keys_iff.1 hstored).resolve_left hknows)
    exact List.mem_map.2 ⟨p, hp, by rw [hkey]; rfl⟩

/-- **What a scan extracts is counted** by the cache. -/
theorem counted (h : s.RanAlone t before c after) (hgives : s.Gives t) (hdone : c.timedOut = false) :
    after.extractions = before.extractions + c.extractions := by
  obtain ⟨added, hleaves⟩ := h.leaves
  have hlength := (h.paths_added hgives hdone hleaves).length_eq
  rw [List.length_map, List.length_map, ← List.countP_eq_length_filter] at hlength
  rw [hleaves.extractions, hlength]
  rfl

/-- **What a scan leaves of a file**: what it found there, or what the file gave. -/
theorem exists_entry (h : s.RanAlone t before c after) (hgives : s.Gives t)
    (hdone : c.timedOut = false) (hpath : path ∈ t.selection.selected)
    (hread : t.read path = .ok (content, modified)) :
    ∃ e, after.entryOf? (s.key t path content) = some e ∧
      (before.entryOf? (s.key t path content) = some e ∨
        before.entryOf? (s.key t path content) = none ∧
          s.extract path content = .gives e.extraction) := by
  obtain ⟨added, hleaves⟩ := h.leaves
  obtain ⟨x, hx⟩ := hgives path hpath content modified hread
  obtain ⟨r, hr, rfl⟩ := List.mem_map.1 (h.covered.timedOut.1 hdone path hpath)
  obtain ⟨e, he⟩ := EvidenceCache.mem_keys_iff.1 (hleaves.stored r hr content modified x hread hx)
  refine ⟨e, he, ?_⟩
  rw [hleaves.entries, EvidenceCache.paired?_append, Option.or_eq_some_iff] at he
  obtain hfound | ⟨hnone, hadded⟩ := he
  · exact .inl hfound
  · obtain ⟨path', -, content', modified', hread', hkey, -, hx'⟩ :=
      hleaves.adds _ (EvidenceCache.mem_of_paired? hadded)
    obtain rfl : r.path = path' := t.absolute_injective (congrArg CacheKey.path hkey)
    obtain ⟨rfl, -⟩ := Prod.mk.inj (Except.ok.inj (hread.symm.trans hread'))
    exact .inr ⟨hnone, hx'⟩

/-- **What comes of a file** with what a scan left is what came of it. -/
theorem bare_outcomeWith? (h : s.RanAlone t before c after) (hgives : s.Gives t)
    (hdone : c.timedOut = false) (hpath : path ∈ t.selection.selected) :
    (s.outcomeWith? t after path).map FileOutcome.bare =
      (s.outcomeWith? t before path).map FileOutcome.bare := by
  rw [outcomeWith?, outcomeWith?]
  cases hread : t.read path with
  | error reason => rfl
  | ok found =>
    obtain ⟨e, he, hbefore | ⟨hnone, hx⟩⟩ := h.exists_entry hgives hdone hpath hread
    · simp only [he, hbefore]
    · simp only [he, hnone, hx]
      rfl

end RanAlone

/-! ## Later scans -/

/-- **A second scan** of a project that is as it was extracts nothing and tells the same. -/
theorem RanAlone.again (h : s.RanAlone t before c mid) (hgives : s.Gives t) (hdone : c.timedOut = false)
    (h' : s.RunsAlone t (t.forget c mid) c' after) (hdone' : c'.timedOut = false) :
    c'.extractions = 0 ∧ after.extractions = (t.forget c mid).extractions ∧
      (∀ elapsed, t.findings c' elapsed = t.findings c elapsed) ∧
        ∀ elapsed elapsed', (t.context c' elapsed').map ProjectContext.compared =
          (t.context c elapsed).map ProjectContext.compared := by
  have hidle : (t.forget c mid).running = [] := by
    rw [ScanTarget.running_forget]
    exact h.idle hdone
  obtain ⟨mid', hran, rfl⟩ := h'.exists_ranAlone hidle
  have hforget : ∀ path ∈ t.selection.selected, ∀ k : CacheKey, k.path = t.absolute path →
      (t.forget c mid).entryOf? k = mid.entryOf? k := fun path hpath k hk =>
    ScanTarget.entryOf?_forget h.covered.selection fun _ _ => hk ▸ ScanTarget.spares_of_mem hpath
  have hnone : c'.extractions = 0 := by
    rw [hran.extractions_eq, List.countP_eq_zero]
    intro f hf
    obtain ⟨content, hread, -⟩ := hran.read_of_scanned hf
    have hpath := hran.selected_of_scanned hf
    obtain ⟨e, he, -⟩ := h.exists_entry hgives hdone hpath hread
    rw [knows_of_read hread, hforget f.1 hpath _ rfl, he]
    simp
  have houtcome : ∀ r ∈ c'.reports,
      (s.outcomeWith? t before r.path).map FileOutcome.bare = some r.outcome.bare := by
    intro r hr
    have hpath := hran.covered.selected r hr
    rw [← h.bare_outcomeWith? hgives hdone hpath, ← outcomeWith?_congr (hforget r.path hpath),
      hran.outcome r hr]
    rfl
  have hfirst : ∀ r ∈ c.reports,
      (s.outcomeWith? t before r.path).map FileOutcome.bare = some r.outcome.bare := by
    intro r hr
    rw [h.outcome r hr]
    rfl
  have hperm : (c'.reports.map FileReport.bare).Perm (c.reports.map FileReport.bare) := by
    rw [FileReport.map_bare_eq houtcome, FileReport.map_bare_eq hfirst]
    have hpaths := hran.covered.perm_selected hdone'
    exact (hpaths.trans (h.covered.perm_selected hdone).symm).map _
  have hpatterns : c'.patterns = c.patterns := by
    rw [← c'.patterns_bare, ← c.patterns_bare]
    exact ScanCoverage.patterns_congr (ScanCoverage.ordered_bare_of_perm hran.covered.nodup hperm)
  refine ⟨hnone, ?_, fun elapsed => ?_, fun elapsed elapsed' => ?_⟩
  · rw [ScanTarget.extractions_forget, hran.counted hgives hdone', hnone]
    rfl
  · exact t.findings_eq_of_perm elapsed (hran.covered.selection.trans h.covered.selection.symm)
      (hdone'.trans hdone.symm) hperm hran.covered.nodup
  · exact t.compared_context hpatterns elapsed' elapsed

/-- **What the cache has** stays there, if every scan that came to all files spares it. -/
theorem History.entryOf?_eq {scans : List (ScanTarget × ScanCoverage)} {k : CacheKey}
    {e : CacheEntry} (h : s.History before scans last) (hspares : ∀ scan ∈ scans,
      scan.2.timedOut = false → scan.2.selection.capped = false → scan.1.Spares k.path)
    (he : before.entryOf? k = some e) : last.entryOf? k = some e := by
  induction h with
  | nil => exact he
  | cons idle scan _ ih =>
    obtain ⟨hthis, hrest⟩ := List.forall_mem_cons.1 hspares
    obtain ⟨mid, hran, rfl⟩ := scan.exists_ranAlone idle
    obtain ⟨added, hleaves⟩ := hran.leaves
    refine ih hrest ?_
    rw [ScanTarget.entryOf?_forget hran.covered.selection hthis, EvidenceCache.entryOf?,
      hleaves.entries, EvidenceCache.paired?_append]
    exact Option.or_eq_some_iff.2 (.inl he)

/-- **A file with a content that was scanned before** is found. -/
theorem RanAlone.reverted (h : s.RanAlone t before c mid) (hgives : s.Gives t)
    (hdone : c.timedOut = false) {scans : List (ScanTarget × ScanCoverage)}
    (hscans : s.History (t.forget c mid) scans after) (hidle : after.running = [])
    (hroot : t'.root = t.root) (h' : s.RunsAlone t' after c' last)
    {f : String × Extraction × Binary64 × Bool} (hf : f ∈ c'.scanned) (hsame : ¬ t.Edited t' f.1)
    (hspares : ∀ scan ∈ scans, scan.2.timedOut = false → scan.2.selection.capped = false →
      scan.1.Spares (t.absolute f.1)) : f.2.2.2 = true := by
  obtain ⟨mid', hran, rfl⟩ := h'.exists_ranAlone hidle
  obtain ⟨content, hread, hcached⟩ := hran.read_of_scanned hf
  rw [ScanTarget.Edited, not_or, not_not, not_not, hread] at hsame
  obtain ⟨hpath, hsame⟩ := hsame
  obtain ⟨⟨content', modified⟩, hread', rfl⟩ := Fallible.map_eq_ok_iff.1 hsame
  obtain ⟨e, he, -⟩ := h.exists_entry hgives hdone hpath hread'
  have hleft : (t.forget c mid).entryOf? (s.key t f.1 content') = some e := by
    rw [ScanTarget.entryOf?_forget h.covered.selection fun _ _ => ScanTarget.spares_of_mem hpath]
    exact he
  rw [hcached, knows_of_read hread, key_congr hroot, hscans.entryOf?_eq hspares hleft]
  rfl

/-- An extraction that gives something ends. -/
theorem Gives.ends (h : s.Gives t) : s.Ends t := by
  intro path hpath content modified hread hangs
  obtain ⟨x, hx⟩ := h path hpath content modified hread
  rw [hangs] at hx
  cases hx

/-- What a scan takes from the cache and extracts, and what later scans do. -/
theorem RunsAlone.reuses (h : s.RunsAlone t before c after) (hidle : before.running = []) :
    s.Reuses t before c after := by
  obtain ⟨mid, hran, rfl⟩ := h.exists_ranAlone hidle
  refine ⟨fun f hf => hran.cached_eq hf, hran.hits_eq, hran.extractions_eq,
    fun hgives htimeout => h.timedOut_eq_false htimeout hgives.ends, ?_, ?_, ?_, ?_⟩
  · intro hgives hdone
    rw [ScanTarget.extractions_forget]
    exact hran.counted hgives hdone
  · intro hgives hdone c' after' h' hdone'
    exact hran.again hgives hdone h' hdone'
  · intro hgives hdone t' c' after' hroot h' f hf hextracted
    by_contra hsame
    have hidle : (t.forget c mid).running = [] := by
      rw [ScanTarget.running_forget]
      exact hran.idle hdone
    have hcached := hran.reverted hgives hdone (.nil _) hidle hroot h' hf hsame (by simp)
    rw [hextracted] at hcached
    cases hcached
  · intro hgives hdone scans mid' hscans hidle t' c' last hroot h' f hf hsame hspares
    exact hran.reverted hgives hdone hscans hidle hroot h' hf hsame hspares

/-- **A scan extracts what the cache does not know**, and later scans do not extract it again. Without
a limit of time it comes to all files, if every extraction gives something. -/
theorem reuse_exact (s : Scanner) (t : ScanTarget) :
    (t.options.timeout = none → s.Gives t → ∀ now elapsed before,
      s.RunsAlone t before (s.cover t now before).1 (s.scanTarget t now elapsed before).cache ∧
        (s.cover t now before).1.timedOut = false ∧
        (s.scanTarget t now elapsed before).context =
          t.context (s.cover t now before).1 elapsed) ∧
    ∀ before c after, before.running = [] → s.RunsAlone t before c after →
      s.Reuses t before c after := by
  refine ⟨fun htimeout hgives now elapsed before => ?_, fun before c after hidle h =>
    h.reuses hidle⟩
  have hwait : t.CanWait := ScanTarget.canWait_of_timeout htimeout
  exact ⟨.inOrder now elapsed hwait, timedOut_cover hgives.ends now before,
    context_of_canWait s now elapsed before hwait⟩

/-- A second scan of a project, with a cache that has another content of its file, extracts nothing. -/
theorem reuse_exact_nested :
    let s := Scanner.standard
    let t := nestedProject
    let c := (s.cover t .one nestedCache).1
    let after := (s.scanTarget t .one .one nestedCache).cache
    t.options.timeout = none ∧ s.Gives t ∧ nestedCache.running = [] ∧
      s.RunsAlone t nestedCache c after ∧ s.Reuses t nestedCache c after ∧
        (s.cover t .one after).1.extractions = 0 := by
  intro s t c after
  have hgives : s.Gives t := fun path _ content _ _ => ⟨_, rfl⟩
  obtain ⟨hruns, hreuses⟩ := reuse_exact s t
  obtain ⟨hfirst, hdone, -⟩ := hruns rfl hgives .one .one nestedCache
  obtain ⟨hsecond, hdone', -⟩ := hruns rfl hgives .one .one after
  have hreuses := hreuses nestedCache c after rfl hfirst
  exact ⟨rfl, hgives, rfl, hfirst, hreuses,
    (hreuses.again hgives hdone _ _ hsecond hdone').1⟩

end Scanner
end Conventions
