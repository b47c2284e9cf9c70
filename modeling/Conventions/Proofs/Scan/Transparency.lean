import Conventions.Proofs.Files.Write
import Conventions.Proofs.Scan.Shared

/-!
# Proofs/Scan/Transparency — sharing a cache does not change what is found

However scans on one cache are interleaved, and whatever else is done to the cache between their
steps, a scan finds what it finds with a cache of its own (`SharedScans.transparent_after`). This
holds for scans that have the cache to themselves and for those that worked side by side with
others.
-/

namespace Conventions

/-- What a scan reads stands in the tree that it scans. -/
theorem ScanTarget.readsIn_of_holds {t : ScanTarget} {contents : Set ByteArray}
    (h : t.top.Holds contents) : t.ReadsIn contents := by
  intro path content modified hread
  rw [ScanTarget.read] at hread
  split at hread
  case h_2 => cases hread
  case h_1 content' modified' hcontent =>
    split at hread
    · cases hread
    · obtain ⟨rfl, rfl⟩ := Prod.mk.inj (Except.ok.inj hread)
      exact h.content hcontent

/-- **A state of some scans in which sharing their cache changes nothing.** -/
structure SharedScans.Transparent (s : Scanner) (contents : Set ByteArray) (m : SharedScans) :
    Prop where
  /-- A scan with the cache finds what it finds with an empty one. -/
  scan : ∀ (h : Host) (o : ScanOptions) (root : Except RootFault (List String)),
    (∀ place, root = .ok place → ScanTarget.ReadsIn ⟨h.top, place, o⟩ contents) →
      (s.scan h o m.cache root).findings = (s.scan h o .empty root).findings
  /-- Its evidence names files that it scanned. -/
  places : ∀ (t : ScanTarget) (now : Binary64), t.ReadsIn contents →
    t.Places (s.cover t now m.cache).1
  /-- A scan that is done found what it finds with an empty cache. -/
  done : ∀ w ∈ m.scans, w.isDone = true → ∀ now elapsed : Binary64,
    w.target.findings w.coverage elapsed = (s.scanTarget w.target now elapsed .empty).findings
  /-- Its evidence names files that it scanned. -/
  donePlaces : ∀ w ∈ m.scans, w.target.Places w.coverage

namespace SharedScans

variable {s : Scanner} {contents : Set ByteArray}

theorem Faithful.transparent {m : SharedScans} (h : m.Faithful s contents) (hs : s.ByContent)
    (hinj : contents.InjOn s.fingerprint) : m.Transparent s contents where
  scan host o root hroot := by
    cases root with
    | error fault => rfl
    | ok place =>
      have hreads := hroot place rfl
      exact (Scanner.findings_scanTarget hs hinj hreads h.sound host.now host.elapsed).trans
        (Scanner.findings_scanTarget hs hinj hreads .empty host.now host.elapsed).symm
  places t now hreads := by
    obtain ⟨hreports, hnodup⟩ := Scanner.reports_cover hs hinj hreads h.sound now
    exact Scanner.places_of_reports hreports hnodup
  done w hw hdone now elapsed := by
    have hw := h.scans w hw
    have hall : ∀ path ∈ w.target.selection.selected, path ∈ w.coverage.reports.map (·.path) :=
      fun _ => OpenScan.mem_of_isDone hdone
    exact (Scanner.findings_of_reports hw.reports hw.nodup hall hw.limit elapsed).trans
      (Scanner.findings_scanTarget hs hinj hw.reads .empty now elapsed).symm
  donePlaces w hw :=
    Scanner.places_of_reports (h.scans w hw).reports (h.scans w hw).nodup

/-- **Sharing a cache does not change what is found**, for a scanner by content whose fingerprints
tell the contents apart that are read. -/
theorem transparent_after (hs : s.ByContent) (hinj : contents.InjOn s.fingerprint)
    (steps : List ScanStep) (hsteps : ∀ t, .begin t ∈ steps → t.ReadsIn contents) :
    (after s steps).Transparent s contents :=
  (faithful_after hs hinj steps hsteps).transparent hs hinj

/-- Two scans of directories one in the other, the second of which waits for what the first one
extracts. -/
def nestedScans (content : ByteArray) : List ScanStep :=
  let file := FileNode.file content .one
  let top := FileNode.directory [("app", .directory [("src", .directory [("main.js", file)])])]
  [.begin ⟨top, ["app"], .standard⟩, .begin ⟨top, ["app", "src"], .standard⟩,
    .take 0 "src/main.js", .take 1 "main.js", .extract 0 0 .one, .handOut 0, .receive 1,
    .report 1 0, .report 0 0, .finish 1, .finish 0]

theorem readsIn_of_mem_nestedScans {content : ByteArray} (hcontent : content ∈ contents)
    {t : ScanTarget} (ht : .begin t ∈ nestedScans content) : t.ReadsIn contents := by
  refine ScanTarget.readsIn_of_holds ?_
  have hfile : FileNode.Holds contents (.file content .one) := FileNode.holds_file hcontent .one
  have htop : FileNode.Holds contents (.directory
      [("app", .directory [("src", .directory [("main.js", .file content .one)])])]) := by
    refine FileNode.holds_directory (List.forall_mem_singleton.2 ?_)
    refine FileNode.holds_directory (List.forall_mem_singleton.2 ?_)
    exact FileNode.holds_directory (List.forall_mem_singleton.2 hfile)
  simp only [nestedScans, List.mem_cons, ScanStep.begin.injEq, reduceCtorEq, List.not_mem_nil,
    or_false] at ht
  obtain rfl | rfl := ht
  · exact htop
  · exact htop

/-- The scans after an edit and after its reversal, with a store and a new beginning between. -/
theorem transparent_after_reversal :
    let before := "throw error;".toUTF8
    let edited := "next(error);".toUTF8
    let steps := nestedScans before ++ [.flush, .restart] ++ nestedScans edited ++
      nestedScans before ++ [.retain "/app" [], .clear]
    Scanner.standard.ByContent ∧ Set.InjOn Scanner.standard.fingerprint {before, edited} ∧
      (∀ t, .begin t ∈ steps → t.ReadsIn {before, edited}) ∧
        (after .standard steps).Transparent .standard {before, edited} := by
  intro before edited steps
  have hinj : Set.InjOn Scanner.standard.fingerprint {before, edited} := by
    have hne : Scanner.standard.fingerprint before ≠ Scanner.standard.fingerprint edited := by
      decide +kernel
    exact Set.injOn_pair.2 fun h => absurd h hne
  have hsteps : ∀ t, .begin t ∈ steps → t.ReadsIn {before, edited} := by
    intro t ht
    simp only [steps, List.mem_append, List.mem_cons, reduceCtorEq, List.not_mem_nil,
      or_false] at ht
    obtain (hbefore | hedited) | hbefore := ht
    · exact readsIn_of_mem_nestedScans (Set.mem_insert _ _) hbefore
    · exact readsIn_of_mem_nestedScans (Set.mem_insert_of_mem _ (Set.mem_singleton _)) hedited
    · exact readsIn_of_mem_nestedScans (Set.mem_insert _ _) hbefore
  exact ⟨Scanner.standard_byContent, hinj, hsteps,
    transparent_after Scanner.standard_byContent hinj steps hsteps⟩

end SharedScans
end Conventions
