import Conventions.Proofs.Accuracy.Corpus
import Conventions.Proofs.Accuracy.Order
import Conventions.Proofs.Accuracy.Told
import Conventions.Proofs.Scan.Transparency

/-!
# Proofs/Accuracy/Steady — evaluations do not depend on the order of the cases

A scanner is steady if what it says of a project depends on its root alone, and not on what its cache has
from projects that were scanned before. A scanner by content is, as long as its cache is sound
(`Scanner.steady_of_sound`). The runs of a steady scanner are those of the cases one by one, so a corpus
with its cases in another order is evaluated alike (`Scanner.evaluate_regardless_of_order`).
-/

namespace Conventions

/-! ## Steady scanners -/

/-- **A scanner whose verdicts depend on the root alone**: with any cache of a kind that its scans keep,
the scan of a root gives the same verdicts, or fails for the same reason. -/
structure Scanner.Steady (s : Scanner) (h : Host) (o : ScanOptions) (kept : EvidenceCache → Prop)
    (verdicts : Except RootFault (List String) → Except ScanFault Patterns) : Prop where
  keeps : ∀ cache root, kept cache → kept (s.scan h o cache root).cache
  verdicts : ∀ cache root, kept cache →
    (s.scan h o cache root).context.map (·.patterns) = verdicts root

namespace Scanner

variable {s : Scanner} {h : Host} {o : ScanOptions} {contents : Set ByteArray}

theorem Sound.scan {cache : EvidenceCache} (hs : s.ByContent) (hinj : contents.InjOn s.fingerprint)
    (htop : h.top.Holds contents) (hc : s.Sound contents cache)
    (root : Except RootFault (List String)) : s.Sound contents (s.scan h o cache root).cache := by
  cases root with
  | error fault => exact hc
  | ok place =>
    have hreads : ScanTarget.ReadsIn ⟨h.top, place, o⟩ contents := ScanTarget.readsIn_of_holds htop
    rw [Scanner.scan, scanTarget]
    split
    case isTrue => exact hc
    case isFalse =>
      have hcover := (scanFiles_bare hs hinj hreads h.now
        (ScanTarget.selection ⟨h.top, place, o⟩).selected
        (ScanTarget.workers ⟨h.top, place, o⟩) hc).2.2
      simp only [ScanTarget.forget]
      split
      case isTrue => exact hcover
      case isFalse => exact hcover.retain _ _

/-- **A scanner by content is steady** with sound caches, if its fingerprints tell all contents apart. -/
theorem steady_of_sound (hs : s.ByContent) (hinj : contents.InjOn s.fingerprint)
    (htop : h.top.Holds contents) : s.Steady h o (s.Sound contents) fun root =>
      (s.scan h o .empty root).context.map (·.patterns) where
  keeps _ root hc := hc.scan hs hinj htop root
  verdicts cache root hc := by
    cases root with
    | error fault => rfl
    | ok place =>
      have hreads : ScanTarget.ReadsIn ⟨h.top, place, o⟩ contents :=
        ScanTarget.readsIn_of_holds htop
      have hfindings := (findings_scanTarget hs hinj hreads hc h.now h.elapsed).trans
        (findings_scanTarget hs hinj hreads .empty h.now h.elapsed).symm
      have hcontext := congrArg (fun found => found.2.map ProjectContext.patterns) hfindings
      have hbare (x : Except ScanFault ProjectContext) :
          (x.map ProjectContext.bare).map (·.patterns) = x.map (·.patterns) := by
        cases x <;> rfl
      simp only [ScanRun.findings, hbare] at hcontext
      exact hcontext

end Scanner

/-! ## Runs of a steady scanner -/

/-- **The run of a case** whose project has some verdicts, or a fault. -/
def CaseRun.ofVerdicts (case : CorpusCase) : Except ScanFault Patterns → Except ScanFault CaseRun
  | .ok patterns => .ok ⟨case, some patterns⟩
  | .error (.root .unreadable) => .ok ⟨case, none⟩
  | .error fault => .error fault

theorem CaseRun.ofVerdicts_error {fault : ScanFault} (h : fault ≠ .root .unreadable)
    (case : CorpusCase) : ofVerdicts case (.error fault) = .error fault := by
  unfold ofVerdicts
  split
  case h_1 heq => cases heq
  case h_2 heq => exact absurd (Except.error.inj heq) h
  case h_3 heq => rw [Except.error.inj heq]

theorem CaseRun.case_of_ofVerdicts {case : CorpusCase} {verdicts : Except ScanFault Patterns}
    {run : CaseRun} (h : ofVerdicts case verdicts = .ok run) : run.case = case := by
  unfold ofVerdicts at h
  split at h <;> cases h <;> rfl

namespace Scanner

variable {s : Scanner} {h : Host} {o : ScanOptions} {base : List String}
  {kept : EvidenceCache → Prop}
  {verdicts : Except RootFault (List String) → Except ScanFault Patterns}
  {cases cases' : List CorpusCase} {runs : List CaseRun} {cache cache' : EvidenceCache}
  {measure : Option (List String)} {reports : List AccuracyReport}

/-- **The run of one case**, by the verdicts on its directory. -/
def caseRun (h : Host) (base : List String)
    (verdicts : Except RootFault (List String) → Except ScanFault Patterns) (case : CorpusCase) :
    Except ScanFault CaseRun :=
  CaseRun.ofVerdicts case (verdicts (h.rootFrom base case.path))

/-- **A steady scanner runs each case by itself.** -/
theorem Steady.runCases_eq_ok_iff (hs : s.Steady h o kept verdicts) (hc : kept cache) :
    (s.runCases h o base cache cases).result = .ok runs ↔
      List.Forall₂ (fun case run => caseRun h base verdicts case = .ok run) cases runs := by
  induction cases generalizing cache runs with
  | nil =>
    rw [runCases, List.forall₂_nil_left_iff]
    exact ⟨fun hruns => (Except.ok.inj hruns).symm, fun hnil => hnil ▸ rfl⟩
  | cons case rest ih =>
    have hkept := hs.keeps cache (h.rootFrom base case.path) hc
    have hverdicts := hs.verdicts cache (h.rootFrom base case.path) hc
    have hafter {run : CaseRun} (hrun : caseRun h base verdicts case = .ok run) :
        (s.runCases h o base (s.scan h o cache (h.rootFrom base case.path)).cache rest).result.map
          (run :: ·) = .ok runs ↔
            List.Forall₂ (fun case run => caseRun h base verdicts case = .ok run) (case :: rest)
              runs := by
      rw [Fallible.map_eq_ok_iff, List.forall₂_cons_left_iff]
      constructor
      · rintro ⟨later, hlater, rfl⟩
        exact ⟨run, later, hrun, (ih hkept).1 hlater, rfl⟩
      · rintro ⟨run', later, hrun', hlater, rfl⟩
        obtain rfl := Except.ok.inj (hrun.symm.trans hrun')
        exact ⟨later, (ih hkept).2 hlater, rfl⟩
    simp only [runCases]
    split
    case h_1 context hcontext =>
      refine hafter ?_
      rw [caseRun, ← hverdicts, hcontext]
      rfl
    case h_2 hcontext =>
      refine hafter ?_
      rw [caseRun, ← hverdicts, hcontext]
      rfl
    case h_3 fault hfault hcontext =>
      rw [List.forall₂_cons_left_iff]
      refine ⟨fun hruns => (by cases hruns), ?_⟩
      rintro ⟨run, -, hrun, -⟩
      rw [caseRun, ← hverdicts, hcontext] at hrun
      cases (CaseRun.ofVerdicts_error hfault case).symm.trans hrun

/-- The runs are those of the cases. -/
theorem map_case_of_forall₂
    (hruns : List.Forall₂ (fun case run => caseRun h base verdicts case = .ok run) cases runs) :
    runs.map (·.case) = cases := by
  induction hruns with
  | nil => rfl
  | cons hrun _ ih => rw [List.map_cons, CaseRun.case_of_ofVerdicts hrun, ih]

/-! ## Evaluations of a steady scanner -/

/-- **Cases in another order** give reports of the same frameworks with the same figures. -/
theorem Steady.exists_evaluate_of_perm (hs : s.Steady h o kept verdicts) (hc : kept cache)
    (hc' : kept cache') (hnodup : (Corpus.projects cases).Nodup) (hperm : cases.Perm cases')
    (hreports : (s.evaluate h o cache ⟨cases⟩ base measure).result = .ok reports) :
    ∃ reports', (s.evaluate h o cache' ⟨cases'⟩ base measure).result = .ok reports' ∧
      List.Forall₂ AccuracyReport.SameFigures reports reports' := by
  obtain ⟨plan, runs, hplan, hruns, hall⟩ := evaluate_eq_ok_iff.1 hreports
  have hruns := (hs.runCases_eq_ok_iff hc).1 hruns
  have hcases : runs.map (·.case) = cases := map_case_of_forall₂ hruns
  have hprojects : (runs.map (·.case.project)).Nodup := by
    rw [← hcases, Corpus.projects, List.map_map] at hnodup
    exact hnodup
  obtain ⟨runs', hruns', hperm'⟩ := List.perm_comp_forall₂ hperm.symm hruns
  obtain ⟨reports', hall', hsame⟩ := AccuracyReport.exists_all_of_perm
    (MeasurePlan.nodup_keys hplan) hprojects hperm'.symm hall
  rw [MeasurePlan.ofRequest_eq_of_perm hperm] at hplan
  exact ⟨reports', evaluate_eq_ok_iff.2
    ⟨plan, runs', hplan, (hs.runCases_eq_ok_iff hc').2 hruns', hall'⟩, hsame⟩

/-- **There are reports** on a corpus that is accepted, with a plan that is, if no scan breaks off. -/
theorem Steady.exists_evaluate {document : Json} {plan : MeasurePlan}
    (hs : s.Steady h o kept verdicts) (hc : kept cache)
    (hcorpus : Corpus.ofDocument document = .ok ⟨cases⟩)
    (hplan : MeasurePlan.ofRequest ⟨cases⟩ measure = .ok plan)
    (hscans : ∀ case ∈ cases, ∃ run, caseRun h base verdicts case = .ok run) :
    ∃ reports, (s.evaluate h o cache ⟨cases⟩ base measure).result = .ok reports := by
  obtain ⟨runs, hforall⟩ := Sequence.exists_forall₂_iff.2 hscans
  have hruns := (hs.runCases_eq_ok_iff hc).2 hforall
  have hcases := map_case_of_forall₂ hforall
  obtain ⟨reports, hall⟩ := AccuracyReport.exists_all plan hcorpus fun run hrun =>
    ⟨hcases ▸ List.mem_map_of_mem hrun, isScanned_of_runCases cache hruns run hrun⟩
  exact ⟨reports, evaluate_eq_ok_iff.2 ⟨plan, runs, hplan, hruns, hall⟩⟩

/-- **The order of the cases does not matter.** A corpus that is accepted gives reports with its cases in
any order or in none, of the same frameworks and with the same figures; and it does give them for every
request that has a plan, if no scan breaks off. -/
theorem evaluate_regardless_of_order {document : Json} (base : List String)
    (measure : Option (List String)) (hs : s.Steady h o kept verdicts) (hc : kept cache)
    (hc' : kept cache') (hcorpus : Corpus.ofDocument document = .ok ⟨cases⟩)
    (hperm : cases.Perm cases') :
    (∀ reports, (s.evaluate h o cache ⟨cases⟩ base measure).result = .ok reports →
      ∃ reports', (s.evaluate h o cache' ⟨cases'⟩ base measure).result = .ok reports' ∧
        List.Forall₂ AccuracyReport.SameFigures reports reports') ∧
    (∀ reports', (s.evaluate h o cache' ⟨cases'⟩ base measure).result = .ok reports' →
      ∃ reports, (s.evaluate h o cache ⟨cases⟩ base measure).result = .ok reports) ∧
    ((∃ plan, MeasurePlan.ofRequest ⟨cases⟩ measure = .ok plan) →
      (∀ case ∈ cases, ∃ run, caseRun h base verdicts case = .ok run) →
        ∃ reports, (s.evaluate h o cache ⟨cases⟩ base measure).result = .ok reports) := by
  have hnodup : (Corpus.projects cases).Nodup := (Corpus.ofDocument_eq_ok_iff.1 hcorpus).2.nodup
  have hnodup' : (Corpus.projects cases').Nodup := (hperm.map _).nodup_iff.1 hnodup
  refine ⟨fun reports hreports => hs.exists_evaluate_of_perm hc hc' hnodup hperm hreports,
    fun reports' hreports' => ?_, fun ⟨plan, hplan⟩ hscans =>
      hs.exists_evaluate hc hcorpus hplan hscans⟩
  obtain ⟨reports, hreports, -⟩ :=
    hs.exists_evaluate_of_perm hc' hc hnodup' hperm.symm hreports'
  exact ⟨reports, hreports⟩

/-! ## Two projects -/

/-- Two projects of one framework. -/
def twoProjects : List CorpusCase :=
  [⟨"shop", "a", "express", [("authentication", "cookie")]⟩,
    ⟨"blog", "b", "express", [("errorHandling", "try-catch"), ("authentication", "session")]⟩]

/-- Their directories. -/
def hostOfTwo : Host where
  top := .directory
    [("a", .directory [("main.js", .file "req.cookies.token".toUTF8 .one)]),
      ("b", .directory [("main.js", .file "throw error;".toUTF8 .one)])]
  environment := []
  workingDirectory := []
  homes := []
  now := .one
  elapsed := .one

/-- The document that describes them. -/
def twoProjectsDocument : Json :=
  .obj [("version", .str "0.1"), ("cases", .arr (twoProjects.map fun case =>
    .obj [("project", .str case.project), ("path", .str case.path),
      ("framework", .str case.framework), ("expected", .obj (Json.textMembers case.expected))]))]

theorem ofDocument_twoProjects : Corpus.ofDocument twoProjectsDocument = .ok ⟨twoProjects⟩ := by
  have hdescribes : Corpus.Describes twoProjectsDocument twoProjects := by
    refine ⟨_, rfl, by decide, rfl, _, rfl, List.cons_ne_nil _ _,
      .cons ⟨_, rfl, ?_⟩ (.cons ⟨_, rfl, ?_⟩ .nil)⟩
    · exact ⟨by decide, ⟨rfl, by decide⟩, ⟨rfl, by decide⟩, ⟨rfl, by decide⟩, rfl, by decide,
        by decide, by decide⟩
    · exact ⟨by decide, ⟨rfl, by decide⟩, ⟨rfl, by decide⟩, ⟨rfl, by decide⟩, rfl, by decide,
        by decide, by decide⟩
  have htrustworthy : Corpus.Trustworthy twoProjects := by
    refine ⟨by decide, ?_⟩
    simp only [← FacetKey.checkLabel_eq_ok_iff]
    decide
  exact htrustworthy.ofDocument_eq hdescribes

theorem evaluate_regardless_of_order_of_two :
    let contents : Set ByteArray := {"req.cookies.token".toUTF8, "throw error;".toUTF8}
    let verdicts := fun root =>
      (standard.scan hostOfTwo .standard .empty root).context.map (·.patterns)
    standard.Steady hostOfTwo .standard (standard.Sound contents) verdicts ∧
      standard.Sound contents .empty ∧ Corpus.ofDocument twoProjectsDocument = .ok ⟨twoProjects⟩ ∧
        twoProjects.Perm twoProjects.reverse ∧
          ∀ reports, (standard.evaluate hostOfTwo .standard .empty ⟨twoProjects⟩ [] none).result =
              .ok reports →
            ∃ reports', (standard.evaluate hostOfTwo .standard .empty ⟨twoProjects.reverse⟩ []
              none).result = .ok reports' ∧
                List.Forall₂ AccuracyReport.SameFigures reports reports' := by
  intro contents verdicts
  have hinj : contents.InjOn standard.fingerprint := by
    have hne : standard.fingerprint "req.cookies.token".toUTF8 ≠
        standard.fingerprint "throw error;".toUTF8 := by
      decide +kernel
    exact Set.injOn_pair.2 fun h => absurd h hne
  have htop : hostOfTwo.top.Holds contents := by
    refine FileNode.holds_directory (List.forall_mem_cons.2 ⟨?_, List.forall_mem_singleton.2 ?_⟩)
    · refine FileNode.holds_directory (List.forall_mem_singleton.2 ?_)
      exact FileNode.holds_file (Set.mem_insert _ _) .one
    · refine FileNode.holds_directory (List.forall_mem_singleton.2 ?_)
      exact FileNode.holds_file (Set.mem_insert_of_mem _ (Set.mem_singleton _)) .one
  have hsteady : standard.Steady hostOfTwo .standard (standard.Sound contents) verdicts :=
    steady_of_sound standard_byContent hinj htop
  have hperm : twoProjects.Perm twoProjects.reverse := twoProjects.reverse_perm.symm
  exact ⟨hsteady, .empty, ofDocument_twoProjects, hperm, (evaluate_regardless_of_order [] none
    hsteady .empty .empty ofDocument_twoProjects hperm).1⟩

end Scanner
end Conventions
