import Conventions.CommandLine.Commands
import Conventions.Proofs.Accuracy.Account
import Conventions.Proofs.Accuracy.Expectations
import Conventions.Proofs.Scan.Context
import Conventions.Proofs.Schema.Responses

/-!
# Proofs/Accuracy/Told — reports meet their contract

Whatever the runs were, the shares of a report are shares of something, so they and their average lie
between zero and one, and its failures are as sure as verdicts are (`isTold_ofRuns`). That is all the
contract asks beyond the shape of the document (`Contract.check_answer`). With a corpus that can be
trusted, a plan for it and verdicts of scans there is a report for every framework
(`Corpus.answer_meetsContract`), so that an evaluation never breaks off because of its own answer
(`Command.evaluate_keepsContract`).
-/

namespace Conventions

/-! ## What can be told -/

/-- **A share of some things among all of them**, of which there are some. -/
def Binary64.IsShare (x : Binary64) : Prop :=
  ∃ right total, right ≤ total ∧ ratio? right total = some x

theorem Binary64.IsShare.isRatio {x : Binary64} (h : x.IsShare) : x.IsRatio := by
  obtain ⟨right, total, hle, hratio⟩ := h
  rw [ratio?] at hratio
  split at hratio
  case isTrue => cases hratio
  case isFalse hne =>
    obtain rfl := Option.some.inj hratio
    exact isRatio_ofRatio (Nat.pos_of_ne_zero hne) hle

/-- **A report that can be told**: each accuracy is a share, these and their average are between zero and
one when they are rounded, and how sure a failure is is a whole percentage. Where no case was evaluated
there is nothing to divide. -/
structure AccuracyReport.IsTold (r : AccuracyReport) : Prop where
  evaluated : 0 ≤ r.casesEvaluated
  average : (r.average.roundTo 4).IsRatio
  byCategory : ∀ e ∈ r.byCategory, e.2.IsShare ∧ (e.2.roundTo 4).IsRatio
  byLabel : ∀ e ∈ r.byLabel, e.2.IsShare ∧ (e.2.roundTo 4).IsRatio
  failures : ∀ f ∈ r.failures, 0 ≤ f.confidence ∧ f.confidence ≤ 100
  skipped : r.casesEvaluated = 0 →
    r.byCategory = [] ∧ r.byLabel = [] ∧ r.failures = [] ∧ r.average = .zero

/-! ## The document -/

namespace Contract

open Schema

/-- The contract of reports, by which its parts are known. -/
abbrev reportParts : Definitions := accuracyReport.definitions

theorem meets_failure {f : CaseFailure} (h : 0 ≤ f.confidence ∧ f.confidence ≤ 100) :
    Meets reportParts failureRules f.document :=
  meets_recordRules.2 ⟨_, rfl, .of_forall₂ (by decide) (.refl _) (fun _ h _ => h) <|
    .cons ⟨rfl, fits_anyText.2 ⟨_, rfl⟩⟩ <|
    .cons ⟨rfl, fits_anyText.2 ⟨_, rfl⟩⟩ <|
    .cons ⟨rfl, fits_anyText.2 ⟨_, rfl⟩⟩ <|
    .cons ⟨rfl, fits_anyText.2 ⟨_, rfl⟩⟩ <|
    .cons ⟨rfl, fits_wholeBetween.2 ⟨_, .inl rfl, h⟩⟩ <|
    .cons ⟨rfl, fits_anyTexts _⟩ <|
    .cons ⟨rfl, fits_anyTexts _⟩ <|
    .cons ⟨rfl, fits_anyText.2 ⟨_, rfl⟩⟩ .nil⟩

theorem fits_ratios {entries : List (String × Binary64)}
    (h : ∀ e ∈ entries, (e.2.roundTo 4).IsRatio) :
    Fits reportParts (mapOf (reference "ratio")) (AccuracyReport.ratios entries) :=
  fits_mapOf.2 ⟨_, rfl, List.forall_mem_map.2 fun e he =>
    meets_ratioRules (h e (List.mem_mergeSort.1 he))⟩

/-- **Reports that can be told** make an answer that meets the contract. -/
theorem check_answer {reports : List AccuracyReport} (h : ∀ r ∈ reports, r.IsTold) :
    accuracyReport.check (AccuracyReport.answer reports) = none := by
  have hreport {r : AccuracyReport} (hr : r.IsTold) : Fits reportParts
      (direct (recordRules
        [field "framework" anyText, field "cases_evaluated" (wholeFrom 0),
          field "average_accuracy" (reference "ratio"),
          field "accuracy_by_category" (mapOf (reference "ratio")),
          field "accuracy_by_label" (mapOf (reference "ratio")),
          field "failures" (listOf (reference "failure")),
          field "recommendations" (listOf anyText), field "skipped_cases" (listOf anyText)]))
      r.document :=
    meets_recordRules.2 ⟨_, rfl, .of_forall₂ (by decide) (.refl _) (fun _ h _ => h) <|
      .cons ⟨rfl, fits_anyText.2 ⟨_, rfl⟩⟩ <|
      .cons ⟨rfl, fits_wholeFrom.2 ⟨_, .inl rfl, hr.evaluated⟩⟩ <|
      .cons ⟨rfl, meets_ratioRules hr.average⟩ <|
      .cons ⟨rfl, fits_ratios fun e he => (hr.byCategory e he).2⟩ <|
      .cons ⟨rfl, fits_ratios fun e he => (hr.byLabel e he).2⟩ <|
      .cons ⟨rfl, fits_listOf.2
        ⟨_, rfl, List.forall_mem_map.2 fun f hf => meets_failure (hr.failures f hf)⟩⟩ <|
      .cons ⟨rfl, fits_anyTexts _⟩ <|
      .cons ⟨rfl, fits_anyTexts _⟩ .nil⟩
  exact meets_recordRules.2 ⟨_, rfl, .of_forall₂ (by decide) (.refl _) (fun _ h _ => h) <|
    .cons ⟨rfl, meets_constant.2 rfl⟩ <|
    .cons ⟨rfl, fits_listOf.2 ⟨_, rfl, List.forall_mem_map.2 fun r hr => hreport (h r hr)⟩⟩ .nil⟩

end Contract

/-! ## Verdicts of scans -/

/-- **A run with verdicts of a scan**, or with none. -/
def CaseRun.IsScanned (run : CaseRun) : Prop :=
  ∀ patterns, run.patterns = some patterns → ∃ times es, patterns = .ofEvidence times es

/-- The verdict that a key names is one on a facet. -/
theorem Patterns.exists_facetVerdict {times : Times} {es : List Evidence} {key : String} {v : Verdict}
    (h : (Patterns.ofEvidence times es).verdictOf key = .ok v) :
    ∃ (c : Category) (facet : String), v = c.facetVerdict times es facet := by
  cases hparse : FacetKey.parse key with
  | error fault =>
    rw [verdictOf, hparse] at h
    cases h
  | ok named =>
    exact ⟨named.1, named.2, Except.ok.inj (h.symm.trans (verdictOf_ofEvidence hparse times es))⟩

theorem Trial.JudgedBy.confidence_bounds {t : Trial} {j : Judgement} (h : t.JudgedBy j)
    (hscan : t.run.IsScanned) : 0 ≤ j.verdict.confidence ∧ j.verdict.confidence ≤ 100 := by
  obtain ⟨patterns, hpatterns, hverdict⟩ := Option.bind_eq_some_iff.1 h.verdict
  obtain ⟨times, es, rfl⟩ := hscan patterns hpatterns
  cases hkey : (Patterns.ofEvidence times es).verdictOf t.key with
  | error fault =>
    rw [hkey] at hverdict
    cases hverdict
  | ok v =>
    rw [hkey] at hverdict
    obtain rfl := Option.some.inj hverdict
    obtain ⟨c, facet, heq⟩ := Patterns.exists_facetVerdict hkey
    rw [heq]
    exact c.confidence_facetVerdict times es facet

/-! ## Reports -/

namespace AccuracyReport

variable {plan : MeasurePlan} {runs : List CaseRun} {js : List Judgement} {framework : String}
  {r : AccuracyReport}

theorem isShare_of_mem_shares {name : Judgement → String} {e : String × Binary64}
    (h : e ∈ shares name js) : e.2.IsShare := by
  obtain ⟨hpos, hvalue⟩ := mem_shares_iff.1 h
  refine ⟨totalRight name js e.1, total name js e.1, ?_, ?_⟩
  · exact List.countP_mono_left fun j _ hj => (Bool.and_eq_true_iff.1 hj).1
  · rw [Binary64.ratio?, if_neg hpos.ne', hvalue]

/-- **The average of shares** is between zero and one; without any it is zero. -/
theorem isRatio_average (h : ∀ e ∈ r.byCategory, e.2.IsShare) : r.average.IsRatio := by
  rw [average]
  split
  · exact Binary64.isRatio_zero
  case h_2 entries hne =>
    have hratios : ∀ x ∈ r.byCategory.map (·.2), x.IsRatio :=
      List.forall_mem_map.2 fun e he => (h e he).isRatio
    rw [← r.byCategory.length_map (·.2)]
    exact Binary64.isRatio_mean (fun hnil => hne (List.map_eq_nil_iff.1 hnil)) hratios

/-- Where no project was scanned, nothing is judged. -/
theorem judgements_eq_nil (hnone : ∀ run ∈ runs, run.patterns = none)
    (hjs : Judgement.all plan runs = .ok js) : js = [] := by
  have hmeasured : Trial.measured plan runs = [] :=
    List.flatMap_eq_nil_iff.2 fun run hrun => Trial.ofRun_of_none (hnone run hrun)
  have hjudged := Judgement.forall₂_of_all hjs
  rwa [hmeasured, List.forall₂_nil_left_iff] at hjudged

/-- **A report on runs with verdicts of scans** can be told. -/
theorem isTold_ofRuns (hruns : ∀ run ∈ runs, run.IsScanned)
    (h : ofRuns framework plan runs = .ok r) : r.IsTold := by
  obtain ⟨js, hjs, rfl⟩ := Fallible.map_eq_ok_iff.1 h
  have hshares {name : Judgement → String} : ∀ e ∈ shares name js,
      e.2.IsShare ∧ (e.2.roundTo 4).IsRatio := fun e he =>
    ⟨isShare_of_mem_shares he, (isShare_of_mem_shares he).isRatio.roundTo 4⟩
  have hconfidence : ∀ j ∈ js, 0 ≤ j.verdict.confidence ∧ j.verdict.confidence ≤ 100 := by
    intro j hj
    obtain ⟨t, ht, hjudged⟩ :=
      Sequence.exists_of_mem_left (Judgement.forall₂_of_all hjs).flip hj
    obtain ⟨run, hrun, ht⟩ := List.mem_flatMap.1 ht
    obtain ⟨rfl, -⟩ := Trial.mem_ofRun.1 ht
    exact hjudged.confidence_bounds (hruns t.run hrun)
  constructor
  · exact Int.natCast_nonneg _
  · exact (isRatio_average fun e he => (hshares e he).1).roundTo 4
  · exact hshares
  · exact hshares
  · refine List.forall_mem_map.2 fun j hj => hconfidence j ?_
    exact List.mem_of_mem_filter (List.mem_mergeSort.1 (List.mem_mergeSort.1 hj))
  · intro hzero
    have hnone : ∀ run ∈ runs, run.patterns = none := by
      simpa [ofJudgements, List.countP_eq_zero] using hzero
    obtain rfl := judgements_eq_nil hnone hjs
    exact ⟨rfl, rfl, by simp [ofJudgements, failuresOf, Text.sortedBy], rfl⟩

theorem isTold_of_mem_all {reports : List AccuracyReport} (hruns : ∀ run ∈ runs, run.IsScanned)
    (h : all plan runs = .ok reports) (hr : r ∈ reports) : r.IsTold := by
  obtain ⟨framework, -, hreport⟩ :=
    Sequence.exists_of_mem_left (Fallible.mapM_eq_ok_iff.1 h).flip hr
  exact isTold_ofRuns (fun run hrun => hruns run (List.mem_of_mem_filter hrun)) hreport

/-- **There is a report for every framework** of the cases of a corpus. -/
theorem exists_all (plan : MeasurePlan) {document : Json} {corpus : Corpus}
    (hcorpus : Corpus.ofDocument document = .ok corpus)
    (hruns : ∀ run ∈ runs, run.case ∈ corpus.cases ∧ run.IsScanned) :
    ∃ reports, all plan runs = .ok reports := by
  simp only [all, Fallible.mapM_eq_ok_iff]
  refine Sequence.exists_forall₂_iff.2 fun framework _ => ?_
  obtain ⟨js, hjs⟩ := Judgement.exists_all_of_corpus plan hcorpus fun run hrun =>
    hruns run (List.mem_of_mem_filter hrun)
  exact ⟨_, Fallible.map_eq_ok_iff.2 ⟨js, hjs, rfl⟩⟩

end AccuracyReport

/-- **The answer of an evaluation meets its contract**, whatever is measured of a corpus that was accepted
and whatever its scans gave: there is a report for every framework, and each can be told. -/
theorem Corpus.answer_meetsContract {document : Json} {corpus : Corpus} (plan : MeasurePlan)
    {runs : List CaseRun} (hcorpus : Corpus.ofDocument document = .ok corpus)
    (hruns : ∀ run ∈ runs, run.case ∈ corpus.cases ∧ run.IsScanned) :
    ∃ reports, AccuracyReport.all plan runs = .ok reports ∧
      Contract.accuracyReport.check (AccuracyReport.answer reports) = none ∧
        ∀ r ∈ reports, r.IsTold := by
  obtain ⟨reports, hreports⟩ := AccuracyReport.exists_all plan hcorpus hruns
  have htold : ∀ r ∈ reports, r.IsTold := fun r hr =>
    AccuracyReport.isTold_of_mem_all (fun run hrun => (hruns run hrun).2) hreports hr
  exact ⟨reports, hreports, Contract.check_answer htold, htold⟩

/-- One case with two labels for one verdict, of which one is right. -/
theorem Corpus.answer_meetsContract_twoLocations :
    let cookie : Evidence :=
      ⟨"authentication", "token_location", "cookie", "req.cookies.t", "a.js", 3, .binary .one,
        "read"⟩
    let runs : List CaseRun := [⟨twoLocations, some (.ofEvidence (fun _ => .zero) [cookie])⟩]
    ofDocument (documentOf twoLocations) = .ok ⟨[twoLocations]⟩ ∧
      (∀ run ∈ runs, run.case ∈ [twoLocations] ∧ run.IsScanned) ∧
        ∃ reports, AccuracyReport.all (.everything ⟨[twoLocations]⟩) runs = .ok reports ∧
          Contract.accuracyReport.check (AccuracyReport.answer reports) = none ∧
            ∀ r ∈ reports, r.IsTold := by
  intro cookie runs
  have hruns : ∀ run ∈ runs, run.case ∈ [twoLocations] ∧ run.IsScanned := by
    refine List.forall_mem_singleton.2 ⟨List.mem_singleton_self _, fun patterns h => ?_⟩
    exact ⟨_, _, (Option.some.inj h).symm⟩
  exact ⟨ofDocument_twoLocations, hruns,
    answer_meetsContract (.everything ⟨[twoLocations]⟩) ofDocument_twoLocations hruns⟩

/-! ## Evaluations -/

namespace Scanner

variable {s : Scanner} {h : Host} {o : ScanOptions} {base : List String}

theorem exists_ofEvidence_of_scan {cache : EvidenceCache} {root : Except RootFault (List String)}
    {context : ProjectContext} (hcontext : (s.scan h o cache root).context = .ok context) :
    ∃ times es, context.patterns = .ofEvidence times es := by
  cases root with
  | error fault => cases hcontext
  | ok root =>
    by_cases hwait : ScanTarget.CanWait ⟨h.top, root, o⟩
    · rw [scan, context_of_canWait _ _ _ _ hwait, ScanTarget.context] at hcontext
      split at hcontext
      case h_1 =>
        obtain rfl := Except.ok.inj hcontext
        exact ⟨_, _, rfl⟩
      case h_2 => cases hcontext
    · rw [scan, context_of_not_canWait _ _ _ _ hwait] at hcontext
      cases hcontext

/-- **The runs of an evaluation** have verdicts of scans. -/
theorem isScanned_of_runCases {cases : List CorpusCase} {runs : List CaseRun} :
    ∀ cache, (s.runCases h o base cache cases).result = .ok runs →
      ∀ run ∈ runs, run.IsScanned := by
  induction cases generalizing runs with
  | nil =>
    intro cache hruns
    obtain rfl := Except.ok.inj hruns
    exact fun run hrun => absurd hrun List.not_mem_nil
  | cons case rest ih =>
    intro cache hruns
    simp only [runCases] at hruns
    split at hruns
    case h_1 context hcontext =>
      obtain ⟨later, hlater, rfl⟩ := Fallible.map_eq_ok_iff.1 hruns
      refine List.forall_mem_cons.2 ⟨fun patterns hpatterns => ?_, ih _ hlater⟩
      obtain rfl := Option.some.inj hpatterns
      exact exists_ofEvidence_of_scan hcontext
    case h_2 =>
      obtain ⟨later, hlater, rfl⟩ := Fallible.map_eq_ok_iff.1 hruns
      exact List.forall_mem_cons.2 ⟨fun _ hnone => (by cases hnone), ih _ hlater⟩
    case h_3 => cases hruns

variable {cache : EvidenceCache} {corpus : Corpus} {measure : Option (List String)}
  {reports : List AccuracyReport}

/-- **An evaluation gives reports** if there is a plan, the projects are scanned and the runs can be
judged. -/
theorem evaluate_eq_ok_iff : (s.evaluate h o cache corpus base measure).result = .ok reports ↔
    ∃ plan runs, MeasurePlan.ofRequest corpus measure = .ok plan ∧
      (s.runCases h o base cache corpus.cases).result = .ok runs ∧
        AccuracyReport.all plan runs = .ok reports := by
  rw [evaluate]
  cases hplan : MeasurePlan.ofRequest corpus measure with
  | error fault =>
    constructor
    · intro hresult
      cases hresult
    · rintro ⟨plan, runs, hok, -⟩
      cases hok
  | ok plan =>
    refine Fallible.bind_eq_ok_iff.trans ?_
    simp only [Fallible.mapError_eq_ok_iff, Except.ok.injEq, exists_and_left, exists_eq_left']

/-- **The reports of an evaluation** can be told. -/
theorem isTold_of_evaluate
    (hreports : (s.evaluate h o cache corpus base measure).result = .ok reports) :
    ∀ r ∈ reports, r.IsTold := by
  obtain ⟨plan, runs, -, hruns, hall⟩ := evaluate_eq_ok_iff.1 hreports
  exact fun r hr => AccuracyReport.isTold_of_mem_all (isScanned_of_runCases cache hruns) hall hr

end Scanner

/-- **No evaluation breaks off because of its own answer.** -/
theorem Command.evaluate_keepsContract (s : Scanner) (h : Host) (words : List String) :
    (evaluate s h words).ending ≠ .broken .brokenContract := by
  have hend {result : Except EvaluationFault (List AccuracyReport)}
      (htold : ∀ reports, result = .ok reports → ∀ r ∈ reports, r.IsTold) :
      evaluationEnd result ≠ .broken .brokenContract := by
    unfold evaluationEnd
    split
    case h_1 reports =>
      simp [Contract.check_answer (htold reports rfl)]
    case h_2 => simp
    case h_3 => simp
  rw [evaluate]
  split
  case h_1 => simp
  case h_2 => simp
  case h_3 path values _ =>
    cases Corpus.load h path with
    | error fault => exact hend fun _ heq => by cases heq
    | ok loaded => exact hend fun _ heq => Scanner.isTold_of_evaluate heq

end Conventions
