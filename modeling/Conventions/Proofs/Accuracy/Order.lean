import Conventions.Accuracy.Document
import Conventions.Proofs.Accuracy.Account

/-!
# Proofs/Accuracy/Order — reports do not depend on the order of the cases

The plan for a request asks only which labels the cases of a corpus expect (`ofRequest_eq_of_perm`), and
the judgements on some runs are the same in another order (`Judgement.exists_all_of_perm`). What is
counted does not depend on that order, and failures are sorted by key and project, which no two of them
share as long as every project is named once. So the reports have the same figures
(`AccuracyReport.exists_all_of_perm`).
-/

namespace Conventions

/-! ## Plans -/

namespace MeasurePlan

variable {cases cases' : List CorpusCase}

theorem facetKeys_eq_of_perm (h : cases.Perm cases') :
    (Corpus.mk cases).facetKeys = (Corpus.mk cases').facetKeys :=
  Text.distinct_eq_of_perm (h.flatMap_right _)

theorem fault?_eq_of_perm (h : cases.Perm cases') (e : Entry) :
    e.fault? ⟨cases⟩ = e.fault? ⟨cases'⟩ := by
  have hlabels (p : String × String) :
      (Corpus.mk cases).labels.contains p = (Corpus.mk cases').labels.contains p := by
    rw [Bool.eq_iff_iff, List.contains_iff_mem, List.contains_iff_mem, Corpus.labels, Corpus.labels]
    exact (Sequence.eraseDups_perm (h.flatMap_right _)).mem_iff
  simp only [Entry.fault?, facetKeys_eq_of_perm h, hlabels]

/-- **A request has the same plan**, or is refused for the same reason, whatever the order of the
cases. -/
theorem ofRequest_eq_of_perm (h : cases.Perm cases') (request : Option (List String)) :
    ofRequest ⟨cases⟩ request = ofRequest ⟨cases'⟩ request := by
  cases request with
  | none => rw [ofRequest, ofRequest, everything, everything, facetKeys_eq_of_perm h]
  | some texts =>
    have hfault : Entry.fault? ⟨cases⟩ = Entry.fault? ⟨cases'⟩ := funext (fault?_eq_of_perm h)
    rw [ofRequest, ofRequest, hfault]

end MeasurePlan

/-! ## Judgements -/

section Judgements

variable {plan : MeasurePlan} {runs runs' : List CaseRun} {js js' : List Judgement}

/-- **No two trials that are measured** are of one key and one project. -/
theorem Trial.nodup_places (hplan : plan.keys.Nodup)
    (hruns : (runs.map (·.case.project)).Nodup) :
    ((measured plan runs).map fun t => (t.key, t.run.case.project)).Nodup := by
  rw [measured, List.map_flatMap, List.nodup_flatMap]
  constructor
  · intro run _
    refine List.Nodup.of_map Prod.fst ?_
    rw [List.map_map]
    exact nodup_keys_ofRun hplan run
  · refine (List.pairwise_map.1 hruns).imp fun {run run'} hne => ?_
    intro place hplace hplace'
    obtain ⟨t, ht, rfl⟩ := List.mem_map.1 hplace
    obtain ⟨t', ht', heq⟩ := List.mem_map.1 hplace'
    obtain ⟨rfl, -⟩ := mem_ofRun.1 ht
    obtain ⟨rfl, -⟩ := mem_ofRun.1 ht'
    exact hne (Prod.mk.inj heq).2.symm

theorem Judgement.nodup_places (hplan : plan.keys.Nodup)
    (hruns : (runs.map (·.case.project)).Nodup) (hjs : Judgement.all plan runs = .ok js) :
    (js.map fun j => (j.key, j.project)).Nodup := by
  have hfindings := congrArg (List.map fun f : Finding => (f.key, f.project))
    (findings_eq (forall₂_of_all hjs))
  rw [List.map_map, List.map_map] at hfindings
  change js.map (fun j => (j.key, j.project)) =
    (Trial.measured plan runs).map (fun t => (t.key, t.run.case.project)) at hfindings
  exact hfindings ▸ Trial.nodup_places hplan hruns

/-- **The judgements on runs in another order** are the same in another order. -/
theorem Judgement.exists_all_of_perm (h : runs.Perm runs') (hjs : Judgement.all plan runs = .ok js) :
    ∃ js', Judgement.all plan runs' = .ok js' ∧ js.Perm js' := by
  obtain ⟨jss, hjss, rfl⟩ := Fallible.map_eq_ok_iff.1 hjs
  obtain ⟨jss', hjss', hperm⟩ := List.perm_comp_forall₂ h.symm (Fallible.mapM_eq_ok_iff.1 hjss)
  exact ⟨_, Fallible.map_eq_ok_iff.2 ⟨jss', Fallible.mapM_eq_ok_iff.2 hjss', rfl⟩,
    hperm.symm.flatten⟩

end Judgements

/-! ## Reports -/

namespace AccuracyReport

variable {plan : MeasurePlan} {runs runs' : List CaseRun} {js js' : List Judgement}
  {framework : String} {r r' : AccuracyReport}

/-- **Reports with the same figures.** Accuracies may stand in another order, each key with the same
value; so their average may be rounded otherwise, and of equally frequent labels another one may be
recommended. -/
structure SameFigures (r r' : AccuracyReport) : Prop where
  framework : r.framework = r'.framework
  evaluated : r.casesEvaluated = r'.casesEvaluated
  categories : (r.byCategory.map (·.1)).Nodup
  byCategory : r.byCategory.Perm r'.byCategory
  labels : (r.byLabel.map (·.1)).Nodup
  byLabel : r.byLabel.Perm r'.byLabel
  failures : r.failures = r'.failures
  skipped : r.skippedCases = r'.skippedCases

/-- Accuracies are told in the order of their keys, and so alike. -/
theorem SameFigures.ratios_eq (h : r.SameFigures r') :
    ratios r.byCategory = ratios r'.byCategory ∧ ratios r.byLabel = ratios r'.byLabel := by
  rw [ratios, ratios, ratios, ratios, Text.sortedBy_eq_of_perm h.byCategory h.categories,
    Text.sortedBy_eq_of_perm h.byLabel h.labels]
  exact ⟨rfl, rfl⟩

theorem shares_perm (name : Judgement → String) (h : js.Perm js') :
    (shares name js).Perm (shares name js') := by
  have htotal : total name js = total name js' := funext fun _ => h.countP_eq _
  have hright : totalRight name js = totalRight name js' := funext fun _ => h.countP_eq _
  rw [shares, shares, htotal, hright]
  exact (Sequence.eraseDups_perm (h.map name)).map _

/-- **Failures are told in one order**, if no two judgements are of one key and one project. -/
theorem failuresOf_eq_of_perm (hplaces : (js.map fun j => (j.key, j.project)).Nodup)
    (h : js.Perm js') : failuresOf js = failuresOf js' := by
  rw [failuresOf, failuresOf]
  refine congrArg (List.map CaseFailure.ofJudgement)
    (Text.sortedBy_sortedBy_eq_of_perm (h.filter _) ?_)
  exact (List.filter_sublist.map _).nodup hplaces

/-- **A report on runs in another order** has the same figures. -/
theorem exists_ofRuns_of_perm (hplan : plan.keys.Nodup)
    (hruns : (runs.map (·.case.project)).Nodup) (h : runs.Perm runs')
    (hr : ofRuns framework plan runs = .ok r) :
    ∃ r', ofRuns framework plan runs' = .ok r' ∧ r.SameFigures r' := by
  obtain ⟨js, hjs, rfl⟩ := Fallible.map_eq_ok_iff.1 hr
  obtain ⟨js', hjs', hperm⟩ := Judgement.exists_all_of_perm h hjs
  refine ⟨_, Fallible.map_eq_ok_iff.2 ⟨js', hjs', rfl⟩, ?_⟩
  constructor
  · rfl
  · exact congrArg Int.ofNat (h.countP_eq _)
  · exact nodup_shares ..
  · exact shares_perm _ hperm
  · exact nodup_shares ..
  · exact shares_perm _ hperm
  · exact failuresOf_eq_of_perm (Judgement.nodup_places hplan hruns hjs) hperm
  · exact Text.sorted_eq_of_perm ((h.filter _).map _)

/-- **The reports on runs in another order** are of the same frameworks, and have the same figures. -/
theorem exists_all_of_perm {reports : List AccuracyReport} (hplan : plan.keys.Nodup)
    (hruns : (runs.map (·.case.project)).Nodup) (h : runs.Perm runs')
    (hreports : all plan runs = .ok reports) :
    ∃ reports', all plan runs' = .ok reports' ∧ List.Forall₂ SameFigures reports reports' := by
  have hframeworks := Text.distinct_eq_of_perm (h.map (·.case.framework))
  simp only [all, Fallible.mapM_eq_ok_iff, ← hframeworks] at hreports ⊢
  refine Sequence.exists_forall₂_of_forall₂ (fun framework r hr => ?_) hreports
  refine exists_ofRuns_of_perm hplan ?_ (h.filter _) hr
  exact (List.filter_sublist.map _).nodup hruns

end AccuracyReport
end Conventions
