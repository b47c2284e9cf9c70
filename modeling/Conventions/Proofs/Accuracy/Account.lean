import Conventions.Proofs.Accuracy.Judged
import Conventions.Proofs.Sequence
import Mathlib.Algebra.BigOperators.Group.List.Lemmas
import Mathlib.Algebra.GroupWithZero.Nat

/-!
# Proofs/Accuracy/Account — a report accounts for all that was measured

What a measured trial comes to is a `Finding`. Judgements have the findings of the measured trials, so
whatever a report counts or lists is counted or listed of these (`ofRuns_accounts`): a failure for each
one that is wrong, and a share of right ones for each key and each label that was measured, and for no
other. The name of a label is that of its key, a colon and its own; a key of the vocabulary has no
colon, so no two labels share a name.
-/

namespace Conventions

/-! ## Names of labels -/

/-- **No two labels share a name.** -/
theorem FacetKey.labelName_inj {key key' label label' : String} (h : ':' ∉ key.toList)
    (h' : ':' ∉ key'.toList) :
    key ++ ":" ++ label = key' ++ ":" ++ label' ↔ key = key' ∧ label = label' := by
  have hlist (k l : String) : (k ++ ":" ++ l).toList = k.toList ++ ':' :: l.toList := by
    simp [String.toList_append]
  have htake (k l : String) (hk : ':' ∉ k.toList) :
      (k ++ ":" ++ l).toList.takeWhile (· != ':') = k.toList := by
    have hpos : ∀ c ∈ k.toList, (c != ':') = true := fun c hc => by
      rw [bne_iff_ne]
      rintro rfl
      exact hk hc
    rw [hlist, List.takeWhile_append_of_pos hpos]
    simp
  constructor
  · intro heq
    have hkeys : key = key' := String.toList_inj.1 (by rw [← htake key label h, heq, htake _ _ h'])
    subst hkeys
    have hlabels := congrArg String.toList heq
    rw [hlist, hlist, List.append_cancel_left_eq, List.cons.injEq, String.toList_inj] at hlabels
    exact ⟨rfl, hlabels.2⟩
  · rintro ⟨rfl, rfl⟩
    rfl

/-! ## Findings -/

/-- **What came of a project and a facet key**: the label that was expected, and the one that was
reported. -/
structure Finding where
  project : String
  key : String
  expected : Option String
  actual : Option String

namespace Finding

def isRight (f : Finding) : Bool := f.actual == f.expected

/-- Is a finding one of a label that was expected for a key? -/
def isFor (key label : String) (f : Finding) : Bool := f.key == key && f.expected == some label

end Finding

def Trial.finding (t : Trial) : Finding :=
  ⟨t.run.case.project, t.key, t.expected?, t.verdict?.map (·.label)⟩

def Judgement.finding (j : Judgement) : Finding :=
  ⟨j.project, j.key, some j.expected, some j.verdict.label⟩

def CaseFailure.finding (f : CaseFailure) : Finding :=
  ⟨f.project, f.facetKey, some f.expected, some f.actual⟩

/-- **The findings of what is measured.** -/
def Trial.findings (plan : MeasurePlan) (runs : List CaseRun) : List Finding :=
  (measured plan runs).map finding

/-- **A report that accounts for some findings**, with the judgements that its counts are made of. -/
structure AccuracyReport.AccountsFor (r : AccuracyReport) (fs : List Finding) (js : List Judgement)
    (runs : List CaseRun) : Prop where
  failures : (r.failures.map (·.finding)).Perm (fs.filter fun f => !f.isRight)
  failed : ∀ key, r.failures.countP (·.facetKey == key) ≤ fs.countP (·.key == key)
  categories : (r.byCategory.map (·.1)).Nodup
  byCategory : ∀ key value, (key, value) ∈ r.byCategory ↔ 0 < fs.countP (·.key == key) ∧
    value = .ofRatio false (fs.countP (·.key == key) - r.failures.countP (·.facetKey == key))
      (fs.countP (·.key == key))
  labels : (r.byLabel.map (·.1)).Nodup
  byLabel : ∀ name value, (name, value) ∈ r.byLabel ↔ ∃ key label, name = key ++ ":" ++ label ∧
    0 < fs.countP (·.isFor key label) ∧
    value = .ofRatio false (fs.countP fun f => f.isFor key label && f.isRight)
      (fs.countP (·.isFor key label))
  totals : ∀ key, total (·.key) js key = fs.countP (·.key == key)
  labelTotals : ∀ (key : String) (labels : List String), (∃ value, (key, value) ∈ r.byCategory) → labels.Nodup →
    (∀ label, label ∈ labels ↔ ∃ value, (key ++ ":" ++ label, value) ∈ r.byLabel) →
    (labels.map fun label => total Judgement.labelKey js (key ++ ":" ++ label)).sum =
      total (·.key) js key
  evaluated : r.casesEvaluated = runs.countP fun run => run.patterns.isSome
  skipped : r.skippedCases.Perm ((runs.filter fun run => run.patterns.isNone).map (·.case.project))
  cases : r.casesEvaluated + r.skippedCases.length = runs.length

/-! ## What judgements are counted as -/

namespace Judgement

variable {js : List Judgement} {key label : String}

theorem findings_eq {ts : List Trial} (h : List.Forall₂ Trial.JudgedBy ts js) :
    js.map finding = ts.map Trial.finding := by
  induction h with
  | nil => rfl
  | cons hj _ ih =>
    rw [List.map_cons, List.map_cons, ih, finding, Trial.finding, hj.project, hj.key, hj.expected,
      hj.verdict]
    rfl

theorem total_key (key : String) :
    AccuracyReport.total (·.key) js key = (js.map finding).countP (·.key == key) := by
  rw [List.countP_map]
  rfl

theorem totalRight_key (key : String) : AccuracyReport.totalRight (·.key) js key =
    (js.map finding).countP fun f => f.key == key && f.isRight := by
  rw [List.countP_map]
  rfl

/-- The name of a label is that of no other judgement. -/
theorem labelKey_beq (hjs : ∀ j ∈ js, ':' ∉ j.key.toList) (hkey : ':' ∉ key.toList) :
    ∀ j ∈ js, (j.labelKey == key ++ ":" ++ label) = j.finding.isFor key label := by
  intro j hj
  rw [Bool.eq_iff_iff, beq_iff_eq, labelKey, FacetKey.labelName_inj (hjs j hj) hkey, finding,
    Finding.isFor, Bool.and_eq_true, beq_iff_eq, beq_iff_eq, Option.some.injEq]

theorem total_labelKey (hjs : ∀ j ∈ js, ':' ∉ j.key.toList) (hkey : ':' ∉ key.toList) :
    AccuracyReport.total labelKey js (key ++ ":" ++ label) =
      (js.map finding).countP (·.isFor key label) := by
  rw [List.countP_map]
  exact List.countP_congr fun j hj => by rw [labelKey_beq hjs hkey j hj]; rfl

theorem totalRight_labelKey (hjs : ∀ j ∈ js, ':' ∉ j.key.toList) (hkey : ':' ∉ key.toList) :
    AccuracyReport.totalRight labelKey js (key ++ ":" ++ label) =
      (js.map finding).countP fun f => f.isFor key label && f.isRight := by
  rw [List.countP_map]
  exact List.countP_congr fun j hj => by rw [labelKey_beq hjs hkey j hj]; rfl

end Judgement

namespace AccuracyReport

variable {js : List Judgement} {name : Judgement → String} {k : String}

theorem total_pos_iff : 0 < total name js k ↔ ∃ j ∈ js, name j = k := by
  rw [total, List.countP_pos_iff]
  simp only [beq_iff_eq]

theorem mem_shares_iff {value : Binary64} : (k, value) ∈ shares name js ↔ 0 < total name js k ∧
    value = .ofRatio false (totalRight name js k) (total name js k) := by
  rw [shares, List.mem_map, total_pos_iff]
  constructor
  · rintro ⟨k', hk', heq⟩
    obtain ⟨rfl, hvalue⟩ := Prod.mk.inj heq
    rw [List.mem_eraseDups, List.mem_map] at hk'
    exact ⟨hk', hvalue.symm⟩
  · rintro ⟨hk, hvalue⟩
    exact ⟨k, List.mem_eraseDups.2 (List.mem_map.2 hk), congrArg (Prod.mk k) hvalue.symm⟩

theorem nodup_shares (name : Judgement → String) (js : List Judgement) :
    ((shares name js).map (·.1)).Nodup := by
  rw [shares, List.map_map]
  exact (List.map_id _).symm ▸ Sequence.nodup_eraseDups _

/-- **The failures** are those of the wrong judgements. -/
theorem failuresOf_perm (js : List Judgement) :
    (failuresOf js).Perm ((js.filter fun j => !j.correct).map CaseFailure.ofJudgement) :=
  ((List.mergeSort_perm ..).trans (List.mergeSort_perm ..)).map _

theorem findings_failuresOf_perm (js : List Judgement) :
    ((failuresOf js).map (·.finding)).Perm ((js.map Judgement.finding).filter fun f => !f.isRight) := by
  have hperm := (failuresOf_perm js).map CaseFailure.finding
  rw [List.map_map] at hperm
  rw [List.filter_map]
  exact hperm

theorem countP_failuresOf (js : List Judgement) (key : String) :
    (failuresOf js).countP (·.facetKey == key) =
      (js.map Judgement.finding).countP fun f => f.key == key && !f.isRight := by
  have hcount := (findings_failuresOf_perm js).countP_eq (·.key == key)
  rw [List.countP_map, List.countP_filter] at hcount
  exact hcount

/-- **The labels of a key add up to the key.** -/
theorem sum_map_countP_isFor {fs : List Finding} {labels : List String} {key : String}
    (hfs : ∀ f ∈ fs, ∃ label, f.expected = some label) (hnodup : labels.Nodup)
    (hlabels : ∀ label, label ∈ labels ↔ 0 < fs.countP (·.isFor key label)) :
    (labels.map fun label => fs.countP (·.isFor key label)).sum = fs.countP (·.key == key) := by
  obtain ⟨expected, hexpected⟩ : ∃ expected, expected =
      (fs.filter (·.key == key)).map fun f => f.expected.getD "" := ⟨_, rfl⟩
  have hcount (label : String) : fs.countP (·.isFor key label) = expected.count label := by
    rw [hexpected, List.count, List.countP_map, List.countP_filter]
    refine List.countP_congr fun f hf => ?_
    obtain ⟨own, hown⟩ := hfs f hf
    simp [Finding.isFor, hown, and_comm]
  have hperm : labels.Perm expected.dedup := by
    refine (List.perm_ext_iff_of_nodup hnodup (List.nodup_dedup _)).2 fun label => ?_
    rw [hlabels, hcount, List.count_pos_iff, List.mem_dedup]
  simp only [hcount]
  rw [(hperm.map _).sum_eq, List.sum_map_count_dedup_eq_length, hexpected, List.length_map,
    ← List.countP_eq_length_filter]

theorem exists_mem_shares_iff : (∃ value, (k, value) ∈ shares name js) ↔ 0 < total name js k := by
  simp only [mem_shares_iff, exists_and_left, exists_eq, and_true]

/-- A key that something was judged by has no colon, if those of the judgements have none. -/
theorem not_colon_of_total_pos (hjs : ∀ j ∈ js, ':' ∉ j.key.toList) {key : String}
    (h : 0 < total (·.key) js key) : ':' ∉ key.toList := by
  obtain ⟨j, hj, rfl⟩ := total_pos_iff.1 h
  exact hjs j hj

theorem total_key_pos_of_isFor {key label : String}
    (h : 0 < (js.map Judgement.finding).countP (·.isFor key label)) :
    0 < total (·.key) js key := by
  rw [Judgement.total_key]
  refine h.trans_le (List.countP_mono_left fun f _ hf => ?_)
  exact (Bool.and_eq_true_iff.1 hf).1

/-- **The shares by label** are those of the labels that were expected. -/
theorem mem_shares_labelKey_iff (hjs : ∀ j ∈ js, ':' ∉ j.key.toList) {value : Binary64} :
    (k, value) ∈ shares Judgement.labelKey js ↔ ∃ key label, k = key ++ ":" ++ label ∧
      0 < (js.map Judgement.finding).countP (·.isFor key label) ∧
      value = .ofRatio false
        ((js.map Judgement.finding).countP fun f => f.isFor key label && f.isRight)
        ((js.map Judgement.finding).countP (·.isFor key label)) := by
  rw [mem_shares_iff]
  constructor
  · rintro ⟨hpos, hvalue⟩
    obtain ⟨j, hj, rfl⟩ := total_pos_iff.1 hpos
    refine ⟨j.key, j.expected, rfl, ?_⟩
    rw [Judgement.labelKey, Judgement.total_labelKey hjs (hjs j hj)] at hpos
    rw [Judgement.labelKey, Judgement.total_labelKey hjs (hjs j hj),
      Judgement.totalRight_labelKey hjs (hjs j hj)] at hvalue
    exact ⟨hpos, hvalue⟩
  · rintro ⟨key, label, rfl, hpos, hvalue⟩
    have hkey := not_colon_of_total_pos hjs (total_key_pos_of_isFor hpos)
    rw [Judgement.total_labelKey hjs hkey, Judgement.totalRight_labelKey hjs hkey]
    exact ⟨hpos, hvalue⟩

/-- **A report accounts for the findings** of its judgements. -/
theorem accountsFor_ofJudgements (framework : String) (runs : List CaseRun)
    (hjs : ∀ j ∈ js, ':' ∉ j.key.toList) :
    (ofJudgements framework runs js).AccountsFor (js.map Judgement.finding) js runs where
  failures := findings_failuresOf_perm js
  failed key := by
    rw [ofJudgements, countP_failuresOf]
    exact List.countP_mono_left fun f _ h => (Bool.and_eq_true_iff.1 h).1
  categories := nodup_shares ..
  byCategory key value := by
    have hsplit := Sequence.countP_add_countP_not (·.key == key) (·.isRight)
      (js.map Judgement.finding)
    have hright : totalRight (·.key) js key = (js.map Judgement.finding).countP (·.key == key) -
        (failuresOf js).countP (·.facetKey == key) := by
      rw [Judgement.totalRight_key, countP_failuresOf]
      omega
    refine mem_shares_iff.trans ?_
    rw [Judgement.total_key, hright]
    rfl
  labels := nodup_shares ..
  byLabel name value := mem_shares_labelKey_iff hjs
  totals := Judgement.total_key
  labelTotals key labels hkey hnodup hlabels := by
    have hcolon := not_colon_of_total_pos hjs (exists_mem_shares_iff.1 hkey)
    simp only [Judgement.total_labelKey hjs hcolon]
    rw [Judgement.total_key]
    refine sum_map_countP_isFor (fun f hf => ?_) hnodup fun label => ?_
    · obtain ⟨j, -, rfl⟩ := List.mem_map.1 hf
      exact ⟨j.expected, rfl⟩
    · rw [hlabels, ← Judgement.total_labelKey hjs hcolon]
      exact exists_mem_shares_iff
  evaluated := rfl
  skipped := List.mergeSort_perm ..
  cases := by
    have hskipped : (ofJudgements framework runs js).skippedCases.length =
        runs.countP fun run => run.patterns.isNone := by
      rw [List.countP_eq_length_filter]
      exact (List.mergeSort_perm ..).length_eq.trans (List.length_map _)
    have hsplit := List.length_eq_countP_add_countP (fun run : CaseRun => run.patterns.isSome)
      (l := runs)
    simp only [Bool.not_eq_true, Bool.decide_eq_false, Option.not_isSome] at hsplit
    rw [hskipped, hsplit, Int.natCast_add]
    rfl

/-- **There is a report** exactly if there are judgements. -/
theorem exists_ofRuns_iff {framework : String} {plan : MeasurePlan} {runs : List CaseRun} :
    (∃ r, ofRuns framework plan runs = .ok r) ↔ ∃ js, Judgement.all plan runs = .ok js := by
  simp only [ofRuns, Fallible.map_eq_ok_iff]
  exact ⟨fun ⟨_, js, hjs, _⟩ => ⟨js, hjs⟩, fun ⟨js, hjs⟩ => ⟨_, js, hjs, rfl⟩⟩

/-- **A report accounts for all that was measured.** There is one if every measured trial names a
verdict, as with the cases of a corpus and verdicts of scans. -/
theorem ofRuns_accounts (framework : String) (plan : MeasurePlan) (runs : List CaseRun) :
    ((∃ r, ofRuns framework plan runs = .ok r) ↔
      ∀ t ∈ Trial.measured plan runs, t.verdict?.isSome = true) ∧
    (∀ document corpus, Corpus.ofDocument document = .ok corpus →
      (∀ run ∈ runs, run.case ∈ corpus.cases ∧
        ∀ patterns, run.patterns = some patterns → ∃ times es, patterns = .ofEvidence times es) →
      ∃ r, ofRuns framework plan runs = .ok r) ∧
    (∀ corpus request, MeasurePlan.ofRequest corpus request = .ok plan →
      ∀ run, ((Trial.ofRun plan run).map (·.key)).Nodup) ∧
    ∀ r, ofRuns framework plan runs = .ok r → ∃ js, Judgement.all plan runs = .ok js ∧
      r.AccountsFor (Trial.findings plan runs) js runs := by
  refine ⟨exists_ofRuns_iff.trans Judgement.exists_all_iff, fun document corpus hcorpus hruns => ?_,
    fun corpus request hplan run => Trial.nodup_keys_ofRun (MeasurePlan.nodup_keys hplan) run,
    fun r hr => ?_⟩
  · exact exists_ofRuns_iff.2 (Judgement.exists_all_of_corpus plan hcorpus hruns)
  · obtain ⟨js, hjs, rfl⟩ := Fallible.map_eq_ok_iff.1 hr
    have hjudged := Judgement.forall₂_of_all hjs
    rw [Trial.findings, ← Judgement.findings_eq hjudged]
    refine ⟨js, hjs, accountsFor_ofJudgements framework runs ?_⟩
    exact Judgement.not_colon_of_judged hjudged

end AccuracyReport
end Conventions
