import Conventions.Proofs.Accuracy.Account
import Conventions.Proofs.Number.Ratio

/-!
# Proofs/Accuracy/Recommendations — a report recommends what its figures call for

The keys with too small an accuracy are those of the recommendations, in order
(`AccuracyReport.ofRuns_recommends`). Such a key has failed: without a failure its accuracy is one
(`misses_ne_nil_of_lt`). So there is a most frequent label among those that were expected; and where
less than half of the failures report nothing, there is one among those that were reported. A
recommendation that would break off for want of such a label is the same (`recommended?_eq`).
-/

namespace Conventions

/-! ## The most frequent text -/

/-- **The first of the most frequent texts** of a list. -/
def Text.IsMostFrequent (xs : List String) (x : String) : Prop :=
  ∃ before after, xs = before ++ x :: after ∧ (∀ y ∈ before, xs.count y < xs.count x) ∧
    ∀ y, xs.count y ≤ xs.count x

theorem Text.IsMostFrequent.mem {xs : List String} {x : String} (h : IsMostFrequent xs x) :
    x ∈ xs := by
  obtain ⟨before, after, rfl, -, -⟩ := h
  exact List.mem_append_right _ List.mem_cons_self

namespace AccuracyReport

/-- The better of two texts by a score; of equally good ones the first. -/
def better (score : String → Nat) (best : Option String) (x : String) : Option String :=
  match best with
  | none => some x
  | some b => if score b < score x then some x else some b

theorem mostFrequent?_eq (xs : List String) :
    mostFrequent? xs = xs.foldl (better xs.count) none := rfl

/-- **The first of the texts with the greatest score.** -/
def IsBest (score : String → Nat) (xs : List String) (x : String) : Prop :=
  ∃ before after, xs = before ++ x :: after ∧ (∀ y ∈ before, score y < score x) ∧
    ∀ y ∈ after, score y ≤ score x

section Best

variable {score : String → Nat} {xs : List String} {x y z : String}

theorem IsBest.le (h : IsBest score xs x) (hy : y ∈ xs) : score y ≤ score x := by
  obtain ⟨before, after, rfl, hbefore, hafter⟩ := h
  rw [List.mem_append, List.mem_cons] at hy
  obtain hy | rfl | hy := hy
  · exact (hbefore y hy).le
  · exact le_rfl
  · exact hafter y hy

/-- A text with a greater score is the best one, -/
theorem IsBest.concat_of_lt (h : IsBest score xs x) (hz : score x < score z) :
    IsBest score (xs ++ [z]) z :=
  ⟨xs, [], rfl, fun _ hy => (h.le hy).trans_lt hz, fun _ hy => absurd hy List.not_mem_nil⟩

/-- and any other text leaves the best one as it is. -/
theorem IsBest.concat_of_le (h : IsBest score xs x) (hz : score z ≤ score x) :
    IsBest score (xs ++ [z]) x := by
  obtain ⟨before, after, rfl, hbefore, hafter⟩ := h
  refine ⟨before, after ++ [z], by rw [List.append_assoc, List.cons_append], hbefore, ?_⟩
  exact List.forall_mem_append.2 ⟨hafter, List.forall_mem_singleton.2 hz⟩

/-- **What is left of a list** is the best text. -/
theorem exists_foldl_better (score : String → Nat) (hne : xs ≠ []) :
    ∃ x, xs.foldl (better score) none = some x ∧ IsBest score xs x := by
  -- from the end: the last text is held against the best of those before it
  induction xs using List.reverseRecOn with
  | nil => exact absurd rfl hne
  | append_singleton xs z ih =>
    rw [List.foldl_append]
    by_cases hxs : xs = []
    · subst hxs
      exact ⟨z, rfl, [], [], rfl, by simp, by simp⟩
    · obtain ⟨x, hfold, hbest⟩ := ih hxs
      rw [hfold]
      by_cases hz : score x < score z
      · exact ⟨z, if_pos hz, hbest.concat_of_lt hz⟩
      · exact ⟨x, if_neg hz, hbest.concat_of_le (not_lt.1 hz)⟩

/-- **A list with a text** has a most frequent one. -/
theorem exists_mostFrequent? (hne : xs ≠ []) :
    ∃ x, mostFrequent? xs = some x ∧ Text.IsMostFrequent xs x := by
  obtain ⟨x, hfold, hbest⟩ := exists_foldl_better xs.count hne
  have hle (y : String) (hy : y ∈ xs) := hbest.le hy
  obtain ⟨before, after, hxs, hbefore, -⟩ := hbest
  refine ⟨x, (mostFrequent?_eq xs).trans hfold, before, after, hxs, hbefore, fun y => ?_⟩
  by_cases hy : y ∈ xs
  · exact hle y hy
  · rw [List.count_eq_zero_of_not_mem hy]
    exact Nat.zero_le _

end Best

end AccuracyReport

/-! ## Advice -/

/-- **What a recommendation says**: that no evidence was found, that the expected label lost conflict
resolution, or that one label is reported for another. -/
inductive Advice where
  | noEvidence (cases : Nat) (expected : String)
  | lostConflict (cases : Nat)
  | mistaken (actual expected : String)
  deriving DecidableEq, Repr

namespace Advice

/-- The text of a recommendation for a facet key. -/
def text (key : String) : Advice → String
  | noEvidence cases expected =>
    key ++ ": no evidence found in " ++ toString cases
      ++ " case(s); the extraction catalogue is likely missing a construct shape for '"
      ++ expected ++ "'."
  | lostConflict cases =>
    key ++ ": the expected label was detected but lost conflict resolution in "
      ++ toString cases ++ " case(s); review the recency policy and threshold."
  | mistaken actual expected =>
    key ++ ": '" ++ actual ++ "' was reported where '" ++ expected
      ++ "' was expected; tighten the matchers that emit '" ++ actual ++ "'."

def SaysNoEvidence : Advice → Prop
  | noEvidence .. => True
  | _ => False

def SaysLostConflict : Advice → Prop
  | lostConflict _ => True
  | _ => False

/-- The sign that follows the facet key in a text. -/
def mark : Advice → Char
  | noEvidence .. => 'n'
  | lostConflict _ => 't'
  | mistaken .. => '\''

theorem exists_toList_text (key : String) (a : Advice) :
    ∃ rest, (a.text key).toList = key.toList ++ ':' :: ' ' :: a.mark :: rest := by
  cases a with
  | noEvidence cases expected =>
    obtain ⟨rest, hrest⟩ : ∃ rest, ": no evidence found in ".toList = ':' :: ' ' :: 'n' :: rest :=
      ⟨_, String.toList_ofList⟩
    simp only [text, String.toList_append, List.append_assoc, hrest]
    exact ⟨_, rfl⟩
  | lostConflict cases =>
    obtain ⟨rest, hrest⟩ : ∃ rest,
        ": the expected label was detected but lost conflict resolution in ".toList =
          ':' :: ' ' :: 't' :: rest := ⟨_, String.toList_ofList⟩
    simp only [text, String.toList_append, List.append_assoc, hrest]
    exact ⟨_, rfl⟩
  | mistaken actual expected =>
    have hrest : ": '".toList = [':', ' ', '\''] := String.toList_ofList
    simp only [text, String.toList_append, List.append_assoc, hrest]
    exact ⟨_, rfl⟩

/-- **What is said can be read off the text.** -/
theorem says_iff_of_text_eq {key : String} {a b : Advice} (h : a.text key = b.text key) :
    (a.SaysNoEvidence ↔ b.SaysNoEvidence) ∧ (a.SaysLostConflict ↔ b.SaysLostConflict) := by
  obtain ⟨rest, hrest⟩ := exists_toList_text key a
  obtain ⟨rest', hrest'⟩ := exists_toList_text key b
  rw [h, hrest', List.append_cancel_left_eq] at hrest
  have hmark : b.mark = a.mark := (List.cons.inj (List.cons.inj (List.cons.inj hrest).2).2).1
  cases a <;> cases b <;> simp_all [mark, SaysNoEvidence, SaysLostConflict]

theorem exists_text_eq_iff {key : String} {a : Advice} {P : Advice → Prop}
    (h : ∀ b, a.text key = b.text key → (P a ↔ P b)) :
    (∃ b : Advice, a.text key = b.text key ∧ P b) ↔ P a :=
  ⟨fun ⟨b, htext, hb⟩ => (h b htext).2 hb, fun ha => ⟨a, rfl, ha⟩⟩

end Advice

/-! ## What failures call for -/

namespace Judgement

variable {wrong : List Judgement} {key : String} {a : Advice}

/-- The wrong judgements on a facet key. -/
def misses (key : String) (js : List Judgement) : List Judgement :=
  js.filter fun j => j.key == key && !j.correct

/-- The labels that wrong judgements report, where they report one. -/
def reported (wrong : List Judgement) : List String :=
  (wrong.filter fun j => !j.verdict.isUnknown).map (·.verdict.label)

/-- **What is said of some wrong judgements**; nothing if a list without a most frequent text is asked
for one. -/
def advice? (wrong : List Judgement) : Option Advice :=
  (AccuracyReport.mostFrequent? (wrong.map (·.expected))).bind fun expected =>
    if wrong.length ≤ wrong.countP (·.verdict.isUnknown) * 2 then
      some (.noEvidence (wrong.countP (·.verdict.isUnknown)) expected)
    else if wrong.length ≤ wrong.countP lostConflict * 2 then
      some (.lostConflict (wrong.countP lostConflict))
    else
      (AccuracyReport.mostFrequent? (reported wrong)).map fun actual => .mistaken actual expected

/-- At least half of some wrong judgements report no label. -/
def MostlyUnknown (wrong : List Judgement) : Prop :=
  wrong.length ≤ 2 * wrong.countP (·.verdict.isUnknown)

/-- In at least half of some wrong judgements the expected label was rejected in a conflict. -/
def MostlyLost (wrong : List Judgement) : Prop := wrong.length ≤ 2 * wrong.countP lostConflict

/-- **What some wrong judgements call for.** -/
inductive CallsFor (wrong : List Judgement) : Advice → Prop where
  | noEvidence {expected : String} (unknown : MostlyUnknown wrong)
      (isExpected : Text.IsMostFrequent (wrong.map (·.expected)) expected) :
      CallsFor wrong (.noEvidence (wrong.countP (·.verdict.isUnknown)) expected)
  | lostConflict (known : ¬ MostlyUnknown wrong) (lost : MostlyLost wrong) :
      CallsFor wrong (.lostConflict (wrong.countP Judgement.lostConflict))
  | mistaken {actual expected : String} (known : ¬ MostlyUnknown wrong)
      (kept : ¬ MostlyLost wrong) (isActual : Text.IsMostFrequent (reported wrong) actual)
      (isExpected : Text.IsMostFrequent (wrong.map (·.expected)) expected) :
      CallsFor wrong (.mistaken actual expected)

theorem ne_unknownLabel_of_mem_reported {label : String} (h : label ∈ reported wrong) :
    label ≠ unknownLabel := by
  obtain ⟨j, hj, rfl⟩ := List.mem_map.1 h
  simpa [Verdict.isUnknown] using (List.mem_filter.1 hj).2

/-- **A label is reported** unless most judgements report none. -/
theorem reported_ne_nil (h : ¬ MostlyUnknown wrong) : reported wrong ≠ [] := by
  intro hnil
  have hall : ∀ j ∈ wrong, j.verdict.isUnknown = true := by
    simpa [reported, List.filter_eq_nil_iff] using hnil
  have hcount : wrong.countP (·.verdict.isUnknown) = wrong.length := List.countP_eq_length.2 hall
  exact h (by rw [MostlyUnknown, hcount]; omega)

/-- **Wrong judgements call for something.** -/
theorem exists_advice? (h : wrong ≠ []) : ∃ a, advice? wrong = some a ∧ CallsFor wrong a := by
  have hlabels : wrong.map (·.expected) ≠ [] := mt List.map_eq_nil_iff.1 h
  obtain ⟨expected, hfirst, hexpected⟩ := AccuracyReport.exists_mostFrequent? hlabels
  rw [advice?, hfirst, Option.bind_some, Nat.mul_comm, Nat.mul_comm (wrong.countP lostConflict)]
  by_cases hunknown : MostlyUnknown wrong
  · exact ⟨_, if_pos hunknown, .noEvidence hunknown hexpected⟩
  · by_cases hlost : MostlyLost wrong
    · exact ⟨_, (if_neg hunknown).trans (if_pos hlost), .lostConflict hunknown hlost⟩
    · obtain ⟨actual, hactual, hmost⟩ :=
        AccuracyReport.exists_mostFrequent? (reported_ne_nil hunknown)
      have hadvice : (AccuracyReport.mostFrequent? (reported wrong)).map
          (Advice.mistaken · expected) = some (.mistaken actual expected) := by rw [hactual]; rfl
      exact ⟨_, (if_neg hunknown).trans ((if_neg hlost).trans hadvice),
        .mistaken hunknown hlost hmost hexpected⟩

/-- The advice on wrong judgements is what is said of them. -/
theorem advice_eq_text (h : advice? wrong = some a) :
    AccuracyReport.advice key wrong = a.text key := by
  obtain ⟨expected, hexpected, h⟩ := Option.bind_eq_some_iff.1 h
  rw [AccuracyReport.advice]
  simp only [hexpected, Option.getD_some]
  split at h
  case isTrue hunknown =>
    obtain rfl := Option.some.inj h
    rw [if_pos hunknown]
    rfl
  case isFalse hknown =>
    rw [if_neg hknown]
    split at h
    case isTrue hlost =>
      obtain rfl := Option.some.inj h
      rw [if_pos hlost]
      rfl
    case isFalse hkept =>
      obtain ⟨actual, hactual, rfl⟩ := Option.map_eq_some_iff.1 h
      rw [if_neg hkept]
      rw [reported] at hactual
      rw [hactual]
      rfl

end Judgement

/-! ## Recommendations -/

namespace AccuracyReport

variable {js : List Judgement} {key text : String} {accuracy : Binary64} {framework : String}
  {plan : MeasurePlan} {runs : List CaseRun}

/-- **The recommendation for a facet key**; nothing at all if a list without a most frequent text is
asked for one. -/
def recommended? (js : List Judgement) (key : String) (accuracy : Binary64) :
    Option (Option String) :=
  if acceptable.le accuracy || (Judgement.misses key js).isEmpty then some none
  else (Judgement.advice? (Judgement.misses key js)).map fun a => some (a.text key)

/-- **What a recommendation for a facet key says**, by the wrong judgements on the key. -/
structure Recommends (key : String) (wrong : List Judgement) (text : String) : Prop where
  missed : wrong ≠ []
  noEvidence : (∃ a : Advice, text = a.text key ∧ a.SaysNoEvidence) ↔ Judgement.MostlyUnknown wrong
  lostConflict : (∃ a : Advice, text = a.text key ∧ a.SaysLostConflict) ↔
    ¬ Judgement.MostlyUnknown wrong ∧ Judgement.MostlyLost wrong
  mistaken : ¬ Judgement.MostlyUnknown wrong → ¬ Judgement.MostlyLost wrong →
    ∃ actual expected, text = (Advice.mistaken actual expected).text key ∧ actual ≠ unknownLabel ∧
      Text.IsMostFrequent (Judgement.reported wrong) actual
  calledFor : ∃ a : Advice, text = a.text key ∧ Judgement.CallsFor wrong a

/-- **A report that recommends something** for the keys with too small an accuracy, in order, and for
no other key. -/
def RecommendsFor (r : AccuracyReport) (js : List Judgement) : Prop :=
  ∃ keys : List String, keys.Pairwise (· < ·) ∧
    (∀ key, key ∈ keys ↔
      ∃ accuracy, (key, accuracy) ∈ r.byCategory ∧ accuracy.lt acceptable = true) ∧
    List.Forall₂ (fun key text => Recommends key (Judgement.misses key js) text) keys
      r.recommendations

/-- **Making a recommendation never breaks off.** -/
theorem recommended?_eq (js : List Judgement) (key : String) (accuracy : Binary64) :
    recommended? js key accuracy = some (recommendation? js key accuracy) := by
  rw [recommended?, recommendation?, ← Judgement.misses]
  split
  case isTrue => rfl
  case isFalse h =>
    have hne : Judgement.misses key js ≠ [] := fun hnil => h (by simp [hnil])
    obtain ⟨a, ha, -⟩ := Judgement.exists_advice? hne
    rw [ha, Judgement.advice_eq_text ha]
    rfl

theorem recommends_advice {wrong : List Judgement} (h : wrong ≠ []) :
    Recommends key wrong (advice key wrong) := by
  obtain ⟨a, ha, hcalled⟩ := Judgement.exists_advice? h
  rw [Judgement.advice_eq_text ha]
  refine ⟨h, (Advice.exists_text_eq_iff fun b hb => (Advice.says_iff_of_text_eq hb).1).trans ?_,
    (Advice.exists_text_eq_iff fun b hb => (Advice.says_iff_of_text_eq hb).2).trans ?_,
    fun hknown hkept => ?_, a, rfl, hcalled⟩
  · cases hcalled <;> simp_all [Advice.SaysNoEvidence]
  · cases hcalled <;> simp_all [Advice.SaysLostConflict]
  · cases hcalled with
    | noEvidence hunknown => exact absurd hunknown hknown
    | lostConflict _ hlost => exact absurd hlost hkept
    | mistaken _ _ hactual =>
      exact ⟨_, _, rfl, Judgement.ne_unknownLabel_of_mem_reported hactual.mem, hactual⟩

/-- **A key without wrong judgements** has an accuracy of one. -/
theorem eq_one_of_misses_eq_nil (h : (key, accuracy) ∈ shares (·.key) js)
    (hnil : Judgement.misses key js = []) : accuracy = .one := by
  obtain ⟨hpos, hvalue⟩ := mem_shares_iff.1 h
  have hall : totalRight (·.key) js key = total (·.key) js key := by
    refine List.countP_congr fun j hj => ?_
    have hright := List.filter_eq_nil_iff.1 hnil j hj
    simp only [Bool.and_eq_true, Bool.not_eq_true', not_and, Bool.not_eq_false] at hright
    rw [Bool.and_eq_true]
    exact and_iff_left_of_imp hright
  rw [hvalue, hall, Binary64.ofRatio_self hpos]

theorem acceptable_le_one : acceptable.le .one = true := by decide +kernel

theorem misses_ne_nil_of_lt (h : (key, accuracy) ∈ shares (·.key) js)
    (hlt : acceptable.le accuracy = false) : Judgement.misses key js ≠ [] := by
  intro hnil
  rw [eq_one_of_misses_eq_nil h hnil, acceptable_le_one] at hlt
  cases hlt

theorem totalRight_le_total (name : Judgement → String) (js : List Judgement) (k : String) :
    totalRight name js k ≤ total name js k :=
  List.countP_mono_left fun _ _ h => (Bool.and_eq_true_iff.1 h).1

theorem isNaN_acceptable : acceptable.isNaN = false := by decide +kernel

/-- **An accuracy** is too small, or it is not. -/
theorem lt_acceptable (h : (key, accuracy) ∈ shares (·.key) js) :
    accuracy.lt acceptable = !acceptable.le accuracy := by
  obtain ⟨hpos, hvalue⟩ := mem_shares_iff.1 h
  have hratio : accuracy.IsRatio :=
    hvalue ▸ Binary64.isRatio_ofRatio hpos (totalRight_le_total (·.key) js key)
  exact Binary64.lt_eq_not_le hratio.isNaN isNaN_acceptable

/-- **The recommendation for a key** with too small an accuracy is the advice on it. -/
theorem recommendation?_eq (h : (key, accuracy) ∈ shares (·.key) js) :
    recommendation? js key accuracy =
      if accuracy.lt acceptable then some (advice key (Judgement.misses key js)) else none := by
  rw [recommendation?, ← Judgement.misses, lt_acceptable h]
  cases hle : acceptable.le accuracy with
  | true => rfl
  | false =>
    have hmisses : (Judgement.misses key js).isEmpty = false :=
      List.isEmpty_eq_false_iff.2 (misses_ne_nil_of_lt h hle)
    rw [hmisses]
    rfl

/-- **What is recommended** is advice on the keys with too small an accuracy. -/
theorem recommendsFor_ofJudgements (framework : String) (runs : List CaseRun) (js : List Judgement) :
    (ofJudgements framework runs js).RecommendsFor js := by
  obtain ⟨entries, hentries⟩ : ∃ entries, entries =
      (Text.sortedBy (·.1) (shares (·.key) js)).filter fun e => e.2.lt acceptable := ⟨_, rfl⟩
  have hmem {e : String × Binary64} : e ∈ entries ↔
      e ∈ shares (·.key) js ∧ e.2.lt acceptable = true := by
    rw [hentries, List.mem_filter]
    exact and_congr_left' List.mem_mergeSort
  have hrecommendations : (ofJudgements framework runs js).recommendations =
      entries.map fun e => advice e.1 (Judgement.misses e.1 js) := by
    rw [hentries, ← List.filterMap_eq_map, List.filterMap_filter]
    refine List.filterMap_congr fun e he => ?_
    exact recommendation?_eq (List.mem_mergeSort.1 he)
  refine ⟨entries.map (·.1), ?_, fun key => ?_, ?_⟩
  · have hsorted : ((Text.sortedBy (·.1) (shares (·.key) js)).map (·.1)).Pairwise (· < ·) := by
      rw [Text.map_sortedBy]
      exact Text.pairwise_lt_sorted (nodup_shares ..)
    rw [hentries]
    exact hsorted.sublist (List.filter_sublist.map _)
  · simp only [List.mem_map, hmem, Prod.exists, exists_and_right, exists_eq_right]
    rfl
  · rw [hrecommendations, List.forall₂_map_left_iff, List.forall₂_map_right_iff,
      List.forall₂_same]
    intro e he
    obtain ⟨he, hlt⟩ := hmem.1 he
    rw [lt_acceptable he, Bool.not_eq_true'] at hlt
    exact recommends_advice (misses_ne_nil_of_lt he hlt)

/-- The failures on a key are those of the wrong judgements on it. -/
theorem filter_failuresOf_perm (js : List Judgement) (key : String) :
    ((failuresOf js).filter (·.facetKey == key)).Perm
      ((Judgement.misses key js).map CaseFailure.ofJudgement) := by
  have hperm := (failuresOf_perm js).filter (·.facetKey == key)
  rw [List.filter_map, List.filter_filter] at hperm
  exact hperm

/-- **A report recommends what its figures call for.** Only a trial that names no verdict breaks it off,
and never a recommendation, whatever was judged. -/
theorem ofRuns_recommends (framework : String) (plan : MeasurePlan) (runs : List CaseRun) :
    (∀ js key accuracy, recommended? js key accuracy = some (recommendation? js key accuracy)) ∧
    ((∃ r, ofRuns framework plan runs = .ok r) ↔
      ∀ t ∈ Trial.measured plan runs, t.verdict?.isSome = true) ∧
    (∀ document corpus, Corpus.ofDocument document = .ok corpus →
      (∀ run ∈ runs, run.case ∈ corpus.cases ∧
        ∀ patterns, run.patterns = some patterns → ∃ times es, patterns = .ofEvidence times es) →
      ∃ r, ofRuns framework plan runs = .ok r) ∧
    ∀ r, ofRuns framework plan runs = .ok r → ∃ js,
      List.Forall₂ Trial.JudgedBy (Trial.measured plan runs) js ∧
      (∀ key, (r.failures.filter (·.facetKey == key)).Perm
        ((Judgement.misses key js).map CaseFailure.ofJudgement)) ∧
      r.RecommendsFor js := by
  refine ⟨recommended?_eq, exists_ofRuns_iff.trans Judgement.exists_all_iff,
    fun document corpus hcorpus hruns => ?_, fun r hr => ?_⟩
  · exact exists_ofRuns_iff.2 (Judgement.exists_all_of_corpus plan hcorpus hruns)
  · obtain ⟨js, hjs, rfl⟩ := Fallible.map_eq_ok_iff.1 hr
    exact ⟨js, Judgement.forall₂_of_all hjs, filter_failuresOf_perm js,
      recommendsFor_ofJudgements framework runs js⟩

end AccuracyReport
end Conventions
