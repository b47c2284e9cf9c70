import Conventions.Accuracy.Report
import Conventions.Proofs.Fallible
import Conventions.Proofs.Sequence

/-!
# Proofs/Accuracy/Judged — what is measured is judged, and nothing else

A trial is a run held against a facet key. It is measured if the project was scanned, and if the case
expects a label for the key that the plan includes. The judgements on some runs are those on the
measured trials, one on each and in their order (`all_eq_ok_iff`); there are none at all if a measured
trial names no verdict (`exists_all_iff`).
-/

namespace Conventions

/-! ## Facet keys -/

namespace FacetKey

theorem toList_of_split (key : String) : key.toList = (split key).1.toList ∨
    key.toList = (split key).1.toList ++ '.' :: (split key).2.toList := by
  rw [split, String.toList_ofList, String.toList_ofList]
  have hkey := List.takeWhile_append_dropWhile (p := (· != '.')) (l := key.toList)
  cases hrest : key.toList.dropWhile (· != '.') with
  | nil =>
    rw [hrest, List.append_nil] at hkey
    exact .inl hkey.symm
  | cons d rest =>
    have hhead := List.head_dropWhile_not (· != '.') (l := key.toList) (by simp [hrest])
    have hd : d = '.' := by simpa [hrest] using hhead
    rw [hrest, hd] at hkey
    exact .inr hkey.symm

theorem parts_of_parse {key : String} {known : Category × String} (h : parse key = .ok known) :
    ∃ c : Category, (split key).1 = c.name ∧
      ((split key).2 = "" ∨ ∃ ls, c.labels? (split key).2 = some ls) := by
  rw [parse] at h
  cases hname : Category.ofName? (split key).1 with
  | none =>
    simp only [hname] at h
    cases h
  | some c =>
    have heq : c.name = (split key).1 := by simpa using List.find?_some hname
    refine ⟨c, heq.symm, ?_⟩
    by_cases hrest : (split key).2 = ""
    · exact .inl hrest
    · simp only [hname, if_neg hrest] at h
      cases hlabels : c.labels? (split key).2 with
      | none =>
        rw [hlabels] at h
        cases h
      | some ls => exact .inr ⟨ls, rfl⟩

/-- **A key of the vocabulary has no colon.** -/
theorem not_colon_of_parse {key : String} {known : Category × String} (h : parse key = .ok known) :
    ':' ∉ key.toList := by
  have hnames (c : Category) : ':' ∉ c.name.toList := by cases c <;> decide
  have hfacets (c : Category) : ∀ e ∈ c.facetLabels, ':' ∉ e.1.toList := by cases c <;> decide
  obtain ⟨c, hname, hfacet⟩ := parts_of_parse h
  have hrest : ':' ∉ (split key).2.toList := by
    obtain hempty | ⟨ls, hls⟩ := hfacet
    · rw [hempty]
      decide
    · obtain ⟨e, he, -⟩ := Option.map_eq_some_iff.1 hls
      have heq : e.1 = (split key).2 := by simpa using List.find?_some he
      exact heq ▸ hfacets c e (List.mem_of_find?_eq_some he)
  obtain hkey | hkey := toList_of_split key
  · rw [hkey, hname]
    exact hnames c
  · rw [hkey, hname, List.mem_append, List.mem_cons]
    rintro (hmem | hmem | hmem)
    · exact hnames c hmem
    · cases hmem
    · exact hrest hmem

theorem labels?_of_parse {key facet : String} {c : Category} (h : parse key = .ok (c, facet)) :
    ∃ ls, c.labels? facet = some ls := by
  rw [parse] at h
  cases hname : Category.ofName? (split key).1 with
  | none =>
    simp only [hname] at h
    cases h
  | some c' =>
    simp only [hname] at h
    split at h
    case h_1 ls hls =>
      obtain ⟨rfl, rfl⟩ := Prod.mk.inj (Except.ok.inj h)
      exact ⟨ls, hls⟩
    case h_2 => cases h

end FacetKey

/-- **A key names the verdict on its facet**, whether this stands for the category or beside it. -/
theorem Patterns.verdictOf_ofEvidence {key facet : String} {c : Category}
    (h : FacetKey.parse key = .ok (c, facet)) (times : Times) (es : List Evidence) :
    (Patterns.ofEvidence times es).verdictOf key = .ok (c.facetVerdict times es facet) := by
  simp only [verdictOf, h]
  split_ifs with hprimary
  · rw [hprimary]
    rfl
  · obtain ⟨ls, hls⟩ := FacetKey.labels?_of_parse h
    obtain ⟨e, he, -⟩ := Option.map_eq_some_iff.1 hls
    have hfacet : e.1 = facet := by simpa using List.find?_some he
    have hmem : facet ∈ c.facets.filter (· != c.primaryFacet) :=
      List.mem_filter.2 ⟨List.mem_map.2 ⟨e, List.mem_of_find?_eq_some he, hfacet⟩,
        bne_iff_ne.2 hprimary⟩
    simp only [ofEvidence, Category.verdict, Sequence.find?_map_pair hmem]

/-- **The verdicts of a scan** have one for every key of the vocabulary. -/
theorem Patterns.exists_verdictOf {key : String} {known : Category × String}
    (h : FacetKey.parse key = .ok known) (times : Times) (es : List Evidence) :
    ∃ v, (Patterns.ofEvidence times es).verdictOf key = .ok v :=
  ⟨_, verdictOf_ofEvidence h times es⟩

/-- **The cases of a corpus expect labels of the vocabulary.** -/
theorem Corpus.exists_parse {document : Json} {corpus : Corpus} {case : CorpusCase}
    (h : Corpus.ofDocument document = .ok corpus) (hcase : case ∈ corpus.cases) {key label : String}
    (hexpected : (key, label) ∈ case.expected) : ∃ known, FacetKey.parse key = .ok known := by
  have hcheck : ∀ seen cases, checkCases seen cases = .ok () → ∀ case ∈ cases,
      unknownLabel? case = none := by
    intro seen cases
    induction cases generalizing seen with
    | nil => exact fun _ case hmem => absurd hmem List.not_mem_nil
    | cons first rest ih =>
      intro hchecked
      rw [checkCases] at hchecked
      split at hchecked
      · cases hchecked
      · split at hchecked
        · cases hchecked
        case h_2 hnone => exact List.forall_mem_cons.2 ⟨hnone, ih _ hchecked⟩
  rw [ofDocument] at h
  split at h
  · cases h
  · simp only at h
    split at h
    · cases h
    case h_2 hchecked =>
      obtain rfl := Except.ok.inj h
      have hnone := List.findSome?_eq_none_iff.1 (hcheck [] _ hchecked case hcase) _ hexpected
      cases hkey : FacetKey.parse key with
      | ok known => exact ⟨known, rfl⟩
      | error fault => simp [FacetKey.checkLabel, FacetKey.labels, hkey, Except.map] at hnone

/-- **A plan for a request** has no key twice. -/
theorem MeasurePlan.nodup_keys {corpus : Corpus} {request : Option (List String)}
    {plan : MeasurePlan} (h : ofRequest corpus request = .ok plan) : plan.keys.Nodup := by
  cases request with
  | none =>
    obtain rfl := Except.ok.inj h
    exact Text.nodup_distinct _
  | some texts =>
    simp only [ofRequest] at h
    split at h
    · cases h
    · split at h
      · cases h
      · obtain rfl := Except.ok.inj h
        exact Text.nodup_distinct _

/-! ## Trials -/

/-- **A run held against a facet key.** -/
structure Trial where
  run : CaseRun
  key : String

namespace Trial

/-- The label that is expected. -/
def expected? (t : Trial) : Option String := t.run.case.expected? t.key

/-- The verdict that is named, if the project was scanned and has it. -/
def verdict? (t : Trial) : Option Verdict :=
  t.run.patterns.bind fun patterns => (patterns.verdictOf t.key).toOption

/-- **Is a trial measured?** -/
def isMeasured (plan : MeasurePlan) (t : Trial) : Bool :=
  t.run.patterns.isSome && plan.keys.contains t.key && t.expected?.any (plan.includes t.key)

/-- The measured trials of a run. -/
def ofRun (plan : MeasurePlan) (run : CaseRun) : List Trial :=
  (plan.keys.map fun key => ⟨run, key⟩).filter (isMeasured plan)

/-- **The measured trials of some runs**: of every run with every key, those that are measured. -/
def measured (plan : MeasurePlan) (runs : List CaseRun) : List Trial := runs.flatMap (ofRun plan)

/-- **A judgement on a trial**: the verdict that is named, held against the label that is expected. -/
structure JudgedBy (t : Trial) (j : Judgement) : Prop where
  project : j.project = t.run.case.project
  key : j.key = t.key
  expected : t.expected? = some j.expected
  verdict : t.verdict? = some j.verdict

variable {plan : MeasurePlan} {run : CaseRun} {t : Trial}

theorem ofRun_of_none (h : run.patterns = none) : ofRun plan run = [] := by
  refine List.filter_eq_nil_iff.2 fun t ht => ?_
  obtain ⟨key, -, rfl⟩ := List.mem_map.1 ht
  simp [isMeasured, h]

theorem mem_ofRun : t ∈ ofRun plan run ↔ t.run = run ∧ t.isMeasured plan = true := by
  obtain ⟨run', key⟩ := t
  rw [ofRun, List.mem_filter, List.mem_map]
  constructor
  · rintro ⟨⟨key', -, heq⟩, hmeasured⟩
    exact ⟨(Trial.mk.inj heq).1.symm, hmeasured⟩
  · rintro ⟨rfl, hmeasured⟩
    refine ⟨⟨key, ?_, rfl⟩, hmeasured⟩
    simp only [isMeasured, Bool.and_eq_true, List.contains_iff_mem] at hmeasured
    exact hmeasured.1.2

theorem exists_expected (h : t.isMeasured plan = true) : ∃ expected, t.expected? = some expected := by
  simp only [isMeasured, Bool.and_eq_true, Option.any_eq_true] at h
  obtain ⟨-, expected, hexpected, -⟩ := h
  exact ⟨expected, hexpected⟩

theorem nodup_keys_ofRun (h : plan.keys.Nodup) (run : CaseRun) :
    ((ofRun plan run).map (·.key)).Nodup := by
  rw [ofRun, List.filter_map, List.map_map]
  exact (List.map_id _).symm ▸ h.filter _

/-- **A measured trial of verdicts of a scan** names one, if its labels are of the vocabulary. -/
theorem isSome_verdict? (h : t.isMeasured plan = true)
    (hknown : ∀ {key label}, (key, label) ∈ t.run.case.expected →
      ∃ known, FacetKey.parse key = .ok known)
    (hscan : ∀ patterns, t.run.patterns = some patterns → ∃ times es, patterns = .ofEvidence times es) :
    t.verdict?.isSome = true := by
  obtain ⟨expected, hexpected⟩ := exists_expected h
  simp only [isMeasured, Bool.and_eq_true] at h
  obtain ⟨patterns, hpatterns⟩ := Option.isSome_iff_exists.1 h.1.1
  obtain ⟨times, es, rfl⟩ := hscan patterns hpatterns
  obtain ⟨e, he, -⟩ := Option.map_eq_some_iff.1 hexpected
  have hkey : e.1 = t.key := by simpa using List.find?_some he
  obtain ⟨known, hparse⟩ := hknown (List.mem_of_find?_eq_some he)
  obtain ⟨v, hv⟩ := Patterns.exists_verdictOf hparse times es
  rw [verdict?, hpatterns, Option.bind_some, ← hkey, hv]
  rfl

/-- What a plan asks of a case are the measured trials of its run. -/
theorem expectations_eq (h : run.patterns.isSome = true) : plan.expectations run.case =
    (ofRun plan run).map fun t => (t.key, t.expected?.getD "") := by
  rw [MeasurePlan.expectations, ofRun, List.filter_map, List.map_map, ← List.filterMap_eq_map,
    List.filterMap_filter]
  refine List.filterMap_congr fun key hkey => ?_
  have hcontains : plan.keys.contains key = true := List.contains_iff_mem.2 hkey
  simp only [Function.comp_apply, isMeasured, h, hcontains, Bool.and_self, Bool.true_and, expected?]
  cases run.case.expected? key with
  | none => rfl
  | some expected => cases hincludes : plan.includes key expected <;> simp [hincludes]

end Trial

/-! ## Judgements -/

namespace Judgement

variable {plan : MeasurePlan} {runs : List CaseRun} {run : CaseRun} {js : List Judgement} {t : Trial}

/-- The judgement on a trial, by the verdict that its key names. -/
theorem judgedBy_iff {patterns : Patterns} (hrun : t.run.patterns = some patterns)
    (hmeasured : t.isMeasured plan = true) {j : Judgement} :
    ((patterns.verdictOf t.key).map fun v =>
      (⟨t.run.case.project, t.key, t.expected?.getD "", v⟩ : Judgement)) = .ok j ↔
        t.JudgedBy j := by
  obtain ⟨expected, hexpected⟩ := Trial.exists_expected hmeasured
  have hverdict : t.verdict? = (patterns.verdictOf t.key).toOption := by
    rw [Trial.verdict?, hrun]
    rfl
  cases hkey : patterns.verdictOf t.key with
  | error fault =>
    refine ⟨fun h => (by cases h), fun h => ?_⟩
    rw [h.verdict, hkey] at hverdict
    cases hverdict
  | ok v =>
    rw [hkey] at hverdict
    rw [hexpected]
    constructor
    · intro h
      cases h
      exact ⟨rfl, rfl, hexpected, hverdict⟩
    · rintro ⟨hproject, hkey', hexpected', hverdict'⟩
      obtain ⟨project, key, expected', v'⟩ := j
      obtain rfl := Option.some.inj (hexpected.symm.trans hexpected')
      obtain rfl := Option.some.inj (hverdict.symm.trans hverdict')
      subst hproject hkey'
      rfl

/-- A measured trial can be judged if it names a verdict. -/
theorem exists_judgedBy_iff (hmeasured : t.isMeasured plan = true) :
    (∃ j, t.JudgedBy j) ↔ t.verdict?.isSome = true := by
  rw [Option.isSome_iff_exists]
  constructor
  · rintro ⟨j, hj⟩
    exact ⟨_, hj.verdict⟩
  · rintro ⟨v, hv⟩
    obtain ⟨expected, hexpected⟩ := Trial.exists_expected hmeasured
    exact ⟨⟨t.run.case.project, t.key, expected, v⟩, rfl, rfl, hexpected, hv⟩

/-- **The judgements on a run** are those on its measured trials. -/
theorem ofRun_eq_ok_iff :
    ofRun plan run = .ok js ↔ List.Forall₂ Trial.JudgedBy (Trial.ofRun plan run) js := by
  cases hrun : run.patterns with
  | none =>
    rw [ofRun, hrun, Trial.ofRun_of_none hrun, List.forall₂_nil_left_iff]
    exact ⟨fun h => (Except.ok.inj h).symm, fun h => h ▸ rfl⟩
  | some patterns =>
    rw [ofRun, hrun]
    simp only
    rw [Trial.expectations_eq (by rw [hrun]; rfl), Fallible.mapM_eq_ok_iff,
      List.forall₂_map_left_iff]
    have hiff : ∀ t ∈ Trial.ofRun plan run, ∀ j,
        ((patterns.verdictOf t.key).map fun v =>
          (⟨run.case.project, t.key, t.expected?.getD "", v⟩ : Judgement)) = .ok j ↔
            t.JudgedBy j := by
      intro t ht j
      obtain ⟨rfl, hmeasured⟩ := Trial.mem_ofRun.1 ht
      exact judgedBy_iff hrun hmeasured
    exact Sequence.forall₂_congr hiff

/-- **The judgements on some runs** are those on the measured trials, one on each. -/
theorem forall₂_of_all (h : all plan runs = .ok js) :
    List.Forall₂ Trial.JudgedBy (Trial.measured plan runs) js := by
  rw [all] at h
  obtain ⟨jss, hjss, rfl⟩ := Fallible.map_eq_ok_iff.1 h
  rw [Fallible.mapM_eq_ok_iff] at hjss
  rw [Trial.measured, List.flatMap]
  refine List.rel_flatten (List.forall₂_map_left_iff.2 (hjss.imp fun run js hjs => ?_))
  exact ofRun_eq_ok_iff.1 hjs

/-- What is judged has a key of the vocabulary, and so one without a colon. -/
theorem not_colon_of_judged {ts : List Trial} (h : List.Forall₂ Trial.JudgedBy ts js) :
    ∀ j ∈ js, ':' ∉ j.key.toList := by
  induction h with
  | nil => exact fun j hj => absurd hj List.not_mem_nil
  | @cons t j ts js hj _ ih =>
    refine List.forall_mem_cons.2 ⟨?_, ih⟩
    obtain ⟨patterns, -, hverdict⟩ := Option.bind_eq_some_iff.1 hj.verdict
    rw [hj.key]
    cases hkey : FacetKey.parse t.key with
    | ok known => exact FacetKey.not_colon_of_parse hkey
    | error fault =>
      rw [Patterns.verdictOf, hkey] at hverdict
      cases hverdict

/-- **There are judgements** exactly if every measured trial names a verdict. -/
theorem exists_all_iff : (∃ js, all plan runs = .ok js) ↔
    ∀ t ∈ Trial.measured plan runs, t.verdict?.isSome = true := by
  have hrun (run : CaseRun) : (∃ js, ofRun plan run = .ok js) ↔
      ∀ t ∈ Trial.ofRun plan run, t.verdict?.isSome = true := by
    simp only [ofRun_eq_ok_iff, Sequence.exists_forall₂_iff]
    exact forall₂_congr fun t ht => exists_judgedBy_iff (Trial.mem_ofRun.1 ht).2
  have hall : (∃ js, all plan runs = .ok js) ↔ ∃ jss, runs.mapM (ofRun plan) = .ok jss := by
    simp only [all, Fallible.map_eq_ok_iff]
    exact ⟨fun ⟨_, jss, hjss, _⟩ => ⟨jss, hjss⟩, fun ⟨jss, hjss⟩ => ⟨_, jss, hjss, rfl⟩⟩
  simp only [hall, Fallible.mapM_eq_ok_iff, Sequence.exists_forall₂_iff, hrun, Trial.measured,
    List.mem_flatMap]
  exact ⟨fun h t ⟨run, hmem, ht⟩ => h run hmem t ht, fun h run hmem t ht => h t ⟨run, hmem, ht⟩⟩

/-- **Verdicts of scans can be judged** by the cases of a corpus. -/
theorem exists_all_of_corpus (plan : MeasurePlan) {document : Json} {corpus : Corpus}
    (hcorpus : Corpus.ofDocument document = .ok corpus)
    (hruns : ∀ run ∈ runs, run.case ∈ corpus.cases ∧
      ∀ patterns, run.patterns = some patterns → ∃ times es, patterns = .ofEvidence times es) :
    ∃ js, all plan runs = .ok js := by
  refine exists_all_iff.2 fun t ht => ?_
  obtain ⟨run, hrun, ht⟩ := List.mem_flatMap.1 ht
  obtain ⟨rfl, hmeasured⟩ := Trial.mem_ofRun.1 ht
  obtain ⟨hcase, hscans⟩ := hruns t.run hrun
  exact Trial.isSome_verdict? hmeasured (Corpus.exists_parse hcorpus hcase) hscans

end Judgement
end Conventions
