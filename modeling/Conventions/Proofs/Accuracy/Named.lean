import Conventions.Proofs.Accuracy.Plans
import Conventions.Proofs.Accuracy.Told

/-!
# Proofs/Accuracy/Named — an evaluation reads the verdicts that it names

The verdict on a primary facet stands for its category, and the others stand beside it under their names.
A facet key that is understood finds either (`Patterns.verdictOf_ofEvidence`), also where a primary facet
is written with its name, and every key of a plan is understood. So what is judged are the verdicts on
the facets that the keys name, each made from the observations of its facet alone
(`Corpus.reads_named_verdicts`).
-/

namespace Conventions

variable {c : Category} {facet key : String} {times : Times} {es : List Evidence}

/-! ## Verdicts on facets -/

/-- **The verdict on a facet** of some evidence: it has the names of the category and the facet, and is
what the observations with these names amount to. They have both names themselves, so it does not matter
whether the verdict is told them, as long as there is an observation. -/
structure Verdict.IsOn (v : Verdict) (c : Category) (facet : String) (times : Times)
    (es : List Evidence) : Prop where
  categoryName : v.category = c.name
  facetName : v.facet = facet
  told : v = .ofEvidence times c.name facet
    (es.filter fun e => e.category = c.name ∧ e.facet = facet)
  untold : (es.filter fun e => e.category = c.name ∧ e.facet = facet) ≠ [] →
    v = .ofEvidence times "" "" (es.filter fun e => e.category = c.name ∧ e.facet = facet)

/-- Observations name their category and their facet themselves. -/
theorem Verdict.ofEvidence_untold (hne : es ≠ [])
    (hes : ∀ e ∈ es, e.category = c.name ∧ e.facet = facet) :
    ofEvidence times "" "" es = ofEvidence times c.name facet es := by
  obtain ⟨r, _, _, -, hr, -⟩ := exists_decision times "" "" hne
  obtain ⟨first, rest, rfl⟩ := List.exists_cons_of_ne_nil hne
  obtain ⟨hcategory, hfacet⟩ := hes first List.mem_cons_self
  simp only [ofEvidence, hr, List.head?_cons, hcategory, hfacet, if_true, ite_self]

theorem Category.isOn_facetVerdict (hfacet : facet ∈ c.facets) (times : Times) (es : List Evidence) :
    (c.facetVerdict times es facet).IsOn c facet times es := by
  have hes : c.evidenceOf facet es =
      es.filter fun e => e.category = c.name ∧ e.facet = facet := by
    simp only [evidenceOf, Bool.decide_and, beq_eq_decide]
  refine ⟨Verdict.category_ofEvidence c.name_ne_empty facet,
    Verdict.facet_ofEvidence c.name (ne_empty_of_mem_facets hfacet), hes ▸ rfl, fun hne => ?_⟩
  rw [Verdict.ofEvidence_untold hne fun e he => by simpa using (List.mem_filter.1 he).2, ← hes]
  rfl

/-! ## Keys of a plan -/

theorem FacetKey.mem_facets_of_parse (h : parse key = .ok (c, facet)) : facet ∈ c.facets := by
  obtain ⟨ls, hls⟩ := labels?_of_parse h
  exact Category.isSome_labels?_iff.1 (hls ▸ rfl)

/-- **A plan measures what some case expects.** -/
theorem MeasurePlan.expects_of_mem_keys {corpus : Corpus} {request : Option (List String)}
    {plan : MeasurePlan} (h : ofRequest corpus request = .ok plan) (hkey : key ∈ plan.keys) :
    ∃ label, corpus.Expects key label := by
  cases request with
  | none =>
    obtain rfl := Except.ok.inj h
    exact Corpus.mem_facetKeys.1 hkey
  | some texts =>
    obtain ⟨text, htext, label, hwritten⟩ := ((measuresFor_of_ofRequest h).keys key).1 hkey
    obtain ⟨e, he, hmeasurable⟩ := (exists_ofRequest_iff.1 ⟨plan, h⟩).2 text htext
    obtain rfl := (Entry.ofText_eq_iff.2 he).symm.trans (Entry.ofText_eq_iff.2 hwritten)
    exact hmeasurable.labelled

/-! ## What is judged -/

/-- **A judgement reads the verdict that its key names**: the key is understood as a facet, and the
verdict is the one on this facet of what was observed in the project. -/
def Trial.ReadsNamed (t : Trial) (j : Judgement) : Prop :=
  ∃ times es c facet, t.run.patterns = some (.ofEvidence times es) ∧
    FacetKey.parse t.key = .ok (c, facet) ∧ j.verdict.IsOn c facet times es

theorem Trial.JudgedBy.readsNamed {t : Trial} {j : Judgement} (h : t.JudgedBy j)
    (hscan : t.run.IsScanned) : t.ReadsNamed j := by
  obtain ⟨patterns, hpatterns, hverdict⟩ := Option.bind_eq_some_iff.1 h.verdict
  obtain ⟨times, es, rfl⟩ := hscan patterns hpatterns
  cases hparse : FacetKey.parse t.key with
  | error fault =>
    rw [Patterns.verdictOf, hparse] at hverdict
    cases hverdict
  | ok named =>
    obtain ⟨c, facet⟩ := named
    rw [Patterns.verdictOf_ofEvidence hparse] at hverdict
    refine ⟨times, es, c, facet, hpatterns, hparse, ?_⟩
    rw [← Option.some.inj hverdict]
    exact c.isOn_facetVerdict (FacetKey.mem_facets_of_parse hparse) times es

/-- **An evaluation reads the verdicts that it names.** Every key of a plan for a corpus that was
accepted is understood as a facet, and names the verdict on this facet, whatever was observed. So the
runs of the cases can be judged, and what is judged are these verdicts. -/
theorem Corpus.reads_named_verdicts {document : Json} {corpus : Corpus}
    {request : Option (List String)} {plan : MeasurePlan}
    (hcorpus : ofDocument document = .ok corpus)
    (hplan : MeasurePlan.ofRequest corpus request = .ok plan) :
    (∀ key ∈ plan.keys, ∃ c facet, FacetKey.parse key = .ok (c, facet) ∧ facet ∈ c.facets ∧
      ∀ times es, ∃ v, (Patterns.ofEvidence times es).verdictOf key = .ok v ∧
        v.IsOn c facet times es) ∧
    ∀ runs : List CaseRun, (∀ run ∈ runs, run.case ∈ corpus.cases ∧ run.IsScanned) →
      ∃ js, Judgement.all plan runs = .ok js ∧
        List.Forall₂ (fun t j => t.JudgedBy j ∧ t.ReadsNamed j) (Trial.measured plan runs) js := by
  have hkeys : ∀ key ∈ plan.keys, ∃ named, FacetKey.parse key = .ok named := by
    intro key hkey
    obtain ⟨label, case, hcase, hexpected⟩ := MeasurePlan.expects_of_mem_keys hplan hkey
    exact exists_parse hcorpus hcase hexpected
  refine ⟨fun key hkey => ?_, fun runs hruns => ?_⟩
  · obtain ⟨⟨c, facet⟩, hparse⟩ := hkeys key hkey
    have hfacet := FacetKey.mem_facets_of_parse hparse
    exact ⟨c, facet, hparse, hfacet, fun times es =>
      ⟨_, Patterns.verdictOf_ofEvidence hparse times es, c.isOn_facetVerdict hfacet times es⟩⟩
  · obtain ⟨js, hjs⟩ := Judgement.exists_all_of_corpus plan hcorpus hruns
    have hscanned : ∀ t ∈ Trial.measured plan runs, t.run.IsScanned := by
      intro t ht
      obtain ⟨run, hrun, ht⟩ := List.mem_flatMap.1 ht
      obtain ⟨rfl, -⟩ := Trial.mem_ofRun.1 ht
      exact (hruns t.run hrun).2
    refine ⟨js, hjs, (Sequence.forall₂_congr fun t ht j => ?_).1 (Judgement.forall₂_of_all hjs)⟩
    exact (and_iff_left_of_imp fun h => h.readsNamed (hscanned t ht)).symm

/-- One case that writes a primary facet both ways, with a project in which a token was seen. -/
theorem Corpus.reads_named_verdicts_twoLocations :
    let cookie : Evidence :=
      ⟨"authentication", "token_location", "cookie", "req.cookies.t", "a.js", 3, .binary .one,
        "read"⟩
    let plan := MeasurePlan.everything ⟨[twoLocations]⟩
    let runs : List CaseRun := [⟨twoLocations, some (.ofEvidence (fun _ => .zero) [cookie])⟩]
    ofDocument (documentOf twoLocations) = .ok ⟨[twoLocations]⟩ ∧
      MeasurePlan.ofRequest ⟨[twoLocations]⟩ none = .ok plan ∧
        (∀ run ∈ runs, run.case ∈ [twoLocations] ∧ run.IsScanned) ∧
          ∃ js, Judgement.all plan runs = .ok js ∧
            List.Forall₂ (fun t j => t.JudgedBy j ∧ t.ReadsNamed j) (Trial.measured plan runs) js := by
  intro cookie plan runs
  have hruns : ∀ run ∈ runs, run.case ∈ [twoLocations] ∧ run.IsScanned := by
    refine List.forall_mem_singleton.2 ⟨List.mem_singleton_self _, fun patterns h => ?_⟩
    exact ⟨_, _, (Option.some.inj h).symm⟩
  have hplan : MeasurePlan.ofRequest ⟨[twoLocations]⟩ none = .ok plan := rfl
  exact ⟨ofDocument_twoLocations, hplan, hruns,
    (reads_named_verdicts ofDocument_twoLocations hplan).2 runs hruns⟩

end Conventions
