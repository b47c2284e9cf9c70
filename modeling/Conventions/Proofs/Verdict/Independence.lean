import Conventions.Proofs.Verdict.Account

/-!
# Proofs/Verdict/Independence — facets do not influence one another

The verdict on a facet is made from its own observations, and of all times it asks those of the files
that these were made in (`ofEvidence_congr`): sorting compares observations that are there, and what is
shown of a label was observed. So a verdict stays the same whatever else was observed in a project
(`verdict_independent`), and every facet of a category has one (`reported_verdict`).
-/

namespace Conventions

variable {times times' : Times} {es es' : List Evidence} {g : LabelGroup}

/-! ## Times that agree -/

/-- **Two accounts of when files were written agree** on the files of some observations. -/
def Times.AgreeOn (times times' : Times) (es : List Evidence) : Prop :=
  ∀ e ∈ es, times e.file = times' e.file

theorem Times.AgreeOn.mono (h : times.AgreeOn times' es) (hsub : es' ⊆ es) :
    times.AgreeOn times' es' := fun e he => h e (hsub he)

theorem Evidence.ranked_congr (cap : Int) (h : times.AgreeOn times' es) :
    ranked times cap es = ranked times' cap es := by
  have hsort : (es.mergeSort fun a b => (presentation times a b).isLE) =
      es.mergeSort fun a b => (presentation times' a b).isLE :=
    Sequence.mergeSort_congr fun a ha b hb => by
      rw [presentation, presentation, h a ha, h b hb]
  rw [ranked, ranked, hsort]

namespace LabelGroup

theorem ofEvidence_congr (label : String) (h : times.AgreeOn times' es) :
    ofEvidence times label es = ofEvidence times' label es := by
  have htimes : (Text.distinct (es.map (·.file))).map times =
      (Text.distinct (es.map (·.file))).map times' := by
    refine List.map_congr_left fun file hfile => ?_
    obtain ⟨e, he, rfl⟩ := List.mem_map.1 (Text.mem_distinct.1 hfile)
    exact h e he
  rw [ofEvidence, ofEvidence, htimes]

theorem all_congr (h : times.AgreeOn times' es) : all times es = all times' es :=
  List.map_congr_left fun label _ => ofEvidence_congr label (h.mono (List.filter_subset_self _))

/-- A group holds what was observed. -/
theorem evidence_subset (h : g ∈ all times es) : g.evidence ⊆ es := by
  rw [eq_of_mem_all h]
  exact fun e he => List.mem_of_mem_filter ((evidence_perm ..).mem_iff.1 he)

end LabelGroup

/-! ## Verdicts -/

/-- A decision makes up no group. -/
theorem Resolution.mem_of_resolve? {threshold : Int} {groups : List LabelGroup} {r : Resolution}
    (h : resolve? threshold groups = some r) (hg : g ∈ r.winner :: r.rejected) : g ∈ groups := by
  obtain ⟨r', hr', hchosen⟩ := exists_chosen threshold (ne_nil_of_resolve? h)
  cases h.symm.trans hr'
  exact (ranked_perm groups).mem_iff.1 (hchosen.perm.mem_iff.1 hg)

namespace Verdict

theorem ofResolution_congr (category facet : String) {r : Resolution}
    (h : ∀ g ∈ r.winner :: r.rejected, times.AgreeOn times' g.evidence) :
    ofResolution times category facet r = ofResolution times' category facet r := by
  obtain ⟨hwinner, hrejected⟩ := List.forall_mem_cons.1 h
  have hrejections : r.rejected.map (rejection times) = r.rejected.map (rejection times') :=
    List.map_congr_left fun g hg => by
      rw [rejection, rejection, Evidence.ranked_congr _ (hrejected g hg)]
  rw [ofResolution, ofResolution, hrejections, Evidence.ranked_congr _ hwinner]

/-- **A verdict asks when the files of its observations were written**, and nothing of other files. -/
theorem ofEvidence_congr (category facet : String) (h : times.AgreeOn times' es) :
    ofEvidence times category facet es = ofEvidence times' category facet es := by
  rw [ofEvidence, ofEvidence, LabelGroup.all_congr h]
  cases es.head? with
  | none => rfl
  | some first =>
    cases hr : resolve? Resolution.contention (LabelGroup.all times' es) with
    | none => rfl
    | some r =>
      refine ofResolution_congr _ _ fun g hg => h.mono ?_
      exact LabelGroup.evidence_subset (Resolution.mem_of_resolve? hr hg)

theorem category_ofEvidence {category : String} (hcategory : category ≠ "") (facet : String) :
    (ofEvidence times category facet es).category = category := by
  rw [ofEvidence]
  split
  · exact if_neg hcategory
  · rfl

theorem facet_ofEvidence (category : String) {facet : String} (hfacet : facet ≠ "") :
    (ofEvidence times category facet es).facet = facet := by
  rw [ofEvidence]
  split
  · exact if_neg hfacet
  · rfl

end Verdict

/-! ## Categories -/

/-- **The verdicts that are reported on a category**, each under the name of its facet. -/
def CategoryVerdict.reported (c : Category) (v : CategoryVerdict) : List (String × Verdict) :=
  (c.primaryFacet, v.primary) :: v.facets

namespace Category

variable {c : Category} {facet : String}

theorem name_ne_empty (c : Category) : c.name ≠ "" := by cases c <;> decide

theorem ne_empty_of_mem_facets (h : facet ∈ c.facets) : facet ≠ "" := by
  rintro rfl
  revert h
  cases c <;> decide

/-- **Every facet of a category has one verdict**, the primary one first. -/
theorem reported_verdict (c : Category) (times : Times) (es : List Evidence) :
    (c.verdict times es).reported c =
      c.facets.map fun facet => (facet, c.facetVerdict times es facet) := by
  cases c <;> rfl

theorem facetVerdict_congr (hes : c.evidenceOf facet es = c.evidenceOf facet es')
    (htimes : times.AgreeOn times' (c.evidenceOf facet es)) :
    c.facetVerdict times es facet = c.facetVerdict times' es' facet := by
  rw [facetVerdict, facetVerdict, ← hes, Verdict.ofEvidence_congr _ _ htimes]

/-- The verdicts on a category ask when the files of the observations were written, and nothing of
other files. -/
theorem verdict_congr (c : Category) (h : times.AgreeOn times' es) :
    c.verdict times es = c.verdict times' es := by
  have hfacet (facet : String) : c.facetVerdict times es facet = c.facetVerdict times' es facet :=
    facetVerdict_congr rfl (h.mono (List.filter_subset_self _))
  simp only [verdict, hfacet]

/-- **Facets do not influence one another**: one verdict is reported for each facet of a category,
and it is the same for any observations among which those of the facet are the same, in the same
order, if the files that these were made in were written at the same times. -/
theorem verdict_independent (hfacet : facet ∈ c.facets)
    (hes : (es.filter fun e => e.category = c.name ∧ e.facet = facet) =
      es'.filter fun e => e.category = c.name ∧ e.facet = facet)
    (htimes : ∀ e ∈ es, e.category = c.name → e.facet = facet → times e.file = times' e.file) :
    ((c.verdict times es).reported c).map (·.1) = c.facets ∧
      ((c.verdict times' es').reported c).map (·.1) = c.facets ∧
        ∃ v, v.category = c.name ∧ v.facet = facet ∧
          (∀ w, (facet, w) ∈ (c.verdict times es).reported c ↔ w = v) ∧
            ∀ w, (facet, w) ∈ (c.verdict times' es').reported c ↔ w = v := by
  have hof (es : List Evidence) :
      (es.filter fun e => e.category = c.name ∧ e.facet = facet) = c.evidenceOf facet es := by
    simp only [evidenceOf, Bool.decide_and, beq_eq_decide]
  rw [hof, hof] at hes
  have hagree : times.AgreeOn times' (c.evidenceOf facet es) := by
    intro e he
    rw [← hof, List.mem_filter, decide_eq_true_iff] at he
    exact htimes e he.1 he.2.1 he.2.2
  have hkeys (times : Times) (es : List Evidence) :
      ((c.verdict times es).reported c).map (·.1) = c.facets := by
    rw [reported_verdict, List.map_map]
    exact List.map_id _
  have hreported (times : Times) (es : List Evidence) (w : Verdict) :
      (facet, w) ∈ (c.verdict times es).reported c ↔ w = c.facetVerdict times es facet := by
    simp [reported_verdict, hfacet, eq_comm]
  refine ⟨hkeys times es, hkeys times' es', c.facetVerdict times es facet,
    Verdict.category_ofEvidence c.name_ne_empty facet,
    Verdict.facet_ofEvidence c.name (ne_empty_of_mem_facets hfacet), hreported times es, ?_⟩
  rw [facetVerdict_congr hes hagree]
  exact hreported times' es'

/-- Observations of other facets and categories, and of a category that is not known, put in between,
and made in a file of the facet too; the times of other files differ. -/
theorem verdict_independent_of_foreign :
    let cookie : Evidence :=
      { (default : Evidence) with
        category := "authentication", facet := "token_location", label := "cookie",
        file := "a.js", strength := .whole 1 }
    let session : Evidence := { cookie with label := "session", file := "b.js" }
    let user : Evidence := { cookie with facet := "user_property", label := "req.user" }
    let unheard : Evidence := { cookie with category := "caching", file := "c.js" }
    let times : Times := Times.ofList [("a.js", .one), ("c.js", .one)]
    let times' : Times := Times.ofList [("a.js", .one), ("d.js", .one)]
    let verdict := Category.authentication.verdict times [cookie, session]
    let verdict' := Category.authentication.verdict times' [unheard, cookie, user, session]
    (verdict.reported .authentication).map (·.1) = Category.authentication.facets ∧
      (verdict'.reported .authentication).map (·.1) = Category.authentication.facets ∧
        ∃ v, v.category = "authentication" ∧ v.facet = "token_location" ∧
          (∀ w, ("token_location", w) ∈ verdict.reported .authentication ↔ w = v) ∧
            ∀ w, ("token_location", w) ∈ verdict'.reported .authentication ↔ w = v :=
  verdict_independent (by decide : "token_location" ∈ Category.authentication.facets) (by decide)
    (by decide +kernel)

end Category
end Conventions
