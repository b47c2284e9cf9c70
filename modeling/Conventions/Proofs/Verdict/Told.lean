import Conventions.Proofs.Scan.Genuine
import Conventions.Proofs.Verdict.Account
import Conventions.Proofs.Verdict.Confidence
import Conventions.Proofs.Verdict.Independence
import Conventions.Proofs.Vocabulary

/-!
# Proofs/Verdict/Told — verdicts that can be told

A verdict on observations of the vocabulary has a label of its facet or the unknown one, and so have
the labels that it rejects (`checkLabel_of_mem_labels`). Since it accounts for its evidence, the
numbers that it tells stay within their bounds (`isTold_facetVerdict`).
-/

namespace Conventions

variable {times : Times} {es : List Evidence}

/-! ## Parts of verdicts -/

/-- **Observations that can be shown** for a label: at most ten, each of which can be told, with how
sure they make. -/
structure Evidence.AreShown (confidence : Int) (shown : List Evidence) : Prop where
  confidence : 0 ≤ confidence ∧ confidence ≤ 100
  length : shown.length ≤ 10
  known : ∀ e ∈ shown, e.IsKnown

/-- **A rejected label that can be told.** -/
structure RejectedLabel.IsTold (r : RejectedLabel) : Prop where
  shown : Evidence.AreShown r.confidence r.evidence
  evidenceCount : 1 ≤ r.evidenceCount
  fileCount : 1 ≤ r.fileCount

/-- **A verdict that can be told.** -/
structure Verdict.IsTold (v : Verdict) : Prop where
  category : ∃ c : Category, v.category = c.name
  facet : v.facet ≠ ""
  label : v.label ≠ ""
  shown : Evidence.AreShown v.confidence v.evidence
  rejected : ∀ r ∈ v.rejected, r.IsTold

/-- The labels that a verdict names: the one that holds, and those rejected. -/
def Verdict.labels (v : Verdict) : List String := v.label :: v.rejected.map (·.label)

/-- The verdicts on the facets of a category. -/
def CategoryVerdict.verdicts (v : CategoryVerdict) : List Verdict := v.primary :: v.facets.map (·.2)

namespace LabelAccount

variable {items shown : List Evidence} {confidence : Int} {count : Nat}

/-- **How sure some observations make** is a whole percentage. -/
theorem confidence_bounds (h : LabelAccount times items confidence count shown) :
    0 ≤ confidence ∧ confidence ≤ 100 := by
  have hmost := Confidence.ofSupport_le_most (Confidence.Support.ofEvidence items)
  rw [← Confidence.ofEvidence_eq] at hmost
  rw [h.confidence_eq]
  exact ⟨Int.natCast_nonneg _, Int.ofNat_le.2 hmost⟩

/-- **What is shown for a label** can be told if all its observations can. -/
theorem areShown (h : LabelAccount times items confidence count shown)
    (hitems : ∀ e ∈ items, e.IsKnown) : Evidence.AreShown confidence shown where
  confidence := h.confidence_bounds
  length := by
    rw [h.length_shown]
    exact Nat.min_le_left ..
  known e he := by
    obtain ⟨omitted, hperm, -⟩ := h.exists_omitted
    exact hitems e (hperm.mem_iff.1 (List.mem_append_left _ he))

end LabelAccount

/-! ## The vocabulary -/

namespace Category

variable {c : Category} {facet : String}

theorem ne_empty_of_mem_labels {ls : List String} {label : String} (hls : c.labels? facet = some ls)
    (h : label ∈ ls) : label ≠ "" := by
  have hall : ∀ entry ∈ c.facetLabels, ∀ label ∈ entry.2, label ≠ "" := by cases c <;> decide
  obtain ⟨entry, hentry, rfl⟩ := Option.map_eq_some_iff.1 hls
  exact hall entry (List.mem_of_find?_eq_some hentry) label h

theorem labels_facetKey (h : facet ∈ c.facets) : FacetKey.labels (c.facetKey facet) =
    .ok ((c.labels? facet).getD [] ++ [unknownLabel]) := by
  have hall : ∀ facet ∈ c.facets, FacetKey.labels (c.facetKey facet) =
      .ok ((c.labels? facet).getD [] ++ [unknownLabel]) := by cases c <;> decide +kernel
  exact hall facet h

/-- **Is a label one of a facet**, or the unknown one? -/
def HasLabel (c : Category) (facet label : String) : Prop :=
  label = unknownLabel ∨ ∃ ls, c.labels? facet = some ls ∧ label ∈ ls

theorem HasLabel.ne_empty {label : String} (h : c.HasLabel facet label) : label ≠ "" := by
  obtain rfl | ⟨ls, hls, hmem⟩ := h
  · decide
  · exact ne_empty_of_mem_labels hls hmem

/-- **The key of a facet has its labels**, and the unknown one. -/
theorem HasLabel.checkLabel {label : String} (h : c.HasLabel facet label)
    (hfacet : facet ∈ c.facets) : FacetKey.checkLabel (c.facetKey facet) label = .ok () := by
  have hmem : label ∈ (c.labels? facet).getD [] ++ [unknownLabel] := by
    obtain rfl | ⟨ls, hls, hmem⟩ := h
    · exact List.mem_append_right _ (List.mem_singleton_self _)
    · rw [hls]
      exact List.mem_append_left _ hmem
  rw [FacetKey.checkLabel, labels_facetKey hfacet]
  exact if_pos hmem

theorem hasLabel_of_mem_evidenceOf (hes : ∀ e ∈ es, e.IsKnown) {e : Evidence}
    (he : e ∈ c.evidenceOf facet es) : c.HasLabel facet e.label := by
  obtain ⟨he, hplace⟩ := List.mem_filter.1 he
  rw [Bool.and_eq_true, beq_iff_eq, beq_iff_eq] at hplace
  obtain ⟨c', hc', ls, hls, hmem⟩ := (hes e he).label
  obtain rfl := name_injective (hplace.1.symm.trans hc')
  rw [hplace.2] at hls
  exact .inr ⟨ls, hls, hmem⟩

end Category

/-! ## Verdicts -/

namespace Verdict

theorem isTold_unknown (c : Category) {facet : String} (hfacet : facet ≠ "") :
    (unknown c.name facet).IsTold where
  category := ⟨c, rfl⟩
  facet := hfacet
  label := by
    change unknownLabel ≠ ""
    decide
  shown := ⟨⟨Int.le_refl 0, (by decide : (0 : Int) ≤ 100)⟩, Nat.zero_le 10, fun _ he => nomatch he⟩
  rejected _ hr := nomatch hr

end Verdict

namespace Category

variable {c : Category} {facet : String}

/-- **A verdict on a facet accounts for the observations of it.** -/
theorem accountsFor_facetVerdict (hne : c.evidenceOf facet es ≠ []) :
    (c.facetVerdict times es facet).AccountsFor times (c.evidenceOf facet es) := by
  obtain ⟨r, category, named, hverdict, hperm⟩ :=
    Verdict.exists_resolution times c.name facet hne
  rw [facetVerdict, hverdict]
  exact Verdict.accountsFor_ofResolution category named hperm

/-- **How sure a verdict is** is a whole percentage. -/
theorem confidence_facetVerdict (c : Category) (times : Times) (es : List Evidence)
    (facet : String) : 0 ≤ (c.facetVerdict times es facet).confidence ∧
      (c.facetVerdict times es facet).confidence ≤ 100 := by
  by_cases hne : c.evidenceOf facet es = []
  · rw [facetVerdict, hne]
    exact ⟨Int.le_refl 0, (by decide : (0 : Int) ≤ 100)⟩
  · exact (accountsFor_facetVerdict hne).winner.confidence_bounds

/-- **A verdict names labels of its facet**, or the unknown one. -/
theorem hasLabel_of_mem_labels (hes : ∀ e ∈ es, e.IsKnown) {label : String}
    (h : label ∈ (c.facetVerdict times es facet).labels) : c.HasLabel facet label := by
  by_cases hne : c.evidenceOf facet es = []
  · rw [facetVerdict, hne] at h
    obtain rfl := List.mem_singleton.1 h
    exact .inl rfl
  · have haccount : (c.facetVerdict times es facet).AccountsFor times _ :=
      accountsFor_facetVerdict hne
    obtain ⟨e, he, rfl⟩ := (haccount.mem_labels_iff label).1 h
    exact hasLabel_of_mem_evidenceOf hes he

/-- **A verdict on observations of the vocabulary can be told.** -/
theorem isTold_facetVerdict (hes : ∀ e ∈ es, e.IsKnown) (hfacet : facet ∈ c.facets) :
    (c.facetVerdict times es facet).IsTold := by
  have hfacet := ne_empty_of_mem_facets hfacet
  by_cases hne : c.evidenceOf facet es = []
  · rw [facetVerdict, hne]
    exact Verdict.isTold_unknown c hfacet
  · have haccount : (c.facetVerdict times es facet).AccountsFor times _ :=
      accountsFor_facetVerdict hne
    have hknown {label : String} : ∀ e ∈ (c.evidenceOf facet es).filter fun e => e.label == label,
        e.IsKnown := fun e he => hes e (List.mem_of_mem_filter (List.mem_of_mem_filter he))
    have hlabel : c.HasLabel facet (c.facetVerdict times es facet).label :=
      hasLabel_of_mem_labels hes List.mem_cons_self
    refine ⟨⟨c, Verdict.category_ofEvidence c.name_ne_empty facet⟩,
      (Verdict.facet_ofEvidence c.name hfacet).trans_ne hfacet, hlabel.ne_empty,
      haccount.winner.areShown hknown, fun r hr => ?_⟩
    -- a label is rejected because of some observation
    obtain ⟨e, he, hlabel⟩ := (haccount.mem_labels_iff r.label).1
      (List.mem_cons_of_mem _ (List.mem_map_of_mem hr))
    have hitem : e ∈ (c.evidenceOf facet es).filter fun e => e.label == r.label :=
      List.mem_filter.2 ⟨he, beq_iff_eq.2 hlabel⟩
    refine ⟨(haccount.rejected r hr).areShown hknown, ?_, ?_⟩
    · rw [(haccount.rejected r hr).count_eq]
      exact List.length_pos_of_mem hitem
    · rw [haccount.fileCount_rejected r hr]
      exact Finset.card_pos.2 ⟨e.file, List.mem_toFinset.2 (List.mem_map_of_mem hitem)⟩

/-- The verdicts on a category are verdicts on its facets. -/
theorem exists_facet_of_mem_verdicts {v : Verdict} (h : v ∈ (c.verdict times es).verdicts) :
    ∃ facet ∈ c.facets, v = c.facetVerdict times es facet := by
  have hverdicts : (c.verdict times es).verdicts = c.facets.map (c.facetVerdict times es) := by
    have hreported := congrArg (List.map Prod.snd) (c.reported_verdict times es)
    rwa [List.map_map] at hreported
  rw [hverdicts] at h
  obtain ⟨facet, hfacet, rfl⟩ := List.mem_map.1 h
  exact ⟨facet, hfacet, rfl⟩

end Category
end Conventions
