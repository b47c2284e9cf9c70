import Conventions.Proofs.Verdict.Confidence
import Conventions.Proofs.Verdict.Recency

/-!
# Proofs/Verdict/Corroboration — more support never dethrones the winner

One more observation of a label makes it no less sure and brings it forward in the ranking
(`key_append_lt`), and leaves the other labels as they are. It can only keep them from being newest
(`IsNewest.of_append`), so none of them wins that did not win before. The label itself stays newest as
long as the file of the observation is newer than those of its rivals (`IsNewest.append`).
-/

namespace Conventions

variable {times : Times} {es : List Evidence} {e : Evidence} {label : String}

namespace Evidence

/-! ## Labels that contend -/

theorem filter_append_of_ne (hne : label ≠ e.label) :
    ((es ++ [e]).filter fun x => x.label == label) = es.filter fun x => x.label == label := by
  rw [List.filter_append, List.filter_singleton, beq_eq_false_iff_ne.2 hne.symm]
  exact List.append_nil _

theorem filter_append_self : ((es ++ [e]).filter fun x => x.label == e.label) =
    (es.filter fun x => x.label == e.label) ++ [e] := by
  rw [List.filter_append, List.filter_singleton, beq_self_eq_true]
  rfl

theorem contends_append_iff (hne : label ≠ e.label) :
    Contends (es ++ [e]) label ↔ Contends es label := by
  rw [Contends, Contends, filter_append_of_ne hne]

theorem Contends.append (h : Contends es label) (e : Evidence) : Contends (es ++ [e]) label := by
  by_cases hlabel : label = e.label
  · rw [Contends] at h ⊢
    rw [hlabel] at h ⊢
    rw [filter_append_self]
    exact h.trans (Int.ofNat_le.2 (Confidence.ofEvidence_le_append_singleton _ e))
  · exact (contends_append_iff hlabel).2 h

theorem Conflict.append (h : Conflict es) (e : Evidence) : Conflict (es ++ [e]) := by
  obtain ⟨a, b, hne, ha, hb⟩ := h
  exact ⟨a, b, hne, ha.append e, hb.append e⟩

/-! ## The newest label -/

/-- **A label stays newest** with one more observation in a file that is newer than those of its
rivals. -/
theorem IsNewest.append (h : IsNewest times es e.label)
    (hnewer : ∀ y ∈ es, y.label ≠ e.label → Contends es y.label →
      Binary64.lt (times y.file) (times e.file) = true) :
    IsNewest times (es ++ [e]) e.label := by
  refine ⟨h.contends.append e, fun x hx hlabel y hy hne hcontends => ?_⟩
  rw [List.mem_append, List.mem_singleton] at hx hy
  obtain hy | rfl := hy
  · rw [contends_append_iff hne] at hcontends
    obtain hx | rfl := hx
    · exact h.newer x hx hlabel y hy hne hcontends
    · exact hnewer y hy hne hcontends
  · exact absurd rfl hne

/-- **No other label becomes newest** with one more observation. -/
theorem IsNewest.of_append (h : IsNewest times (es ++ [e]) label) (hlabel : label ≠ e.label) :
    IsNewest times es label := by
  refine ⟨(contends_append_iff hlabel).1 h.contends, fun x hx hxlabel y hy hne hcontends => ?_⟩
  exact h.newer x (List.mem_append_left _ hx) hxlabel y (List.mem_append_left _ hy) hne
    (hcontends.append e)

end Evidence

/-! ## The ranking -/

namespace LabelGroup

open Evidence

theorem ofLabel_append_of_ne (times : Times) (hne : label ≠ e.label) :
    ofLabel times (es ++ [e]) label = ofLabel times es label := by
  rw [ofLabel, ofLabel, filter_append_of_ne hne]

/-- **One more observation brings its label forward** in the ranking. -/
theorem key_append_lt : (ofLabel times (es ++ [e]) e.label).key < (ofLabel times es e.label).key := by
  have hcount : (ofLabel times (es ++ [e]) e.label).evidenceCount =
      (ofLabel times es e.label).evidenceCount + 1 := by
    rw [ofLabel, ofLabel, evidenceCount_ofEvidence, evidenceCount_ofEvidence, filter_append_self,
      List.length_append, List.length_singleton]
  have hconfidence : (ofLabel times es e.label).confidence ≤
      (ofLabel times (es ++ [e]) e.label).confidence := by
    refine Int.ofNat_le.2 ?_
    rw [filter_append_self]
    exact Confidence.ofEvidence_le_append_singleton _ e
  simp only [key, Prod.Lex.toLex_lt_toLex]
  omega

end LabelGroup

/-! ## The winner -/

namespace Verdict

open Evidence LabelGroup

variable {v v' : Verdict}

/-- **The winner stays the winner** with one more observation of it, which is in a file newer than those
of its rivals if it won for being newest. -/
theorem IsDecided.label_append (h : v.IsDecided times es) (h' : v'.IsDecided times (es ++ [e]))
    (hlabel : e.label = v.label)
    (hnewer : v.rule = .mostRecent → ∀ y ∈ es, y.label ≠ e.label → Contends es y.label →
      Binary64.lt (times y.file) (times e.file) = true) : v'.label = v.label := by
  by_contra hne
  rw [← hlabel] at hne
  obtain ⟨x, hx, hxlabel⟩ := h'.exists_mem
  have hxes : x ∈ es := by
    obtain hx | hx := List.mem_append.1 hx
    · exact hx
    · exact absurd (List.mem_singleton.1 hx ▸ hxlabel.symm) hne
  by_cases hrule' : v'.rule = .mostRecent
  · -- another label that is newest now was newest before
    exact hne (hlabel ▸ (h.label_eq ((h'.isNewest hrule').of_append hne)).symm)
  · have hrule : v.rule ≠ .mostRecent := by
      intro hrule
      have hnewest : IsNewest times es e.label := hlabel ▸ h.isNewest hrule
      have hconflict := (h.mostRecent_iff.1 hrule).1
      exact hrule' (h'.mostRecent_iff.2 ⟨hconflict.append e, _, hnewest.append (hnewer hrule)⟩)
    -- both were first in a ranking in which the other had a part
    have hfirst : (ofLabel times es e.label).key ≤ (ofLabel times es v'.label).key := by
      rw [hlabel, ← hxlabel]
      refine h.first hrule x hxes fun hcontends => ?_
      rw [hxlabel]
      exact (contends_append_iff hne).1 (h'.contends _ (hcontends.append e))
    have hfirst' : (ofLabel times (es ++ [e]) v'.label).key ≤
        (ofLabel times (es ++ [e]) e.label).key := by
      refine h'.first hrule' e (by simp) fun hcontends => ?_
      rw [hlabel]
      exact (h.contends _ ((contends_append_iff hne).1 hcontends)).append e
    rw [ofLabel_append_of_ne times hne] at hfirst'
    exact absurd (hfirst.trans hfirst') key_append_lt.not_ge

/-- **More support never dethrones the winner**: with one more observation of it, it still wins and is no
less sure. If it won for being newest, the file of that observation has to be newer than those of its
rivals. -/
theorem winner_corroborated (times : Times) (category facet : String) (es : List Evidence)
    (e : Evidence) (htimes : ∀ x ∈ es ++ [e], (times x.file).isNaN = false)
    (hlabel : e.label = (ofEvidence times category facet es).label)
    (hnewer : (ofEvidence times category facet es).rule = .mostRecent →
      ∀ y ∈ es, y.label ≠ e.label → Contends es y.label →
        Binary64.lt (times y.file) (times e.file) = true) :
    (ofEvidence times category facet (es ++ [e])).label =
        (ofEvidence times category facet es).label ∧
      (ofEvidence times category facet es).confidence ≤
        (ofEvidence times category facet (es ++ [e])).confidence := by
  have h' := isDecided_ofEvidence category facet (by simp) htimes
  by_cases hne : es = []
  · obtain rfl := hne
    obtain ⟨x, hx, hxlabel⟩ := h'.exists_mem
    rw [List.nil_append, List.mem_singleton] at hx
    rw [h'.confidence_eq]
    exact ⟨hxlabel.symm.trans (hx ▸ hlabel), Int.natCast_nonneg _⟩
  · have h : (ofEvidence times category facet es).IsDecided times es :=
      isDecided_ofEvidence category facet hne fun x hx => htimes x (List.mem_append_left _ hx)
    have hwinner := h.label_append h' hlabel hnewer
    refine ⟨hwinner, ?_⟩
    rw [h.confidence_eq, h'.confidence_eq, hwinner, ← hlabel, filter_append_self]
    exact Int.ofNat_le.2 (Confidence.ofEvidence_le_append_singleton _ e)

/-- One more observation of the newest label, in a file older than its other one. -/
theorem winner_corroborated_of_newest :
    let cookie : Evidence :=
      { (default : Evidence) with label := "cookie", file := "a.js", strength := .whole 1 }
    let session : Evidence := { cookie with label := "session", file := "c.js" }
    let e : Evidence := { session with file := "b.js" }
    let es := [cookie, cookie, session]
    let times := Times.ofList [("a.js", .finite false 1), ("b.js", .finite false 2),
      ("c.js", .finite false 3)]
    (∀ x ∈ es ++ [e], (times x.file).isNaN = false) ∧
      e.label = (ofEvidence times "" "" es).label ∧
        (ofEvidence times "" "" es).rule = .mostRecent ∧
          (∀ y ∈ es, y.label ≠ e.label → Contends es y.label →
            Binary64.lt (times y.file) (times e.file) = true) ∧
            (ofEvidence times "" "" (es ++ [e])).label = (ofEvidence times "" "" es).label ∧
              (ofEvidence times "" "" es).confidence ≤
                (ofEvidence times "" "" (es ++ [e])).confidence := by
  intro cookie session e es times
  have hnumbers : ∀ x ∈ es ++ [e], (times x.file).isNaN = false := by decide +kernel
  have hdecided : (ofEvidence times "" "" es).IsDecided times es :=
    isDecided_ofEvidence "" "" (by decide) fun x hx => hnumbers x (List.mem_append_left _ hx)
  have hnewest : IsNewest times es "session" := by decide +kernel
  have hconflict : Conflict es :=
    ⟨"cookie", "session", by decide, by decide +kernel, by decide +kernel⟩
  have hlabel : e.label = (ofEvidence times "" "" es).label := (hdecided.label_eq hnewest).symm
  have hnewer : ∀ y ∈ es, y.label ≠ e.label → Contends es y.label →
      Binary64.lt (times y.file) (times e.file) = true := by decide +kernel
  exact ⟨hnumbers, hlabel, hdecided.mostRecent_iff.2 ⟨hconflict, _, hnewest⟩, hnewer,
    winner_corroborated times "" "" es e hnumbers hlabel fun _ => hnewer⟩

end Verdict
end Conventions
