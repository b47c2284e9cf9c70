import Conventions.Proofs.Verdict.Labels

/-!
# Proofs/Verdict/Recency — when the newest label wins

A label wins because it is the newest one just if two labels contend and each file of one of them is
newer than each file of any other (`ofEvidence_followsRecency`). There is one such label at most, it
wins, and it shares no file with a rival. Files of labels that do not contend have no part in it
(`isNewest_congr`).
-/

namespace Conventions

variable {times times' : Times} {es : List Evidence} {label : String}

namespace Evidence

/-- A newest label shares no file with a rival. -/
theorem IsNewest.file_ne (h : IsNewest times es label) {x y : Evidence} (hx : x ∈ es)
    (hlabel : x.label = label) (hy : y ∈ es) (hne : y.label ≠ label) (hcontends : Contends es y.label) :
    x.file ≠ y.file := by
  intro hfile
  have hlt := h.newer x hx hlabel y hy hne hcontends
  have hgt := Binary64.lt_asymm hlt
  rw [hfile] at hlt hgt
  rw [hlt] at hgt
  cases hgt

/-- **A label is newest by the files of the labels that contend**; when other files were written does
not matter. -/
theorem isNewest_congr (h : ∀ e ∈ es, Contends es e.label → times e.file = times' e.file) :
    IsNewest times es label ↔ IsNewest times' es label := by
  refine ⟨fun hnewest => ⟨hnewest.contends, fun x hx hlabel y hy hne hcontends => ?_⟩,
    fun hnewest => ⟨hnewest.contends, fun x hx hlabel y hy hne hcontends => ?_⟩⟩
  all_goals
    have hlt := hnewest.newer x hx hlabel y hy hne hcontends
    have hxtime := h x hx (hlabel ▸ hnewest.contends)
    have hytime := h y hy hcontends
  · rwa [← hxtime, ← hytime]
  · rwa [hxtime, hytime]

end Evidence

namespace Verdict

open Evidence

/-- **How recency decides on a verdict.** -/
structure FollowsRecency (times : Times) (es : List Evidence) (v : Verdict) : Prop where
  mostRecent_iff : v.rule = .mostRecent ↔ Conflict es ∧ ∃ label, IsNewest times es label
  /-- The newest label wins; so there is one at most. -/
  label_eq : ∀ label, IsNewest times es label → v.label = label
  /-- A label that shares a file with a rival is not the newest one. -/
  not_isNewest : ∀ x ∈ es, ∀ y ∈ es, y.label ≠ x.label → Contends es y.label → x.file = y.file →
    ¬ IsNewest times es x.label

theorem IsDecided.label_eq {v : Verdict} (h : v.IsDecided times es)
    (hlabel : IsNewest times es label) : v.label = label := by
  by_contra hne
  have hconflict : Conflict es := ⟨_, _, hne, h.contends label hlabel.contends, hlabel.contends⟩
  exact hne ((h.isNewest (h.mostRecent_iff.2 ⟨hconflict, _, hlabel⟩)).unique hlabel)

theorem followsRecency (category facet : String)
    (hes : ∀ e ∈ es, (times e.file).isNaN = false) :
    (ofEvidence times category facet es).FollowsRecency times es := by
  have hshared : ∀ x ∈ es, ∀ y ∈ es, y.label ≠ x.label → Contends es y.label → x.file = y.file →
      ¬ IsNewest times es x.label :=
    fun x hx y hy hne hcontends hfile hlabel => hlabel.file_ne hx rfl hy hne hcontends hfile
  by_cases hne : es = []
  · -- without evidence no label contends
    obtain rfl := hne
    have hnone (label : String) : ¬ Contends [] label := fun h => by
      obtain ⟨e, he, -⟩ := h.exists_mem
      cases he
    refine ⟨iff_of_false (fun h => ?_) ?_, fun label h => absurd h.contends (hnone label), hshared⟩
    · cases h
    · rintro ⟨-, label, h⟩
      exact hnone label h.contends
  · have hdecided := isDecided_ofEvidence category facet hne hes
    exact ⟨hdecided.mostRecent_iff, fun label h => hdecided.label_eq h, hshared⟩

/-- **Recency means every file**: the newest label wins, for being the newest one, just if two labels
contend and each file of one of them is newer than each file of any other. When the files of labels that
do not contend were written makes no difference to it. -/
theorem ofEvidence_followsRecency (times : Times) (category facet : String) (es : List Evidence)
    (hes : ∀ e ∈ es, (times e.file).isNaN = false) :
    (ofEvidence times category facet es).FollowsRecency times es ∧
      ∀ times' : Times, (∀ e ∈ es, (times' e.file).isNaN = false) →
        (∀ e ∈ es, Contends es e.label → times e.file = times' e.file) →
          ((ofEvidence times' category facet es).rule = .mostRecent ↔
            (ofEvidence times category facet es).rule = .mostRecent) ∧
          ((ofEvidence times category facet es).rule = .mostRecent →
            (ofEvidence times' category facet es).label =
              (ofEvidence times category facet es).label) := by
  have hrecency := followsRecency category facet hes
  refine ⟨hrecency, fun times' hes' hagree => ?_⟩
  have hrecency' := followsRecency category facet hes'
  have hnewest (label : String) : IsNewest times es label ↔ IsNewest times' es label :=
    isNewest_congr hagree
  constructor
  · simp only [hrecency.mostRecent_iff, hrecency'.mostRecent_iff, hnewest]
  · intro hrule
    obtain ⟨-, label, hlabel⟩ := hrecency.mostRecent_iff.1 hrule
    rw [hrecency.label_eq label hlabel, hrecency'.label_eq label ((hnewest label).1 hlabel)]

/-- A label whose files are newer than those of its rival wins, though a label that does not contend has
a file that is newer still. -/
theorem ofEvidence_followsRecency_of_weak :
    let cookie : Evidence :=
      { (default : Evidence) with label := "cookie", file := "a.js", strength := .whole 1 }
    let session : Evidence := { cookie with label := "session", file := "b.js" }
    let query : Evidence := { cookie with label := "query-param", file := "c.js", strength := .whole 0 }
    let es := [cookie, cookie, session, query]
    let times := Times.ofList [("a.js", .finite false 1), ("b.js", .finite false 2),
      ("c.js", .finite false 3)]
    (∀ e ∈ es, (times e.file).isNaN = false) ∧
      (ofEvidence times "" "" es).rule = .mostRecent ∧
        (ofEvidence times "" "" es).label = "session" := by
  intro cookie session query es times
  have hnumbers : ∀ e ∈ es, (times e.file).isNaN = false := by decide +kernel
  have hrecency := (ofEvidence_followsRecency times "" "" es hnumbers).1
  have hconflict : Conflict es :=
    ⟨"cookie", "session", by decide, by decide +kernel, by decide +kernel⟩
  have hnewest : IsNewest times es "session" := by decide +kernel
  exact ⟨hnumbers, hrecency.mostRecent_iff.2 ⟨hconflict, _, hnewest⟩, hrecency.label_eq _ hnewest⟩

end Verdict
end Conventions
