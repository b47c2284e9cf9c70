import Conventions.Proofs.Sequence
import Conventions.Proofs.Verdict.Ranking
import Conventions.Verdict
import Mathlib.Algebra.BigOperators.Group.List.Lemmas
import Mathlib.Algebra.GroupWithZero.Nat
import Mathlib.Data.Finset.Card

/-!
# Proofs/Verdict/Account — a verdict accounts for all evidence

The evidence of a facet falls into groups, one of them wins and the others are rejected, and of
each some observations are shown. `ofEvidence_accountsFor` says that nothing is lost on the way:
every label is named once, the numbers of observations add up, and what is said of a label is true
of the observations of that label (`LabelAccount`).
-/

namespace Conventions

variable {times : Times} {es : List Evidence} {g : LabelGroup}

/-! ## What is shown -/

namespace Evidence

/-- **What orders observations for presentation**: strength and time of the file, the greater first,
then file, line and shape. -/
def presentationKey (times : Times) (e : Evidence) : Int ×ₗ Int ×ₗ String ×ₗ Int ×ₗ String :=
  toLex (-e.strength.key, toLex (-(times e.file).key, toLex (e.file, toLex (e.line, e.shape))))

theorem presentation_eq_compare (a b : Evidence) :
    presentation times a b = compare (a.presentationKey times) (b.presentationKey times) := by
  simp only [Prod.Lex.compare_def, compareLex, compareOn, presentationKey, ofLex_toLex]
  rw [Resolution.compare_neg, Resolution.compare_neg]
  rfl

/-- **The observations that are shown come before all others.** -/
theorem exists_omitted (times : Times) (es : List Evidence) :
    (ranked times shown es).length = min 10 es.length ∧
      ∃ omitted, (ranked times shown es ++ omitted).Perm es ∧
        (ranked times shown es ++ omitted).Pairwise fun a b =>
          a.presentationKey times ≤ b.presentationKey times := by
  have hranked : ranked times shown es =
      (es.mergeSort fun a b => (presentation times a b).isLE).take 10 := rfl
  refine ⟨by rw [hranked, List.length_take, List.length_mergeSort],
    (es.mergeSort fun a b => (presentation times a b).isLE).drop 10, ?_, ?_⟩
  · rw [hranked, List.take_append_drop]
    exact List.mergeSort_perm ..
  · rw [hranked, List.take_append_drop]
    exact Sequence.pairwise_mergeSort presentation_eq_compare es

end Evidence

/-! ## Groups -/

/-- **What is said of a label is true of its observations**: how sure they make and how many there
are, and that those which are shown come before all that are omitted. -/
structure LabelAccount (times : Times) (items : List Evidence) (confidence : Int) (count : Nat)
    (shown : List Evidence) : Prop where
  confidence_eq : confidence = Confidence.ofEvidence items
  count_eq : count = items.length
  length_shown : shown.length = min 10 count
  ordered : shown.Pairwise fun a b => a.presentationKey times ≤ b.presentationKey times
  exists_omitted : ∃ omitted, (shown ++ omitted).Perm items ∧
    ∀ a ∈ shown, ∀ b ∈ omitted, a.presentationKey times ≤ b.presentationKey times

namespace LabelGroup

theorem labels_all (times : Times) (es : List Evidence) :
    (all times es).map (·.label) = Text.distinct (es.map (·.label)) := by
  rw [all, List.map_map]
  exact List.map_id _

theorem eq_of_mem_all (h : g ∈ all times es) :
    g = ofEvidence times g.label (es.filter fun e => e.label == g.label) := by
  obtain ⟨label, -, rfl⟩ := List.mem_map.1 h
  rfl

theorem evidence_perm (times : Times) (label : String) (es : List Evidence) :
    (ofEvidence times label es).evidence.Perm es :=
  List.mergeSort_perm ..

theorem evidenceCount_ofEvidence (times : Times) (label : String) (es : List Evidence) :
    (ofEvidence times label es).evidenceCount = es.length :=
  (evidence_perm times label es).length_eq

/-- **A group accounts for its observations.** -/
theorem labelAccount (times : Times) (label : String) (es : List Evidence) :
    LabelAccount times es (ofEvidence times label es).confidence
      (ofEvidence times label es).evidenceCount
      (Evidence.ranked times Evidence.shown (ofEvidence times label es).evidence) := by
  obtain ⟨hlength, omitted, hperm, hordered⟩ :=
    Evidence.exists_omitted times (ofEvidence times label es).evidence
  obtain ⟨hshown, -, hbefore⟩ := List.pairwise_append.1 hordered
  constructor
  · rfl
  · exact evidenceCount_ofEvidence times label es
  · exact hlength
  · exact hshown
  · exact ⟨omitted, hperm.trans (evidence_perm times label es), hbefore⟩

theorem distinct_perm_dedup (xs : List String) : (Text.distinct xs).Perm xs.dedup := by
  refine (List.perm_ext_iff_of_nodup (Text.nodup_distinct xs) xs.nodup_dedup).2 fun x => ?_
  rw [Text.mem_distinct, List.mem_dedup]

theorem fileCount_eq_card (times : Times) (label : String) (es : List Evidence) :
    (ofEvidence times label es).fileCount = (es.map (·.file)).toFinset.card := by
  rw [List.card_toFinset]
  exact (distinct_perm_dedup _).length_eq

/-- **The groups hold all observations.** -/
theorem sum_evidenceCount_all (times : Times) (es : List Evidence) :
    ((all times es).map evidenceCount).sum = es.length := by
  have hcount : evidenceCount ∘ (fun label =>
      ofEvidence times label (es.filter fun e => e.label == label)) =
        fun label => (es.map (·.label)).count label := by
    funext label
    rw [Function.comp, evidenceCount_ofEvidence, List.count, List.countP_map,
      List.countP_eq_length_filter]
    rfl
  rw [all, List.map_map, hcount, ((distinct_perm_dedup _).map _).sum_eq,
    List.sum_map_count_dedup_eq_length, List.length_map]

end LabelGroup

/-! ## Verdicts -/

namespace Verdict

/-- **A verdict on some evidence tells a decision** between its groups. -/
theorem exists_decision (times : Times) (category facet : String) (h : es ≠ []) :
    ∃ r c f, ofEvidence times category facet es = ofResolution times c f r ∧
      resolve? Resolution.contention (LabelGroup.all times es) = some r ∧
        Resolution.Chosen (Resolution.ranked (LabelGroup.all times es)) r.winner r.rejected := by
  obtain ⟨first, rest, rfl⟩ := List.exists_cons_of_ne_nil h
  have hall : LabelGroup.all times (first :: rest) ≠ [] := by
    intro hnil
    have hlabel : first.label ∈ (LabelGroup.all times (first :: rest)).map (·.label) := by
      rw [LabelGroup.labels_all, Text.mem_distinct]
      exact List.mem_cons_self
    rw [hnil] at hlabel
    cases hlabel
  obtain ⟨r, hr, hchosen⟩ := Resolution.exists_chosen Resolution.contention hall
  refine ⟨r, if category = "" then first.category else category,
    if facet = "" then first.facet else facet, ?_, hr, hchosen⟩
  rw [ofEvidence, hr]
  rfl

/-- **There is a verdict on some evidence**, for one of its groups. -/
theorem exists_resolution (times : Times) (category facet : String) (h : es ≠ []) :
    ∃ r c f, ofEvidence times category facet es = ofResolution times c f r ∧
      (r.winner :: r.rejected).Perm (LabelGroup.all times es) := by
  obtain ⟨r, c, f, hverdict, -, hchosen⟩ := exists_decision times category facet h
  exact ⟨r, c, f, hverdict, hchosen.perm.trans (Resolution.ranked_perm _)⟩

/-- **A verdict accounts for all evidence**: each label is named once, as the winner or among those
rejected, the numbers of observations add up, and what is said of a label is true of its
observations. -/
structure AccountsFor (times : Times) (es : List Evidence) (v : Verdict) : Prop where
  nodup_labels : (v.label :: v.rejected.map (·.label)).Nodup
  mem_labels_iff : ∀ label, label ∈ v.label :: v.rejected.map (·.label) ↔ ∃ e ∈ es, e.label = label
  sum_evidenceCount : v.evidenceCount + (v.rejected.map (·.evidenceCount)).sum = es.length
  winner : LabelAccount times (es.filter fun e => e.label == v.label) v.confidence v.evidenceCount
    v.evidence
  rejected : ∀ r ∈ v.rejected, LabelAccount times (es.filter fun e => e.label == r.label)
    r.confidence r.evidenceCount r.evidence
  fileCount_rejected : ∀ r ∈ v.rejected,
    r.fileCount = ((es.filter fun e => e.label == r.label).map (·.file)).toFinset.card

theorem accountsFor_ofResolution {r : Resolution} (category facet : String)
    (h : (r.winner :: r.rejected).Perm (LabelGroup.all times es)) :
    (ofResolution times category facet r).AccountsFor times es := by
  have hlabels : ((ofResolution times category facet r).label ::
      (ofResolution times category facet r).rejected.map (·.label)).Perm
        (Text.distinct (es.map (·.label))) := by
    rw [← LabelGroup.labels_all times, ofResolution, List.map_map]
    exact h.map (·.label)
  have hgroup {g : LabelGroup} (hg : g ∈ r.winner :: r.rejected) :=
    LabelGroup.eq_of_mem_all (h.mem_iff.1 hg)
  constructor
  · exact hlabels.nodup_iff.2 (Text.nodup_distinct _)
  · intro label
    rw [hlabels.mem_iff, Text.mem_distinct, List.mem_map]
  · rw [← LabelGroup.sum_evidenceCount_all times es, ← (h.map _).sum_eq]
    simp [ofResolution, Function.comp_def, rejection]
  · have hwinner := hgroup List.mem_cons_self
    simp only [ofResolution]
    rw [hwinner]
    exact LabelGroup.labelAccount ..
  · intro rejected hrejected
    obtain ⟨g, hg, rfl⟩ := List.mem_map.1 hrejected
    have hg := hgroup (List.mem_cons_of_mem _ hg)
    simp only [rejection]
    rw [hg]
    exact LabelGroup.labelAccount ..
  · intro rejected hrejected
    obtain ⟨g, hg, rfl⟩ := List.mem_map.1 hrejected
    have hg := hgroup (List.mem_cons_of_mem _ hg)
    simp only [rejection]
    rw [hg]
    exact LabelGroup.fileCount_eq_card ..

/-- **The verdict on some evidence accounts for all of it.** -/
theorem ofEvidence_accountsFor (times : Times) (category facet : String) (es : List Evidence)
    (hne : es ≠ []) : (ofEvidence times category facet es).AccountsFor times es := by
  obtain ⟨r, c, f, hverdict, hperm⟩ := exists_resolution times category facet hne
  rw [hverdict]
  exact accountsFor_ofResolution c f hperm

/-- Two labels, and an observation that is there twice. -/
theorem ofEvidence_accountsFor_twice :
    let cookie : Evidence :=
      ⟨"authentication", "token_location", "cookie", "req.cookies.t", "a.js", 3, .binary .one,
        "read"⟩
    let session : Evidence := { cookie with label := "session", file := "b.js" }
    let es := [cookie, session, cookie]
    es ≠ [] ∧ (ofEvidence (fun _ => .zero) "" "" es).AccountsFor (fun _ => .zero) es :=
  ⟨by simp, ofEvidence_accountsFor _ _ _ _ (by simp)⟩

end Verdict
end Conventions
