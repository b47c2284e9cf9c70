import Conventions.Proofs.Verdict.Independence
import Conventions.Proofs.Verdict.Labels

/-!
# Proofs/Verdict/Inert — labels that do not contend are inert

If some group contends, those that do not come after those that do in the ranking, and the decision is
the one between the others alone (`resolve?_contenders`). So observations of labels that do not contend
can be put in anywhere (`ofEvidence_extended`): they make the groups of the others no different, and
their own labels are rejected, after all others.

A label has to stay weak: the strengths of the files of a label are added up in the order in which the
files are met, and an observation that is put in may change that order.
-/

namespace Conventions

namespace Resolution

variable {threshold : Int} {first : LabelGroup} {strong weak groups groups' : List LabelGroup}

/-! ## Decisions -/

theorem picks_append {α : Type} (xs ys : List α) : picks (xs ++ ys) =
    ((picks xs).map fun (x, others) => (x, others ++ ys)) ++
      (picks ys).map fun (y, others) => (y, xs ++ others) := by
  induction xs with
  | nil => exact (List.map_id' _).symm
  | cons x xs ih =>
    simp only [List.cons_append, picks, ih, List.map_append, List.map_cons, List.map_map]
    rfl

theorem filter_contends_append (hweak : ∀ g ∈ weak, contends threshold g = false)
    (strong : List LabelGroup) :
    (strong ++ weak).filter (contends threshold) = strong.filter (contends threshold) := by
  have hnone : weak.filter (contends threshold) = [] :=
    List.filter_eq_nil_iff.2 fun g hg => by simp [hweak g hg]
  rw [List.filter_append, hnone, List.append_nil]

/-- **Groups that do not contend are not newest**, nor do they keep others from being so. -/
theorem newest?_append (hweak : ∀ g ∈ weak, contends threshold g = false)
    (strong : List LabelGroup) : newest? threshold (strong ++ weak) =
      (newest? threshold strong).map fun (g, others) => (g, others ++ weak) := by
  have hnone : ((picks weak).map fun (g, others) => (g, strong ++ others)).find?
      (fun (g, others) => contends threshold g && isNewest threshold g others) = none := by
    refine List.find?_eq_none.2 fun pick hpick => ?_
    obtain ⟨⟨g, others⟩, hmem, rfl⟩ := List.mem_map.1 hpick
    have hg : g ∈ weak := (chosen_of_mem_picks hmem).perm.mem_iff.1 List.mem_cons_self
    simp [hweak g hg]
  rw [newest?, picks_append, List.find?_append, hnone, Option.or_none, List.find?_map, newest?]
  simp only [Function.comp_def, isNewest, filter_contends_append hweak]

/-- **A decision for which some group contends** is the one without those that do not, which are
rejected after the others. -/
theorem ofRanked_append (hfirst : contends threshold first = true)
    (hweak : ∀ g ∈ weak, contends threshold g = false) :
    ofRanked threshold first (strong ++ weak) =
      { ofRanked threshold first strong with
        rejected := (ofRanked threshold first strong).rejected ++ weak } := by
  have hnewest := newest?_append hweak (first :: strong)
  rw [List.cons_append] at hnewest
  simp only [ofRanked, filter_contends_append hweak, hnewest, hfirst, Bool.true_and]
  cases strong with
  | nil => cases weak <;> rfl
  | cons second others =>
    simp only [List.cons_append]
    split
    · rfl
    split
    · cases newest? threshold (first :: second :: others) <;> rfl
    · rfl

/-- **The decision between some groups** is the one between those that contend, if there are any; the
others are rejected after these. -/
theorem resolve?_contenders (hlabels : (groups.map (·.label)).Nodup)
    (hne : contenders threshold groups ≠ []) :
    ∃ r, resolve? threshold (contenders threshold groups) = some r ∧
      resolve? threshold groups = some { r with
        rejected := r.rejected ++ (ranked groups).filter (!contends threshold ·) } := by
  have hsorted : ((ranked groups).filter (contends threshold) ++
      (ranked groups).filter fun g => !contends threshold g) = ranked groups :=
    Sequence.filter_append_filter_not
      ((pairwise_ranked hlabels).imp fun hab hb => contends_of_key_le hab.le hb)
  have hcontenders : ranked (contenders threshold groups) =
      (ranked groups).filter (contends threshold) :=
    (Sequence.filter_mergeSort_of_nodup ranking_eq_compare (nodup_keys hlabels) _).symm
  obtain ⟨first, strong, hranked⟩ := exists_ranked hne
  have hfirst : contends threshold first = true :=
    List.of_mem_filter ((hcontenders ▸ hranked) ▸ List.mem_cons_self)
  rw [← hcontenders, hranked, List.cons_append] at hsorted
  refine ⟨_, resolve?_of_ranked hranked, ?_⟩
  rw [resolve?_of_ranked hsorted.symm, ofRanked_append hfirst]
  exact fun g hg => by simpa using List.of_mem_filter hg

theorem resolve?_eq_of_perm (hlabels : (groups.map (·.label)).Nodup) (h : groups.Perm groups') :
    resolve? threshold groups = resolve? threshold groups' := by
  rw [resolve?_eq_ranked, resolve?_eq_ranked, ranked_eq_of_perm hlabels h]

end Resolution

/-! ## Observations of labels that do not contend -/

variable {times : Times} {es es' : List Evidence} {label : String}

namespace Evidence

/-- **Is a label weak**, before and after observations are put in? -/
def StaysWeak (es es' : List Evidence) (label : String) : Prop :=
  ¬ Contends es label ∧ ¬ Contends es' label

theorem filter_extended (h : Sequence.Extends (fun e => StaysWeak es es' e.label) es es')
    (hlabel : Contends es label ∨ Contends es' label) :
    (es'.filter fun e => e.label == label) = es.filter fun e => e.label == label := by
  refine h.filter_eq fun e he => beq_eq_false_iff_ne.2 ?_
  rintro rfl
  exact hlabel.elim he.1 he.2

theorem contends_extended_iff (h : Sequence.Extends (fun e => StaysWeak es es' e.label) es es') :
    Contends es' label ↔ Contends es label := by
  constructor
  · intro hlabel
    rwa [Contends, ← filter_extended h (.inr hlabel)]
  · intro hlabel
    rwa [Contends, filter_extended h (.inl hlabel)]

/-- A label may be weak only after an observation is put in: one of no strength that comes first has the
strengths of the files added up in another order, to a smaller sum. -/
example :
    let inFile (file : String) (strength : Quantity) : Evidence :=
      { (default : Evidence) with label := "cookie", file := file, strength := strength }
    let es := [inFile "a.js" (.binary (.finite false (6942327968555357 * 2 ^ 1018))),
      inFile "b.js" (.binary (.finite false (5358383294779463 * 2 ^ 1016))),
      inFile "c.js" (.binary (.finite false (111673980509677 * 2 ^ 1025)))]
    Contends es "cookie" ∧ ¬ Contends (inFile "c.js" (.whole 0) :: es) "cookie" := by
  decide +kernel

end Evidence

namespace LabelGroup

open Evidence Resolution

/-- The groups that do not contend, in the order of their ranking. -/
def weak (times : Times) (es : List Evidence) : List LabelGroup :=
  (ranked (all times es)).filter (!contends contention ·)

theorem exists_mem_weak_iff :
    (∃ g ∈ weak times es, g.label = label) ↔ (∃ e ∈ es, e.label = label) ∧ ¬ Contends es label := by
  have hmem {g : LabelGroup} : g ∈ weak times es ↔
      (∃ e ∈ es, ofLabel times es e.label = g) ∧ ¬ contends contention g = true := by
    rw [weak, List.mem_filter, (ranked_perm _).mem_iff, mem_all_iff]
    simp
  constructor
  · rintro ⟨g, hg, rfl⟩
    obtain ⟨⟨e, he, rfl⟩, hweak⟩ := hmem.1 hg
    exact ⟨⟨e, he, rfl⟩, mt contends_ofLabel.2 hweak⟩
  · rintro ⟨⟨e, he, rfl⟩, hweak⟩
    exact ⟨_, hmem.2 ⟨⟨e, he, rfl⟩, mt contends_ofLabel.1 hweak⟩, rfl⟩

/-- **The groups that contend** are no different with observations of labels that stay weak. -/
theorem contenders_extended (h : Sequence.Extends (fun e => StaysWeak es es' e.label) es es') :
    (contenders contention (all times es)).Perm (contenders contention (all times es')) := by
  have hnodup (es : List Evidence) : (contenders contention (all times es)).Nodup :=
    (nodup_labels_all times es).of_map.filter _
  refine (List.perm_ext_iff_of_nodup (hnodup es) (hnodup es')).2 fun g => ?_
  rw [mem_contenders_iff, mem_contenders_iff]
  refine exists_congr fun label => ?_
  rw [contends_extended_iff h]
  refine and_congr_right fun hlabel => ?_
  rw [ofLabel, ofLabel, filter_extended h (.inl hlabel)]

end LabelGroup

/-- Is a rejected label one that contends? -/
def RejectedLabel.contends (r : RejectedLabel) : Bool := Resolution.contention ≤ r.confidence

namespace Verdict

open Evidence LabelGroup Resolution

/-- **A verdict that some label contends for** tells the decision between those that do, and rejects the
others after them. -/
theorem exists_contenders_decision (times : Times) (category facet : String)
    (h : ∃ label, Contends es label) :
    ∃ r c f, resolve? contention (contenders contention (all times es)) = some r ∧
      ofEvidence times category facet es =
        ofResolution times c f { r with rejected := r.rejected ++ weak times es } := by
  obtain ⟨label, hlabel⟩ := h
  obtain ⟨e, he, -⟩ := hlabel.exists_mem
  obtain ⟨r, c, f, hverdict, hr, -⟩ :=
    exists_decision times category facet (List.ne_nil_of_mem he)
  obtain ⟨r', hr', heq⟩ := resolve?_contenders (nodup_labels_all times es)
    (mt contenders_eq_nil_iff.1 fun hnone => hnone label hlabel)
  cases hr.symm.trans heq
  exact ⟨r', c, f, hr', hverdict⟩

/-- **Verdicts that differ in labels that do not contend alone**: all that is said of the winner and of
the rejected labels that contend is the same. -/
structure SameOfContenders (v v' : Verdict) : Prop where
  label_eq : v'.label = v.label
  confidence_eq : v'.confidence = v.confidence
  evidence_eq : v'.evidence = v.evidence
  evidenceCount_eq : v'.evidenceCount = v.evidenceCount
  rule_eq : v'.rule = v.rule
  conflict_eq : v'.conflict = v.conflict
  rejected_eq : v'.rejected.filter RejectedLabel.contends = v.rejected.filter RejectedLabel.contends

/-- **The labels that do not contend are rejected**, after all that do. -/
def RejectsWeakLast (es : List Evidence) (v : Verdict) : Prop :=
  ∃ weak, v.rejected = v.rejected.filter RejectedLabel.contends ++ weak ∧
    ∀ label, label ∈ weak.map (·.label) ↔ (∃ e ∈ es, e.label = label) ∧ ¬ Contends es label

theorem filter_contends_rejected {r : Resolution}
    (h : resolve? contention (contenders contention (all times es)) = some r) :
    ((r.rejected ++ weak times es).map (rejection times)).filter RejectedLabel.contends =
      r.rejected.map (rejection times) := by
  have hall : ∀ g ∈ r.rejected.map (rejection times), g.contends = true := by
    refine List.forall_mem_map.2 fun g hg => ?_
    exact (List.mem_filter.1 (mem_of_resolve? h (List.mem_cons_of_mem _ hg))).2
  have hnone : ∀ g ∈ (weak times es).map (rejection times), ¬ g.contends = true := by
    refine List.forall_mem_map.2 fun g hg => ?_
    have hg : contends contention g = false := by simpa using (List.mem_filter.1 hg).2
    exact Bool.eq_false_iff.1 hg
  rw [List.map_append, List.filter_append, List.filter_eq_self.2 hall,
    List.filter_eq_nil_iff.2 hnone, List.append_nil]

/-- **Weak labels are inert**: where some label contends, observations of labels that are weak and stay
so can be put in at any places. All that the verdict says of the winner and of the rejected labels that
contend is the same, and those that do not contend are rejected after them. -/
theorem ofEvidence_extended (times : Times) (category facet : String) {es es' : List Evidence}
    (hcontends : ∃ label, Contends es label)
    (h : Sequence.Extends (fun e => StaysWeak es es' e.label) es es') :
    SameOfContenders (ofEvidence times category facet es) (ofEvidence times category facet es') ∧
      RejectsWeakLast es' (ofEvidence times category facet es') := by
  have hcontends' : ∃ label, Contends es' label :=
    hcontends.imp fun label => (contends_extended_iff h).2
  obtain ⟨r, c, f, hr, hverdict⟩ := exists_contenders_decision times category facet hcontends
  obtain ⟨r', c', f', hr', hverdict'⟩ := exists_contenders_decision times category facet hcontends'
  have hsame : r' = r := by
    have hlabels : ((contenders contention (all times es)).map (·.label)).Nodup :=
      (nodup_labels_all times es).sublist (List.filter_sublist.map _)
    rw [resolve?_eq_of_perm hlabels (contenders_extended h), hr'] at hr
    exact Option.some.inj hr
  subst hsame
  have hrejected := filter_contends_rejected hr
  have hrejected' := filter_contends_rejected hr'
  rw [hverdict, hverdict']
  constructor
  · exact ⟨rfl, rfl, rfl, rfl, rfl, rfl, hrejected'.trans hrejected.symm⟩
  · refine ⟨(weak times es').map (rejection times), ?_, fun label => ?_⟩
    · rw [ofResolution, hrejected', List.map_append]
    · rw [List.map_map, List.mem_map]
      exact exists_mem_weak_iff

/-- One more observation of a weak label, put in first, and one of a new weak label. -/
theorem ofEvidence_extended_of_weak :
    let cookie : Evidence :=
      { (default : Evidence) with label := "cookie", file := "a.js", strength := .whole 1 }
    let session : Evidence := { cookie with label := "session", file := "b.js" }
    let query : Evidence := { cookie with label := "query-param", file := "c.js", strength := .whole 0 }
    let header : Evidence := { query with label := "header", file := "b.js" }
    let es := [cookie, session, query]
    let es' := [query, cookie, header, session, query]
    (∃ label, Contends es label) ∧
      Sequence.Extends (fun e => StaysWeak es es' e.label) es es' ∧
        SameOfContenders (ofEvidence (fun _ => .zero) "" "" es)
          (ofEvidence (fun _ => .zero) "" "" es') ∧
          RejectsWeakLast es' (ofEvidence (fun _ => .zero) "" "" es') := by
  intro cookie session query header es es'
  have hcontends : ∃ label, Contends es label := ⟨"cookie", by decide +kernel⟩
  have hquery : StaysWeak es es' query.label := ⟨by decide +kernel, by decide +kernel⟩
  have hheader : StaysWeak es es' header.label := ⟨by decide +kernel, by decide +kernel⟩
  have hextends : Sequence.Extends (fun e => StaysWeak es es' e.label) es es' :=
    .insert hquery (.keep cookie (.insert hheader (.keep session (.keep query .nil))))
  exact ⟨hcontends, hextends, ofEvidence_extended _ "" "" hcontends hextends⟩

end Verdict
end Conventions
