import Conventions.Proofs.Verdict.Independence
import Conventions.Proofs.Verdict.Labels
import Mathlib.Data.List.Find

/-!
# Proofs/Verdict/Retimed — only the order of times counts

A function that increases on some numbers keeps their order (`IncreasingOn.keepsOrder`), so it carries
the greatest and the least of them to the greatest and the least. The groups of retimed files are thus
the groups of the files, retimed (`all_retimed`). A decision compares their times with one another alone
(`ofRanked_retimed`): the time zero, which stands for the newest of no rivals, plays no part, since
recency decides between two contenders or more. And a verdict tells no times (`ofEvidence_retimed`).
-/

namespace Conventions

variable {times times' : Times} {es : List Evidence} {f : Binary64 → Binary64} {xs : List Binary64}

/-! ## Increasing functions -/

namespace Binary64

/-- **A function that increases on some numbers**: it takes lesser ones to lesser ones, and those that
are the same, as the two zeros are, to the same. -/
structure IncreasingOn (f : Binary64 → Binary64) (xs : List Binary64) : Prop where
  lt : ∀ x ∈ xs, ∀ y ∈ xs, lt x y = true → lt (f x) (f y) = true
  same : ∀ x ∈ xs, ∀ y ∈ xs, same x y = true → same (f x) (f y) = true

/-- **A function that keeps the order** of some numbers. -/
def KeepsOrder (f : Binary64 → Binary64) (xs : List Binary64) : Prop :=
  ∀ x ∈ xs, ∀ y ∈ xs, lt (f x) (f y) = lt x y

theorem lt_or_same_or_lt {x y : Binary64} (hx : x.isNaN = false) (hy : y.isNaN = false) :
    lt x y = true ∨ same x y = true ∨ lt y x = true := by
  simp only [lt, same, hx, hy, Bool.not_false, Bool.true_and, decide_eq_true_eq]
  omega

theorem lt_eq_false_of_same {x y : Binary64} (h : same x y = true) :
    lt x y = false ∧ lt y x = false := by
  simp only [same, Bool.and_eq_true, decide_eq_true_eq] at h
  simp [lt, h.2]

/-- **An increasing function keeps the order** of numbers. -/
theorem IncreasingOn.keepsOrder (hf : IncreasingOn f xs) (hxs : ∀ x ∈ xs, x.isNaN = false) :
    KeepsOrder f xs := by
  intro x hx y hy
  obtain h | h | h := lt_or_same_or_lt (hxs x hx) (hxs y hy)
  · rw [h, hf.lt x hx y hy h]
  · rw [(lt_eq_false_of_same h).1, (lt_eq_false_of_same (hf.same x hx y hy h)).1]
  · rw [lt_asymm h, lt_asymm (hf.lt y hy x hx h)]

theorem IncreasingOn.isNaN (hf : IncreasingOn f xs) (hxs : ∀ x ∈ xs, x.isNaN = false) :
    ∀ x ∈ xs, (f x).isNaN = false := by
  intro x hx
  have hsame := hf.same x hx x hx (by simp [Binary64.same, hxs x hx])
  simp only [Binary64.same, Bool.and_eq_true, Bool.not_eq_true'] at hsame
  exact hsame.1.1

theorem KeepsOrder.max_eq (hf : KeepsOrder f xs) {x y : Binary64} (hx : x ∈ xs) (hy : y ∈ xs) :
    max (f x) (f y) = f (max x y) := by
  rw [max, max, hf x hx y hy, apply_ite f]

theorem KeepsOrder.min_eq (hf : KeepsOrder f xs) {x y : Binary64} (hx : x ∈ xs) (hy : y ∈ xs) :
    min (f x) (f y) = f (min x y) := by
  rw [min, min, hf y hy x hx, apply_ite f]

/-- **Numbers are compared by their order alone.** -/
theorem compare_key_eq {x y x' y' : Binary64} (hx : x.isNaN = false) (hy : y.isNaN = false)
    (hx' : x'.isNaN = false) (hy' : y'.isNaN = false) (hlt : lt x' y' = lt x y)
    (hgt : lt y' x' = lt y x) : compare x'.key y'.key = compare x.key y.key := by
  rw [Bool.eq_iff_iff, lt_iff hx' hy', lt_iff hx hy] at hlt
  rw [Bool.eq_iff_iff, lt_iff hy' hx', lt_iff hy hx] at hgt
  simp only [compare, compareOfLessAndEq]
  grind

end Binary64

/-! ## Groups -/

namespace LabelGroup

open Binary64 (KeepsOrder)

theorem foldl_map_eq {op : Binary64 → Binary64 → Binary64} (hop : ∀ x y, op x y = x ∨ op x y = y)
    (hf : ∀ x ∈ xs, ∀ y ∈ xs, op (f x) (f y) = f (op x y)) {x : Binary64} (hx : x ∈ xs)
    {ys : List Binary64} (hys : ys ⊆ xs) : (ys.map f).foldl op (f x) = f (ys.foldl op x) := by
  induction ys generalizing x with
  | nil => rfl
  | cons y ys ih =>
    obtain ⟨hy, hys⟩ := List.cons_subset.1 hys
    have hmem : op x y ∈ xs := by obtain h | h := hop x y <;> rwa [h]
    rw [List.map_cons, List.foldl_cons, List.foldl_cons, hf x hx y hy, ih hmem hys]

/-- **The greatest of some numbers** is carried to the greatest. -/
theorem greatest_map (hf : KeepsOrder f xs) {ys : List Binary64} (hne : ys ≠ [])
    (hys : ys ⊆ xs) : greatest (ys.map f) = f (greatest ys) := by
  obtain ⟨y, ys, rfl⟩ := List.exists_cons_of_ne_nil hne
  obtain ⟨hy, hys⟩ := List.cons_subset.1 hys
  exact foldl_map_eq Binary64.max_eq_or (fun a ha b hb => hf.max_eq ha hb) hy hys

/-- **The least of some numbers** is carried to the least. -/
theorem least_map (hf : KeepsOrder f xs) {ys : List Binary64} (hne : ys ≠ [])
    (hys : ys ⊆ xs) : least (ys.map f) = f (least ys) := by
  obtain ⟨y, ys, rfl⟩ := List.exists_cons_of_ne_nil hne
  obtain ⟨hy, hys⟩ := List.cons_subset.1 hys
  exact foldl_map_eq Binary64.min_eq_or (fun a ha b hb => hf.min_eq ha hb) hy hys

/-- A group with its times carried along. -/
def retimed (f : Binary64 → Binary64) (g : LabelGroup) : LabelGroup :=
  { g with newest := f g.newest, oldest := f g.oldest }

theorem fileTimes_subset (times : Times) (es : List Evidence) (label : String) :
    fileTimes times es label ⊆ es.map fun e => times e.file :=
  forall_mem_fileTimes.2 fun _ he _ => List.mem_map_of_mem he

/-- **The groups of retimed files** are the groups of the files, retimed. -/
theorem all_retimed (htimes : ∀ e ∈ es, times' e.file = f (times e.file))
    (hf : KeepsOrder f (es.map fun e => times e.file)) :
    all times' es = (all times es).map (retimed f) := by
  rw [all, all, List.map_map]
  refine List.map_congr_left fun label hlabel => ?_
  have hmem : ∃ e ∈ es, e.label = label := List.mem_map.1 (Text.mem_distinct.1 hlabel)
  have hne := fileTimes_ne_nil times hmem
  have hsubset := fileTimes_subset times es label
  have hfiles : fileTimes times' es label = (fileTimes times es label).map f := by
    rw [fileTimes, fileTimes, List.map_map]
    refine List.map_congr_left fun file hfile => ?_
    obtain ⟨e, he, rfl⟩ := List.mem_map.1 (Text.mem_distinct.1 hfile)
    exact htimes e (List.mem_of_mem_filter he)
  have hnewest := greatest_map hf hne hsubset
  have holdest := least_map hf hne hsubset
  rw [← hfiles] at hnewest holdest
  rw [fileTimes, fileTimes] at hnewest holdest
  rw [ofEvidence, hnewest, holdest]
  rfl

theorem times_mem_of_mem_all {g : LabelGroup} (h : g ∈ all times es) :
    g.newest ∈ (es.map fun e => times e.file) ∧ g.oldest ∈ es.map fun e => times e.file := by
  obtain ⟨e, he, rfl⟩ := mem_all_iff.1 h
  have hne := fileTimes_ne_nil times ⟨e, he, rfl⟩
  have hsubset := fileTimes_subset times es e.label
  exact ⟨hsubset (greatest_mem hne), hsubset (least_mem hne)⟩

end LabelGroup

/-! ## Decisions -/

namespace Resolution

open Binary64 (KeepsOrder)

variable {threshold : Int} {first g : LabelGroup} {rest others groups : List LabelGroup}

/-- A decision with the times of its groups carried along. -/
def retimed (f : Binary64 → Binary64) (r : Resolution) : Resolution :=
  ⟨r.winner.retimed f, r.rejected.map (LabelGroup.retimed f), r.rule, r.conflict⟩

theorem picks_map {α β : Type} (φ : α → β) (xs : List α) :
    picks (xs.map φ) = (picks xs).map (Prod.map φ (List.map φ)) := by
  induction xs with
  | nil => rfl
  | cons x xs ih =>
    simp only [List.map_cons, picks, ih, List.map_map]
    rfl

theorem filter_contends_map (groups : List LabelGroup) :
    (groups.map (LabelGroup.retimed f)).filter (contends threshold) =
      (groups.filter (contends threshold)).map (LabelGroup.retimed f) :=
  List.filter_map

section

variable (hf : KeepsOrder f xs) (hxs : ∀ g ∈ groups, g.newest ∈ xs ∧ g.oldest ∈ xs)
  (htwo : 2 ≤ (contenders threshold groups).length)

include hf hxs htwo

/-- **A contender is newer than its rivals** by the order of their times alone. -/
theorem isNewest_retimed (h : Chosen groups g others) (hg : contends threshold g = true) :
    isNewest threshold (g.retimed f) (others.map (LabelGroup.retimed f)) =
      isNewest threshold g others := by
  have hmem {other : LabelGroup} (hother : other ∈ g :: others) : other ∈ groups :=
    h.perm.mem_iff.1 hother
  have hrivals : (others.filter (contends threshold)).map (·.newest) ⊆ xs :=
    List.forall_mem_map.2 fun other hother =>
      (hxs other (hmem (List.mem_cons_of_mem _ (List.mem_of_mem_filter hother)))).1
  have hne : (others.filter (contends threshold)).map (·.newest) ≠ [] :=
    mt List.map_eq_nil_iff.1 (rivals_ne_nil htwo h hg)
  have hnewest : ((others.filter (contends threshold)).map (LabelGroup.retimed f)).map (·.newest) =
      ((others.filter (contends threshold)).map (·.newest)).map f := by
    rw [List.map_map, List.map_map]
    rfl
  rw [isNewest, isNewest, filter_contends_map, hnewest, LabelGroup.greatest_map hf hne hrivals]
  exact hf _ (hrivals (LabelGroup.greatest_mem hne)) _ (hxs g (hmem List.mem_cons_self)).2

theorem newest?_retimed : newest? threshold (groups.map (LabelGroup.retimed f)) =
    (newest? threshold groups).map (Prod.map (.retimed f) (List.map (.retimed f))) := by
  rw [newest?, newest?, picks_map, List.find?_map]
  refine congrArg _ (List.find?_congr fun pick hpick => ?_)
  obtain ⟨g, others⟩ := pick
  change (contends threshold g && isNewest threshold (g.retimed f) _) = _
  by_cases hg : contends threshold g = true
  · rw [isNewest_retimed hf hxs htwo (chosen_of_mem_picks hpick) hg]
  · simp [hg]

end

/-- **A decision on ranked groups** asks for the order of their times alone. -/
theorem ofRanked_retimed (hf : KeepsOrder f xs)
    (hxs : ∀ g ∈ first :: rest, g.newest ∈ xs ∧ g.oldest ∈ xs) :
    ofRanked threshold (first.retimed f) (rest.map (LabelGroup.retimed f)) =
      (ofRanked threshold first rest).retimed f := by
  have hcontends : contends threshold (first.retimed f) = contends threshold first := rfl
  cases rest with
  | nil => rfl
  | cons second others =>
    simp only [ofRanked, List.map_cons, hcontends]
    rw [← List.map_cons, ← List.map_cons, filter_contends_map, List.isEmpty_map]
    split
    · rfl
    split
    case isTrue hconflict =>
      rw [Bool.and_eq_true, Bool.not_eq_true', List.isEmpty_eq_false_iff] at hconflict
      have htwo : 2 ≤ (contenders threshold (first :: second :: others)).length := by
        rw [contenders, List.filter_cons_of_pos hconflict.1]
        exact Nat.succ_le_succ (List.length_pos_of_ne_nil hconflict.2)
      rw [newest?_retimed hf hxs htwo]
      cases newest? threshold (first :: second :: others) <;> rfl
    · rfl

theorem resolve?_retimed (hf : KeepsOrder f xs)
    (hxs : ∀ g ∈ groups, g.newest ∈ xs ∧ g.oldest ∈ xs) :
    resolve? threshold (groups.map (LabelGroup.retimed f)) =
      (resolve? threshold groups).map (retimed f) := by
  have hranked : ranked (groups.map (LabelGroup.retimed f)) =
      (ranked groups).map (LabelGroup.retimed f) := by
    rw [ranked, ranked, List.map_mergeSort]
    exact fun _ _ _ _ => rfl
  rw [resolve?_eq_ranked, resolve?_eq_ranked, hranked]
  cases h : ranked groups with
  | nil => rfl
  | cons first rest =>
    have hxs : ∀ g ∈ first :: rest, g.newest ∈ xs ∧ g.oldest ∈ xs := fun g hg =>
      hxs g ((ranked_perm groups).mem_iff.1 (h ▸ hg))
    exact congrArg some (ofRanked_retimed hf hxs)

end Resolution

/-! ## Verdicts -/

namespace Verdict

open Binary64 (IncreasingOn KeepsOrder)

theorem ofResolution_retimed (category facet : String) {r : Resolution}
    (h : ∀ g ∈ r.winner :: r.rejected, Evidence.ranked times' Evidence.shown g.evidence =
      Evidence.ranked times Evidence.shown g.evidence) :
    ofResolution times' category facet (r.retimed f) = ofResolution times category facet r := by
  obtain ⟨hwinner, hrejected⟩ := List.forall_mem_cons.1 h
  have hrejections : (r.rejected.map (LabelGroup.retimed f)).map (rejection times') =
      r.rejected.map (rejection times) := by
    rw [List.map_map]
    refine List.map_congr_left fun g hg => ?_
    rw [Function.comp, rejection, rejection, ← hrejected g hg]
    rfl
  rw [ofResolution, ofResolution, Resolution.retimed, hrejections, ← hwinner]
  rfl

section

variable (hes : ∀ e ∈ es, (times e.file).isNaN = false)
  (hf : IncreasingOn f (es.map fun e => times e.file))
  (htimes : ∀ e ∈ es, times' e.file = f (times e.file))

include hes hf htimes

/-- **What is shown** is in an order that the order of times decides. -/
theorem ranked_retimed (cap : Int) {items : List Evidence} (hitems : items ⊆ es) :
    Evidence.ranked times' cap items = Evidence.ranked times cap items := by
  have hnumbers : ∀ x ∈ es.map (fun e => times e.file), x.isNaN = false := List.forall_mem_map.2 hes
  have hsort : (items.mergeSort fun a b => (Evidence.presentation times' a b).isLE) =
      items.mergeSort fun a b => (Evidence.presentation times a b).isLE := by
    refine Sequence.mergeSort_congr fun a ha b hb => ?_
    have hatime := List.mem_map_of_mem (f := fun e => times e.file) (hitems ha)
    have hbtime := List.mem_map_of_mem (f := fun e => times e.file) (hitems hb)
    rw [Evidence.presentation, Evidence.presentation, htimes a (hitems ha), htimes b (hitems hb),
      Binary64.compare_key_eq (hes b (hitems hb)) (hes a (hitems ha))
        (hf.isNaN hnumbers _ hbtime) (hf.isNaN hnumbers _ hatime)
        (hf.keepsOrder hnumbers _ hbtime _ hatime) (hf.keepsOrder hnumbers _ hatime _ hbtime)]
  rw [Evidence.ranked, Evidence.ranked, hsort]

theorem resolve?_all_retimed : resolve? Resolution.contention (LabelGroup.all times' es) =
    (resolve? Resolution.contention (LabelGroup.all times es)).map (.retimed f) := by
  have horder : KeepsOrder f (es.map fun e => times e.file) :=
    hf.keepsOrder (List.forall_mem_map.2 hes)
  rw [LabelGroup.all_retimed htimes horder]
  exact Resolution.resolve?_retimed horder fun g hg => LabelGroup.times_mem_of_mem_all hg

end

/-- **Only the order of times counts**: the verdict stays the same if the times of all files are carried
along by a function that increases on them. -/
theorem ofEvidence_retimed (times times' : Times) (category facet : String) (es : List Evidence)
    (f : Binary64 → Binary64) (hes : ∀ e ∈ es, (times e.file).isNaN = false)
    (hf : IncreasingOn f (es.map fun e => times e.file))
    (htimes : ∀ e ∈ es, times' e.file = f (times e.file)) :
    ofEvidence times' category facet es = ofEvidence times category facet es := by
  rw [ofEvidence, ofEvidence, resolve?_all_retimed hes hf htimes]
  cases es.head? with
  | none => rfl
  | some first =>
    cases hr : resolve? Resolution.contention (LabelGroup.all times es) with
    | none => rfl
    | some r =>
      refine ofResolution_retimed _ _ fun g hg => ranked_retimed hes hf htimes _ ?_
      exact LabelGroup.evidence_subset (Resolution.mem_of_resolve? hr hg)

/-- All files an hour later, two of which were written at the two zeros. -/
theorem ofEvidence_retimed_of_shift :
    let later (time : Binary64) : Binary64 := time.add (.ofNat 3600)
    let cookie : Evidence :=
      { (default : Evidence) with label := "cookie", file := "a.js", strength := .whole 1 }
    let session : Evidence := { cookie with label := "session", file := "b.js" }
    let header : Evidence := { cookie with label := "header", file := "c.js" }
    let es := [cookie, session, header]
    let times := Times.ofList [("a.js", .finite true 0), ("b.js", .zero), ("c.js", .one)]
    let times' := Times.ofList
      [("a.js", later (.finite true 0)), ("b.js", later .zero), ("c.js", later .one)]
    (∀ e ∈ es, (times e.file).isNaN = false) ∧
      IncreasingOn later (es.map fun e => times e.file) ∧
        (∀ e ∈ es, times' e.file = later (times e.file)) ∧
          ofEvidence times' "" "" es = ofEvidence times "" "" es := by
  intro later cookie session header es times times'
  have hnumbers : ∀ e ∈ es, (times e.file).isNaN = false := by decide +kernel
  have hlater : IncreasingOn later (es.map fun e => times e.file) :=
    ⟨by decide +kernel, by decide +kernel⟩
  have htimes : ∀ e ∈ es, times' e.file = later (times e.file) := by decide +kernel
  exact ⟨hnumbers, hlater, htimes, ofEvidence_retimed times times' "" "" es later hnumbers hlater htimes⟩

end Verdict
end Conventions
