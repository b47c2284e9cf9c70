import Conventions.Proofs.Verdict.Account
import Conventions.Proofs.Verdict.Policy

/-!
# Proofs/Verdict/Labels — a decision between groups, told of labels and files

Each label among some observations has one group, which contends just if the label does
(`mem_contenders_iff`). The times of a group are bounds of those of its files, so a group is newer than
another one just if each of its files is newer than each file of the other (`newest_lt_oldest_iff`).
What the policy says of groups is therefore said of labels and files (`isDecided_ofEvidence`).
-/

namespace Conventions

variable {times : Times} {es : List Evidence} {label a b : String} {g : LabelGroup}

/-! ## The least of some times -/

namespace Binary64

theorem lt_asymm {x y : Binary64} (h : lt x y = true) : lt y x = false := by
  simp only [lt, Bool.and_eq_true, decide_eq_true_eq] at h ⊢
  simp [h.2.le]

theorem max_eq_or (x y : Binary64) : max x y = x ∨ max x y = y := by
  unfold max
  split
  · exact .inr rfl
  · exact .inl rfl

theorem min_eq_or (x y : Binary64) : min x y = x ∨ min x y = y := by
  unfold min
  split
  · exact .inr rfl
  · exact .inl rfl

theorem lt_min_iff {x y z : Binary64} (hx : x.isNaN = false) (hy : y.isNaN = false)
    (hz : z.isNaN = false) : lt z (min x y) = true ↔ lt z x = true ∧ lt z y = true := by
  unfold min
  rw [lt_iff hz hx, lt_iff hz hy]
  split
  case isTrue h =>
    rw [lt_iff hy hx] at h
    rw [lt_iff hz hy]
    omega
  case isFalse h =>
    rw [lt_iff hy hx] at h
    rw [lt_iff hz hx]
    omega

end Binary64

namespace LabelGroup

open Binary64 (lt)

/-- Choosing one of two numbers again and again leaves one of those that were there. -/
theorem foldl_mem {op : Binary64 → Binary64 → Binary64} (hop : ∀ x y, op x y = x ∨ op x y = y)
    (x : Binary64) (xs : List Binary64) : xs.foldl op x ∈ x :: xs := by
  induction xs generalizing x with
  | nil => exact List.mem_cons_self
  | cons y ys ih =>
    rw [List.foldl_cons]
    obtain h | h := List.mem_cons.1 (ih (op x y))
    · rw [h]
      obtain h | h := hop x y <;> simp [h]
    · exact List.mem_cons_of_mem _ (List.mem_cons_of_mem _ h)

theorem greatest_mem {xs : List Binary64} (h : xs ≠ []) : greatest xs ∈ xs := by
  obtain ⟨x, rest, rfl⟩ := List.exists_cons_of_ne_nil h
  exact foldl_mem Binary64.max_eq_or x rest

theorem least_mem {xs : List Binary64} (h : xs ≠ []) : least xs ∈ xs := by
  obtain ⟨x, rest, rfl⟩ := List.exists_cons_of_ne_nil h
  exact foldl_mem Binary64.min_eq_or x rest

theorem lt_foldl_min_iff {x z : Binary64} {xs : List Binary64} (hx : x.isNaN = false)
    (hxs : ∀ y ∈ xs, y.isNaN = false) (hz : z.isNaN = false) :
    lt z (xs.foldl .min x) = true ↔ lt z x = true ∧ ∀ y ∈ xs, lt z y = true := by
  induction xs generalizing x with
  | nil => simp
  | cons y ys ih =>
    obtain ⟨hy, hys⟩ := List.forall_mem_cons.1 hxs
    have hmin : (Binary64.min x y).isNaN = false := by
      obtain h | h := Binary64.min_eq_or x y <;> rwa [h]
    rw [List.foldl_cons, ih hmin hys, Binary64.lt_min_iff hx hy hz, List.forall_mem_cons, and_assoc]

/-- **A number is less than the least of some others** exactly if it is less than all of them. -/
theorem lt_least_iff {z : Binary64} {xs : List Binary64} (hne : xs ≠ [])
    (hxs : ∀ y ∈ xs, y.isNaN = false) (hz : z.isNaN = false) :
    lt z (least xs) = true ↔ ∀ y ∈ xs, lt z y = true := by
  obtain ⟨x, rest, rfl⟩ := List.exists_cons_of_ne_nil hne
  obtain ⟨hx, hrest⟩ := List.forall_mem_cons.1 hxs
  rw [least, lt_foldl_min_iff hx hrest hz, List.forall_mem_cons]

/-! ## The group of a label -/

/-- The group of a label. -/
def ofLabel (times : Times) (es : List Evidence) (label : String) : LabelGroup :=
  ofEvidence times label (es.filter fun e => e.label == label)

/-- When the files of a label were written. -/
def fileTimes (times : Times) (es : List Evidence) (label : String) : List Binary64 :=
  (Text.distinct ((es.filter fun e => e.label == label).map (·.file))).map times

theorem mem_all_iff : g ∈ all times es ↔ ∃ e ∈ es, ofLabel times es e.label = g := by
  rw [all, List.mem_map]
  constructor
  · rintro ⟨label, hlabel, rfl⟩
    obtain ⟨e, he, rfl⟩ := List.mem_map.1 (Text.mem_distinct.1 hlabel)
    exact ⟨e, he, rfl⟩
  · rintro ⟨e, he, rfl⟩
    exact ⟨e.label, Text.mem_distinct.2 (List.mem_map_of_mem he), rfl⟩

theorem nodup_labels_all (times : Times) (es : List Evidence) :
    ((all times es).map (·.label)).Nodup := by
  rw [labels_all]
  exact Text.nodup_distinct _

theorem ofLabel_injective : Function.Injective (ofLabel times es) :=
  fun _ _ h => congrArg LabelGroup.label h

theorem forall_mem_fileTimes {p : Binary64 → Prop} :
    (∀ x ∈ fileTimes times es label, p x) ↔ ∀ e ∈ es, e.label = label → p (times e.file) := by
  rw [fileTimes, List.forall_mem_map]
  simp only [Text.mem_distinct]
  rw [List.forall_mem_map]
  simp

theorem fileTimes_ne_nil (times : Times) (h : ∃ e ∈ es, e.label = label) :
    fileTimes times es label ≠ [] := by
  obtain ⟨e, he, hlabel⟩ := h
  intro hnil
  have hall : ∀ x ∈ fileTimes times es label, False := by simp [hnil]
  exact forall_mem_fileTimes.1 hall e he hlabel

section

variable (hes : ∀ e ∈ es, (times e.file).isNaN = false) (hlabel : ∃ e ∈ es, e.label = label)

include hes hlabel

/-- The times of a group are numbers if those of its files are. -/
theorem isNaN_times : (ofLabel times es label).newest.isNaN = false ∧
    (ofLabel times es label).oldest.isNaN = false := by
  have hne := fileTimes_ne_nil times hlabel
  have hnumbers : ∀ x ∈ fileTimes times es label, x.isNaN = false :=
    forall_mem_fileTimes.2 fun e he _ => hes e he
  exact ⟨hnumbers _ (greatest_mem hne), hnumbers _ (least_mem hne)⟩

theorem newest_lt_iff {z : Binary64} (hz : z.isNaN = false) :
    lt (ofLabel times es label).newest z = true ↔
      ∀ e ∈ es, e.label = label → lt (times e.file) z = true :=
  (greatest_lt_iff (fileTimes_ne_nil times hlabel) (forall_mem_fileTimes.2 fun e he _ => hes e he)
    hz).trans forall_mem_fileTimes

theorem lt_oldest_iff {z : Binary64} (hz : z.isNaN = false) :
    lt z (ofLabel times es label).oldest = true ↔
      ∀ e ∈ es, e.label = label → lt z (times e.file) = true :=
  (lt_least_iff (fileTimes_ne_nil times hlabel) (forall_mem_fileTimes.2 fun e he _ => hes e he)
    hz).trans forall_mem_fileTimes

end

/-- **A group is newer than another one** just if each of its files is newer than each file of the
other. -/
theorem newest_lt_oldest_iff (hes : ∀ e ∈ es, (times e.file).isNaN = false)
    (ha : ∃ e ∈ es, e.label = a) (hb : ∃ e ∈ es, e.label = b) :
    lt (ofLabel times es b).newest (ofLabel times es a).oldest = true ↔
      ∀ x ∈ es, x.label = a → ∀ y ∈ es, y.label = b → lt (times y.file) (times x.file) = true := by
  rw [lt_oldest_iff hes ha (isNaN_times hes hb).1]
  exact forall₂_congr fun x hx => forall_congr' fun _ => newest_lt_iff hes hb (hes x hx)

end LabelGroup

/-! ## Labels that contend -/

namespace Evidence

/-- **Does a label contend?** It does if its observations make sure enough. -/
def Contends (es : List Evidence) (label : String) : Prop :=
  Resolution.contention ≤ (Confidence.ofEvidence (es.filter fun e => e.label == label) : Int)

instance : Decidable (Contends es label) := inferInstanceAs (Decidable (_ ≤ _))

/-- **Is a label newest?** It contends, and each of its files is newer than each file of any other
label that does. -/
structure IsNewest (times : Times) (es : List Evidence) (label : String) : Prop where
  contends : Contends es label
  newer : ∀ x ∈ es, x.label = label → ∀ y ∈ es, y.label ≠ label → Contends es y.label →
    Binary64.lt (times y.file) (times x.file) = true

instance : Decidable (IsNewest times es label) :=
  decidable_of_iff (Contends es label ∧ ∀ x ∈ es, x.label = label → ∀ y ∈ es, y.label ≠ label →
    Contends es y.label → Binary64.lt (times y.file) (times x.file) = true)
    ⟨fun h => ⟨h.1, h.2⟩, fun h => ⟨h.contends, h.newer⟩⟩

/-- Do two labels contend? -/
def Conflict (es : List Evidence) : Prop := ∃ a b, a ≠ b ∧ Contends es a ∧ Contends es b

theorem Contends.exists_mem (h : Contends es label) : ∃ e ∈ es, e.label = label := by
  have hne : (es.filter fun e => e.label == label) ≠ [] := by
    intro hnil
    rw [Contends, hnil] at h
    exact absurd h (by decide)
  obtain ⟨e, he⟩ := List.exists_mem_of_ne_nil _ hne
  exact ⟨e, List.mem_of_mem_filter he, by simpa using List.of_mem_filter he⟩

/-- **One label is newest** at most. -/
theorem IsNewest.unique (ha : IsNewest times es a) (hb : IsNewest times es b) : a = b := by
  by_contra hne
  obtain ⟨x, hx, hxa⟩ := ha.contends.exists_mem
  obtain ⟨y, hy, hyb⟩ := hb.contends.exists_mem
  have hyx := ha.newer x hx hxa y hy (hyb.trans_ne (Ne.symm hne)) (hyb ▸ hb.contends)
  have hxy := hb.newer y hy hyb x hx (hxa.trans_ne hne) (hxa ▸ ha.contends)
  rw [Binary64.lt_asymm hyx] at hxy
  cases hxy

end Evidence

namespace Resolution

open Evidence LabelGroup

theorem contends_ofLabel : contends contention (ofLabel times es label) = true ↔
    Contends es label := decide_eq_true_iff

/-- **The groups that contend** are those of the labels that do. -/
theorem mem_contenders_iff : g ∈ contenders contention (all times es) ↔
    ∃ label, Contends es label ∧ ofLabel times es label = g := by
  rw [contenders, List.mem_filter, mem_all_iff]
  constructor
  · rintro ⟨⟨e, -, rfl⟩, h⟩
    exact ⟨e.label, contends_ofLabel.1 h, rfl⟩
  · rintro ⟨label, h, rfl⟩
    obtain ⟨e, he, rfl⟩ := h.exists_mem
    exact ⟨⟨e, he, rfl⟩, contends_ofLabel.2 h⟩

theorem ofLabel_mem_contenders_iff :
    ofLabel times es label ∈ contenders contention (all times es) ↔ Contends es label := by
  rw [mem_contenders_iff]
  constructor
  · rintro ⟨label', h, heq⟩
    exact ofLabel_injective heq ▸ h
  · exact fun h => ⟨label, h, rfl⟩

theorem contenders_eq_nil_iff :
    contenders contention (all times es) = [] ↔ ∀ label, ¬ Contends es label := by
  rw [List.eq_nil_iff_forall_not_mem]
  constructor
  · exact fun h label hlabel => h _ (ofLabel_mem_contenders_iff.2 hlabel)
  · intro h g hg
    obtain ⟨label, hlabel, -⟩ := mem_contenders_iff.1 hg
    exact h label hlabel

/-- **Groups conflict** just if labels do. -/
theorem two_le_contenders_iff :
    2 ≤ (contenders contention (all times es)).length ↔ Conflict es := by
  constructor
  · intro h
    have hlabels := (nodup_labels_all times es).sublist
      ((List.filter_sublist (p := contends contention)).map (·.label))
    obtain ⟨g, g', rest, heq⟩ : ∃ g g' rest, contenders contention (all times es) =
        g :: g' :: rest := by
      match contenders contention (all times es), h with
      | g :: g' :: rest, _ => exact ⟨g, g', rest, rfl⟩
    obtain ⟨a, ha, rfl⟩ := mem_contenders_iff.1 (heq ▸ List.mem_cons_self)
    obtain ⟨b, hb, rfl⟩ := mem_contenders_iff.1
      (heq ▸ List.mem_cons_of_mem _ List.mem_cons_self)
    rw [contenders] at heq
    rw [heq] at hlabels
    exact ⟨a, b, fun hab => by simp [hab] at hlabels, ha, hb⟩
  · rintro ⟨a, b, hne, ha, hb⟩
    have hpair : [ofLabel times es a, ofLabel times es b].Subperm
        (contenders contention (all times es)) :=
      List.subperm_of_subset (by simpa using ofLabel_injective.ne hne)
        (by simp [ofLabel_mem_contenders_iff, ha, hb])
    exact hpair.length_le

/-- **The most recent group** is that of the newest label. -/
theorem isMostRecent_ofLabel_iff (hes : ∀ e ∈ es, (times e.file).isNaN = false) :
    IsMostRecent contention (all times es) (ofLabel times es label) ↔
      IsNewest times es label := by
  constructor
  · rintro ⟨hcontends, hnewer⟩
    have hlabel := ofLabel_mem_contenders_iff.1 hcontends
    refine ⟨hlabel, fun x hx hxlabel y hy hne hycontends => ?_⟩
    have hlt := hnewer _ (ofLabel_mem_contenders_iff.2 hycontends) (ofLabel_injective.ne hne)
    rw [newest_lt_oldest_iff hes hlabel.exists_mem ⟨y, hy, rfl⟩] at hlt
    exact hlt x hx hxlabel y hy rfl
  · rintro ⟨hlabel, hnewer⟩
    refine ⟨ofLabel_mem_contenders_iff.2 hlabel, fun other hother hne => ?_⟩
    obtain ⟨b, hb, rfl⟩ := mem_contenders_iff.1 hother
    rw [newest_lt_oldest_iff hes hlabel.exists_mem hb.exists_mem]
    intro x hx hxlabel y hy hyb
    exact hnewer x hx hxlabel y hy (fun heq => hne (congrArg _ (hyb.symm.trans heq))) (hyb ▸ hb)

end Resolution

/-! ## The label that is decided on -/

namespace Verdict

open Evidence LabelGroup

/-- **How the label of a verdict is decided on.** -/
structure IsDecided (times : Times) (es : List Evidence) (v : Verdict) : Prop where
  exists_mem : ∃ e ∈ es, e.label = v.label
  confidence_eq : v.confidence = Confidence.ofEvidence (es.filter fun e => e.label == v.label)
  /-- It contends if any label does. -/
  contends : ∀ label, Contends es label → Contends es v.label
  mostRecent_iff : v.rule = .mostRecent ↔ Conflict es ∧ ∃ label, IsNewest times es label
  isNewest : v.rule = .mostRecent → IsNewest times es v.label
  /-- Otherwise it is first in the ranking, among those that contend if it does. -/
  first : v.rule ≠ .mostRecent → ∀ e ∈ es, (Contends es v.label → Contends es e.label) →
    (ofLabel times es v.label).key ≤ (ofLabel times es e.label).key

theorem isDecided_ofEvidence (category facet : String) (hne : es ≠ [])
    (hes : ∀ e ∈ es, (times e.file).isNaN = false) :
    (ofEvidence times category facet es).IsDecided times es := by
  obtain ⟨r, c, f, hverdict, hr, hchosen⟩ := exists_decision times category facet hne
  have htimes : ∀ g ∈ all times es, g.newest.isNaN = false ∧ g.oldest.isNaN = false := by
    intro g hg
    obtain ⟨e, he, rfl⟩ := mem_all_iff.1 hg
    exact isNaN_times hes ⟨e, he, rfl⟩
  have hpolicy := Resolution.Policy.of_resolve? (nodup_labels_all times es) htimes hr
  have hmem : r.winner ∈ all times es :=
    (Resolution.ranked_perm _).mem_iff.1 (hchosen.perm.mem_iff.1 List.mem_cons_self)
  obtain ⟨w, hw, hwinner⟩ := mem_all_iff.1 hmem
  have hrecent {label : String} : Resolution.IsMostRecent Resolution.contention (all times es)
      (ofLabel times es label) ↔ IsNewest times es label :=
    Resolution.isMostRecent_ofLabel_iff hes
  rw [hverdict, ofResolution, ← hwinner]
  constructor
  case exists_mem => exact ⟨w, hw, rfl⟩
  case confidence_eq => rfl
  case contends =>
    intro label hlabel
    have hwins := hpolicy.winner_contends fun hnil =>
      Resolution.contenders_eq_nil_iff.1 hnil label hlabel
    exact Resolution.ofLabel_mem_contenders_iff.1 (hwinner ▸ hwins)
  case mostRecent_iff =>
    rw [hpolicy.mostRecent_iff, hpolicy.conflict_iff, Resolution.two_le_contenders_iff]
    refine and_congr_right fun _ => ⟨?_, ?_⟩
    · rintro ⟨g, hg⟩
      obtain ⟨label, -, rfl⟩ := Resolution.mem_contenders_iff.1 hg.contends
      exact ⟨label, hrecent.1 hg⟩
    · rintro ⟨label, hlabel⟩
      exact ⟨_, hrecent.2 hlabel⟩
  case isNewest =>
    intro hrule
    exact hrecent.1 (hwinner ▸ hpolicy.mostRecent_wins hrule)
  case first =>
    intro hrule e he hcontends
    obtain ⟨hpool, hleast⟩ := hpolicy.first_wins hrule
    rw [← hwinner] at hpool hleast
    refine hleast _ ?_
    rw [Resolution.pool] at hpool ⊢
    split
    case isTrue => exact mem_all_iff.2 ⟨e, he, rfl⟩
    case isFalse h =>
      rw [if_neg h] at hpool
      exact Resolution.ofLabel_mem_contenders_iff.2
        (hcontends (Resolution.ofLabel_mem_contenders_iff.1 hpool))

end Verdict
end Conventions
