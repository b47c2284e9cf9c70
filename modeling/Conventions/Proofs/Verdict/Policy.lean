import Conventions.Proofs.Verdict.Ranking

/-!
# Proofs/Verdict/Policy — which group wins, and what is said to have decided

`Policy` states how groups are decided between: whether they conflict, who may win, and when each
rule is named. `resolve?_policy` says that decisions between groups with different labels are made
that way.

The rule is read off the first two groups of the ranking alone. It holds of all groups that the
ranking decides between since none of the others comes before the second (`rankedBy_pool`).
-/

namespace Conventions

/-! ## The greatest of some times -/

namespace Binary64

theorem isNaN_max {x y : Binary64} (hx : x.isNaN = false) (hy : y.isNaN = false) :
    (max x y).isNaN = false := by
  unfold max
  split <;> assumption

theorem lt_iff {x y : Binary64} (hx : x.isNaN = false) (hy : y.isNaN = false) :
    lt x y = true ↔ x.key < y.key := by
  simp [lt, hx, hy]

theorem max_lt_iff {x y z : Binary64} (hx : x.isNaN = false) (hy : y.isNaN = false)
    (hz : z.isNaN = false) : lt (max x y) z = true ↔ lt x z = true ∧ lt y z = true := by
  unfold max
  rw [lt_iff hx hz, lt_iff hy hz]
  split
  case isTrue h =>
    rw [lt_iff hx hy] at h
    rw [lt_iff hy hz]
    omega
  case isFalse h =>
    rw [lt_iff hx hy] at h
    rw [lt_iff hx hz]
    omega

end Binary64

namespace LabelGroup

open Binary64 (lt)

theorem foldl_max_lt_iff {x z : Binary64} {xs : List Binary64} (hx : x.isNaN = false)
    (hxs : ∀ y ∈ xs, y.isNaN = false) (hz : z.isNaN = false) :
    lt (xs.foldl .max x) z = true ↔ lt x z = true ∧ ∀ y ∈ xs, lt y z = true := by
  induction xs generalizing x with
  | nil => simp
  | cons y ys ih =>
    obtain ⟨hy, hys⟩ := List.forall_mem_cons.1 hxs
    rw [List.foldl_cons, ih (Binary64.isNaN_max hx hy) hys, Binary64.max_lt_iff hx hy hz,
      List.forall_mem_cons, and_assoc]

/-- **The greatest of some numbers is less than another** exactly if all of them are. -/
theorem greatest_lt_iff {z : Binary64} {xs : List Binary64} (hne : xs ≠ [])
    (hxs : ∀ y ∈ xs, y.isNaN = false) (hz : z.isNaN = false) :
    lt (greatest xs) z = true ↔ ∀ y ∈ xs, lt y z = true := by
  obtain ⟨x, rest, rfl⟩ := List.exists_cons_of_ne_nil hne
  obtain ⟨hx, hrest⟩ := List.forall_mem_cons.1 hxs
  rw [greatest, foldl_max_lt_iff hx hrest hz, List.forall_mem_cons]

end LabelGroup

namespace Resolution

open LabelGroup (key)

/-! ## What the policy speaks of -/

/-- The groups that contend. -/
def contenders (threshold : Int) (groups : List LabelGroup) : List LabelGroup :=
  groups.filter (contends threshold)

/-- **The groups that the ranking decides between**: those that contend, or all if none does. -/
def pool (threshold : Int) (groups : List LabelGroup) : List LabelGroup :=
  if contenders threshold groups = [] then groups else contenders threshold groups

/-- **A contender whose files are all newer** than every file of every other contender. -/
structure IsMostRecent (threshold : Int) (groups : List LabelGroup) (g : LabelGroup) : Prop where
  contends : g ∈ contenders threshold groups
  newer : ∀ other ∈ contenders threshold groups, other ≠ g →
    Binary64.lt other.newest g.oldest = true

/-- A group that is surer than all others. -/
def IsSurest (groups : List LabelGroup) (g : LabelGroup) : Prop :=
  ∀ other ∈ groups, other ≠ g → other.confidence < g.confidence

/-- A group that shares its confidence with others, but has more observations than each of them. -/
def IsMostObserved (groups : List LabelGroup) (g : LabelGroup) : Prop :=
  (∃ other ∈ groups, other ≠ g ∧ other.confidence = g.confidence) ∧
    ∀ other ∈ groups, other ≠ g → other.confidence = g.confidence →
      other.evidenceCount < g.evidenceCount

/-- **What puts a group before the others.** -/
structure RankedBy (groups : List LabelGroup) (g : LabelGroup) (rule : ResolutionRule) : Prop where
  highestConfidence_iff : rule = .highestConfidence ↔ IsSurest groups g
  evidenceCount_iff : rule = .evidenceCount ↔ IsMostObserved groups g
  firstSeen_iff : rule = .firstSeen ↔ ¬ IsSurest groups g ∧ ¬ IsMostObserved groups g

/-- **How groups are decided between.** -/
structure Policy (threshold : Int) (groups : List LabelGroup) (r : Resolution) : Prop where
  /-- Groups conflict if two or more contend. -/
  conflict_iff : r.conflict = true ↔ 2 ≤ (contenders threshold groups).length
  /-- A contender wins if there is one. -/
  winner_contends : contenders threshold groups ≠ [] → r.winner ∈ contenders threshold groups
  /-- There is one group, or one contender. -/
  singleLabel_iff : r.rule = .singleLabel ↔
    groups.length = 1 ∨ (contenders threshold groups).length = 1
  /-- There is a conflict, and a contender is newer than all others. -/
  mostRecent_iff : r.rule = .mostRecent ↔
    r.conflict = true ∧ ∃ g, IsMostRecent threshold groups g
  /-- Then such a contender wins. -/
  mostRecent_wins : r.rule = .mostRecent → IsMostRecent threshold groups r.winner
  /-- Otherwise the first in the ranking wins. -/
  first_wins : r.rule ≠ .mostRecent →
    r.winner ∈ pool threshold groups ∧ ∀ g ∈ pool threshold groups, key r.winner ≤ key g
  /-- And the rule says what puts it before the others, if there are any. -/
  ranked : r.rule ≠ .singleLabel → r.rule ≠ .mostRecent →
    RankedBy (pool threshold groups) r.winner r.rule

variable {threshold : Int} {first second g : LabelGroup}
  {rest others groups groups' : List LabelGroup} {r : Resolution}

/-! ## The order of the groups has no part in it -/

theorem contenders_perm (threshold : Int) (h : groups.Perm groups') :
    (contenders threshold groups).Perm (contenders threshold groups') :=
  h.filter _

theorem pool_perm (threshold : Int) (h : groups.Perm groups') :
    (pool threshold groups).Perm (pool threshold groups') := by
  have hcontenders := contenders_perm threshold h
  have hnil : contenders threshold groups = [] ↔ contenders threshold groups' = [] :=
    ⟨fun hnil => (hnil ▸ hcontenders).nil_eq.symm, fun hnil => (hnil ▸ hcontenders).eq_nil⟩
  rw [pool, pool]
  split
  case isTrue he => rwa [if_pos (hnil.1 he)]
  case isFalse he => rwa [if_neg (he ∘ hnil.2)]

theorem isMostRecent_of_perm (h : groups.Perm groups') :
    IsMostRecent threshold groups g ↔ IsMostRecent threshold groups' g := by
  have hmem {x : LabelGroup} := (contenders_perm threshold h).mem_iff (a := x)
  constructor
  · rintro ⟨hcontends, hnewer⟩
    exact ⟨hmem.1 hcontends, fun other hother => hnewer other (hmem.2 hother)⟩
  · rintro ⟨hcontends, hnewer⟩
    exact ⟨hmem.2 hcontends, fun other hother => hnewer other (hmem.1 hother)⟩

theorem isSurest_of_perm (h : groups.Perm groups') : IsSurest groups g ↔ IsSurest groups' g := by
  simp only [IsSurest, h.mem_iff]

theorem isMostObserved_of_perm (h : groups.Perm groups') :
    IsMostObserved groups g ↔ IsMostObserved groups' g := by
  simp only [IsMostObserved, h.mem_iff]

theorem Policy.of_perm (hr : Policy threshold groups r) (h : groups.Perm groups') :
    Policy threshold groups' r := by
  have hcontenders := contenders_perm threshold h
  have hpool := pool_perm threshold h
  constructor
  · rw [hr.conflict_iff, hcontenders.length_eq]
  · intro hne
    refine hcontenders.mem_iff.1 (hr.winner_contends fun hnil => hne ?_)
    exact (hnil ▸ hcontenders).nil_eq.symm
  · rw [hr.singleLabel_iff, h.length_eq, hcontenders.length_eq]
  · rw [hr.mostRecent_iff]
    exact and_congr_right fun _ => exists_congr fun g => isMostRecent_of_perm h
  · exact fun hrule => (isMostRecent_of_perm h).1 (hr.mostRecent_wins hrule)
  · intro hrule
    obtain ⟨hmem, hleast⟩ := hr.first_wins hrule
    exact ⟨hpool.mem_iff.1 hmem, fun g hg => hleast g (hpool.mem_iff.2 hg)⟩
  · intro hsingle hrecent
    obtain ⟨hconfidence, hcount, hseen⟩ := hr.ranked hsingle hrecent
    constructor
    all_goals simpa only [← isSurest_of_perm hpool, ← isMostObserved_of_perm hpool]

/-! ## The newest contender -/

/-- **A contender has rivals** among the others, if two or more contend. -/
theorem rivals_ne_nil (htwo : 2 ≤ (contenders threshold groups).length)
    (h : Chosen groups g others) (hg : contends threshold g = true) :
    others.filter (contends threshold) ≠ [] := by
  intro hnil
  have hlength := (contenders_perm threshold h.perm).length_eq
  rw [contenders, List.filter_cons_of_pos hg, hnil] at hlength
  exact absurd (hlength ▸ htwo) (by simp)

section

variable (hgroups : groups.Nodup)
  (htimes : ∀ g ∈ groups, g.newest.isNaN = false ∧ g.oldest.isNaN = false)
  (htwo : 2 ≤ (contenders threshold groups).length)

include hgroups htimes htwo

/-- **Compared with the rivals that are left when it is taken out**, a contender is newest just if
it is the most recent one. -/
theorem isNewest_iff (h : Chosen groups g others) :
    (contends threshold g && isNewest threshold g others) = true ↔
      IsMostRecent threshold groups g := by
  have hmem : g ∈ groups := h.perm.mem_iff.1 List.mem_cons_self
  have hrivals {other : LabelGroup} : other ∈ others.filter (contends threshold) ↔
      other ∈ contenders threshold groups ∧ other ≠ g := by
    rw [contenders, List.mem_filter, List.mem_filter, h.mem_others_iff hgroups, and_right_comm]
  have hnewest (hg : contends threshold g = true) : isNewest threshold g others = true ↔
      ∀ other ∈ others.filter (contends threshold),
        Binary64.lt other.newest g.oldest = true := by
    have hne : (others.filter (contends threshold)).map (·.newest) ≠ [] :=
      mt List.map_eq_nil_iff.1 (rivals_ne_nil htwo h hg)
    rw [isNewest, LabelGroup.greatest_lt_iff hne ?_ (htimes g hmem).2, List.forall_mem_map]
    exact List.forall_mem_map.2 fun other hother =>
      (htimes other (List.mem_of_mem_filter (hrivals.1 hother).1)).1
  rw [Bool.and_eq_true]
  constructor
  · rintro ⟨hg, hnew⟩
    exact ⟨List.mem_filter.2 ⟨hmem, hg⟩,
      fun other hother hne => (hnewest hg).1 hnew other (hrivals.2 ⟨hother, hne⟩)⟩
  · rintro ⟨hcontender, hnewer⟩
    have hg := (List.mem_filter.1 hcontender).2
    exact ⟨hg, (hnewest hg).2 fun other hother =>
      hnewer other (hrivals.1 hother).1 (hrivals.1 hother).2⟩

theorem isMostRecent_of_newest? (h : newest? threshold groups = some (g, others)) :
    IsMostRecent threshold groups g := by
  rw [newest?] at h
  have hfound := List.find?_some h
  exact (isNewest_iff hgroups htimes htwo (chosen_of_mem_picks (List.mem_of_find?_eq_some h))).1
    hfound

theorem not_isMostRecent_of_newest? (h : newest? threshold groups = none) :
    ¬ IsMostRecent threshold groups g := by
  intro hg
  obtain ⟨others, hmem⟩ := exists_mem_picks (List.mem_of_mem_filter hg.contends)
  refine List.find?_eq_none.1 h _ hmem ?_
  exact (isNewest_iff hgroups htimes htwo (chosen_of_mem_picks hmem)).2 hg

end

/-! ## The ranking -/

/-- A group that comes first in the ranking is surer, or as sure with at least as many
observations. -/
theorem le_of_key_le {a b : LabelGroup} (h : a.key ≤ b.key) : b.confidence < a.confidence ∨
    b.confidence = a.confidence ∧ b.evidenceCount ≤ a.evidenceCount := by
  simp only [key, Prod.Lex.toLex_le_toLex] at h
  omega

theorem contends_of_key_le {a b : LabelGroup} (h : a.key ≤ b.key)
    (hb : contends threshold b = true) : contends threshold a = true := by
  have hle := le_of_key_le h
  simp only [contends, decide_eq_true_eq] at hb ⊢
  omega

/-- **The rule read off two groups is true of all**, if the others come after them. -/
theorem rankedBy_rankingRule (hsecond : second ∈ groups) (hne : second ≠ first)
    (hle : first.key ≤ second.key) (hothers : ∀ g ∈ groups, g ≠ first → second.key ≤ g.key) :
    RankedBy groups first (rankingRule first second) := by
  have hfirst := le_of_key_le hle
  unfold rankingRule
  by_cases hconfidence : first.confidence = second.confidence
  · have hsurest : ¬ IsSurest groups first := by
      intro h
      have := h second hsecond hne
      omega
    by_cases hcount : first.evidenceCount = second.evidenceCount
    · have hobserved : ¬ IsMostObserved groups first := by
        rintro ⟨-, h⟩
        have := h second hsecond hne hconfidence.symm
        omega
      constructor <;> simp [hconfidence, hcount, hsurest, hobserved]
    · have hobserved : IsMostObserved groups first := by
        refine ⟨⟨second, hsecond, hne, hconfidence.symm⟩, fun g hg hgne hgconfidence => ?_⟩
        have := le_of_key_le (hothers g hg hgne)
        omega
      constructor <;> simp [hconfidence, hcount, hsurest, hobserved]
  · have hless {g : LabelGroup} (hg : g ∈ groups) (hgne : g ≠ first) :
        g.confidence < first.confidence := by
      have := le_of_key_le (hothers g hg hgne)
      omega
    have hsurest : IsSurest groups first := fun g hg hgne => hless hg hgne
    have hobserved : ¬ IsMostObserved groups first := by
      rintro ⟨⟨g, hg, hgne, hgconfidence⟩, -⟩
      have := hless hg hgne
      omega
    constructor <;> simp [hconfidence, hsurest, hobserved]

theorem rankingRule_ne (a b : LabelGroup) :
    rankingRule a b ≠ .singleLabel ∧ rankingRule a b ≠ .mostRecent := by
  unfold rankingRule
  split
  · exact ⟨by decide, by decide⟩
  split <;> exact ⟨by decide, by decide⟩

/-! ## Groups in the order of their ranking -/

section

variable (hsorted : (first :: rest).Pairwise fun a b => a.key < b.key)

include hsorted

theorem first_key_le (hg : g ∈ first :: rest) : first.key ≤ g.key := by
  obtain rfl | hg := List.mem_cons.1 hg
  · exact le_rfl
  · exact ((List.pairwise_cons.1 hsorted).1 g hg).le

theorem contends_first (hg : g ∈ contenders threshold (first :: rest)) :
    contends threshold first = true := by
  obtain ⟨hmem, hcontends⟩ := List.mem_filter.1 hg
  exact contends_of_key_le (first_key_le hsorted hmem) hcontends

theorem contenders_eq_nil (h : ¬ contends threshold first = true) :
    contenders threshold (first :: rest) = [] :=
  List.eq_nil_iff_forall_not_mem.2 fun _ hg => h (contends_first hsorted hg)

theorem conflict_iff_two (threshold : Int) :
    (contends threshold first && !(rest.filter (contends threshold)).isEmpty) = true ↔
      2 ≤ (contenders threshold (first :: rest)).length := by
  by_cases h : contends threshold first = true
  · rw [contenders, List.filter_cons_of_pos h, h]
    cases rest.filter (contends threshold) <;> simp
  · rw [contenders_eq_nil hsorted h]
    simp [h]

/-- The first in the ranking is the first of those that the ranking decides between. -/
theorem first_mem_pool : first ∈ pool threshold (first :: rest) := by
  rw [pool]
  split
  case isTrue => exact List.mem_cons_self
  case isFalse h =>
    obtain ⟨g, hg⟩ := List.exists_mem_of_ne_nil _ h
    exact List.mem_filter.2 ⟨List.mem_cons_self, contends_first hsorted hg⟩

end

theorem mem_of_mem_pool (hg : g ∈ pool threshold groups) : g ∈ groups := by
  rw [pool] at hg
  split at hg
  · exact hg
  · exact List.mem_of_mem_filter hg

/-- **A decision for the first in the ranking** follows the policy if no contender is newer than all
others, and if the rule is the right one. -/
theorem policy_of_first (hsorted : (first :: rest).Pairwise fun a b => a.key < b.key)
    (hwinner : r.winner = first)
    (hconflict : r.conflict = true ↔ 2 ≤ (contenders threshold (first :: rest)).length)
    (hrecent : r.rule ≠ .mostRecent)
    (hnone : r.conflict = true → ∀ g, ¬ IsMostRecent threshold (first :: rest) g)
    (hsingle : r.rule = .singleLabel ↔ (first :: rest).length = 1 ∨
      (contenders threshold (first :: rest)).length = 1)
    (hranked : r.rule ≠ .singleLabel → RankedBy (pool threshold (first :: rest)) first r.rule) :
    Policy threshold (first :: rest) r where
  conflict_iff := hconflict
  winner_contends hne := by
    obtain ⟨g, hg⟩ := List.exists_mem_of_ne_nil _ hne
    rw [hwinner]
    exact List.mem_filter.2 ⟨List.mem_cons_self, contends_first hsorted hg⟩
  singleLabel_iff := hsingle
  mostRecent_iff := by
    refine ⟨fun h => absurd h hrecent, ?_⟩
    rintro ⟨h, g, hg⟩
    exact absurd hg (hnone h g)
  mostRecent_wins h := absurd h hrecent
  first_wins _ := by
    rw [hwinner]
    exact ⟨first_mem_pool hsorted, fun g hg => first_key_le hsorted (mem_of_mem_pool hg)⟩
  ranked h _ := by
    rw [hwinner]
    exact hranked h

section

variable (hsorted : (first :: second :: others).Pairwise fun a b => a.key < b.key)
  (h : ¬ (contends threshold first &&
    ((second :: others).filter (contends threshold)).isEmpty) = true)

include hsorted h

/-- Two groups, if they are not a single contender with others that do not contend. -/
theorem not_single : ¬ ((first :: second :: others).length = 1 ∨
    (contenders threshold (first :: second :: others)).length = 1) := by
  by_cases hfirst : contends threshold first = true
  · rw [hfirst, Bool.true_and, List.isEmpty_iff] at h
    rw [contenders, List.filter_cons_of_pos hfirst]
    simp [h]
  · rw [contenders_eq_nil hsorted hfirst]
    simp

/-- **The second of two groups has a part in the decision**, so the rule read off the two is true of
all that the ranking decides between. -/
theorem rankedBy_pool : RankedBy (pool threshold (first :: second :: others)) first
    (rankingRule first second) := by
  have htail := (List.pairwise_cons.1 hsorted).2
  have hsecond : second ∈ pool threshold (first :: second :: others) := by
    rw [pool]
    split
    case isTrue => exact List.mem_cons_of_mem _ List.mem_cons_self
    case isFalse hne =>
      obtain ⟨g, hg⟩ := List.exists_mem_of_ne_nil _ hne
      rw [contends_first hsorted hg, Bool.true_and, List.isEmpty_iff] at h
      obtain ⟨rival, hrival⟩ := List.exists_mem_of_ne_nil _ h
      exact List.mem_filter.2 ⟨List.mem_cons_of_mem _ List.mem_cons_self,
        contends_first htail hrival⟩
  have hlt := (List.pairwise_cons.1 hsorted).1 second List.mem_cons_self
  refine rankedBy_rankingRule hsecond (fun heq => hlt.ne (heq ▸ rfl)) hlt.le fun g hg hne => ?_
  exact first_key_le htail ((List.mem_cons.1 (mem_of_mem_pool hg)).resolve_left hne)

end

/-- **A decision on ranked groups follows the policy.** -/
theorem policy_ofRanked (hsorted : (first :: rest).Pairwise fun a b => a.key < b.key)
    (htimes : ∀ g ∈ first :: rest, g.newest.isNaN = false ∧ g.oldest.isNaN = false) :
    Policy threshold (first :: rest) (ofRanked threshold first rest) := by
  have hnodup : (first :: rest).Nodup := hsorted.imp fun hab => ne_of_apply_ne LabelGroup.key hab.ne
  have hconflict := conflict_iff_two hsorted threshold
  cases rest with
  | nil =>
    refine policy_of_first hsorted rfl hconflict (by simp [ofRanked]) (fun h => ?_)
      (by simp [ofRanked]) fun h => absurd rfl h
    simp [ofRanked] at h
  | cons second others =>
    simp only [ofRanked]
    split
    case isTrue h =>
      -- the first group is the only contender
      rw [Bool.and_eq_true] at h
      have hone : contenders threshold (first :: second :: others) = [first] := by
        rw [contenders, List.filter_cons_of_pos h.1, List.isEmpty_iff.1 h.2]
      refine policy_of_first hsorted rfl hconflict (by simp) (fun hc => ?_) (by simp [hone])
        fun hs => absurd rfl hs
      rw [hconflict, hone] at hc
      exact absurd hc (by simp)
    case isFalse h =>
      have hsingle := not_single hsorted h
      have hranked := rankedBy_pool hsorted h
      obtain ⟨hrule_single, hrule_recent⟩ := rankingRule_ne first second
      split
      case isTrue hc =>
        have htwo := hconflict.1 hc
        cases hnewest : newest? threshold (first :: second :: others) with
        | some pick =>
          have hrecent := isMostRecent_of_newest? hnodup htimes htwo hnewest
          constructor
          · exact hconflict
          · exact fun _ => hrecent.contends
          · exact iff_of_false (by simp) hsingle
          · exact iff_of_true rfl ⟨hc, pick.1, hrecent⟩
          · exact fun _ => hrecent
          · exact fun h => absurd rfl h
          · exact fun _ h => absurd rfl h
        | none =>
          exact policy_of_first hsorted rfl hconflict hrule_recent
            (fun _ g => not_isMostRecent_of_newest? hnodup htimes htwo hnewest)
            (iff_of_false hrule_single hsingle) fun _ => hranked
      case isFalse hc =>
        exact policy_of_first hsorted rfl hconflict hrule_recent (fun h => absurd h hc)
          (iff_of_false hrule_single hsingle) fun _ => hranked

/-! ## Decisions -/

theorem Policy.of_resolve? (hlabels : (groups.map (·.label)).Nodup)
    (htimes : ∀ g ∈ groups, g.newest.isNaN = false ∧ g.oldest.isNaN = false)
    (h : resolve? threshold groups = some r) : Policy threshold groups r := by
  obtain ⟨first, rest, hranked⟩ := exists_ranked (ne_nil_of_resolve? h)
  have hperm := hranked ▸ ranked_perm groups
  have hsorted := hranked ▸ pairwise_ranked hlabels
  cases (resolve?_of_ranked hranked).symm.trans h
  exact (policy_ofRanked hsorted fun g hg => htimes g (hperm.mem_iff.1 hg)).of_perm hperm

/-- **Groups are decided between as the policy says**, if their labels are different and their times
are numbers. -/
theorem resolve?_policy (threshold : Int) (groups : List LabelGroup) (hne : groups ≠ [])
    (hlabels : (groups.map (·.label)).Nodup)
    (htimes : ∀ g ∈ groups, g.newest.isNaN = false ∧ g.oldest.isNaN = false) :
    ∃ r, resolve? threshold groups = some r ∧ Policy threshold groups r := by
  obtain ⟨first, rest, hranked⟩ := exists_ranked hne
  have hperm := hranked ▸ ranked_perm groups
  have hsorted := hranked ▸ pairwise_ranked hlabels
  refine ⟨_, resolve?_of_ranked hranked, (policy_ofRanked hsorted fun g hg => ?_).of_perm hperm⟩
  exact htimes g (hperm.mem_iff.1 hg)

/-- Two groups that share their confidence and number of observations, and a newer one below the
threshold. -/
theorem resolve?_policy_of_tie :
    let groups : List LabelGroup :=
      [⟨"session", [default], 40, 1, .finite false 7, .finite false 5, "b.js"⟩,
        ⟨"cookie", [default], 40, 1, .finite false 6, .finite false 5, "a.js"⟩,
        ⟨"query-param", [default], 5, 1, .finite false 9, .finite false 8, "c.js"⟩]
    groups ≠ [] ∧ (groups.map (·.label)).Nodup ∧
      (∀ g ∈ groups, g.newest.isNaN = false ∧ g.oldest.isNaN = false) ∧
        ∃ r, resolve? 15 groups = some r ∧ Policy 15 groups r :=
  ⟨by decide, by decide, by decide, resolve?_policy 15 _ (by decide) (by decide) (by decide)⟩

end Resolution
end Conventions
