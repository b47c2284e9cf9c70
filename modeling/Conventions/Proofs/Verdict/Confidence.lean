import Conventions.Proofs.Number.Monotone
import Conventions.Verdict.Group
import Mathlib.Data.List.Induction
import Mathlib.Data.List.Nodup
import Mathlib.Data.List.Forall2

/-!
# Proofs/Verdict/Confidence — more evidence never makes less sure

The support of some observations has each file once, with its strongest observation (`Describes`).
One more observation adds a file at its end or raises the strength of one (`add_cases`), so that no
step of the total gets smaller (`sumSteps_le_add`); and what follows the total keeps the order, up to
the last rounding (`hundredths_mono`). `ofEvidence_accumulates` puts it together. A strength that is
not a number raises nothing.
-/

namespace Conventions
namespace Confidence

open Binary64 (unit unit_pos overflow ofSteps roundQuotient divNearest decaySteps sumSteps)

/-! ## The share of full confidence -/

/-- The share of full confidence that a support gives, in hundredths. -/
def hundredths? (total : Binary64) : Option Int :=
  ((Binary64.ofNat 100).mul (Binary64.sub .one (total.divNat 2).decay)).roundToInt?

/-- What a support of some steps leaves open, in steps. -/
def openSteps (n : Nat) : Nat :=
  if n < overflow ∧ roundQuotient n 2 < overflow then decaySteps (roundQuotient n 2) unit else 0

/-- The hundredths of a support of some steps. -/
def hundredths (n : Nat) : Nat :=
  divNearest (roundQuotient (100 * unit * roundQuotient (unit - openSteps n) 1) unit) unit

theorem decay_divNat (n : Nat) :
    ((ofSteps false n).divNat 2).decay = .finite false (openSteps n) := by
  rw [openSteps]
  obtain hn | hn := Nat.lt_or_ge n overflow
  · rw [Binary64.ofSteps_of_lt hn, Binary64.divNat]
    obtain hhalf | hhalf := Nat.lt_or_ge (roundQuotient n 2) overflow
    · rw [Binary64.ofSteps_of_lt hhalf, if_pos ⟨hn, hhalf⟩, Binary64.decay,
        Binary64.decayOf_eq _ unit_pos]
      exact Binary64.ofSteps_of_lt
        ((Binary64.decaySteps_le_unit _ unit_pos).trans_lt Binary64.unit_lt_overflow)
    · rw [Binary64.ofSteps_of_ge hhalf, if_neg fun h => Nat.not_lt.2 hhalf h.2]
      rfl
  · rw [Binary64.ofSteps_of_ge hn, if_neg fun h => Nat.not_lt.2 hn h.1]
    rfl

theorem openSteps_le_unit (n : Nat) : openSteps n ≤ unit := by
  rw [openSteps]
  split
  · exact Binary64.decaySteps_le_unit _ unit_pos
  · exact Nat.zero_le _

theorem openSteps_anti {n m : Nat} (h : n ≤ m) : openSteps m ≤ openSteps n := by
  have hhalf : roundQuotient n 2 ≤ roundQuotient m 2 :=
    Binary64.roundQuotient_mono Nat.two_pos Nat.two_pos (Nat.mul_le_mul_right 2 h)
  rw [openSteps, openSteps]
  split
  case isTrue hm =>
    rw [if_pos ⟨h.trans_lt hm.1, hhalf.trans_lt hm.2⟩]
    exact Binary64.decaySteps_anti unit_pos hhalf
  case isFalse => exact Nat.zero_le _

/-- **What is left of one.** -/
theorem sub_one {k : Nat} (h : k ≤ unit) :
    Binary64.sub .one (.finite false k) = .finite false (roundQuotient (unit - k) 1) := by
  have hkey : (Binary64.finite false unit).key + (Binary64.finite true k).key =
      ((unit - k : Nat) : Int) := by
    rw [Binary64.key, Binary64.key, Int.ofNat_sub h, Int.sub_eq_add_neg]
  have hlt : roundQuotient (unit - k) 1 < overflow :=
    calc roundQuotient (unit - k) 1 ≤ roundQuotient unit 1 :=
          Binary64.roundQuotient_le_of_le (Nat.sub_le ..)
      _ = unit := Binary64.roundQuotient_unit
      _ < overflow := Binary64.unit_lt_overflow
  rw [Binary64.sub, Binary64.neg, Binary64.one, Bool.not_false, Binary64.add, Binary64.ofSigned,
    hkey, Int.natAbs_natCast, decide_eq_false (by omega), Binary64.ofSteps_of_lt hlt]
  split
  case isTrue hzero =>
    rw [Int.natCast_eq_zero.1 hzero, Binary64.roundQuotient_zero]
    rfl
  case isFalse => rfl

/-- **The share of full confidence is a whole number of hundredths.** -/
theorem hundredths?_ofSteps (n : Nat) : hundredths? (ofSteps false n) = some (hundredths n : Int) := by
  have hhundred : Binary64.ofNat 100 = .finite false (100 * unit) := by decide +kernel
  have hmost : roundQuotient (100 * unit * unit) unit < overflow := by decide +kernel
  have hshare : roundQuotient (unit - openSteps n) 1 ≤ unit :=
    (Binary64.roundQuotient_le_of_le (Nat.sub_le ..)).trans_eq Binary64.roundQuotient_unit
  have hlt : roundQuotient (100 * unit * roundQuotient (unit - openSteps n) 1) unit < overflow :=
    (Binary64.roundQuotient_mono unit_pos unit_pos
      (Nat.mul_le_mul_right _ (Nat.mul_le_mul_left _ hshare))).trans_lt hmost
  rw [hundredths?, decay_divNat, sub_one (openSteps_le_unit n), hhundred, Binary64.mul,
    bne_self_eq_false, Binary64.ofSteps_of_lt hlt]
  rfl

theorem hundredths_mono {n m : Nat} (h : n ≤ m) : hundredths n ≤ hundredths m := by
  refine Binary64.divNearest_le_divNearest unit_pos (Binary64.roundQuotient_mono unit_pos unit_pos ?_)
  refine Nat.mul_le_mul_right _ (Nat.mul_le_mul_left _ (Binary64.roundQuotient_le_of_le ?_))
  exact Nat.sub_le_sub_left (openSteps_anti h) unit

theorem saturated_ofSteps (n : Nat) : saturated (ofSteps false n) = min most (hundredths n) := by
  have h := hundredths?_ofSteps n
  rw [hundredths?] at h
  rw [saturated, h, Option.getD_some, Int.toNat_natCast]

/-! ## The strongest observation of a file -/

/-- **The strongest of the observations in a file**, zero if there is none. -/
def strongest (file : String) (es : List Evidence) : Binary64 :=
  ((es.filter fun e => e.file == file).map fun e => clamp e.strength).foldl .max .zero

variable {file : String} {es : List Evidence} {e : Evidence}

theorem strongest_append_singleton : strongest file (es ++ [e]) =
    if e.file = file then .max (strongest file es) (clamp e.strength) else strongest file es := by
  rw [strongest, List.filter_append, List.map_append, List.foldl_append, ← strongest]
  by_cases h : e.file = file <;> simp [h]

theorem strongest_of_forall_ne (h : ∀ e ∈ es, e.file ≠ file) : strongest file es = .zero := by
  have hnil : es.filter (fun e => e.file == file) = [] :=
    List.filter_eq_nil_iff.2 fun e he => by simpa using h e he
  rw [strongest, hnil]
  rfl

theorem key_le_max (x y : Binary64) : x.key ≤ (Binary64.max x y).key := by
  rw [Binary64.max]
  split
  case isTrue h =>
    rw [Binary64.lt, Bool.and_eq_true, decide_eq_true_iff] at h
    exact h.2.le
  case isFalse => exact le_rfl

theorem lt_iff_key {x y : Binary64} :
    Binary64.lt x y = true ↔ x.isNaN = false ∧ y.isNaN = false ∧ x.key < y.key := by
  simp [Binary64.lt, and_assoc]

/-- **A strength that raises another one** is a number, and no greater than one. -/
theorem exists_of_lt_clamp {n : Nat} {strength : Quantity}
    (h : Binary64.lt (.finite false n) (clamp strength) = true) :
    ∃ m, m ≤ unit ∧ clamp strength = .finite false m := by
  rw [clamp, Binary64.min] at h ⊢
  split
  case isTrue => exact ⟨unit, le_rfl, rfl⟩
  case isFalse hle =>
    rw [if_neg hle] at h
    generalize Binary64.max strength.toBinary64 .zero = x at h hle ⊢
    rw [lt_iff_key] at h hle
    obtain ⟨-, hnumber, hlt⟩ := h
    have hone : x.key ≤ unit := Int.not_lt.1 fun hkey => hle ⟨rfl, hnumber, hkey⟩
    have hover := Binary64.unit_lt_overflow
    cases x with
    | nan => cases hnumber
    | infinite negative =>
      cases negative <;> simp only [Binary64.key] at hlt hone <;> omega
    | finite negative m =>
      cases negative with
      | false => exact ⟨m, Int.ofNat_le.1 hone, rfl⟩
      | true =>
        simp only [Binary64.key] at hlt
        omega

/-! ## Support -/

namespace Support

variable {support : Support}

/-- **Some support describes some observations**: it has each file once, with its strongest
observation. -/
structure Describes (support : Support) (es : List Evidence) : Prop where
  nodup : (support.map (·.1)).Nodup
  mem_files_iff : ∀ file, file ∈ support.map (·.1) ↔ ∃ e ∈ es, e.file = file
  eq_strongest : ∀ entry ∈ support, entry.2 = strongest entry.1 es
  /-- Strengths are numbers between zero and one. -/
  bounded : ∀ entry ∈ support, ∃ n ≤ unit, entry.2 = .finite false n

/-- **One more observation** either adds a file at the end or raises the strength of one. -/
theorem add_cases (support : Support) (file : String) (strength : Binary64) :
    ((∀ entry ∈ support, entry.1 ≠ file) ∧
      support.add file strength = support ++ [(file, .max .zero strength)]) ∨
    ∃ front old back, support = front ++ (file, old) :: back ∧ (∀ entry ∈ front, entry.1 ≠ file) ∧
      support.add file strength = front ++ (file, .max old strength) :: back := by
  induction support with
  | nil => exact .inl ⟨by simp, rfl⟩
  | cons entry support ih =>
    by_cases hfile : entry.1 = file
    · obtain ⟨_, old⟩ := entry
      obtain rfl := hfile
      exact .inr ⟨[], old, support, rfl, by simp, by simp [add]⟩
    · rw [add, if_neg hfile]
      obtain ⟨hnew, hadd⟩ | ⟨front, old, back, rfl, hfront, hadd⟩ := ih
      · exact .inl ⟨List.forall_mem_cons.2 ⟨hfile, hnew⟩, by rw [hadd, List.cons_append]⟩
      · exact .inr ⟨entry :: front, old, back, rfl, List.forall_mem_cons.2 ⟨hfile, hfront⟩,
          by rw [hadd, List.cons_append]⟩

theorem ofEvidence_append_singleton (es : List Evidence) (e : Evidence) :
    ofEvidence (es ++ [e]) = (ofEvidence es).add e.file (clamp e.strength) := by
  rw [ofEvidence, List.foldl_append]
  rfl

theorem exists_max_clamp {x : Binary64} (hx : ∃ n ≤ unit, x = .finite false n)
    (strength : Quantity) : ∃ n ≤ unit, Binary64.max x (clamp strength) = .finite false n := by
  obtain ⟨n, hn, rfl⟩ := hx
  rw [Binary64.max]
  split
  case isTrue h =>
    obtain ⟨m, hm, heq⟩ := exists_of_lt_clamp h
    exact ⟨m, hm, heq⟩
  case isFalse => exact ⟨n, hn, rfl⟩

/-- The strongest observation of another file is the same with one more observation. -/
theorem Describes.eq_strongest_append (h : support.Describes es) (e : Evidence)
    {entry : String × Binary64} (hentry : entry ∈ support) (hne : entry.1 ≠ e.file) :
    entry.2 = strongest entry.1 (es ++ [e]) := by
  rw [strongest_append_singleton, if_neg hne.symm, h.eq_strongest entry hentry]

theorem Describes.mem_files_append_iff (h : support.Describes es) (e : Evidence) (file : String) :
    (∃ e' ∈ es ++ [e], e'.file = file) ↔ file ∈ support.map (·.1) ∨ file = e.file := by
  rw [h.mem_files_iff]
  simp [or_and_right, exists_or, eq_comm]

/-- **An observation in a new file** is described by one more entry. -/
theorem Describes.append (h : support.Describes es) (hnew : ∀ entry ∈ support, entry.1 ≠ e.file) :
    Describes (support ++ [(e.file, .max .zero (clamp e.strength))]) (es ++ [e]) := by
  have hnotMem : e.file ∉ support.map (·.1) := fun hmem => by
    obtain ⟨entry, hentry, heq⟩ := List.mem_map.1 hmem
    exact hnew entry hentry heq
  have hzero : strongest e.file es = .zero := strongest_of_forall_ne fun e' he' heq =>
    hnotMem ((h.mem_files_iff _).2 ⟨e', he', heq⟩)
  constructor
  · rw [List.map_append, List.map_singleton, List.nodup_append_comm]
    exact List.nodup_cons.2 ⟨hnotMem, h.nodup⟩
  · intro file
    rw [h.mem_files_append_iff, List.map_append, List.mem_append, List.map_singleton,
      List.mem_singleton]
  · refine List.forall_mem_append.2 ⟨fun entry hentry => ?_, List.forall_mem_singleton.2 ?_⟩
    · exact h.eq_strongest_append e hentry (hnew entry hentry)
    · rw [strongest_append_singleton, if_pos rfl, hzero]
  · exact List.forall_mem_append.2 ⟨h.bounded, List.forall_mem_singleton.2
      (exists_max_clamp ⟨0, Nat.zero_le _, rfl⟩ _)⟩

/-- **An observation in a file that is known** is described by the entry of that file, raised. -/
theorem Describes.raise {front back : Support} {old : Binary64}
    (h : Describes (front ++ (e.file, old) :: back) es)
    (hfront : ∀ entry ∈ front, entry.1 ≠ e.file) :
    Describes (front ++ (e.file, .max old (clamp e.strength)) :: back) (es ++ [e]) := by
  have hmem : (e.file, old) ∈ front ++ (e.file, old) :: back := by simp
  have hback : ∀ entry ∈ back, entry.1 ≠ e.file := by
    intro entry hentry heq
    have hnodup := h.nodup
    rw [List.map_append, List.map_cons] at hnodup
    exact (List.nodup_cons.1 (List.nodup_append.1 hnodup).2.1).1
      (List.mem_map.2 ⟨entry, hentry, heq⟩)
  constructor
  · simpa using h.nodup
  · intro file
    rw [h.mem_files_append_iff]
    simp only [List.map_append, List.map_cons, List.mem_append, List.mem_cons]
    tauto
  · refine List.forall_mem_append.2 ⟨fun entry hentry => ?_, List.forall_mem_cons.2
      ⟨?_, fun entry hentry => ?_⟩⟩
    · exact h.eq_strongest_append e (List.mem_append_left _ hentry) (hfront entry hentry)
    · rw [strongest_append_singleton, if_pos rfl, ← h.eq_strongest _ hmem]
    · exact h.eq_strongest_append e (by simp [hentry]) (hback entry hentry)
  · obtain ⟨hbefore, hafter⟩ := List.forall_mem_append.1 h.bounded
    exact List.forall_mem_append.2 ⟨hbefore, List.forall_mem_cons.2
      ⟨exists_max_clamp (h.bounded _ hmem) _, (List.forall_mem_cons.1 hafter).2⟩⟩

/-- **One more observation is described** by the support with it. -/
theorem Describes.add (h : support.Describes es) (e : Evidence) :
    (support.add e.file (clamp e.strength)).Describes (es ++ [e]) := by
  obtain ⟨hnew, hadd⟩ | ⟨front, old, back, rfl, hfront, hadd⟩ :=
    add_cases support e.file (clamp e.strength)
  · rw [hadd]
    exact h.append hnew
  · rw [hadd]
    exact h.raise hfront

/-- **The support of some observations describes them.** -/
theorem describes_ofEvidence (es : List Evidence) : (ofEvidence es).Describes es := by
  induction es using List.reverseRecOn with
  | nil => constructor <;> simp [ofEvidence]
  | append_singleton es e ih =>
    rw [ofEvidence_append_singleton]
    exact ih.add e

/-! ## Totals -/

/-- The strengths of some support, in steps. -/
def steps (support : Support) : List Nat := support.map fun entry => entry.2.key.toNat

theorem Describes.total_eq (h : support.Describes es) :
    support.total = ofSteps false (sumSteps support.steps) := by
  have hvalues : support.map (·.2) = support.steps.map (ofSteps false) := by
    rw [steps, List.map_map]
    refine List.map_congr_left fun entry hentry => ?_
    obtain ⟨n, hn, heq⟩ := h.bounded entry hentry
    rw [Function.comp_apply, heq]
    exact (Binary64.ofSteps_of_lt (hn.trans_lt Binary64.unit_lt_overflow)).symm
  rw [total, hvalues, Binary64.sum_ofSteps]

/-- **One more observation does not lower the total.** -/
theorem sumSteps_le_add (support : Support) (file : String) (strength : Binary64) :
    sumSteps support.steps ≤ sumSteps (support.add file strength).steps := by
  obtain ⟨-, hadd⟩ | ⟨front, old, back, rfl, -, hadd⟩ := add_cases support file strength
  · rw [hadd, steps, steps, List.map_append]
    exact Binary64.sumSteps_le_append _ _
  · rw [hadd, steps, steps, List.map_append, List.map_append]
    refine Binary64.sumSteps_mono (List.rel_append (List.forall₂_refl _) (.cons ?_ (List.forall₂_refl _)))
    exact Int.toNat_le_toNat (key_le_max old strength)

theorem length_le_add (support : Support) (file : String) (strength : Binary64) :
    support.length ≤ (support.add file strength).length := by
  obtain ⟨-, hadd⟩ | ⟨front, old, back, rfl, -, hadd⟩ := add_cases support file strength <;>
    simp [hadd]

/-- **An observation that is no stronger than the strongest of its file** leaves the support as it
is. -/
theorem Describes.add_eq_self (h : support.Describes es) (hfile : ∃ e' ∈ es, e'.file = e.file)
    (hle : Binary64.lt (strongest e.file es) (clamp e.strength) = false) :
    support.add e.file (clamp e.strength) = support := by
  obtain ⟨hnew, -⟩ | ⟨front, old, back, rfl, -, hadd⟩ :=
    add_cases support e.file (clamp e.strength)
  · obtain ⟨entry, hentry, heq⟩ := List.mem_map.1 ((h.mem_files_iff _).2 hfile)
    exact absurd heq (hnew entry hentry)
  · have hold : old = strongest e.file es := h.eq_strongest (e.file, old) (by simp)
    rw [hadd, Binary64.max, hold, if_neg (by simp [hle])]

/-- **A support of one file at most** is that of observations that are all in one file. -/
theorem Describes.length_le_one_iff (h : support.Describes es) :
    support.length ≤ 1 ↔ ∃ file, ∀ e ∈ es, e.file = file := by
  constructor
  · intro hlength
    have hfile : ∀ e ∈ es, e.file ∈ support.map (·.1) := fun e he =>
      (h.mem_files_iff _).2 ⟨e, he, rfl⟩
    obtain hzero | hone := Nat.le_one_iff_eq_zero_or_eq_one.1 hlength
    · rw [List.length_eq_zero_iff.1 hzero] at hfile
      exact ⟨"", fun e he => absurd (hfile e he) List.not_mem_nil⟩
    · obtain ⟨entry, rfl⟩ := List.length_eq_one_iff.1 hone
      exact ⟨entry.1, fun e he => List.mem_singleton.1 (hfile e he)⟩
  · rintro ⟨file, hfile⟩
    have hsame : ∀ file' ∈ support.map (·.1), file' = file := by
      intro file' hmem
      obtain ⟨e, he, rfl⟩ := (h.mem_files_iff file').1 hmem
      exact hfile e he
    have hreplicate := List.eq_replicate_of_mem hsame
    have hnodup := h.nodup
    rw [hreplicate, List.nodup_replicate, List.length_map] at hnodup
    exact hnodup

end Support

/-! ## Confidence -/

theorem saturated_zero : saturated .zero = 0 := by decide +kernel

/-- **The confidence that some support gives**, under the ceiling if it is that of one file. -/
def ofSupport (support : Support) : Nat :=
  if support.length ≤ 1 then min (saturated support.total) singleFileCeiling
  else saturated support.total

theorem ofEvidence_eq (es : List Evidence) : ofEvidence es = ofSupport (Support.ofEvidence es) := by
  rw [ofEvidence]
  generalize Support.ofEvidence es = support
  rcases support with _ | ⟨entry, _ | ⟨entry', rest⟩⟩
  · have hzero : saturated (Support.total []) = 0 := saturated_zero
    rw [ofSupport, List.length_nil, if_pos (Nat.zero_le 1), hzero, Nat.zero_min]
  · rw [ofSupport, List.length_singleton, if_pos (le_refl 1)]
  · rw [ofSupport, if_neg (by simp)]

theorem ofSupport_le_most (support : Support) : ofSupport support ≤ most := by
  have hle : saturated support.total ≤ most := Nat.min_le_left ..
  rw [ofSupport]
  split
  · exact (Nat.min_le_left ..).trans hle
  · exact hle

/-- **More support makes no less sure**: a raised total counts no less, and a second file only lifts
the ceiling. -/
theorem ofSupport_mono {support support' : Support} {es es' : List Evidence}
    (h : support.Describes es) (h' : support'.Describes es')
    (hsteps : sumSteps support.steps ≤ sumSteps support'.steps)
    (hlength : support.length ≤ support'.length) : ofSupport support ≤ ofSupport support' := by
  have hsaturated : saturated support.total ≤ saturated support'.total := by
    rw [h.total_eq, h'.total_eq, saturated_ofSteps, saturated_ofSteps]
    exact min_le_min le_rfl (hundredths_mono hsteps)
  rw [ofSupport, ofSupport]
  split
  case isTrue =>
    split
    case isTrue => exact min_le_min hsaturated le_rfl
    case isFalse => exact (Nat.min_le_left ..).trans hsaturated
  case isFalse hfiles => rwa [if_neg fun hle => hfiles (hlength.trans hle)]

theorem ofEvidence_le_append_singleton (es : List Evidence) (e : Evidence) :
    ofEvidence es ≤ ofEvidence (es ++ [e]) := by
  rw [ofEvidence_eq, ofEvidence_eq, Support.ofEvidence_append_singleton]
  have hdescribes := Support.describes_ofEvidence es
  exact ofSupport_mono hdescribes (hdescribes.add e) (Support.sumSteps_le_add ..)
    (Support.length_le_add ..)

/-- **What some observations are worth**, and what one more is. -/
structure Accumulates (es : List Evidence) : Prop where
  /-- The share of full confidence is a whole number of hundredths, which is kept below the highest
  confidence, and below the ceiling if one file is all there is. -/
  rounded : ∃ share : Nat, hundredths? (Support.ofEvidence es).total = some (share : Int) ∧
    ((∃ file, ∀ e ∈ es, e.file = file) → ofEvidence es = min (min most share) singleFileCeiling) ∧
      ((¬ ∃ file, ∀ e ∈ es, e.file = file) → ofEvidence es = min most share)
  le_most : ofEvidence es ≤ most
  le_singleFileCeiling : ∀ file, (∀ e ∈ es, e.file = file) → ofEvidence es ≤ singleFileCeiling
  /-- Repeating what a file says, no more strongly than it is said there, changes nothing. -/
  repeated : ∀ e, (∃ e' ∈ es, e'.file = e.file) →
    Binary64.lt (strongest e.file es) (clamp e.strength) = false →
      ofEvidence (es ++ [e]) = ofEvidence es
  /-- Nothing that is added makes less sure. -/
  corroborated : ∀ e, ofEvidence es ≤ ofEvidence (es ++ [e])

theorem ofEvidence_accumulates (es : List Evidence) : Accumulates es := by
  have hdescribes := Support.describes_ofEvidence es
  have hone := hdescribes.length_le_one_iff
  have hsaturated := saturated_ofSteps (sumSteps (Support.ofEvidence es).steps)
  rw [← hdescribes.total_eq] at hsaturated
  constructor
  case rounded =>
    refine ⟨hundredths (sumSteps (Support.ofEvidence es).steps), ?_, fun hfile => ?_, fun hfiles => ?_⟩
    · rw [hdescribes.total_eq, hundredths?_ofSteps]
    · rw [ofEvidence_eq, ofSupport, if_pos (hone.2 hfile), hsaturated]
    · rw [ofEvidence_eq, ofSupport, if_neg (mt hone.1 hfiles), hsaturated]
  case le_most =>
    rw [ofEvidence_eq]
    exact ofSupport_le_most _
  case le_singleFileCeiling =>
    intro file hfile
    rw [ofEvidence_eq, ofSupport, if_pos (hone.2 ⟨file, hfile⟩)]
    exact Nat.min_le_right ..
  case repeated =>
    intro e hfile hle
    rw [ofEvidence_eq, ofEvidence_eq, Support.ofEvidence_append_singleton,
      hdescribes.add_eq_self hfile hle]
  case corroborated =>
    intro e
    rw [ofEvidence_eq, ofEvidence_eq, Support.ofEvidence_append_singleton]
    exact ofSupport_mono hdescribes (hdescribes.add e) (Support.sumSteps_le_add ..)
      (Support.length_le_add ..)

end Confidence
end Conventions
