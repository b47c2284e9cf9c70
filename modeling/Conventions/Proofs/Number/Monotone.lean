import Conventions.Proofs.Number.Shortest

/-!
# Proofs/Number/Monotone — arithmetic keeps the order

The greater of two quotients does not round to the smaller number (`roundQuotient_mono`), and what
was rounded once is not changed by rounding it again (`roundQuotient_self`). Every operation on
numbers that are not negative is exact arithmetic followed by one rounding, so it keeps the order
too, and `e ^ (- x)` turns it around (`decaySteps_anti`).
-/

namespace Conventions
namespace Binary64

variable {num den num' den' n m k : Nat}

/-! ## The nearest whole number -/

/-- **How far the nearest whole number is away**: no more than a half, and less if it is odd. -/
theorem divNearest_near (num : Nat) (hden : 0 < den) :
    2 * (divNearest num den * den) ≤ 2 * num + den ∧
      2 * num ≤ 2 * (divNearest num den * den) + den ∧
        (divNearest num den % 2 = 1 → 2 * (divNearest num den * den) < 2 * num + den ∧
          2 * num < 2 * (divNearest num den * den) + den) := by
  have hnum : num / den * den + num % den = num := Nat.div_add_mod' num den
  have hmod : num % den < den := Nat.mod_lt num hden
  have hsucc : (num / den + 1) * den = num / den * den + den := Nat.succ_mul ..
  rw [divNearest]
  split
  · omega
  · split
    · rw [hsucc]
      omega
    · split
      · omega
      · rw [hsucc]
        omega

theorem divNearest_le_divNearest (hden : 0 < den) (h : num ≤ num') :
    divNearest num den ≤ divNearest num' den := by
  obtain ⟨hlow, -, hodd⟩ := divNearest_near num hden
  obtain ⟨-, hhigh', hodd'⟩ := divNearest_near num' hden
  generalize divNearest num den = k at hlow hodd ⊢
  generalize divNearest num' den = k' at hhigh' hodd' ⊢
  by_contra! hlt
  -- then both lie in the middle between `k'` and `k`, one of which is odd
  have hstep : (k' + 1) * den ≤ k * den := Nat.mul_le_mul_right den hlt
  rw [Nat.succ_mul] at hstep
  obtain rfl : k = k' + 1 :=
    Nat.eq_of_mul_eq_mul_right hden (by rw [Nat.succ_mul]; omega)
  omega

/-- **The nearest whole number keeps the order** of quotients. -/
theorem divNearest_mono (hden : 0 < den) (hden' : 0 < den') (h : num * den' ≤ num' * den) :
    divNearest num den ≤ divNearest num' den' := by
  have hscale : divNearest (den * num') (den * den') = divNearest num' den' := divNearest_mul hden
  rw [← divNearest_mul hden', ← hscale, Nat.mul_comm den den']
  refine divNearest_le_divNearest (Nat.mul_pos hden' hden) ?_
  rwa [Nat.mul_comm den', Nat.mul_comm den]

theorem divNearest_self (hden : 0 < den) (k : Nat) : divNearest (k * den) den = k :=
  divNearest_eq hden (by omega) (by omega) fun _ => by omega

/-! ## Rounding to 53 bits -/

/-- What is below a power of two with 53 spare bits or more rounds to no more than it. -/
theorem roundQuotient_le_two_pow (hden : 0 < den) :
    roundQuotient num den ≤ 2 ^ (53 + spareBits (num / den)) := by
  have hlt : num < 2 ^ (53 + spareBits (num / den)) * den :=
    (Nat.div_lt_iff_lt_mul hden).1 (spareBits_le_iff.1 le_rfl)
  rw [roundQuotient]
  generalize spareBits (num / den) = s at hlt ⊢
  simp only [Nat.pow_eq]
  have hpos : 0 < den * 2 ^ s := Nat.mul_pos hden (Nat.two_pow_pos s)
  have hle : divNearest num (den * 2 ^ s) ≤ 2 ^ 53 := by
    rw [← divNearest_self hpos (2 ^ 53)]
    refine divNearest_le_divNearest hpos (hlt.le.trans_eq ?_)
    ring
  calc divNearest num (den * 2 ^ s) * 2 ^ s ≤ 2 ^ 53 * 2 ^ s := Nat.mul_le_mul_right _ hle
    _ = 2 ^ (53 + s) := (Nat.pow_add ..).symm

theorem two_pow_le_roundQuotient_of_spareBits (hden : 0 < den) (h : 0 < spareBits (num / den)) :
    2 ^ (52 + spareBits (num / den)) ≤ roundQuotient num den := by
  have hle : 2 ^ (52 + spareBits (num / den)) * den ≤ num :=
    (Nat.le_div_iff_mul_le hden).1 (le_of_spareBits rfl h)
  rw [roundQuotient]
  generalize spareBits (num / den) = s at hle ⊢
  simp only [Nat.pow_eq]
  have hpos : 0 < den * 2 ^ s := Nat.mul_pos hden (Nat.two_pow_pos s)
  have hge : 2 ^ 52 ≤ divNearest num (den * 2 ^ s) := by
    rw [← divNearest_self hpos (2 ^ 52)]
    refine divNearest_le_divNearest hpos (le_of_eq_of_le ?_ hle)
    ring
  calc 2 ^ (52 + s) = 2 ^ 52 * 2 ^ s := Nat.pow_add ..
    _ ≤ divNearest num (den * 2 ^ s) * 2 ^ s := Nat.mul_le_mul_right _ hge

theorem spareBits_mono (h : n ≤ m) : spareBits n ≤ spareBits m :=
  spareBits_le_iff.2 (h.trans_lt (spareBits_le_iff.1 le_rfl))

/-- **Rounding keeps the order** of quotients. -/
theorem roundQuotient_mono (hden : 0 < den) (hden' : 0 < den') (h : num * den' ≤ num' * den) :
    roundQuotient num den ≤ roundQuotient num' den' := by
  have hquot : num / den ≤ num' / den' := by
    rw [Nat.le_div_iff_mul_le hden']
    refine Nat.le_of_mul_le_mul_right (h.trans' ?_) hden
    calc num / den * den' * den = num / den * den * den' := by ring
      _ ≤ num * den' := Nat.mul_le_mul_right _ (Nat.div_mul_le_self ..)
  obtain hlt | heq := (spareBits_mono hquot).lt_or_eq
  · -- a power of two lies between the two
    calc roundQuotient num den ≤ 2 ^ (53 + spareBits (num / den)) := roundQuotient_le_two_pow hden
      _ ≤ 2 ^ (52 + spareBits (num' / den')) := Nat.pow_le_pow_right (by decide) (by omega)
      _ ≤ roundQuotient num' den' :=
        two_pow_le_roundQuotient_of_spareBits hden' (by omega)
  · rw [roundQuotient, roundQuotient, heq]
    generalize spareBits (num' / den') = s
    simp only [Nat.pow_eq]
    refine Nat.mul_le_mul_right _ (divNearest_mono (Nat.mul_pos hden (Nat.two_pow_pos s))
      (Nat.mul_pos hden' (Nat.two_pow_pos s)) ?_)
    calc num * (den' * 2 ^ s) = num * den' * 2 ^ s := by ring
      _ ≤ num' * den * 2 ^ s := Nat.mul_le_mul_right _ h
      _ = num' * (den * 2 ^ s) := by ring

/-- What is rounded has no more than 53 bits that count. -/
theorem two_pow_dvd_roundQuotient (hden : 0 < den) :
    2 ^ spareBits (roundQuotient num den) ∣ roundQuotient num den := by
  have hle : roundQuotient num den ≤ 2 ^ (53 + spareBits (num / den)) :=
    roundQuotient_le_two_pow hden
  obtain heq | hlt := hle.eq_or_lt
  · rw [heq]
    refine pow_dvd_pow 2 ?_
    rw [spareBits, Nat.log2_two_pow]
    omega
  · refine (pow_dvd_pow 2 (spareBits_le_iff.2 hlt)).trans ?_
    rw [roundQuotient]
    exact Nat.dvd_mul_left ..

theorem roundQuotient_of_dvd (h : 2 ^ spareBits n ∣ n) : roundQuotient n 1 = n := by
  obtain ⟨k, hk⟩ := exists_eq_mul_left_of_dvd h
  rw [roundQuotient, Nat.div_one]
  generalize spareBits n = s at hk ⊢
  simp only [Nat.pow_eq, Nat.one_mul]
  rw [hk, divNearest_self (Nat.two_pow_pos s)]

/-- **What was rounded once** is not changed by rounding it again. -/
theorem roundQuotient_self (hden : 0 < den) :
    roundQuotient (roundQuotient num den) 1 = roundQuotient num den :=
  roundQuotient_of_dvd (two_pow_dvd_roundQuotient hden)

theorem roundQuotient_le_of_le (h : n ≤ m) : roundQuotient n 1 ≤ roundQuotient m 1 :=
  roundQuotient_mono Nat.one_pos Nat.one_pos (by omega)

@[simp] theorem roundQuotient_zero (den : Nat) : roundQuotient 0 den = 0 := by
  simp [roundQuotient, divNearest]

theorem roundQuotient_two_pow (k : Nat) : roundQuotient (2 ^ k) 1 = 2 ^ k := by
  refine roundQuotient_of_dvd (pow_dvd_pow 2 ?_)
  rw [spareBits, Nat.log2_two_pow]
  omega

theorem unit_pos : 0 < unit := unit_eq ▸ Nat.two_pow_pos _

theorem roundQuotient_unit : roundQuotient unit 1 = unit := by
  rw [unit_eq, roundQuotient_two_pow]

/-! ## Sums -/

theorem unit_lt_overflow : unit < overflow := by
  rw [unit_eq, overflow_eq]
  exact Nat.pow_lt_pow_right Nat.one_lt_two (by decide)

theorem ofSteps_of_lt {negative : Bool} (h : n < overflow) :
    ofSteps negative n = .finite negative n :=
  if_pos h

theorem ofSteps_of_ge {negative : Bool} (h : overflow ≤ n) :
    ofSteps negative n = .infinite negative :=
  if_neg (Nat.not_lt.2 h)

@[simp] theorem ofSteps_zero (negative : Bool) : ofSteps negative 0 = .finite negative 0 :=
  ofSteps_of_lt (Nat.zero_lt_of_lt unit_lt_overflow)

theorem ofSteps_roundQuotient_of_ge {negative : Bool} (h : overflow ≤ n) :
    ofSteps negative (roundQuotient n 1) = .infinite negative := by
  refine ofSteps_of_ge ?_
  rw [overflow_eq] at h ⊢
  exact two_pow_le_roundQuotient h

theorem add_finite (m n : Nat) :
    add (finite false m) (finite false n) = ofSteps false (roundQuotient (m + n) 1) := by
  have hkey : (finite false m).key + (finite false n).key = ((m + n : Nat) : Int) := by
    simp [key]
  rw [add, ofSigned, hkey, Int.natAbs_natCast, decide_eq_false (by omega)]
  split
  case isTrue hzero =>
    rw [Int.natCast_eq_zero.1 hzero, roundQuotient_zero, ofSteps_zero]
    rfl
  case isFalse => rfl

/-- **Numbers that are not negative are added** step by step, and rounded. -/
theorem add_ofSteps (m n : Nat) :
    add (ofSteps false m) (ofSteps false n) = ofSteps false (roundQuotient (m + n) 1) := by
  obtain hm | hm := Nat.lt_or_ge m overflow <;> obtain hn | hn := Nat.lt_or_ge n overflow
  · rw [ofSteps_of_lt hm, ofSteps_of_lt hn, add_finite]
  · rw [ofSteps_of_lt hm, ofSteps_of_ge hn, ofSteps_roundQuotient_of_ge (n := m + n) (by omega)]
    rfl
  · rw [ofSteps_of_ge hm, ofSteps_of_lt hn, ofSteps_roundQuotient_of_ge (n := m + n) (by omega)]
    rfl
  · rw [ofSteps_of_ge hm, ofSteps_of_ge hn, ofSteps_roundQuotient_of_ge (n := m + n) (by omega)]
    rfl

/-- The steps of a sum from left to right. -/
def sumSteps (ns : List Nat) : Nat := ns.foldl (fun total n => roundQuotient (total + n) 1) 0

theorem sum_ofSteps (ns : List Nat) :
    sum (ns.map (ofSteps false)) = ofSteps false (sumSteps ns) := by
  have hfrom : ∀ total, (ns.map (ofSteps false)).foldl add (ofSteps false total) =
      ofSteps false (ns.foldl (fun total n => roundQuotient (total + n) 1) total) := by
    induction ns with
    | nil =>
      intro total
      rw [List.map_nil, List.foldl_nil, List.foldl_nil]
    | cons n ns ih =>
      intro total
      rw [List.map_cons, List.foldl_cons, List.foldl_cons, add_ofSteps, ih]
  rw [sum, zero, ← ofSteps_zero, hfrom, sumSteps]

theorem sumSteps_append_singleton (ns : List Nat) (n : Nat) :
    sumSteps (ns ++ [n]) = roundQuotient (sumSteps ns + n) 1 := by
  rw [sumSteps, List.foldl_append]
  rfl

/-- **A sum of greater numbers** is not less. -/
theorem sumSteps_mono {ns ms : List Nat} (h : List.Forall₂ (· ≤ ·) ns ms) :
    sumSteps ns ≤ sumSteps ms := by
  have hfrom : ∀ a b : Nat, a ≤ b →
      ns.foldl (fun total n => roundQuotient (total + n) 1) a ≤
        ms.foldl (fun total n => roundQuotient (total + n) 1) b := by
    induction h with
    | nil => exact fun _ _ h => h
    | cons hle _ ih => exact fun a b hab => ih _ _ (roundQuotient_le_of_le (Nat.add_le_add hab hle))
  exact hfrom 0 0 le_rfl

/-- **A sum of more numbers** is not less: what is there is rounded already. -/
theorem sumSteps_le_append (ns : List Nat) (n : Nat) : sumSteps ns ≤ sumSteps (ns ++ [n]) := by
  have hself : roundQuotient (sumSteps ns) 1 = sumSteps ns := by
    obtain rfl | ⟨front, last, rfl⟩ := ns.eq_nil_or_concat
    · exact roundQuotient_zero 1
    · rw [List.concat_eq_append, sumSteps_append_singleton, roundQuotient_self Nat.one_pos]
  rw [sumSteps_append_singleton]
  calc sumSteps ns = roundQuotient (sumSteps ns) 1 := hself.symm
    _ ≤ roundQuotient (sumSteps ns + n) 1 := roundQuotient_le_of_le (Nat.le_add_right ..)

/-! ## Exponential decay -/

theorem seriesFrom_mul (c num den : Nat) : ∀ k i, seriesFrom (c * num) (c * den) k i =
    (c ^ k * (seriesFrom num den k i).1, c ^ k * (seriesFrom num den k i).2)
  | 0, _ => by simp [seriesFrom]
  | k + 1, i => by
    rw [seriesFrom, seriesFrom_mul c num den k (i + 1), seriesFrom]
    ext <;> simp only <;> ring

/-- The denominator of the series does not depend on the numerator of what it is taken of. -/
theorem seriesFrom_snd (num num' den : Nat) : ∀ k i,
    (seriesFrom num den k i).2 = (seriesFrom num' den k i).2
  | 0, _ => rfl
  | k + 1, i => congrArg (den * i * ·) (seriesFrom_snd num num' den k (i + 1))

theorem seriesFrom_fst_mono (h : num ≤ num') : ∀ k i,
    (seriesFrom num den k i).1 ≤ (seriesFrom num' den k i).1
  | 0, _ => le_rfl
  | k + 1, i => by
    have hsnd := seriesFrom_snd num num' den k (i + 1)
    have hfst := seriesFrom_fst_mono h k (i + 1)
    exact Nat.add_le_add (Nat.mul_le_mul_left _ hsnd.le) (Nat.mul_le_mul h hfst)

theorem seriesFrom_snd_le_fst (num den : Nat) : ∀ k i,
    (seriesFrom num den k i).2 ≤ (seriesFrom num den k i).1
  | 0, _ => le_rfl
  | _ + 1, _ => Nat.le_add_right ..

theorem seriesFrom_snd_pos (num : Nat) (hden : 0 < den) : ∀ k {i}, 0 < i →
    0 < (seriesFrom num den k i).2
  | 0, _, _ => Nat.one_pos
  | k + 1, i, hi =>
    Nat.mul_pos (Nat.mul_pos hden hi) (seriesFrom_snd_pos num hden k (Nat.succ_pos i))

/-- The steps of `e ^ (- num / den)`. -/
def decaySteps (num den : Nat) : Nat :=
  let series := seriesFrom (Nat.min num (64 * den)) den 256 1
  roundQuotient (series.2 * unit) series.1

theorem decayOf_eq (num : Nat) (hden : 0 < den) :
    decayOf num den = ofSteps false (decaySteps num den) := by
  unfold decayOf decaySteps
  generalize 256 = terms
  by_cases h : 64 * den < num
  · have hscale := seriesFrom_mul den 64 1 terms 1
    rw [Nat.mul_one, Nat.mul_comm den] at hscale
    have hpos : 0 < den ^ terms := Nat.pow_pos hden
    simp only [if_pos h, Nat.min_eq_right h.le, hscale, ofRatio, Nat.mul_assoc,
      roundQuotient_mul hpos]
  · simp only [if_neg h, Nat.min_eq_left (Nat.not_lt.1 h), ofRatio]

/-- **The greater a number, the less is left of it.** -/
theorem decaySteps_anti (hden : 0 < den) (h : n ≤ m) : decaySteps m den ≤ decaySteps n den := by
  rw [decaySteps, decaySteps, seriesFrom_snd (Nat.min m (64 * den)) (Nat.min n (64 * den))]
  have hpos : ∀ j, 0 < (seriesFrom j den 256 1).1 := fun j =>
    (seriesFrom_snd_pos j hden 256 Nat.one_pos).trans_le (seriesFrom_snd_le_fst ..)
  refine roundQuotient_mono (hpos _) (hpos _) (Nat.mul_le_mul_left _ ?_)
  exact seriesFrom_fst_mono (min_le_min_right (64 * den) h) 256 1

/-- No more is left than there was. -/
theorem decaySteps_le_unit (num : Nat) (hden : 0 < den) : decaySteps num den ≤ unit := by
  have hle := seriesFrom_snd_le_fst (Nat.min num (64 * den)) den 256 1
  have hpos := seriesFrom_snd_pos (Nat.min num (64 * den)) hden 256 Nat.one_pos
  rw [decaySteps]
  generalize seriesFrom (Nat.min num (64 * den)) den 256 1 = series at hle hpos
  calc roundQuotient (series.2 * unit) series.1 ≤ roundQuotient unit 1 :=
        roundQuotient_mono (hpos.trans_le hle) Nat.one_pos (by
          rw [Nat.mul_one, Nat.mul_comm]
          exact Nat.mul_le_mul_left _ hle)
    _ = unit := roundQuotient_unit

end Binary64
end Conventions
