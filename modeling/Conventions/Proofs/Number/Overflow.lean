import Conventions.Proofs.Number.Monotone
import Mathlib.Algebra.Order.Field.Rat

/-!
# Proofs/Number/Overflow — which numbers are too large

A quotient rounds to an infinity exactly from the middle on between the greatest finite number and the next
power of two (`overflow_le_roundQuotient_iff`): the middle itself is a tie, and the power of two is the even
one. So a whole number or a decimal is too large for a finite number from `2 ^ 1024 - 2 ^ 970` on.
-/

namespace Conventions
namespace Binary64

variable {num den n d : Nat} {negative infinite : Bool} {e i : Int}

/-- The steps of the middle between the greatest finite number and the next power of two. -/
def middle : Nat := (2 ^ 54 - 1) * Nat.pow 2 2044

theorem roundQuotient_middle : roundQuotient middle 1 = overflow := by decide +kernel

theorem middle_le_overflow : middle ≤ overflow := by decide +kernel

theorem middle_eq {s : Nat} (hs : s = 2045) : middle = (2 ^ 54 - 1) * Nat.pow 2 (s - 1) ∧
    overflow = 2 ^ 53 * Nat.pow 2 s ∧ Nat.pow 2 s = 2 * Nat.pow 2 (s - 1) ∧ 0 < Nat.pow 2 s := by
  subst hs
  decide +kernel

theorem le_of_two_pow_le_roundQuotient {k : Nat} (hden : 0 < den) (h : 2 ^ k ≤ roundQuotient num den) :
    k ≤ 53 + spareBits (num / den) :=
  (Nat.pow_le_pow_iff_right Nat.one_lt_two).1 (h.trans (roundQuotient_le_two_pow hden))

theorem two_pow_le_of_le_spareBits {k : Nat} (hpos : 0 < spareBits n) (h : k ≤ 52 + spareBits n) :
    2 ^ k ≤ n :=
  (Nat.pow_le_pow_right Nat.two_pos h).trans (le_of_spareBits rfl hpos)

/-- What rounds up to a power of two is at least the middle below it. -/
theorem middle_le_of_divNearest {p q : Nat} (hq : q = 2 * p ∧ 0 < q) (hden : 0 < den)
    (h : 2 ^ 53 * q ≤ divNearest num (den * q) * q) : (2 ^ 54 - 1) * p * den ≤ num := by
  have hnear := (divNearest_near num (Nat.mul_pos hden hq.2)).1
  generalize divNearest num (den * q) = k at h hnear
  have hk : 2 ^ 53 ≤ k := Nat.le_of_mul_le_mul_right h hq.2
  have hstep : 2 ^ 53 * (den * q) ≤ k * (den * q) := Nat.mul_le_mul_right _ hk
  rw [hq.1, Nat.mul_left_comm den] at hnear hstep
  rw [Nat.mul_assoc, Nat.mul_comm p]
  omega

/-- **A quotient is too large** from the middle on. -/
theorem overflow_le_roundQuotient_iff (hden : 0 < den) :
    overflow ≤ roundQuotient num den ↔ middle * den ≤ num := by
  constructor
  · intro h
    have hspare : 2045 ≤ spareBits (num / den) := by
      have hexponent := le_of_two_pow_le_roundQuotient hden (overflow_eq ▸ h)
      omega
    obtain hlt | heq := hspare.lt_or_eq
    · -- the quotient is at least the power of two itself
      have hquot : overflow ≤ num / den :=
        overflow_eq.trans_le (two_pow_le_of_le_spareBits (Nat.zero_lt_of_lt hlt) (by omega))
      exact (Nat.le_div_iff_mul_le hden).1 (middle_le_overflow.trans hquot)
    · obtain ⟨hmiddle, hoverflow, hq⟩ := middle_eq heq.symm
      rw [roundQuotient, hoverflow] at h
      rw [hmiddle]
      exact middle_le_of_divNearest hq hden h
  · intro h
    rw [← roundQuotient_middle]
    exact roundQuotient_mono Nat.one_pos hden (by rwa [Nat.mul_one])

/-- **The least number that is too large** for a finite one. -/
def tooLarge : Nat := (2 ^ 54 - 1) * Nat.pow 2 970

theorem tooLarge_mul_unit : tooLarge * unit = middle := by decide +kernel

theorem overflow_le_iff (hden : 0 < den) :
    overflow ≤ roundQuotient (num * unit) den ↔ tooLarge * den ≤ num := by
  rw [overflow_le_roundQuotient_iff hden, ← tooLarge_mul_unit, Nat.mul_right_comm]
  exact Nat.mul_le_mul_right_iff unit_pos

/-- **A quotient is infinite** if it is too large, and finite if it is not. -/
theorem ofRatio_cases (negative : Bool) (num : Nat) (hden : 0 < den) :
    (tooLarge * den ≤ num ∧ ofRatio negative num den = .infinite negative) ∨
      num < tooLarge * den ∧ ofRatio negative num den =
        .finite negative (roundQuotient (num * unit) den) := by
  rw [ofRatio]
  obtain hlt | hge := Nat.lt_or_ge num (tooLarge * den)
  · refine .inr ⟨hlt, ofSteps_of_lt ?_⟩
    exact Nat.lt_of_not_le fun h => Nat.not_le.2 hlt ((overflow_le_iff hden).1 h)
  · exact .inl ⟨hge, ofSteps_of_ge ((overflow_le_iff hden).2 hge)⟩

/-- **A whole number is too large** for a finite number from the middle on; the others become finite numbers of
their sign, and none but zero becomes zero. -/
theorem ofInt?_cases (i : Int) :
    (tooLarge ≤ i.natAbs ∧ ofInt? i = none) ∨
      i.natAbs < tooLarge ∧ ∃ n, ofInt? i = some (.finite (decide (i < 0)) n) ∧ (i ≠ 0 → 0 < n) := by
  have hcases := ofRatio_cases (decide (i < 0)) i.natAbs Nat.one_pos
  rw [Nat.mul_one] at hcases
  obtain ⟨hge, heq⟩ | ⟨hlt, heq⟩ := hcases
  · refine .inl ⟨hge, ?_⟩
    rw [ofInt?, heq]
    rfl
  · refine .inr ⟨hlt, roundQuotient (i.natAbs * unit) 1, ?_, fun hne => ?_⟩
    · rw [ofInt?, heq]
      rfl
    · -- what is at least one unit does not round to less
      have hone : unit ≤ i.natAbs * unit := Nat.le_mul_of_pos_left _ (Int.natAbs_pos.2 hne)
      have hle := roundQuotient_le_of_le hone
      rw [roundQuotient_unit] at hle
      exact unit_pos.trans_le hle

theorem ofRatio_eq_infinite_iff (hden : 0 < den) : ofRatio negative num den = .infinite infinite ↔
    infinite = negative ∧ tooLarge * den ≤ num := by
  obtain ⟨hge, heq⟩ | ⟨hlt, heq⟩ := ofRatio_cases negative _ hden
  · rw [heq, Binary64.infinite.injEq, eq_comm]
    exact (and_iff_left hge).symm
  · rw [heq]
    exact iff_of_false (fun h => nomatch h) fun h => Nat.not_le.2 hlt h.2

theorem nearest_cases (negative : Bool) (d : Nat) (e : Int) :
    nearest negative d e = .infinite negative ∨ ∃ n, nearest negative d e = .finite negative n := by
  have hratio {num den : Nat} (hden : 0 < den) : ofRatio negative num den = .infinite negative ∨
      ∃ n, ofRatio negative num den = .finite negative n :=
    (ofRatio_cases negative _ hden).imp And.right fun h => ⟨_, h.2⟩
  rw [nearest]
  split
  · exact hratio Nat.one_pos
  · exact hratio (Nat.pow_pos (by decide))

/-- **A decimal is infinite** exactly if it is too large. -/
theorem nearest_eq_infinite_iff : nearest negative d e = .infinite infinite ↔
    infinite = negative ∧ (tooLarge : ℚ) ≤ d * 10 ^ e := by
  rw [nearest]
  split
  case isTrue he =>
    obtain ⟨k, rfl⟩ := Int.eq_ofNat_of_zero_le he
    rw [ofRatio_eq_infinite_iff Nat.one_pos, Nat.mul_one, Int.toNat_natCast, zpow_natCast]
    exact and_congr_right fun _ => by norm_cast
  case isFalse he =>
    obtain ⟨k, rfl⟩ : ∃ k : Nat, e = -(k : Int) := ⟨(-e).toNat, by omega⟩
    rw [ofRatio_eq_infinite_iff (Nat.pow_pos (by decide)), Int.neg_neg, Int.toNat_natCast, zpow_neg,
      zpow_natCast, ← div_eq_mul_inv, le_div_iff₀ (by positivity)]
    exact and_congr_right fun _ => by norm_cast

end Binary64
end Conventions
