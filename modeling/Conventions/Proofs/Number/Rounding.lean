import Conventions.Number.Shortest
import Mathlib.Tactic.Linarith
import Mathlib.Tactic.Ring

/-!
# Proofs/Number/Rounding — what rounds to a number

A number that has at most 53 significant bits is `Representable`. Every quotient inside the
`interval` of such a number rounds to it (`roundQuotient_of_contains`): either the quotient lies
between the same two powers of two, or the number is a power of two and the quotient lies just below
it, where the steps are half as wide.
-/

namespace Conventions
namespace Binary64

variable {num den k n s : Nat}

/-! ## Quotients -/

/-- **The nearest whole number** is the one that is no more than a half away, an even one if it is
just a half. -/
theorem divNearest_eq (hden : 0 < den) (low : 2 * (k * den) ≤ 2 * num + den)
    (high : 2 * num ≤ 2 * (k * den) + den)
    (odd : k % 2 = 1 → 2 * (k * den) < 2 * num + den ∧ 2 * num < 2 * (k * den) + den) :
    divNearest num den = k := by
  have hnum : den * (num / den) + num % den = num := Nat.div_add_mod num den
  have hmod : num % den < den := Nat.mod_lt num hden
  obtain ⟨q, hq⟩ : ∃ q, num / den = q := ⟨_, rfl⟩
  obtain ⟨r, hr⟩ : ∃ r, num % den = r := ⟨_, rfl⟩
  rw [hq, hr] at hnum
  rw [hr] at hmod
  have hle : q ≤ k := by
    by_contra hlt
    have : (k + 1) * den ≤ q * den := Nat.mul_le_mul_right den (by omega)
    linarith [Nat.mul_comm den q]
  have hge : k ≤ q + 1 := by
    by_contra hlt
    have : (q + 2) * den ≤ k * den := Nat.mul_le_mul_right den (by omega)
    linarith [Nat.mul_comm den q]
  rw [divNearest, hq, hr]
  obtain rfl | rfl : k = q ∨ k = q + 1 := by omega
  · have h2r : 2 * r ≤ den := by linarith [Nat.mul_comm den k]
    have heven : 2 * r = den → k % 2 = 0 := by
      intro h
      by_contra hk
      have := (odd (by omega)).2
      linarith [Nat.mul_comm den k]
    split
    · rfl
    · split
      · omega
      · rw [if_pos (heven (by omega))]
  · have h2r : den ≤ 2 * r := by linarith [Nat.mul_comm den q, Nat.add_mul q 1 den]
    have heven : 2 * r = den → q % 2 = 1 := by
      intro h
      by_contra hk
      have := (odd (by omega)).1
      linarith [Nat.mul_comm den q, Nat.add_mul q 1 den]
    split
    · omega
    · split
      · rfl
      · rw [if_neg (by have := heven (by omega); omega)]

theorem divNearest_mul {c : Nat} (hc : 0 < c) :
    divNearest (c * num) (c * den) = divNearest num den := by
  simp only [divNearest, Nat.mul_div_mul_left _ _ hc, Nat.mul_mod_mul_left]
  have hlt : ∀ a b : Nat, c * a < c * b ↔ a < b := fun a b => Nat.mul_lt_mul_left hc
  simp only [Nat.mul_left_comm 2 c, hlt]

theorem spareBits_le_iff : spareBits n ≤ s ↔ n < 2 ^ (53 + s) := by
  rw [spareBits]
  obtain rfl | hn := Nat.eq_zero_or_pos n
  · simp
  · rw [← Nat.log2_lt (by omega)]
    omega

theorem spareBits_eq (low : 0 < s → 2 ^ (52 + s) ≤ n) (high : n < 2 ^ (53 + s)) :
    spareBits n = s := by
  refine Nat.le_antisymm (spareBits_le_iff.2 high) ?_
  obtain rfl | hs := Nat.eq_zero_or_pos s
  · exact Nat.zero_le _
  · by_contra hlt
    have : n < 2 ^ (53 + (s - 1)) := spareBits_le_iff.1 (by omega)
    rw [show 53 + (s - 1) = 52 + s by omega] at this
    exact absurd (low hs) (by omega)

/-- **A quotient of which both parts have a factor** rounds to the same number without it. -/
theorem roundQuotient_mul {c : Nat} (hc : 0 < c) :
    roundQuotient (c * num) (c * den) = roundQuotient num den := by
  rw [roundQuotient, roundQuotient, Nat.mul_div_mul_left _ _ hc]
  simp only [Nat.mul_assoc, divNearest_mul hc]

/-- A quotient that lies between the right powers of two rounds to the multiple next to it. -/
theorem roundQuotient_eq (hden : 0 < den) (least : 0 < s → 2 ^ (52 + s) * den ≤ num)
    (most : num < 2 ^ (53 + s) * den) (low : 2 * (k * (den * 2 ^ s)) ≤ 2 * num + den * 2 ^ s)
    (high : 2 * num ≤ 2 * (k * (den * 2 ^ s)) + den * 2 ^ s)
    (odd : k % 2 = 1 → 2 * (k * (den * 2 ^ s)) < 2 * num + den * 2 ^ s ∧
      2 * num < 2 * (k * (den * 2 ^ s)) + den * 2 ^ s) :
    roundQuotient num den = k * 2 ^ s := by
  have hs : spareBits (num / den) = s :=
    spareBits_eq (fun h => (Nat.le_div_iff_mul_le hden).2 (least h))
      ((Nat.div_lt_iff_lt_mul hden).2 most)
  rw [roundQuotient, hs]
  simp only [Nat.pow_eq]
  rw [divNearest_eq (Nat.mul_pos hden (Nat.two_pow_pos s)) low high odd]

/-! ## Numbers with few significant bits -/

/-- **A binary64 number has this many steps**: at most 53 bits count, and it is not too large. -/
structure Representable (n : Nat) : Prop where
  dvd : 2 ^ spareBits n ∣ n
  lt : n < overflow

/-- The bits that count are no more than 53. -/
theorem lt_of_eq_mul (hs : spareBits n = s) (h : n = k * 2 ^ s) : k < 2 ^ 53 := by
  have hlt : n < 2 ^ (53 + s) := spareBits_le_iff.1 hs.le
  rw [Nat.pow_add, h] at hlt
  exact Nat.lt_of_mul_lt_mul_right hlt

theorem le_of_spareBits (hs : spareBits n = s) (h : 0 < s) : 2 ^ (52 + s) ≤ n := by
  by_contra hlt
  have : spareBits n ≤ s - 1 :=
    spareBits_le_iff.2 (by rw [show 53 + (s - 1) = 52 + s by omega]; omega)
  omega

/-! ## The interval of a number -/

theorem Interval.bounds {i : Interval} {p q : Nat} (h : i.contains p q = true) :
    i.low * q ≤ p ∧ p ≤ i.high * q ∧ (i.closed = false → i.low * q < p ∧ p < i.high * q) := by
  rw [Interval.contains] at h
  split at h
  case isTrue hc =>
    obtain ⟨hlow, hhigh⟩ := of_decide_eq_true h
    exact ⟨hlow, hhigh, fun hf => by simp [hf] at hc⟩
  case isFalse hc =>
    have := of_decide_eq_true h
    exact ⟨this.1.le, this.2.le, fun _ => this⟩

/-- Where the steps on both sides are as wide. -/
theorem roundQuotient_of_even_steps (hs : spareBits n = s) (h : n = k * 2 ^ s) (hk : 0 < k)
    (hden : 0 < den) (inner : 0 < s → n ≠ 2 ^ (52 + s))
    (low : 2 * (k * (den * 2 ^ s)) ≤ 2 * num + den * 2 ^ s)
    (high : 2 * num ≤ 2 * (k * (den * 2 ^ s)) + den * 2 ^ s)
    (odd : k % 2 = 1 → 2 * (k * (den * 2 ^ s)) < 2 * num + den * 2 ^ s ∧
      2 * num < 2 * (k * (den * 2 ^ s)) + den * 2 ^ s) :
    roundQuotient num den = n := by
  have hunit : 0 < den * 2 ^ s := Nat.mul_pos hden (Nat.two_pow_pos s)
  rw [h]
  refine roundQuotient_eq hden (fun hpos => ?_) ?_ low high odd
  · -- the number is greater than the power of two below it, so what rounds to it is not less
    have hgt : 2 ^ 52 < k := by
      have hle := le_of_spareBits hs hpos
      have hne := inner hpos
      rw [h, Nat.pow_add] at hle hne
      exact Nat.lt_of_le_of_ne (Nat.le_of_mul_le_mul_right hle (Nat.two_pow_pos s))
        fun heq => hne (by rw [heq])
    have : (2 ^ 52 + 1) * (den * 2 ^ s) ≤ k * (den * 2 ^ s) := Nat.mul_le_mul_right _ hgt
    calc 2 ^ (52 + s) * den = 2 ^ 52 * (den * 2 ^ s) := by ring
      _ ≤ num := by linarith
  · have hlt := lt_of_eq_mul hs h
    have : k * (den * 2 ^ s) ≤ (2 ^ 53 - 1) * (den * 2 ^ s) := Nat.mul_le_mul_right _ (by omega)
    calc num < 2 ^ 53 * (den * 2 ^ s) := by omega
      _ = 2 ^ (53 + s) * den := by ring

/-- At a power of two, below which the steps are half as wide. -/
theorem roundQuotient_of_two_pow (hs : 0 < s) (hden : 0 < den)
    (low : 4 * (2 ^ 52 * (den * 2 ^ s)) ≤ 4 * num + den * 2 ^ s)
    (high : 2 * num ≤ 2 * (2 ^ 52 * (den * 2 ^ s)) + den * 2 ^ s) :
    roundQuotient num den = 2 ^ 52 * 2 ^ s := by
  have hunit : 0 < den * 2 ^ s := Nat.mul_pos hden (Nat.two_pow_pos s)
  obtain hlt | hge := Nat.lt_or_ge num (2 ^ 52 * (den * 2 ^ s))
  · obtain ⟨t, rfl⟩ : ∃ t, s = t + 1 := ⟨s - 1, by omega⟩
    have htwice : den * 2 ^ (t + 1) = 2 * (den * 2 ^ t) := by ring
    rw [htwice] at low high hlt hunit
    rw [show 2 ^ 52 * 2 ^ (t + 1) = 2 ^ 53 * 2 ^ t by ring]
    refine roundQuotient_eq hden (fun _ => ?_) ?_ (by omega) (by omega)
      fun hodd => absurd hodd (by decide)
    · calc 2 ^ (52 + t) * den = 2 ^ 52 * (den * 2 ^ t) := by ring
        _ ≤ num := by omega
    · calc num < 2 ^ 53 * (den * 2 ^ t) := by omega
        _ = 2 ^ (53 + t) * den := by ring
  · refine roundQuotient_eq hden (fun _ => ?_) ?_ (by linarith) high
      fun hodd => absurd hodd (by decide)
    · calc 2 ^ (52 + s) * den = 2 ^ 52 * (den * 2 ^ s) := by ring
        _ ≤ num := hge
    · calc num < 2 ^ 53 * (den * 2 ^ s) := by omega
        _ = 2 ^ (53 + s) * den := by ring

theorem interval_of_two_pow (hs : spareBits n = s) (h : 0 < s ∧ n = 2 ^ n.log2) :
    interval n = ⟨4 * n - 2 ^ s, 4 * n + 2 * 2 ^ s, n / 2 ^ s % 2 = 0⟩ := by
  simp only [interval, hs, Nat.pow_eq]
  rw [if_pos h]

theorem interval_of_not_two_pow (hs : spareBits n = s) (h : ¬ (0 < s ∧ n = 2 ^ n.log2)) :
    interval n = ⟨4 * n - 2 * 2 ^ s, 4 * n + 2 * 2 ^ s, n / 2 ^ s % 2 = 0⟩ := by
  simp only [interval, hs, Nat.pow_eq]
  rw [if_neg h]

theorem log2_of_spareBits (hs : spareBits n = s) (h : 0 < s) : n.log2 = 52 + s := by
  rw [spareBits] at hs
  omega

/-- **What lies in the interval of a number rounds to it.** -/
theorem roundQuotient_of_contains (h : Representable n) (hn : 0 < n) (hden : 0 < den)
    (hin : (interval n).contains (4 * num) den = true) : roundQuotient num den = n := by
  obtain ⟨s, hs⟩ : ∃ s, spareBits n = s := ⟨_, rfl⟩
  obtain ⟨k, hk⟩ : ∃ k, n = k * 2 ^ s := exists_eq_mul_left_of_dvd (hs ▸ h.dvd)
  have hpos : 0 < k := Nat.pos_of_ne_zero fun h0 => by simp [hk, h0] at hn
  have hquot : n / 2 ^ s = k := by rw [hk, Nat.mul_div_cancel _ (Nat.two_pow_pos s)]
  have hplus : (4 * n + 2 * 2 ^ s) * den = 4 * (n * den) + 2 * (den * 2 ^ s) := by ring
  obtain ⟨hlow, hhigh, hodd⟩ := Interval.bounds hin
  by_cases hpow : 0 < s ∧ n = 2 ^ n.log2
  · have hn52 : n = 2 ^ 52 * 2 ^ s := by
      rw [← Nat.pow_add, ← log2_of_spareBits hs hpow.1]
      exact hpow.2
    have hvalue : n * den = 2 ^ 52 * (den * 2 ^ s) := by rw [hn52]; ring
    have hminus : (4 * n - 2 ^ s) * den = 4 * (n * den) - den * 2 ^ s := by
      rw [Nat.sub_mul, Nat.mul_assoc, Nat.mul_comm den]
    rw [interval_of_two_pow hs hpow] at hlow hhigh
    simp only [hminus, hplus, hvalue] at hlow hhigh
    rw [hn52]
    exact roundQuotient_of_two_pow hpow.1 hden (by omega) (by omega)
  · have hvalue : n * den = k * (den * 2 ^ s) := by rw [hk]; ring
    have hminus : (4 * n - 2 * 2 ^ s) * den = 4 * (n * den) - 2 * (den * 2 ^ s) := by
      rw [Nat.sub_mul, Nat.mul_assoc, Nat.mul_assoc, Nat.mul_comm den]
    rw [interval_of_not_two_pow hs hpow] at hlow hhigh hodd
    simp only [hminus, hplus, hvalue, hquot, decide_eq_false_iff_not] at hlow hhigh hodd
    refine roundQuotient_of_even_steps hs hk hpos hden (fun h hn => ?_) (by omega) (by omega)
      fun hk2 => ?_
    · exact hpow ⟨h, by rw [log2_of_spareBits hs h]; exact hn⟩
    · have := hodd (by omega)
      omega

end Binary64
end Conventions
