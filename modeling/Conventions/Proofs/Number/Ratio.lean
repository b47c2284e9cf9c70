import Conventions.Proofs.Number.Monotone
import Mathlib.Data.List.Induction

/-!
# Proofs/Number/Ratio — numbers between zero and one

The share of some things among all of them is a number between zero and one (`isRatio_ofRatio`), and it
stays there when it is rounded to decimals (`IsRatio.roundTo`). So does the mean of such numbers
(`isRatio_mean`), although their sum is rounded at every step: whole numbers up to `2 ^ 53` are exact, and
a sum that has come that far is not moved by one more unit (`roundQuotient_succ_two_pow`).
-/

namespace Conventions
namespace Binary64

variable {n k den u places : Nat} {x : Binary64} {xs : List Binary64} {ns : List Nat}

/-- **A number between zero and one.** -/
def IsRatio (x : Binary64) : Prop := ∃ n ≤ unit, x = .finite false n

theorem isRatio_ofSteps (h : n ≤ unit) : (ofSteps false n).IsRatio :=
  ⟨n, h, ofSteps_of_lt (h.trans_lt unit_lt_overflow)⟩

theorem isRatio_zero : zero.IsRatio := ⟨0, Nat.zero_le _, rfl⟩

theorem IsRatio.isNaN (h : x.IsRatio) : x.isNaN = false := by
  obtain ⟨n, -, rfl⟩ := h
  rfl

/-- **Numbers compare** one way or the other. -/
theorem lt_eq_not_le {y : Binary64} (hx : x.isNaN = false) (hy : y.isNaN = false) :
    x.lt y = !y.le x := by
  rw [lt, le, hx, hy]
  simp only [Bool.not_false, Bool.true_and]
  rw [← decide_not, decide_eq_decide, Int.not_le]

/-! ## Quotients -/

theorem divNearest_mul_le (hu : 0 < u) (h : n ≤ u) (den : Nat) : divNearest (n * den) u ≤ den := by
  have hmul : n * den ≤ den * u := by
    rw [Nat.mul_comm n]
    exact Nat.mul_le_mul_left den h
  exact (divNearest_le_divNearest hu hmul).trans_eq (divNearest_self hu den)

theorem roundQuotient_mul_le (hu : roundQuotient u 1 = u) (hden : 0 < den) (h : k ≤ den) :
    roundQuotient (k * u) den ≤ u := by
  conv_rhs => rw [← hu]
  refine roundQuotient_mono hden Nat.one_pos ?_
  rw [Nat.mul_one, Nat.mul_comm u]
  exact Nat.mul_le_mul_right u h

/-- **A share** is between zero and one. -/
theorem isRatio_ofRatio (hden : 0 < den) (h : k ≤ den) : (ofRatio false k den).IsRatio :=
  isRatio_ofSteps (roundQuotient_mul_le roundQuotient_unit hden h)

/-- **The whole of something** is one. -/
theorem ofRatio_self (hden : 0 < den) : ofRatio false den den = one := by
  have hround : roundQuotient (den * unit) den = unit := by
    rw [← Nat.mul_one den, Nat.mul_assoc, Nat.one_mul, roundQuotient_mul hden, roundQuotient_unit]
  rw [ofRatio, hround, ofSteps_of_lt unit_lt_overflow, one]

/-- **A number between zero and one** stays there when it is rounded. -/
theorem IsRatio.roundTo (h : x.IsRatio) (places : Nat) : (x.roundTo places).IsRatio := by
  obtain ⟨n, hn, rfl⟩ := h
  have hten : 0 < Nat.pow 10 places := Nat.pow_pos (by decide)
  exact isRatio_ofRatio hten (divNearest_mul_le unit_pos hn _)

/-! ## Sums and means -/

/-- Whole numbers up to `2 ^ 53` are exact. -/
theorem roundQuotient_mul_two_pow (h : k ≤ 2 ^ 53) (s : Nat) :
    roundQuotient (k * 2 ^ s) 1 = k * 2 ^ s := by
  obtain rfl | hlt := h.eq_or_lt
  · rw [← Nat.pow_add, roundQuotient_two_pow]
  · refine roundQuotient_of_dvd (Nat.dvd_mul_left_of_dvd (pow_dvd_pow 2 ?_) k)
    rw [spareBits_le_iff, Nat.pow_add]
    exact Nat.mul_lt_mul_of_pos_right hlt (Nat.two_pow_pos s)

/-- `2 ^ 53` and one more is `2 ^ 53`: it lies in the middle to the next number, which is odd. -/
theorem roundQuotient_succ_two_pow (s : Nat) :
    roundQuotient ((2 ^ 53 + 1) * 2 ^ s) 1 = 2 ^ 53 * 2 ^ s := by
  have hpos : 0 < 2 ^ s := Nat.two_pow_pos s
  have htwice : 2 ^ (s + 1) = 2 * 2 ^ s := Nat.pow_succ'
  rw [show 2 ^ 53 * 2 ^ s = 2 ^ 52 * 2 ^ (s + 1) by rw [htwice]; omega]
  refine roundQuotient_eq Nat.one_pos (fun _ => ?_) ?_ (by omega) (by omega)
    fun hodd => absurd hodd (by decide)
  · rw [Nat.pow_add, htwice]
    omega
  · rw [Nat.pow_add, htwice]
    omega

/-- **A sum of numbers up to one** never gets past `2 ^ 53`. -/
theorem sumSteps_le_two_pow (h : ∀ n ∈ ns, n ≤ unit) : sumSteps ns ≤ 2 ^ 53 * unit := by
  induction ns using List.reverseRecOn with
  | nil => exact Nat.zero_le _
  | append_singleton ns n ih =>
    have hsum := ih fun m hm => h m (List.mem_append_left _ hm)
    have hn : n ≤ unit := h n (List.mem_append_right _ (List.mem_singleton_self n))
    have hstep : sumSteps ns + n ≤ (2 ^ 53 + 1) * unit := by
      rw [Nat.succ_mul]
      exact Nat.add_le_add hsum hn
    rw [sumSteps_append_singleton]
    refine (roundQuotient_le_of_le hstep).trans_eq ?_
    rw [unit_eq, roundQuotient_succ_two_pow]

/-- **A sum of numbers up to one** is no more than their number. -/
theorem sumSteps_le_length (h : ∀ n ∈ ns, n ≤ unit) : sumSteps ns ≤ ns.length * unit := by
  obtain hlt | hge := Nat.lt_or_ge ns.length (2 ^ 53)
  · induction ns using List.reverseRecOn with
    | nil => exact Nat.zero_le _
    | append_singleton ns n ih =>
      rw [List.length_append, List.length_singleton] at hlt ⊢
      have hsum := ih (fun m hm => h m (List.mem_append_left _ hm)) (Nat.lt_of_succ_lt hlt)
      have hn : n ≤ unit := h n (List.mem_append_right _ (List.mem_singleton_self n))
      have hstep : sumSteps ns + n ≤ (ns.length + 1) * unit := by
        rw [Nat.succ_mul]
        exact Nat.add_le_add hsum hn
      rw [sumSteps_append_singleton]
      refine (roundQuotient_le_of_le hstep).trans_eq ?_
      rw [unit_eq, roundQuotient_mul_two_pow hlt.le]
  · exact (sumSteps_le_two_pow h).trans (Nat.mul_le_mul_right _ hge)

theorem exists_steps (h : ∀ x ∈ xs, x.IsRatio) :
    ∃ ns : List Nat, (∀ n ∈ ns, n ≤ unit) ∧ xs = ns.map (ofSteps false) := by
  induction xs with
  | nil => exact ⟨[], by simp, rfl⟩
  | cons x xs ih =>
    obtain ⟨n, hn, rfl⟩ := h x List.mem_cons_self
    obtain ⟨ns, hns, rfl⟩ := ih fun y hy => h y (List.mem_cons_of_mem _ hy)
    refine ⟨n :: ns, List.forall_mem_cons.2 ⟨hn, hns⟩, ?_⟩
    rw [List.map_cons, ofSteps_of_lt (hn.trans_lt unit_lt_overflow)]

theorem two_pow_mul_unit_lt_overflow : 2 ^ 53 * unit < overflow := by
  rw [unit_eq, overflow_eq, ← Nat.pow_add]
  exact Nat.pow_lt_pow_right Nat.one_lt_two (by decide)

/-- **The mean of numbers between zero and one** is one, rounded or not. -/
theorem isRatio_mean (hne : xs ≠ []) (h : ∀ x ∈ xs, x.IsRatio) :
    ((sum xs).divNat xs.length).IsRatio := by
  obtain ⟨ns, hns, rfl⟩ := exists_steps h
  have hfinite : sumSteps ns < overflow :=
    (sumSteps_le_two_pow hns).trans_lt two_pow_mul_unit_lt_overflow
  have hlength : 0 < ns.length := List.length_pos_iff.2 fun hnil => hne (by rw [hnil, List.map_nil])
  rw [sum_ofSteps, ofSteps_of_lt hfinite, List.length_map, divNat]
  refine isRatio_ofSteps ?_
  calc roundQuotient (sumSteps ns) ns.length
      ≤ roundQuotient (ns.length * unit) ns.length := by
        refine roundQuotient_mono hlength hlength (Nat.mul_le_mul_right _ ?_)
        exact sumSteps_le_length hns
    _ ≤ unit := roundQuotient_mul_le roundQuotient_unit hlength le_rfl

end Binary64
end Conventions
