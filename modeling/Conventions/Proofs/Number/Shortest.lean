import Conventions.Proofs.Number.Rounding

/-!
# Proofs/Number/Shortest — the shortest decimal reads back

`ofDecimal` is the number nearest to a decimal, also where it answers at once (`ofDecimal_eq`), so
it does not change when a zero is moved between digits and exponent. Seventeen digits are enough to
hit the interval of a number (`exists_nearestOnGrid`), and what hits it rounds to the number
(`ofDecimal_shortest`).
-/

namespace Conventions
namespace Binary64

variable {n d : Nat} {e : Int} {negative : Bool}

/-! ## The number nearest to a decimal -/

/-- The number nearest to a decimal, however large or small it is. -/
def nearest (negative : Bool) (digits : Nat) (exponent : Int) : Binary64 :=
  if 0 ≤ exponent then ofRatio negative (digits * 10 ^ exponent.toNat) 1
  else ofRatio negative digits (10 ^ (-exponent).toNat)

theorem ofRatio_mul {c n d : Nat} (hc : 0 < c) :
    ofRatio negative (c * n) (c * d) = ofRatio negative n d := by
  rw [ofRatio, ofRatio, Nat.mul_assoc, roundQuotient_mul hc]

/-- A zero moves between the digits and the exponent. -/
theorem nearest_mul_ten : nearest negative (d * 10) e = nearest negative d (e + 1) := by
  obtain he | rfl | he : 0 ≤ e ∨ e = -1 ∨ e < -1 := by omega
  · obtain ⟨k, rfl⟩ := Int.eq_ofNat_of_zero_le he
    rw [nearest, nearest, if_pos he, if_pos (by omega)]
    simp only [Int.toNat_natCast, Int.toNat_natCast_add_one, Nat.pow_succ, Nat.mul_assoc,
      Nat.mul_comm 10]
  · rw [nearest, nearest, if_neg (by decide), if_pos (by decide)]
    exact (congrArg₂ (ofRatio negative) (Nat.mul_comm d 10) rfl).trans
      ((ofRatio_mul (c := 10) (d := 1) (by decide)).trans (by simp))
  · obtain ⟨k, rfl⟩ : ∃ k : Nat, e = -((k : Int) + 2) := ⟨(-e - 2).toNat, by omega⟩
    rw [nearest, nearest, if_neg (by omega), if_neg (by omega)]
    have h1 : (-(-((k : Int) + 2))).toNat = k + 2 := by omega
    have h2 : (-(-((k : Int) + 2) + 1)).toNat = k + 1 := by omega
    rw [h1, h2, Nat.mul_comm d 10, Nat.pow_succ' (n := k + 1)]
    exact ofRatio_mul (by decide)

theorem nearest_mul_pow (k : Nat) :
    nearest negative (d * 10 ^ k) e = nearest negative d (e + k) := by
  induction k generalizing e with
  | zero => simp
  | succ k ih =>
    rw [Nat.pow_succ, ← Nat.mul_assoc, nearest_mul_ten, ih]
    congr 1
    omega

/-! ## Very large and very small decimals -/

theorem div_le_divNearest (num den : Nat) : num / den ≤ divNearest num den := by
  simp only [divNearest]
  split
  · exact Nat.le_refl _
  · split
    · exact Nat.le_succ _
    · split
      · exact Nat.le_refl _
      · exact Nat.le_succ _

theorem two_pow_le_roundQuotient {x j : Nat} (h : 2 ^ j ≤ x) : 2 ^ j ≤ roundQuotient x 1 := by
  have hx : x ≠ 0 := fun h0 => absurd h (by simp [h0])
  have hj : j ≤ x.log2 := (Nat.le_log2 hx).2 h
  have hspare : spareBits x ≤ x.log2 := by
    rw [spareBits]
    omega
  rw [roundQuotient, Nat.div_one]
  simp only [Nat.pow_eq, Nat.one_mul]
  calc 2 ^ j ≤ 2 ^ x.log2 := Nat.pow_le_pow_right (by decide) hj
    _ = 2 ^ (x.log2 - spareBits x) * 2 ^ spareBits x := by
      rw [← Nat.pow_add, Nat.sub_add_cancel hspare]
    _ ≤ x / 2 ^ spareBits x * 2 ^ spareBits x := by
      refine Nat.mul_le_mul_right _ ((Nat.le_div_iff_mul_le (Nat.two_pow_pos _)).2 ?_)
      rw [← Nat.pow_add, Nat.sub_add_cancel hspare]
      exact Nat.log2_self_le hx
    _ ≤ divNearest x (2 ^ spareBits x) * 2 ^ spareBits x :=
      Nat.mul_le_mul_right _ (div_le_divNearest _ _)

theorem roundQuotient_of_small {num den : Nat} (h : 2 * num < den) : roundQuotient num den = 0 := by
  have hdiv : num / den = 0 := Nat.div_eq_of_lt (by omega)
  have hspare : spareBits 0 = 0 := rfl
  rw [roundQuotient, hdiv, hspare]
  simp only [Nat.pow_eq, Nat.pow_zero, Nat.mul_one, divNearest, hdiv]
  rw [Nat.mod_eq_of_lt (by omega), if_pos h]

theorem unit_eq : unit = 2 ^ 1074 := by rw [unit, Nat.pow_eq]

theorem overflow_eq : overflow = 2 ^ 2098 := by rw [overflow, Nat.pow_eq]

theorem two_pow_le_ten_pow (k : Nat) : 2 ^ (3 * k) ≤ 10 ^ k := by
  rw [Nat.pow_mul]
  exact Nat.pow_le_pow_left (by decide) k

theorem nearest_of_large (hd : 0 < d) (he : 400 < e) :
    nearest negative d e = .infinite negative := by
  obtain ⟨k, rfl⟩ : ∃ k : Nat, e = k := ⟨e.toNat, by omega⟩
  have hlarge : 2 ^ 2098 ≤ d * 10 ^ k * 2 ^ 1074 := by
    calc 2 ^ 2098 ≤ 2 ^ (3 * k) * 2 ^ 1074 := by
          rw [← Nat.pow_add]
          exact Nat.pow_le_pow_right (by decide) (by omega)
      _ ≤ d * 10 ^ k * 2 ^ 1074 :=
        Nat.mul_le_mul_right _ ((two_pow_le_ten_pow k).trans (Nat.le_mul_of_pos_left _ hd))
  rw [nearest, if_pos (by omega), Int.toNat_natCast, ofRatio, ofSteps, if_neg]
  rw [overflow_eq, unit_eq]
  exact Nat.not_lt.2 (two_pow_le_roundQuotient hlarge)

theorem ofRatio_of_small {num den : Nat} (h : 2 * (num * unit) < den) :
    ofRatio negative num den = .finite negative 0 := by
  rw [ofRatio, ofSteps, roundQuotient_of_small h, overflow_eq]
  exact if_pos (Nat.two_pow_pos 2098)

theorem nearest_of_zero : nearest negative 0 e = .finite negative 0 := by
  rw [nearest, Nat.zero_mul]
  split
  · exact ofRatio_of_small (by simp)
  · exact ofRatio_of_small (by simp)

theorem nearest_of_small (he : e + (Nat.log2 d + 1 : Nat) < -400) :
    nearest negative d e = .finite negative 0 := by
  obtain ⟨k, rfl⟩ : ∃ k : Nat, e = -(k : Int) := ⟨(-e).toNat, by omega⟩
  have hsmall : 2 * (d * 2 ^ 1074) < 10 ^ k := by
    calc 2 * (d * 2 ^ 1074) < 2 * (2 ^ (d.log2 + 1) * 2 ^ 1074) := by
          have := Nat.lt_log2_self (n := d)
          omega
      _ = 2 ^ (d.log2 + 1 + 1074 + 1) := by rw [← Nat.pow_add, ← Nat.pow_succ']
      _ ≤ 2 ^ (3 * k) := Nat.pow_le_pow_right (by decide) (by omega)
      _ ≤ 10 ^ k := two_pow_le_ten_pow k
  rw [nearest, if_neg (by omega), Int.neg_neg, Int.toNat_natCast]
  rw [← unit_eq] at hsmall
  exact ofRatio_of_small hsmall

/-- **What is answered at once** is the nearest number as well. -/
theorem ofDecimal_eq : ofDecimal negative d e = nearest negative d e := by
  rw [ofDecimal]
  split
  case isTrue hd =>
    rw [hd, nearest_of_zero]
  case isFalse hd =>
    split
    case isTrue he =>
      split
      case isTrue hlarge => exact (nearest_of_large (Nat.pos_of_ne_zero hd) hlarge).symm
      case isFalse =>
        rw [nearest, if_pos he]
        rfl
    case isFalse he =>
      split
      case isTrue hsmall => exact (nearest_of_small hsmall).symm
      case isFalse =>
        rw [nearest, if_neg he]
        rfl

/-! ## The nearest point of a grid -/

/-- The point `m * 10 ^ e`, as a fraction of steps. -/
theorem gridPoint_eq (negative : Bool) (m : Nat) (e : Int) :
    ∃ num den, 0 < den ∧ gridPoint m e = (4 * (num * unit), den) ∧
      nearest negative m e = ofRatio negative num den := by
  simp only [gridPoint, nearest, Nat.pow_eq]
  split
  · exact ⟨m * 10 ^ e.toNat, 1, Nat.one_pos, by rw [Nat.mul_left_comm _ 4], rfl⟩
  · exact ⟨m, 10 ^ (-e).toNat, Nat.pow_pos (by decide), by rw [Nat.mul_left_comm _ 4], rfl⟩

/-- Does a point of a grid lie in the interval of a number? -/
def hits (n : Nat) (e : Int) (m : Nat) : Bool :=
  (interval n).contains (gridPoint m e).1 (gridPoint m e).2

/-- **What a grid gives lies in the interval.** -/
theorem hits_of_nearestOnGrid {m : Nat} (h : nearestOnGrid n e = some m) :
    0 < m ∧ hits n e m = true := by
  simp only [nearestOnGrid] at h
  split at h
  case h_1 b a hb ha =>
    simp only [Option.ite_none_right_eq_some, Option.some.injEq] at hb ha
    obtain ⟨⟨hpos, hin⟩, rfl⟩ := hb
    obtain ⟨hin', rfl⟩ := ha
    have below := And.intro hpos hin
    have above := And.intro (Nat.succ_pos (4 * n * (gridPoint 1 e).2 / (gridPoint 1 e).1)) hin'
    split at h
    · exact Option.some.inj h ▸ below
    · split at h
      · exact Option.some.inj h ▸ above
      · split at h
        · exact Option.some.inj h ▸ below
        · exact Option.some.inj h ▸ above
  case h_2 b hb _ =>
    simp only [Option.ite_none_right_eq_some, Option.some.injEq] at hb
    obtain ⟨below, rfl⟩ := hb
    exact Option.some.inj h ▸ below
  case h_3 a _ =>
    simp only [Option.ite_none_right_eq_some, Option.some.injEq] at h
    obtain ⟨hin, rfl⟩ := h
    exact ⟨Nat.succ_pos _, hin⟩

/-- **A point that lies in the interval of a number is nearest to it.** -/
theorem nearest_of_hits {m : Nat} (h : Representable n) (hn : 0 < n) (hin : hits n e m = true) :
    nearest negative m e = .finite negative n := by
  obtain ⟨num, den, hden, hpoint, heq⟩ := gridPoint_eq negative m e
  rw [hits, hpoint] at hin
  rw [heq, ofRatio, roundQuotient_of_contains h hn hden hin, ofSteps, if_pos h.lt]

/-- Where a grid gives nothing, neither of the two points next to the number hits its interval. -/
theorem misses_of_nearestOnGrid {b : Nat} (hb : 4 * n * (gridPoint 1 e).2 / (gridPoint 1 e).1 = b)
    (h : nearestOnGrid n e = none) : (0 < b → hits n e b = false) ∧ hits n e (b + 1) = false := by
  simp only [nearestOnGrid, hb] at h
  split at h
  case h_1 =>
    split at h
    · cases h
    · split at h <;> cases h
  case h_2 => cases h
  case h_3 hlow =>
    rw [ite_eq_right_iff] at h hlow
    refine ⟨fun hpos => ?_, ?_⟩
    · by_contra hin
      cases hlow ⟨hpos, eq_true_of_ne_false hin⟩
    · by_contra hin
      cases h (eq_true_of_ne_false hin)

/-! ## Seventeen digits are enough -/

/-- Strictly inside, it does not matter whether the ends belong to an interval. -/
theorem Interval.contains_of_lt {i : Interval} {p q : Nat} (low : i.low * q < p)
    (high : p < i.high * q) : i.contains p q = true := by
  rw [Interval.contains]
  split
  · exact decide_eq_true ⟨low.le, high.le⟩
  · exact decide_eq_true ⟨low, high⟩

theorem gridPoint_mul (m : Nat) (e : Int) :
    gridPoint m e = (m * (gridPoint 1 e).1, (gridPoint 1 e).2) := by
  simp only [gridPoint]
  split <;> simp [Nat.mul_assoc]

theorem gridPoint_pos (e : Int) : 0 < (gridPoint 1 e).1 ∧ 0 < (gridPoint 1 e).2 := by
  have hunit : 0 < 4 * unit := by
    rw [unit_eq]
    exact Nat.mul_pos (by decide) (Nat.two_pow_pos _)
  simp only [gridPoint, Nat.pow_eq, Nat.one_mul]
  split
  · exact ⟨Nat.mul_pos (Nat.pow_pos (by decide)) hunit, Nat.one_pos⟩
  · exact ⟨hunit, Nat.pow_pos (by decide)⟩

/-- The point of a grid above a number hits its interval if it is not too far away. -/
theorem hits_above {m s : Nat} (hs : spareBits n = s)
    (above : 4 * n * (gridPoint 1 e).2 < m * (gridPoint 1 e).1)
    (close : m * (gridPoint 1 e).1 < 4 * n * (gridPoint 1 e).2 + 2 * (2 ^ s * (gridPoint 1 e).2)) :
    hits n e m = true := by
  have hlow : (interval n).low ≤ 4 * n := Nat.sub_le _ _
  have hhigh : (interval n).high = 4 * n + 2 * 2 ^ s := by simp only [interval, hs, Nat.pow_eq]
  rw [hits, gridPoint_mul m e]
  refine Interval.contains_of_lt (Nat.lt_of_le_of_lt (Nat.mul_le_mul_right _ hlow) above) ?_
  rw [hhigh, Nat.add_mul, Nat.mul_assoc 2]
  exact close

/-- The point of a grid below a number hits its interval if it is not too far away. -/
theorem hits_below {m s : Nat} (hs : spareBits n = s) (hpow : ¬ (0 < s ∧ n = 2 ^ n.log2))
    (large : 2 * (2 ^ s * (gridPoint 1 e).2) < 4 * n * (gridPoint 1 e).2)
    (below : m * (gridPoint 1 e).1 ≤ 4 * n * (gridPoint 1 e).2)
    (close : 4 * n * (gridPoint 1 e).2 < m * (gridPoint 1 e).1 + 2 * (2 ^ s * (gridPoint 1 e).2)) :
    hits n e m = true := by
  rw [hits, gridPoint_mul m e, interval_of_not_two_pow hs hpow]
  refine Interval.contains_of_lt ?_ ?_
  · simp only [Nat.sub_mul, Nat.mul_assoc 2]
    omega
  · simp only [Nat.add_mul, Nat.mul_assoc 2]
    omega

/-- **A grid whose points are close enough gives one.** -/
theorem exists_nearestOnGrid (h : Representable n) (hn : 0 < n)
    (close : (gridPoint 1 e).1 * 10 ^ 16 ≤ 4 * n * (gridPoint 1 e).2) :
    ∃ m, nearestOnGrid n e = some m := by
  obtain ⟨s, hs⟩ : ∃ s, spareBits n = s := ⟨_, rfl⟩
  obtain ⟨k, hk⟩ : ∃ k, n = k * 2 ^ s := exists_eq_mul_left_of_dvd (hs ▸ h.dvd)
  obtain ⟨hg, hd⟩ := gridPoint_pos e
  obtain ⟨b, hb⟩ : ∃ b, 4 * n * (gridPoint 1 e).2 / (gridPoint 1 e).1 = b := ⟨_, rfl⟩
  have hunit : 0 < 2 ^ s * (gridPoint 1 e).2 := Nat.mul_pos (Nat.two_pow_pos s) hd
  have hbelow : b * (gridPoint 1 e).1 ≤ 4 * n * (gridPoint 1 e).2 := hb ▸ Nat.div_mul_le_self _ _
  have habove : 4 * n * (gridPoint 1 e).2 < (b + 1) * (gridPoint 1 e).1 := by
    rw [← hb]
    exact Nat.lt_mul_of_div_lt (Nat.lt_succ_self _) hg
  have hvalue : 4 * n * (gridPoint 1 e).2 = 4 * (k * (2 ^ s * (gridPoint 1 e).2)) := by
    rw [hk]
    ring
  by_contra hnot
  have hnone : nearestOnGrid n e = none :=
    Option.eq_none_iff_forall_ne_some.2 fun m hm => hnot ⟨m, hm⟩
  obtain ⟨hmiss, hmiss'⟩ := misses_of_nearestOnGrid hb hnone
  have hfar : 4 * n * (gridPoint 1 e).2 + 2 * (2 ^ s * (gridPoint 1 e).2) ≤
      (b + 1) * (gridPoint 1 e).1 := by
    by_contra hlt
    rw [hits_above hs habove (by omega)] at hmiss'
    cases hmiss'
  rw [Nat.add_mul, Nat.one_mul] at hfar habove
  by_cases hpow : 0 < s ∧ n = 2 ^ n.log2
  · -- at a power of two the next point above is close
    have hk52 : k = 2 ^ 52 := by
      refine Nat.eq_of_mul_eq_mul_right (Nat.two_pow_pos s) ?_
      rw [← hk, ← Nat.pow_add, ← log2_of_spareBits hs hpow.1]
      exact hpow.2
    rw [hk52] at hvalue
    omega
  · have hpos : 0 < k := Nat.pos_of_ne_zero fun h0 => by simp [hk, h0] at hn
    have hk53 : k < 2 ^ 53 := lt_of_eq_mul hs hk
    have hleast : 1 * (2 ^ s * (gridPoint 1 e).2) ≤ k * (2 ^ s * (gridPoint 1 e).2) :=
      Nat.mul_le_mul_right _ hpos
    have hmost : k * (2 ^ s * (gridPoint 1 e).2) ≤ 2 ^ 53 * (2 ^ s * (gridPoint 1 e).2) :=
      Nat.mul_le_mul_right _ hk53.le
    obtain rfl | hb0 := Nat.eq_zero_or_pos b
    · omega
    · have hfar' : b * (gridPoint 1 e).1 + 2 * (2 ^ s * (gridPoint 1 e).2) ≤
          4 * n * (gridPoint 1 e).2 := by
        by_contra hlt
        have := hmiss hb0
        rw [hits_below hs hpow (by omega) hbelow (by omega)] at this
        cases this
      omega

/-! ## The leading digit -/

/-- Is a power of ten no more than a number of steps? -/
def Reaches (n : Nat) (e : Int) : Prop := (gridPoint 1 e).1 ≤ 4 * n * (gridPoint 1 e).2

theorem reaches_iff : Reaches n e ↔
    if 0 ≤ e then 10 ^ e.toNat * unit ≤ n else unit ≤ n * 10 ^ (-e).toNat := by
  simp only [Reaches, gridPoint, Nat.pow_eq, Nat.one_mul]
  split
  · rw [Nat.mul_left_comm, Nat.mul_one]
    exact Nat.mul_le_mul_left_iff (by decide)
  · rw [Nat.mul_assoc]
    exact Nat.mul_le_mul_left_iff (by decide)

theorem gridPoint_sub (e : Int) (k : Nat) :
    (gridPoint 1 (e - k)).1 * 10 ^ k * (gridPoint 1 e).2 =
      (gridPoint 1 e).1 * (gridPoint 1 (e - k)).2 := by
  obtain ⟨u, hu⟩ : ∃ u, 4 * unit = u := ⟨_, rfl⟩
  simp only [gridPoint, Nat.pow_eq, Nat.one_mul, hu]
  obtain ⟨a, rfl, ha⟩ | ⟨a, b, rfl, rfl, hb⟩ | ⟨a, rfl⟩ : (∃ a : Nat, e = -a ∧ 0 < a) ∨
      (∃ a b : Nat, e = a ∧ k = a + b ∧ 0 < b) ∨ ∃ a : Nat, e = (k + a : Nat) := by
    obtain he | he | he : e < 0 ∨ (0 ≤ e ∧ e < k) ∨ k ≤ e := by omega
    · exact .inl ⟨e.natAbs, by omega, by omega⟩
    · exact .inr (.inl ⟨e.toNat, k - e.toNat, by omega, by omega, by omega⟩)
    · exact .inr (.inr ⟨e.toNat - k, by omega⟩)
  · rw [if_neg (by omega), if_neg (by omega), show (-(-(a : Int) - k)).toNat = k + a by omega,
      show (-(-(a : Int))).toNat = a by omega]
    ring
  · rw [if_neg (by omega), if_pos (by omega),
      show (-((a : Int) - (a + b : Nat))).toNat = b by omega, Int.toNat_natCast]
    ring
  · rw [if_pos (by omega), if_pos (by omega), show (((k + a : Nat) : Int) - k).toNat = a by omega,
      Int.toNat_natCast]
    ring

/-- `Reaches`, as the search for the leading digit decides it. -/
def reachesAt (n : Nat) (e : Int) : Bool :=
  if 0 ≤ e then decide (Nat.pow 10 e.toNat * unit ≤ n)
  else decide (unit ≤ n * Nat.pow 10 (-e).toNat)

theorem reaches_of_reachesAt (h : reachesAt n e = true) : Reaches n e := by
  rw [reaches_iff]
  rw [reachesAt] at h
  split at h
  case isTrue he => exact (if_pos he).mpr (of_decide_eq_true h)
  case isFalse he => exact (if_neg he).mpr (of_decide_eq_true h)

/-- The exponent of the leading digit, estimated from the binary length. -/
def estimate (k : Nat) : Int := ((k : Int) - 1074) * 30103 / 100000

theorem leadingExponent_eq : leadingExponent n =
    if reachesAt n (estimate n.log2 + 1) then estimate n.log2 + 1
    else if reachesAt n (estimate n.log2) then estimate n.log2
    else estimate n.log2 - 1 := rfl

/-- The estimate is too high by one at most. -/
theorem reachesAt_estimate : ∀ k < 2098, reachesAt (Nat.pow 2 k) (estimate k - 1) = true := by
  -- over a list the search is linear: a bounded quantifier nests its proofs of the bound
  have h : ∀ k ∈ List.range 2098, reachesAt (Nat.pow 2 k) (estimate k - 1) = true := by
    decide +kernel
  exact fun k hk => h k (List.mem_range.2 hk)

theorem Reaches.mono {m : Nat} (h : Reaches m e) (hle : m ≤ n) : Reaches n e :=
  Nat.le_trans h (Nat.mul_le_mul_right _ (Nat.mul_le_mul_left _ hle))

/-- **The leading digit** of a number is that of a power of ten that is no more than the number. -/
theorem reaches_leadingExponent (h : Representable n) (hn : 0 < n) :
    Reaches n (leadingExponent n) := by
  rw [leadingExponent_eq]
  split
  case isTrue h1 => exact reaches_of_reachesAt h1
  case isFalse =>
    split
    case isTrue h2 => exact reaches_of_reachesAt h2
    case isFalse =>
      have hlog : n.log2 < 2098 := (Nat.log2_lt (by omega)).2 (overflow_eq ▸ h.lt)
      have hle : Nat.pow 2 n.log2 ≤ n := by
        rw [Nat.pow_eq]
        exact Nat.log2_self_le (by omega)
      exact (reaches_of_reachesAt (reachesAt_estimate _ hlog)).mono hle

/-! ## The shortest decimal -/

theorem nearestOnGrid_of_shortestFrom {count : Nat} {x : Decimal}
    (h : shortestFrom n count e = some x) : nearestOnGrid n x.exponent = some x.digits := by
  induction count generalizing e with
  | zero => cases h
  | succ count ih =>
    rw [shortestFrom] at h
    split at h
    case h_1 m hm => exact Option.some.inj h ▸ hm
    case h_2 => exact ih h

theorem exists_shortestFrom {count j : Nat} (hj : j < count)
    (h : ∃ m, nearestOnGrid n (e - j) = some m) : ∃ x, shortestFrom n count e = some x := by
  induction count generalizing e j with
  | zero => omega
  | succ count ih =>
    rw [shortestFrom]
    split
    case h_1 m hm => exact ⟨_, rfl⟩
    case h_2 hnone =>
      obtain _ | j := j
      · obtain ⟨m, hm⟩ := h
        rw [show e - (0 : Nat) = e by omega, hnone] at hm
        cases hm
      · exact ih (Nat.lt_of_succ_lt_succ hj) (by rwa [show e - 1 - j = e - (j + 1 : Nat) by omega])

/-- Without its trailing zeros, a decimal stands for the same number. -/
theorem nearest_dropZeros (k : Nat) (x : Decimal) :
    nearest negative (dropZeros k x).digits (dropZeros k x).exponent =
      nearest negative x.digits x.exponent := by
  induction k generalizing x with
  | zero => rfl
  | succ k ih =>
    rw [dropZeros]
    split
    case isTrue h =>
      rw [ih, ← nearest_mul_ten, Nat.div_mul_cancel (Nat.dvd_of_mod_eq_zero h.2)]
    case isFalse => rfl

/-- The seventeenth digit is fine enough. -/
theorem exists_nearestOnGrid_seventeen (h : Representable n) (hn : 0 < n) :
    ∃ m, nearestOnGrid n (leadingExponent n + 1 - (17 : Nat)) = some m := by
  have hreaches := reaches_leadingExponent h hn
  have hsub := gridPoint_sub (leadingExponent n) 16
  rw [Reaches] at hreaches
  rw [show leadingExponent n + 1 - (17 : Nat) = leadingExponent n - (16 : Nat) by omega]
  refine exists_nearestOnGrid h hn
    (Nat.le_of_mul_le_mul_right ?_ (gridPoint_pos (leadingExponent n)).2)
  calc _ = _ := hsub
    _ ≤ 4 * n * (gridPoint 1 (leadingExponent n)).2 *
        (gridPoint 1 (leadingExponent n - (16 : Nat))).2 := Nat.mul_le_mul_right _ hreaches
    _ = _ := Nat.mul_right_comm _ _ _

/-- **The shortest decimal of a number reads back.** -/
theorem ofDecimal_shortest (h : Representable n) (hn : 0 < n) :
    ofDecimal negative (shortest n).digits (shortest n).exponent = .finite negative n := by
  obtain ⟨x, hx⟩ := exists_shortestFrom (show 17 < 18 by decide)
    (exists_nearestOnGrid_seventeen h hn)
  have hhits := (hits_of_nearestOnGrid (nearestOnGrid_of_shortestFrom hx)).2
  rw [ofDecimal_eq, shortest, nearest_dropZeros, hx, Option.getD_some, nearest_of_hits h hn hhits]

theorem digits_dropZeros_pos (k : Nat) {x : Decimal} (h : 0 < x.digits) :
    0 < (dropZeros k x).digits := by
  induction k generalizing x with
  | zero => exact h
  | succ k ih =>
    rw [dropZeros]
    split
    case isTrue hzero => exact ih (Nat.div_pos (by omega) (by decide))
    case isFalse => exact h

/-- What is written has a digit that is not zero, unless it is the whole number zero. -/
theorem shortest_digits (n : Nat) : 0 < (shortest n).digits ∨ shortest n = ⟨0, 0⟩ := by
  rw [shortest]
  cases hx : shortestFrom n 18 (leadingExponent n + 1) with
  | some x =>
    have := (hits_of_nearestOnGrid (nearestOnGrid_of_shortestFrom hx)).1
    exact .inl (digits_dropZeros_pos 20 this)
  | none => exact .inr rfl

/-- **A number that 53 bits can hold.** -/
def IsExact : Binary64 → Prop
  | .finite _ n => Representable n
  | _ => True

end Binary64
end Conventions
