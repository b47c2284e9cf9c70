import Conventions.Json.Reader
import Conventions.Json.Writer
import Conventions.Proofs.Number.Shortest

/-!
# Proofs/Json/Numbers — a number is read as it was written

A number ends where a character follows that cannot go on with it (`EndsNumber`). A whole number is
then read as it was written (`number_toString`), and a decimal as the binary64 number nearest to it
(`number_decimalText`), whether it was written with a point or with an exponent.
-/

namespace Conventions
namespace Json

variable {rest : List Char} {negative : Bool}

/-! ## Digits -/

/-- **The end of a number**: nothing follows that could go on with it. -/
def EndsNumber (rest : List Char) : Prop :=
  ∀ c ∈ rest.head?, c.isDigit = false ∧ c ≠ '.' ∧ c ≠ 'e' ∧ c ≠ 'E'

theorem digitsOf_append {ds : List Char} (hds : ∀ d ∈ ds, d.isDigit = true)
    (hrest : ∀ c ∈ rest.head?, c.isDigit = false) : digitsOf (ds ++ rest) = (ds, rest) := by
  have hnone : rest.takeWhile Char.isDigit = [] ∧ rest.dropWhile Char.isDigit = rest := by
    cases rest with
    | nil => exact ⟨rfl, rfl⟩
    | cons c rest =>
      have hc : c.isDigit = false := hrest c rfl
      simp [hc]
  rw [digitsOf, List.takeWhile_append_of_pos hds, List.dropWhile_append_of_pos hds, hnone.1,
    hnone.2, List.append_nil]

theorem digitsValue_eq (ds : List Char) : digitsValue ds = Nat.ofDigitChars 10 ds 0 := by
  simp only [digitsValue, Nat.ofDigitChars, Nat.mul_comm]
  rfl

@[simp] theorem digitsValue_toDigits (n : Nat) : digitsValue (Nat.toDigits 10 n) = n := by
  rw [digitsValue_eq, Nat.ofDigitChars_ten_toDigits]

theorem digitsValue_append_zeros (ds : List Char) (k : Nat) :
    digitsValue (ds ++ List.replicate k '0') = digitsValue ds * 10 ^ k := by
  rw [digitsValue_eq, digitsValue_eq, Nat.ofDigitChars_append, Nat.ofDigitChars_replicate_zero,
    Nat.mul_comm]

theorem digitsValue_zeros_append (ds : List Char) (k : Nat) :
    digitsValue (List.replicate k '0' ++ ds) = digitsValue ds := by
  rw [digitsValue_eq, digitsValue_eq, Nat.ofDigitChars_append, Nat.ofDigitChars_replicate_zero,
    Nat.mul_zero]

theorem isDigit_of_mem_toDigits {n : Nat} {c : Char} (h : c ∈ Nat.toDigits 10 n) :
    c.isDigit = true :=
  Nat.isDigit_of_mem_toDigits (by decide) (by decide) h

/-- A number other than zero does not begin with a zero. -/
theorem exists_toDigits_eq (n : Nat) : ∃ d ds, Nat.toDigits 10 n = d :: ds :=
  List.exists_cons_of_ne_nil Nat.toDigits_ne_nil

theorem head_toDigits_ne {n : Nat} (hn : 0 < n) : (Nat.toDigits 10 n).head? ≠ some '0' := by
  induction n using Nat.strongRecOn with
  | ind n ih =>
    obtain hlt | hge := Nat.lt_or_ge n 10
    · rw [Nat.toDigits_of_lt_base hlt]
      intro h
      have := Nat.digitChar_eq_zero.1 (Option.some.inj h)
      omega
    · have hhead := ih (n / 10) (by omega) (by omega)
      obtain ⟨d, ds, hds⟩ := exists_toDigits_eq (n / 10)
      rw [Nat.toDigits_of_base_le (by decide) hge, hds]
      rwa [hds] at hhead

theorem isDigit_point (cs : List Char) : ∀ c ∈ ('.' :: cs).head?, c.isDigit = false :=
  fun _ hc => Option.some.inj hc ▸ rfl

/-- Digits are a whole part unless they begin with an idle zero. -/
theorem wholePart?_append {ds : List Char} (hne : ds ≠ []) (hds : ∀ d ∈ ds, d.isDigit = true)
    (hzero : ds.head? ≠ some '0' ∨ ds = ['0']) (hrest : ∀ c ∈ rest.head?, c.isDigit = false) :
    wholePart? (ds ++ rest) = some (ds, rest) := by
  obtain hzero | rfl := hzero
  · obtain ⟨d, ds, rfl⟩ := List.exists_cons_of_ne_nil hne
    rw [List.cons_append, wholePart?, ← List.cons_append, digitsOf_append hds hrest]
    · rintro _ heq
      obtain ⟨rfl, -⟩ := List.cons.inj heq
      exact hzero rfl
  · rfl

/-! ## The parts of a number -/

/-- The sign of a number. -/
def sign (negative : Bool) : List Char := if negative then ['-'] else []

/-- A number after its sign. -/
def unsigned (negative : Bool) (cs : List Char) : Except JsonFault (Json × List Char) :=
  match wholePart? cs with
  | none => .error .expectedValue
  | some (whole, rest) =>
    let (frac, rest₁, isFloat) := match fraction? rest with
      | some (ds, r) => (ds, r, true)
      | none => ([], rest, false)
    let (exp, rest₂, isFloat) := match exponent? rest₁ with
      | some (e, r) => (e, r, true)
      | none => ((0 : Int), rest₁, isFloat)
    let value := digitsValue (whole ++ frac)
    if isFloat then .ok (.float (Binary64.ofDecimal negative value (exp - frac.length)), rest₂)
    else if maxDigits < whole.length then .error .tooManyDigits
    else .ok (.int (if negative then -(value : Int) else value), rest₂)

theorem number_sign {cs : List Char} (h : cs.head? ≠ some '-') :
    number (sign negative ++ cs) = unsigned negative cs := by
  cases negative with
  | true =>
    rw [sign, if_pos rfl, List.singleton_append]
    unfold number unsigned
    rfl
  | false =>
    rw [sign, if_neg (by decide), List.nil_append]
    unfold number unsigned
    split
    case h_1 negative cs' heq =>
      split at heq
      case h_1 => exact absurd rfl h
      case h_2 =>
        obtain ⟨rfl, rfl⟩ := Prod.mk.inj heq
        rfl

theorem EndsNumber.fraction? (h : EndsNumber rest) : Json.fraction? rest = none := by
  unfold Json.fraction?
  split
  case h_1 => exact absurd rfl (h '.' rfl).2.1
  case h_2 => rfl

theorem EndsNumber.exponent? (h : EndsNumber rest) : Json.exponent? rest = none := by
  unfold Json.exponent?
  split
  case h_1 c cs =>
    obtain ⟨-, -, he, hE⟩ := h c rfl
    rw [if_neg (by simp [he, hE])]
  case h_2 => rfl

theorem EndsNumber.isDigit (h : EndsNumber rest) : ∀ c ∈ rest.head?, c.isDigit = false :=
  fun c hc => (h c hc).1

/-- Digits without an end are a whole number, unless they are too many. -/
theorem unsigned_whole {ds : List Char} (hds : wholePart? (ds ++ rest) = some (ds, rest))
    (h : EndsNumber rest) : unsigned negative (ds ++ rest) =
      if maxDigits < ds.length then .error .tooManyDigits
      else .ok (.int (if negative then -(digitsValue ds : Int) else digitsValue ds), rest) := by
  rw [unsigned, hds]
  simp only [h.fraction?, h.exponent?, List.append_nil, Bool.false_eq_true, if_false]

theorem fraction?_append {fs : List Char} (hne : fs ≠ []) (hfs : ∀ d ∈ fs, d.isDigit = true)
    (hrest : ∀ c ∈ rest.head?, c.isDigit = false) :
    Json.fraction? ('.' :: (fs ++ rest)) = some (fs, rest) := by
  rw [Json.fraction?, digitsOf_append hfs hrest]
  split
  case h_1 heq => exact absurd (Prod.mk.inj heq).1 hne
  case h_2 => rfl

/-- Digits with a fraction. -/
theorem unsigned_fraction (negative : Bool) {ds fs : List Char}
    (hds : wholePart? (ds ++ '.' :: (fs ++ rest)) = some (ds, '.' :: (fs ++ rest))) (hne : fs ≠ [])
    (hfs : ∀ d ∈ fs, d.isDigit = true) (h : EndsNumber rest) :
    unsigned negative (ds ++ '.' :: (fs ++ rest)) =
      .ok (.float (.ofDecimal negative (digitsValue (ds ++ fs)) (-fs.length)), rest) := by
  rw [unsigned, hds]
  simp only [fraction?_append hne hfs h.isDigit, h.exponent?, if_true, Int.zero_sub]

/-- An exponent of two digits at least. -/
def exponentText (e : Int) : List Char :=
  'e' :: (if e < 0 then '-' else '+') ::
    ((if e.natAbs < 10 then ['0'] else []) ++ Nat.toDigits 10 e.natAbs)

theorem exponent?_exponentText (e : Int) (h : EndsNumber rest) :
    Json.exponent? (exponentText e ++ rest) = some (e, rest) := by
  obtain ⟨ds, hds⟩ : ∃ ds, (if e.natAbs < 10 then ['0'] else []) ++ Nat.toDigits 10 e.natAbs = ds :=
    ⟨_, rfl⟩
  have hvalue : digitsValue ds = e.natAbs := by
    rw [← hds]
    split
    · exact (digitsValue_zeros_append _ 1).trans (digitsValue_toDigits _)
    · exact digitsValue_toDigits _
  have hdigits : ∀ d ∈ ds, d.isDigit = true := by
    intro d hd
    rw [← hds] at hd
    obtain hd | hd := List.mem_append.1 hd
    · split at hd
      · exact List.mem_singleton.1 hd ▸ rfl
      · cases hd
    · exact isDigit_of_mem_toDigits hd
  have hne : ds ≠ [] := by
    rw [← hds]
    exact List.append_ne_nil_of_right_ne_nil _ Nat.toDigits_ne_nil
  have hread : digitsOf (ds ++ rest) = (ds, rest) := digitsOf_append hdigits h.isDigit
  rw [exponentText, hds]
  split
  case isTrue he =>
    simp only [List.cons_append, Json.exponent?, hread, true_or, if_true, hvalue]
    rw [show -(e.natAbs : Int) = e by omega]
  case isFalse he =>
    simp only [List.cons_append, Json.exponent?, hread, true_or, if_true, hvalue]
    rw [show (e.natAbs : Int) = e by omega]
    rfl

/-- One digit, a fraction that may be missing, and an exponent. -/
theorem unsigned_exponent {d : Char} {fs : List Char} (e : Int) (hd : d.isDigit = true)
    (hfs : ∀ d ∈ fs, d.isDigit = true) (h : EndsNumber rest) :
    unsigned negative (d :: ((if fs = [] then [] else '.' :: fs) ++ (exponentText e ++ rest))) =
      .ok (.float (.ofDecimal negative (digitsValue (d :: fs)) (e - fs.length)), rest) := by
  have hexponent : ∀ c ∈ (exponentText e ++ rest).head?, c.isDigit = false := by
    intro c hc
    exact Option.some.inj hc ▸ rfl
  have hwhole : ∀ rest : List Char, (∀ c ∈ rest.head?, c.isDigit = false) →
      wholePart? (d :: rest) = some ([d], rest) := by
    intro rest hrest
    refine wholePart?_append (List.cons_ne_nil d []) (by simpa using hd) ?_ hrest
    by_cases hzero : d = '0'
    · exact .inr (by rw [hzero])
    · exact .inl fun h => hzero (Option.some.inj h)
  by_cases hnil : fs = []
  · have hnone : Json.fraction? (exponentText e ++ rest) = none := rfl
    rw [if_pos hnil, List.nil_append, hnil, unsigned, hwhole _ hexponent]
    simp only [hnone, exponent?_exponentText e h, if_true, List.append_nil]
  · have hsome : Json.fraction? ('.' :: (fs ++ (exponentText e ++ rest))) =
        some (fs, exponentText e ++ rest) := fraction?_append hnil hfs hexponent
    rw [if_neg hnil, List.cons_append, unsigned, hwhole _ (isDigit_point _)]
    simp only [hsome, exponent?_exponentText e h, if_true, List.singleton_append]

/-! ## Whole numbers -/

theorem toDigits_head_or (n : Nat) :
    (Nat.toDigits 10 n).head? ≠ some '0' ∨ Nat.toDigits 10 n = ['0'] := by
  obtain rfl | hn := Nat.eq_zero_or_pos n
  · exact .inr rfl
  · exact .inl (head_toDigits_ne hn)

theorem wholePart?_toDigits (n : Nat) (h : ∀ c ∈ rest.head?, c.isDigit = false) :
    wholePart? (Nat.toDigits 10 n ++ rest) = some (Nat.toDigits 10 n, rest) :=
  wholePart?_append Nat.toDigits_ne_nil (fun _ => isDigit_of_mem_toDigits) (toDigits_head_or n) h

theorem toList_toString (i : Int) :
    (toString i).toList = sign (decide (i < 0)) ++ Nat.toDigits 10 i.natAbs := by
  cases i with
  | ofNat n => exact Nat.toList_repr
  | negSucc n =>
    have htext : toString (Int.negSucc n) = "-" ++ (n + 1).repr := rfl
    rw [htext, String.toList_append, Nat.toList_repr]
    simp [sign, Int.negSucc_lt_zero]

/-- **A whole number is read as it was written**, unless it has too many digits. -/
theorem number_toString (i : Int) (h : EndsNumber rest) :
    number ((toString i).toList ++ rest) =
      if maxDigits < (Nat.toDigits 10 i.natAbs).length then .error .tooManyDigits
      else .ok (.int i, rest) := by
  have hminus : (Nat.toDigits 10 i.natAbs ++ rest).head? ≠ some '-' := by
    obtain ⟨d, ds, hds⟩ := exists_toDigits_eq i.natAbs
    rw [hds]
    intro heq
    have : d.isDigit = true := isDigit_of_mem_toDigits (hds ▸ List.mem_cons_self)
    rw [Option.some.inj heq] at this
    cases this
  rw [toList_toString, List.append_assoc, number_sign hminus,
    unsigned_whole (wholePart?_toDigits _ h.isDigit) h, digitsValue_toDigits]
  split
  · rfl
  · congr 3
    split
    case isTrue hneg => have := of_decide_eq_true hneg; omega
    case isFalse hneg => have := of_decide_eq_false (Bool.eq_false_of_not_eq_true hneg); omega

/-! ## Decimals -/

open Binary64 (ofDecimal ofDecimal_eq nearest_mul_pow decimalText)

section Decimal

variable {x : Decimal}

theorem unsigned_large (hx : 0 < x.digits ∨ x = ⟨0, 0⟩) (hexp : 0 ≤ x.exponent)
    (h : EndsNumber rest) :
    unsigned negative (Nat.toDigits 10 x.digits ++ List.replicate x.exponent.toNat '0' ++
      '.' :: (['0'] ++ rest)) = .ok (.float (ofDecimal negative x.digits x.exponent), rest) := by
  obtain ⟨k, hk⟩ := Int.eq_ofNat_of_zero_le hexp
  have hdigits : ∀ d ∈ Nat.toDigits 10 x.digits ++ List.replicate k '0', d.isDigit = true := by
    intro d hd
    obtain hd | hd := List.mem_append.1 hd
    · exact isDigit_of_mem_toDigits hd
    · exact List.eq_of_mem_replicate hd ▸ rfl
  have hhead : (Nat.toDigits 10 x.digits ++ List.replicate k '0').head? ≠ some '0' ∨
      Nat.toDigits 10 x.digits ++ List.replicate k '0' = ['0'] := by
    obtain hpos | rfl := hx
    · have := head_toDigits_ne hpos
      obtain ⟨d, ds, hds⟩ := exists_toDigits_eq x.digits
      rw [hds] at this ⊢
      exact .inl this
    · obtain rfl : k = 0 := by simpa using hk.symm
      exact .inr rfl
  have hwhole := wholePart?_append (List.append_ne_nil_of_left_ne_nil Nat.toDigits_ne_nil _) hdigits
    hhead (isDigit_point (['0'] ++ rest))
  rw [hk, Int.toNat_natCast, unsigned_fraction negative hwhole (by simp) (by simp) h,
    List.append_assoc, ← List.replicate_succ', digitsValue_append_zeros, digitsValue_toDigits,
    ofDecimal_eq, nearest_mul_pow, ofDecimal_eq]
  congr 4
  simp only [List.length_singleton]
  omega

theorem unsigned_inside (negative : Bool) (hx : 0 < x.digits) (k : Nat) (hk : 0 < k)
    (hlt : k < (Nat.toDigits 10 x.digits).length)
    (hexp : (Nat.toDigits 10 x.digits).length + x.exponent = k) (h : EndsNumber rest) :
    unsigned negative ((Nat.toDigits 10 x.digits).take k ++
      '.' :: ((Nat.toDigits 10 x.digits).drop k ++ rest)) =
        .ok (.float (ofDecimal negative x.digits x.exponent), rest) := by
  obtain ⟨ds, hds⟩ : ∃ ds, Nat.toDigits 10 x.digits = ds := ⟨_, rfl⟩
  have hdigits : ∀ d ∈ ds, d.isDigit = true := fun d hd => isDigit_of_mem_toDigits (hds ▸ hd)
  have hhead := head_toDigits_ne hx
  have hvalue := digitsValue_toDigits x.digits
  rw [hds] at hlt hexp hhead hvalue ⊢
  have hfront : (ds.take k).head? ≠ some '0' := by
    rwa [List.head?_take, if_neg (by omega)]
  have hne : ds.take k ≠ [] := by
    intro h0
    have := congrArg List.length h0
    simp only [List.length_take, List.length_nil] at this
    omega
  have hback : ds.drop k ≠ [] := by
    intro h0
    have := congrArg List.length h0
    simp only [List.length_drop, List.length_nil] at this
    omega
  have hwhole := wholePart?_append hne (fun d hd => hdigits d (List.mem_of_mem_take hd))
    (.inl hfront) (isDigit_point (ds.drop k ++ rest))
  rw [unsigned_fraction negative hwhole hback (fun d hd => hdigits d (List.mem_of_mem_drop hd)) h,
    List.take_append_drop, hvalue]
  congr 4
  simp only [List.length_drop]
  omega

theorem unsigned_small (negative : Bool) (x : Decimal) (k : Nat)
    (hexp : (Nat.toDigits 10 x.digits).length + x.exponent = -(k : Int)) (h : EndsNumber rest) :
    unsigned negative ('0' :: '.' :: ((List.replicate k '0' ++ Nat.toDigits 10 x.digits) ++ rest)) =
      .ok (.float (ofDecimal negative x.digits x.exponent), rest) := by
  have hdigits : ∀ d ∈ List.replicate k '0' ++ Nat.toDigits 10 x.digits, d.isDigit = true := by
    intro d hd
    obtain hd | hd := List.mem_append.1 hd
    · exact List.eq_of_mem_replicate hd ▸ rfl
    · exact isDigit_of_mem_toDigits hd
  have hzeros : ['0'] ++ (List.replicate k '0' ++ Nat.toDigits 10 x.digits) =
      List.replicate (k + 1) '0' ++ Nat.toDigits 10 x.digits := rfl
  have hvalue := digitsValue_zeros_append (Nat.toDigits 10 x.digits) (k + 1)
  have := unsigned_fraction negative (show wholePart? (['0'] ++ _) = some (['0'], _) from rfl)
    (List.append_ne_nil_of_right_ne_nil _ Nat.toDigits_ne_nil) hdigits h
  rw [List.singleton_append] at this
  rw [this, hzeros, hvalue, digitsValue_toDigits]
  congr 4
  simp only [List.length_append, List.length_replicate]
  omega

theorem unsigned_scientific (negative : Bool) {d : Char} {fs : List Char}
    (hds : Nat.toDigits 10 x.digits = d :: fs) (h : EndsNumber rest) :
    unsigned negative (d :: ((if fs = [] then [] else '.' :: fs) ++
      (exponentText ((d :: fs).length + x.exponent - 1) ++ rest))) =
        .ok (.float (ofDecimal negative x.digits x.exponent), rest) := by
  have hdigits : ∀ c ∈ d :: fs, c.isDigit = true := fun c hc =>
    isDigit_of_mem_toDigits (hds ▸ hc)
  rw [unsigned_exponent _ (hdigits d List.mem_cons_self)
    (fun c hc => hdigits c (List.mem_cons_of_mem _ hc)) h, ← hds, digitsValue_toDigits, hds]
  congr 4
  simp only [List.length_cons]
  omega

/-- An exponent has two digits at least. -/
theorem toList_padded (k : Nat) :
    (if (toString k).length < 2 then "0" ++ toString k else toString k).toList =
      (if k < 10 then ['0'] else []) ++ Nat.toDigits 10 k := by
  have hlength : (toString k).length < 2 ↔ k < 10 := by
    have := Nat.length_repr_le_iff (n := k) (k := 1) (by decide)
    rw [Nat.toString_eq_repr]
    omega
  by_cases hk : k < 10
  · rw [if_pos (hlength.2 hk), if_pos hk, String.toList_append, Nat.toString_eq_repr,
      Nat.toList_repr]
    simp
  · rw [if_neg (mt hlength.1 hk), if_neg hk, Nat.toString_eq_repr, Nat.toList_repr,
      List.nil_append]

/-- **A decimal is read as the number nearest to it**, however it was written. -/
theorem unsigned_decimalText (negative : Bool) (hx : 0 < x.digits ∨ x = ⟨0, 0⟩)
    (h : EndsNumber rest) :
    unsigned negative ((decimalText x).toList ++ rest) =
      .ok (.float (ofDecimal negative x.digits x.exponent), rest) := by
  have hdigits : (toString x.digits).toList = Nat.toDigits 10 x.digits := Nat.toList_repr
  rw [decimalText]
  simp only [hdigits]
  split
  case isTrue hrange =>
    split
    case isTrue hexp =>
      simpa using unsigned_large hx hexp h
    case isFalse hexp =>
      split
      case isTrue hpoint =>
        have hpos : 0 < x.digits := hx.resolve_right fun h0 => hexp (by simp [h0])
        have := unsigned_inside negative hpos
          ((Nat.toDigits 10 x.digits).length + x.exponent).toNat (by omega) (by omega) (by omega) h
        simpa using this
      case isFalse hpoint =>
        have := unsigned_small negative x
          (-((Nat.toDigits 10 x.digits).length + x.exponent)).toNat (by omega) h
        simpa using this
  case isFalse hrange =>
    obtain ⟨d, fs, hds⟩ := exists_toDigits_eq x.digits
    have := unsigned_scientific negative hds h
    rw [← this, hds]
    congr 1
    simp only [String.toList_append]
    rw [toList_padded]
    obtain ⟨e, he⟩ : ∃ e : Int, ((d :: fs).length : Int) + x.exponent - 1 = e := ⟨_, rfl⟩
    rw [he, exponentText]
    by_cases hneg : e < 0
    · cases fs <;> simp [hneg]
    · cases fs <;> simp [hneg]

end Decimal

/-! ## Binary64 numbers -/

/-- **What is read for a binary64 number**: the number itself, if it is one (`rereadNumber_eq`). -/
def rereadNumber : Binary64 → Binary64
  | .finite negative (n + 1) =>
    ofDecimal negative (Binary64.shortest (n + 1)).digits (Binary64.shortest (n + 1)).exponent
  | x => x

theorem rereadNumber_eq {x : Binary64} (h : x.IsExact) : rereadNumber x = x := by
  unfold rereadNumber
  split
  case h_1 negative n => exact Binary64.ofDecimal_shortest h (Nat.succ_pos n)
  case h_2 => rfl

theorem isDigit_of_wholePart? {cs : List Char} (h : wholePart? cs ≠ none) :
    ∃ c, cs.head? = some c ∧ c.isDigit = true := by
  cases cs with
  | nil => exact absurd rfl h
  | cons c cs =>
    refine ⟨c, rfl, ?_⟩
    by_contra hc
    have hempty : digitsOf (c :: cs) = ([], c :: cs) := by
      rw [digitsOf, List.takeWhile_cons_of_neg hc, List.dropWhile_cons_of_neg hc]
    rw [wholePart?, hempty] at h
    · exact h rfl
    · rintro _ heq
      rw [(List.cons.inj heq).1] at hc
      exact hc rfl

/-- What is read after a sign begins with a digit. -/
theorem isDigit_of_unsigned {cs : List Char} {r : Json × List Char}
    (h : unsigned negative cs = .ok r) : ∃ c, cs.head? = some c ∧ c.isDigit = true := by
  refine isDigit_of_wholePart? fun hnone => ?_
  rw [unsigned, hnone] at h
  cases h

theorem toList_text (negative : Bool) (n : Nat) : ∃ x : Decimal,
    (0 < x.digits ∨ x = ⟨0, 0⟩) ∧
      (Binary64.finite negative n).text.toList = sign negative ++ (decimalText x).toList ∧
        ofDecimal negative x.digits x.exponent = rereadNumber (.finite negative n) := by
  cases n with
  | zero =>
    refine ⟨⟨0, 0⟩, .inr rfl, ?_, ?_⟩
    · cases negative <;> decide
    · rw [Binary64.ofDecimal, if_pos rfl, rereadNumber]
      simp
  | succ n =>
    refine ⟨Binary64.shortest (n + 1), Binary64.shortest_digits (n + 1), ?_, rfl⟩
    rw [Binary64.text, String.toList_append]
    · cases negative <;> rfl
    · simp

/-- **A finite number is read from its text.** -/
theorem number_text (n : Nat) (h : EndsNumber rest) :
    number ((Binary64.finite negative n).text.toList ++ rest) =
      .ok (.float (rereadNumber (.finite negative n)), rest) := by
  obtain ⟨x, hx, htext, hread⟩ := toList_text negative n
  have hunsigned := unsigned_decimalText negative hx h
  obtain ⟨c, hc, hdigit⟩ := isDigit_of_unsigned hunsigned
  have hminus : ((decimalText x).toList ++ rest).head? ≠ some '-' := by
    rw [hc]
    intro heq
    rw [Option.some.inj heq] at hdigit
    cases hdigit
  rw [htext, List.append_assoc, number_sign hminus, hunsigned, hread]

end Json
end Conventions
