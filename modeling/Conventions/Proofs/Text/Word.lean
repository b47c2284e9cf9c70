import Conventions.Text.Blank
import Conventions.Text.Word
import Conventions.Text.Lower
import Mathlib.Data.List.DropRight

/-!
# Proofs/Text/Word — what is part of a word

Letters and the decimal digits of every script are word characters (`isWord_of_isDecimalDigit`), and no
word character is a blank (`isBlank_of_isWord`). A text is stripped to nothing if it has only blanks. Where a
text is ASCII, its small letters are those of its characters (`lower_of_ascii`).
-/

namespace Conventions.Text

variable {c : Char}

theorem ascii_of_isAlphanum (h : c.isAlphanum = true) : c.toNat < 128 := by
  have hascii : c.val < 128 := by
    obtain hletter | hdigit := Bool.or_eq_true_iff.1 h
    · obtain hupper | hlower := Bool.or_eq_true_iff.1 hletter
      · exact UInt32.lt_of_le_of_lt (of_decide_eq_true hupper).2 (by decide)
      · exact UInt32.lt_of_le_of_lt (of_decide_eq_true (Bool.and_eq_true_iff.1 hlower).2) (by decide)
    · exact UInt32.lt_of_le_of_lt (of_decide_eq_true (Bool.and_eq_true_iff.1 hdigit).2) (by decide)
  exact hascii

/-- An ASCII letter or digit is a word character. -/
theorem isWord_of_isAlphanum (h : c.isAlphanum = true) : isWord c = true := by
  have hascii : c.val < 128 := ascii_of_isAlphanum h
  rw [isWord, if_pos hascii, h, Bool.true_or]

/-- The ten digits of every script stand in one range of word characters. -/
theorem exists_range_of_mem_zeros {z : Nat} (hz : z ∈ zeros) :
    ∃ r ∈ wordRanges, r.1 ≤ z ∧ z + 9 ≤ r.2 := by
  have hten : (zeros.all fun z => wordRanges.any fun r => r.1.ble z && (z + 9).ble r.2) = true := by
    decide +kernel
  obtain ⟨r, hr, hbounds⟩ := List.any_eq_true.1 (List.all_eq_true.1 hten z hz)
  obtain ⟨hfirst, hlast⟩ := Bool.and_eq_true_iff.1 hbounds
  exact ⟨r, hr, Nat.le_of_ble_eq_true hfirst, Nat.le_of_ble_eq_true hlast⟩

/-- A decimal digit of any script is a word character. -/
theorem isWord_of_isDecimalDigit (h : isDecimalDigit c = true) : isWord c = true := by
  rw [isDecimalDigit, digitValue?] at h
  by_cases hascii : c.toNat < 128
  · simp only [if_pos hascii] at h
    split at h
    case isTrue hdigit => exact isWord_of_isAlphanum (Bool.or_eq_true_iff.2 (.inr hdigit))
    case isFalse => cases h
  · simp only [if_neg hascii, Option.isSome_map, List.find?_isSome, Bool.and_eq_true,
      decide_eq_true_eq] at h
    obtain ⟨z, hz, hle, hlt⟩ := h
    obtain ⟨r, hr, hfirst, hlast⟩ := exists_range_of_mem_zeros hz
    have hbeyond : ¬ c.val < 128 := hascii
    rw [isWord, if_neg hbeyond, Range.holds, List.any_eq_true]
    refine ⟨r, hr, ?_⟩
    rw [Bool.and_eq_true, decide_eq_true_eq, decide_eq_true_eq]
    omega

/-- A hexadecimal digit is a word character. -/
theorem isWord_of_isHexDigit (h : isHexDigit c = true) : isWord c = true := by
  have hletter (h : c.isUpper = true ∨ c.isLower = true) : c.isAlphanum = true :=
    Bool.or_eq_true_iff.2 (.inl (Bool.or_eq_true_iff.2 h))
  refine isWord_of_isAlphanum ?_
  rw [isHexDigit, hexDigit?] at h
  split at h
  case isTrue hdigit => exact Bool.or_eq_true_iff.2 (.inr hdigit)
  case isFalse =>
  split at h
  case isTrue hlower =>
    have hlast := UInt32.le_trans hlower.2 (show 'f'.val ≤ 'z'.val by decide)
    exact hletter (.inr (Bool.and_eq_true_iff.2 ⟨decide_eq_true hlower.1, decide_eq_true hlast⟩))
  case isFalse =>
  split at h
  case isTrue hupper =>
    have hlast := UInt32.le_trans hupper.2 (show 'F'.val ≤ 'Z'.val by decide)
    exact hletter (.inl (decide_eq_true ⟨hupper.1, hlast⟩))
  case isFalse => cases h

/-- An ASCII letter is no decimal digit of any script. -/
theorem isDecimalDigit_of_isAlpha (h : c.isAlpha = true) : isDecimalDigit c = false := by
  have hrange : 65 ≤ c.toNat ∧ c.toNat ≤ 122 := by
    obtain hupper | hlower := Bool.or_eq_true_iff.1 h
    · obtain ⟨hfirst, hlast⟩ := of_decide_eq_true hupper
      exact ⟨hfirst, Nat.le_trans hlast (by decide)⟩
    · obtain ⟨hfirst, hlast⟩ := Bool.and_eq_true_iff.1 hlower
      exact ⟨Nat.le_trans (by decide) (of_decide_eq_true hfirst), of_decide_eq_true hlast⟩
  have hdigit : c.isDigit = false := by
    refine Bool.eq_false_iff.2 fun hdigit => ?_
    have hlast : c.toNat ≤ 57 := of_decide_eq_true (Bool.and_eq_true_iff.1 hdigit).2
    omega
  rw [isDecimalDigit, digitValue?]
  simp only [if_pos (show c.toNat < 128 by omega), hdigit, Bool.false_eq_true, if_false,
    Option.isSome_none]

/-! ## Blanks -/

/-- The code points of the blanks. -/
def blanks : List Nat :=
  List.range' 9 5 ++ List.range' 28 5 ++ List.range' 0x2000 11 ++
    [0x85, 0xA0, 0x1680, 0x2028, 0x2029, 0x202F, 0x205F, 0x3000]

theorem toNat_mem_blanks (h : isBlank c = true) : c.toNat ∈ blanks := by
  simp only [isBlank, Bool.or_eq_true, Bool.and_eq_true, decide_eq_true_eq, beq_iff_eq] at h
  simp only [blanks, List.mem_append, List.mem_range'_1, List.mem_cons, List.not_mem_nil, or_false]
  omega

/-- A word character is no blank. -/
theorem isBlank_of_isWord (h : isWord c = true) : isBlank c = false := by
  have hnone : ∀ n ∈ blanks, isWord (Char.ofNat n) = false := by decide +kernel
  refine Bool.eq_false_iff.2 fun hblank => ?_
  have hword := hnone c.toNat (toNat_mem_blanks hblank)
  rw [Char.ofNat_toNat, h] at hword
  cases hword

/-- **A text of blanks** is stripped to nothing. -/
theorem strip_eq_empty_iff {s : String} : strip s = "" ↔ ∀ c ∈ s.toList, isBlank c = true := by
  rw [strip, ← String.toList_inj, String.toList_ofList, String.toList_empty, stripChars, stripStart,
    ← List.rdropWhile, List.rdropWhile_eq_nil_iff]
  constructor
  · intro h c hc
    rw [← List.takeWhile_append_dropWhile (p := isBlank) (l := s.toList)] at hc
    exact (List.mem_append.1 hc).elim List.mem_takeWhile_imp (h c)
  · intro h c hc
    exact h c ((List.dropWhile_suffix _).subset hc)

/-! ## Small letters -/

theorem toLower_eq_self (h : c.isUpper = false) : c.toLower = c := dif_neg (of_decide_eq_false h)

theorem isUpper_toLower (c : Char) : c.toLower.isUpper = false := by
  unfold Char.toLower
  split
  case isTrue h =>
    -- the small letters come after all capitals
    refine decide_eq_false fun hupper => ?_
    have hval : (c.val + 32).toNat = c.val.toNat + 32 := by
      have hlast : c.val.toNat ≤ 90 := h.2
      have hsum : UInt32.toNat 32 = 32 := rfl
      rw [UInt32.toNat_add]
      omega
    have hfirst : 65 ≤ c.val.toNat := h.1
    have hlast : (c.val + 32).toNat ≤ 90 := hupper.2
    omega
  case isFalse h => exact decide_eq_false h

/-- A character is part of a word if its small letter is. -/
theorem isWord_of_toLower (h : isWord c.toLower = true) : isWord c = true := by
  cases hupper : c.isUpper with
  | false => rwa [toLower_eq_self hupper] at h
  | true =>
    refine isWord_of_isAlphanum (Bool.or_eq_true_iff.2 (.inl ?_))
    exact Bool.or_eq_true_iff.2 (.inl hupper)

theorem toNat_toLower_lt (h : c.toNat < 128) : c.toLower.toNat < 128 := by
  unfold Char.toLower
  split
  case isTrue hupper =>
    have hlast : c.val.toNat ≤ 90 := hupper.2
    have hsum : UInt32.toNat 32 = 32 := rfl
    change (c.val + 32).toNat < 128
    rw [UInt32.toNat_add]
    omega
  case isFalse => exact h

/-- **The small letters of an ASCII text** are those of its characters. -/
theorem lower_of_ascii {s : String} (h : ∀ c ∈ s.toList, c.toNat < 128) :
    lower s = String.ofList (s.toList.map Char.toLower) := by
  rw [lower]
  congr 1
  generalize s.toList = cs at h
  have hall : ∀ afterCased, lowerFrom afterCased cs = cs.map Char.toLower := by
    induction cs with
    | nil => exact fun _ => rfl
    | cons c cs ih =>
      obtain ⟨hc, hcs⟩ := List.forall_mem_cons.1 h
      intro afterCased
      have hsigma : c ≠ 'Σ' := by
        rintro rfl
        revert hc
        decide
      have hdotted : c ≠ 'İ' := by
        rintro rfl
        revert hc
        decide
      rw [lowerFrom, if_neg hsigma, if_neg hdotted, ih hcs, lowerChar, if_pos hc]
      rfl
  exact hall false

/-- **Small letters of an ASCII text** stay as they are. -/
theorem lower_lower_of_ascii {s : String} (h : ∀ c ∈ s.toList, c.toNat < 128) :
    lower (lower s) = lower s := by
  have hsmall : ∀ c ∈ (lower s).toList, c.toNat < 128 := by
    rw [lower_of_ascii h, String.toList_ofList, List.forall_mem_map]
    exact fun c hc => toNat_toLower_lt (h c hc)
  rw [lower_of_ascii hsmall, lower_of_ascii h, String.toList_ofList, List.map_map]
  exact congrArg String.ofList (List.map_congr_left fun c _ => toLower_eq_self (isUpper_toLower c))

end Conventions.Text
