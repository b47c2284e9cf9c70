import Conventions.Text.Blank

/-!
# Proofs/Text/Blank — which texts are collapsed

A text is its own collapse if single spaces stand in it between other characters and no other blanks
do (`collapse_eq_self_iff`). What a word of it says is of no account for that.
-/

namespace Conventions.Text

/-- **Do only single spaces stand in a text**, between other characters? `word` says whether a
character that is no blank comes before it. -/
def isSpaced (word : Bool) : List Char → Bool
  | [] => word
  | c :: rest => if isBlank c then word && c == ' ' && isSpaced false rest else isSpaced true rest

variable {word : Bool} {cs w : List Char}

/-- **Is a text one piece**: some characters, none of them a blank? -/
def IsUnbroken (w : List Char) : Prop := w ≠ [] ∧ ∀ c ∈ w, isBlank c = false

theorem IsUnbroken.reverse (h : IsUnbroken w) : IsUnbroken w.reverse :=
  ⟨mt List.reverse_eq_nil_iff.1 h.1, fun c hc => h.2 c (List.mem_reverse.1 hc)⟩

theorem isSpaced_append (hw : IsUnbroken w) (rest : List Char) :
    isSpaced word (w ++ rest) = isSpaced true rest := by
  obtain ⟨hne, hw⟩ := hw
  induction w generalizing word with
  | nil => exact absurd rfl hne
  | cons c w ih =>
    rw [List.forall_mem_cons] at hw
    rw [List.cons_append, isSpaced, hw.1, if_neg Bool.false_ne_true]
    cases w with
    | nil => rfl
    | cons d w => exact ih (List.cons_ne_nil _ _) hw.2

/-- A character that is no blank parts a text. -/
theorem isSpaced_append_cons {c : Char} (hc : isBlank c = false) (front rest : List Char) :
    isSpaced word (front ++ c :: rest) = (isSpaced word (front ++ [c]) && isSpaced true rest) := by
  have hcons (word : Bool) (rest : List Char) : isSpaced word (c :: rest) = isSpaced true rest := by
    rw [isSpaced, hc, if_neg Bool.false_ne_true]
  induction front generalizing word with
  | nil => rw [List.nil_append, List.nil_append, hcons, hcons, isSpaced, Bool.true_and]
  | cons d front ih =>
    rw [List.cons_append, List.cons_append, isSpaced, isSpaced]
    split
    · rw [ih, ← Bool.and_assoc]
    · exact ih

theorem isUnbroken_of_mem_wordsFrom {read : List Char} (hread : ∀ c ∈ read, isBlank c = false)
    (h : w ∈ wordsFrom read cs) : IsUnbroken w := by
  induction cs generalizing read with
  | nil =>
    rw [wordsFrom] at h
    split at h
    · cases h
    case isFalse hne => exact List.mem_singleton.1 h ▸ IsUnbroken.reverse ⟨hne, hread⟩
  | cons c cs ih =>
    have hnil : ∀ c ∈ ([] : List Char), isBlank c = false := fun _ h => nomatch h
    rw [wordsFrom] at h
    split at h
    case isTrue =>
      split at h
      · exact ih hnil h
      case isFalse hne =>
        obtain rfl | h := List.mem_cons.1 h
        · exact IsUnbroken.reverse ⟨hne, hread⟩
        · exact ih hnil h
    case isFalse hc =>
      have hread : ∀ d ∈ c :: read, isBlank d = false :=
        List.forall_mem_cons.2 ⟨Bool.eq_false_iff.2 hc, hread⟩
      exact ih hread h

theorem isSpaced_intercalate {ws : List (List Char)} (hne : ws ≠ [])
    (hws : ∀ w ∈ ws, IsUnbroken w) :
    isSpaced word ([' '].intercalate ws) = true := by
  induction ws generalizing word with
  | nil => exact absurd rfl hne
  | cons w ws ih =>
    rw [List.forall_mem_cons] at hws
    cases ws with
    | nil =>
      rw [List.intercalate_singleton, ← List.append_nil w, isSpaced_append hws.1, isSpaced]
    | cons w' ws =>
      rw [List.intercalate_cons_cons, List.append_assoc, isSpaced_append hws.1]
      exact ih (List.cons_ne_nil _ _) hws.2

theorem intercalate_wordsFrom {read : List Char} (h : isSpaced (!read.isEmpty) cs = true) :
    [' '].intercalate (wordsFrom read cs) = read.reverse ++ cs := by
  induction cs generalizing read with
  | nil =>
    cases read with
    | nil => cases h
    | cons c read => simp [wordsFrom]
  | cons c cs ih =>
    rw [isSpaced] at h
    rw [wordsFrom]
    split
    case isTrue hc =>
      rw [if_pos hc, Bool.and_eq_true, Bool.and_eq_true, beq_iff_eq] at h
      obtain ⟨⟨hread, rfl⟩, hrest⟩ := h
      have hne : read ≠ [] := by simpa using hread
      have hwords : [' '].intercalate (wordsFrom [] cs) = cs := ih hrest
      rw [if_neg hne]
      -- a text that ends with a blank is not spaced, so there are further words
      cases hfurther : wordsFrom [] cs with
      | nil =>
        rw [hfurther] at hwords
        obtain rfl : cs = [] := hwords.symm
        cases hrest
      | cons w ws =>
        rw [hfurther] at hwords
        rw [List.intercalate_cons_cons, hwords]
        simp
    case isFalse hc =>
      rw [if_neg hc] at h
      have hwords : [' '].intercalate (wordsFrom (c :: read) cs) = (c :: read).reverse ++ cs := ih h
      rw [hwords]
      simp

/-- **A text is collapsed** exactly if only single spaces stand in it, between other characters. -/
theorem collapse_eq_self_iff : collapse cs = cs ↔ cs = [] ∨ isSpaced false cs = true := by
  constructor
  · intro h
    by_cases hne : words cs = []
    · left
      rw [← h, collapse, hne]
      rfl
    · right
      rw [← h]
      exact isSpaced_intercalate hne fun w hw =>
        isUnbroken_of_mem_wordsFrom (List.forall_mem_nil _) hw
  · rintro (rfl | h)
    · rfl
    · have hwords : [' '].intercalate (wordsFrom [] cs) = cs := intercalate_wordsFrom h
      exact hwords

/-- The blanks of a text with single spaces are spaces. -/
theorem eq_space_of_isSpaced {c : Char} (h : isSpaced word cs = true) (hc : c ∈ cs)
    (hblank : isBlank c = true) : c = ' ' := by
  induction cs generalizing word with
  | nil => cases hc
  | cons d cs ih =>
    rw [isSpaced] at h
    split at h
    case isTrue =>
      rw [Bool.and_eq_true, Bool.and_eq_true, beq_iff_eq] at h
      obtain rfl | hc := List.mem_cons.1 hc
      · exact h.1.2
      · exact ih h.2 hc
    case isFalse hd =>
      obtain rfl | hc := List.mem_cons.1 hc
      · exact absurd hblank hd
      · exact ih h hc

theorem isBlank_of_isLineEnd {c : Char} (h : isLineEnd c = true) : isBlank c = true := by
  simp only [isLineEnd, isBlank, Bool.or_eq_true, Bool.and_eq_true, decide_eq_true_eq,
    beq_iff_eq] at h ⊢
  omega

/-- **A collapsed text is a single line.** -/
theorem isLineEnd_of_mem_collapse {c : Char} (h : c ∈ collapse cs) : isLineEnd c = false := by
  refine Bool.eq_false_iff.2 fun hend => ?_
  have hspaced : isSpaced false (collapse cs) = true := by
    refine isSpaced_intercalate (fun hnil => ?_) fun w hw =>
      isUnbroken_of_mem_wordsFrom (List.forall_mem_nil _) hw
    rw [collapse, hnil] at h
    cases h
  obtain rfl := eq_space_of_isSpaced hspaced h (isBlank_of_isLineEnd hend)
  revert hend
  decide

end Conventions.Text
