import Conventions.Number.Numeral
import Conventions.Proofs.Number.Shortest
import Conventions.Proofs.Text.Word
import Mathlib.Data.List.DropRight

/-!
# Proofs/Number/Numerals — what people write as numbers

The numerals are described by what is written: blanks around a sign and a body (`Framed`), digits of any
script with single underscores between them (`Digits`), a point and an exponent (`Mantissa`, `Exponent`).
The readers read just these: a whole number is read from a text exactly if the text writes it
(`whole?_eq_some_iff`), and so is a binary64 number (`binary64?_eq_some_iff`).
-/

namespace Conventions
namespace Numeral

variable {s : String} {c : Char} {d : Nat} {cs front run rest body : List Char} {ds ds' : List Nat}
  {negative joined : Bool} {i : Int} {x : Binary64}

/-! ## Digits -/

/-- **Characters write digits**: each is a decimal digit of some script, or an underscore with a digit on
either side. -/
inductive Digits : List Char → List Nat → Prop
  | nil : Digits [] []
  | digit {c : Char} {d : Nat} {cs : List Char} {ds : List Nat} (hc : Text.digitValue? c = some d)
      (h : Digits cs ds) : Digits (c :: cs) (d :: ds)
  | joined {c : Char} {d : Nat} {cs : List Char} {ds : List Nat} (hc : Text.digitValue? c = some d)
      (h : Digits cs ds) (hne : cs ≠ []) : Digits (c :: '_' :: cs) (d :: ds)

/-- **Digits stop here**: neither a digit nor an underscore follows. -/
def Stops (rest : List Char) : Prop := ∀ c ∈ rest.head?, Text.digitValue? c = none ∧ c ≠ '_'

theorem stops_nil : Stops [] := fun _ h => nomatch h

theorem stops_cons : Stops (c :: rest) ↔ Text.digitValue? c = none ∧ c ≠ '_' := by simp [Stops]

/-- Digits begin with one. -/
theorem Digits.exists_cons (h : Digits cs ds) (hne : cs ≠ []) :
    ∃ c rest, cs = c :: rest ∧ Text.isDecimalDigit c = true := by
  cases h with
  | nil => exact absurd rfl hne
  | digit hc _ | joined hc _ _ => exact ⟨_, _, rfl, by rw [Text.isDecimalDigit, hc]; rfl⟩

theorem Digits.ne_nil_iff (h : Digits cs ds) : cs ≠ [] ↔ ds ≠ [] := by
  cases h <;> simp

theorem digits_of_stops (h : Stops rest) : digits joined rest = some ([], rest) := by
  cases rest with
  | nil => rfl
  | cons c rest =>
    obtain ⟨hc, hne⟩ := stops_cons.1 h
    simp only [digits, hc, if_neg hne]

theorem digits_of_digit (hc : Text.digitValue? c = some d) :
    digits joined (c :: cs) = (digits true cs).map fun (ds, after) => (d :: ds, after) := by
  simp only [digits, hc]

theorem digits_of_underscore :
    digits joined ('_' :: c :: cs) =
      if joined && Text.isDecimalDigit c then digits false (c :: cs) else none := by
  have hline : Text.digitValue? '_' = none := by decide
  rw [digits, hline]
  rfl

/-- **Digits are read** up to where they stop. -/
theorem Digits.digits_append (h : Digits run ds) (hrest : Stops rest) (joined : Bool) :
    digits joined (run ++ rest) = some (ds, rest) := by
  induction h generalizing joined with
  | nil => exact digits_of_stops hrest
  | digit hc _ ih => rw [List.cons_append, digits_of_digit hc, ih, Option.map_some]
  | joined hc h hne ih =>
    obtain ⟨d, cs, rfl, hd⟩ := h.exists_cons hne
    have ih := ih false
    rw [List.cons_append] at ih
    rw [List.cons_append, List.cons_append, List.cons_append, digits_of_digit hc,
      digits_of_underscore, Bool.true_and, if_pos hd, ih, Option.map_some]

/-- **What is read as digits** writes them; what is left does not go on with them. An underscore is read in
front only where a digit came before. -/
theorem exists_of_digits (h : digits joined cs = some (ds, rest)) : Stops rest ∧
    ∃ run, Digits run ds ∧ (cs = run ++ rest ∨ joined = true ∧ run ≠ [] ∧ cs = '_' :: (run ++ rest)) := by
  induction cs generalizing joined ds rest with
  | nil =>
    obtain ⟨rfl, rfl⟩ := Prod.mk.inj (Option.some.inj h)
    exact ⟨stops_nil, [], .nil, .inl rfl⟩
  | cons c cs ih =>
    cases hc : Text.digitValue? c with
    | some d =>
      rw [digits_of_digit hc] at h
      obtain ⟨⟨ds', after⟩, hread, heq⟩ := Option.map_eq_some_iff.1 h
      obtain ⟨rfl, rfl⟩ := Prod.mk.inj heq
      obtain ⟨hstops, run, hrun, rfl | ⟨-, hne, rfl⟩⟩ := ih hread
      · exact ⟨hstops, c :: run, .digit hc hrun, .inl rfl⟩
      · exact ⟨hstops, c :: '_' :: run, .joined hc hrun hne, .inl rfl⟩
    | none =>
      by_cases hline : c = '_'
      · obtain rfl := hline
        cases cs with
        | nil => cases h
        | cons d cs =>
          rw [digits_of_underscore, Option.ite_none_right_eq_some, Bool.and_eq_true] at h
          obtain ⟨⟨hjoined, hd⟩, hread⟩ := h
          obtain ⟨hstops, run, hrun, hcs | ⟨hfalse, -⟩⟩ := ih hread
          · refine ⟨hstops, run, hrun, .inr ⟨hjoined, ?_, by rw [hcs]⟩⟩
            -- with nothing read, the digit behind the underscore would be left
            rintro rfl
            rw [List.nil_append] at hcs
            rw [Text.isDecimalDigit, (hstops d (by rw [← hcs]; rfl)).1] at hd
            cases hd
          · cases hfalse
      · have hstops : Stops (c :: cs) := stops_cons.2 ⟨hc, hline⟩
        rw [digits_of_stops hstops] at h
        obtain ⟨rfl, rfl⟩ := Prod.mk.inj (Option.some.inj h)
        exact ⟨hstops, [], .nil, .inl rfl⟩

/-- **Digits are read from a text** exactly if it begins with them and goes on with something else. -/
theorem digits_eq_some_iff : digits false cs = some (ds, rest) ↔
    ∃ run, cs = run ++ rest ∧ Digits run ds ∧ Stops rest := by
  constructor
  · intro h
    obtain ⟨hstops, run, hrun, hcs | ⟨hfalse, -⟩⟩ := exists_of_digits h
    · exact ⟨run, hcs, hrun, hstops⟩
    · cases hfalse
  · rintro ⟨run, rfl, hrun, hstops⟩
    exact hrun.digits_append hstops false

/-! ## Signs and blanks -/

/-- **A sign**: none, a plus or a minus. -/
inductive Sign : List Char → Bool → Prop
  | none : Sign [] false
  | plus : Sign ['+'] false
  | minus : Sign ['-'] true

/-- A whole number with its sign. -/
def signed (negative : Bool) (n : Nat) : Int := if negative then -n else n

theorem exists_sign (cs : List Char) : ∃ front, Sign front (sign cs).1 ∧ cs = front ++ (sign cs).2 := by
  unfold sign
  split
  · exact ⟨['-'], .minus, rfl⟩
  · exact ⟨['+'], .plus, rfl⟩
  · exact ⟨[], .none, rfl⟩

/-- **What begins with no sign.** -/
def Unsigned (body : List Char) : Prop := ∀ c ∈ body.head?, c ≠ '-' ∧ c ≠ '+'

theorem Sign.sign_append (h : Sign front negative) (hbody : Unsigned body) :
    sign (front ++ body) = (negative, body) := by
  cases h with
  | none =>
    rw [List.nil_append]
    unfold sign
    split
    case h_1 => exact absurd rfl (hbody '-' rfl).1
    case h_2 => exact absurd rfl (hbody '+' rfl).2
    case h_3 => rfl
  | plus | minus => rfl

theorem isBlank_eq_false (h : Text.isBlank c = false) : isBlank c = false := by
  simp only [isBlank, Text.isBlank, Bool.or_eq_false_iff, Bool.and_eq_false_iff, decide_eq_false_iff_not,
    beq_eq_false_iff_ne, ne_eq] at h ⊢
  omega

/-- **A numeral in a text**: blanks stand around a sign and a body. -/
def Framed (s : String) (negative : Bool) (body : List Char) : Prop :=
  ∃ front sign back, s.toList = front ++ (sign ++ body) ++ back ∧ Sign sign negative ∧
    (∀ c ∈ front, isBlank c = true) ∧ ∀ c ∈ back, isBlank c = true

theorem framed_sign_strip (s : String) :
    Framed s (sign (strip s.toList)).1 (sign (strip s.toList)).2 := by
  obtain ⟨mark, hmark, hstrip⟩ := exists_sign (strip s.toList)
  refine ⟨s.toList.takeWhile isBlank, mark, (s.toList.dropWhile isBlank).rtakeWhile isBlank, ?_,
    hmark, fun c => List.mem_takeWhile_imp, fun c => List.mem_rtakeWhile_imp⟩
  rw [← hstrip, strip, ← List.rdropWhile, List.append_assoc, List.rdropWhile_append_rtakeWhile,
    List.takeWhile_append_dropWhile]

/-- **The body of a numeral**: something that begins with no sign and has no blank in it. -/
structure IsBody (body : List Char) : Prop where
  ne : body ≠ []
  unsigned : Unsigned body
  unbroken : ∀ c ∈ body, Text.isBlank c = false

theorem dropWhile_isBlank {core : List Char} (hfront : ∀ c ∈ front, isBlank c = true) (hne : core ≠ [])
    (hcore : ∀ c ∈ core, isBlank c = false) (rest : List Char) :
    (front ++ (core ++ rest)).dropWhile isBlank = core ++ rest := by
  obtain ⟨c, core, rfl⟩ := List.exists_cons_of_ne_nil hne
  rw [List.dropWhile_append_of_pos hfront, List.cons_append,
    List.dropWhile_cons_of_neg (Bool.not_eq_true _ ▸ hcore c List.mem_cons_self)]

theorem strip_append {core back : List Char} (hfront : ∀ c ∈ front, isBlank c = true)
    (hback : ∀ c ∈ back, isBlank c = true) (hne : core ≠ []) (hcore : ∀ c ∈ core, isBlank c = false) :
    strip (front ++ core ++ back) = core := by
  have hback' : ∀ c ∈ back.reverse, isBlank c = true := fun c hc => hback c (List.mem_reverse.1 hc)
  have hcore' : ∀ c ∈ core.reverse, isBlank c = false := fun c hc => hcore c (List.mem_reverse.1 hc)
  have hlast := dropWhile_isBlank hback' (mt List.reverse_eq_nil_iff.1 hne) hcore' []
  rw [List.append_nil] at hlast
  rw [strip, List.append_assoc, dropWhile_isBlank hfront hne hcore, List.reverse_append, hlast,
    List.reverse_reverse]

/-- **The sign and the body are found** between the blanks. -/
theorem Framed.sign_strip (h : Framed s negative body) (hbody : IsBody body) :
    sign (strip s.toList) = (negative, body) := by
  obtain ⟨front, mark, back, hs, hmark, hfront, hback⟩ := h
  have hcore : ∀ c ∈ mark ++ body, isBlank c = false := by
    intro c hc
    obtain hc | hc := List.mem_append.1 hc
    · cases hmark with
      | none => cases hc
      | plus | minus =>
        obtain rfl := List.mem_singleton.1 hc
        decide
    · exact isBlank_eq_false (hbody.unbroken c hc)
  have hne : mark ++ body ≠ [] := List.append_ne_nil_of_right_ne_nil mark hbody.ne
  rw [hs, strip_append hfront hback hne hcore, hmark.sign_append hbody.unsigned]

/-- A text with a numeral is not blank. -/
theorem Framed.strip_ne_empty (h : Framed s negative body) (hbody : IsBody body) :
    Text.strip s ≠ "" := by
  obtain ⟨front, mark, back, hs, -⟩ := h
  intro hempty
  have hall := Text.strip_eq_empty_iff.1 hempty
  obtain ⟨c, hc⟩ := List.exists_mem_of_ne_nil body hbody.ne
  have hblank := hall c (by simp [hs, hc])
  rw [hbody.unbroken c hc] at hblank
  cases hblank

/-! ## Whole numbers -/

/-- Digits with their underscores are word characters. -/
theorem Digits.isWord (h : Digits cs ds) : ∀ c ∈ cs, Text.isWord c = true := by
  have hdigit {c : Char} {d : Nat} (hc : Text.digitValue? c = some d) : Text.isWord c = true :=
    Text.isWord_of_isDecimalDigit (by rw [Text.isDecimalDigit, hc]; rfl)
  induction h with
  | nil => exact List.forall_mem_nil _
  | digit hc _ ih => exact List.forall_mem_cons.2 ⟨hdigit hc, ih⟩
  | joined hc _ _ ih =>
    exact List.forall_mem_cons.2 ⟨hdigit hc, List.forall_mem_cons.2 ⟨by decide +kernel, ih⟩⟩

theorem unsigned_of_head (h : ∀ c ∈ body.head?, Text.isWord c = true ∨ c = '.') : Unsigned body := by
  intro c hc
  have hmarks : Text.isWord '-' = false ∧ Text.isWord '+' = false := by decide +kernel
  obtain hword | rfl := h c hc
  · constructor
    · rintro rfl
      rw [hmarks.1] at hword
      cases hword
    · rintro rfl
      rw [hmarks.2] at hword
      cases hword
  · decide

theorem Digits.isBody (h : Digits body ds) (hne : ds ≠ []) : IsBody body where
  ne := h.ne_nil_iff.2 hne
  unsigned := unsigned_of_head fun c hc => .inl (h.isWord c (List.mem_of_mem_head? hc))
  unbroken c hc := Text.isBlank_of_isWord (h.isWord c hc)

/-- **A text writes a whole number**: digits, no more than are allowed, with a sign between blanks. -/
def WritesWhole (s : String) (i : Int) : Prop :=
  ∃ negative body ds, Framed s negative body ∧ Digits body ds ∧ ds ≠ [] ∧ ds.length ≤ maxDigits ∧
    i = signed negative (value ds)

theorem WritesWhole.strip_ne_empty (h : WritesWhole s i) : Text.strip s ≠ "" := by
  obtain ⟨negative, body, ds, hframed, hbody, hne, -⟩ := h
  exact hframed.strip_ne_empty (hbody.isBody hne)

/-- Digits are all that is read exactly if the characters write them. -/
theorem digits_eq_all_iff : digits false cs = some (ds, []) ↔ Digits cs ds := by
  rw [digits_eq_some_iff]
  constructor
  · rintro ⟨run, rfl, hrun, -⟩
    rwa [List.append_nil]
  · exact fun h => ⟨cs, (List.append_nil cs).symm, h, stops_nil⟩

/-- **A whole number is read** from a text exactly if the text writes it. -/
theorem whole?_eq_some_iff : whole? s = some i ↔ WritesWhole s i := by
  constructor
  · intro h
    simp only [whole?] at h
    split at h
    case h_1 d ds hread =>
      rw [Option.ite_none_left_eq_some, Nat.not_lt] at h
      exact ⟨_, _, _, framed_sign_strip s, digits_eq_all_iff.1 hread, List.cons_ne_nil _ _, h.1,
        (Option.some.inj h.2).symm⟩
    case h_2 => cases h
  · rintro ⟨negative, body, ds, hframed, hbody, hne, hlength, rfl⟩
    obtain ⟨d, ds, rfl⟩ := List.exists_cons_of_ne_nil hne
    simp only [whole?, hframed.sign_strip (hbody.isBody hne), digits_eq_all_iff.2 hbody,
      if_neg (Nat.not_lt.2 hlength)]
    rfl

/-! ## Decimals -/

/-- **A mantissa**: digits with no more than one point among them. The last number is that of the digits
behind the point. -/
inductive Mantissa : List Char → List Nat → Nat → Prop
  | whole {cs : List Char} {ds : List Nat} (h : Digits cs ds) (hne : ds ≠ []) : Mantissa cs ds 0
  | pointed {front back : List Char} {fs bs : List Nat} (hfront : Digits front fs)
      (hback : Digits back bs) (hne : fs ++ bs ≠ []) :
      Mantissa (front ++ '.' :: back) (fs ++ bs) bs.length

/-- **An exponent**, if there is one. -/
inductive Exponent : List Char → Int → Prop
  | none : Exponent [] 0
  | marked {e : Char} {mark cs : List Char} {negative : Bool} {ds : List Nat} (he : e = 'e' ∨ e = 'E')
      (hmark : Sign mark negative) (h : Digits cs ds) (hne : ds ≠ []) :
      Exponent (e :: (mark ++ cs)) (signed negative (value ds))

/-- **Characters write a decimal**: `value ds * 10 ^ scale`. -/
def WritesDecimal (body : List Char) (ds : List Nat) (scale : Int) : Prop :=
  ∃ mantissa places exponent e, body = mantissa ++ exponent ∧ Mantissa mantissa ds places ∧
    Exponent exponent e ∧ scale = e - places

theorem exponent?_eq_some_iff {e : Int} : exponent? cs = some e ↔ Exponent cs e := by
  constructor
  · intro h
    cases cs with
    | nil =>
      obtain rfl := Option.some.inj h
      exact .none
    | cons c cs =>
      rw [exponent?] at h
      split at h
      case isTrue hc =>
        obtain ⟨mark, hmark, hcs⟩ := exists_sign cs
        generalize sign cs = signed at h hmark hcs
        obtain rfl := hcs
        simp only at h
        split at h
        case h_1 d ds hread =>
          obtain rfl := Option.some.inj h
          exact .marked hc hmark (digits_eq_all_iff.1 hread) (List.cons_ne_nil _ _)
        case h_2 => cases h
      case isFalse => cases h
  · intro h
    cases h with
    | none => rfl
    | marked he hmark h hne =>
      have hsign := hmark.sign_append (h.isBody hne).unsigned
      obtain ⟨d, ds, rfl⟩ := List.exists_cons_of_ne_nil hne
      simp only [exponent?, if_pos he, hsign, digits_eq_all_iff.2 h]
      rfl

/-- Digits stop at an exponent. -/
theorem Exponent.stops {e : Int} (h : Exponent cs e) : Stops cs := by
  cases h with
  | none => exact stops_nil
  | marked he _ _ _ => obtain rfl | rfl := he <;> exact stops_cons.2 (by decide)

theorem Exponent.fraction?_eq {e : Int} (h : Exponent cs e) : fraction? cs = some ([], cs) := by
  cases h with
  | none => rfl
  | marked he _ _ _ => obtain rfl | rfl := he <;> rfl

theorem stops_point : Stops ('.' :: rest) := stops_cons.2 (by decide)

/-- **A decimal is read** from characters exactly if they write it. -/
theorem writesDecimal_iff {scale : Int} : WritesDecimal body ds scale ↔
    ∃ front back rest rest' e, digits false body = some (front, rest) ∧
      fraction? rest = some (back, rest') ∧ exponent? rest' = some e ∧ front ++ back ≠ [] ∧
      ds = front ++ back ∧ scale = e - back.length := by
  constructor
  · rintro ⟨mantissa, places, exponent, e, rfl, hmantissa, hexponent, rfl⟩
    have he := exponent?_eq_some_iff.2 hexponent
    cases hmantissa with
    | whole h hne =>
      refine ⟨ds, [], exponent, exponent, e, h.digits_append hexponent.stops false,
        hexponent.fraction?_eq, he, ?_, (List.append_nil ds).symm, rfl⟩
      rwa [List.append_nil]
    | pointed hfront hback hne =>
      rw [List.append_assoc, List.cons_append]
      exact ⟨_, _, _, exponent, e, hfront.digits_append stops_point false,
        hback.digits_append hexponent.stops false, he, hne, rfl, rfl⟩
  · rintro ⟨front, back, rest, rest', e, hread, hfraction, he, hne, rfl, rfl⟩
    obtain ⟨run, rfl, hrun, hstops⟩ := digits_eq_some_iff.1 hread
    have hexponent := exponent?_eq_some_iff.1 he
    unfold fraction? at hfraction
    split at hfraction
    case h_1 behind =>
      obtain ⟨run', rfl, hrun', -⟩ := digits_eq_some_iff.1 hfraction
      refine ⟨run ++ '.' :: run', _, rest', e, ?_, .pointed hrun hrun' hne, hexponent, rfl⟩
      rw [List.append_assoc, List.cons_append]
    case h_2 =>
      obtain ⟨rfl, rfl⟩ := Prod.mk.inj (Option.some.inj hfraction)
      rw [List.append_nil] at hne ⊢
      exact ⟨run, 0, rest, e, rfl, .whole hrun hne, hexponent, rfl⟩

theorem Digits.exists_digit (h : Digits cs ds) (hne : ds ≠ []) :
    ∃ c ∈ cs, Text.isDecimalDigit c = true := by
  obtain ⟨c, rest, rfl, hc⟩ := h.exists_cons (h.ne_nil_iff.2 hne)
  exact ⟨c, List.mem_cons_self, hc⟩

theorem Mantissa.exists_digit {places : Nat} (h : Mantissa cs ds places) :
    ∃ c ∈ cs, Text.isDecimalDigit c = true := by
  cases h with
  | whole h hne => exact h.exists_digit hne
  | pointed hfront hback hne =>
    rw [ne_eq, List.append_eq_nil_iff, not_and_or] at hne
    obtain hne | hne := hne
    · obtain ⟨c, hc, hdigit⟩ := hfront.exists_digit hne
      exact ⟨c, List.mem_append_left _ hc, hdigit⟩
    · obtain ⟨c, hc, hdigit⟩ := hback.exists_digit hne
      exact ⟨c, List.mem_append_right _ (List.mem_cons_of_mem _ hc), hdigit⟩

theorem Mantissa.isWord_or {places : Nat} (h : Mantissa cs ds places) :
    ∀ c ∈ cs, Text.isWord c = true ∨ c = '.' := by
  cases h with
  | whole h hne => exact fun c hc => .inl (h.isWord c hc)
  | pointed hfront hback hne =>
    refine List.forall_mem_append.2 ⟨fun c hc => .inl (hfront.isWord c hc), ?_⟩
    exact List.forall_mem_cons.2 ⟨.inr rfl, fun c hc => .inl (hback.isWord c hc)⟩

theorem Sign.isBlank (h : Sign cs negative) : ∀ c ∈ cs, Text.isBlank c = false := by
  cases h with
  | none => exact List.forall_mem_nil _
  | plus | minus => exact List.forall_mem_singleton.2 (by decide)

theorem Exponent.isBlank {e : Int} (h : Exponent cs e) : ∀ c ∈ cs, Text.isBlank c = false := by
  cases h with
  | none => exact List.forall_mem_nil _
  | marked he hmark h _ =>
    refine List.forall_mem_cons.2 ⟨?_, List.forall_mem_append.2 ⟨hmark.isBlank, fun c hc => ?_⟩⟩
    · obtain rfl | rfl := he <;> decide
    · exact Text.isBlank_of_isWord (h.isWord c hc)

theorem WritesDecimal.isBody {scale : Int} (h : WritesDecimal body ds scale) : IsBody body := by
  obtain ⟨mantissa, places, exponent, e, rfl, hmantissa, hexponent, -⟩ := h
  obtain ⟨d, hd, -⟩ := hmantissa.exists_digit
  obtain ⟨c, rest, rfl⟩ := List.exists_cons_of_ne_nil (List.ne_nil_of_mem hd)
  refine ⟨List.cons_ne_nil _ _, unsigned_of_head ?_, List.forall_mem_append.2 ⟨?_, hexponent.isBlank⟩⟩
  · rintro _ ⟨⟩
    exact hmantissa.isWord_or c List.mem_cons_self
  · intro c hc
    obtain hword | rfl := hmantissa.isWord_or c hc
    · exact Text.isBlank_of_isWord hword
    · decide

/-! ## Binary64 numbers -/

/-- The names of numbers that no decimal stands for. -/
def names : List String := ["inf", "infinity", "nan"]

theorem isBody_of_small (h : small body ∈ names) : IsBody body := by
  have hword : ∀ c ∈ body, Text.isWord c = true := by
    intro c hc
    have hnames : ∀ w ∈ names, w.toList.all Text.isWord = true := by decide +kernel
    refine Text.isWord_of_toLower (List.all_eq_true.1 (hnames _ h) _ ?_)
    rw [small, String.toList_ofList]
    exact List.mem_map_of_mem hc
  refine ⟨?_, unsigned_of_head fun c hc => .inl (hword c (List.mem_of_mem_head? hc)),
    fun c hc => Text.isBlank_of_isWord (hword c hc)⟩
  rintro rfl
  revert h
  decide

/-- A decimal has a digit in it, and a name has none. -/
theorem WritesDecimal.small_notMem {scale : Int} (h : WritesDecimal body ds scale) :
    small body ∉ names := by
  obtain ⟨mantissa, places, exponent, e, rfl, hmantissa, -⟩ := h
  obtain ⟨c, hc, hdigit⟩ := hmantissa.exists_digit
  intro hname
  have hnames : ∀ w ∈ names, w.toList.any Text.isDecimalDigit = false := by decide
  have hsmall : c.toLower ∈ (small (mantissa ++ exponent)).toList := by
    rw [small, String.toList_ofList]
    exact List.mem_map_of_mem (List.mem_append_left _ hc)
  have hnone := List.any_eq_false.1 (hnames _ hname) _ hsmall
  have hupper : c.isUpper = false := by
    refine Bool.eq_false_iff.2 fun hupper => ?_
    rw [Text.isDecimalDigit_of_isAlpha (Bool.or_eq_true_iff.2 (.inl hupper))] at hdigit
    cases hdigit
  rw [Text.toLower_eq_self hupper] at hnone
  exact hnone hdigit

/-- **A text writes a binary64 number**: a decimal, which stands for the number nearest to it, or the name of
an infinity or of no number in any case. -/
inductive WritesNumber (s : String) : Binary64 → Prop
  | infinity {negative : Bool} {body : List Char} (h : Framed s negative body)
      (hword : small body = "inf" ∨ small body = "infinity") : WritesNumber s (.infinite negative)
  | nan {negative : Bool} {body : List Char} (h : Framed s negative body) (hword : small body = "nan") :
      WritesNumber s .nan
  | decimal {negative : Bool} {body : List Char} {ds : List Nat} {scale : Int}
      (h : Framed s negative body) (hbody : WritesDecimal body ds scale) :
      WritesNumber s (Binary64.nearest negative (value ds) scale)

theorem WritesNumber.strip_ne_empty (h : WritesNumber s x) : Text.strip s ≠ "" := by
  cases h with
  | infinity hframed hword =>
    exact hframed.strip_ne_empty (isBody_of_small (by obtain hword | hword := hword <;> simp [hword, names]))
  | nan hframed hword => exact hframed.strip_ne_empty (isBody_of_small (by simp [hword, names]))
  | decimal hframed hbody => exact hframed.strip_ne_empty hbody.isBody

theorem writesNumber_of_binary64? (h : binary64? s = some x) : WritesNumber s x := by
  have hframed := framed_sign_strip s
  simp only [binary64?] at h
  generalize sign (strip s.toList) = signed at h hframed
  obtain ⟨negative, body⟩ := signed
  split at h
  case isTrue hword =>
    obtain rfl := Option.some.inj h
    exact .infinity hframed hword
  case isFalse =>
  split at h
  case isTrue hword =>
    obtain rfl := Option.some.inj h
    exact .nan hframed hword
  case isFalse =>
  split at h
  case h_1 => cases h
  case h_2 front rest hread =>
  split at h
  case h_1 => cases h
  case h_2 back rest' hfraction =>
  split at h
  case h_1 => cases h
  case h_2 e he hne =>
    obtain rfl := Option.some.inj h
    rw [Binary64.ofDecimal_eq]
    exact .decimal hframed (writesDecimal_iff.2 ⟨front, back, rest, rest', e, hread, hfraction, he,
      hne, rfl, rfl⟩)
  case h_3 => cases h

theorem WritesNumber.binary64?_eq (h : WritesNumber s x) : binary64? s = some x := by
  cases h with
  | @infinity negative body hframed hword =>
    have hname : small body ∈ names := by
      obtain hword | hword := hword <;> simp [hword, names]
    simp only [binary64?, hframed.sign_strip (isBody_of_small hname), if_pos hword]
  | @nan negative body hframed hword =>
    have hname : small body ∈ names := by simp [hword, names]
    have hother : ¬ (small body = "inf" ∨ small body = "infinity") := by simp [hword]
    simp only [binary64?, hframed.sign_strip (isBody_of_small hname), if_neg hother, if_pos hword]
  | @decimal negative body ds scale hframed hbody =>
    have hname := hbody.small_notMem
    simp only [names, List.mem_cons, List.not_mem_nil, or_false, not_or] at hname
    obtain ⟨front, back, rest, rest', e, hread, hfraction, he, hne, rfl, rfl⟩ :=
      writesDecimal_iff.1 hbody
    simp only [binary64?, hframed.sign_strip hbody.isBody, hname, or_self, if_false, hread, hfraction,
      he, Binary64.ofDecimal_eq]

/-- **A binary64 number is read** from a text exactly if the text writes it. -/
theorem binary64?_eq_some_iff : binary64? s = some x ↔ WritesNumber s x :=
  ⟨writesNumber_of_binary64?, WritesNumber.binary64?_eq⟩

end Numeral
end Conventions
