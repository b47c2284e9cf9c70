import Conventions.Proofs.Json.Layout
import Conventions.Text.Blank

/-!
# Proofs/Json/RoundTrip — a value is read as it was written

`read_laidOut` says what is read for the text of a value in some layout: the value, with every number
as it is read back, or else one of its whole numbers is too long to be read. The proof is by induction
on the fuel of the reader, for a value, the items of an array and the members of an object at once
(`ReadsBack`).
-/

namespace Conventions
namespace Json

/-! ## What is read back -/

mutual

/-- The value with every number as it is read back. -/
def reread : Json → Json
  | .float x => .float (rereadNumber x)
  | .arr items => .arr (rereadItems items)
  | .obj members => .obj (rereadMembers members)
  | v => v

def rereadItems : List Json → List Json
  | [] => []
  | x :: rest => reread x :: rereadItems rest

def rereadMembers : List (String × Json) → List (String × Json)
  | [] => []
  | (k, v) :: rest => (k, reread v) :: rereadMembers rest

end

mutual

/-- Is a value nested no deeper than this, and are the keys of its objects distinct? -/
def fits (depth : Nat) : Json → Bool
  | .arr items => 0 < depth && fitsItems (depth - 1) items
  | .obj members =>
    0 < depth && decide (members.map (·.1)).Nodup && fitsMembers (depth - 1) members
  | _ => true

def fitsItems (depth : Nat) : List Json → Bool
  | [] => true
  | x :: rest => fits depth x && fitsItems depth rest

def fitsMembers (depth : Nat) : List (String × Json) → Bool
  | [] => true
  | (_, v) :: rest => fits depth v && fitsMembers depth rest

end

section Parts

variable {depth : Nat} {items : List Json} {ms : List (String × Json)}

theorem rereadItems_eq : rereadItems items = items.map reread := by
  induction items with
  | nil => rfl
  | cons x items ih => rw [rereadItems, ih, List.map_cons]

theorem rereadMembers_eq : rereadMembers ms = ms.map fun m => (m.1, m.2.reread) := by
  induction ms with
  | nil => rfl
  | cons m ms ih => rw [rereadMembers, ih, List.map_cons]

theorem fitsItems_iff : fitsItems depth items = true ↔ ∀ x ∈ items, x.fits depth = true := by
  induction items with
  | nil => simp [fitsItems]
  | cons x items ih => simp [fitsItems, ih]

theorem fitsMembers_iff : fitsMembers depth ms = true ↔ ∀ m ∈ ms, m.2.fits depth = true := by
  induction ms with
  | nil => simp [fitsMembers]
  | cons m ms ih => simp [fitsMembers, ih]

theorem isLongItems_eq_false_iff : isLongItems items = false ↔ ∀ x ∈ items, x.isLong = false := by
  induction items with
  | nil => simp [isLongItems]
  | cons x items ih => simp [isLongItems, ih]

theorem isLongMembers_eq_false_iff :
    isLongMembers ms = false ↔ ∀ m ∈ ms, m.2.isLong = false := by
  induction ms with
  | nil => simp [isLongMembers]
  | cons m ms ih => simp [isLongMembers, ih]

end Parts

/-- **A value is read**, unless a whole number is too long. -/
def Reads {α : Type} (long : Bool) (r : Except JsonFault α) (a : α) : Prop :=
  r = .ok a ∨ long = true ∧ r = .error .tooManyDigits

theorem Reads.bind {α β : Type} {long long' : Bool} {r : Except JsonFault α} {a : α} {b : β}
    {f : α → Except JsonFault β} (h : Reads long r a) (hf : Reads long' (f a) b) :
    Reads (long || long') (r >>= f) b := by
  obtain rfl | ⟨hlong, rfl⟩ := h
  · obtain hok | ⟨hlong, herror⟩ := hf
    · exact .inl hok
    · exact .inr ⟨by rw [hlong, Bool.or_true], herror⟩
  · exact .inr ⟨by rw [hlong, Bool.true_or], rfl⟩

/-! ## Blanks -/

theorem skipSpace_of_head {c : Char} {cs : List Char} (h : isSpace c = false) :
    skipSpace (c :: cs) = c :: cs :=
  List.dropWhile_cons_of_neg (by simp [h])

theorem IsBlank.skipSpace {blanks cs : List Char} {c : Char} (h : IsBlank blanks)
    (hc : isSpace c = false) : skipSpace (blanks ++ c :: cs) = c :: cs := by
  rw [Json.skipSpace, List.dropWhile_append_of_pos h]
  exact skipSpace_of_head hc

theorem EndsNumber.nil : EndsNumber [] := fun _ h => nomatch h

/-- What follows a number may have blanks in front. -/
theorem IsBlank.endsNumber {blanks cs : List Char} (h : IsBlank blanks) (hcs : EndsNumber cs) :
    EndsNumber (blanks ++ cs) := by
  have hspace (c : Char) (hc : isSpace c = true) :
      c.isDigit = false ∧ c ≠ '.' ∧ c ≠ 'e' ∧ c ≠ 'E' := by
    simp only [isSpace, Bool.or_eq_true, beq_iff_eq] at hc
    obtain ((rfl | rfl) | rfl) | rfl := hc <;> decide
  cases blanks with
  | nil => exact hcs
  | cons c blanks =>
    intro d hd
    obtain rfl := Option.some.inj hd
    exact hspace _ (h _ List.mem_cons_self)

theorem endsNumber_of_head {c : Char} {cs : List Char} (h : c = ',' ∨ c = ']' ∨ c = '\x7d') :
    EndsNumber (c :: cs) := by
  intro d hd
  obtain rfl := Option.some.inj hd
  obtain rfl | rfl | rfl := h <;> decide

/-! ## Values that are written in one piece -/

theorem value_of_head {fuel depth : Nat} {c : Char} {cs : List Char} (hquote : c ≠ '"')
    (hbracket : c ≠ '[') (hbrace : c ≠ '\x7b') :
    value (fuel + 1) depth (c :: cs) =
      match word? (c :: cs) with
      | some r => .ok r
      | none => number (c :: cs) := by
  have hstring : ∀ rest, c :: cs = '"' :: rest → False := fun _ h => hquote (List.cons.inj h).1
  have harray : ∀ rest, c :: cs = '[' :: rest → False := fun _ h => hbracket (List.cons.inj h).1
  have hobject : ∀ rest, c :: cs = '\x7b' :: rest → False := fun _ h => hbrace (List.cons.inj h).1
  rw [value] <;> first | rfl | assumption

theorem dropPrefix?_of_ne {a c : Char} (h : a ≠ c) (w cs : List Char) :
    dropPrefix? (a :: w) (c :: cs) = none := by
  simp [dropPrefix?, h]

/-- A number is none of the words that are values. -/
theorem word?_of_number {c : Char} {cs : List Char}
    (h : c.isDigit = true ∨ c = '-' ∧ ∀ d ∈ cs.head?, d.isDigit = true) :
    word? (c :: cs) = none := by
  have hplain : ['n', 't', 'f', 'N', 'I'].all (fun a => !a.isDigit && a != '-') = true := rfl
  have hletter : ∀ a ∈ ['n', 't', 'f', 'N', 'I'], a ≠ c := by
    rintro a ha rfl
    have hplain := List.all_eq_true.1 hplain a ha
    obtain hdigit | ⟨rfl, -⟩ := h
    · simp [hdigit] at hplain
    · simp at hplain
  have hminus : ∀ w, dropPrefix? ('-' :: 'I' :: w) (c :: cs) = none := by
    intro w
    obtain hdigit | ⟨rfl, hdigit⟩ := h
    · exact dropPrefix?_of_ne (by rintro rfl; cases hdigit) _ _
    · cases cs with
      | nil => rfl
      | cons d cs =>
        have hd : 'I' ≠ d := by
          rintro rfl
          cases hdigit _ rfl
        simp [dropPrefix?, hd]
  simp only [List.forall_mem_cons] at hletter
  simp [word?, dropPrefix?_of_ne, hletter, hminus]

theorem value_word {fuel depth : Nat} {word : String} {v : Json} {rest : List Char}
    (h : (word, v) ∈ [("null", Json.null), ("true", .bool true), ("false", .bool false),
      ("NaN", .float .nan), ("Infinity", .float (.infinite false)),
      ("-Infinity", .float (.infinite true))]) :
    value (fuel + 1) depth (word.toList ++ rest) = .ok (v, rest) := by
  simp only [List.mem_cons, Prod.mk.injEq, List.not_mem_nil, or_false] at h
  obtain ⟨rfl, rfl⟩ | ⟨rfl, rfl⟩ | ⟨rfl, rfl⟩ | ⟨rfl, rfl⟩ | ⟨rfl, rfl⟩ | ⟨rfl, rfl⟩ := h
  all_goals
    simp [value_of_head, word?, dropPrefix?]

/-- **The start of a number**: a digit, or a sign in front of one. -/
def StartsNumber (cs : List Char) : Prop :=
  ∃ c rest, cs = c :: rest ∧
    (c.isDigit = true ∨ c = '-' ∧ ∀ d ∈ rest.head?, d.isDigit = true)

theorem startsNumber_sign {negative : Bool} {c : Char} {cs : List Char} (hc : cs.head? = some c)
    (hdigit : c.isDigit = true) : StartsNumber (sign negative ++ cs) := by
  obtain ⟨rest, rfl⟩ : ∃ rest, cs = c :: rest := List.head?_eq_some_iff.1 hc
  cases negative with
  | true => exact ⟨'-', c :: rest, rfl, .inr ⟨rfl, fun d hd => Option.some.inj hd ▸ hdigit⟩⟩
  | false => exact ⟨c, rest, rfl, .inl hdigit⟩

theorem value_of_startsNumber {fuel depth : Nat} {cs : List Char} (h : StartsNumber cs) :
    value (fuel + 1) depth cs = number cs := by
  obtain ⟨c, rest, rfl, hc⟩ := h
  have hne : c ≠ '"' ∧ c ≠ '[' ∧ c ≠ '\x7b' := by
    obtain hdigit | ⟨rfl, -⟩ := hc
    · refine ⟨?_, ?_, ?_⟩ <;> rintro rfl <;> cases hdigit
    · decide
  rw [value_of_head hne.1 hne.2.1 hne.2.2, word?_of_number hc]

theorem startsNumber_toString (i : Int) (rest : List Char) :
    StartsNumber ((toString i).toList ++ rest) := by
  obtain ⟨d, ds, hds⟩ := exists_toDigits_eq i.natAbs
  rw [toList_toString, List.append_assoc, hds]
  exact startsNumber_sign rfl (isDigit_of_mem_toDigits (hds ▸ List.mem_cons_self))

theorem startsNumber_text (negative : Bool) (n : Nat) {rest : List Char} (h : EndsNumber rest) :
    StartsNumber ((Binary64.finite negative n).text.toList ++ rest) := by
  obtain ⟨x, hx, htext, -⟩ := toList_text negative n
  obtain ⟨c, hc, hdigit⟩ := isDigit_of_unsigned (unsigned_decimalText negative hx h)
  rw [htext, List.append_assoc]
  exact startsNumber_sign hc hdigit

theorem value_int {fuel depth : Nat} (i : Int) {rest : List Char} (h : EndsNumber rest) :
    Reads (isLongNumber i) (value (fuel + 1) depth ((toString i).toList ++ rest))
      (.int i, rest) := by
  rw [value_of_startsNumber (startsNumber_toString i rest), number_toString i h]
  by_cases hlong : maxDigits < (Nat.toDigits 10 i.natAbs).length
  · exact .inr ⟨decide_eq_true hlong, if_pos hlong⟩
  · exact .inl (if_neg hlong)

theorem value_float {fuel depth : Nat} (x : Binary64) {rest : List Char} (h : EndsNumber rest) :
    value (fuel + 1) depth ((floatText x).toList ++ rest) =
      .ok (.float (rereadNumber x), rest) := by
  match x with
  | .nan => exact value_word (by simp [floatText, rereadNumber])
  | .infinite true => exact value_word (by simp [floatText, rereadNumber])
  | .infinite false => exact value_word (by simp [floatText, rereadNumber])
  | .finite negative n =>
    exact (value_of_startsNumber (startsNumber_text negative n h)).trans (number_text n h)

/-- The text of a string, with what follows it. -/
theorem toList_stringText (s : String) (rest : List Char) :
    (stringText s).toList ++ rest = '"' :: (s.toList.flatMap escapeChar ++ '"' :: rest) := by
  simp [stringText]

theorem stringBody_stringText (s : String) (rest : List Char) :
    stringBody ((s.toList.flatMap escapeChar ++ '"' :: rest).length + 1) []
      (s.toList.flatMap escapeChar ++ '"' :: rest) = .ok (s, rest) := by
  have hlength := length_le_escaped s.toList
  rw [stringBody_escaped s.toList [] rest _ (by rw [List.length_append]; omega), List.reverse_nil,
    List.nil_append, String.ofList_toList]

theorem value_string {fuel depth : Nat} (s : String) (rest : List Char) :
    value (fuel + 1) depth ((stringText s).toList ++ rest) = .ok (.str s, rest) := by
  rw [toList_stringText, value, stringBody_stringText]
  rfl

/-! ## Arrays and objects -/

theorem size_pos (v : Json) : 0 < v.size := by
  cases v <;> simp [size]

/-- **The start of a value** is no blank, no end of an array and no byte order mark. -/
def StartsValue (cs : List Char) : Prop :=
  ∃ c rest, cs = c :: rest ∧ isSpace c = false ∧ c ≠ ']' ∧ c ≠ '\uFEFF'

theorem StartsNumber.startsValue {cs : List Char} (h : StartsNumber cs) : StartsValue cs := by
  obtain ⟨c, rest, rfl, hc⟩ := h
  refine ⟨c, rest, rfl, ?_⟩
  obtain hdigit | ⟨rfl, -⟩ := hc
  · have hplain : [' ', '\t', '\n', '\r', ']', '\uFEFF'].all (fun d => !d.isDigit) = true := rfl
    have hne : ∀ d ∈ [' ', '\t', '\n', '\r', ']', '\uFEFF'], d ≠ c := by
      rintro d hd rfl
      have hplain := List.all_eq_true.1 hplain d hd
      simp [hdigit] at hplain
    simp only [List.forall_mem_cons] at hne
    obtain ⟨hblank, htab, hfeed, hreturn, hbracket, hmark, -⟩ := hne
    exact ⟨by simp [isSpace, hblank.symm, htab.symm, hfeed.symm, hreturn.symm], hbracket.symm,
      hmark.symm⟩
  · decide

section LaidOut

variable {l : Layout}

theorem startsValue_laidOut (level : Nat) (v : Json) {rest : List Char} (h : EndsNumber rest) :
    StartsValue (laidOut l level v ++ rest) := by
  match v with
  | .null => exact ⟨'n', _, by simp [laidOut, compact]; rfl, by decide, by decide, by decide⟩
  | .bool true => exact ⟨'t', _, by simp [laidOut, compact]; rfl, by decide, by decide, by decide⟩
  | .bool false => exact ⟨'f', _, by simp [laidOut, compact]; rfl, by decide, by decide, by decide⟩
  | .int i => exact (startsNumber_toString i rest).startsValue
  | .float .nan =>
    exact ⟨'N', _, by simp [laidOut, compact, floatText]; rfl, by decide, by decide, by decide⟩
  | .float (.infinite true) =>
    exact ⟨'-', _, by simp [laidOut, compact, floatText]; rfl, by decide, by decide, by decide⟩
  | .float (.infinite false) =>
    exact ⟨'I', _, by simp [laidOut, compact, floatText]; rfl, by decide, by decide, by decide⟩
  | .float (.finite negative n) => exact (startsNumber_text negative n h).startsValue
  | .str s =>
    exact ⟨'"', _, by simp [laidOut, compact, stringText]; rfl, by decide, by decide, by decide⟩
  | .arr [] => exact ⟨'[', _, rfl, by decide, by decide, by decide⟩
  | .arr (x :: items) => exact ⟨'[', _, rfl, by decide, by decide, by decide⟩
  | .obj [] => exact ⟨'\x7b', _, rfl, by decide, by decide, by decide⟩
  | .obj (m :: members) => exact ⟨'\x7b', _, rfl, by decide, by decide, by decide⟩

theorem startsValue_laidItems (level : Nat) (x : Json) (items : List Json) {rest : List Char}
    (h : EndsNumber rest) : StartsValue (laidItems l level (x :: items) ++ rest) := by
  cases items with
  | nil => exact startsValue_laidOut level x h
  | cons y items =>
    rw [laidItems, List.append_assoc]
    exact startsValue_laidOut level x (endsNumber_of_head (.inl rfl))

theorem keyed_head (k : String) (cs : List Char) : ∃ rest, keyed k cs = '"' :: rest :=
  ⟨_, by rw [keyed, toList_stringText]⟩

theorem laidMembers_head (level : Nat) (m : String × Json) (members : List (String × Json)) :
    ∃ rest, laidMembers l level (m :: members) = '"' :: rest := by
  cases members with
  | nil => exact keyed_head m.1 _
  | cons n members =>
    obtain ⟨rest, hrest⟩ := keyed_head m.1 (laidOut l level m.2)
    exact ⟨_, by rw [laidMembers, hrest]; rfl⟩

theorem value_bracket {fuel depth : Nat} {blanks : List Char} (h : IsBlank blanks) {c : Char}
    {cs : List Char} (hspace : isSpace c = false) (hne : c ≠ ']') :
    value (fuel + 1) (depth + 1) ('[' :: (blanks ++ c :: cs)) = elements fuel depth [] (c :: cs) := by
  rw [value]
  simp only [h.skipSpace hspace]
  split
  case h_1 heq => exact absurd (List.cons.inj heq).1 hne
  case h_2 => rfl

theorem value_brace {fuel depth : Nat} {blanks : List Char} (h : IsBlank blanks) (cs : List Char) :
    value (fuel + 1) (depth + 1) ('\x7b' :: (blanks ++ '"' :: cs)) =
      members fuel depth [] ('"' :: cs) := by
  have hquote : isSpace '"' = false := rfl
  rw [value]
  simp only [h.skipSpace hquote]
  rfl

theorem exists_depth_of_arr {depth : Nat} {items : List Json} (h : fits depth (.arr items) = true) :
    ∃ d, depth = d + 1 := by
  have hpos : 0 < depth := by
    rw [fits, Bool.and_eq_true] at h
    exact of_decide_eq_true h.1
  exact ⟨depth - 1, by omega⟩

theorem exists_depth_of_obj {depth : Nat} {members : List (String × Json)}
    (h : fits depth (.obj members) = true) : ∃ d, depth = d + 1 := by
  have hpos : 0 < depth := by
    rw [fits, Bool.and_eq_true, Bool.and_eq_true] at h
    exact of_decide_eq_true h.1.1
  exact ⟨depth - 1, by omega⟩

/-- **Values, items and members are read back**, as long as the fuel is enough. -/
structure ReadsBack (l : Layout) (fuel : Nat) : Prop where
  value : ∀ {v : Json} {depth : Nat} {rest : List Char} (level : Nat), 2 * v.size ≤ fuel + 1 →
    v.fits depth = true → EndsNumber rest →
      Reads v.isLong (value fuel depth (laidOut l level v ++ rest)) (v.reread, rest)
  elements : ∀ {x : Json} {items : List Json} {depth : Nat} {blanks : List Char} (done : List Json)
    (level : Nat) (rest : List Char), IsBlank blanks → 2 * sizeItems (x :: items) ≤ fuel →
      fitsItems depth (x :: items) = true → Reads (isLongItems (x :: items))
        (elements fuel depth done (laidItems l level (x :: items) ++ (blanks ++ ']' :: rest)))
        (.arr (done.reverse ++ rereadItems (x :: items)), rest)
  members : ∀ {m : String × Json} {ms : List (String × Json)} {depth : Nat} {blanks : List Char}
    (done : List (String × Json)) (level : Nat) (rest : List Char), IsBlank blanks →
      2 * sizeMembers (m :: ms) ≤ fuel → fitsMembers depth (m :: ms) = true →
        ((done ++ m :: ms).map (·.1)).Nodup → Reads (isLongMembers (m :: ms))
          (members fuel depth done (laidMembers l level (m :: ms) ++ (blanks ++ '\x7d' :: rest)))
          (.obj (done ++ rereadMembers (m :: ms)), rest)

theorem ReadsBack.elements_succ {fuel : Nat} (h : ReadsBack l fuel) {x : Json}
    {items done : List Json} {depth : Nat} {blanks : List Char} (level : Nat) (rest : List Char)
    (hblanks : IsBlank blanks) (hfuel : 2 * sizeItems (x :: items) ≤ fuel + 1)
    (hfits : fitsItems depth (x :: items) = true) :
    Reads (isLongItems (x :: items))
      (Json.elements (fuel + 1) depth done
        (laidItems l level (x :: items) ++ (blanks ++ ']' :: rest)))
      (.arr (done.reverse ++ rereadItems (x :: items)), rest) := by
  have hpos := x.size_pos
  have hbracket : isSpace ']' = false := rfl
  have hend : EndsNumber (blanks ++ ']' :: rest) :=
    hblanks.endsNumber (endsNumber_of_head (.inr (.inl rfl)))
  rw [sizeItems] at hfuel
  rw [fitsItems, Bool.and_eq_true] at hfits
  rw [Json.elements, isLongItems]
  cases items with
  | nil =>
    rw [laidItems]
    refine (h.value level (by omega) hfits.1 hend).bind (.inl ?_)
    simp only [hblanks.skipSpace hbracket]
    simp [rereadItems]
  | cons y items =>
    rw [laidItems, List.append_assoc, List.cons_append]
    refine (h.value level (by omega) hfits.1 (endsNumber_of_head (.inl rfl))).bind ?_
    obtain ⟨c, cs, hcs, hspace, -⟩ := startsValue_laidItems (l := l) level y items hend
    have hcomma : isSpace ',' = false := rfl
    simp only [skipSpace_of_head hcomma, List.append_assoc]
    rw [hcs, (l.isBlank_comma level).skipSpace hspace, ← hcs]
    have hrest := h.elements (x.reread :: done) level rest hblanks (by omega) hfits.2
    rwa [List.reverse_cons, List.append_assoc] at hrest

/-- A key that is not among those read is put at the end. -/
theorem insert_of_notMem {k : String} {v : Json} {done : List (String × Json)}
    (h : k ∉ done.map (·.1)) : insert k v done = done ++ [(k, v)] := by
  induction done with
  | nil => rfl
  | cons m done ih =>
    rw [List.map_cons, List.mem_cons, not_or] at h
    rw [insert, if_neg (Ne.symm h.1), ih h.2, List.cons_append]

/-- The key in front of a value. -/
theorem members_key {fuel depth : Nat} {done : List (String × Json)} (k : String) {cs : List Char}
    (hcs : StartsValue cs) :
    members (fuel + 1) depth done ((stringText k).toList ++ ':' :: ' ' :: cs) =
      (value fuel depth cs >>= fun p =>
        match skipSpace p.2 with
        | '\x7d' :: rest => .ok (.obj (insert k p.1 done), rest)
        | ',' :: rest => members fuel depth (insert k p.1 done) (skipSpace rest)
        | _ => .error .expectedComma) := by
  obtain ⟨c, rest, rfl, hspace, -⟩ := hcs
  have hblank : skipSpace (' ' :: c :: rest) = c :: rest := by
    rw [skipSpace, List.dropWhile_cons_of_pos rfl]
    exact skipSpace_of_head hspace
  rw [toList_stringText, members, stringBody_stringText]
  conv_rhs => rw [← hblank]
  rfl

theorem ReadsBack.members_succ {fuel : Nat} (h : ReadsBack l fuel) {m : String × Json}
    {ms done : List (String × Json)} {depth : Nat} {blanks : List Char} (level : Nat)
    (rest : List Char) (hblanks : IsBlank blanks) (hfuel : 2 * sizeMembers (m :: ms) ≤ fuel + 1)
    (hfits : fitsMembers depth (m :: ms) = true) (hkeys : ((done ++ m :: ms).map (·.1)).Nodup) :
    Reads (isLongMembers (m :: ms))
      (Json.members (fuel + 1) depth done
        (laidMembers l level (m :: ms) ++ (blanks ++ '\x7d' :: rest)))
      (.obj (done ++ rereadMembers (m :: ms)), rest) := by
  obtain ⟨k, v⟩ := m
  have hpos := v.size_pos
  have hbrace : isSpace '\x7d' = false := rfl
  have hend : EndsNumber (blanks ++ '\x7d' :: rest) :=
    hblanks.endsNumber (endsNumber_of_head (.inr (.inr rfl)))
  have hinsert : insert k v.reread done = done ++ [(k, v.reread)] := by
    refine insert_of_notMem fun hmem => ?_
    rw [List.map_append, List.nodup_append] at hkeys
    exact hkeys.2.2 k hmem k (by simp) rfl
  rw [sizeMembers] at hfuel
  rw [fitsMembers, Bool.and_eq_true] at hfits
  rw [isLongMembers]
  cases ms with
  | nil =>
    rw [laidMembers, keyed, List.append_assoc, List.cons_append, List.cons_append,
      members_key k (startsValue_laidOut level v hend)]
    refine (h.value level (by omega) hfits.1 hend).bind (.inl ?_)
    simp only [hblanks.skipSpace hbrace, hinsert]
    rfl
  | cons m ms =>
    have hcomma : isSpace ',' = false := rfl
    have hquote : isSpace '"' = false := rfl
    obtain ⟨cs, hcs⟩ := laidMembers_head (l := l) level m ms
    rw [laidMembers, keyed, List.append_assoc, List.append_assoc, List.cons_append, List.cons_append,
      List.cons_append, members_key k (startsValue_laidOut level v (endsNumber_of_head (.inl rfl)))]
    refine (h.value level (by omega) hfits.1 (endsNumber_of_head (.inl rfl))).bind ?_
    simp only [skipSpace_of_head hcomma, List.append_assoc, hinsert]
    rw [hcs, List.cons_append, (l.isBlank_comma level).skipSpace hquote, ← List.cons_append, ← hcs]
    have hrest := h.members (done ++ [(k, v.reread)]) level rest hblanks (by omega) hfits.2
      (by simpa using hkeys)
    rwa [List.append_assoc] at hrest

theorem ReadsBack.value_succ {fuel : Nat} (h : ReadsBack l fuel) {v : Json} {depth : Nat}
    {rest : List Char} (level : Nat) (hfuel : 2 * v.size ≤ fuel + 2) (hfits : v.fits depth = true)
    (hrest : EndsNumber rest) :
    Reads v.isLong (Json.value (fuel + 1) depth (laidOut l level v ++ rest)) (v.reread, rest) := by
  match v with
  | .null => exact .inl (value_word (by simp [compact, reread]))
  | .bool true => exact .inl (value_word (by simp [compact, reread]))
  | .bool false => exact .inl (value_word (by simp [compact, reread]))
  | .int i => exact value_int i hrest
  | .float x => exact .inl (value_float x hrest)
  | .str s => exact .inl (value_string s rest)
  | .arr [] =>
    obtain ⟨depth, rfl⟩ := exists_depth_of_arr hfits
    exact .inl rfl
  | .arr (x :: items) =>
    obtain ⟨depth, rfl⟩ := exists_depth_of_arr hfits
    have hitems : fitsItems depth (x :: items) = true := by simpa [fits] using hfits
    have hend : EndsNumber (l.closing level ++ ']' :: rest) :=
      (l.isBlank_closing level).endsNumber (endsNumber_of_head (.inr (.inl rfl)))
    rw [size] at hfuel
    obtain ⟨c, cs, hcs, hspace, hne, -⟩ := startsValue_laidItems (l := l) (level + 1) x items hend
    have hread := h.elements [] (level + 1) rest (l.isBlank_closing level) (by omega) hitems
    rw [hcs] at hread
    rw [laidOut, List.cons_append, List.append_assoc, List.append_assoc, List.append_assoc,
      List.singleton_append, hcs, value_bracket (l.isBlank_opening level) hspace hne]
    exact hread
  | .obj [] =>
    obtain ⟨depth, rfl⟩ := exists_depth_of_obj hfits
    exact .inl rfl
  | .obj (m :: members) =>
    obtain ⟨depth, rfl⟩ := exists_depth_of_obj hfits
    obtain ⟨hkeys, hmembers⟩ : ((m :: members).map (·.1)).Nodup ∧
        fitsMembers depth (m :: members) = true := by
      simpa [fits, -List.map_cons, -List.nodup_cons] using hfits
    rw [size] at hfuel
    obtain ⟨cs, hcs⟩ := laidMembers_head (l := l) (level + 1) m members
    have hread := h.members [] (level + 1) rest (l.isBlank_closing level) (by omega) hmembers hkeys
    rw [laidOut, List.cons_append, List.append_assoc, List.append_assoc, List.append_assoc,
      List.singleton_append]
    rw [hcs, List.cons_append] at hread ⊢
    rw [value_brace (l.isBlank_opening level)]
    exact hread

theorem readsBack (l : Layout) (fuel : Nat) : ReadsBack l fuel := by
  induction fuel with
  | zero =>
    refine ⟨fun {v} _ _ _ h => ?_, fun {x} _ _ _ _ _ _ _ h => ?_, fun {m} _ _ _ _ _ _ _ h => ?_⟩
    · have := v.size_pos
      omega
    · have := x.size_pos
      rw [sizeItems] at h
      omega
    · have := m.2.size_pos
      rw [sizeMembers] at h
      omega
  | succ fuel ih =>
    exact ⟨fun level => ih.value_succ level, fun _ level rest => ih.elements_succ level rest,
      fun _ level rest => ih.members_succ level rest⟩

/-! ## The length of a text -/

theorem sizeItems_le_length (level : Nat) {items : List Json}
    (h : ∀ x ∈ items, x.size ≤ (laidOut l level x).length) :
    sizeItems items ≤ (laidItems l level items).length := by
  induction items with
  | nil => exact Nat.le_refl 0
  | cons x items ih =>
    rw [List.forall_mem_cons] at h
    cases items with
    | nil => exact h.1
    | cons y items =>
      have := h.1
      have := ih h.2
      rw [laidItems, sizeItems]
      simp only [List.length_cons, List.length_append]
      omega

theorem length_lt_keyed (k : String) (cs : List Char) : cs.length < (keyed k cs).length := by
  simp only [keyed, List.length_append, List.length_cons]
  omega

theorem sizeMembers_le_length (level : Nat) {members : List (String × Json)}
    (h : ∀ m ∈ members, m.2.size ≤ (laidOut l level m.2).length) :
    sizeMembers members ≤ (laidMembers l level members).length := by
  induction members with
  | nil => exact Nat.le_refl 0
  | cons m members ih =>
    rw [List.forall_mem_cons] at h
    have := h.1
    have := length_lt_keyed m.1 (laidOut l level m.2)
    cases members with
    | nil =>
      rw [laidMembers, sizeMembers, sizeMembers]
      omega
    | cons n members =>
      have := ih h.2
      rw [laidMembers, sizeMembers]
      simp only [List.length_cons, List.length_append]
      omega

theorem length_pos (v : Json) (level : Nat) : 1 ≤ (laidOut l level v).length := by
  obtain ⟨c, rest, h, -⟩ := startsValue_laidOut (l := l) level v EndsNumber.nil
  rw [List.append_nil] at h
  rw [h, List.length_cons]
  omega

/-- A value has no more parts than its text has characters. -/
theorem size_le_length (v : Json) (level : Nat) : v.size ≤ (laidOut l level v).length := by
  induction v using partsInduction generalizing level with
  | arr items ih =>
    cases items with
    | nil => exact length_pos (.arr []) level
    | cons x items =>
      have := sizeItems_le_length (level + 1) fun y hy => ih y hy (level + 1)
      rw [laidOut, size]
      simp only [List.length_cons, List.length_append]
      omega
  | obj members ih =>
    cases members with
    | nil => exact length_pos (.obj []) level
    | cons m members =>
      have := sizeMembers_le_length (level + 1) fun n hn => ih n hn (level + 1)
      rw [laidOut, size]
      simp only [List.length_cons, List.length_append]
      omega
  | _ => exact length_pos _ level

/-! ## Whole texts -/

/-- **A value is read as it was written**, whatever the layout. -/
theorem read_laidOut {v : Json} {s : String} (htext : s.toList = laidOut l 0 v)
    (h : v.fits maxDepth = true) : Reads v.isLong (read s) v.reread := by
  obtain ⟨c, rest, hstarts, hspace, -, hmark⟩ := startsValue_laidOut (l := l) 0 v EndsNumber.nil
  have hsize : v.size ≤ s.toList.length := htext ▸ v.size_le_length 0
  have hvalue := (readsBack l (2 * s.toList.length + 2)).value 0 (by omega) h EndsNumber.nil
  rw [List.append_nil, ← htext] at hstarts hvalue
  have hstart : skipSpace s.toList = s.toList := by
    rw [hstarts]
    exact skipSpace_of_head hspace
  have hhead : s.toList.head? ≠ some '\uFEFF' := by
    rw [hstarts]
    exact fun heq => hmark (Option.some.inj heq)
  rw [read, if_neg hhead, hstart]
  obtain hok | ⟨hlong, herror⟩ := hvalue
  · rw [hok]
    exact .inl rfl
  · rw [herror]
    exact .inr ⟨hlong, rfl⟩

end LaidOut

/-- A value whose whole numbers are not too long is read. -/
theorem Reads.eq_ok {α : Type} {r : Except JsonFault α} {a : α} (h : Reads false r a) : r = .ok a :=
  h.resolve_right fun ⟨htrue, _⟩ => Bool.false_ne_true htrue

/-- **A value is read from its text on many lines.** -/
theorem read_indented {v : Json} (h : v.fits maxDepth = true) :
    Reads v.isLong (read v.indented) v.reread :=
  read_laidOut (laidOut_spread 0 v).symm h

/-- **A value is read from its text on one line.** -/
theorem read_compact {v : Json} (h : v.fits maxDepth = true) (hlong : v.isLong = false) :
    read v.compact = .ok v.reread :=
  (hlong ▸ read_laidOut (laidOut_dense 0 v).symm h).eq_ok

theorem unifyFrom_of_notMem {cs : List Char} (h : '\r' ∉ cs) (done : List Char) :
    Text.unifyFrom done cs = done.reverse ++ cs := by
  induction cs generalizing done with
  | nil => simp [Text.unifyFrom]
  | cons c cs ih =>
    rw [List.mem_cons, not_or] at h
    rw [Text.unifyFrom, if_neg (Ne.symm h.1), ih h.2, List.reverse_cons, List.append_assoc,
      List.singleton_append]
    exact fun _ hc _ => h.1 hc.symm

/-- The text on many lines has no line ends but line feeds. -/
theorem unifyNewlines_indented (v : Json) :
    String.ofList (Text.unifyNewlines v.indented.toList) = v.indented := by
  have hreturn : '\r' ∉ v.indented.toList := return_notMem_indentedAt 0 v
  rw [Text.unifyNewlines, unifyFrom_of_notMem hreturn, List.reverse_nil, List.nil_append,
    String.ofList_toList]

end Json
end Conventions
