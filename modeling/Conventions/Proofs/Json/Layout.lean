import Conventions.Json.Parts
import Conventions.Proofs.Json.Numbers
import Conventions.Json.Reader

/-!
# Proofs/Json/Layout — how the text of a value is laid out

The text on one line and the text on many lines differ in their blanks only. Both are the text in some
layout (`laidOut_spread`, `laidOut_dense`), which holds no control character but those of its blanks
(`forall_mem_laidOut`). Every character of a string is written in one piece, which is read as this
character (`stringBody_escapeChar`); the quotes of the string are the only ones that are not escaped.
-/

namespace Conventions
namespace Json

/-! ## Strings -/

/-- The four digits of the code of a control character. -/
theorem hex_of_lt : ∀ n < 32, Text.hex 4 n = ['0', '0', (n / 16).digitChar, (n % 16).digitChar] ∧
    Text.hexDigit? (n / 16).digitChar = some (n / 16) ∧
      Text.hexDigit? (n % 16).digitChar = some (n % 16) := by
  decide

/-- **The code of a control character** is read as the character, if something follows it. -/
theorem unicodeEscape_hex {c : Char} (hc : c.toNat < 32) {rest : List Char} (hrest : rest ≠ []) :
    unicodeEscape (Text.hex 4 c.toNat ++ rest) = .ok (c, rest) := by
  obtain ⟨hhex, hhigh, hlow⟩ := hex_of_lt c.toNat hc
  have hzero : Text.hexDigit? '0' = some 0 := by decide
  have hcode : hex4? (Text.hex 4 c.toNat ++ rest) = some (c.toNat, rest) := by
    rw [hhex]
    simp only [List.cons_append, List.nil_append, hex4?, hzero, hhigh, hlow, Option.bind_eq_bind,
      Option.bind_some, Option.some.injEq, Prod.mk.injEq, and_true]
    omega
  have hlength : ¬ (Text.hex 4 c.toNat ++ rest).length < 5 := by
    have := List.length_pos_iff.2 hrest
    rw [hhex]
    simp only [List.cons_append, List.nil_append, List.length_cons]
    omega
  rw [unicodeEscape, if_neg hlength, hcode]
  simp only
  rw [if_neg (by omega), escapedChar, if_neg (by omega), Char.ofNat_toNat]

/-- **A character is read as it was written.** -/
theorem stringBody_escapeChar (fuel : Nat) (done : List Char) (c : Char) {rest : List Char}
    (hrest : rest ≠ []) :
    stringBody (fuel + 1) done (escapeChar c ++ rest) = stringBody fuel (c :: done) rest := by
  rw [escapeChar]
  split
  case isTrue h => rw [h]; rfl
  split
  case isTrue h => rw [h]; rfl
  split
  case isTrue h => rw [h]; rfl
  split
  case isTrue h => rw [h]; rfl
  split
  case isTrue h => rw [h]; rfl
  split
  case isTrue h => rw [h]; rfl
  split
  case isTrue h => rw [h]; rfl
  split
  case isTrue h =>
    rw [List.cons_append, List.cons_append, stringBody, unicodeEscape_hex h hrest]
    rfl
  case isFalse hquote hslash _ _ _ _ _ hcontrol =>
    rw [List.singleton_append, stringBody, if_neg hcontrol]
    · exact hquote
    · exact fun h => absurd h hslash
    · exact fun _ h => absurd h hslash
    · exact fun _ _ h => absurd h hslash

/-- **The body of a string is read as the string.** -/
theorem stringBody_escaped (s done rest : List Char) (fuel : Nat) (hfuel : s.length < fuel) :
    stringBody fuel done (s.flatMap escapeChar ++ '"' :: rest) =
      .ok (String.ofList (done.reverse ++ s), rest) := by
  induction s generalizing done fuel with
  | nil =>
    obtain ⟨fuel, rfl⟩ : ∃ k, fuel = k + 1 := ⟨fuel - 1, by omega⟩
    rw [List.append_nil]
    rfl
  | cons c s ih =>
    obtain ⟨fuel, rfl⟩ : ∃ k, fuel = k + 1 := ⟨fuel - 1, by omega⟩
    rw [List.flatMap_cons, List.append_assoc, stringBody_escapeChar fuel done c (by simp),
      ih (c :: done) fuel (Nat.lt_of_succ_lt_succ hfuel), List.reverse_cons, List.append_assoc,
      List.singleton_append]

theorem length_le_escaped (s : List Char) : s.length ≤ (s.flatMap escapeChar).length := by
  induction s with
  | nil => exact Nat.le_refl _
  | cons c s ih =>
    have : 1 ≤ (escapeChar c).length := by
      rw [escapeChar]
      repeat' split
      all_goals simp
    simp only [List.flatMap_cons, List.length_append, List.length_cons]
    omega

/-! ## Parts -/

/-- **Induction over the parts of a value.** -/
theorem partsInduction {P : Json → Prop} (null : P .null) (bool : ∀ b, P (.bool b))
    (int : ∀ i, P (.int i)) (float : ∀ x, P (.float x)) (str : ∀ s, P (.str s))
    (arr : ∀ items, (∀ x ∈ items, P x) → P (.arr items))
    (obj : ∀ members, (∀ m ∈ members, P m.2) → P (.obj members)) (v : Json) : P v := by
  induction hn : v.size using Nat.strongRecOn generalizing v with
  | ind n ih =>
    subst hn
    cases v with
    | null => exact null
    | bool b => exact bool b
    | int i => exact int i
    | float x => exact float x
    | str s => exact str s
    | arr items => exact arr items fun x hx => ih _ (size_lt_of_mem_items hx) x rfl
    | obj members => exact obj members fun m hm => ih _ (size_lt_of_mem_members hm) m.2 rfl

/-! ## Layouts -/

/-- Blanks, and nothing else. -/
def IsBlank (cs : List Char) : Prop := ∀ c ∈ cs, isSpace c = true

/-- **A layout**: the blanks behind an opening bracket, behind a comma and in front of a closing
bracket, on each level. -/
structure Layout where
  opening : Nat → List Char
  comma : Nat → List Char
  closing : Nat → List Char
  isBlank_opening (level : Nat) : IsBlank (opening level)
  isBlank_comma (level : Nat) : IsBlank (comma level)
  isBlank_closing (level : Nat) : IsBlank (closing level)

/-- The text of a member: its key, and the text of its value. -/
def keyed (k : String) (cs : List Char) : List Char := (stringText k).toList ++ ':' :: ' ' :: cs

theorem toList_keyed (k v : String) : (stringText k ++ ": " ++ v).toList = keyed k v.toList := by
  simp [keyed]

section LaidOut

variable (l : Layout)

mutual

/-- **The text of a value in a layout**, starting at a level. -/
def laidOut (level : Nat) : Json → List Char
  | .arr (x :: items) =>
    '[' :: (l.opening level ++ (laidItems (level + 1) (x :: items) ++ (l.closing level ++ [']'])))
  | .obj (m :: members) =>
    '\x7b' :: (l.opening level ++
      (laidMembers (level + 1) (m :: members) ++ (l.closing level ++ ['\x7d'])))
  | v => v.compact.toList

def laidItems (level : Nat) : List Json → List Char
  | [] => []
  | [x] => laidOut level x
  | x :: y :: items => laidOut level x ++ ',' :: (l.comma level ++ laidItems level (y :: items))

def laidMembers (level : Nat) : List (String × Json) → List Char
  | [] => []
  | [m] => keyed m.1 (laidOut level m.2)
  | m :: n :: members =>
    keyed m.1 (laidOut level m.2) ++ ',' :: (l.comma level ++ laidMembers level (n :: members))

end

theorem laidItems_eq (level : Nat) (items : List Json) :
    laidItems l level items =
      List.intercalate (',' :: l.comma level) (items.map (laidOut l level)) := by
  induction items with
  | nil => rfl
  | cons x items ih =>
    cases items with
    | nil => simp [laidItems, List.intercalate]
    | cons y items => simp [laidItems, ih, List.intercalate]

theorem laidMembers_eq (level : Nat) (members : List (String × Json)) :
    laidMembers l level members = List.intercalate (',' :: l.comma level)
      (members.map fun m => keyed m.1 (laidOut l level m.2)) := by
  induction members with
  | nil => rfl
  | cons m members ih =>
    cases members with
    | nil => simp [laidMembers, List.intercalate]
    | cons n members => simp [laidMembers, ih, List.intercalate]

end LaidOut

/-! ## The text on one line -/

/-- **The layout on one line**: a blank behind each comma. -/
def dense : Layout where
  opening _ := []
  comma _ := [' ']
  closing _ := []
  isBlank_opening _ := by simp [IsBlank]
  isBlank_comma _ := by simp [IsBlank, isSpace]
  isBlank_closing _ := by simp [IsBlank]

theorem map_toList_compactItems (items : List Json) :
    (compactItems items).map String.toList = items.map fun x => x.compact.toList := by
  induction items with
  | nil => rfl
  | cons x items ih => rw [compactItems, List.map_cons, List.map_cons, ih]

theorem map_toList_compactMembers (members : List (String × Json)) :
    (compactMembers members).map String.toList =
      members.map fun m => keyed m.1 m.2.compact.toList := by
  induction members with
  | nil => rfl
  | cons m members ih => rw [compactMembers, List.map_cons, List.map_cons, ih, toList_keyed]

/-- **The text on one line** is the text in the dense layout. -/
theorem laidOut_dense (level : Nat) (v : Json) : laidOut dense level v = v.compact.toList := by
  induction v using partsInduction generalizing level with
  | arr items ih =>
    cases items with
    | nil => rfl
    | cons x items =>
      have hitems : (x :: items).map (laidOut dense (level + 1)) =
          (compactItems (x :: items)).map String.toList := by
        rw [map_toList_compactItems]
        exact List.map_congr_left fun y hy => ih y hy (level + 1)
      rw [laidOut, laidItems_eq, hitems, compact]
      generalize compactItems (x :: items) = texts
      simp [dense, String.toList_intercalate]
  | obj members ih =>
    cases members with
    | nil => rfl
    | cons m members =>
      have hmembers : ((m :: members).map fun n => keyed n.1 (laidOut dense (level + 1) n.2)) =
          (compactMembers (m :: members)).map String.toList := by
        rw [map_toList_compactMembers]
        exact List.map_congr_left fun n hn => by rw [ih n hn (level + 1)]
      rw [laidOut, laidMembers_eq, hmembers, compact]
      generalize compactMembers (m :: members) = texts
      simp [dense, String.toList_intercalate]
  | _ => rfl

/-! ## The text on many lines -/

theorem toList_newline (level : Nat) :
    (newline level).toList = '\n' :: List.replicate (2 * level) ' ' := by
  simp [newline]

theorem isBlank_newline (level : Nat) : IsBlank (newline level).toList := by
  intro c hc
  rw [toList_newline] at hc
  obtain rfl | hc := List.mem_cons.1 hc
  · rfl
  · exact List.eq_of_mem_replicate hc ▸ rfl

/-- **The layout on many lines**: a new one for each item and for each closing bracket. -/
def spread : Layout where
  opening level := (newline (level + 1)).toList
  comma level := (newline level).toList
  closing level := (newline level).toList
  isBlank_opening level := isBlank_newline (level + 1)
  isBlank_comma := isBlank_newline
  isBlank_closing := isBlank_newline

theorem map_toList_indentedItems (level : Nat) (items : List Json) :
    (indentedItems level items).map String.toList =
      items.map fun x => (indentedAt level x).toList := by
  induction items with
  | nil => rfl
  | cons x items ih => rw [indentedItems, List.map_cons, List.map_cons, ih]

theorem map_toList_indentedMembers (level : Nat) (members : List (String × Json)) :
    (indentedMembers level members).map String.toList =
      members.map fun m => keyed m.1 (indentedAt level m.2).toList := by
  induction members with
  | nil => rfl
  | cons m members ih => rw [indentedMembers, List.map_cons, List.map_cons, ih, toList_keyed]

/-- **The text on many lines** is the text in the spread layout. -/
theorem laidOut_spread (level : Nat) (v : Json) :
    laidOut spread level v = (indentedAt level v).toList := by
  induction v using partsInduction generalizing level with
  | arr items ih =>
    cases items with
    | nil => simp [laidOut, compact, compactItems, indentedAt]
    | cons x items =>
      have hitems : (x :: items).map (laidOut spread (level + 1)) =
          (indentedItems (level + 1) (x :: items)).map String.toList := by
        rw [map_toList_indentedItems]
        exact List.map_congr_left fun y hy => ih y hy (level + 1)
      rw [laidOut, laidItems_eq, hitems, indentedAt]
      generalize indentedItems (level + 1) (x :: items) = texts
      simp [spread, String.toList_intercalate]
  | obj members ih =>
    cases members with
    | nil => simp [laidOut, compact, compactMembers, indentedAt]
    | cons m members =>
      have hmembers : ((m :: members).map fun n => keyed n.1 (laidOut spread (level + 1) n.2)) =
          (indentedMembers (level + 1) (m :: members)).map String.toList := by
        rw [map_toList_indentedMembers]
        exact List.map_congr_left fun n hn => by rw [ih n hn (level + 1)]
      rw [laidOut, laidMembers_eq, hmembers, indentedAt]
      generalize indentedMembers (level + 1) (m :: members) = texts
      simp [spread, String.toList_intercalate]
  | _ => simp [laidOut, compact, indentedAt]

/-! ## Control characters -/

/-- **Text without control characters.** -/
def IsPrintable (cs : List Char) : Prop := ∀ c ∈ cs, 32 ≤ c.toNat

theorem isPrintable_append {cs ds : List Char} :
    IsPrintable (cs ++ ds) ↔ IsPrintable cs ∧ IsPrintable ds := List.forall_mem_append

theorem isPrintable_toDigits (n : Nat) : IsPrintable (Nat.toDigits 10 n) := by
  intro c hc
  have hzero : '0'.toNat = 48 := rfl
  have := (Char.isDigit_iff_toNat.1 (isDigit_of_mem_toDigits hc)).1
  omega

theorem isPrintable_sign (negative : Bool) : IsPrintable (sign negative) := by
  cases negative <;> simp [IsPrintable, sign]

theorem isPrintable_decimalText (x : Decimal) : IsPrintable (Binary64.decimalText x).toList := by
  have hdigits (n : Nat) : (toString n).toList = Nat.toDigits 10 n := Nat.toList_repr
  have hall := isPrintable_toDigits
  have hdrop (k : Nat) : IsPrintable ((Nat.toDigits 10 x.digits).drop k) :=
    fun c hc => hall _ c (List.mem_of_mem_drop hc)
  have htake (k : Nat) : IsPrintable ((Nat.toDigits 10 x.digits).take k) :=
    fun c hc => hall _ c (List.mem_of_mem_take hc)
  have hzeros (k : Nat) : IsPrintable (List.replicate k '0') :=
    List.forall_mem_replicate.2 (.inr (by decide))
  have hword : IsPrintable ".0".toList ∧ IsPrintable ".".toList ∧ IsPrintable "0.".toList ∧
      IsPrintable "e".toList ∧ IsPrintable "-".toList ∧ IsPrintable "+".toList := by
    simp [IsPrintable]
  rw [Binary64.decimalText]
  simp only [hdigits]
  split
  · split
    · simp only [String.toList_append, String.toList_ofList, isPrintable_append]
      exact ⟨⟨hall _, hzeros _⟩, hword.1⟩
    · split
      · simp only [String.toList_append, String.toList_ofList, isPrintable_append]
        exact ⟨⟨htake _, hword.2.1⟩, hdrop _⟩
      · simp only [String.toList_append, String.toList_ofList, isPrintable_append]
        exact ⟨hword.2.2.1, hzeros _, hall _⟩
  · obtain ⟨d, fs, hds⟩ := exists_toDigits_eq x.digits
    have hparts := hall x.digits
    rw [hds] at hparts ⊢
    simp only [String.toList_append, toList_padded, isPrintable_append]
    refine ⟨⟨⟨?_, hword.2.2.2.1⟩, ?_⟩, ?_, hall _⟩
    · cases fs with
      | nil => simpa [IsPrintable] using hparts
      | cons f fs => simpa [IsPrintable] using hparts
    · split
      · exact hword.2.2.2.2.1
      · exact hword.2.2.2.2.2
    · split
      · simp [IsPrintable]
      · simp [IsPrintable]

theorem isPrintable_floatText (x : Binary64) : IsPrintable (floatText x).toList := by
  match x with
  | .nan => simp [IsPrintable, floatText]
  | .infinite true => simp [IsPrintable, floatText]
  | .infinite false => simp [IsPrintable, floatText]
  | .finite negative n =>
    obtain ⟨x, -, htext, -⟩ := toList_text negative n
    rw [floatText, htext, isPrintable_append]
    · exact ⟨isPrintable_sign negative, isPrintable_decimalText x⟩
    · simp
    · simp

/-- Control characters are written as escapes. -/
theorem isPrintable_escapeChar (c : Char) : IsPrintable (escapeChar c) := by
  have hdigit : ∀ n < 16, 32 ≤ n.digitChar.toNat := by decide
  have hhex (n : Nat) (hn : n < 32) : IsPrintable ('\\' :: 'u' :: Text.hex 4 n) := by
    have hhigh := hdigit (n / 16) (by omega)
    have hlow := hdigit (n % 16) (by omega)
    rw [(hex_of_lt n hn).1]
    simp [IsPrintable, hhigh, hlow]
  rw [escapeChar]
  split
  · simp [IsPrintable]
  split
  · simp [IsPrintable]
  split
  · simp [IsPrintable]
  split
  · simp [IsPrintable]
  split
  · simp [IsPrintable]
  split
  · simp [IsPrintable]
  split
  · simp [IsPrintable]
  split
  case isTrue h => exact hhex c.toNat h
  case isFalse h => exact List.forall_mem_singleton.2 (Nat.le_of_not_lt h)

theorem isPrintable_stringText (s : String) : IsPrintable (stringText s).toList := by
  have hbody : ∀ c ∈ s.toList.flatMap escapeChar, 32 ≤ c.toNat := by
    intro c hc
    obtain ⟨d, -, hcd⟩ := List.mem_flatMap.1 hc
    exact isPrintable_escapeChar d c hcd
  rw [stringText, String.toList_ofList, isPrintable_append]
  exact ⟨List.forall_mem_cons.2 ⟨by decide, hbody⟩, by simp [IsPrintable]⟩

/-- A scalar, an empty array and an empty object are written without control characters. -/
theorem isPrintable_compact {v : Json} (harr : ∀ x items, v ≠ .arr (x :: items))
    (hobj : ∀ m members, v ≠ .obj (m :: members)) : IsPrintable v.compact.toList := by
  match v with
  | .null => simp [IsPrintable, compact]
  | .bool true => simp [IsPrintable, compact]
  | .bool false => simp [IsPrintable, compact]
  | .int i =>
    rw [compact, toList_toString, isPrintable_append]
    exact ⟨isPrintable_sign _, isPrintable_toDigits _⟩
  | .float x => exact isPrintable_floatText x
  | .str s => exact isPrintable_stringText s
  | .arr [] => simp [IsPrintable, compact, compactItems]
  | .obj [] => simp [IsPrintable, compact, compactMembers]
  | .arr (x :: items) => exact absurd rfl (harr x items)
  | .obj (m :: members) => exact absurd rfl (hobj m members)

section Characters

variable {P : Char → Prop} {l : Layout}

/-- The characters of blanks of a layout. -/
def Layout.All (l : Layout) (P : Char → Prop) : Prop := ∀ level,
  (∀ c ∈ l.opening level, P c) ∧ (∀ c ∈ l.comma level, P c) ∧ ∀ c ∈ l.closing level, P c

theorem forall_mem_laidItems (hp : ∀ c, 32 ≤ c.toNat → P c) (hl : l.All P) (level : Nat)
    {items : List Json} (h : ∀ x ∈ items, ∀ c ∈ laidOut l level x, P c) :
    ∀ c ∈ laidItems l level items, P c := by
  induction items with
  | nil => exact fun _ hc => nomatch hc
  | cons x items ih =>
    rw [List.forall_mem_cons] at h
    cases items with
    | nil => exact h.1
    | cons y items =>
      rw [laidItems]
      simp only [List.forall_mem_append, List.forall_mem_cons]
      exact ⟨h.1, hp _ (by decide), (hl level).2.1, ih h.2⟩

theorem forall_mem_keyed (hp : ∀ c, 32 ≤ c.toNat → P c) (k : String) {cs : List Char}
    (h : ∀ c ∈ cs, P c) : ∀ c ∈ keyed k cs, P c := by
  simp only [keyed, List.forall_mem_append, List.forall_mem_cons]
  exact ⟨fun c hc => hp c (isPrintable_stringText k c hc), hp _ (by decide), hp _ (by decide), h⟩

theorem forall_mem_laidMembers (hp : ∀ c, 32 ≤ c.toNat → P c) (hl : l.All P) (level : Nat)
    {members : List (String × Json)} (h : ∀ m ∈ members, ∀ c ∈ laidOut l level m.2, P c) :
    ∀ c ∈ laidMembers l level members, P c := by
  induction members with
  | nil => exact fun _ hc => nomatch hc
  | cons m members ih =>
    rw [List.forall_mem_cons] at h
    cases members with
    | nil => exact forall_mem_keyed hp m.1 h.1
    | cons n members =>
      rw [laidMembers]
      simp only [List.forall_mem_append, List.forall_mem_cons]
      exact ⟨forall_mem_keyed hp m.1 h.1, hp _ (by decide), (hl level).2.1, ih h.2⟩

/-- **The control characters of a text** are those of the blanks of its layout. -/
theorem forall_mem_laidOut (hp : ∀ c, 32 ≤ c.toNat → P c) (hl : l.All P) (level : Nat) (v : Json) :
    ∀ c ∈ laidOut l level v, P c := by
  induction v using partsInduction generalizing level with
  | arr items ih =>
    cases items with
    | nil => exact fun c hc => hp c (isPrintable_compact (by simp) (by simp) c hc)
    | cons x items =>
      have hitems := forall_mem_laidItems hp hl (level + 1) fun y hy => ih y hy (level + 1)
      rw [laidOut]
      simp only [List.forall_mem_append, List.forall_mem_cons]
      exact ⟨hp _ (by decide), (hl level).1, hitems, (hl level).2.2, hp _ (by decide),
        fun _ hc => nomatch hc⟩
  | obj members ih =>
    cases members with
    | nil => exact fun c hc => hp c (isPrintable_compact (by simp) (by simp) c hc)
    | cons m members =>
      have hmembers := forall_mem_laidMembers hp hl (level + 1) fun n hn => ih n hn (level + 1)
      rw [laidOut]
      simp only [List.forall_mem_append, List.forall_mem_cons]
      exact ⟨hp _ (by decide), (hl level).1, hmembers, (hl level).2.2, hp _ (by decide),
        fun _ hc => nomatch hc⟩
  | _ => exact fun c hc => hp c (isPrintable_compact (by simp) (by simp) c hc)

end Characters

/-- **The text on one line has no control character.** -/
theorem isPrintable_toList_compact (v : Json) : IsPrintable v.compact.toList := by
  have hdense : dense.All fun c => 32 ≤ c.toNat := by
    simp [Layout.All, dense]
  rw [← laidOut_dense 0]
  exact forall_mem_laidOut (fun _ hc => hc) hdense 0 v

/-- **The text on many lines has no carriage return.** -/
theorem return_notMem_indentedAt (level : Nat) (v : Json) : '\r' ∉ (indentedAt level v).toList := by
  have hnewline (n : Nat) : ∀ c ∈ (newline n).toList, c ≠ '\r' := by
    simp [toList_newline, List.mem_replicate]
  have hspread : spread.All (· ≠ '\r') := fun n => ⟨hnewline (n + 1), hnewline n, hnewline n⟩
  have hprintable (c : Char) (hc : 32 ≤ c.toNat) : c ≠ '\r' := by
    rintro rfl
    exact absurd hc (by decide)
  rw [← laidOut_spread]
  exact fun h => forall_mem_laidOut hprintable hspread level v _ h rfl

end Json
end Conventions
