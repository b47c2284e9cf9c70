import Conventions.Redaction
import Conventions.Proofs.Text.Locality

/-!
# Proofs/Redaction/Secrets — the value of a setting

A setting is a head, which has no quote, and a quoted value (`mem_ends_secretAssignment_iff`). So a match
runs from somewhere before the first quote of a text to the second one, and whichever of the names before
a value it begins with, the value is what is taken out: what remains is the same for every value
(`rewriteFrom_setting`).
-/

namespace Conventions
namespace Redaction

open Text (Pattern Place)
open Text.Pattern

/-! ## Settings of secrets -/

/-- Does a text spell a word of small letters, in any case? -/
def Spells (w : String) (cs : List Char) : Prop :=
  List.Forall₂ (fun l c => sameLetter l c = true) w.toList cs

/-- **Is a text the name of a secret**: one word, or two with a hyphen, an underscore or nothing
between them? -/
def IsSecretName (name : List Char) : Prop :=
  (∃ w ∈ ["password", "passwd", "secret"], Spells w name) ∨
    ∃ w ∈ ["api", "private"], ∃ between ∈ [[], ['_'], ['-']], ∃ front back,
      Spells w front ∧ Spells "key" back ∧ name = front ++ (between ++ back)

/-- Is a text a colon or an equals sign, with spaces around it? -/
def IsSign (sign : List Char) : Prop :=
  ∃ m n c, (c = ':' ∨ c = '=') ∧ sign = List.replicate m ' ' ++ c :: List.replicate n ' '

/-- Is a text a colon or an equals sign, with blanks of any kind around it? -/
def IsAssignment (sign : List Char) : Prop :=
  ∃ left c right, (∀ b ∈ left ++ right, Text.isBlank b = true) ∧ (c = ':' ∨ c = '=') ∧
    sign = left ++ c :: right

theorem IsSign.isAssignment {sign : List Char} (h : IsSign sign) : IsAssignment sign := by
  obtain ⟨m, n, c, hc, rfl⟩ := h
  refine ⟨_, c, _, fun b hb => ?_, hc, rfl⟩
  rw [List.replicate_append_replicate] at hb
  rw [List.eq_of_mem_replicate hb]
  decide

/-- Is there no quote in a text? -/
def Unquoted (cs : List Char) : Prop := ∀ c ∈ cs, isQuote c = false

/-- **What stands around the value of a secret setting**: the name and the sign right before its
opening quote, no quote before them, and what follows its closing quote. -/
structure SecretSetting where
  before : List Char
  name : List Char
  sign : List Char
  quote : Char
  after : List Char
  unquoted : Unquoted before
  isName : IsSecretName name
  isSign : IsSign sign
  quoted : isQuote quote = true

namespace SecretSetting

/-- What precedes the opening quote. -/
def head (x : SecretSetting) : List Char := x.before ++ (x.name ++ x.sign)

/-- **The text of a setting** with a value. -/
def text (x : SecretSetting) (value : List Char) : List Char :=
  x.head ++ x.quote :: (value ++ x.quote :: x.after)

/-- The text with the value taken out. -/
def hidden (x : SecretSetting) (after : List Char) : List Char :=
  x.head ++ x.quote :: (placeholder.toList ++ x.quote :: after)

/-- The setting with other text after it. -/
def withAfter (x : SecretSetting) (after : List Char) : SecretSetting := { x with after := after }

end SecretSetting

/-! ## Quotes -/

theorem isQuote_iff {c : Char} : isQuote c = true ↔ c = '\'' ∨ c = '"' ∨ c = '\x60' := by
  simp [isQuote, or_assoc]

theorem unquoted_nil : Unquoted [] := fun _ h => absurd h List.not_mem_nil

theorem Unquoted.append {xs ys : List Char} (hx : Unquoted xs) (hy : Unquoted ys) :
    Unquoted (xs ++ ys) :=
  List.forall_mem_append.2 ⟨hx, hy⟩

theorem Unquoted.not_mem {cs : List Char} (h : Unquoted cs) {c : Char} (hc : isQuote c = true) :
    c ∉ cs := by
  intro hmem
  rw [h c hmem] at hc
  cases hc

/-- The first quote of a text is found in one way only. -/
theorem Unquoted.append_cons_inj {xs ys rest rest' : List Char} {c d : Char} (hx : Unquoted xs)
    (hy : Unquoted ys) (hc : isQuote c = true) (hd : isQuote d = true)
    (h : xs ++ c :: rest = ys ++ d :: rest') : xs = ys ∧ c = d ∧ rest = rest' := by
  obtain ⟨more, rfl, hmore⟩ := exists_append_of_not_mem h (hx.not_mem hd)
  cases more with
  | nil => exact ⟨(List.append_nil xs).symm, List.cons.inj hmore⟩
  | cons e more =>
    obtain rfl : c = e := (List.cons.inj hmore).1
    exact absurd (List.mem_append_right xs List.mem_cons_self) (hy.not_mem hc)

/-- No quote is a part of a token. -/
theorem reads_secretToken {c : Char} (hc : isQuote c = true) : secretToken.reads c = false := by
  obtain rfl | rfl | rfl := isQuote_iff.1 hc <;> decide

/-! ## Matches of a setting -/

variable {p q : Place} {name sign value : List Char}

theorem mem_ends_anyCase {w : String} {cs : List Char} (h : Spells w cs) (hread : p.Passes cs q) :
    q ∈ (anyCase w).ends p := by
  have hclasses : anyCase w = all ((w.toList.map sameLetter).map Pattern.class) := by
    rw [anyCase, List.map_map]
    rfl
  rw [hclasses]
  exact mem_ends_all_class (List.forall₂_map_left_iff.2 h) hread

theorem mem_ends_joint {between : List Char} (h : between ∈ [[], ['_'], ['-']])
    (hread : p.Passes between q) : q ∈ joint.ends p := by
  have hshort : between.length ≤ 1 ∧ ∀ c ∈ between, ['_', '-'].contains c = true := by
    obtain rfl | rfl | rfl : between = [] ∨ between = ['_'] ∨ between = ['-'] := by simpa using h
    all_goals simp
  exact List.mem_flatMap.2 ⟨p, List.mem_singleton_self p, mem_upTo_class hshort.1 hshort.2 hread⟩

theorem mem_ends_secretName (h : IsSecretName name) (hread : p.Passes name q) :
    q ∈ secretName.ends p := by
  obtain ⟨w, hw, hname⟩ | ⟨w, hw, between, hbetween, front, back, hfront, hback, rfl⟩ := h
  · refine mem_ends_first.2 ⟨anyCase w, ?_, mem_ends_anyCase hname hread⟩
    obtain rfl | rfl | rfl : w = "password" ∨ w = "passwd" ∨ w = "secret" := by simpa using hw
    all_goals simp
  · refine mem_ends_first.2 ⟨all [anyCase w, joint, anyCase "key"], ?_, ?_⟩
    · obtain rfl | rfl : w = "api" ∨ w = "private" := by simpa using hw
      all_goals simp
    · obtain ⟨m, hm, hread⟩ := hread.split front _ rfl
      obtain ⟨m', hm', hread⟩ := hread.split between _ rfl
      exact mem_ends_seq.2 ⟨m, mem_ends_anyCase hfront hm,
        mem_ends_seq.2 ⟨m', mem_ends_joint hbetween hm', mem_ends_anyCase hback hread⟩⟩

theorem mem_ends_secretHead (hname : IsSecretName name) (hsign : IsAssignment sign)
    (hread : p.Passes (name ++ sign) q) : q ∈ secretHead.ends p := by
  obtain ⟨left, c, right, hblank, hc, rfl⟩ := hsign
  obtain ⟨hleft, hright⟩ := List.forall_mem_append.1 hblank
  obtain ⟨p₁, h₁, hread⟩ := hread.split name _ rfl
  obtain ⟨p₂, h₂, hread⟩ := hread.split left _ rfl
  obtain ⟨p₃, h₃, hread⟩ := hread.uncons
  have hsign : [':', '='].contains c = true := by obtain rfl | rfl := hc <;> decide
  exact mem_ends_seq.2 ⟨p₁, mem_ends_secretName hname h₁,
    mem_ends_seq.2 ⟨p₂, mem_ends_atLeast_class (Nat.zero_le _) hleft h₂,
      mem_ends_seq.2 ⟨p₃, mem_ends_class.2 ⟨c, hsign, h₃⟩,
        mem_ends_atLeast_class (Nat.zero_le _) hright hread⟩⟩⟩

theorem mem_ends_quotedValue {c : Char} (hc : isQuote c = true) (hne : value ≠ [])
    (hvalue : Unquoted value) (hread : p.Passes (c :: (value ++ [c])) q) :
    q ∈ quotedValue.ends p := by
  obtain ⟨p₁, h₁, hread⟩ := hread.uncons
  obtain ⟨p₂, h₂, h₃⟩ := hread.split value _ rfl
  refine mem_ends_first.2 ⟨_, List.mem_map.2 ⟨c, ?_, rfl⟩, ?_⟩
  · simpa using isQuote_iff.1 hc
  · refine mem_ends_seq.2 ⟨p₁, mem_ends_class.2 ⟨c, beq_self_eq_true c, h₁⟩, mem_ends_seq.2
      ⟨p₂, mem_ends_atLeast_class (List.length_pos_iff.2 hne) (fun d hd => ?_) h₂,
        mem_ends_class.2 ⟨c, beq_self_eq_true c, h₃⟩⟩⟩
    rw [hvalue d hd]
    rfl

/-- No quote is one of the letters of a name, and none is a sign. -/
theorem unquoted_of_reads {c : Char} (h : secretHead.reads c = true) : isQuote c = false := by
  refine eq_false_of_ne_true fun hc => ?_
  obtain rfl | rfl | rfl := isQuote_iff.1 hc <;> revert h <;> decide

theorem of_mem_ends_quotedValue (h : q ∈ quotedValue.ends p) :
    ∃ c value, isQuote c = true ∧ value ≠ [] ∧ Unquoted value ∧ p.Passes (c :: (value ++ [c])) q := by
  obtain ⟨pattern, hpattern, hquoted⟩ := mem_ends_first.1 h
  obtain ⟨c, hc, rfl⟩ := List.mem_map.1 hpattern
  obtain ⟨m₁, h₁, hquoted⟩ := mem_ends_seq.1 hquoted
  obtain ⟨m₂, h₂, h₃⟩ := mem_ends_seq.1 hquoted
  obtain ⟨d, hd, hopens⟩ := mem_ends_class.1 h₁
  obtain ⟨value, hpasses, hvalue⟩ := reads_of_mem_ends _ m₁ m₂ h₂
  obtain ⟨e, he, hcloses⟩ := mem_ends_class.1 h₃
  obtain rfl := eq_of_beq hd
  obtain rfl := eq_of_beq he
  refine ⟨_, value, isQuote_iff.2 (by simpa using hc),
    (bounds_of_mem_ends h₂ hpasses).ne_nil rfl, fun b hb => ?_, hopens.trans (hpasses.trans hcloses)⟩
  have hb : (!isQuote b) = true := hvalue b hb
  simpa using hb

/-! ## Heads of settings -/

/-- **Is a text the head of a setting**: the name of a secret with the sign after it? -/
def IsSecretHead (head : List Char) : Prop := ⟨head.getLast?, []⟩ ∈ secretHead.ends ⟨none, head⟩

theorem isSecretHead_of_mem_ends (h : q ∈ secretHead.ends p) (hread : p.Passes head q) :
    IsSecretHead head :=
  mem_ends_of_passes_of_not_looks (by decide) h hread ⟨(List.append_nil _).symm, by simp⟩

theorem IsSecretHead.mem_ends (h : IsSecretHead head) (hread : p.Passes head q) :
    q ∈ secretHead.ends p :=
  mem_ends_of_passes_of_not_looks (by decide) h ⟨(List.append_nil _).symm, by simp⟩ hread

theorem IsSecretHead.reads (h : IsSecretHead head) : ∀ c ∈ head, secretHead.reads c = true := by
  obtain ⟨read, hread, hall⟩ := reads_of_mem_ends _ _ _ h
  obtain rfl : head = read := hread.rest.trans (List.append_nil read)
  exact hall

theorem IsSecretHead.unquoted (h : IsSecretHead head) : Unquoted head :=
  fun c hc => unquoted_of_reads (h.reads c hc)

theorem IsSecretHead.ne_nil (h : IsSecretHead head) : head ≠ [] :=
  (bounds_of_mem_ends h ⟨(List.append_nil _).symm, by simp⟩).ne_nil (by decide)

theorem IsSecretHead.mark_notMem (h : IsSecretHead head) {mark : Char}
    (hmark : secretHead.reads mark = false) : mark ∉ head :=
  notMem_of_reads hmark h.reads

theorem isSecretHead_append (hname : IsSecretName name) (hsign : IsAssignment sign) :
    IsSecretHead (name ++ sign) :=
  mem_ends_secretHead hname hsign ⟨(List.append_nil _).symm, by simp⟩

/-- **A setting** is a head with a quoted value. -/
theorem mem_ends_secretAssignment_iff : q ∈ secretAssignment.ends p ↔
    ∃ head c value, IsSecretHead head ∧ isQuote c = true ∧ value ≠ [] ∧ Unquoted value ∧
      p.Passes (head ++ c :: (value ++ [c])) q := by
  rw [secretAssignment, mem_ends_seq]
  constructor
  · rintro ⟨m, hm, hq⟩
    obtain ⟨head, hhead, -⟩ := reads_of_mem_ends _ p m hm
    obtain ⟨c, value, hc, hne, hvalue, hread⟩ := of_mem_ends_quotedValue hq
    exact ⟨head, c, value, isSecretHead_of_mem_ends hm hhead, hc, hne, hvalue, hhead.trans hread⟩
  · rintro ⟨head, c, value, hhead, hc, hne, hvalue, hread⟩
    obtain ⟨m, hm, hread⟩ := hread.split head _ rfl
    exact ⟨m, hhead.mem_ends hm, mem_ends_quotedValue hc hne hvalue hread⟩

/-- **What a match of a setting reads**: some text without quotes, and a quoted value. -/
theorem of_mem_ends_secretAssignment (h : q ∈ secretAssignment.ends p) :
    ∃ front c value, Unquoted front ∧ isQuote c = true ∧ Unquoted value ∧
      p.Passes (front ++ c :: (value ++ [c])) q := by
  obtain ⟨head, c, value, hhead, hc, -, hvalue, hread⟩ := mem_ends_secretAssignment_iff.1 h
  exact ⟨head, c, value, hhead.unquoted, hc, hvalue, hread⟩

theorem matched_eq {read : List Char} (hread : p.Passes read q) : matched p q = read := by
  rw [matched, hread.rest, List.length_append, Nat.add_sub_cancel, List.take_left]

/-- **The value of a match is taken out.** -/
theorem hideValue_eq {front : List Char} {c : Char} (hfront : Unquoted front)
    (hc : isQuote c = true) (hread : p.Passes (front ++ c :: (value ++ [c])) q) :
    hideValue p q = front ++ c :: (placeholder.toList ++ [c]) := by
  have hhead : (front ++ c :: (value ++ [c])).takeWhile (fun d => !isQuote d) = front := by
    rw [List.takeWhile_append_of_pos fun d hd => by rw [hfront d hd]; rfl,
      List.takeWhile_cons_of_neg (by rw [hc]; exact Bool.false_ne_true), List.append_nil]
  rw [hideValue, matched_eq hread]
  simp only [hhead, List.drop_left, List.append_assoc, List.cons_append]

/-- **A match of a setting** runs to the second quote, so it is the same wherever it begins. -/
theorem rewriteFrom_of_match {front after : List Char} {c : Char} (hfront : Unquoted front)
    (hc : isQuote c = true) (hvalue : Unquoted value)
    (hrest : p.rest = front ++ c :: (value ++ c :: after)) (h : secretAssignment.end? p = some q) :
    secretAssignment.rewriteFrom hideValue p = front ++ c :: (placeholder.toList ++ c ::
      secretAssignment.rewriteFrom hideValue ⟨some c, after⟩) := by
  obtain ⟨front', c', value', hfront', hc', hvalue', hread⟩ :=
    of_mem_ends_secretAssignment (List.mem_of_head? h)
  have hopens : front' ++ c' :: (value' ++ c' :: q.rest) = front ++ c :: (value ++ c :: after) := by
    rw [← hrest, hread.rest]
    simp only [List.append_assoc, List.cons_append, List.nil_append]
  obtain ⟨rfl, rfl, hcloses⟩ := hfront'.append_cons_inj hfront hc' hc hopens
  obtain ⟨rfl, -, rfl⟩ := hvalue'.append_cons_inj hvalue hc' hc' hcloses
  have hlast : (front' ++ c' :: (value' ++ [c'])).getLast? = some c' := by
    rw [← List.cons_append, ← List.append_assoc, List.getLast?_concat]
  have hq : q = ⟨some c', q.rest⟩ := by
    obtain ⟨before, rest⟩ := q
    rw [Place.mk.injEq]
    exact ⟨hread.before.trans (by rw [hlast, Option.some_or]), rfl⟩
  have hlt : q.rest.length < p.rest.length :=
    length_lt_of_mem_ends (by decide) (List.mem_of_head? h)
  rw [rewriteFrom_of_end? h hlt, hideValue_eq hfront' hc' hread, ← hq]
  simp only [List.append_assoc, List.cons_append, List.nil_append]

/-! ## Texts with a setting -/

/-- **The value of a setting is taken out**, whatever stands before its head, and what follows is read
after the closing quote. -/
theorem rewriteFrom_setting {front head after : List Char} {c : Char} (hfront : Unquoted front)
    (hhead : IsSecretHead head) (hc : isQuote c = true) (hne : value ≠ []) (hvalue : Unquoted value)
    (before : Option Char) :
    secretAssignment.rewriteFrom hideValue ⟨before, front ++ head ++ c :: (value ++ c :: after)⟩ =
      front ++ head ++ c :: (placeholder.toList ++ c ::
        secretAssignment.rewriteFrom hideValue ⟨some c, after⟩) := by
  -- a match begins somewhere in front of the head or, if none did before, with it
  induction front generalizing before with
  | nil =>
    have hread : Place.Passes ⟨before, head ++ c :: (value ++ c :: after)⟩
        (head ++ c :: (value ++ [c])) ⟨(head ++ c :: (value ++ [c])).getLast?.or before, after⟩ :=
      ⟨by simp only [List.append_assoc, List.cons_append, List.nil_append], rfl⟩
    obtain ⟨q, hq⟩ := Option.isSome_iff_exists.1 <| List.isSome_head?.2 <| List.ne_nil_of_mem <|
      mem_ends_secretAssignment_iff.2 ⟨head, c, value, hhead, hc, hne, hvalue, hread⟩
    exact rewriteFrom_of_match hhead.unquoted hc hvalue rfl hq
  | cons d front ih =>
    have hrest := ih (List.forall_mem_cons.1 hfront).2 (some d)
    have hwhole : Unquoted (d :: front ++ head) := hfront.append hhead.unquoted
    simp only [List.cons_append] at hwhole ⊢
    cases hend : secretAssignment.end?
        ⟨before, d :: (front ++ head ++ c :: (value ++ c :: after))⟩ with
    | some q => exact rewriteFrom_of_match hwhole hc hvalue rfl hend
    | none =>
      rw [rewriteFrom_cons fun q hq => nomatch hend.symm.trans hq]
      exact congrArg (d :: ·) hrest

namespace SecretSetting

theorem unquoted_head (x : SecretSetting) : Unquoted x.head :=
  x.unquoted.append (isSecretHead_append x.isName x.isSign.isAssignment).unquoted

/-- **The value is taken out of the text of a setting.** -/
theorem rewriteFrom_text (x : SecretSetting) (hne : value ≠ []) (hvalue : Unquoted value)
    (before : Option Char) :
    secretAssignment.rewriteFrom hideValue ⟨before, x.text value⟩ =
      x.hidden (secretAssignment.rewriteFrom hideValue ⟨some x.quote, x.after⟩) :=
  rewriteFrom_setting x.unquoted (isSecretHead_append x.isName x.isSign.isAssignment) x.quoted hne
    hvalue before

end SecretSetting

end Redaction
end Conventions
