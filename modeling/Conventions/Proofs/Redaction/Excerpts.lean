import Conventions.Proofs.Redaction.Secrets
import Conventions.Proofs.Text.Blank
import Conventions.Proofs.Text.Utf8
import Conventions.Proofs.Catalogue.Sight

/-!
# Proofs/Redaction/Excerpts — which excerpts keep a secret

An excerpt is cut first and redacted then. If the cut takes the closing quote of a value away and
leaves some of the value (`CutsInside`), no setting is matched, and the excerpt tells values apart
(`secrets_cut_ne`); else it is the same for all values of one length (`secrets_cut_congr`).
-/

namespace Conventions
namespace Redaction

open Text (Pattern Place)
open Text.Pattern

/-! ## Texts without tokens -/

/-- The letters that signed tokens and keys begin with. -/
def tokenLetters : List Char := ['e', 's', 'p', 'r', 'g', 'x']

variable {p q : Place} {cs : List Char}

theorem mem_of_mem_ends_word {w : String} {c : Char} {rest : List Char} (hw : w.toList = c :: rest)
    (h : q ∈ (word w).ends p) : c ∈ p.rest.head? := by
  rw [word, hw, List.map_cons] at h
  obtain ⟨m, hm, -⟩ := mem_ends_all.1 h
  obtain ⟨d, hd, hpasses⟩ := mem_ends_class.1 hm
  obtain rfl := eq_of_beq hd
  rw [hpasses.rest]
  rfl

/-- **Where a token is matched**, it begins with one of a few letters, or a quote follows. -/
theorem of_mem_ends_secretToken (h : q ∈ secretToken.ends p) :
    (∃ c ∈ tokenLetters, c ∈ p.rest.head?) ∨ ∃ c ∈ p.rest, isQuote c = true := by
  obtain ⟨pattern, hpattern, h⟩ := mem_ends_first.1 h
  simp only [List.mem_cons, List.not_mem_nil, or_false] at hpattern
  obtain rfl | rfl | rfl := hpattern
  · obtain ⟨m, hm, -⟩ := mem_ends_all.1 h
    exact .inl ⟨'e', by decide, mem_of_mem_ends_word rfl hm⟩
  · obtain ⟨m, hm, -⟩ := mem_ends_all.1 h
    obtain ⟨pattern, hpattern, hm⟩ := mem_ends_first.1 hm
    simp only [List.mem_cons, List.not_mem_nil, or_false] at hpattern
    obtain rfl | rfl | rfl | rfl | rfl | rfl := hpattern
    · exact .inl ⟨'s', by decide, mem_of_mem_ends_word rfl hm⟩
    · exact .inl ⟨'p', by decide, mem_of_mem_ends_word rfl hm⟩
    · exact .inl ⟨'r', by decide, mem_of_mem_ends_word rfl hm⟩
    · exact .inl ⟨'g', by decide, mem_of_mem_ends_word rfl hm⟩
    · exact .inl ⟨'g', by decide, mem_of_mem_ends_word rfl hm⟩
    · obtain ⟨m', hm', -⟩ := mem_ends_all.1 hm
      exact .inl ⟨'x', by decide, mem_of_mem_ends_word rfl hm'⟩
  · obtain ⟨m, hm, h⟩ := mem_ends_all.1 h
    obtain ⟨m', hm', h⟩ := mem_ends_all.1 h
    obtain ⟨read, hread, -⟩ := reads_of_mem_ends _ p m hm
    obtain ⟨more, hmore, -⟩ := reads_of_mem_ends _ m m' hm'
    obtain ⟨-, c, hc, hquote⟩ := mem_ends_ahead_iff.1 h
    refine .inr ⟨c, ?_, hquote⟩
    rw [hread.rest, hmore.rest]
    exact List.mem_append_right _ (List.mem_append_right _ (List.mem_of_mem_head? hc))

/-- A text without quotes and without the letters that tokens begin with stays as it is. -/
theorem rewriteFrom_secretToken {rewrite : Place → Place → List Char} {before : Option Char}
    (h : ∀ c ∈ cs, isQuote c = false ∧ c ∉ tokenLetters) :
    secretToken.rewriteFrom rewrite ⟨before, cs⟩ = cs := by
  refine rewriteFrom_eq_self fun before cs' hsuffix _ =>
    List.eq_nil_iff_forall_not_mem.2 fun q hq => ?_
  obtain ⟨c, hc, hhead⟩ | ⟨c, hc, hquote⟩ := of_mem_ends_secretToken hq
  · exact (h c (hsuffix.subset (List.mem_of_mem_head? hhead))).2 hc
  · rw [(h c (hsuffix.subset hc)).1] at hquote
    cases hquote

/-- A text with one quote only stays as it is. -/
theorem rewriteFrom_secretAssignment {before : Option Char} (h : cs.countP isQuote ≤ 1) :
    secretAssignment.rewriteFrom hideValue ⟨before, cs⟩ = cs := by
  refine rewriteFrom_eq_self fun before cs' hsuffix _ =>
    List.eq_nil_iff_forall_not_mem.2 fun q hq => ?_
  obtain ⟨front, c, value, -, hc, -, hread⟩ := of_mem_ends_secretAssignment hq
  have htwo : 2 ≤ cs'.countP isQuote := by
    have hrest : cs' = front ++ c :: (value ++ [c]) ++ q.rest := hread.rest
    rw [hrest]
    simp only [List.countP_append, List.countP_cons, hc, if_true, List.countP_nil]
    omega
  exact absurd (Nat.le_trans htwo (Nat.le_trans hsuffix.sublist.countP_le h)) (by decide)

/-! ## Cuts -/

/-- **Is it a value** of a setting: some characters, none of them a quote or a blank? -/
structure IsSecretValue (value : List Char) : Prop where
  unbroken : Text.IsUnbroken value
  unquoted : Unquoted value

/-- An excerpt without its secrets, as characters. -/
def redacted (cs : List Char) : List Char :=
  secretToken.rewriteFrom (fun _ _ => placeholder.toList)
    ⟨none, secretAssignment.rewriteFrom hideValue ⟨none, cs⟩⟩

theorem secrets_ofList (cs : List Char) :
    secrets (String.ofList cs) = String.ofList (redacted cs) := by
  rw [secrets, replaceAll, String.toList_ofList, String.toList_ofList]
  rfl

namespace SecretSetting

/-- **Does the cut of an excerpt go through a value of `n` characters**: does it leave some of the
value, and take its closing quote away? -/
structure CutsInside (x : SecretSetting) (n : Nat) : Prop where
  long : Excerpt.maxLength < x.head.length + n + x.after.length + 2
  begins : x.head.length + 1 < Excerpt.maxLength - 3
  ends : Excerpt.maxLength - 3 ≤ x.head.length + 1 + n

variable {x : SecretSetting} {value value' : List Char}

theorem length_text (x : SecretSetting) (value : List Char) :
    (x.text value).length = x.head.length + value.length + x.after.length + 2 := by
  simp only [text, List.length_append, List.length_cons]
  omega

/-- What is redacted of a text with a whole setting does not depend on the value. -/
theorem redacted_text_congr (hvalue : IsSecretValue value) (hvalue' : IsSecretValue value') :
    redacted (x.text value) = redacted (x.text value') := by
  rw [redacted, redacted, x.rewriteFrom_text hvalue.unbroken.1 hvalue.unquoted,
    x.rewriteFrom_text hvalue'.unbroken.1 hvalue'.unquoted]

/-- A cut after the closing quote leaves a setting. -/
theorem cut_text_of_closed (hlong : Excerpt.maxLength < (x.text value).length)
    (hclosed : x.head.length + 1 + value.length < Excerpt.maxLength - 3) :
    Excerpt.cut (x.text value) =
      (x.withAfter (x.after.take (Excerpt.maxLength - 3 - (x.head.length + value.length + 2)) ++
        ['.', '.', '.'])).text value := by
  have hparts : x.text value = (x.head ++ x.quote :: (value ++ [x.quote])) ++ x.after := by
    simp only [text, List.append_assoc, List.cons_append, List.nil_append]
  have hlength : (x.head ++ x.quote :: (value ++ [x.quote])).length =
      x.head.length + value.length + 2 := by
    simp only [List.length_append, List.length_cons, List.length_nil]
    omega
  rw [Excerpt.cut, if_pos hlong, hparts, List.take_append, hlength,
    List.take_of_length_le (by omega)]
  simp only [text, head, withAfter, List.append_assoc, List.cons_append, List.nil_append]

/-- A cut before the value leaves nothing of it. -/
theorem cut_text_of_absent (hlong : Excerpt.maxLength < (x.text value).length)
    (habsent : Excerpt.maxLength - 3 ≤ x.head.length + 1) :
    Excerpt.cut (x.text value) =
      (x.head ++ [x.quote]).take (Excerpt.maxLength - 3) ++ ['.', '.', '.'] := by
  have hparts : x.text value = (x.head ++ [x.quote]) ++ (value ++ x.quote :: x.after) := by
    simp only [text, List.append_assoc, List.singleton_append]
  rw [Excerpt.cut, if_pos hlong, hparts, List.take_append_of_le_length]
  rwa [List.length_append, List.length_singleton]

/-- A cut through the value leaves a beginning of it. -/
theorem cut_text_of_cutsInside (h : x.CutsInside value.length) :
    Excerpt.cut (x.text value) = x.head ++ x.quote ::
      (value.take (Excerpt.maxLength - 3 - (x.head.length + 1)) ++ ['.', '.', '.']) := by
  have hparts : x.text value = (x.head ++ [x.quote]) ++ (value ++ x.quote :: x.after) := by
    simp only [text, List.append_assoc, List.singleton_append]
  have hlength : (x.head ++ [x.quote]).length = x.head.length + 1 := by
    rw [List.length_append, List.length_singleton]
  have hends := h.ends
  rw [Excerpt.cut, if_pos (length_text x value ▸ h.long), hparts, List.take_append, hlength,
    List.take_of_length_le (hlength ▸ Nat.le_of_lt h.begins),
    List.take_append_of_le_length (by omega)]
  simp only [List.append_assoc, List.cons_append, List.nil_append]

/-- **Where no cut goes through the value**, the excerpt is the same for all values of a length. -/
theorem secrets_cut_congr (hvalue : IsSecretValue value) (hvalue' : IsSecretValue value')
    (hlength : value'.length = value.length) (hcut : ¬ x.CutsInside value.length) :
    secrets (String.ofList (Excerpt.cut (x.text value))) =
      secrets (String.ofList (Excerpt.cut (x.text value'))) := by
  rw [secrets_ofList, secrets_ofList]
  have hsame : (x.text value').length = (x.text value).length := by
    rw [length_text, length_text, hlength]
  by_cases hlong : Excerpt.maxLength < (x.text value).length
  · by_cases hbegins : x.head.length + 1 < Excerpt.maxLength - 3
    · have hclosed : x.head.length + 1 + value.length < Excerpt.maxLength - 3 :=
        Nat.lt_of_not_le fun hends => hcut ⟨length_text x value ▸ hlong, hbegins, hends⟩
      rw [cut_text_of_closed hlong hclosed,
        cut_text_of_closed (hsame ▸ hlong) (hlength ▸ hclosed), hlength,
        redacted_text_congr hvalue hvalue']
    · rw [cut_text_of_absent hlong (Nat.le_of_not_lt hbegins),
        cut_text_of_absent (hsame ▸ hlong) (Nat.le_of_not_lt hbegins)]
  · rw [Excerpt.cut, if_neg hlong, Excerpt.cut, if_neg (hsame ▸ hlong),
      redacted_text_congr hvalue hvalue']

/-- What is left of a value of one letter, cut, is shown. -/
theorem redacted_letters {c : Char} (hquote : isQuote c = false) (hletter : c ∉ tokenLetters)
    (x : SecretSetting) (k : Nat) :
    ∃ out, redacted (x.head ++ x.quote :: (List.replicate k c ++ ['.', '.', '.'])) =
      out ++ x.quote :: (List.replicate k c ++ ['.', '.', '.']) := by
  have hplain : ∀ d ∈ List.replicate k c ++ ['.', '.', '.'],
      isQuote d = false ∧ d ∉ tokenLetters := by
    refine List.forall_mem_append.2 ⟨fun d hd => ?_, fun d hd => ?_⟩
    · rw [List.eq_of_mem_replicate hd]
      exact ⟨hquote, hletter⟩
    · obtain rfl : d = '.' := by simpa using hd
      decide
  have hone :
      (x.head ++ x.quote :: (List.replicate k c ++ ['.', '.', '.'])).countP isQuote ≤ 1 := by
    have hhead : x.head.countP isQuote = 0 :=
      List.countP_eq_zero.2 fun d hd => Bool.eq_false_iff.1 (x.unquoted_head d hd)
    have hrest : (List.replicate k c ++ ['.', '.', '.']).countP isQuote = 0 :=
      List.countP_eq_zero.2 fun d hd => Bool.eq_false_iff.1 (hplain d hd).1
    rw [List.countP_append, List.countP_cons, hhead, hrest, x.quoted]
    exact Nat.le_refl 1
  obtain ⟨out, hout⟩ := rewriteFrom_append_cons (reads_secretToken x.quoted)
    (fun _ _ => placeholder.toList) none (List.replicate k c ++ ['.', '.', '.']) x.head
  refine ⟨out, ?_⟩
  rw [redacted, rewriteFrom_secretAssignment hone, hout, rewriteFrom_secretToken hplain]

/-- **Where a cut goes through the value**, the excerpt tells two values of the length apart. -/
theorem secrets_cut_ne {n : Nat} (hcut : x.CutsInside n) :
    secrets (String.ofList (Excerpt.cut (x.text (List.replicate n 'a')))) ≠
      secrets (String.ofList (Excerpt.cut (x.text (List.replicate n 'b')))) := by
  have hlength (c : Char) : (List.replicate n c).length = n := List.length_replicate
  rw [secrets_ofList, secrets_ofList, cut_text_of_cutsInside ((hlength 'a').symm ▸ hcut),
    cut_text_of_cutsInside ((hlength 'b').symm ▸ hcut), List.take_replicate, List.take_replicate]
  have hbegins := hcut.begins
  have hends := hcut.ends
  obtain ⟨k, hk⟩ : ∃ k, min (Excerpt.maxLength - 3 - (x.head.length + 1)) n = k + 1 :=
    ⟨min (Excerpt.maxLength - 3 - (x.head.length + 1)) n - 1, by omega⟩
  obtain ⟨out, hout⟩ := redacted_letters (c := 'a') (by decide) (by decide) x (k + 1)
  obtain ⟨out', hout'⟩ := redacted_letters (c := 'b') (by decide) (by decide) x (k + 1)
  rw [hk, hout, hout']
  intro hsame
  have hsame := List.append_inj_right' (String.ofList_injective hsame) (by simp)
  simp [List.replicate_succ] at hsame

theorem collapse_text (hvalue : IsSecretValue value) (hvalue' : IsSecretValue value')
    (h : Text.collapse (x.text value) = x.text value) :
    Text.collapse (x.text value') = x.text value' := by
  have hne (value : List Char) : x.text value ≠ [] := by simp [text]
  have hquote : Text.isBlank x.quote = false := by
    obtain hx | hx | hx := isQuote_iff.1 x.quoted <;> rw [hx] <;> decide
  rw [Text.collapse_eq_self_iff] at h ⊢
  have h := h.resolve_left (hne value)
  rw [text, Text.isSpaced_append_cons hquote, Text.isSpaced_append hvalue.unbroken] at h
  refine .inr ?_
  rwa [text, Text.isSpaced_append_cons hquote, Text.isSpaced_append hvalue'.unbroken]

end SecretSetting

theorem isSecretValue_replicate {n : Nat} {c : Char} (hn : n ≠ 0) (hblank : Text.isBlank c = false)
    (hquote : isQuote c = false) : IsSecretValue (List.replicate n c) where
  unbroken :=
    ⟨mt (List.replicate_eq_nil_iff c).1 hn, fun _ hd => List.eq_of_mem_replicate hd ▸ hblank⟩
  unquoted := fun _ hd => List.eq_of_mem_replicate hd ▸ hquote

end Redaction

/-! ## Excerpts of proofs -/

open Redaction

namespace Node

variable {s : Source} {file : String} {root p : Node} {e : Evidence}

theorem ProvedBy.excerpt_eq (h : ProvedBy s file root e p) :
    e.excerpt = secrets (String.ofList (Excerpt.cut (Text.collapse (s.slice p.span)))) := by
  obtain ⟨h, -, rfl, rfl⟩ := h
  rfl

/-- A file that holds a statement with a handler. -/
def caught (cs : List Char) : Node :=
  ⟨.tryStatement, none, ⟨0, (String.ofList cs).toUTF8.size⟩,
    [⟨.catchClause, some .handler, ⟨0, 0⟩, []⟩]⟩

/-- **Every text is that of a proof**, in some tree. -/
theorem exists_provedBy (cs : List Char) (file : String) :
    ∃ s root e p, ProvedBy s file root e p ∧ s.slice p.span = cs := by
  let s : Source := ⟨(String.ofList cs).toUTF8⟩
  let shape : Shape := ⟨"try-catch-block", .errorHandling, "catch_style", "try-catch",
    [.tryStatement], Shape.tryCatch, Shape.hundredths 60⟩
  have hshape : shape ∈ Catalogue.shapes :=
    List.mem_append_left _ (List.mem_append_right _ (by simp [Catalogue.catchStyle, shape]))
  have hit : ⟨shape, caught cs⟩ ∈ (caught cs).hits s := by
    refine mem_hits.2 ⟨⟨none, caught cs⟩, ?_, hshape, rfl⟩
    rw [walk, Visit.run]
    exact List.mem_cons_self
  obtain ⟨h, hkept, hkey⟩ := Hit.exists_mem_firsts hit [] (by simp)
  have hplace : h.proof.span = (caught cs).span := congrArg (fun k => k.2.2.2) hkey
  refine ⟨s, caught cs, _, h.proof, ⟨h, hkept, rfl, rfl⟩, ?_⟩
  rw [hplace]
  exact Source.slice_ofList cs (Nat.le_refl _)

end Node

namespace Redaction

open Node

/-- **Excerpts keep the value of a secret setting exactly if the cut does not go through it.** For
every text of a proof with such a setting, the excerpt is the same for every other value of the same
length, unless the cut of the excerpt leaves some of the value and takes its closing quote away. -/
theorem SecretSetting.excerpt_eq_iff (x : SecretSetting) (value : List Char)
    (hvalue : IsSecretValue value) (hline : Text.collapse (x.text value) = x.text value) :
    (∀ value', IsSecretValue value' → value'.length = value.length →
      ∀ s s' file file' root root' e e' p p',
        ProvedBy s file root e p → Text.collapse (s.slice p.span) = x.text value →
        ProvedBy s' file' root' e' p' → Text.collapse (s'.slice p'.span) = x.text value' →
          e.excerpt = e'.excerpt) ↔
      ¬ x.CutsInside value.length := by
  constructor
  · intro hkept hcut
    have hn : value.length ≠ 0 := mt List.length_eq_zero_iff.1 hvalue.unbroken.1
    -- the excerpts of two values differ, so that of one of them differs from that of the first one
    have hsame {c : Char} (hblank : Text.isBlank c = false) (hquote : isQuote c = false) :
        secrets (String.ofList (Excerpt.cut (x.text value))) =
          secrets (String.ofList (Excerpt.cut (x.text (List.replicate value.length c)))) := by
      have hletters := isSecretValue_replicate hn hblank hquote
      have hline' := collapse_text hvalue hletters hline
      obtain ⟨s, root, e, p, he, hp⟩ := exists_provedBy (x.text value) ""
      obtain ⟨s', root', e', p', he', hp'⟩ :=
        exists_provedBy (x.text (List.replicate value.length c)) ""
      have hexcerpts := hkept _ hletters List.length_replicate s s' "" "" root root' e e' p p'
        he (hp.symm ▸ hline) he' (hp'.symm ▸ hline')
      rwa [he.excerpt_eq, he'.excerpt_eq, hp, hp', hline, hline'] at hexcerpts
    exact secrets_cut_ne hcut ((hsame (c := 'a') (by decide) (by decide)).symm.trans
      (hsame (c := 'b') (by decide) (by decide)))
  · intro hcut value' hvalue' hlength s s' file file' root root' e e' p p' he hp he' hp'
    rw [he.excerpt_eq, he'.excerpt_eq, hp, hp']
    exact secrets_cut_congr hvalue hvalue' hlength hcut

/-- A login with a password. -/
def login : SecretSetting where
  before := "login(\x7b user, ".toList
  name := "password".toList
  sign := [':', ' ']
  quote := '\''
  after := " \x7d)".toList
  unquoted := by simp [Unquoted, isQuote]
  isName := .inl ⟨"password", by simp, List.forall₂_same.2 (by simp; decide)⟩
  isSign := ⟨0, 1, ':', .inl rfl, rfl⟩
  quoted := rfl

/-- The excerpts of a short login are the same for all passwords of one length. -/
theorem SecretSetting.excerpt_eq_login :
    IsSecretValue "hunter2".toList ∧
      Text.collapse (login.text "hunter2".toList) = login.text "hunter2".toList ∧
      ∀ value', IsSecretValue value' → value'.length = "hunter2".toList.length →
        ∀ s s' file file' root root' e e' p p',
          ProvedBy s file root e p → Text.collapse (s.slice p.span) = login.text "hunter2".toList →
          ProvedBy s' file' root' e' p' → Text.collapse (s'.slice p'.span) = login.text value' →
            e.excerpt = e'.excerpt := by
  have hvalue : IsSecretValue "hunter2".toList :=
    ⟨⟨by simp, by simp; decide⟩, by simp [Unquoted, isQuote]⟩
  have hline : Text.collapse (login.text "hunter2".toList) = login.text "hunter2".toList := by
    decide +kernel
  refine ⟨hvalue, hline, (SecretSetting.excerpt_eq_iff login _ hvalue hline).2 fun hcut => ?_⟩
  exact absurd hcut.long (by decide +kernel)

/-- A session is set up with a long secret. -/
def session : SecretSetting where
  before := "session(\x7b".toList
  name := "secret".toList
  sign := [':', ' ']
  quote := '\''
  after := "\x7d)".toList
  unquoted := by simp [Unquoted, isQuote]
  isName := .inl ⟨"secret", by simp, List.forall₂_same.2 (by simp; decide)⟩
  isSign := ⟨0, 1, ':', .inl rfl, rfl⟩
  quoted := rfl

/-- The file that sets up a session with a secret. -/
def sessionFile (secret : List Char) : Source := ⟨(String.ofList (session.text secret)).toUTF8⟩

/-- Does the whole of a file of `n` bytes prove something, in a tree? -/
def provesWhole (s : Source) (n : Nat) (root : Node) : Bool :=
  (Hit.firsts [] (root.hits s)).any fun h => h.proof.span = ⟨0, n⟩

/-- A file that proves something as a whole shows its text. -/
theorem exists_shown (cs : List Char) {n : Nat}
    (hparse : (Grammar.program (Grammar.rules (Grammar.depthFor cs.length))
      ⟨.plain, cs.length, cs, 0, 0, []⟩).any (fun (root, last) => last.comments.isEmpty &&
        provesWhole ⟨(String.ofList cs).toUTF8⟩ n root) = true)
    (hn : (String.ofList cs).toUTF8.size ≤ n) (file : String) :
    ∃ root, (Source.mk (String.ofList cs).toUTF8).parse ".js" = .ok root ∧
      ∃ e p, ProvedBy ⟨(String.ofList cs).toUTF8⟩ file root e p ∧
        (Source.mk (String.ofList cs).toUTF8).slice p.span = cs := by
  obtain ⟨⟨root, last⟩, hprogram, hproves⟩ := Option.any_eq_true _ _ |>.1 hparse
  rw [Bool.and_eq_true, List.isEmpty_iff] at hproves
  obtain ⟨h, hh, hspan⟩ := List.any_eq_true.1 hproves.2
  refine ⟨root, ?_, _, h.proof, ⟨h, hh, rfl, rfl⟩, ?_⟩
  · have hroot : Grammar.parse .plain (String.ofList cs) = some root := by
      rw [Grammar.parse, String.toList_ofList, hprogram, Option.map_some]
      simp only [hproves.1, List.foldl_nil]
    rw [Source.parse, show Grammar.Dialect.ofExtension? ".js" = some .plain from by decide +kernel]
    simp only [Source.text?, Text.decode?_toUTF8, hroot]
  · rw [of_decide_eq_true hspan]
    exact Source.slice_ofList cs hn

/-- The beginning of a long secret of a session is shown. -/
theorem SecretSetting.excerpt_ne_session :
    ∃ value value', IsSecretValue value ∧ IsSecretValue value' ∧ value'.length = value.length ∧
      ∃ root root', (sessionFile value).parse ".js" = .ok root ∧
        (sessionFile value').parse ".js" = .ok root' ∧
        ∃ e e' p p',
          ProvedBy (sessionFile value) "src/a.js" root e p ∧
          Text.collapse ((sessionFile value).slice p.span) = session.text value ∧
          ProvedBy (sessionFile value') "src/a.js" root' e' p' ∧
          Text.collapse ((sessionFile value').slice p'.span) = session.text value' ∧
          e.excerpt ≠ e'.excerpt := by
  have hvalue {n : Nat} {c : Char} (hn : n ≠ 0) (hc : c = 'a' ∨ c = 'b') :
      IsSecretValue (List.replicate n c) := by
    obtain rfl | rfl := hc <;> exact isSecretValue_replicate hn (by decide) (by decide)
  have hvalueA := hvalue (n := 110) (by decide) (.inl rfl)
  have hvalueB := hvalue (n := 110) (by decide) (.inr rfl)
  have hline : Text.collapse (session.text (List.replicate 110 'a')) =
      session.text (List.replicate 110 'a') :=
    SecretSetting.collapse_text (hvalue (n := 1) (by decide) (.inl rfl)) hvalueA (by decide +kernel)
  have hline' := SecretSetting.collapse_text hvalueA hvalueB hline
  obtain ⟨root, hroot, e, p, he, hp⟩ :=
    exists_shown (session.text (List.replicate 110 'a')) (n := 131) (by decide +kernel)
      (by decide +kernel) "src/a.js"
  obtain ⟨root', hroot', e', p', he', hp'⟩ :=
    exists_shown (session.text (List.replicate 110 'b')) (n := 131) (by decide +kernel)
      (by decide +kernel) "src/a.js"
  refine ⟨_, _, hvalueA, hvalueB, by simp, root, root', hroot, hroot', e, e', p, p', he,
    hp.symm ▸ hline, he', hp'.symm ▸ hline', ?_⟩
  rw [he.excerpt_eq, he'.excerpt_eq, hp, hp', hline, hline']
  exact SecretSetting.secrets_cut_ne ⟨by decide +kernel, by decide +kernel, by decide +kernel⟩

end Redaction
end Conventions
