import Conventions.Proofs.Redaction.Masking
import Conventions.Proofs.Redaction.Secrets

/-!
# Proofs/Redaction/Settled — an excerpt without its secrets stays as it is

A setting ends with the second quote of a text, so up to its first quote a text stays as it is when values
are hidden, and after it either the value is hidden or the text is read on from there
(`rewriteFrom_hideValue_cases`). In what is left, every setting has the placeholder as its value
(`hidesAll_rewriteFrom`), and no value comes to light when tokens are masked then (`HidesAll.masked`).

Where tokens are masked, no token is left (`foundFrom_secretToken`): what stands between two placeholders
stood there before, and the quotes beside a long literal are never a part of a token. So redacting twice
changes nothing (`secrets_settled`).

What is left does not tell values apart, unless a value holds a quote. A value with one of the other two
quotes is no value to `secretAssignment`, and redaction keeps the quotes (`filter_isQuote_secrets`): what is
left tells it from every value without quotes (`QuotedSetting.secrets_text_eq_iff`).
-/

namespace Conventions
namespace Redaction

open Text (Pattern Place)
open Text.Pattern

variable {p q : Place} {cs head front value value' rest : List Char} {c d : Char} {before : Option Char}

/-! ## Quotes -/

theorem Unquoted.filter_eq_nil (h : Unquoted cs) : cs.filter isQuote = [] :=
  List.filter_eq_nil_iff.2 fun c hc => Bool.eq_false_iff.1 (h c hc)

/-- A text with a quote has a first one. -/
theorem exists_first_quote (h : cs.filter isQuote ≠ []) :
    ∃ front c rest, cs = front ++ c :: rest ∧ Unquoted front ∧ isQuote c = true := by
  induction cs with
  | nil => exact absurd rfl h
  | cons d cs ih =>
    cases hd : isQuote d with
    | true => exact ⟨[], d, cs, rfl, unquoted_nil, hd⟩
    | false =>
      rw [List.filter_cons_of_neg (by simp [hd])] at h
      obtain ⟨front, c, rest, rfl, hfront, hc⟩ := ih h
      exact ⟨d :: front, c, rest, rfl, List.forall_mem_cons.2 ⟨hd, hfront⟩, hc⟩

theorem unquoted_placeholder : Unquoted placeholder.toList := by
  simp [Unquoted, placeholder, isQuote]

/-- **Hiding values keeps the quotes.** -/
theorem filter_isQuote_hideValue (p : Place) :
    (secretAssignment.rewriteFrom hideValue p).filter isQuote = p.rest.filter isQuote := by
  refine filter_rewriteFrom (by decide) fun p' q read _ hend hread => ?_
  obtain ⟨front, c, value, hfront, hc, hvalue, hread'⟩ :=
    of_mem_ends_secretAssignment (List.mem_of_head? hend)
  obtain rfl := hread'.read_eq hread
  rw [hideValue_eq hfront hc hread']
  simp only [List.filter_append, List.filter_cons, hc, if_true, hvalue.filter_eq_nil,
    unquoted_placeholder.filter_eq_nil]

/-! ## Hiding the values of settings -/

/-- No setting begins with a quote. -/
theorem ends_secretAssignment_of_quote (hc : isQuote c = true) :
    secretAssignment.ends ⟨before, c :: rest⟩ = [] := by
  refine List.eq_nil_iff_forall_not_mem.2 fun q hq => ?_
  obtain ⟨head, d, value, hhead, -, -, -, hread⟩ := mem_ends_secretAssignment_iff.1 hq
  obtain ⟨e, head, rfl⟩ := List.exists_cons_of_ne_nil hhead.ne_nil
  obtain rfl : c = e := (List.cons.inj hread.rest).1
  exact hhead.unquoted.not_mem hc List.mem_cons_self

/-- **Hiding values goes to the first quote** without a change. After it either the text is read on, or
the value is hidden. -/
theorem rewriteFrom_hideValue_cases (hfront : Unquoted front) (hc : isQuote c = true)
    (hrest : p.rest = front ++ c :: rest) :
    secretAssignment.rewriteFrom hideValue p =
        front ++ c :: secretAssignment.rewriteFrom hideValue ⟨some c, rest⟩ ∨
      ∃ after, secretAssignment.rewriteFrom hideValue p =
        front ++ c :: (placeholder.toList ++ c :: after) := by
  obtain ⟨before, cs⟩ := p
  simp only at hrest
  subst hrest
  induction front generalizing before with
  | nil => exact .inl (rewriteFrom_cons_of_ends_eq_nil (ends_secretAssignment_of_quote hc))
  | cons d front ih =>
    cases hend : secretAssignment.end? ⟨before, d :: front ++ c :: rest⟩ with
    | some q =>
      obtain ⟨front', c', value, hfront', hc', hvalue, hread⟩ :=
        of_mem_ends_secretAssignment (List.mem_of_head? hend)
      have hrest : d :: front ++ c :: rest = front' ++ c' :: (value ++ [c']) ++ q.rest := hread.rest
      simp only [List.append_assoc, List.cons_append, List.nil_append] at hrest
      obtain ⟨rfl, rfl, rfl⟩ := hfront.append_cons_inj hfront' hc hc' hrest
      exact .inr ⟨_, rewriteFrom_of_match hfront hc hvalue rfl hend⟩
    | none =>
      have hnone : secretAssignment.ends ⟨before, d :: (front ++ c :: rest)⟩ = [] :=
        List.head?_eq_none_iff.1 hend
      rw [List.cons_append, rewriteFrom_cons_of_ends_eq_nil hnone]
      obtain hrest | ⟨after, hrest⟩ := ih (List.forall_mem_cons.1 hfront).2 (some d)
      · exact .inl (congrArg (d :: ·) hrest)
      · exact .inr ⟨after, congrArg (d :: ·) hrest⟩

/-- **A quoted value where values are hidden** is the placeholder, or a value of the old text. -/
theorem of_rewriteFrom_hideValue {out : List Char} (hfront : Unquoted front) (hc : isQuote c = true)
    (hvalue : Unquoted value) (hd : isQuote d = true)
    (h : secretAssignment.rewriteFrom hideValue p = front ++ c :: (value ++ d :: out)) :
    value = placeholder.toList ∨ ∃ rest, p.rest = front ++ c :: (value ++ d :: rest) := by
  have hquotes {p : Place} {front out : List Char} {c : Char} (hc : isQuote c = true)
      (h : secretAssignment.rewriteFrom hideValue p = front ++ c :: out) :
      p.rest.filter isQuote ≠ [] := by
    rw [← filter_isQuote_hideValue, h, List.filter_append, List.filter_cons_of_pos hc]
    simp
  obtain ⟨front', c', rest, hrest, hfront', hc'⟩ := exists_first_quote (hquotes hc h)
  obtain hcase | ⟨after, hcase⟩ := rewriteFrom_hideValue_cases hfront' hc' hrest
  · obtain ⟨rfl, rfl, hafter⟩ := hfront.append_cons_inj hfront' hc hc' (h.symm.trans hcase)
    obtain ⟨value', d', rest', rfl, hvalue', hd'⟩ := exists_first_quote (hquotes hd hafter.symm)
    have hsame : value = value' ∧ d = d' := by
      obtain hcase | ⟨after, hcase⟩ := rewriteFrom_hideValue_cases hvalue' hd'
        (p := ⟨some c, value' ++ d' :: rest'⟩) rfl
      · obtain ⟨hsame, hquote, -⟩ := hvalue.append_cons_inj hvalue' hd hd' (hafter.trans hcase)
        exact ⟨hsame, hquote⟩
      · obtain ⟨hsame, hquote, -⟩ := hvalue.append_cons_inj hvalue' hd hd' (hafter.trans hcase)
        exact ⟨hsame, hquote⟩
    obtain ⟨rfl, rfl⟩ := hsame
    exact .inr ⟨rest', hrest⟩
  · obtain ⟨rfl, rfl, hafter⟩ := hfront.append_cons_inj hfront' hc hc' (h.symm.trans hcase)
    exact .inl (hvalue.append_cons_inj unquoted_placeholder hd hc hafter).1

/-! ## Texts whose settings are hidden -/

/-- **Is every value in a text hidden**: does every setting have the placeholder as its value, wherever
it begins? -/
def HidesAll (cs : List Char) : Prop :=
  ∀ head c value rest, head ++ c :: (value ++ c :: rest) <:+ cs → IsSecretHead head →
    isQuote c = true → value ≠ [] → Unquoted value → value = placeholder.toList

theorem hidesAll_nil : HidesAll [] := by
  intro head c value rest hsuffix
  exact absurd (List.suffix_nil.1 hsuffix) (by simp)

theorem HidesAll.suffix {cs' : List Char} (h : HidesAll cs) (hsuffix : cs' <:+ cs) : HidesAll cs' :=
  fun head c value rest hsetting => h head c value rest (hsetting.trans hsuffix)

theorem hidesAll_cons (h : HidesAll cs) (hhere : ∀ head c value rest,
      d :: cs = head ++ c :: (value ++ c :: rest) → IsSecretHead head → isQuote c = true →
        value ≠ [] → Unquoted value → value = placeholder.toList) : HidesAll (d :: cs) := by
  intro head c value rest hsuffix
  obtain hwhole | hsuffix := List.suffix_cons_iff.1 hsuffix
  · exact hhere head c value rest hwhole.symm
  · exact h head c value rest hsuffix

/-- What stands before a quote hides all, if it and the quote make no setting with what follows. -/
theorem HidesAll.append_cons {after : List Char} (h : HidesAll after) (hfront : Unquoted front)
    (hc : isQuote c = true) (hhere : ∀ head value rest, head <:+ front → IsSecretHead head →
      after = value ++ c :: rest → Unquoted value → value = placeholder.toList) :
    HidesAll (front ++ c :: after) := by
  induction front with
  | nil =>
    refine hidesAll_cons h fun head c' value rest hwhole hhead hc' _ _ => ?_
    obtain ⟨rfl, -, -⟩ := hfront.append_cons_inj hhead.unquoted hc hc' hwhole
    exact absurd rfl hhead.ne_nil
  | cons d front ih =>
    refine hidesAll_cons (ih (List.forall_mem_cons.1 hfront).2 fun head value rest hsuffix =>
      hhere head value rest (hsuffix.trans (List.suffix_cons _ _))) ?_
    intro head c' value rest hwhole hhead hc' _ hvalue
    obtain ⟨rfl, rfl, hafter⟩ := hfront.append_cons_inj hhead.unquoted hc hc' hwhole
    exact hhere _ value rest (List.suffix_refl _) hhead hafter hvalue

/-- The placeholder holds no head. -/
theorem not_isSecretHead_of_suffix (h : head <:+ placeholder.toList) : ¬ IsSecretHead head := by
  intro hhead
  have hmem : ']' ∈ head := by
    obtain ⟨front, hfront⟩ := h
    have hlast := congrArg List.getLast? hfront
    rw [List.getLast?_append_of_ne_nil _ hhead.ne_nil] at hlast
    exact List.mem_of_getLast? hlast
  exact hhead.mark_notMem (by decide) hmem

/-- **A hidden value** hides all before what follows it. -/
theorem HidesAll.hidden {after : List Char} (h : HidesAll after) (hfront : Unquoted front)
    (hc : isQuote c = true) : HidesAll (front ++ c :: (placeholder.toList ++ c :: after)) := by
  have hvalue : HidesAll (placeholder.toList ++ c :: after) :=
    h.append_cons unquoted_placeholder hc fun head _ _ hsuffix hhead =>
      absurd hhead (not_isSecretHead_of_suffix hsuffix)
  refine hvalue.append_cons hfront hc fun head value rest _ _ hafter hvalue => ?_
  exact (unquoted_placeholder.append_cons_inj hvalue hc hc hafter).1.symm

/-- **Where values are hidden, all are.** -/
theorem hidesAll_rewriteFrom (p : Place) : HidesAll (secretAssignment.rewriteFrom hideValue p) := by
  refine rewriteFrom_induct hideValue (motive := fun _ out => HidesAll out) (by decide)
    (fun _ => hidesAll_nil) ?_ ?_ p
  · intro before d rest hnone ih
    refine hidesAll_cons ih fun head c value more hwhole hhead hc hne hvalue => ?_
    rw [← rewriteFrom_cons_of_ends_eq_nil hnone] at hwhole
    obtain hvalue | ⟨after, hrest⟩ := of_rewriteFrom_hideValue hhead.unquoted hc hvalue hc hwhole
    · exact hvalue
    · -- else the setting was there before, and no match begins here
      have hread : Place.Passes ⟨before, d :: rest⟩ (head ++ c :: (value ++ [c]))
          ⟨(head ++ c :: (value ++ [c])).getLast?.or before, after⟩ := ⟨by simpa using hrest, rfl⟩
      have hmatch := mem_ends_secretAssignment_iff.2 ⟨head, c, value, hhead, hc, hne, hvalue, hread⟩
      rw [hnone] at hmatch
      cases hmatch
  · intro p q hend ih
    obtain ⟨front, c, value, hfront, hc, -, hread⟩ :=
      of_mem_ends_secretAssignment (List.mem_of_head? hend)
    rw [hideValue_eq hfront hc hread]
    simpa using ih.hidden hfront hc

/-! ## Tokens -/

theorem leavesPlaceholder_secretToken : LeavesPlaceholder secretToken where
  consumes := by decide
  opening := by decide
  closing := by decide
  absent := by decide +kernel

/-- A long opaque literal between quotes in a masked text was there before: a bracket is no quote. -/
theorem ends_opaque_masked {a body : Pattern} (ha : a.consumes = true)
    (hbody : body.reads '[' = false) (h : (all [.after isQuote, body, .ahead isQuote]).ends p = [])
    (hbefore : before = p.before ∨ before = some ']') :
    (all [.after isQuote, body, .ahead isQuote]).ends ⟨before, masked a p⟩ = [] := by
  refine List.eq_nil_iff_forall_not_mem.2 fun q' hq' => ?_
  obtain ⟨m, hm, hq⟩ := mem_ends_all.1 hq'
  obtain ⟨-, c, hc, hquote⟩ := mem_ends_after_iff.1 hm
  obtain ⟨m', -, hq⟩ := mem_ends_all.1 hq
  obtain ⟨rfl, d, hd, hquote'⟩ := mem_ends_ahead_iff.1 hq
  have hsame : before = p.before := by
    refine hbefore.resolve_right fun hbracket => ?_
    obtain rfl : ']' = c := Option.some.inj (hbracket.symm.trans hc)
    cases hquote
  obtain ⟨read, q, hread', hread, hrest⟩ :=
    exists_passes_of_mem_ends_masked ha (by simpa [all, reads]) hq'
  have hnext : q'.rest.head? = q.rest.head? := by
    rw [hrest] at hd ⊢
    refine (head?_masked ha).resolve_right fun hbracket => ?_
    obtain rfl : '[' = d := Option.some.inj (hbracket.1.symm.trans hd)
    cases hquote'
  have hmatch := mem_ends_of_passes _ hq' hread' hread fun _ => ⟨hsame, hnext⟩
  rw [h] at hmatch
  cases hmatch

/-- **No token is made** where tokens are masked. -/
theorem ends_secretToken_masked (h : secretToken.ends p = [])
    (hbefore : before = p.before ∨ before = some ']') :
    secretToken.ends ⟨before, masked secretToken p⟩ = [] := by
  have hconsumes := leavesPlaceholder_secretToken.consumes
  refine List.eq_nil_iff_forall_not_mem.2 fun q' hq' => ?_
  obtain ⟨pattern, hpattern, hmatch⟩ := mem_ends_first.1 hq'
  have hgone : pattern.ends p = [] := List.eq_nil_iff_forall_not_mem.2 fun q hq =>
    List.not_mem_nil (h ▸ mem_ends_first.2 ⟨pattern, hpattern, hq⟩)
  have hnone : pattern.ends ⟨before, masked secretToken p⟩ = [] := by
    simp only [List.mem_cons, List.not_mem_nil, or_false] at hpattern
    obtain rfl | rfl | rfl := hpattern
    · exact ends_masked_of_not_looks hconsumes (by decide) (by decide) hgone
    · exact ends_masked_of_not_looks hconsumes (by decide) (by decide) hgone
    · exact ends_opaque_masked hconsumes (by decide) hgone hbefore
  rw [hnone] at hmatch
  cases hmatch

theorem foundFrom_secretToken (p : Place) :
    secretToken.foundFrom p.before (masked secretToken p) = false :=
  foundFrom_masked leavesPlaceholder_secretToken.consumes leavesPlaceholder_secretToken
    fun _ _ _ _ hnone hbefore => ends_secretToken_masked hnone (hbefore.imp_right And.right)

/-- Masking tokens keeps the quotes. -/
theorem filter_isQuote_masked (p : Place) :
    (masked secretToken p).filter isQuote = p.rest.filter isQuote := by
  refine filter_rewriteFrom (by decide) fun p' q read _ hend hread => ?_
  have hall := reads_of_passes (List.mem_of_head? hend) hread
  have hunquoted : Unquoted read := fun c hc => Bool.eq_false_iff.2 fun hquote =>
    notMem_of_reads (reads_secretToken hquote) hall hc
  rw [unquoted_placeholder.filter_eq_nil, hunquoted.filter_eq_nil]

/-! ## Hidden values in masked texts -/

/-- What stands before a bracket begins no setting with what follows. -/
theorem HidesAll.append_bracket {after : List Char} (h : HidesAll after) (hfront : Unquoted front) :
    HidesAll (front ++ ']' :: after) := by
  have hnone {front head rest : List Char} {c : Char} (hfront : Unquoted front)
      (hc : isQuote c = true) (h : head ++ c :: rest = front ++ ']' :: after) : ¬ IsSecretHead head := by
    intro hhead
    obtain ⟨more, rfl, hmore⟩ := exists_append_of_not_mem h (hhead.mark_notMem (by decide))
    cases more with
    | nil =>
      obtain rfl : c = ']' := (List.cons.inj hmore).1
      cases hc
    | cons d more =>
      obtain rfl : c = d := (List.cons.inj hmore).1
      exact hfront.not_mem hc (List.mem_append_right _ List.mem_cons_self)
  induction front with
  | nil =>
    exact hidesAll_cons h fun head c value rest hwhole hhead hc _ _ =>
      absurd hhead (hnone hfront hc hwhole.symm)
  | cons d front ih =>
    exact hidesAll_cons (ih (List.forall_mem_cons.1 hfront).2)
      fun head c value rest hwhole hhead hc _ _ => absurd hhead (hnone hfront hc hwhole.symm)

/-- **Up to its first quote** a masked text has no quote. -/
theorem masked_append_cons (hfront : Unquoted front) (hc : isQuote c = true)
    (before : Option Char) (rest : List Char) :
    ∃ out, Unquoted out ∧ masked secretToken ⟨before, front ++ c :: rest⟩ =
      out ++ c :: masked secretToken ⟨some c, rest⟩ := by
  obtain ⟨out, hout⟩ := rewriteFrom_append_cons (reads_secretToken hc)
    (fun _ _ => placeholder.toList) before rest front
  refine ⟨out, ?_, hout⟩
  have hquotes := filter_isQuote_masked ⟨before, front ++ c :: rest⟩
  have hrest := filter_isQuote_masked ⟨some c, rest⟩
  rw [masked, hout, ← masked] at hquotes
  simp only [List.filter_append, List.filter_cons_of_pos hc, hfront.filter_eq_nil, hrest,
    List.nil_append] at hquotes
  have hnil : out.filter isQuote = [] := List.append_left_eq_self.1 hquotes
  exact fun d hd => Bool.eq_false_iff.2 (List.filter_eq_nil_iff.1 hnil d hd)

/-- No token begins with a quote. -/
theorem masked_cons (hc : isQuote c = true) (before : Option Char) (rest : List Char) :
    masked secretToken ⟨before, c :: rest⟩ = c :: masked secretToken ⟨some c, rest⟩ :=
  rewriteFrom_cons_of_ends_eq_nil (ends_cons_eq_nil (by decide) (reads_secretToken hc) _ _)

/-- **A quoted value in a masked text** stands where one stood before, and a placeholder stays. -/
theorem exists_value_of_masked {out : List Char} (hhead : '[' ∉ head) (hc : isQuote c = true)
    (hne : value ≠ []) (hvalue : Unquoted value)
    (h : masked secretToken p = head ++ c :: (value ++ c :: out)) :
    ∃ value' rest, p.rest = head ++ c :: (value' ++ c :: rest) ∧ value' ≠ [] ∧ Unquoted value' ∧
      (value' = placeholder.toList → value = placeholder.toList) := by
  have hmark : '[' ∉ head ++ [c] := by
    rw [List.mem_append, List.mem_singleton, not_or]
    refine ⟨hhead, ?_⟩
    rintro rfl
    cases hc
  rw [← List.singleton_append, ← List.append_assoc] at h
  obtain ⟨q, hread, hq⟩ := exists_passes_of_rewriteFrom (by decide) rfl hmark h
  have hquotes : q.rest.filter isQuote ≠ [] := by
    rw [← filter_isQuote_masked, masked, ← hq, List.filter_append, List.filter_cons_of_pos hc]
    simp
  obtain ⟨value', c', rest, hrest, hvalue', hc'⟩ := exists_first_quote hquotes
  obtain ⟨before, cs⟩ := q
  obtain rfl : cs = value' ++ c' :: rest := hrest
  obtain ⟨shown, hshown, hmasked⟩ := masked_append_cons hvalue' hc' before rest
  obtain ⟨rfl, rfl, -⟩ := hvalue.append_cons_inj hshown hc hc' (hq.trans hmasked)
  have hagain {front after : List Char} (hfront : Unquoted front)
      (h : masked secretToken ⟨before, value' ++ c :: rest⟩ = front ++ c :: after) : value = front :=
    (hvalue.append_cons_inj hfront hc hc (hq.trans h)).1
  refine ⟨value', rest, ?_, ?_, hvalue', ?_⟩
  · rw [hread.rest]
    simp
  · rintro rfl
    exact hne (hagain unquoted_nil (masked_cons hc _ _))
  · rintro rfl
    have hkeeps := leavesPlaceholder_secretToken.masked_append before (c :: rest)
    rw [masked_cons hc] at hkeeps
    exact hagain unquoted_placeholder hkeeps

/-- **No value comes to light** where tokens are masked. -/
theorem HidesAll.masked (h : HidesAll p.rest) : HidesAll (masked secretToken p) := by
  refine rewriteFrom_induct (fun _ _ => placeholder.toList) (motive := fun p out =>
    HidesAll p.rest → HidesAll out) (by decide) (fun _ _ => hidesAll_nil) ?_ ?_ p h
  · intro before d rest hnone ih h
    refine hidesAll_cons (ih (h.suffix (List.suffix_cons _ _)))
      fun head c value more hwhole hhead hc hne hvalue => ?_
    rw [← rewriteFrom_cons_of_ends_eq_nil hnone, ← Redaction.masked] at hwhole
    obtain ⟨value', after, hrest, hne', hvalue', hsame⟩ :=
      exists_value_of_masked (hhead.mark_notMem (by decide)) hc hne hvalue hwhole
    exact hsame (h head c value' after ⟨[], hrest.symm⟩ hhead hc hne' hvalue')
  · intro p q hend ih h
    obtain ⟨read, hread, -⟩ := reads_of_mem_ends _ p q (List.mem_of_head? hend)
    have hafter := ih (h.suffix ⟨read, hread.rest.symm⟩)
    have hfront : Unquoted ('[' :: "redacted".toList) := by simp [Unquoted, isQuote]
    exact hafter.append_bracket hfront

/-! ## Redacting twice -/

theorem toList_secrets (s : String) : (secrets s).toList =
    masked secretToken ⟨none, secretAssignment.rewriteFrom hideValue ⟨none, s.toList⟩⟩ := by
  rw [secrets, toList_replaceAll, String.toList_ofList]

theorem hidesAll_secrets (s : String) : HidesAll (secrets s).toList := by
  rw [toList_secrets]
  exact HidesAll.masked (hidesAll_rewriteFrom _)

theorem foundIn_secrets (s : String) : secretToken.foundIn (secrets s) = false := by
  rw [foundIn, toList_secrets]
  exact foundFrom_secretToken ⟨none, _⟩

/-- Redaction keeps the quotes. -/
theorem filter_isQuote_secrets (s : String) :
    (secrets s).toList.filter isQuote = s.toList.filter isQuote := by
  rw [toList_secrets, filter_isQuote_masked]
  exact filter_isQuote_hideValue ⟨none, s.toList⟩

/-- Where every value is hidden, hiding values changes nothing. -/
theorem HidesAll.rewriteFrom_eq_self (h : HidesAll p.rest) :
    secretAssignment.rewriteFrom hideValue p = p.rest := by
  refine rewriteFrom_eq_self_of_rewrite_eq (by decide) fun p' q read hsuffix hend hread => ?_
  obtain ⟨head, c, value, hhead, hc, hne, hvalue, hread'⟩ :=
    mem_ends_secretAssignment_iff.1 (List.mem_of_head? hend)
  obtain rfl := hread'.read_eq hread
  have hsuffix : head ++ c :: (value ++ c :: q.rest) <:+ p.rest := by
    refine List.IsSuffix.trans ⟨[], ?_⟩ hsuffix
    rw [hread.rest]
    simp
  rw [hideValue_eq hhead.unquoted hc hread, h head c value q.rest hsuffix hhead hc hne hvalue]

/-- **Redaction is settled after one pass**, whatever the excerpt: a second pass changes nothing, no
token is left, every setting that is left has the placeholder as its value, and the quotes are those of
the excerpt. -/
theorem secrets_settled (s : String) :
    secrets (secrets s) = secrets s ∧ secretToken.foundIn (secrets s) = false ∧
      (∀ front rest q, (secrets s).toList = front ++ rest →
        q ∈ secretAssignment.ends ⟨front.getLast?, rest⟩ →
          ∃ head c, Unquoted head ∧ isQuote c = true ∧
            matched ⟨front.getLast?, rest⟩ q = head ++ c :: (placeholder.toList ++ [c])) ∧
      (secrets s).toList.filter isQuote = s.toList.filter isQuote := by
  refine ⟨?_, foundIn_secrets s, ?_, filter_isQuote_secrets s⟩
  · have hhidden := (hidesAll_secrets s).rewriteFrom_eq_self (p := ⟨none, (secrets s).toList⟩)
    rw [← String.toList_inj, toList_secrets (secrets s), hhidden]
    exact rewriteFrom_eq_self_of_foundFrom (foundIn_secrets s)
  · intro front rest q hwhole hq
    obtain ⟨head, c, value, hhead, hc, hne, hvalue, hread⟩ := mem_ends_secretAssignment_iff.1 hq
    have hsuffix : head ++ c :: (value ++ c :: q.rest) <:+ (secrets s).toList := by
      refine ⟨front, ?_⟩
      rw [hwhole, show rest = _ from hread.rest]
      simp
    obtain rfl := hidesAll_secrets s head c value q.rest hsuffix hhead hc hne hvalue
    exact ⟨head, c, hhead.unquoted, hc, matched_eq hread⟩

/-! ## Which values are hidden -/

/-- **What stands around a quoted secret**: the name of the secret and the sign right before its opening
quote, no quote before them, and what follows its closing quote. -/
structure QuotedSetting where
  before : List Char
  name : List Char
  sign : List Char
  quote : Char
  after : List Char
  unquoted : Unquoted before
  isName : IsSecretName name
  assigns : IsAssignment sign
  quoted : isQuote quote = true

namespace QuotedSetting

variable (x : QuotedSetting)

/-- **The text of a setting** with a value. -/
def text (value : List Char) : String :=
  String.ofList (x.before ++ (x.name ++ x.sign) ++ x.quote :: (value ++ x.quote :: x.after))

/-- What is redacted of a setting does not depend on a value without quotes. -/
theorem secrets_text_congr (hne : value ≠ []) (hvalue : Unquoted value) (hne' : value' ≠ [])
    (hvalue' : Unquoted value') : secrets (x.text value') = secrets (x.text value) := by
  have hhead := isSecretHead_append x.isName x.assigns
  rw [← String.toList_inj, toList_secrets, toList_secrets, text, text, String.toList_ofList,
    String.toList_ofList, rewriteFrom_setting x.unquoted hhead x.quoted hne hvalue,
    rewriteFrom_setting x.unquoted hhead x.quoted hne' hvalue']

/-- The quotes of a setting are those around its value, those in it and those after it. -/
theorem filter_isQuote_text (value : List Char) : (x.text value).toList.filter isQuote =
    x.quote :: (value.filter isQuote ++ x.quote :: x.after.filter isQuote) := by
  have hhead := x.unquoted.append (isSecretHead_append x.isName x.assigns).unquoted
  rw [text, String.toList_ofList, List.filter_append, hhead.filter_eq_nil, List.nil_append,
    List.filter_cons_of_pos x.quoted, List.filter_append, List.filter_cons_of_pos x.quoted]

/-- **Which values are hidden**: what is redacted of a setting is the same as for a value without quotes
if and only if there is no quote in the value. -/
theorem secrets_text_eq_iff (hne : value ≠ []) (hvalue : Unquoted value) (hne' : value' ≠ []) :
    secrets (x.text value') = secrets (x.text value) ↔ Unquoted value' := by
  refine ⟨fun h => ?_, x.secrets_text_congr hne hvalue hne'⟩
  have hquotes := congrArg (fun s => s.toList.filter isQuote) h
  simp only [filter_isQuote_secrets, filter_isQuote_text, hvalue.filter_eq_nil] at hquotes
  have hnil : value'.filter isQuote = [] :=
    List.append_left_eq_self.1 (List.cons.inj hquotes).2
  exact fun c hc => Bool.eq_false_iff.2 (List.filter_eq_nil_iff.1 hnil c hc)

theorem isSecretName_password : IsSecretName "password".toList :=
  .inl ⟨"password", by simp, List.forall₂_same.2 (by simp; decide)⟩

/-- A password in double quotes. -/
def password : QuotedSetting where
  before := []
  name := "password".toList
  sign := [':', ' ']
  quote := '"'
  after := []
  unquoted := unquoted_nil
  isName := isSecretName_password
  assigns := ⟨[], ':', [' '], List.forall_mem_singleton.2 (by decide), .inl rfl, rfl⟩
  quoted := rfl

/-- Two passwords without quotes leave the same text, and one with an apostrophe leaves another. -/
theorem secrets_text_eq_iff_password :
    "hunter2".toList ≠ [] ∧ Unquoted "hunter2".toList ∧ "swordfish".toList ≠ [] ∧
      "it's".toList ≠ [] ∧
      secrets (password.text "swordfish".toList) = secrets (password.text "hunter2".toList) ∧
      secrets (password.text "it's".toList) ≠ secrets (password.text "hunter2".toList) := by
  have hne : "hunter2".toList ≠ [] := by decide
  have hvalue : Unquoted "hunter2".toList := by simp [Unquoted, isQuote]
  refine ⟨hne, hvalue, by decide, by decide, ?_, fun h => ?_⟩
  · exact (password.secrets_text_eq_iff hne hvalue (by decide)).2 (by simp [Unquoted, isQuote])
  · exact absurd ((password.secrets_text_eq_iff hne hvalue (by decide)).1 h)
      (by simp [Unquoted, isQuote])

/-- **An apostrophe between double quotes** shows the value, which holds no double quote. -/
theorem password_shown :
    "it's".toList ≠ [] ∧ password.quote ∉ "it's".toList ∧ "hunter2".toList ≠ [] ∧
      password.quote ∉ "hunter2".toList ∧
      secrets (password.text "it's".toList) = "password: \"it's\"" ∧
      secrets (password.text "hunter2".toList) = "password: \"[redacted]\"" := by
  decide +kernel

end QuotedSetting

end Redaction
end Conventions
