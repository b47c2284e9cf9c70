import Conventions.Proofs.Redaction.Excerpts
import Conventions.Proofs.Redaction.Settled

/-!
# Proofs/Redaction/Bounds — how long excerpts get

An excerpt is a single line: its words are joined by spaces, and redaction brings in no end of a line. It
is cut to its bound before it is redacted, and a placeholder is longer than a short value that it stands
for. `length_secrets` is the account: redaction takes the hidden values and the masked tokens out and puts
a placeholder in for each. So an excerpt keeps to its bound if no hidden value is shorter than a
placeholder, for no token is, and exactly if the cut text has room for what the values lack
(`ProvedBy.length_excerpt_iff`). Twelve settings fit in a cut text, so no excerpt has more than 228
characters.
-/

namespace Conventions
namespace Redaction

open Text (Pattern Place)
open Text.Pattern

variable {p q : Place} {excerpt : String}

/-! ## What is hidden -/

/-- The value of a setting that is matched between two places. -/
def valueBetween (p q : Place) : List Char :=
  (((matched p q).dropWhile fun c => !isQuote c).drop 1).dropLast

/-- **The values of settings** that are taken out of an excerpt. -/
def hiddenValues (excerpt : String) : List (List Char) :=
  (secretAssignment.matchesFrom ⟨none, excerpt.toList⟩).map fun m => valueBetween m.1 m.2

/-- **The tokens** that are masked in an excerpt once its values are taken out. -/
def maskedTokens (excerpt : String) : List (List Char) :=
  (secretToken.matchesFrom ⟨none, secretAssignment.rewriteFrom hideValue ⟨none, excerpt.toList⟩⟩).map
    fun m => matched m.1 m.2

theorem length_matched (p q : Place) : (matched p q).length = p.rest.length - q.rest.length := by
  rw [matched, List.length_take]
  omega

theorem valueBetween_eq {front value : List Char} {c : Char} (hfront : Unquoted front)
    (hc : isQuote c = true) (hread : p.Passes (front ++ c :: (value ++ [c])) q) :
    valueBetween p q = value := by
  have hvalue : (front ++ c :: (value ++ [c])).dropWhile (fun d => !isQuote d) =
      c :: (value ++ [c]) := by
    rw [List.dropWhile_append_of_pos fun d hd => by rw [hfront d hd]; rfl,
      List.dropWhile_cons_of_neg (by rw [hc]; exact Bool.false_ne_true)]
  rw [valueBetween, matched_eq hread, hvalue, List.drop_one, List.tail_cons, List.dropLast_concat]

/-- **A setting with its value taken out** has a placeholder for it. The value is not empty, and a setting
has ten characters at least. -/
theorem length_hideValue (h : q ∈ secretAssignment.ends p) :
    (hideValue p q).length + (valueBetween p q).length =
        p.rest.length - q.rest.length + placeholder.length ∧
      1 ≤ (valueBetween p q).length ∧ 10 ≤ (matched p q).length := by
  obtain ⟨head, c, value, hhead, hc, hne, -, hread⟩ := mem_ends_secretAssignment_iff.1 h
  have hleast : 10 ≤ (head ++ c :: (value ++ [c])).length := least_le_length h hread
  rw [hideValue_eq hhead.unquoted hc hread, valueBetween_eq hhead.unquoted hc hread, ← length_matched,
    matched_eq hread]
  refine ⟨?_, List.length_pos_iff.2 hne, hleast⟩
  simp only [List.length_append, List.length_cons, List.length_nil, String.length_toList]
  omega

/-- A token is longer than a placeholder. -/
theorem length_token (h : q ∈ secretToken.ends p) : placeholder.length ≤ (matched p q).length := by
  obtain ⟨read, hread, -⟩ := reads_of_mem_ends _ p q h
  have hleast : 15 ≤ read.length := least_le_length h hread
  rw [matched_eq hread]
  exact Nat.le_trans (by decide) hleast

/-! ## The account of a redaction -/

theorem le_length_flatten {α : Type} {k : Nat} {xss : List (List α)} (h : ∀ xs ∈ xss, k ≤ xs.length) :
    k * xss.length ≤ xss.flatten.length := by
  induction xss with
  | nil => exact Nat.le_refl 0
  | cons xs xss ih =>
    obtain ⟨hxs, hxss⟩ := List.forall_mem_cons.1 h
    have hrest := ih hxss
    rw [List.length_cons, List.flatten_cons, List.length_append, Nat.mul_succ]
    omega

theorem length_flatten_map {α : Type} (f : α → List Char) (xs : List α) :
    (xs.map f).flatten.length = (xs.map fun x => (f x).length).sum := by
  rw [List.length_flatten, List.map_map]
  rfl

theorem mem_ends_of_mem_settings {m : Place × Place} (hm : m ∈ secretAssignment.matchesFrom p) :
    m.2 ∈ secretAssignment.ends m.1 :=
  mem_ends_of_mem_matchesFrom (by decide) hm

/-- Taking values out: the account. -/
theorem length_rewriteFrom_hideValue (p : Place) :
    (secretAssignment.rewriteFrom hideValue p).length +
        ((secretAssignment.matchesFrom p).map fun m => valueBetween m.1 m.2).flatten.length =
      p.rest.length + placeholder.length * (secretAssignment.matchesFrom p).length := by
  have haccount := length_rewriteFrom hideValue (by decide) (a := secretAssignment) p
  have hvalues : ((secretAssignment.matchesFrom p).map fun m => (hideValue m.1 m.2).length).sum +
      ((secretAssignment.matchesFrom p).map fun m => (valueBetween m.1 m.2).length).sum =
        ((secretAssignment.matchesFrom p).map fun m => m.1.rest.length - m.2.rest.length).sum +
          placeholder.length * (secretAssignment.matchesFrom p).length := by
    rw [← List.sum_map_add, List.map_congr_left fun m hm =>
      (length_hideValue (mem_ends_of_mem_settings hm)).1, List.sum_map_add, List.map_const',
      List.sum_replicate, smul_eq_mul, Nat.mul_comm]
  rw [length_flatten_map]
  omega

/-- Masking tokens: the account. -/
theorem length_masked_secretToken (p : Place) :
    (masked secretToken p).length +
        ((secretToken.matchesFrom p).map fun m => matched m.1 m.2).flatten.length =
      p.rest.length + placeholder.length * (secretToken.matchesFrom p).length := by
  have haccount := length_rewriteFrom (fun _ _ => placeholder.toList)
    leavesPlaceholder_secretToken.consumes p
  rw [List.map_const', List.sum_replicate, smul_eq_mul, Nat.mul_comm, String.length_toList] at haccount
  simp only [length_flatten_map, length_matched]
  exact haccount

/-- **The length of a redacted text**: what is hidden and masked goes, and a placeholder comes for each. -/
theorem length_secrets (excerpt : String) :
    (secrets excerpt).length + (hiddenValues excerpt).flatten.length +
        (maskedTokens excerpt).flatten.length =
      excerpt.length +
        placeholder.length * ((hiddenValues excerpt).length + (maskedTokens excerpt).length) := by
  have hvalues := length_rewriteFrom_hideValue ⟨none, excerpt.toList⟩
  have htokens := length_masked_secretToken
    ⟨none, secretAssignment.rewriteFrom hideValue ⟨none, excerpt.toList⟩⟩
  have hsecrets : (secrets excerpt).length = (secrets excerpt).toList.length :=
    String.length_toList.symm
  rw [hsecrets, toList_secrets, hiddenValues, maskedTokens, List.length_map, List.length_map,
    Nat.mul_add]
  simp only [String.length_toList] at hvalues
  dsimp only at htokens
  omega

/-- Masking tokens makes no text longer. -/
theorem maskedTokens_le (excerpt : String) :
    placeholder.length * (maskedTokens excerpt).length ≤ (maskedTokens excerpt).flatten.length := by
  refine le_length_flatten fun token htoken => ?_
  obtain ⟨m, hm, rfl⟩ := List.mem_map.1 htoken
  exact length_token (mem_ends_of_mem_matchesFrom leavesPlaceholder_secretToken.consumes hm)

/-- **Redaction makes no text longer** if no hidden value is shorter than a placeholder. -/
theorem length_secrets_le_of_long
    (h : ∀ value ∈ hiddenValues excerpt, placeholder.length ≤ value.length) :
    (secrets excerpt).length ≤ excerpt.length := by
  have haccount := length_secrets excerpt
  have htokens := maskedTokens_le excerpt
  have hvalues := le_length_flatten h
  rw [Nat.mul_add] at haccount
  omega

/-- No text is shorter than the settings in it. -/
theorem length_settings_le (p : Place) :
    10 * (secretAssignment.matchesFrom p).length ≤ p.rest.length := by
  have hspans : 10 * ((secretAssignment.matchesFrom p).map fun m => matched m.1 m.2).length ≤
      ((secretAssignment.matchesFrom p).map fun m => matched m.1 m.2).flatten.length := by
    refine le_length_flatten fun span hspan => ?_
    obtain ⟨m, hm, rfl⟩ := List.mem_map.1 hspan
    exact (length_hideValue (mem_ends_of_mem_settings hm)).2.2
  -- what is left without the settings
  have haccount := length_rewriteFrom (fun _ _ => []) (by decide) (a := secretAssignment) p
  rw [List.length_map, length_flatten_map] at hspans
  simp only [length_matched] at hspans
  simp only [List.length_nil, List.map_const', List.sum_replicate, smul_eq_mul, Nat.mul_zero]
    at haccount
  omega

/-- **How long a redacted text gets**: ten characters become nineteen at most. -/
theorem length_secrets_le (excerpt : String) :
    10 * (secrets excerpt).length ≤ 19 * excerpt.length := by
  have hvalues : 1 * (hiddenValues excerpt).length ≤ (hiddenValues excerpt).flatten.length := by
    refine le_length_flatten fun value hvalue => ?_
    obtain ⟨m, hm, rfl⟩ := List.mem_map.1 hvalue
    exact (length_hideValue (mem_ends_of_mem_settings hm)).2.1
  have hsettings := length_settings_le ⟨none, excerpt.toList⟩
  have haccount := length_secrets excerpt
  have htokens := maskedTokens_le excerpt
  have hplaceholder : placeholder.length = 10 := by decide
  have hnumber : (hiddenValues excerpt).length =
      (secretAssignment.matchesFrom ⟨none, excerpt.toList⟩).length := List.length_map _
  simp only [String.length_toList] at hsettings
  rw [hplaceholder] at haccount htokens
  omega

/-! ## Single lines -/

/-- **Redaction brings in the characters of placeholders** only. -/
theorem mem_of_mem_secrets {c : Char} (hc : c ∈ (secrets excerpt).toList) :
    c ∈ excerpt.toList ∨ c ∈ placeholder.toList := by
  have hvalues : ∀ c ∈ secretAssignment.rewriteFrom hideValue ⟨none, excerpt.toList⟩,
      c ∈ excerpt.toList ∨ c ∈ placeholder.toList := by
    refine mem_of_mem_rewriteFrom placeholder.toList (by decide) fun p q read hend hread c hc => ?_
    obtain ⟨front, d, value, hfront, hd, -, hread'⟩ :=
      of_mem_ends_secretAssignment (List.mem_of_head? hend)
    obtain rfl := hread'.read_eq hread
    rw [hideValue_eq hfront hd hread] at hc
    simp only [List.mem_append, List.mem_cons, List.not_mem_nil, or_false] at hc ⊢
    tauto
  rw [toList_secrets] at hc
  obtain hc | hc := mem_of_mem_rewriteFrom placeholder.toList
    leavesPlaceholder_secretToken.consumes (fun _ _ _ _ _ _ hc => .inr hc) c hc
  · exact hvalues c hc
  · exact .inr hc

theorem isLineEnd_of_mem_cut {cs : List Char} {c : Char} (h : c ∈ Excerpt.cut (Text.collapse cs)) :
    Text.isLineEnd c = false := by
  rw [Excerpt.cut] at h
  split at h
  · obtain h | h := List.mem_append.1 h
    · exact Text.isLineEnd_of_mem_collapse (List.mem_of_mem_take h)
    · obtain rfl : c = '.' := by simpa using h
      decide
  · exact Text.isLineEnd_of_mem_collapse h

end Redaction

/-! ## Excerpts -/

open Redaction

namespace Node

variable {s : Source} {file : String} {root p : Node} {e : Evidence}

theorem length_excerpt_le (s : Source) (p : Node) : (p.excerpt s).length ≤ Excerpt.maxLength := by
  rw [excerpt, Source.excerpt, ← String.length_toList, String.toList_ofList]
  exact Excerpt.length_cut_le _

/-- **An excerpt keeps to its bound** exactly if what is left of the cut text has room for the
placeholders. -/
theorem ProvedBy.length_excerpt_iff (h : ProvedBy s file root e p) :
    e.excerpt.length ≤ Excerpt.maxLength ↔
      (p.excerpt s).length + placeholder.length *
          ((hiddenValues (p.excerpt s)).length + (maskedTokens (p.excerpt s)).length) ≤
        Excerpt.maxLength + (hiddenValues (p.excerpt s)).flatten.length +
          (maskedTokens (p.excerpt s)).flatten.length := by
  have hexcerpt : e.excerpt = secrets (p.excerpt s) := h.excerpt_eq
  have haccount := length_secrets (p.excerpt s)
  rw [hexcerpt]
  omega

/-- **Excerpts are single lines of bounded length.** No excerpt has an end of a line, and none has more than
228 characters. It has no more than the bound of the cut text if and only if the text, less the values that
are hidden in it and the tokens that are masked, leaves room for the placeholders, and so it is if no hidden
value is shorter than a placeholder. -/
theorem excerpt_bounded (he : e ∈ root.evidence s file) :
    (∀ c ∈ e.excerpt.toList, Text.isLineEnd c = false) ∧ e.excerpt.length ≤ 228 ∧
      (∃ p, ProvedBy s file root e p) ∧
      ∀ p, ProvedBy s file root e p →
        (e.excerpt.length ≤ Excerpt.maxLength ↔
          (p.excerpt s).length + placeholder.length *
              ((hiddenValues (p.excerpt s)).length + (maskedTokens (p.excerpt s)).length) ≤
            Excerpt.maxLength + (hiddenValues (p.excerpt s)).flatten.length +
              (maskedTokens (p.excerpt s)).flatten.length) ∧
        ((∀ value ∈ hiddenValues (p.excerpt s), placeholder.length ≤ value.length) →
          e.excerpt.length ≤ Excerpt.maxLength) := by
  obtain ⟨p, hp⟩ := mem_evidence_iff.1 he
  have hexcerpt : e.excerpt = secrets (p.excerpt s) := hp.excerpt_eq
  refine ⟨fun c hc => ?_, ?_, ⟨p, hp⟩, fun p hp => ⟨hp.length_excerpt_iff, fun hlong => ?_⟩⟩
  · rw [hexcerpt] at hc
    obtain hc | hc := mem_of_mem_secrets hc
    · rw [excerpt, Source.excerpt, String.toList_ofList] at hc
      exact isLineEnd_of_mem_cut hc
    · have hplain : ∀ c ∈ placeholder.toList, Text.isLineEnd c = false := by
        simp [toList_placeholder, Text.isLineEnd]
      exact hplain c hc
  · have hlength := length_secrets_le (p.excerpt s)
    have hcut : (p.excerpt s).length ≤ 120 := length_excerpt_le s p
    rw [hexcerpt]
    omega
  · have hexcerpt : e.excerpt = secrets (p.excerpt s) := hp.excerpt_eq
    rw [hexcerpt]
    exact (length_secrets_le_of_long hlong).trans (length_excerpt_le s p)

/-- A session with ten short secrets. -/
def shortSecrets : List Char :=
  ("session(\x7bsecret:'a',passwd:'b',apikey:'c',apiKey:'d',APIKEY:'e',Secret:'f',SECRET:'g'," ++
    "Passwd:'h',PASSWD:'i',ApiKey:'j'\x7d)").toList

/-- **Ten short secrets** make an excerpt of 210 characters of a text that is not even cut. -/
theorem exists_excerpt_too_long :
    ∃ root, (Source.mk (String.ofList shortSecrets).toUTF8).parse ".js" = .ok root ∧
      ∃ e ∈ root.evidence ⟨(String.ofList shortSecrets).toUTF8⟩ "src/a.js",
        shortSecrets.length = Excerpt.maxLength ∧ e.excerpt.length = 210 := by
  obtain ⟨root, hroot, e, p, he, hp⟩ :=
    exists_shown shortSecrets (n := 120) (by decide +kernel) (by decide +kernel) "src/a.js"
  refine ⟨root, hroot, e, mem_evidence_iff.2 ⟨p, he⟩, by decide +kernel, ?_⟩
  rw [he.excerpt_eq, hp, secrets_ofList, String.length_ofList]
  decide +kernel

/-- The excerpt of a login with a long password keeps to the bound. -/
theorem excerpt_bounded_login :
    ∃ s root e p, e ∈ root.evidence s "a.js" ∧ ProvedBy s "a.js" root e p ∧
      (∀ value ∈ hiddenValues (p.excerpt s), placeholder.length ≤ value.length) ∧
      (∀ c ∈ e.excerpt.toList, Text.isLineEnd c = false) ∧
      e.excerpt.length ≤ Excerpt.maxLength := by
  obtain ⟨s, root, e, p, hp, hslice⟩ := exists_provedBy (login.text "correct horse".toList) "a.js"
  have he : e ∈ root.evidence s "a.js" := mem_evidence_iff.2 ⟨p, hp⟩
  have hlong : ∀ value ∈ hiddenValues (p.excerpt s), placeholder.length ≤ value.length := by
    rw [Node.excerpt, Source.excerpt, hslice]
    decide +kernel
  obtain ⟨hline, -, -, hbound⟩ := excerpt_bounded he
  exact ⟨s, root, e, p, he, hp, hlong, hline, (hbound p hp).2 hlong⟩

end Node
end Conventions
