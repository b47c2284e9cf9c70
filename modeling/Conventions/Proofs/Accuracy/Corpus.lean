import Conventions.Proofs.Accuracy.Judged
import Conventions.Proofs.Schema.Corpus
import Conventions.Proofs.Vocabulary
import Mathlib.Data.List.Induction

/-!
# Proofs/Accuracy/Corpus — which documents are taken for a corpus

A document is taken for a corpus exactly if it describes cases that can be trusted: every project is
named once, and the vocabulary knows every label that is expected for a key. Any other document is
refused, for breaking the contract or for the first case that cannot be trusted
(`ofDocument_trusts_or_refuses`).
-/

namespace Conventions

namespace FacetKey

variable {key label : String}

/-- **The vocabulary knows a label for a key**: it is one of the labels of its facet, or the unknown
one. -/
def Knows (key label : String) : Prop :=
  ∃ c facet ls, parse key = .ok (c, facet) ∧ c.labels? facet = some ls ∧
    (label ∈ ls ∨ label = unknownLabel)

theorem checkLabel_eq_ok_iff : checkLabel key label = .ok () ↔ Knows key label := by
  unfold checkLabel labels Knows
  cases hparse : parse key with
  | error fault => simp [Except.map]
  | ok named =>
    obtain ⟨c, facet⟩ := named
    obtain ⟨ls, hls⟩ := labels?_of_parse hparse
    by_cases hlabel : label ∈ ls ++ [unknownLabel]
    · simp only [Except.map, hls, Option.getD_some, if_pos hlabel, true_iff]
      exact ⟨c, facet, ls, rfl, hls, by simpa using hlabel⟩
    · simp only [Except.map, hls, Option.getD_some, if_neg hlabel, reduceCtorEq, false_iff]
      rintro ⟨_, _, ls', hok, hls', hmem⟩
      cases hok
      cases hls.symm.trans hls'
      exact hlabel (by simpa using hmem)

end FacetKey

namespace CorpusCase

variable {case : CorpusCase} {seen : List String} {fault : CorpusFault}

/-- **A case is sound** after some projects: it is none of them, and the vocabulary knows the labels
that it expects. -/
structure IsSound (seen : List String) (case : CorpusCase) : Prop where
  new : case.project ∉ seen
  known : ∀ e ∈ case.expected, FacetKey.Knows e.1 e.2

/-- **What is wrong with a case** after some projects: it names one of them again, or its first label
that the vocabulary does not know. -/
inductive IsFaulty (seen : List String) (case : CorpusCase) : CorpusFault → Prop
  | duplicate (h : case.project ∈ seen) : IsFaulty seen case (.duplicateProject case.project)
  | unknown {known rest : List (String × String)} {key label : String} {fault : VocabularyError}
      (hnew : case.project ∉ seen) (hexpected : case.expected = known ++ (key, label) :: rest)
      (hknown : ∀ e ∈ known, FacetKey.Knows e.1 e.2)
      (hfault : FacetKey.checkLabel key label = .error fault) :
      IsFaulty seen case (.unknownExpectation case.project fault)

theorem unknownLabel?_eq_none_iff :
    Corpus.unknownLabel? case = none ↔ ∀ e ∈ case.expected, FacetKey.Knows e.1 e.2 := by
  rw [Corpus.unknownLabel?, List.findSome?_eq_none_iff]
  refine forall₂_congr fun ⟨key, label⟩ _ => ?_
  rw [← FacetKey.checkLabel_eq_ok_iff]
  cases hcheck : FacetKey.checkLabel key label <;> simp [hcheck]

theorem unknownLabel?_eq_some_iff {fault : VocabularyError} :
    Corpus.unknownLabel? case = some fault ↔ ∃ known key label rest,
      case.expected = known ++ (key, label) :: rest ∧
        (∀ e ∈ known, FacetKey.Knows e.1 e.2) ∧ FacetKey.checkLabel key label = .error fault := by
  have hnone (known : List (String × String)) := @unknownLabel?_eq_none_iff ⟨"", "", "", known⟩
  simp only [Corpus.unknownLabel?, List.findSome?_eq_none_iff] at hnone
  rw [Corpus.unknownLabel?, List.findSome?_eq_some_iff]
  constructor
  · rintro ⟨known, ⟨key, label⟩, rest, hexpected, hfault, hknown⟩
    refine ⟨known, key, label, rest, hexpected, (hnone known).1 hknown, ?_⟩
    cases hcheck : FacetKey.checkLabel key label with
    | ok => simp [hcheck] at hfault
    | error other => simpa [hcheck] using hfault
  · rintro ⟨known, key, label, rest, hexpected, hknown, hfault⟩
    exact ⟨known, (key, label), rest, hexpected, by simp [hfault], (hnone known).2 hknown⟩

theorem isSound_or_isFaulty (seen : List String) (case : CorpusCase) :
    case.IsSound seen ∨ ∃ fault, case.IsFaulty seen fault := by
  by_cases hnew : case.project ∈ seen
  · exact .inr ⟨_, .duplicate hnew⟩
  · cases hunknown : Corpus.unknownLabel? case with
    | none => exact .inl ⟨hnew, unknownLabel?_eq_none_iff.1 hunknown⟩
    | some fault =>
      obtain ⟨known, key, label, rest, hexpected, hknown, hfault⟩ :=
        unknownLabel?_eq_some_iff.1 hunknown
      exact .inr ⟨_, .unknown hnew hexpected hknown hfault⟩

end CorpusCase

namespace Corpus

variable {cases before after : List CorpusCase} {case : CorpusCase} {fault : CorpusFault}

/-- The projects of some cases. -/
def projects (cases : List CorpusCase) : List String := cases.map (·.project)

/-- **Cases that can be trusted.** -/
structure Trustworthy (cases : List CorpusCase) : Prop where
  nodup : (projects cases).Nodup
  known : ∀ case ∈ cases, ∀ e ∈ case.expected, FacetKey.Knows e.1 e.2

theorem trustworthy_nil : Trustworthy [] := ⟨List.nodup_nil, fun _ h => nomatch h⟩

theorem trustworthy_concat_iff : Trustworthy (before ++ [case]) ↔
    Trustworthy before ∧ case.IsSound (projects before) := by
  constructor
  · intro h
    have hnodup := h.nodup
    rw [projects, List.map_append, List.nodup_append] at hnodup
    exact ⟨⟨hnodup.1, fun c hc => h.known c (List.mem_append_left _ hc)⟩,
      fun hmem => hnodup.2.2 _ hmem _ (List.mem_singleton.2 rfl) rfl,
      h.known case (List.mem_append_right _ (List.mem_singleton.2 rfl))⟩
  · rintro ⟨h, hsound⟩
    refine ⟨?_, fun c hc => ?_⟩
    · simpa [projects] using List.Nodup.concat hsound.new h.nodup
    · obtain hc | hc := List.mem_append.1 hc
      · exact h.known c hc
      · exact List.mem_singleton.1 hc ▸ hsound.known

/-- **Cases can be trusted**, or there is a first one that cannot. -/
theorem trustworthy_or_faulty (cases : List CorpusCase) : Trustworthy cases ∨
    ∃ before case after fault, cases = before ++ case :: after ∧ Trustworthy before ∧
      case.IsFaulty (projects before) fault := by
  induction cases using List.reverseRecOn with
  | nil => exact .inl trustworthy_nil
  | append_singleton cases case ih =>
    obtain h | ⟨before, first, after, fault, rfl, hbefore, hfaulty⟩ := ih
    · obtain hsound | ⟨fault, hfaulty⟩ := case.isSound_or_isFaulty (projects cases)
      · exact .inl (trustworthy_concat_iff.2 ⟨h, hsound⟩)
      · exact .inr ⟨cases, case, [], fault, rfl, h, hfaulty⟩
    · exact .inr ⟨before, first, after ++ [case], fault, by simp, hbefore, hfaulty⟩

/-! ## Checking cases -/

theorem checkCases_cons_of_isSound (h : case.IsSound (projects before)) :
    checkCases (projects before).reverse (case :: after) =
      checkCases (projects (before ++ [case])).reverse after := by
  have hnew : (projects before).reverse.contains case.project = false := by
    simpa using h.new
  rw [checkCases, hnew, CorpusCase.unknownLabel?_eq_none_iff.2 h.known]
  simp [projects]

theorem checkCases_cons_of_isFaulty (h : case.IsFaulty (projects before) fault) :
    checkCases (projects before).reverse (case :: after) = .error fault := by
  rw [checkCases]
  cases h with
  | duplicate h => rw [if_pos (by simpa using h)]
  | unknown hnew hexpected hknown hfault =>
    rw [if_neg (by simpa using hnew), CorpusCase.unknownLabel?_eq_some_iff.2
      ⟨_, _, _, _, hexpected, hknown, hfault⟩]

/-- **Cases that can be trusted are passed.** -/
theorem checkCases_append (h : Trustworthy before) :
    checkCases [] (before ++ after) = checkCases (projects before).reverse after := by
  induction before using List.reverseRecOn generalizing after with
  | nil => rfl
  | append_singleton before case ih =>
    obtain ⟨hbefore, hsound⟩ := trustworthy_concat_iff.1 h
    rw [List.append_assoc, List.singleton_append, ih hbefore, checkCases_cons_of_isSound hsound]

theorem checkCases_of_trustworthy (h : Trustworthy cases) : checkCases [] cases = .ok () := by
  rw [← List.append_nil cases, checkCases_append h, checkCases]

theorem checkCases_of_isFaulty (hbefore : Trustworthy before)
    (h : case.IsFaulty (projects before) fault) :
    checkCases [] (before ++ case :: after) = .error fault :=
  (checkCases_append hbefore).trans (checkCases_cons_of_isFaulty h)

/-! ## Documents -/

/-- **Why a document is refused**: it breaks the contract, or the first case that cannot be trusted is
at fault. -/
inductive Refuses (j : Json) : CorpusFault → Prop
  | contract {v : Violation} (h : Contract.corpus.check j = some v) :
      Refuses j (.violatesContract v.message)
  | case {before after : List CorpusCase} {case : CorpusCase} {fault : CorpusFault}
      (hcases : Describes j (before ++ case :: after)) (hbefore : Trustworthy before)
      (h : case.IsFaulty (projects before) fault) : Refuses j fault

theorem ofDocument_of_check {j : Json} {v : Violation} (h : Contract.corpus.check j = some v) :
    ofDocument j = .error (.violatesContract v.message) := by
  rw [ofDocument, h]

theorem ofDocument_of_describes {j : Json} (h : Describes j cases) :
    ofDocument j = (checkCases [] cases).map fun _ => ⟨cases⟩ := by
  rw [ofDocument, Contract.check_corpus_eq_none_iff.2 ⟨cases, h⟩]
  simp only [h.eq_map_caseOf]
  cases checkCases [] cases <;> rfl

theorem Describes.unique {j : Json} {cases cases' : List CorpusCase} (h : Describes j cases)
    (h' : Describes j cases') : cases = cases' :=
  h.eq_map_caseOf.symm.trans h'.eq_map_caseOf

theorem Trustworthy.ofDocument_eq {j : Json} (h : Trustworthy cases) (hcases : Describes j cases) :
    ofDocument j = .ok ⟨cases⟩ := by
  rw [ofDocument_of_describes hcases, checkCases_of_trustworthy h]
  rfl

theorem Refuses.ofDocument_eq {j : Json} (h : Refuses j fault) : ofDocument j = .error fault := by
  cases h with
  | contract h => exact ofDocument_of_check h
  | case hcases hbefore h =>
    rw [ofDocument_of_describes hcases, checkCases_of_isFaulty hbefore h]
    rfl

/-- **A document describes cases that can be trusted, or it is refused.** -/
theorem trustworthy_or_refuses (j : Json) :
    (∃ cases, Describes j cases ∧ Trustworthy cases) ∨ ∃ fault, Refuses j fault := by
  cases hcheck : Contract.corpus.check j with
  | some v => exact .inr ⟨_, .contract hcheck⟩
  | none =>
    obtain ⟨cases, hcases⟩ := Contract.check_corpus_eq_none_iff.1 hcheck
    obtain h | ⟨before, case, after, fault, rfl, hbefore, h⟩ := trustworthy_or_faulty cases
    · exact .inl ⟨cases, hcases, h⟩
    · exact .inr ⟨fault, .case hcases hbefore h⟩

theorem ofDocument_eq_ok_iff {j : Json} {corpus : Corpus} :
    ofDocument j = .ok corpus ↔ Describes j corpus.cases ∧ Trustworthy corpus.cases := by
  constructor
  · intro hok
    obtain ⟨cases, hcases, h⟩ | ⟨fault, h⟩ := trustworthy_or_refuses j
    · obtain rfl := Except.ok.inj ((h.ofDocument_eq hcases).symm.trans hok)
      exact ⟨hcases, h⟩
    · cases h.ofDocument_eq.symm.trans hok
  · exact fun h => h.2.ofDocument_eq h.1

theorem ofDocument_eq_error_iff {j : Json} : ofDocument j = .error fault ↔ Refuses j fault := by
  refine ⟨fun herror => ?_, Refuses.ofDocument_eq⟩
  obtain ⟨cases, hcases, h⟩ | ⟨fault', h⟩ := trustworthy_or_refuses j
  · cases (h.ofDocument_eq hcases).symm.trans herror
  · exact Except.error.inj (h.ofDocument_eq.symm.trans herror) ▸ h

/-- **A document is taken for a corpus exactly if it describes cases that can be trusted**; the corpus
has these cases. Any other document is refused, and told why. -/
theorem ofDocument_trusts_or_refuses (j : Json) :
    (∀ corpus, ofDocument j = .ok corpus ↔ Describes j corpus.cases ∧ Trustworthy corpus.cases) ∧
      ∀ fault, ofDocument j = .error fault ↔ Refuses j fault :=
  ⟨fun _ => ofDocument_eq_ok_iff, fun _ => ofDocument_eq_error_iff⟩

end Corpus
end Conventions
