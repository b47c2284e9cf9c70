import Conventions.Redaction
import Conventions.Proofs.Text.Rewriting

/-!
# Proofs/Redaction/Masking — what stands beside a placeholder

The placeholder stands between brackets, and the patterns that it replaces read no bracket and are not
found in it (`LeavesPlaceholder`). So what a match reads in a masked text stood in the old text
(`exists_passes_of_mem_ends_masked`), and to prove that no match is left (`foundFrom_masked`) only the
characters beside it need a word.
-/

namespace Conventions
namespace Redaction

open Text (Pattern Place)
open Text.Pattern

variable {a b : Pattern} {p q' : Place} {before : Option Char}

/-- **A text with the placeholder in place of every match.** -/
def masked (a : Pattern) (p : Place) : List Char := a.rewriteFrom (fun _ _ => placeholder.toList) p

theorem toList_replaceAll (a : Pattern) (s : String) :
    (a.replaceAll placeholder s).toList = masked a ⟨none, s.toList⟩ := by
  rw [replaceAll, String.toList_ofList, masked]

/-- **A pattern that leaves the placeholder alone**: every match reads something and no bracket, and no
match is in the placeholder. -/
structure LeavesPlaceholder (a : Pattern) : Prop where
  consumes : a.consumes = true
  opening : a.reads '[' = false
  closing : a.reads ']' = false
  absent : a.foundFrom none placeholder.toList = false

theorem toList_placeholder : placeholder.toList = '[' :: ("redacted".toList ++ [']']) := by decide

theorem LeavesPlaceholder.avoids (h : LeavesPlaceholder a) : a.Avoids placeholder.toList := by
  have habsent := h.absent
  rw [toList_placeholder] at habsent ⊢
  exact avoids_of_foundFrom h.consumes h.opening h.closing habsent

/-- A placeholder stays when a text is masked. -/
theorem LeavesPlaceholder.masked_append (h : LeavesPlaceholder a) (before : Option Char)
    (rest : List Char) : masked a ⟨before, placeholder.toList ++ rest⟩ =
      placeholder.toList ++ masked a ⟨some ']', rest⟩ :=
  rewriteFrom_append_of_avoids h.avoids before rest

theorem exists_passes_of_mem_ends_masked (ha : a.consumes = true) (hb : b.reads '[' = false)
    (h : q' ∈ b.ends ⟨before, masked a p⟩) :
    ∃ read q, Place.Passes ⟨before, masked a p⟩ read q' ∧ p.Passes read q ∧ q'.rest = masked a q :=
  exists_passes_of_mem_ends ha rfl hb h

theorem ends_masked_of_not_looks (ha : a.consumes = true) (hb : b.reads '[' = false)
    (hlooks : b.looks = false) (h : b.ends p = []) : b.ends ⟨before, masked a p⟩ = [] :=
  ends_rewriteFrom_of_not_looks ha rfl hb hlooks h

theorem head?_masked (ha : a.consumes = true) :
    (masked a p).head? = p.rest.head? ∨ (masked a p).head? = some '[' ∧ a.ends p ≠ [] :=
  head?_rewriteFrom ha rfl

/-- **No match is left in a masked text** if none is made at the places that stay. The character before
such a place is the one of the old text, or the closing bracket behind a match. -/
theorem foundFrom_masked (ha : a.consumes = true) (hb : LeavesPlaceholder b)
    (hstay : ∀ past p' before', p.Passes past p' → a.ends p' = [] →
      (before' = p'.before ∨ (∃ p₀, p' ∈ a.ends p₀) ∧ before' = some ']') →
        b.ends ⟨before', masked a p'⟩ = []) :
    b.foundFrom p.before (masked a p) = false :=
  foundFrom_rewriteFrom ha hb.consumes (by decide) hb.avoids hstay

end Redaction
end Conventions
