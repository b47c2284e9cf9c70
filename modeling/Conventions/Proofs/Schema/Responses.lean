import Conventions.Proofs.Number.Ratio
import Conventions.Proofs.Schema.Meets
import Conventions.Proofs.Verdict.Told
import Conventions.Service

/-!
# Proofs/Schema/Responses — what is told meets its contract

Each part of a response is a record with the fields that its contract has, in their order. What is
told of an observation of the vocabulary meets the contract of observations, and so on upwards, to
verdicts, diagnostics and the whole response (`check_response`).
-/

namespace Conventions

open Schema

/-! ## Numbers -/

namespace Binary64

variable {x : Binary64}

/-- A number that is not below zero. -/
def IsNonneg (x : Binary64) : Prop := x ≠ .nan ∧ 0 ≤ x.key

theorem isNonneg_of_le (h : zero.le x = true) : x.IsNonneg := by
  rw [le, Bool.and_eq_true, Bool.and_eq_true, decide_eq_true_iff] at h
  refine ⟨?_, h.2⟩
  rintro rfl
  cases h.1.2

theorem isNonneg_ofSteps (n : Nat) : (ofSteps false n).IsNonneg := by
  rw [ofSteps]
  split
  case isTrue => exact ⟨by simp, Int.natCast_nonneg n⟩
  case isFalse => exact ⟨by simp, Int.natCast_nonneg overflow⟩

/-- **A number that is not below zero** is not when it is rounded. -/
theorem IsNonneg.roundTo (h : x.IsNonneg) (places : Nat) : (x.roundTo places).IsNonneg := by
  cases x with
  | nan => exact absurd rfl h.1
  | infinite negative => exact h
  | finite negative n =>
    cases negative with
    | false =>
      rw [Binary64.roundTo, ofRatio]
      exact isNonneg_ofSteps _
    | true =>
      obtain rfl : n = 0 := by
        have hkey : 0 ≤ -(n : Int) := h.2
        omega
      have hzero : (finite true 0).roundTo places = .finite true 0 := by
        simp [Binary64.roundTo, ofRatio, divNearest]
      rw [hzero]
      exact h

end Binary64

/-! ## Observations -/

namespace Contract

variable {defs : Definitions} {e : Evidence}

theorem meets_ratioRules {x : Binary64} (h : x.IsRatio) : Meets defs ratioRules (.float x) := by
  obtain ⟨n, hn, rfl⟩ := h
  rw [ratioRules, meets_cons_cons, meets_kind, meets_cons_cons,
    meets_least (q := .binary (.finite false n)) rfl,
    meets_most (q := .binary (.finite false n)) rfl]
  refine ⟨rfl, ?_, ?_⟩
  · rw [Quantity.key, Int.zero_mul]
    exact Int.natCast_nonneg n
  · rw [Quantity.key, Quantity.key, Int.one_mul]
    exact Int.ofNat_le.2 hn

/-- **What is told of an observation** meets its contract. -/
theorem meets_summary (h : e.IsKnown) : Meets defs evidenceRules e.summary := by
  obtain ⟨n, hn, hstrength⟩ := h.strength
  have hratio : Fits defs (direct ratioRules) (.ofQuantity (e.strength.roundTo 3)) := by
    rw [hstrength]
    exact meets_ratioRules (Binary64.IsRatio.roundTo ⟨n, hn, rfl⟩ 3)
  exact meets_recordRules.2 ⟨_, rfl, .of_forall₂ (by decide) (.refl _) (fun _ h _ => h) <|
    .cons ⟨rfl, fits_anyText.2 ⟨_, rfl⟩⟩ <|
    .cons ⟨rfl, fits_anyText.2 ⟨_, rfl⟩⟩ <|
    .cons ⟨rfl, fits_filled.2 ⟨_, rfl, h.file⟩⟩ <|
    .cons ⟨rfl, fits_wholeFrom.2 ⟨_, .inl rfl, h.line⟩⟩ <|
    .cons ⟨rfl, hratio⟩ <|
    .cons ⟨rfl, fits_anyText.2 ⟨_, rfl⟩⟩ .nil⟩

end Contract

/-! ## Verdicts -/

namespace Contract

/-- The contract of responses, by which its parts are known. -/
abbrev parts : Definitions := projectContext.definitions

theorem fits_shownEvidence {confidence : Int} {es : List Evidence}
    (h : Evidence.AreShown confidence es) :
    Fits parts shownEvidence (.arr (es.map Evidence.summary)) := by
  rw [shownEvidence, fits_direct, meets_cons_cons, meets_kind, meets_cons_cons, meets_mostItems,
    meets_items, List.length_map, List.forall_mem_map]
  exact ⟨rfl, h.length, fun e he => meets_summary (h.known e he)⟩

theorem fits_confidence {confidence : Int} {es : List Evidence}
    (h : Evidence.AreShown confidence es) : Fits parts (wholeBetween 0 100) (.int confidence) :=
  fits_wholeBetween.2 ⟨_, .inl rfl, h.confidence⟩

theorem meets_rejected {r : RejectedLabel} (h : r.IsTold) :
    Meets parts rejectedRules r.document :=
  meets_recordRules.2 ⟨_, rfl, .of_forall₂ (by decide) (.refl _) (fun _ h _ => h) <|
    .cons ⟨rfl, fits_anyText.2 ⟨_, rfl⟩⟩ <|
    .cons ⟨rfl, fits_confidence h.shown⟩ <|
    .cons ⟨rfl, fits_wholeFrom.2 ⟨_, .inl rfl, Int.ofNat_le.2 h.evidenceCount⟩⟩ <|
    .cons ⟨rfl, fits_wholeFrom.2 ⟨_, .inl rfl, Int.ofNat_le.2 h.fileCount⟩⟩ <|
    .cons ⟨rfl, fits_shownEvidence h.shown⟩ .nil⟩

theorem fits_level (confidence : Int) : Fits parts
    (words ["low", "medium", "high", "very-high"]) (.str (Verdict.levelOf confidence)) := by
  refine fits_words.2 ⟨_, ?_, rfl⟩
  rw [Verdict.levelOf]
  split_ifs <;> simp

theorem fits_resolution (rule : ResolutionRule) : Fits parts
    (words ["single-label", "most-recent", "highest-confidence", "evidence-count", "first-seen",
      "no-evidence"]) (.str rule.name) :=
  fits_words.2 ⟨_, by cases rule <;> simp [ResolutionRule.name], rfl⟩

/-- **What is told of a verdict** is a record, which may tell of other facets beside. -/
theorem isRecord_members {v : Verdict} (h : v.IsTold) :
    ∃ fields, verdictRules = recordRules fields ∧ (fields.map (·.1)).Nodup ∧
      optional "facets" (mapOf (reference "verdict")) ∈ fields ∧
        IsRecord parts fields v.members := by
  have hcategory : Fits parts (words ["authentication", "apiResponses", "errorHandling"])
      (.str v.category) := by
    obtain ⟨c, hc⟩ := h.category
    exact fits_words.2 ⟨_, by cases c <;> simp [hc, Category.name], rfl⟩
  have hrejected : Fits parts (listOf (reference "rejected"))
      (.arr (v.rejected.map RejectedLabel.document)) :=
    fits_listOf.2 ⟨_, rfl, List.forall_mem_map.2 fun r hr => meets_rejected (h.rejected r hr)⟩
  exact ⟨_, rfl, by decide, List.mem_of_getLast? rfl,
    .of_forall₂ (by decide) (List.dropLast_sublist _) (fun _ hf => mem_dropLast rfl rfl hf) <|
    .cons ⟨rfl, hcategory⟩ <|
    .cons ⟨rfl, fits_filled.2 ⟨_, rfl, h.facet⟩⟩ <|
    .cons ⟨rfl, fits_filled.2 ⟨_, rfl, h.label⟩⟩ <|
    .cons ⟨rfl, fits_confidence h.shown⟩ <|
    .cons ⟨rfl, fits_level _⟩ <|
    .cons ⟨rfl, fits_truth.2 ⟨_, rfl⟩⟩ <|
    .cons ⟨rfl, fits_resolution _⟩ <|
    .cons ⟨rfl, fits_wholeFrom.2 ⟨_, .inl rfl, Int.natCast_nonneg _⟩⟩ <|
    .cons ⟨rfl, fits_shownEvidence h.shown⟩ <|
    .cons ⟨rfl, hrejected⟩ .nil⟩

theorem meets_verdict {v : Verdict} (h : v.IsTold) : Meets parts verdictRules v.document := by
  obtain ⟨fields, hrules, -, -, hrecord⟩ := isRecord_members h
  rw [hrules]
  exact meets_recordRules.2 ⟨_, rfl, hrecord⟩

/-- **What is told of a category** meets its contract. -/
theorem meets_categoryVerdict {v : CategoryVerdict} (h : ∀ w ∈ v.verdicts, w.IsTold) :
    Meets parts verdictRules v.document := by
  obtain ⟨fields, hrules, hnodup, hfield, hrecord⟩ := isRecord_members (h _ List.mem_cons_self)
  rw [hrules, CategoryVerdict.document]
  refine meets_recordRules.2 ⟨_, rfl, ?_⟩
  split
  case isTrue => rwa [List.append_nil]
  case isFalse =>
    refine hrecord.append hnodup hfield
      (fits_mapOf.2 ⟨_, rfl, List.forall_mem_map.2 fun f hf => ?_⟩)
    have hf := List.mem_map_of_mem (f := Prod.snd) (List.mem_mergeSort.1 hf)
    exact meets_verdict (h f.2 (List.mem_cons_of_mem _ hf))

/-! ## Metadata and diagnostics -/

theorem fits_anyTexts {defs : Definitions} (ts : List String) :
    Fits defs (listOf anyText) (.arr (ts.map .str)) :=
  fits_listOf.2 ⟨_, rfl, List.forall_mem_map.2 fun t _ => fits_anyText.2 ⟨t, rfl⟩⟩

/-- **What is told of the facts about a project** meets its contract. -/
theorem meets_metadata (m : ProjectMetadata) : Meets parts metadataRules m.document := by
  have hdirectory (d : String × String) : Fits parts
      (record [field "path" anyText, field "purpose" anyText])
        (.obj [("path", .str d.1), ("purpose", .str d.2)]) :=
    meets_recordRules.2 ⟨_, rfl, .of_forall₂ (by decide) (.refl _) (fun _ h _ => h) <|
      .cons ⟨rfl, fits_anyText.2 ⟨_, rfl⟩⟩ <| .cons ⟨rfl, fits_anyText.2 ⟨_, rfl⟩⟩ .nil⟩
  exact meets_recordRules.2 ⟨_, rfl, .of_forall₂ (by decide) (.refl _) (fun _ h _ => h) <|
    .cons ⟨rfl, fits_anyText.2 ⟨_, rfl⟩⟩ <|
    .cons ⟨rfl, fits_anyText.2 ⟨_, rfl⟩⟩ <|
    .cons ⟨rfl, fits_anyText.2 ⟨_, rfl⟩⟩ <|
    .cons ⟨rfl, fits_anyText.2 ⟨_, rfl⟩⟩ <|
    .cons ⟨rfl, fits_anyTexts _⟩ <|
    .cons ⟨rfl, fits_mapOf.2
      ⟨_, rfl, List.forall_mem_map.2 fun p _ => fits_anyText.2 ⟨p.2, rfl⟩⟩⟩ <|
    .cons ⟨rfl, fits_listOf.2 ⟨_, rfl, List.forall_mem_map.2 fun d _ => hdirectory d⟩⟩ .nil⟩

/-- **What a scan tells about itself** meets its contract. -/
theorem meets_diagnostics {d : ScanDiagnostics} (h : d.elapsed.IsNonneg) :
    Meets parts diagnosticsRules d.document := by
  have hskipped (p : String × SkipReason) : Fits parts
      (record [field "path" anyText, field "reason" (words ["too-large", "unreadable"])])
        (.obj [("path", .str p.1), ("reason", .str p.2.name)]) :=
    meets_recordRules.2 ⟨_, rfl, .of_forall₂ (by decide) (.refl _) (fun _ h _ => h) <|
      .cons ⟨rfl, fits_anyText.2 ⟨_, rfl⟩⟩ <|
      .cons ⟨rfl, fits_words.2 ⟨_, by cases p.2 <;> simp [SkipReason.name], rfl⟩⟩ .nil⟩
  have hreason : Fits parts (direct [.oneOf [.null, .str "MAX_FILES", .str "SCAN_TIMEOUT"]])
      ((d.capReason.map (.str ·.name)).getD .null) := by
    rw [fits_direct, meets_oneOf]
    cases d.capReason with
    | none => rfl
    | some reason => cases reason <;> rfl
  have helapsed : Fits parts (direct [.kind .number, .least 0]) (.float (d.elapsed.roundTo 4)) := by
    have hround := h.roundTo 4
    have hquantity : Rule.quantity? (.float (d.elapsed.roundTo 4)) =
        some (.binary (d.elapsed.roundTo 4)) := by
      generalize d.elapsed.roundTo 4 = x at hround
      cases x with
      | nan => exact absurd rfl hround.1
      | _ => rfl
    rw [fits_direct, meets_cons_cons, meets_kind, meets_least hquantity]
    refine ⟨rfl, ?_⟩
    rw [Quantity.key, Int.zero_mul]
    exact hround.2
  exact meets_recordRules.2 ⟨_, rfl, .of_forall₂ (by decide) (.refl _) (fun _ h _ => h) <|
    .cons ⟨rfl, fits_wholeFrom.2 ⟨_, .inl rfl, Int.natCast_nonneg _⟩⟩ <|
    .cons ⟨rfl, fits_wholeFrom.2 ⟨_, .inl rfl, Int.natCast_nonneg _⟩⟩ <|
    .cons ⟨rfl, fits_anyTexts _⟩ <|
    .cons ⟨rfl, fits_listOf.2 ⟨_, rfl, List.forall_mem_map.2 fun p _ => hskipped p⟩⟩ <|
    .cons ⟨rfl, fits_wholeFrom.2 ⟨_, .inl rfl, Int.natCast_nonneg _⟩⟩ <|
    .cons ⟨rfl, fits_wholeFrom.2 ⟨_, .inl rfl, Int.natCast_nonneg _⟩⟩ <|
    .cons ⟨rfl, fits_truth.2 ⟨_, rfl⟩⟩ <|
    .cons ⟨rfl, hreason⟩ <|
    .cons ⟨rfl, helapsed⟩ .nil⟩

/-! ## Responses -/

/-- **What is told of the verdicts on a project**, by category. -/
theorem fits_patterns {p : Patterns} (h : ∀ c, Meets parts verdictRules (p c).document) :
    Fits parts (record [field "authentication" (reference "verdict"),
      field "apiResponses" (reference "verdict"), field "errorHandling" (reference "verdict")])
        p.document := by
  have hmember {m : String × Json} (hm : m ∈ (Text.sortedBy Category.name Category.all).map
      fun c => (c.name, (p c).document)) : ∃ c : Category, (c.name, (p c).document) = m := by
    obtain ⟨c, -, hc⟩ := List.mem_map.1 hm
    exact ⟨c, hc⟩
  have hall (c : Category) : (c.name, (p c).document) ∈
      (Text.sortedBy Category.name Category.all).map fun c => (c.name, (p c).document) :=
    List.mem_map_of_mem (List.mem_mergeSort.2 (by cases c <;> simp [Category.all]))
  refine meets_recordRules.2 ⟨_, rfl, fun f hf _ => ?_, fun m hm => ?_, fun f hf v hv => ?_⟩
  · obtain ⟨c, hc⟩ : ∃ c : Category, c.name = f.1 := by
      simp only [field, List.mem_cons, List.not_mem_nil, or_false] at hf
      obtain rfl | rfl | rfl := hf
      exacts [⟨.authentication, rfl⟩, ⟨.apiResponses, rfl⟩, ⟨.errorHandling, rfl⟩]
    rw [Json.lookup, Option.isSome_map, List.find?_isSome]
    exact ⟨_, hall c, beq_iff_eq.2 hc⟩
  · obtain ⟨c, rfl⟩ := hmember hm
    cases c <;> simp [field, Category.name]
  · obtain ⟨c, hc⟩ := hmember (Json.mem_of_lookup hv)
    obtain ⟨-, rfl⟩ := Prod.mk.inj hc
    have hverdict : f.2.2 = reference "verdict" := by
      simp only [field, List.mem_cons, List.not_mem_nil, or_false] at hf
      obtain rfl | rfl | rfl := hf <;> rfl
    rw [hverdict]
    exact h c

/-- **A response meets its contract** if all verdicts can be told and time does not run back. -/
theorem check_response {context : ProjectContext}
    (hpatterns : ∀ c, ∀ v ∈ (context.patterns c).verdicts, v.IsTold)
    (helapsed : context.diagnostics.elapsed.IsNonneg) :
    projectContext.check context.response = none := by
  have hverdicts (c : Category) : Meets parts verdictRules (context.patterns c).document :=
    meets_categoryVerdict (hpatterns c)
  exact meets_recordRules.2 ⟨_, rfl, .of_forall₂ (by decide) (.refl _) (fun _ h _ => h) <|
    .cons ⟨rfl, meets_constant.2 rfl⟩ <|
    .cons ⟨rfl, meets_recordRules.2 ⟨_, rfl, .of_forall₂ (by decide) (.refl _) (fun _ h _ => h) <|
      .cons ⟨rfl, meets_metadata context.metadata⟩ <|
      .cons ⟨rfl, fits_patterns hverdicts⟩ <|
      .cons ⟨rfl, meets_diagnostics helapsed⟩ .nil⟩⟩ .nil⟩

end Contract
end Conventions
