import Conventions.Accuracy.Corpus
import Conventions.Proofs.Schema.Meets

/-!
# Proofs/Schema/Corpus — which documents describe a corpus

A document meets the contract of a corpus exactly if it describes cases (`check_corpus_eq_none_iff`):
each of its items is an object with the texts of a case and with a text for each of its facet keys. The
cases are told from the document then, in its order (`Describes.eq_map_caseOf`).
-/

namespace Conventions

open Schema

/-- Members whose values are texts. -/
def Json.textMembers (ts : List (String × String)) : List (String × Json) :=
  ts.map fun t => (t.1, .str t.2)

/-- **The members that describe a case**: its texts, none of them empty, and the expected labels, at
least one. -/
structure CorpusCase.IsDescribed (case : CorpusCase) (members : List (String × Json)) : Prop where
  known : ∀ m ∈ members, m.1 ∈ ["project", "path", "framework", "expected"]
  project : Json.lookup "project" members = some (.str case.project) ∧ case.project ≠ ""
  path : Json.lookup "path" members = some (.str case.path) ∧ case.path ≠ ""
  framework : Json.lookup "framework" members = some (.str case.framework) ∧ case.framework ≠ ""
  expected : Json.lookup "expected" members =
    some (.obj (Json.textMembers case.expected))
  filled : case.expected ≠ []
  keys : ∀ e ∈ case.expected, Contract.facetKeyForm.holds e.1 = true
  labels : ∀ e ∈ case.expected, e.2 ≠ ""

/-- **A document describes some cases**, at least one. -/
structure Corpus.IsDescribed (cases : List CorpusCase) (members : List (String × Json)) : Prop where
  known : ∀ m ∈ members, m.1 ∈ ["version", "cases"]
  version : Json.lookup "version" members = some (.str "0.1")
  cases : ∃ items, Json.lookup "cases" members = some (.arr items) ∧ items ≠ [] ∧
    List.Forall₂ (fun item case => ∃ ms, item = .obj ms ∧ case.IsDescribed ms) items cases

/-- **The cases that a document describes.** -/
def Corpus.Describes (j : Json) (cases : List CorpusCase) : Prop :=
  ∃ members, j = .obj members ∧ IsDescribed cases members

namespace Contract

variable {defs : Definitions} {j : Json} {members : List (String × Json)}

/-- Members are all texts exactly if they are those of some texts. -/
theorem forall_text_iff {p : String → Prop} :
    (∀ m ∈ members, ∃ t, m.2 = .str t ∧ p t) ↔
      ∃ ts, members = Json.textMembers ts ∧ ∀ t ∈ ts, p t.2 := by
  constructor
  · intro h
    induction members with
    | nil => exact ⟨[], rfl, fun _ ht => nomatch ht⟩
    | cons m rest ih =>
      obtain ⟨key, v⟩ := m
      rw [List.forall_mem_cons] at h
      obtain ⟨t, rfl, ht⟩ := h.1
      obtain ⟨ts, rfl, hts⟩ := ih h.2
      exact ⟨(key, t) :: ts, rfl, List.forall_mem_cons.2 ⟨ht, hts⟩⟩
  · rintro ⟨ts, rfl, hts⟩
    exact List.forall_mem_map.2 fun t ht => ⟨t.2, rfl, hts t ht⟩

/-- **A text for each of some keys**, at least one. -/
theorem fits_expected {form : TextForm} :
    Fits defs (direct [.kind .object, .filledObject, .keys form, .values filled]) j ↔
      ∃ ts, j = .obj (Json.textMembers ts) ∧ ts ≠ [] ∧ (∀ t ∈ ts, form.holds t.1 = true) ∧
        ∀ t ∈ ts, t.2 ≠ "" := by
  rw [fits_direct, meets_kind_cons (TypeName.holds_iff .object j)]
  simp only [meets_cons_cons, meets_filledObject, meets_keys, meets_values, fits_filled,
    forall_text_iff]
  constructor
  · rintro ⟨_, rfl, hne, hkeys, ts, rfl, hts⟩
    exact ⟨ts, rfl, fun h => hne (h ▸ rfl), List.forall_mem_map.1 hkeys, hts⟩
  · rintro ⟨ts, rfl, hne, hkeys, hts⟩
    exact ⟨_, rfl, fun h => hne (List.map_eq_nil_iff.1 h), List.forall_mem_map.2 hkeys, ts, rfl, hts⟩

theorem field_name (name : String) (s : Schema) : (field name s).1 = name := rfl

theorem field_schema (name : String) (s : Schema) : (field name s).2.2 = s := rfl

/-- A record whose fields all have to be there. -/
theorem meets_recordRules_of_required {fields : List (String × Bool × Schema)}
    (h : ∀ f ∈ fields, f.2.1 = true) : Meets defs (recordRules fields) j ↔
      ∃ members, j = .obj members ∧ (∀ m ∈ members, m.1 ∈ fields.map (·.1)) ∧
        ∀ f ∈ fields, ∃ v, Json.lookup f.1 members = some v ∧ Fits defs f.2.2 v := by
  refine meets_recordRules.trans (exists_congr fun members => and_congr_right fun _ => ?_)
  constructor
  · intro hrecord
    refine ⟨hrecord.known, fun f hf => ?_⟩
    obtain ⟨v, hv⟩ := Option.isSome_iff_exists.1 (hrecord.required f hf (h f hf))
    exact ⟨v, hv, hrecord.fits f hf v hv⟩
  · rintro ⟨hknown, hfields⟩
    refine ⟨fun f hf _ => ?_, hknown, fun f hf v hv => ?_⟩
    · obtain ⟨v, hv, -⟩ := hfields f hf
      exact Option.isSome_iff_exists.2 ⟨v, hv⟩
    · obtain ⟨w, hw, hfits⟩ := hfields f hf
      exact Option.some.inj (hw.symm.trans hv) ▸ hfits

/-- **What describes a case.** -/
theorem fits_case : Fits defs (record [field "project" filled, field "path" filled,
    field "framework" filled, field "expected" (direct
      [.kind .object, .filledObject, .keys facetKeyForm, .values filled])]) j ↔
    ∃ case : CorpusCase, ∃ members, j = .obj members ∧ case.IsDescribed members := by
  rw [exists_comm]
  refine (meets_recordRules_of_required (by simp [field])).trans (exists_congr fun members => ?_)
  rw [exists_and_left]
  refine and_congr_right fun _ => ?_
  simp only [List.forall_mem_cons, field_name, field_schema, fits_filled, fits_expected]
  constructor
  · rintro ⟨hknown, ⟨_, hproject, project, rfl, hproject'⟩, ⟨_, hpath, path, rfl, hpath'⟩,
      ⟨_, hframework, framework, rfl, hframework'⟩, ⟨_, hexpected, ts, rfl, hne, hkeys, hlabels⟩, -⟩
    exact ⟨⟨project, path, framework, ts⟩, hknown, ⟨hproject, hproject'⟩, ⟨hpath, hpath'⟩,
      ⟨hframework, hframework'⟩, hexpected, hne, hkeys, hlabels⟩
  · rintro ⟨case, h⟩
    exact ⟨h.known, ⟨_, h.project.1, _, rfl, h.project.2⟩, ⟨_, h.path.1, _, rfl, h.path.2⟩,
      ⟨_, h.framework.1, _, rfl, h.framework.2⟩,
      ⟨_, h.expected, _, rfl, h.filled, h.keys, h.labels⟩, fun _ hf => nomatch hf⟩

theorem exists_forall₂_iff {α β : Type} {R : α → β → Prop} {xs : List α} :
    (∃ ys, List.Forall₂ R xs ys) ↔ ∀ x ∈ xs, ∃ y, R x y := by
  induction xs with
  | nil => exact iff_of_true ⟨[], .nil⟩ fun _ hx => nomatch hx
  | cons x xs ih =>
    rw [List.forall_mem_cons, ← ih]
    constructor
    · rintro ⟨_, _ | ⟨hy, hys⟩⟩
      exact ⟨⟨_, hy⟩, _, hys⟩
    · rintro ⟨⟨y, hy⟩, ys, hys⟩
      exact ⟨y :: ys, .cons hy hys⟩

theorem fits_constant {value : String} : Fits defs (direct [.constant value]) j ↔ j = .str value :=
  meets_constant

theorem fits_cases : Fits defs (direct [.kind .array, .filledArray, .items (record
    [field "project" filled, field "path" filled, field "framework" filled, field "expected" (direct
      [.kind .object, .filledObject, .keys facetKeyForm, .values filled])])]) j ↔
    ∃ items, j = .arr items ∧ items ≠ [] ∧ ∃ cases : List CorpusCase, List.Forall₂
      (fun item case => ∃ members, item = .obj members ∧ case.IsDescribed members) items cases := by
  rw [fits_direct, meets_kind_cons (TypeName.holds_iff .array j)]
  simp only [meets_cons_cons, meets_filledArray, meets_items, fits_case, exists_forall₂_iff]

/-- **A document meets the contract of a corpus** exactly if it describes cases. -/
theorem check_corpus_eq_none_iff :
    corpus.check j = none ↔ ∃ cases, Corpus.Describes j cases := by
  unfold Corpus.Describes
  rw [exists_comm]
  refine (meets_recordRules_of_required (by simp [field])).trans (exists_congr fun members => ?_)
  rw [exists_and_left]
  refine and_congr_right fun _ => ?_
  simp only [List.forall_mem_cons, field_name, field_schema, fits_constant, fits_cases]
  constructor
  · rintro ⟨hknown, ⟨_, hversion, rfl⟩, ⟨_, hcases, items, rfl, hne, cases, hdescribed⟩, -⟩
    exact ⟨cases, hknown, hversion, items, hcases, hne, hdescribed⟩
  · rintro ⟨cases, h⟩
    obtain ⟨items, hcases, hne, hdescribed⟩ := h.cases
    exact ⟨h.known, ⟨_, h.version, rfl⟩, ⟨_, hcases, items, rfl, hne, cases, hdescribed⟩,
      fun _ hf => nomatch hf⟩

end Contract

/-! ## The cases of a document -/

namespace Corpus

theorem textOf_eq {key t : String} {members : List (String × Json)}
    (h : Json.lookup key members = some (.str t)) : textOf key members = t := by
  rw [textOf, h]
  rfl

/-- **A case is told from the members that describe it.** -/
theorem caseOf_eq {case : CorpusCase} {members : List (String × Json)}
    (h : case.IsDescribed members) : caseOf (.obj members) = case := by
  obtain ⟨project, path, framework, expected⟩ := case
  have hexpected : (Json.textMembers expected).map (fun m => (m.1, (m.2.str?).getD "")) = expected := by
    rw [Json.textMembers, List.map_map]
    exact List.map_id _
  simp only [caseOf, Json.members?, Option.getD_some, textOf_eq h.project.1, textOf_eq h.path.1,
    textOf_eq h.framework.1, h.expected, Option.bind_some, hexpected]

/-- **The cases are told from a document that describes them**, in its order. -/
theorem Describes.eq_map_caseOf {j : Json} {cases : List CorpusCase} (h : Describes j cases) :
    (((j.get? "cases").bind Json.items?).getD []).map caseOf = cases := by
  obtain ⟨members, rfl, h⟩ := h
  obtain ⟨items, hitems, -, hdescribed⟩ := h.cases
  rw [Json.get?, hitems, Option.bind_some, Json.items?, Option.getD_some, ← List.forall₂_eq_eq_eq,
    List.forall₂_map_left_iff]
  refine hdescribed.imp ?_
  rintro _ case ⟨members, rfl, hcase⟩
  exact caseOf_eq hcase

end Corpus
end Conventions
