import Conventions.Proofs.Accuracy.Corpus

/-!
# Proofs/Accuracy/Expectations — which cases expect two labels of one facet

The primary facet of a category has two keys: the name of the category, and the name with the facet. A
case of a corpus may have both, each with a label of its own, and both are judged by the one verdict on
the facet. That is the only way to expect two labels of one facet (`expects_each_facet_once_iff`).
-/

namespace Conventions

/-- Keys that are understood as the same facet name the same verdict. -/
theorem Patterns.verdictOf_congr (patterns : Patterns) {key key' : String}
    (h : FacetKey.parse key = FacetKey.parse key') :
    patterns.verdictOf key = patterns.verdictOf key' := by
  rw [verdictOf, verdictOf, h]

theorem FacetKey.parse_name (c : Category) : parse c.name = .ok (c, c.primaryFacet) :=
  parse_category (split_name c)

theorem FacetKey.parse_fullKey_primaryFacet (c : Category) :
    parse (c.fullKey c.primaryFacet) = .ok (c, c.primaryFacet) :=
  parse_eq_ok_iff.2 (.inl (.full c.primaryFacet_mem_facets))

namespace CorpusCase

variable {case : CorpusCase}

/-- The facet keys of a case. -/
def keys (case : CorpusCase) : List String := case.expected.map (·.1)

/-- **A case writes a category twice**: alone, and with its primary facet. -/
def WritesTwice (case : CorpusCase) (c : Category) : Prop :=
  c.name ∈ case.keys ∧ c.fullKey c.primaryFacet ∈ case.keys

instance (case : CorpusCase) (c : Category) : Decidable (case.WritesTwice c) :=
  inferInstanceAs (Decidable (_ ∧ _))

theorem IsDescribed.holds_form {members : List (String × Json)} (h : case.IsDescribed members) :
    ∀ key ∈ case.keys, Contract.facetKeyForm.holds key = true :=
  List.forall_mem_map.2 h.keys

/-- **Keys of the form of one are understood as different facets** unless the case writes a category
twice. -/
theorem parse_injOn_iff (hform : ∀ key ∈ case.keys, Contract.facetKeyForm.holds key = true)
    (hparse : ∀ key ∈ case.keys, ∃ named, FacetKey.parse key = .ok named) :
    (∀ key ∈ case.keys, ∀ key' ∈ case.keys,
        FacetKey.parse key = FacetKey.parse key' → key = key') ↔
      ∀ c, ¬case.WritesTwice c := by
  constructor
  · rintro hinj c ⟨hname, hfull⟩
    refine c.fullKey_ne_name c c.primaryFacet (hinj _ hfull _ hname ?_)
    rw [FacetKey.parse_fullKey_primaryFacet, FacetKey.parse_name]
  · intro hnone key hkey key' hkey' heq
    obtain ⟨⟨c, facet⟩, hok⟩ := hparse key hkey
    have hnames := (FacetKey.parse_eq_ok_iff_names (hform key hkey)).1 hok
    have hnames' := (FacetKey.parse_eq_ok_iff_names (hform key' hkey')).1 (heq ▸ hok)
    by_contra hne
    obtain ⟨rfl, rfl⟩ | ⟨rfl, rfl⟩ := hnames.unique hnames' hne
    · exact hnone c ⟨hkey, hkey'⟩
    · exact hnone c ⟨hkey', hkey⟩

end CorpusCase

namespace Corpus

variable {j : Json} {corpus : Corpus} {case : CorpusCase}

theorem Describes.isDescribed {cases : List CorpusCase} (h : Describes j cases)
    (hcase : case ∈ cases) : ∃ members, case.IsDescribed members := by
  obtain ⟨_, -, hdescribed⟩ := h
  obtain ⟨items, -, -, hitems⟩ := hdescribed.cases
  obtain ⟨hlength, hget⟩ := List.forall₂_iff_get.1 hitems
  obtain ⟨i, rfl⟩ := List.mem_iff_get.1 hcase
  obtain ⟨members, -, hcase⟩ := hget i (hlength.trans_gt i.isLt) i.isLt
  exact ⟨members, hcase⟩

/-- **The keys of a case are understood**, each as a facet of its own unless the case writes a category
twice: then both keys ask for the verdict on its primary facet. -/
theorem expects_each_facet_once_iff (h : ofDocument j = .ok corpus) (hcase : case ∈ corpus.cases) :
    (∀ key ∈ case.keys, ∃ named, FacetKey.parse key = .ok named) ∧
      ((∀ key ∈ case.keys, ∀ key' ∈ case.keys,
          FacetKey.parse key = FacetKey.parse key' → key = key') ↔ ∀ c, ¬case.WritesTwice c) := by
  obtain ⟨hdescribes, htrustworthy⟩ := ofDocument_eq_ok_iff.1 h
  obtain ⟨members, hdescribed⟩ := hdescribes.isDescribed hcase
  have hparse : ∀ key ∈ case.keys, ∃ named, FacetKey.parse key = .ok named := by
    refine List.forall_mem_map.2 fun e he => ?_
    obtain ⟨c, facet, -, hok, -⟩ := htrustworthy.known case hcase e he
    exact ⟨(c, facet), hok⟩
  exact ⟨hparse, CorpusCase.parse_injOn_iff hdescribed.holds_form hparse⟩

/-! ## A case with two labels for one verdict -/

/-- Two labels for the verdict on where the token is. -/
def twoLocations : CorpusCase where
  project := "a"
  path := "p"
  framework := "express"
  expected := [("authentication", "cookie"), ("authentication.token_location", "session")]

/-- The document of one case. -/
def documentOf (case : CorpusCase) : Json :=
  .obj [("version", .str "0.1"), ("cases", .arr [.obj [("project", .str case.project),
    ("path", .str case.path), ("framework", .str case.framework),
    ("expected", .obj (Json.textMembers case.expected))]])]

theorem describes_twoLocations : Describes (documentOf twoLocations) [twoLocations] := by
  refine ⟨_, rfl, by decide, rfl, _, rfl, List.cons_ne_nil _ _, .cons ⟨_, rfl, ?_⟩ .nil⟩
  exact ⟨by decide, ⟨rfl, by decide⟩, ⟨rfl, by decide⟩, ⟨rfl, by decide⟩, rfl, by decide, by decide,
    by decide⟩

theorem trustworthy_twoLocations : Trustworthy [twoLocations] := by
  refine ⟨by decide, ?_⟩
  simp only [← FacetKey.checkLabel_eq_ok_iff]
  decide

theorem ofDocument_twoLocations : ofDocument (documentOf twoLocations) = .ok ⟨[twoLocations]⟩ :=
  trustworthy_twoLocations.ofDocument_eq describes_twoLocations

theorem expects_each_facet_once_iff_twoLocations :
    twoLocations.WritesTwice .authentication ∧ ¬∀ key ∈ twoLocations.keys,
      ∀ key' ∈ twoLocations.keys, FacetKey.parse key = FacetKey.parse key' → key = key' := by
  have htwice : twoLocations.WritesTwice .authentication := by decide
  exact ⟨htwice, fun h => (expects_each_facet_once_iff ofDocument_twoLocations
    (List.mem_singleton.2 rfl)).2.1 h _ htwice⟩

/-- **A corpus may expect two labels of one verdict**, so that one of them is always wrong. -/
theorem expects_two_labels_of_one_verdict :
    ofDocument (.obj [("version", .str "0.1"), ("cases", .arr [.obj [("project", .str "a"),
        ("path", .str "p"), ("framework", .str "express"),
        ("expected", .obj [("authentication", .str "cookie"),
          ("authentication.token_location", .str "session")])]])]) = .ok ⟨[twoLocations]⟩ ∧
      ("authentication", "cookie") ∈ twoLocations.expected ∧
      ("authentication.token_location", "session") ∈ twoLocations.expected ∧
      FacetKey.parse "authentication" = FacetKey.parse "authentication.token_location" ∧
      ∀ patterns : Patterns, patterns.verdictOf "authentication" =
        patterns.verdictOf "authentication.token_location" := by
  have hparse : FacetKey.parse "authentication" = FacetKey.parse "authentication.token_location" := by
    decide
  exact ⟨ofDocument_twoLocations, by decide, by decide, hparse, fun patterns =>
    patterns.verdictOf_congr hparse⟩

end Corpus
end Conventions
