import Conventions.Schema.Contracts
import Conventions.Vocabulary

/-!
# Proofs/Vocabulary — which keys name which facets

A key that has the form of one and is understood is written in one of two ways
(`parse_eq_ok_iff_names`): as the name of a category, which stands for its primary facet, or as the
name of a category, a point and the name of one of its facets. So two keys name the same facet only
if it is a primary one that is written both ways (`Names.unique`).
-/

namespace Conventions

namespace Category

theorem ofName?_eq_some_iff {name : String} {c : Category} :
    ofName? name = some c ↔ name = c.name := by
  constructor
  · intro h
    unfold ofName? at h
    have hname := List.find?_some h
    exact (beq_iff_eq.1 hname).symm
  · rintro rfl
    exact ofName?_name c

theorem name_injective {c c' : Category} (h : c.name = c'.name) : c = c' :=
  Option.some.inj ((ofName?_name c).symm.trans (h ▸ ofName?_name c'))

theorem point_notMem_name (c : Category) : '.' ∉ c.name.toList := by
  cases c <;> decide

theorem primaryFacet_mem_facets (c : Category) : c.primaryFacet ∈ c.facets := by
  cases c <;> decide

/-- The facets of a category are those with labels. -/
theorem isSome_labels?_iff {c : Category} {facet : String} :
    (c.labels? facet).isSome ↔ facet ∈ c.facets := by
  rw [labels?, Option.isSome_map, List.find?_isSome, facets, List.mem_map]
  simp only [beq_iff_eq]

/-- The key of a facet with both names. -/
def fullKey (c : Category) (facet : String) : String := c.name ++ "." ++ facet

theorem toList_fullKey (c : Category) (facet : String) :
    (c.fullKey facet).toList = c.name.toList ++ '.' :: facet.toList := by
  simp [fullKey]

theorem fullKey_ne_name (c c' : Category) (facet : String) : c.fullKey facet ≠ c'.name := by
  intro h
  have hpoint : '.' ∈ (c.fullKey facet).toList := by simp [toList_fullKey]
  exact c'.point_notMem_name (h ▸ hpoint)

end Category

namespace FacetKey

variable {key label facet : String} {c : Category}

/-! ## Where a key is split -/

theorem split_name (c : Category) : split c.name = (c.name, "") := by
  cases c <;> decide

theorem split_fullKey (c : Category) (facet : String) : split (c.fullKey facet) = (c.name, facet) := by
  have hname : ∀ d ∈ c.name.toList, (d != '.') = true := fun d hd =>
    bne_iff_ne.2 fun heq => c.point_notMem_name (heq ▸ hd)
  simp [split, Category.toList_fullKey, List.takeWhile_append_of_pos hname,
    List.dropWhile_append_of_pos hname]

/-- A key is the text before its first point, perhaps with a point and the rest. -/
theorem eq_of_split {name rest : String} (h : split key = (name, rest)) :
    key = name ∧ rest = "" ∨ key = name ++ "." ++ rest := by
  obtain ⟨rfl, rfl⟩ := Prod.mk.inj h
  have hkey := List.takeWhile_append_dropWhile (p := (· != '.')) (l := key.toList)
  cases hrest : key.toList.dropWhile (· != '.') with
  | nil =>
    rw [hrest, List.append_nil] at hkey
    exact .inl ⟨by rw [hkey, String.ofList_toList], rfl⟩
  | cons d rest =>
    have hd : d = '.' := by
      have hhead := List.head?_dropWhile_not (· != '.') key.toList
      rw [hrest] at hhead
      simpa using hhead
    rw [hrest, hd] at hkey
    refine .inr (String.toList_inj.1 ?_)
    simp [hkey]

/-! ## What a key names -/

/-- **A key names a facet**: by the name of its category, if the facet is the primary one, or by both
names. -/
inductive Names : String → Category → String → Prop
  | category (c : Category) : Names c.name c c.primaryFacet
  | full {c : Category} {facet : String} (h : facet ∈ c.facets) : Names (c.fullKey facet) c facet

theorem parse_category (hsplit : split key = (c.name, "")) :
    parse key = .ok (c, c.primaryFacet) := by
  obtain ⟨ls, hls⟩ := Option.isSome_iff_exists.1
    (Category.isSome_labels?_iff.2 c.primaryFacet_mem_facets)
  simp [parse, hsplit, Category.ofName?_name, hls]

theorem parse_full (hsplit : split key = (c.name, facet)) (hne : facet ≠ "") :
    parse key = if facet ∈ c.facets then .ok (c, facet) else .error (.unknownFacet key) := by
  simp only [parse, hsplit, Category.ofName?_name, if_neg hne, ← Category.isSome_labels?_iff]
  cases c.labels? facet <;> rfl

/-- A facet has a name. -/
theorem ne_empty_of_mem_facets (h : facet ∈ c.facets) : facet ≠ "" := by
  rintro rfl
  cases c <;> exact absurd h (by decide)

/-- **What a key is understood as.** A point with nothing after it is overlooked. -/
theorem parse_eq_ok_iff :
    parse key = .ok (c, facet) ↔
      Names key c facet ∨ key = c.fullKey "" ∧ facet = c.primaryFacet := by
  constructor
  · intro h
    cases hsplit : split key with
    | mk name rest =>
    cases hname : Category.ofName? name with
    | none => simp [parse, hsplit, hname] at h
    | some c' =>
    obtain rfl := Category.ofName?_eq_some_iff.1 hname
    by_cases hrest : rest = ""
    · subst hrest
      obtain ⟨rfl, rfl⟩ := Prod.mk.inj (Except.ok.inj ((parse_category hsplit).symm.trans h))
      obtain ⟨rfl, -⟩ | rfl := eq_of_split hsplit
      · exact .inl (.category c')
      · exact .inr ⟨rfl, rfl⟩
    · rw [parse_full hsplit hrest] at h
      split at h
      case isFalse => cases h
      case isTrue hmem =>
        obtain ⟨rfl, rfl⟩ := Prod.mk.inj (Except.ok.inj h)
        obtain ⟨-, hempty⟩ | rfl := eq_of_split hsplit
        · exact absurd hempty hrest
        · exact .inl (.full hmem)
  · rintro (h | ⟨rfl, rfl⟩)
    · cases h with
      | category => exact parse_category (split_name c)
      | full h => rw [parse_full (split_fullKey c facet) (ne_empty_of_mem_facets h), if_pos h]
    · exact parse_category (split_fullKey c "")

/-- **A key of the form of one** is understood as the facet that it names. -/
theorem parse_eq_ok_iff_names (h : Contract.facetKeyForm.holds key = true) :
    parse key = .ok (c, facet) ↔ Names key c facet := by
  refine parse_eq_ok_iff.trans (or_iff_left ?_)
  rintro ⟨rfl, -⟩
  cases c <;> exact absurd h (by decide)

theorem Names.holds_form (h : Names key c facet) : Contract.facetKeyForm.holds key = true := by
  cases h with
  | category => cases c <;> decide
  | full h =>
    have hall : ∀ facet ∈ c.facets, Contract.facetKeyForm.holds (c.fullKey facet) = true := by
      cases c <;> decide
    exact hall facet h

/-- **Two keys of one facet** are the two ways to write a primary one. -/
theorem Names.unique {key' : String} (h : Names key c facet) (h' : Names key' c facet)
    (hne : key ≠ key') :
    key = c.name ∧ key' = c.fullKey c.primaryFacet ∨
      key' = c.name ∧ key = c.fullKey c.primaryFacet := by
  cases h with
  | category =>
    cases h' with
    | category => exact absurd rfl hne
    | full => exact .inl ⟨rfl, rfl⟩
  | full =>
    cases h' with
    | category => exact .inr ⟨rfl, rfl⟩
    | full => exact absurd rfl hne

end FacetKey
end Conventions
