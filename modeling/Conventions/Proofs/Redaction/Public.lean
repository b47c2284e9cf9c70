import Conventions.Proofs.Redaction.Masking
import Conventions.Proofs.Text.Word

/-!
# Proofs/Redaction/Public — a public answer holds nothing to scrub

An address stands between word edges and begins and ends with word characters, so neither a placeholder
behind a match nor one in front of it makes an address of what was none
(`ends_networkAddress_masked`). The beginning of a path does not look around, and none is made when
addresses are masked. So scrubbing twice changes nothing (`scrub_scrub`).
-/

namespace Conventions
namespace Redaction

open Text (Pattern Place)
open Text.Pattern

variable {p q : Place} {before : Option Char} {read : List Char}

/-! ## Addresses -/

theorem leavesPlaceholder_networkAddress : LeavesPlaceholder networkAddress where
  consumes := by decide
  opening := by decide
  closing := by decide
  absent := by decide +kernel

/-- **An address begins and ends with a word character.** -/
theorem words_of_mem_ends (h : q ∈ networkAddress.ends p) (hread : p.Passes read q) :
    (∃ c, read.head? = some c ∧ Text.isWord c = true) ∧
      ∃ c, read.getLast? = some c ∧ Text.isWord c = true := by
  have hbounds := bounds_of_mem_ends h hread
  have hne := hbounds.ne_nil leavesPlaceholder_networkAddress.consumes
  have hword {c : Char} (hedge : networkAddress.begins c = true ∨ networkAddress.finishes c = true) :
      Text.isWord c = true := by
    have hdigit : Text.isDecimalDigit c = true ∨ Text.isHexDigit c = true := by
      simpa [networkAddress, first, all, begins, finishes, consumes, char, oneOf] using hedge
    exact hdigit.elim Text.isWord_of_isDecimalDigit Text.isWord_of_isHexDigit
  have hhead := List.head?_eq_some_head hne
  have hlast := List.getLast?_eq_some_getLast hne
  exact ⟨⟨_, hhead, hword (.inl (hbounds.first _ hhead))⟩, _, hlast,
    hword (.inr (hbounds.last _ hlast))⟩

/-- **An address stands between word edges.** -/
theorem wordEdges_of_mem_ends (h : q ∈ networkAddress.ends p) :
    atWordEdge p = true ∧ atWordEdge q = true := by
  have hedges {a b : Pattern} (h : q ∈ (all [.wordEdge, a, b, .wordEdge]).ends p) :
      atWordEdge p = true ∧ atWordEdge q = true := by
    obtain ⟨m, hm, htail⟩ := mem_ends_all.1 h
    obtain ⟨m₁, -, htail⟩ := mem_ends_all.1 htail
    obtain ⟨m₂, -, hq⟩ := mem_ends_all.1 htail
    obtain ⟨rfl, hright⟩ := mem_ends_wordEdge_iff.1 hq
    exact ⟨(mem_ends_wordEdge_iff.1 hm).2, hright⟩
  obtain ⟨pattern, hpattern, h⟩ := mem_ends_first.1 h
  simp only [List.mem_cons, List.not_mem_nil, or_false] at hpattern
  obtain rfl | rfl | rfl := hpattern <;> exact hedges h

/-- There is no word edge between two word characters. -/
theorem not_atWordEdge {c d : Char} (hc : p.before = some c) (hwc : Text.isWord c = true)
    (hd : p.rest.head? = some d) (hwd : Text.isWord d = true) : atWordEdge p ≠ true := by
  simp [atWordEdge, hc, hwc, hd, hwd]

/-- **No address is made** where addresses are masked. -/
theorem ends_networkAddress_masked (h : networkAddress.ends p = [])
    (hbefore : before = p.before ∨ (∃ p₀, p ∈ networkAddress.ends p₀) ∧ before = some ']') :
    networkAddress.ends ⟨before, masked networkAddress p⟩ = [] := by
  have hconsumes := leavesPlaceholder_networkAddress.consumes
  refine List.eq_nil_iff_forall_not_mem.2 fun q' hq' => ?_
  obtain ⟨read, q, hread', hread, hrest⟩ :=
    exists_passes_of_mem_ends_masked hconsumes leavesPlaceholder_networkAddress.opening hq'
  obtain ⟨⟨c, hc, hwc⟩, d, hd, hwd⟩ := words_of_mem_ends hq' hread'
  have hnext : p.rest.head? = some c := by rw [hread.rest, List.head?_append, hc, Option.some_or]
  have hlast : q.before = some d := by rw [hread.before, hd, Option.some_or]
  obtain hsame | ⟨⟨p₀, hp₀⟩, -⟩ := hbefore
  · obtain hhead | ⟨-, hbegins⟩ := head?_masked (p := q) hconsumes
    · -- the match was there before
      have hmatch := mem_ends_of_passes _ hq' hread' hread fun _ => ⟨hsame, by rw [hrest, hhead]⟩
      rw [h] at hmatch
      cases hmatch
    · -- an address begins right behind the match
      obtain ⟨q₁, hq₁⟩ := List.exists_mem_of_ne_nil _ hbegins
      obtain ⟨more, hmore, -⟩ := reads_of_mem_ends _ q q₁ hq₁
      obtain ⟨⟨e, he, hwe⟩, -⟩ := words_of_mem_ends hq₁ hmore
      have hhead : q.rest.head? = some e := by
        rw [hmore.rest, List.head?_append, he, Option.some_or]
      exact not_atWordEdge hlast hwd hhead hwe (wordEdges_of_mem_ends hq₁).1
  · -- an address ended right before the match
    obtain ⟨more, hmore, -⟩ := reads_of_mem_ends _ p₀ p hp₀
    obtain ⟨-, e, he, hwe⟩ := words_of_mem_ends hp₀ hmore
    have hended : p.before = some e := by rw [hmore.before, he, Option.some_or]
    exact not_atWordEdge hended hwe hnext hwc (wordEdges_of_mem_ends hp₀).2

theorem foundFrom_networkAddress (p : Place) :
    networkAddress.foundFrom p.before (masked networkAddress p) = false :=
  foundFrom_masked leavesPlaceholder_networkAddress.consumes leavesPlaceholder_networkAddress
    fun _ _ _ _ => ends_networkAddress_masked

/-! ## Paths -/

theorem leavesPlaceholder_rawPath : LeavesPlaceholder rawPath where
  consumes := by decide
  opening := by decide
  closing := by decide
  absent := by decide +kernel

theorem not_looks_rawPath : rawPath.looks = false := by decide

/-- **No path is left** where paths are masked. -/
theorem foundFrom_rawPath (p : Place) : rawPath.foundFrom p.before (masked rawPath p) = false :=
  foundFrom_masked leavesPlaceholder_rawPath.consumes leavesPlaceholder_rawPath
    fun _ _ _ _ hnone _ => ends_masked_of_not_looks leavesPlaceholder_rawPath.consumes
      leavesPlaceholder_rawPath.opening not_looks_rawPath hnone

/-- **No path is made** where addresses are masked. -/
theorem foundFrom_rawPath_masked (h : rawPath.foundFrom p.before p.rest = false) :
    rawPath.foundFrom p.before (masked networkAddress p) = false :=
  foundFrom_masked leavesPlaceholder_networkAddress.consumes leavesPlaceholder_rawPath
    fun past _ _ hpasses _ _ => ends_masked_of_not_looks leavesPlaceholder_networkAddress.consumes
      leavesPlaceholder_rawPath.opening not_looks_rawPath
      (ends_eq_nil_of_foundFrom not_looks_rawPath h ⟨past, hpasses.rest.symm⟩)

/-! ## Scrubbed text -/

theorem toList_scrub (s : String) :
    (scrub s).toList = masked networkAddress ⟨none, masked rawPath ⟨none, s.toList⟩⟩ := by
  rw [scrub, identifiers, toList_replaceAll, toList_replaceAll]

theorem foundIn_rawPath_scrub (s : String) : rawPath.foundIn (scrub s) = false := by
  rw [foundIn, toList_scrub]
  exact foundFrom_rawPath_masked (p := ⟨none, _⟩) (foundFrom_rawPath ⟨none, s.toList⟩)

theorem foundIn_networkAddress_scrub (s : String) : networkAddress.foundIn (scrub s) = false := by
  rw [foundIn, toList_scrub]
  exact foundFrom_networkAddress ⟨none, _⟩

/-- **Scrubbed text stays as it is.** -/
theorem scrub_scrub (s : String) : scrub (scrub s) = scrub s := by
  have hpaths : masked rawPath ⟨none, (scrub s).toList⟩ = (scrub s).toList :=
    rewriteFrom_eq_self_of_foundFrom (foundIn_rawPath_scrub s)
  rw [← String.toList_inj, toList_scrub (scrub s), hpaths]
  exact rewriteFrom_eq_self_of_foundFrom (foundIn_networkAddress_scrub s)

/-- **A public answer holds nothing to scrub**, whatever it is made of: it has the keys of its members,
no value holds the beginning of a path or an address, and sanitizing the answer again leaves it as it
is. -/
theorem publicAnswer_settled (members : List (String × Json)) :
    (publicAnswer members).map Prod.fst = members.map Prod.fst ∧
      (∀ member ∈ publicAnswer members,
        rawPath.foundIn member.2 = false ∧ networkAddress.foundIn member.2 = false) ∧
      publicAnswer ((publicAnswer members).map fun (key, value) => (key, .str value)) =
        publicAnswer members := by
  refine ⟨?_, ?_, ?_⟩
  · rw [publicAnswer, List.map_map]
    rfl
  · intro member hmember
    obtain ⟨⟨key, value⟩, -, rfl⟩ := List.mem_map.1 hmember
    exact ⟨foundIn_rawPath_scrub _, foundIn_networkAddress_scrub _⟩
  · have htext (s : String) : (Json.str s).text = s := rfl
    rw [publicAnswer, publicAnswer, List.map_map, List.map_map]
    refine List.map_congr_left fun member _ => ?_
    simp only [Function.comp_apply, htext, scrub_scrub]

end Redaction
end Conventions
