import Conventions.Proofs.Cache.Store
import Conventions.Proofs.Catalogue.Dispatch
import Conventions.Proofs.Files.Path
import Conventions.Scan.Run
import Mathlib.Data.Set.Function

/-!
# Proofs/Scan/Extractor — what an extraction depends on

Extractions are alike if they say the same once they are told of one path. A scanner is one *by
content* if what it extracts from a content is alike wherever files have the same extension;
`standard_byContent` says that the scanner of this library is one. Among contents with different
fingerprints, what one file gives then fits the key that it is kept under (`fits_of_extract`).
-/

namespace Conventions

/-! ## Alike -/

/-- **Extractions that say the same** of any file. -/
def Extraction.Alike (x y : Extraction) : Prop := ∀ path, x.told path = y.told path

/-- **Attempts that come to the same**, whatever reason is given for an exception. -/
inductive Attempt.Alike : Attempt → Attempt → Prop
  | gives {x y : Extraction} (h : x.Alike y) : Alike (.gives x) (.gives y)
  | raises (reason reason' : String) : Alike (.raises reason) (.raises reason')
  | hangs : Alike .hangs .hangs

/-- The attempt that had a result. -/
def Attempt.ofResult : Except String Extraction → Attempt
  | .ok x => .gives x
  | .error reason => .raises reason

namespace Scanner

/-! ## Scanners by content -/

/-- **What is extracted depends on the content and the extension**, but for the path that the
evidence is told of; the strengths of observations are numbers of 53 bits. -/
structure ByContent (s : Scanner) : Prop where
  alike : ∀ {p q : String} (content : ByteArray), Path.extension p = Path.extension q →
    (s.extract p content).Alike (s.extract q content)
  storable : ∀ {path : String} {content : ByteArray} {x : Extraction},
    s.extract path content = .gives x → x.Storable

/-- **Does a result fit a key?** Whatever content has the fingerprint, it gives a result like this
one at every path with the extension. -/
structure Fits (s : Scanner) (contents : Set ByteArray) (k : CacheKey)
    (r : Except String Extraction) : Prop where
  alike : ∀ path, ∀ content ∈ contents, Path.extension path = Path.extension k.path →
    s.fingerprint content = k.fingerprint → (s.extract path content).Alike (.ofResult r)
  storable : ∀ x, r = .ok x → x.Storable

variable {s : Scanner} {contents : Set ByteArray} {t : ScanTarget} {path : String}
  {content : ByteArray} {r : Except String Extraction}

/-- **What a file gives fits its key.** -/
theorem fits_of_extract (hs : s.ByContent) (hinj : contents.InjOn s.fingerprint)
    (hcontent : content ∈ contents) (h : s.extract path content = .ofResult r) :
    s.Fits contents (s.key t path content) r := by
  refine ⟨fun path' content' hcontent' hextension hfingerprint => ?_, ?_⟩
  · obtain rfl : content' = content := hinj hcontent' hcontent hfingerprint
    rw [← h]
    exact hs.alike content' (hextension.trans (t.extension_absolute path))
  · rintro x rfl
    exact hs.storable h

/-- **What fits the key of a file** is what the file gives. -/
theorem Fits.extract (h : s.Fits contents (s.key t path content) r)
    (hcontent : content ∈ contents) : (s.extract path content).Alike (.ofResult r) :=
  h.alike path content hcontent (t.extension_absolute path).symm rfl

end Scanner

/-! ## The scanner of this library -/

instance : DecidablePred Binary64.IsExact
  | .finite _ n =>
    decidable_of_iff (2 ^ Binary64.spareBits n ∣ n ∧ n < Binary64.overflow)
      ⟨fun h => ⟨h.1, h.2⟩, fun h => ⟨h.dvd, h.lt⟩⟩
  | .nan => .isTrue trivial
  | .infinite _ => .isTrue trivial

theorem Catalogue.isExact_of_mem_shapes : ∀ shape ∈ shapes, shape.strength.IsExact := by
  decide +kernel

/-- Evidence is listed in an order that the path has no part in. -/
theorem Node.evidence_told (src : Source) (root : Node) (p q : String) :
    (root.evidence src p).map (fun e => { e with file := q }) = root.evidence src q := by
  have htold : (fun e : Evidence => { e with file := q }) ∘ (fun h : Hit => h.evidence src p) =
      fun h => h.evidence src q := rfl
  rw [Node.evidence, Node.evidence, ← htold, ← List.map_map]
  exact List.map_mergeSort fun _ _ _ _ => rfl

theorem Node.storable_evidence (src : Source) (root : Node) (path : String) :
    (Extraction.ofEvidence (root.evidence src path)).Storable := by
  intro e he
  obtain ⟨h, hh, rfl⟩ := List.mem_map.1 (List.mem_mergeSort.1 he)
  obtain ⟨v, -, hshape, -⟩ := Node.mem_hits.1 (Hit.mem_of_mem_firsts hh)
  exact ⟨h.shape.strength, rfl, Catalogue.isExact_of_mem_shapes h.shape hshape⟩

theorem Source.extraction_eq (src : Source) (path : String) : src.extraction path =
    match src.parse (Path.extension path) with
    | .ok root => .ofEvidence (root.evidence src path)
    | .error fault => .failed fault.message := by
  unfold Source.extraction Source.evidence
  generalize src.parse (Path.extension path) = parsed
  cases parsed <;> rfl

theorem Source.extraction_alike (src : Source) {p q : String}
    (h : Path.extension p = Path.extension q) : (src.extraction p).Alike (src.extraction q) := by
  intro path
  rw [src.extraction_eq p, src.extraction_eq q, h]
  generalize src.parse (Path.extension q) = parsed
  cases parsed with
  | error fault => rfl
  | ok root => simp only [Extraction.ofEvidence, Extraction.told, root.evidence_told]

theorem Source.extraction_storable (src : Source) (path : String) :
    (src.extraction path).Storable := by
  rw [src.extraction_eq path]
  generalize src.parse (Path.extension path) = parsed
  cases parsed with
  | error fault => exact fun e he => nomatch he
  | ok root => exact root.storable_evidence src path

/-- **The scanner of this library goes by content.** -/
theorem Scanner.standard_byContent : Scanner.standard.ByContent where
  alike _ h := .gives (Source.extraction_alike _ h)
  storable h := Attempt.gives.inj h ▸ Source.extraction_storable _ _

end Conventions
