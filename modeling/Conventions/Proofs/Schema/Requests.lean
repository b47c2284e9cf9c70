import Conventions.Proofs.Files.Selection
import Conventions.Proofs.Fallible
import Conventions.Proofs.Json.Members
import Conventions.Proofs.Schema.Meets
import Conventions.Scan.Options

/-!
# Proofs/Schema/Requests — what a request for a scan is, and what is made of it

A request that meets its contract has a root and options of the right kinds (`IsScanRequest`). All
of them can be taken for what they are (`exists_ofRequest_eq`), but for a limit of time that is written as a
whole number beyond the range of binary64 numbers (`ofRequest_cases`).
-/

namespace Conventions

open Schema

/-! ## Requests -/

/-- **A list of texts**, all of which pass a test. -/
def Json.IsTexts (p : String → Prop) (j : Json) : Prop :=
  ∃ ts : List String, j = .arr (ts.map .str) ∧ ∀ t ∈ ts, p t

/-- **A number above zero**, or no number. -/
def Json.IsDuration (j : Json) : Prop :=
  (∃ i : Int, j = .int i ∧ 0 < i) ∨ ∃ x : Binary64, j = .float x ∧ x.le .zero = false

/-- **The members of a request for a scan.** -/
structure IsScanRequest (members : List (String × Json)) : Prop where
  known : ∀ m ∈ members, m.1 ∈ ["root", "include", "exclude", "extensions", "max_files",
    "max_file_bytes", "concurrency", "timeout_seconds"]
  root : ∃ path, Json.lookup "root" members = some (.str path) ∧ path ≠ ""
  included : ∀ v, Json.lookup "include" members = some v → v.IsTexts (· ≠ "")
  excluded : ∀ v, Json.lookup "exclude" members = some v → v.IsTexts (· ≠ "")
  extensions : ∀ v, Json.lookup "extensions" members = some v →
    v.IsTexts fun t => Contract.extensionForm.holds t = true
  maxFiles : ∀ v, Json.lookup "max_files" members = some v →
    ∃ i, v.IsWhole i ∧ 1 ≤ i ∧ i ≤ 100000
  maxFileBytes : ∀ v, Json.lookup "max_file_bytes" members = some v → ∃ i, v.IsWhole i ∧ 1 ≤ i
  concurrency : ∀ v, Json.lookup "concurrency" members = some v →
    ∃ i, v.IsWhole i ∧ 1 ≤ i ∧ i ≤ 64
  timeout : ∀ v, Json.lookup "timeout_seconds" members = some v → v.IsDuration

namespace Contract

variable {defs : Definitions} {j : Json} {members : List (String × Json)}

theorem fits_texts {s : Schema} {p : String → Prop}
    (h : ∀ {v}, Fits defs s v ↔ ∃ t, v = .str t ∧ p t) :
    Fits defs (listOf s) j ↔ j.IsTexts p := by
  rw [fits_listOf]
  constructor
  · rintro ⟨items, rfl, hitems⟩
    induction items with
    | nil => exact ⟨[], rfl, fun _ ht => nomatch ht⟩
    | cons v rest ih =>
      rw [List.forall_mem_cons] at hitems
      obtain ⟨t, rfl, ht⟩ := h.1 hitems.1
      obtain ⟨ts, hts, hall⟩ := ih hitems.2
      obtain rfl : rest = ts.map .str := Json.arr.inj hts
      exact ⟨t :: ts, rfl, List.forall_mem_cons.2 ⟨ht, hall⟩⟩
  · rintro ⟨ts, rfl, hts⟩
    exact ⟨_, rfl, List.forall_mem_map.2 fun t ht => h.2 ⟨t, rfl, hts t ht⟩⟩

theorem fits_duration : Fits defs (direct [.kind .number, .above 0]) j ↔ j.IsDuration := by
  have hzero : (Quantity.whole 0).key = 0 := Int.zero_mul _
  rw [fits_direct, meets_cons_cons, meets_kind]
  cases j with
  | int i =>
    have habove : Meets defs [.above 0] (.int i) ↔ 0 < i := by
      rw [meets_above rfl, hzero, Quantity.key]
      exact mul_pos_iff_of_pos_right (Int.natCast_pos.2 Binary64.unit_pos)
    simpa [TypeName.holds, Json.IsDuration] using habove
  | float x =>
    have hle (hx : x.isNaN = false) : x.le .zero = decide (x.key ≤ 0) := by
      rw [Binary64.le, hx]
      rfl
    have habove : Meets defs [.above 0] (.float x) ↔ x.le .zero = false := by
      cases x with
      | nan => exact iff_of_true ((meets_singleton (.above 0) _).2 rfl) rfl
      | infinite negative | finite negative n =>
        rw [meets_above rfl, hzero, Quantity.key, hle rfl, decide_eq_false_iff_not, Int.not_le]
    simpa [TypeName.holds, Json.IsDuration] using habove
  | _ => simp [TypeName.holds, Json.IsDuration]

theorem fits_extension : Fits defs (direct [.kind .string, .form extensionForm]) j ↔
    ∃ t, j = .str t ∧ extensionForm.holds t = true := by
  rw [fits_direct, meets_kind_cons (TypeName.holds_iff .string j)]
  simp only [meets_form]

/-- **What a request for a scan has to be.** -/
theorem check_scanRequest_eq_none_iff : scanRequest.check j = none ↔
    ∃ members, j = .obj members ∧ IsScanRequest members := by
  refine meets_recordRules.trans (exists_congr fun members => and_congr_right fun _ => ?_)
  simp only [isRecord_iff, List.forall_mem_cons, field, optional, fits_filled,
    fits_texts fits_filled, fits_texts fits_extension, fits_wholeBetween, fits_wholeFrom,
    fits_duration]
  constructor
  · rintro ⟨hrequired, hknown, hroot, hinclude, hexclude, hextensions, hfiles, hbytes, hworkers,
      htimeout, -⟩
    obtain ⟨v, hv⟩ := Option.isSome_iff_exists.1 (hrequired.1 trivial)
    obtain ⟨path, rfl, hpath⟩ := hroot v hv
    exact ⟨hknown, ⟨path, hv, hpath⟩, hinclude, hexclude, hextensions, hfiles, hbytes, hworkers,
      htimeout⟩
  · rintro ⟨hknown, ⟨path, hroot, hpath⟩, hinclude, hexclude, hextensions, hfiles, hbytes, hworkers,
      htimeout⟩
    refine ⟨?_, hknown, fun v hv => ⟨path, ?_, hpath⟩, hinclude, hexclude, hextensions, hfiles,
      hbytes, hworkers, htimeout, fun _ h => nomatch h⟩
    · rw [hroot]
      simp
    · exact (Option.some.inj (hroot.symm.trans hv)).symm

end Contract

/-! ## Options -/

theorem ScanOptions.texts_map_str (ts : List String) : texts (.arr (ts.map .str)) = .ok ts := by
  rw [texts]
  induction ts with
  | nil => rfl
  | cons t rest ih => rw [List.map_cons, List.mapM_cons, ih]; rfl

namespace ScanOptions

variable {α : Type} {env : Environment} {members : List (String × Json)}

/-- **What a request says of an option** is taken; what it does not mention stays as it is. -/
def Takes (key : String) (Says : Json → α → Prop) (usual : α) (members : List (String × Json))
    (a : α) : Prop :=
  match Json.lookup key members with
  | some v => Says v a
  | none => a = usual

theorem Takes.cases {key : String} {Says : Json → α → Prop} {usual a : α}
    (h : Takes key Says usual members a) :
    a = usual ∨ ∃ v, Json.lookup key members = some v ∧ Says v a := by
  rw [Takes] at h
  split at h
  case h_1 v hv => exact .inr ⟨v, hv, h⟩
  case h_2 => exact .inl h

/-- A value lists texts. -/
def SaysTexts (v : Json) (ts : List String) : Prop := v = .arr (ts.map .str)

/-- A value lists extensions, which are taken in small letters and with a point. -/
def SaysExtensions (v : Json) (es : List String) : Prop := ∃ ts, SaysTexts v ts ∧ es = ts.map dotted

theorem exists_given {key : String} {read : Json → Except ConversionFault α} {Says : Json → α → Prop}
    (usual : α) (h : ∀ v, Json.lookup key members = some v → ∃ a, read v = .ok a ∧ Says v a) :
    ∃ a, given key read usual members = .ok a ∧ Takes key Says usual members a := by
  simp only [given, Takes]
  cases hv : Json.lookup key members with
  | none => exact ⟨usual, rfl, rfl⟩
  | some v => exact h v hv

theorem exists_given_texts {key : String} {p : String → Prop} (usual : List String)
    (h : ∀ v, Json.lookup key members = some v → v.IsTexts p) :
    ∃ ts, given key texts usual members = .ok ts ∧ Takes key SaysTexts usual members ts := by
  refine exists_given usual fun v hv => ?_
  obtain ⟨ts, rfl, -⟩ := h v hv
  exact ⟨ts, texts_map_str ts, rfl⟩

theorem exists_given_extensions {key : String} {p : String → Prop} (usual : List String)
    (h : ∀ v, Json.lookup key members = some v → v.IsTexts p) :
    ∃ es, given key (fun v => (texts v).map (·.map dotted)) usual members = .ok es ∧
      Takes key SaysExtensions usual members es := by
  refine exists_given usual fun v hv => ?_
  obtain ⟨ts, rfl, -⟩ := h v hv
  exact ⟨ts.map dotted, by rw [texts_map_str]; rfl, ts, rfl, rfl⟩

theorem exists_given_whole {key : String} {p : Int → Prop} (usual : Int)
    (h : ∀ v, Json.lookup key members = some v → ∃ i, v.IsWhole i ∧ p i) :
    ∃ i, given key Json.whole usual members = .ok i ∧ Takes key Json.IsWhole usual members i :=
  exists_given usual fun v hv => (h v hv).imp fun _ hi => ⟨hi.1.whole_eq, hi.1⟩

theorem exists_given_most {key : String} {most : Int} (usual : Int)
    (h : ∀ v, Json.lookup key members = some v → ∃ i, v.IsWhole i ∧ 1 ≤ i ∧ i ≤ most) :
    ∃ i, given key (fun v => v.whole.map (min · most)) usual members = .ok i ∧
      Takes key Json.IsWhole usual members i := by
  refine exists_given usual fun v hv => ?_
  obtain ⟨i, hi, -, hle⟩ := h v hv
  exact ⟨i, by rw [hi.whole_eq, Except.map, min_eq_left hle], hi⟩

/-- **The options of a request**, apart from its limit of time: those that it says, over those of the
environment. -/
structure Overlays (env : Environment) (members : List (String × Json)) (o : ScanOptions) : Prop where
  included : Takes "include" SaysTexts (ofEnvironment env).included members o.included
  excluded : Takes "exclude" SaysTexts (ofEnvironment env).excluded members o.excluded
  extensions : Takes "extensions" SaysExtensions (ofEnvironment env).extensions members o.extensions
  maxFiles : Takes "max_files" Json.IsWhole (ofEnvironment env).maxFiles members o.maxFiles
  maxFileBytes :
    Takes "max_file_bytes" Json.IsWhole (ofEnvironment env).maxFileBytes members o.maxFileBytes
  concurrency : Takes "concurrency" Json.IsWhole (ofEnvironment env).concurrency members o.concurrency
  excludedDirs : o.excludedDirs = (ofEnvironment env).excludedDirs
  mainEntryNames : o.mainEntryNames = (ofEnvironment env).mainEntryNames

/-- The limit of time that a request gives, or else the environment. -/
def timeoutOf (env : Environment) (members : List (String × Json)) :
    Except ConversionFault (Option Binary64) :=
  given "timeout_seconds" (fun v => v.binary64.map some) (ofEnvironment env).timeout members

/-- **The options of a request** are those that it says, if its limit of time is read. -/
theorem exists_ofRequest_eq (env : Environment) (h : IsScanRequest members) :
    ∃ o, Overlays env members o ∧
      ofRequest env members = (timeoutOf env members).map fun t => { o with timeout := t } := by
  obtain ⟨included, hincluded, saysIncluded⟩ :=
    exists_given_texts (ofEnvironment env).included h.included
  obtain ⟨excluded, hexcluded, saysExcluded⟩ :=
    exists_given_texts (ofEnvironment env).excluded h.excluded
  obtain ⟨extensions, hextensions, saysExtensions⟩ :=
    exists_given_extensions (ofEnvironment env).extensions h.extensions
  obtain ⟨maxFiles, hmaxFiles, saysMaxFiles⟩ :=
    exists_given_whole (ofEnvironment env).maxFiles h.maxFiles
  obtain ⟨maxFileBytes, hmaxFileBytes, saysMaxFileBytes⟩ :=
    exists_given_whole (ofEnvironment env).maxFileBytes h.maxFileBytes
  obtain ⟨concurrency, hconcurrency, saysConcurrency⟩ :=
    exists_given_most (ofEnvironment env).concurrency h.concurrency
  refine ⟨{ ofEnvironment env with included, excluded, extensions, maxFiles, maxFileBytes, concurrency },
    ⟨saysIncluded, saysExcluded, saysExtensions, saysMaxFiles, saysMaxFileBytes, saysConcurrency,
      rfl, rfl⟩, ?_⟩
  rw [ofRequest, timeoutOf]
  simp only [hincluded, hexcluded, hextensions, hmaxFiles, hmaxFileBytes, mostConcurrency, hconcurrency]
  cases given "timeout_seconds" (fun v => v.binary64.map some) (ofEnvironment env).timeout members <;> rfl

theorem dotted_ne_empty (extension : String) : dotted extension ≠ "" := by
  rw [dotted]
  split
  case isTrue hpoint =>
    intro hempty
    rw [Text.lower_eq_empty_iff] at hempty
    rw [hempty] at hpoint
    cases hpoint
  case isFalse =>
    intro hempty
    simpa using congrArg String.toList hempty

/-- **Every extension that a scan looks for has a name.** -/
theorem extensions_ofRequest {env : Environment} {o : ScanOptions}
    (h : ofRequest env members = .ok o) : ∀ e ∈ o.extensions, e ≠ "" := by
  rw [ofRequest] at h
  obtain ⟨included, -, h⟩ := Fallible.bind_eq_ok_iff.1 h
  obtain ⟨excluded, -, h⟩ := Fallible.bind_eq_ok_iff.1 h
  obtain ⟨extensions, hextensions, h⟩ := Fallible.bind_eq_ok_iff.1 h
  obtain ⟨maxFiles, -, h⟩ := Fallible.bind_eq_ok_iff.1 h
  obtain ⟨maxFileBytes, -, h⟩ := Fallible.bind_eq_ok_iff.1 h
  obtain ⟨concurrency, -, h⟩ := Fallible.bind_eq_ok_iff.1 h
  obtain ⟨timeout, -, h⟩ := Fallible.bind_eq_ok_iff.1 h
  obtain rfl := Except.ok.inj h
  rw [given] at hextensions
  split at hextensions
  case h_1 v hv =>
    cases htexts : texts v with
    | error fault => rw [htexts] at hextensions; cases hextensions
    | ok ts =>
      rw [htexts] at hextensions
      obtain rfl := Except.ok.inj hextensions
      exact List.forall_mem_map.2 fun t _ => dotted_ne_empty t
  case h_2 =>
    obtain rfl := Except.ok.inj hextensions
    have hstandard : ∀ e ∈ standard.extensions, e ≠ "" := by decide
    exact hstandard

end ScanOptions
end Conventions
