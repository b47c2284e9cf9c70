import Conventions.Proofs.Number.Numerals
import Conventions.Proofs.Number.Overflow
import Conventions.Proofs.Schema.Requests

/-!
# Proofs/Scan/Options — how far a scan may go

A setting of the environment is described by the number that its text writes (`SetsCeiling`), and the options
of a request by what its members say (`Overlays`). Whatever the environment and whatever a request that
keeps its contract, the ceilings stay in range (`ceilings_in_range`).

The limit of time does not. Zero and less are refused, which lets no number and infinities through, and a
whole number that is too large for a binary64 number cannot be read at all; `timeout_usable_iff` tells when
this does not happen.
-/

namespace Conventions

/-! ## Settings -/

namespace Environment

variable {env : Environment} {name : String} {usual i ceiling : Int} {most : Option Int}

/-- **A setting writes a whole number.** -/
def Writes (env : Environment) (name : String) (i : Int) : Prop :=
  ∃ s, env.get? name = some s ∧ Numeral.WritesWhole s i

/-- Leaving out blank settings makes no difference where blanks write nothing. -/
theorem filled?_bind {α : Type} {read : String → Option α}
    (h : ∀ s a, read s = some a → Text.strip s ≠ "") (env : Environment) (name : String) :
    (env.filled? name).bind read = (env.get? name).bind read := by
  rw [filled?]
  cases env.get? name with
  | none => rfl
  | some s =>
    rw [Option.filter_some]
    split
    case isTrue => rfl
    case isFalse hblank =>
      have hblank : Text.strip s = "" := by simpa using hblank
      cases hread : read s with
      | none => rw [Option.bind_some, hread, Option.bind_none]
      | some a => exact absurd hblank (h s a hread)

theorem whole?_eq_some_iff : (env.filled? name).bind Numeral.whole? = some i ↔ env.Writes name i := by
  rw [filled?_bind fun s i hs => (Numeral.whole?_eq_some_iff.1 hs).strip_ne_empty,
    Option.bind_eq_some_iff]
  simp only [Numeral.whole?_eq_some_iff, Writes]

/-- **A setting sets a ceiling.** A number from one on sets it, up to the most that is allowed. If it is
anything else, blank, no number, zero or less, or if there is no such setting, the ceiling is the usual one. -/
structure SetsCeiling (env : Environment) (name : String) (usual : Int) (most : Option Int)
    (ceiling : Int) : Prop where
  written : ∀ i, env.Writes name i → 1 ≤ i → ceiling = most.elim i (min i)
  otherwise : (∀ i, env.Writes name i → i < 1) → ceiling = usual

theorem setsCeiling_whole (env : Environment) (name : String) (usual : Int) (most : Option Int) :
    env.SetsCeiling name usual most (env.whole name usual 1 most) := by
  rw [whole]
  cases hread : (env.filled? name).bind Numeral.whole? with
  | none =>
    refine ⟨fun i hi _ => ?_, fun _ => rfl⟩
    rw [whole?_eq_some_iff.2 hi] at hread
    cases hread
  | some j =>
    have hj := whole?_eq_some_iff.1 hread
    constructor
    · intro i hi hle
      rw [whole?_eq_some_iff.2 hi] at hread
      obtain rfl := Option.some.inj hread
      simp only [if_neg (Int.not_lt.2 hle)]
      cases most <;> rfl
    · intro hnone
      simp only [if_pos (hnone j hj)]

/-- **A ceiling that a setting sets** is the usual one, or one that the setting writes. -/
theorem SetsCeiling.cases (h : env.SetsCeiling name usual most ceiling) :
    ceiling = usual ∨ ∃ i, 1 ≤ i ∧ ceiling = most.elim i (min i) := by
  by_cases hwritten : ∃ i, env.Writes name i ∧ 1 ≤ i
  · obtain ⟨i, hi, hle⟩ := hwritten
    exact .inr ⟨i, hle, h.written i hi hle⟩
  · refine .inl (h.otherwise fun i hi => Int.not_le.1 fun hle => hwritten ⟨i, hi, hle⟩)

end Environment

namespace ScanOptions

variable {α : Type} {env : Environment} {members : List (String × Json)} {o : ScanOptions}

/-- **The ceilings are in range**, and extensions begin with a point and are in small letters. -/
structure InRange (o : ScanOptions) : Prop where
  maxFiles : 1 ≤ o.maxFiles
  maxFileBytes : 1 ≤ o.maxFileBytes
  concurrency : 1 ≤ o.concurrency ∧ o.concurrency ≤ mostConcurrency
  extensions : ∀ e ∈ o.extensions, e.toList.head? = some '.' ∧ Text.lower e = e

/-- **The environment sets the ceilings.** -/
structure SetBy (env : Environment) (o : ScanOptions) : Prop where
  maxFiles : env.SetsCeiling "PATTERNSCOUT_MAX_FILES" standard.maxFiles none o.maxFiles
  maxFileBytes :
    env.SetsCeiling "PATTERNSCOUT_MAX_FILE_BYTES" standard.maxFileBytes none o.maxFileBytes
  concurrency : env.SetsCeiling "PATTERNSCOUT_SCAN_CONCURRENCY" standard.concurrency
    (some mostConcurrency) o.concurrency
  extensions : o.extensions = standard.extensions

theorem setBy_ofEnvironment (env : Environment) : SetBy env (ofEnvironment env) where
  maxFiles := env.setsCeiling_whole _ _ _
  maxFileBytes := env.setsCeiling_whole _ _ _
  concurrency := env.setsCeiling_whole _ _ _
  extensions := rfl

theorem SetBy.inRange (h : SetBy env o) : o.InRange where
  maxFiles := by
    obtain heq | ⟨i, hi, heq⟩ := h.maxFiles.cases
    · rw [heq]
      decide
    · exact heq ▸ hi
  maxFileBytes := by
    obtain heq | ⟨i, hi, heq⟩ := h.maxFileBytes.cases
    · rw [heq]
      decide
    · exact heq ▸ hi
  concurrency := by
    obtain heq | ⟨i, hi, heq⟩ := h.concurrency.cases
    · rw [heq]
      decide
    · rw [heq]
      exact ⟨le_min hi (by decide), min_le_right _ _⟩
  extensions := by
    rw [h.extensions]
    decide

/-! ## Extensions -/

theorem ascii_of_isExtension {cs : List Char} (h : Contract.isExtension cs = true) :
    ∀ c ∈ cs, c.toNat < 128 := by
  have hname {name : List Char} (h : name.all Char.isAlphanum = true) : ∀ c ∈ name, c.toNat < 128 :=
    fun c hc => Text.ascii_of_isAlphanum (List.all_eq_true.1 h c hc)
  unfold Contract.isExtension at h
  split at h
  case h_1 rest => exact List.forall_mem_cons.2 ⟨by decide, hname (Bool.and_eq_true_iff.1 h).2⟩
  case h_2 => exact hname (Bool.and_eq_true_iff.1 h).2

theorem ascii_of_withoutFinalNewline {cs : List Char}
    (h : ∀ c ∈ Contract.withoutFinalNewline cs, c.toNat < 128) : ∀ c ∈ cs, c.toNat < 128 := by
  unfold Contract.withoutFinalNewline at h
  split at h
  case h_1 rest hcs =>
    intro c hc
    rw [← List.mem_reverse, hcs] at hc
    obtain rfl | hc := List.mem_cons.1 hc
    · decide
    · exact h c (List.mem_reverse.2 hc)
  case h_2 => exact h

/-- What has the form of an extension is ASCII. -/
theorem ascii_of_extensionForm {t : String} (h : Contract.extensionForm.holds t = true) :
    ∀ c ∈ t.toList, c.toNat < 128 := by
  obtain h | h := Bool.or_eq_true_iff.1 h
  · exact ascii_of_isExtension h
  · exact ascii_of_withoutFinalNewline (ascii_of_isExtension h)

/-- **An extension with its point** begins with it and is in small letters. -/
theorem dotted_of_ascii {t : String} (h : ∀ c ∈ t.toList, c.toNat < 128) :
    (dotted t).toList.head? = some '.' ∧ Text.lower (dotted t) = dotted t := by
  obtain ⟨u, hdotted, hhead, hascii⟩ : ∃ u, dotted t = Text.lower u ∧ u.toList.head? = some '.' ∧
      ∀ c ∈ u.toList, c.toNat < 128 := by
    rw [dotted]
    split
    case isTrue hpoint => exact ⟨t, rfl, hpoint, h⟩
    case isFalse =>
      have hascii : ∀ c ∈ ("." ++ t).toList, c.toNat < 128 := by
        rw [String.toList_append]
        exact List.forall_mem_append.2 ⟨by simp, h⟩
      refine ⟨"." ++ t, ?_, ?_, hascii⟩
      · rw [Text.lower_of_ascii hascii, Text.lower_of_ascii h, ← String.toList_inj]
        simp
      · rw [String.toList_append]
        rfl
  rw [hdotted]
  refine ⟨?_, Text.lower_lower_of_ascii hascii⟩
  rw [Text.lower_of_ascii hascii, String.toList_ofList, List.head?_map, hhead]
  rfl

/-- **The options of a request are in range.** -/
theorem Overlays.inRange (ho : Overlays env members o) (h : IsScanRequest members) : o.InRange := by
  have henv := (setBy_ofEnvironment env).inRange
  have hwhole {v : Json} {i j : Int} (hi : v.IsWhole i) (hj : v.IsWhole j) : i = j :=
    Except.ok.inj (hi.whole_eq.symm.trans hj.whole_eq)
  constructor
  · obtain heq | ⟨v, hv, hsays⟩ := ho.maxFiles.cases
    · exact heq ▸ henv.maxFiles
    · obtain ⟨i, hi, hle, -⟩ := h.maxFiles v hv
      exact hwhole hi hsays ▸ hle
  · obtain heq | ⟨v, hv, hsays⟩ := ho.maxFileBytes.cases
    · exact heq ▸ henv.maxFileBytes
    · obtain ⟨i, hi, hle⟩ := h.maxFileBytes v hv
      exact hwhole hi hsays ▸ hle
  · obtain heq | ⟨v, hv, hsays⟩ := ho.concurrency.cases
    · exact heq ▸ henv.concurrency
    · obtain ⟨i, hi, hle⟩ := h.concurrency v hv
      exact hwhole hi hsays ▸ hle
  · obtain heq | ⟨v, hv, ts, hts, heq⟩ := ho.extensions.cases
    · exact heq ▸ henv.extensions
    · obtain ⟨ts', hts', hform⟩ := h.extensions v hv
      obtain rfl : ts' = ts := by
        have hmap := Json.arr.inj (hts'.symm.trans hts)
        exact List.map_injective_iff.2 (fun _ _ => Json.str.inj) hmap
      rw [heq, List.forall_mem_map]
      exact fun t ht => dotted_of_ascii (ascii_of_extensionForm (hform t ht))

/-- **The ceilings stay in range**, whatever the settings of the environment are and whatever a request that
keeps its contract says. The settings set the ceilings, and a request changes just those that it mentions.
Its limit of time is read besides, and if it cannot be read, this is all that fails. -/
theorem ceilings_in_range (env : Environment) :
    (ofEnvironment env).InRange ∧ SetBy env (ofEnvironment env) ∧
      ∀ request, Contract.scanRequest.check request = none →
        ∃ members o, request = .obj members ∧ o.InRange ∧ Overlays env members o ∧
          ofRequest env members = (timeoutOf env members).map fun t => { o with timeout := t } := by
  refine ⟨(setBy_ofEnvironment env).inRange, setBy_ofEnvironment env, fun request hrequest => ?_⟩
  obtain ⟨members, rfl, h⟩ := Contract.check_scanRequest_eq_none_iff.1 hrequest
  obtain ⟨o, ho, heq⟩ := exists_ofRequest_eq env h
  exact ⟨members, o, rfl, ho.inRange h, ho, heq⟩

/-- A request that mentions some of the options. -/
def typescriptRequest : List (String × Json) :=
  [("root", .str "."), ("extensions", .arr [.str "TS"]), ("max_files", .int 3),
    ("timeout_seconds", .int 9)]

theorem isScanRequest_typescript : IsScanRequest typescriptRequest where
  known := by decide
  root := ⟨".", rfl, by decide⟩
  included v hv := by simp [typescriptRequest, Json.lookup] at hv
  excluded v hv := by simp [typescriptRequest, Json.lookup] at hv
  extensions v hv := by
    obtain rfl := Option.some.inj hv
    exact ⟨["TS"], rfl, by decide⟩
  maxFiles v hv := by
    obtain rfl := Option.some.inj hv
    exact ⟨3, .inl rfl, by decide⟩
  maxFileBytes v hv := by simp [typescriptRequest, Json.lookup] at hv
  concurrency v hv := by simp [typescriptRequest, Json.lookup] at hv
  timeout v hv := by
    obtain rfl := Option.some.inj hv
    exact .inl ⟨9, rfl, by decide⟩

theorem check_typescript : Contract.scanRequest.check (.obj typescriptRequest) = none :=
  Contract.check_scanRequest_eq_none_iff.2 ⟨_, rfl, isScanRequest_typescript⟩

/-- A setting that asks for too many workers, and a request. -/
theorem ceilings_in_range_typescript :
    (ofEnvironment [("PATTERNSCOUT_SCAN_CONCURRENCY", " 1_000 ")]).concurrency = 64 ∧
      Contract.scanRequest.check (.obj typescriptRequest) = none ∧
      ∃ members o, Json.obj typescriptRequest = .obj members ∧ o.InRange ∧
        Overlays [("PATTERNSCOUT_SCAN_CONCURRENCY", " 1_000 ")] members o ∧
        ofRequest [("PATTERNSCOUT_SCAN_CONCURRENCY", " 1_000 ")] members =
          (timeoutOf [("PATTERNSCOUT_SCAN_CONCURRENCY", " 1_000 ")] members).map
            fun t => { o with timeout := t } := by
  obtain ⟨-, hset, hrequest⟩ := ceilings_in_range [("PATTERNSCOUT_SCAN_CONCURRENCY", " 1_000 ")]
  refine ⟨?_, check_typescript, hrequest _ check_typescript⟩
  exact hset.concurrency.written 1000 (Environment.whole?_eq_some_iff.1 (by decide)) (by decide)

/-! ## The limit of time -/

/-- **A usable limit of time**: none, or a finite number above zero. -/
def IsUsable (timeout : Option Binary64) : Prop := ∀ x ∈ timeout, ∃ n, x = .finite false n ∧ 0 < n

/-- What is not zero or less is usable, unless it is no number or infinite. -/
theorem isUsable_some_iff {x : Binary64} (h : x.le .zero = false) :
    IsUsable (some x) ↔ x ≠ .nan ∧ x ≠ .infinite false := by
  simp only [IsUsable, Option.mem_def, Option.some.injEq, forall_eq']
  constructor
  · rintro ⟨n, rfl, -⟩
    exact ⟨nofun, nofun⟩
  · rintro ⟨hnan, hinfinite⟩
    have hkey : x.isNaN = false → 0 < x.key := by
      intro hnumber
      rw [Binary64.le, hnumber] at h
      exact Int.not_le.1 (of_decide_eq_false h)
    cases x with
    | nan => exact absurd rfl hnan
    | infinite negative =>
      cases negative with
      | false => exact absurd rfl hinfinite
      | true => exact absurd (hkey rfl) (by decide +kernel)
    | finite negative n =>
      have hpos := hkey rfl
      cases negative with
      | false => exact ⟨n, rfl, Int.natCast_pos.1 hpos⟩
      | true => exact absurd hpos (Int.not_lt.2 (Int.neg_nonpos_of_nonneg (Int.natCast_nonneg n)))

end ScanOptions

/-- **A text writes no usable limit of time**, though it does write a number: the name of no number, or,
without a minus, the name of an infinity or a decimal that is too large. -/
def Numeral.WritesUnusable (s : String) : Prop :=
  ∃ negative body, Framed s negative body ∧ (small body = "nan" ∨ negative = false ∧
    (small body = "inf" ∨ small body = "infinity" ∨
      ∃ ds scale, WritesDecimal body ds scale ∧ (Binary64.tooLarge : ℚ) ≤ value ds * 10 ^ scale))

theorem Numeral.writesUnusable_iff {s : String} :
    WritesUnusable s ↔ WritesNumber s .nan ∨ WritesNumber s (.infinite false) := by
  constructor
  · rintro ⟨negative, body, hframed, hnan | ⟨rfl, hname | hname | ⟨ds, scale, hbody, hlarge⟩⟩⟩
    · exact .inl (.nan hframed hnan)
    · exact .inr (.infinity hframed (.inl hname))
    · exact .inr (.infinity hframed (.inr hname))
    · have hinfinite : Binary64.nearest false (value ds) scale = .infinite false :=
        Binary64.nearest_eq_infinite_iff.2 ⟨rfl, hlarge⟩
      exact .inr (hinfinite ▸ .decimal hframed hbody)
  · rintro (h | h)
    · generalize hx : Binary64.nan = x at h
      cases h with
      | infinity => cases hx
      | nan hframed hname => exact ⟨_, _, hframed, .inl hname⟩
      | @decimal negative body ds scale =>
        obtain heq | ⟨n, heq⟩ := Binary64.nearest_cases negative (value ds) scale <;>
          (rw [heq] at hx; cases hx)
    · generalize hx : Binary64.infinite false = x at h
      cases h with
      | infinity hframed hname =>
        obtain rfl := Binary64.infinite.inj hx
        exact ⟨false, _, hframed, .inr ⟨rfl, hname.imp_right .inl⟩⟩
      | nan => cases hx
      | decimal hframed hbody =>
        obtain ⟨rfl, hlarge⟩ := Binary64.nearest_eq_infinite_iff.1 hx.symm
        exact ⟨false, _, hframed, .inr ⟨rfl, .inr (.inr ⟨_, _, hbody, hlarge⟩)⟩⟩

namespace Environment

theorem seconds?_eq_some_iff {env : Environment} {name : String} {x : Binary64} :
    env.seconds? name = some x ↔
      ∃ s, env.get? name = some s ∧ Numeral.WritesNumber s x ∧ x.le .zero = false := by
  rw [seconds?, filled?_bind fun s x hs => (Numeral.binary64?_eq_some_iff.1 hs).strip_ne_empty,
    Option.filter_eq_some_iff, Option.bind_eq_some_iff, Bool.not_eq_true']
  simp only [Numeral.binary64?_eq_some_iff, ← exists_and_right, and_assoc]

/-- **A setting gives a usable limit of time**, if any, exactly if it does not write an unusable one. -/
theorem isUsable_seconds?_iff (env : Environment) (name : String) :
    ScanOptions.IsUsable (env.seconds? name) ↔
      ¬ ∃ s, env.get? name = some s ∧ Numeral.WritesUnusable s := by
  simp only [Numeral.writesUnusable_iff]
  constructor
  · rintro husable ⟨s, hs, hnan | hinfinite⟩
    · obtain ⟨n, hn, -⟩ := husable .nan (seconds?_eq_some_iff.2 ⟨s, hs, hnan, rfl⟩)
      cases hn
    · have hle : (Binary64.infinite false).le .zero = false := by decide +kernel
      obtain ⟨n, hn, -⟩ := husable _ (seconds?_eq_some_iff.2 ⟨s, hs, hinfinite, hle⟩)
      cases hn
  · intro hnone x hx
    obtain ⟨s, hs, hwrites, hle⟩ := seconds?_eq_some_iff.1 hx
    refine (ScanOptions.isUsable_some_iff hle).2 ⟨?_, ?_⟩ x rfl
    · rintro rfl
      exact hnone ⟨s, hs, .inl hwrites⟩
    · rintro rfl
      exact hnone ⟨s, hs, .inr hwrites⟩

end Environment

namespace ScanOptions

variable {env : Environment} {members : List (String × Json)} {o : ScanOptions}

theorem timeoutOf_of_none (h : Json.lookup "timeout_seconds" members = none) :
    timeoutOf env members = .ok (ofEnvironment env).timeout := by
  rw [timeoutOf, given, h]

theorem timeoutOf_of_some {v : Json} (h : Json.lookup "timeout_seconds" members = some v) :
    timeoutOf env members = v.binary64.map some := by
  rw [timeoutOf, given, h]

/-- **The limit of time of a request** is read, unless it is a whole number that is too large. It is usable
unless it is no number or infinite, or left to an environment that gives no usable one. -/
theorem timeoutOf_cases (env : Environment) (h : IsScanRequest members) :
    (timeoutOf env members = .error .outOfRange ∧
      ∃ i : Int, Json.lookup "timeout_seconds" members = some (.int i) ∧ Binary64.tooLarge ≤ i) ∨
    (∀ i : Int, Json.lookup "timeout_seconds" members = some (.int i) → i < Binary64.tooLarge) ∧
      ∃ t, timeoutOf env members = .ok t ∧ (IsUsable t ↔
        Json.lookup "timeout_seconds" members ≠ some (.float .nan) ∧
        Json.lookup "timeout_seconds" members ≠ some (.float (.infinite false)) ∧
        (Json.lookup "timeout_seconds" members = none → IsUsable (ofEnvironment env).timeout)) := by
  cases hv : Json.lookup "timeout_seconds" members with
  | none =>
    refine .inr ⟨nofun, _, timeoutOf_of_none hv, ?_⟩
    simp
  | some v =>
    rw [timeoutOf_of_some hv]
    obtain ⟨i, rfl, hpos⟩ | ⟨x, rfl, hle⟩ := h.timeout v hv
    · obtain ⟨hlarge, hint⟩ | ⟨hlt, n, hint, hn⟩ := Binary64.ofInt?_cases i
      · left
        have hfault := Json.binary64_eq_outOfRange_iff.2 ⟨i, rfl, hint⟩
        exact ⟨congrArg (Except.map some) hfault, i, rfl, by omega⟩
      · right
        refine ⟨fun j hj => ?_, some _, congrArg (Except.map some) (Json.binary64_int_of_ofInt? hint), ?_⟩
        · obtain rfl : i = j := Json.int.inj (Option.some.inj hj)
          omega
        · rw [decide_eq_false (Int.not_lt.2 hpos.le)]
          refine iff_of_true (fun x hx => ?_) ⟨nofun, nofun, nofun⟩
          exact ⟨n, (Option.some.inj hx).symm, hn hpos.ne'⟩
    · refine .inr ⟨nofun, some x, rfl, ?_⟩
      rw [isUsable_some_iff hle]
      simp

/-- **When the limit of time is usable.** That of the environment is unless its setting writes an unusable
one. A request that keeps its contract is read unless its limit is a whole number that is too large for a
binary64 number; what is read is usable unless the request gives no number or an infinity, or leaves it to
an environment that gives no usable one. -/
theorem timeout_usable_iff (env : Environment) :
    (IsUsable (ofEnvironment env).timeout ↔ ¬ ∃ s,
      env.get? "PATTERNSCOUT_SCAN_TIMEOUT_SECONDS" = some s ∧ Numeral.WritesUnusable s) ∧
    ∀ request, Contract.scanRequest.check request = none → ∃ members, request = .obj members ∧
      (∀ fault, ofRequest env members = .error fault ↔ fault = .outOfRange ∧
        ∃ i : Int, Json.lookup "timeout_seconds" members = some (.int i) ∧ Binary64.tooLarge ≤ i) ∧
      ∀ o, ofRequest env members = .ok o → (IsUsable o.timeout ↔
        Json.lookup "timeout_seconds" members ≠ some (.float .nan) ∧
        Json.lookup "timeout_seconds" members ≠ some (.float (.infinite false)) ∧
        (Json.lookup "timeout_seconds" members = none → IsUsable (ofEnvironment env).timeout)) := by
  refine ⟨env.isUsable_seconds?_iff _, fun request hrequest => ?_⟩
  obtain ⟨members, rfl, h⟩ := Contract.check_scanRequest_eq_none_iff.1 hrequest
  obtain ⟨o, -, heq⟩ := exists_ofRequest_eq env h
  refine ⟨members, rfl, ?_⟩
  rw [heq]
  obtain ⟨hfault, hlarge⟩ | ⟨hsmall, t, ht, husable⟩ := timeoutOf_cases env h
  · rw [hfault]
    refine ⟨fun fault => ⟨fun h => ?_, ?_⟩, nofun⟩
    · exact ⟨(Except.error.inj h).symm, hlarge⟩
    · rintro ⟨rfl, -⟩
      rfl
  · rw [ht]
    refine ⟨fun fault => ⟨nofun, ?_⟩, fun o ho => ?_⟩
    · rintro ⟨rfl, i, hi, hle⟩
      exact absurd (hsmall i hi) (Int.not_lt.2 hle)
    · obtain rfl := Except.ok.inj ho
      exact husable

/-- A request with a limit of time, where the environment gives none. -/
theorem timeout_usable_iff_typescript :
    Contract.scanRequest.check (.obj typescriptRequest) = none ∧
      ∀ o, ofRequest [] typescriptRequest = .ok o → IsUsable o.timeout := by
  refine ⟨check_typescript, fun o ho => ?_⟩
  obtain ⟨members, hmembers, -, husable⟩ := (timeout_usable_iff []).2 _ check_typescript
  obtain rfl := Json.obj.inj hmembers
  refine (husable o ho).2 ⟨?_, ?_, ?_⟩ <;> simp [typescriptRequest, Json.lookup]

/-- **A setting that writes no number** is taken for a limit of time. -/
theorem timeout_unusable_nan :
    ¬ IsUsable (ofEnvironment [("PATTERNSCOUT_SCAN_TIMEOUT_SECONDS", "nan")]).timeout := by
  have hnan : (ofEnvironment [("PATTERNSCOUT_SCAN_TIMEOUT_SECONDS", "nan")]).timeout = some .nan := by
    decide +kernel
  intro husable
  obtain ⟨n, hn, -⟩ := husable .nan hnan
  cases hn

end ScanOptions
end Conventions
