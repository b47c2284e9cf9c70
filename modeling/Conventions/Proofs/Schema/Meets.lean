import Conventions.Json.Numeric
import Conventions.Proofs.Json.Members
import Conventions.Proofs.Number.Monotone
import Conventions.Proofs.Sequence
import Conventions.Schema.Contracts
import Mathlib.Data.List.Forall2
import Mathlib.Data.List.Nodup

/-!
# Proofs/Schema/Meets — what it takes to meet a schema

A check walks through rules and parts in order and stops at the first violation. Whether it finds
none does not depend on the order: a value meets its rules if it meets each (`meets_iff_forall`), and
a rule about parts is met if each part fits (`meets_singleton`). Records and the other building
blocks of contracts are put together from these.
-/

namespace Conventions

namespace Json

variable {members : List (String × Json)} {key : String} {v : Json}

theorem forall_mem_smallerMembers {p : String × Json → Prop} :
    (∀ m ∈ (obj members).smallerMembers, p (m.1, m.2.1)) ↔ ∀ m ∈ members, p m := by
  rw [smallerMembers, List.forall_mem_map]
  exact ⟨fun h m hm => h ⟨m, hm⟩ (List.mem_attach ..), fun h m _ => h m.1 m.2⟩

theorem forall_mem_smallerItems {items : List Json} {p : Json → Prop} :
    (∀ x ∈ (arr items).smallerItems, p x.1) ↔ ∀ v ∈ items, p v := by
  rw [smallerItems, List.forall_mem_map]
  exact ⟨fun h v hv => h ⟨v, hv⟩ (List.mem_attach ..), fun h x _ => h x.1 x.2⟩

theorem find?_smallerMembers (key : String) (j : Json) :
    (j.smallerMembers.find? fun m => m.1 == key).map (·.2.1) = j.get? key := by
  cases j with
  | obj members =>
    rw [smallerMembers, List.find?_map, Option.map_map, get?, lookup]
    have hattach : (members.attach.find? fun m => m.1.1 == key).map (·.1) =
        members.find? fun m => m.1 == key := by
      conv_rhs => rw [← List.attach_map_subtype_val members, List.find?_map]
      rfl
    rw [← hattach, Option.map_map]
    rfl
  | _ => rfl

end Json

namespace Schema

variable {defs : Definitions} {rs : List Rule} {r : Rule} {s : Schema} {j : Json}
  {members : List (String × Json)}

/-- **A value meets some rules** if it breaks none. -/
def Meets (defs : Definitions) (rs : List Rule) (j : Json) : Prop := firstViolation defs rs j = none

/-- **A value fits a schema** if it meets its rules. -/
def Fits (defs : Definitions) (s : Schema) (j : Json) : Prop := Meets defs (s.resolve defs) j

theorem fits_direct : Fits defs (direct rs) j ↔ Meets defs rs j := .rfl

/-! ## Rules -/

theorem meets_iff_forall : Meets defs rs j ↔ ∀ r ∈ rs, Meets defs [r] j := by
  simp only [Meets, firstViolation.eq_1 _ _ j, List.findSome?_eq_none_iff,
    List.forall_mem_singleton]

theorem meets_cons_cons {r' : Rule} :
    Meets defs (r :: r' :: rs) j ↔ Meets defs [r] j ∧ Meets defs (r' :: rs) j := by
  rw [meets_iff_forall, List.forall_mem_cons, ← meets_iff_forall]

/-- **What it takes to meet a rule**: a rule about parts is met if each part fits. -/
theorem meets_singleton (r : Rule) (j : Json) : Meets defs [r] j ↔
    match r with
    | .properties ps => ∀ p ∈ ps, ∀ v, j.get? p.1 = some v → Fits defs p.2 v
    | .values s => ∀ m ∈ j.smallerMembers, Fits defs s m.2.1
    | .items s => ∀ x ∈ j.smallerItems, Fits defs s x.1
    | r => r.shallow j = none := by
  rw [Meets, firstViolation]
  simp only [List.findSome?_eq_none_iff, List.forall_mem_singleton]
  cases r with
  | properties ps =>
    simp only [List.findSome?_eq_none_iff, Option.map_eq_none_iff, Option.bind_eq_none_iff]
    refine forall₂_congr fun p _ => ?_
    rw [← Json.find?_smallerMembers]
    constructor
    · intro h v hv
      obtain ⟨m, hm, rfl⟩ := Option.map_eq_some_iff.1 hv
      exact h m hm
    · intro h m hm
      exact h m.2.1 (by rw [hm]; rfl)
  | values s =>
    simp only [List.findSome?_eq_none_iff, Option.map_eq_none_iff]
    rfl
  | items s =>
    simp only [List.findSome?_eq_none_iff, Option.map_eq_none_iff]
    conv_rhs => rw [← List.zipIdx_map_fst 0 j.smallerItems, List.forall_mem_map]
    rfl
  | _ => rfl

theorem meets_properties {ps : List (String × Schema)} : Meets defs [.properties ps] j ↔
    ∀ p ∈ ps, ∀ v, j.get? p.1 = some v → Fits defs p.2 v :=
  meets_singleton (.properties ps) j

theorem meets_values :
    Meets defs [.values s] (.obj members) ↔ ∀ m ∈ members, Fits defs s m.2 :=
  (meets_singleton (.values s) (.obj members)).trans
    (Json.forall_mem_smallerMembers (p := fun m => Fits defs s m.2))

theorem meets_items {items : List Json} :
    Meets defs [.items s] (.arr items) ↔ ∀ v ∈ items, Fits defs s v :=
  (meets_singleton (.items s) (.arr items)).trans Json.forall_mem_smallerItems

/-! ## Rules about a value as a whole -/

section Shallow

variable {p : Prop} [Decidable p] {message : String}

theorem unless_broken_iff : (if p then none else r.broken message) = none ↔ p := by
  rw [Rule.broken]
  split <;> simp [*]

theorem if_broken_iff : (if p then r.broken message else none) = none ↔ ¬ p := by
  rw [Rule.broken]
  split <;> simp [*]

/-- A rule about quantities that is met by those of which something does not hold. -/
theorem quantity_broken_iff {P : Quantity → Prop} [DecidablePred P] {messages : Quantity → String}
    {q : Quantity} (hq : Rule.quantity? j = some q) :
    ((Rule.quantity? j).bind fun q => if P q then r.broken (messages q) else none) = none ↔
      ¬ P q := by
  rw [hq]
  exact if_broken_iff

end Shallow

theorem meets_kind {t : TypeName} : Meets defs [.kind t] j ↔ t.holds j = true :=
  (meets_singleton (.kind t) j).trans unless_broken_iff

theorem meets_required {keys : List String} : Meets defs [.required keys] (.obj members) ↔
    ∀ key ∈ keys, (Json.lookup key members).isSome := by
  refine (meets_singleton (.required keys) (.obj members)).trans ?_
  refine Option.bind_eq_none_iff.trans ?_
  simp [Rule.broken, Option.isSome_iff_ne_none, ← Option.eq_none_iff_forall_ne_some]

theorem meets_closed {known : List String} :
    Meets defs [.closed known] (.obj members) ↔ ∀ m ∈ members, m.1 ∈ known := by
  refine (meets_singleton (.closed known) (.obj members)).trans ?_
  change (Rule.closed known).shallow (.obj members) = none ↔ _
  rw [Rule.shallow]
  split
  case h_1 hnone => simpa [List.filter_eq_nil_iff] using hnone
  case h_2 hsome =>
    refine iff_of_false (fun h => nomatch h) fun hall => hsome (List.filter_eq_nil_iff.2 ?_)
    simpa [List.forall_mem_map] using hall

theorem meets_constant {value : String} : Meets defs [.constant value] j ↔ j = .str value := by
  refine ((meets_singleton (.constant value) j).trans unless_broken_iff).trans ?_
  cases j <;> simp [Json.str?]

theorem meets_oneOf {allowed : List Json} :
    Meets defs [.oneOf allowed] j ↔ Rule.allows allowed j = true :=
  (meets_singleton (.oneOf allowed) j).trans unless_broken_iff

theorem meets_form {f : TextForm} {t : String} :
    Meets defs [.form f] (.str t) ↔ f.holds t = true :=
  (meets_singleton (.form f) (.str t)).trans unless_broken_iff

theorem meets_filledText {t : String} : Meets defs [.filledText] (.str t) ↔ t ≠ "" :=
  (meets_singleton .filledText (.str t)).trans if_broken_iff

theorem meets_mostItems {most : Nat} {items : List Json} :
    Meets defs [.mostItems most] (.arr items) ↔ items.length ≤ most :=
  ((meets_singleton (.mostItems most) (.arr items)).trans if_broken_iff).trans Nat.not_lt

theorem meets_filledArray {items : List Json} :
    Meets defs [.filledArray] (.arr items) ↔ items ≠ [] := by
  refine (meets_singleton .filledArray (.arr items)).trans ?_
  cases items <;> simp [Rule.shallow, Rule.broken]

theorem meets_filledObject : Meets defs [.filledObject] (.obj members) ↔ members ≠ [] := by
  refine (meets_singleton .filledObject (.obj members)).trans ?_
  cases members <;> simp [Rule.shallow, Rule.broken]

theorem meets_keys {f : TextForm} :
    Meets defs [.keys f] (.obj members) ↔ ∀ m ∈ members, f.holds m.1 = true := by
  refine (meets_singleton (.keys f) (.obj members)).trans (Option.bind_eq_none_iff.trans ?_)
  simp [Rule.broken, ← Option.eq_none_iff_forall_ne_some]

variable {bound : Int} {q : Quantity}

theorem meets_least (hq : Rule.quantity? j = some q) :
    Meets defs [.least bound] j ↔ (Quantity.whole bound).key ≤ q.key :=
  ((meets_singleton (.least bound) j).trans (quantity_broken_iff hq)).trans Int.not_lt

theorem meets_most (hq : Rule.quantity? j = some q) :
    Meets defs [.most bound] j ↔ q.key ≤ (Quantity.whole bound).key :=
  ((meets_singleton (.most bound) j).trans (quantity_broken_iff hq)).trans Int.not_lt

theorem meets_above (hq : Rule.quantity? j = some q) :
    Meets defs [.above bound] j ↔ (Quantity.whole bound).key < q.key :=
  ((meets_singleton (.above bound) j).trans (quantity_broken_iff hq)).trans Int.not_le

end Schema

/-! ## Kinds of values -/

/-- **The values of a kind.** -/
theorem TypeName.holds_iff (t : TypeName) (j : Json) : t.holds j = true ↔
    match t with
    | object => ∃ members, j = .obj members
    | array => ∃ items, j = .arr items
    | string => ∃ t, j = .str t
    | integer => (∃ i, j = .int i) ∨
        ∃ negative n, j = .float (.finite negative n) ∧ n % Binary64.unit = 0
    | number => (∃ i, j = .int i) ∨ ∃ x, j = .float x
    | boolean => ∃ b, j = .bool b := by
  cases t with
  | integer =>
    cases j with
    | float x => cases x <;> simp [holds]
    | _ => simp [holds]
  | _ => cases j <;> simp [holds]

/-- A value of a kind whose values are all written alike. -/
theorem Schema.meets_kind_cons {defs : Definitions} {α : Type} {t : TypeName} {f : α → Json}
    {r : Rule} {rs : List Rule} {j : Json} (hkind : t.holds j = true ↔ ∃ a, j = f a) :
    Meets defs (.kind t :: r :: rs) j ↔ ∃ a, j = f a ∧ Meets defs (r :: rs) (f a) := by
  rw [meets_cons_cons, meets_kind, hkind, ← exists_and_right]
  refine exists_congr fun a => and_congr_right fun hj => ?_
  rw [hj]

/-! ## Whole numbers -/

/-- **A value is a whole number**, written as one or as a binary64 number without a fraction. -/
def Json.IsWhole (j : Json) (i : Int) : Prop :=
  j = .int i ∨ ∃ negative n, j = .float (.finite negative n) ∧
    (Binary64.finite negative n).key = i * Binary64.unit

theorem Json.IsWhole.quantity?_eq {j : Json} {i : Int} (h : j.IsWhole i) :
    ∃ q, Rule.quantity? j = some q ∧ q.key = i * Binary64.unit := by
  obtain rfl | ⟨negative, n, rfl, hkey⟩ := h
  · exact ⟨.whole i, rfl, rfl⟩
  · exact ⟨.binary (.finite negative n), rfl, hkey⟩

theorem Json.exists_isWhole_iff {j : Json} :
    TypeName.integer.holds j = true ↔ ∃ i, j.IsWhole i := by
  refine (TypeName.holds_iff .integer j).trans ⟨?_, ?_⟩
  · rintro (⟨i, rfl⟩ | ⟨negative, n, rfl, h⟩)
    · exact ⟨i, .inl rfl⟩
    · obtain ⟨k, hk⟩ := Nat.dvd_of_mod_eq_zero h
      have hk : (n : Int) = k * Binary64.unit := by rw [hk, Int.natCast_mul, Int.mul_comm]
      refine ⟨if negative then -k else k, .inr ⟨negative, n, rfl, ?_⟩⟩
      cases negative with
      | false => exact hk
      | true => exact (congrArg _ hk).trans (Int.neg_mul ..).symm
  · rintro ⟨i, rfl | ⟨negative, n, rfl, hkey⟩⟩
    · exact .inl ⟨i, rfl⟩
    · have hdvd : (Binary64.unit : Int) ∣ n := by
        cases negative with
        | false => exact ⟨i, by rw [Int.mul_comm]; exact hkey⟩
        | true => exact ⟨-i, by rw [Int.mul_comm, Int.neg_mul]; exact (Int.neg_eq_comm.1 hkey).symm⟩
      exact .inr ⟨negative, n, rfl, Nat.mod_eq_zero_of_dvd (Int.natCast_dvd_natCast.1 hdvd)⟩

/-- A whole number is read as it is written. -/
theorem Json.IsWhole.whole_eq {j : Json} {i : Int} (h : j.IsWhole i) : j.whole = .ok i := by
  obtain rfl | ⟨negative, n, rfl, hkey⟩ := h
  · rfl
  · have hpos : (0 : Int) < Binary64.unit := Int.natCast_pos.2 Binary64.unit_pos
    have hwhole : Json.truncated? (.finite negative n) = some i := by
      cases negative with
      | false =>
        have hkey : (n : Int) = i * Binary64.unit := hkey
        rw [Json.truncated?, Int.natCast_ediv, hkey, Int.mul_ediv_cancel _ hpos.ne']
        rfl
      | true =>
        have hkey : -(n : Int) = i * Binary64.unit := hkey
        have hn : (n : Int) = -i * Binary64.unit := by rw [Int.neg_mul, ← hkey, Int.neg_neg]
        rw [Json.truncated?, Int.natCast_ediv, hn, Int.mul_ediv_cancel _ hpos.ne']
        exact congrArg some (Int.neg_neg i)
    rw [Json.whole, hwhole]

/-! ## Building blocks -/

namespace Contract

open Schema

variable {defs : Definitions} {s : Schema} {j : Json}

theorem fits_anyText : Fits defs anyText j ↔ ∃ t, j = .str t :=
  meets_kind.trans (TypeName.holds_iff .string j)

theorem fits_truth : Fits defs truth j ↔ ∃ b, j = .bool b :=
  meets_kind.trans (TypeName.holds_iff .boolean j)

theorem fits_filled : Fits defs filled j ↔ ∃ t, j = .str t ∧ t ≠ "" := by
  rw [filled, fits_direct, meets_kind_cons (TypeName.holds_iff .string j)]
  simp only [meets_filledText]

theorem fits_listOf : Fits defs (listOf s) j ↔
    ∃ items, j = .arr items ∧ ∀ v ∈ items, Fits defs s v := by
  rw [listOf, fits_direct, meets_kind_cons (TypeName.holds_iff .array j)]
  simp only [meets_items]

theorem fits_mapOf : Fits defs (mapOf s) j ↔
    ∃ members, j = .obj members ∧ ∀ m ∈ members, Fits defs s m.2 := by
  rw [mapOf, fits_direct, meets_kind_cons (TypeName.holds_iff .object j)]
  simp only [meets_values]

theorem fits_words {ws : List String} : Fits defs (words ws) j ↔ ∃ w ∈ ws, j = .str w := by
  rw [words, fits_direct, meets_oneOf]
  cases j <;> simp [Rule.allows]

theorem fits_wholeFrom {bound : Int} :
    Fits defs (wholeFrom bound) j ↔ ∃ i, j.IsWhole i ∧ bound ≤ i := by
  have hpos : (0 : Int) < Binary64.unit := Int.natCast_pos.2 Binary64.unit_pos
  rw [wholeFrom, fits_direct, meets_cons_cons, meets_kind, Json.exists_isWhole_iff,
    ← exists_and_right]
  refine exists_congr fun i => and_congr_right fun hi => ?_
  obtain ⟨q, hq, hkey⟩ := hi.quantity?_eq
  rw [meets_least hq, hkey]
  exact Int.mul_le_mul_iff_of_pos_right hpos

theorem fits_wholeBetween {low high : Int} :
    Fits defs (wholeBetween low high) j ↔ ∃ i, j.IsWhole i ∧ low ≤ i ∧ i ≤ high := by
  have hpos : (0 : Int) < Binary64.unit := Int.natCast_pos.2 Binary64.unit_pos
  rw [wholeBetween, fits_direct, meets_cons_cons, meets_kind, Json.exists_isWhole_iff,
    ← exists_and_right, meets_cons_cons]
  refine exists_congr fun i => and_congr_right fun hi => ?_
  obtain ⟨q, hq, hkey⟩ := hi.quantity?_eq
  rw [meets_least hq, meets_most hq, hkey]
  exact and_congr (Int.mul_le_mul_iff_of_pos_right hpos) (Int.mul_le_mul_iff_of_pos_right hpos)

/-! ## Records -/

/-- **The members of a record**: no other keys than its fields, all that have to be there, and each
value fits the schema of its field. -/
structure IsRecord (defs : Definitions) (fields : List (String × Bool × Schema))
    (members : List (String × Json)) : Prop where
  required : ∀ f ∈ fields, f.2.1 = true → (Json.lookup f.1 members).isSome
  known : ∀ m ∈ members, m.1 ∈ fields.map (·.1)
  fits : ∀ f ∈ fields, ∀ v, Json.lookup f.1 members = some v → Fits defs f.2.2 v

theorem isRecord_iff {fields : List (String × Bool × Schema)} {members : List (String × Json)} :
    IsRecord defs fields members ↔
      (∀ f ∈ fields, f.2.1 = true → (Json.lookup f.1 members).isSome) ∧
        (∀ m ∈ members, m.1 ∈ fields.map (·.1)) ∧
          ∀ f ∈ fields, ∀ v, Json.lookup f.1 members = some v → Fits defs f.2.2 v :=
  ⟨fun h => ⟨h.required, h.known, h.fits⟩, fun h => ⟨h.1, h.2.1, h.2.2⟩⟩

/-- **Members in the order of some fields**, each of which fits its schema, make a record; fields
that may be left out may be missing. -/
theorem IsRecord.of_forall₂ {fields shown : List (String × Bool × Schema)}
    {members : List (String × Json)} (hnodup : (fields.map (·.1)).Nodup)
    (hsub : shown.Sublist fields) (hrequired : ∀ f ∈ fields, f.2.1 = true → f ∈ shown)
    (h : List.Forall₂ (fun f m => f.1 = m.1 ∧ Fits defs f.2.2 m.2) shown members) :
    IsRecord defs fields members where
  required f hf hreq := by
    obtain ⟨m, hm, hkey, -⟩ := Sequence.exists_of_mem_left h (hrequired f hf hreq)
    rw [Json.lookup, Option.isSome_map, List.find?_isSome]
    exact ⟨m, hm, beq_iff_eq.2 hkey.symm⟩
  known m hm := by
    obtain ⟨f, hf, hkey, -⟩ := Sequence.exists_of_mem_left h.flip hm
    exact hkey ▸ List.mem_map_of_mem (hsub.subset hf)
  fits f hf v hv := by
    obtain ⟨f', hf', hkey, hfits⟩ := Sequence.exists_of_mem_left h.flip (Json.mem_of_lookup hv)
    obtain rfl := List.inj_on_of_nodup_map hnodup (hsub.subset hf') hf hkey
    exact hfits

/-- If the last field may be left out, the others hold all that have to be there. -/
theorem mem_dropLast {fields : List (String × Bool × Schema)} {f last : String × Bool × Schema}
    (hlast : fields.getLast? = some last) (hoptional : last.2.1 = false) (hf : f ∈ fields)
    (hrequired : f.2.1 = true) : f ∈ fields.dropLast := by
  rw [← List.dropLast_append_getLast? last hlast] at hf
  obtain hf | hf := List.mem_append.1 hf
  · exact hf
  · obtain rfl := List.mem_singleton.1 hf
    cases hoptional.symm.trans hrequired

/-- A record with one more field, which was left out. -/
theorem IsRecord.append {fields : List (String × Bool × Schema)} {members : List (String × Json)}
    {f : String × Bool × Schema} {v : Json} (hnodup : (fields.map (·.1)).Nodup)
    (h : IsRecord defs fields members) (hf : f ∈ fields) (hv : Fits defs f.2.2 v) :
    IsRecord defs fields (members ++ [(f.1, v)]) where
  required g hg hreq := by
    rw [Json.lookup, Option.isSome_map, List.find?_isSome]
    have hsome := h.required g hg hreq
    rw [Json.lookup, Option.isSome_map, List.find?_isSome] at hsome
    obtain ⟨m, hm, hkey⟩ := hsome
    exact ⟨m, List.mem_append_left _ hm, hkey⟩
  known m hm := by
    obtain hm | hm := List.mem_append.1 hm
    · exact h.known m hm
    · obtain rfl := List.mem_singleton.1 hm
      exact List.mem_map_of_mem hf
  fits g hg w hw := by
    rw [Json.lookup, List.find?_append, Option.map_or] at hw
    obtain hw | ⟨-, hw⟩ := Option.or_eq_some_iff.1 hw
    · exact h.fits g hg w hw
    · have heq := List.mem_singleton.1 (Json.mem_of_lookup hw)
      obtain ⟨hkey, rfl⟩ := Prod.mk.inj heq
      obtain rfl := List.inj_on_of_nodup_map hnodup hg hf hkey
      exact hv

theorem meets_recordRules {fields : List (String × Bool × Schema)} :
    Meets defs (recordRules fields) j ↔
      ∃ members, j = .obj members ∧ IsRecord defs fields members := by
  rw [recordRules, meets_kind_cons (TypeName.holds_iff .object j)]
  refine exists_congr fun members => and_congr_right fun _ => ?_
  rw [meets_cons_cons, meets_cons_cons, meets_required, meets_closed, meets_properties]
  simp only [Json.get?, List.forall_mem_map, List.mem_filter]
  exact ⟨fun h => ⟨fun f hf hreq => h.1 f ⟨hf, hreq⟩, h.2.1, h.2.2⟩,
    fun h => ⟨fun f hf => h.required f hf.1 hf.2, h.known, h.fits⟩⟩

end Contract
end Conventions
