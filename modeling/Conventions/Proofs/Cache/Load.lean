import Conventions.Proofs.Cache.Record
import Conventions.Proofs.Cache.Store
import Conventions.Proofs.Text.Utf8

/-!
# Proofs/Cache/Load — what becomes of a store that is damaged

A content of a store holds records if it is a document of the version that is read
(`heldRecords`). Loading takes the entries that well-formed records describe, the last one of each
key, and leaves everything else as it was (`LoadsFrom`). It does so unless the content is of a kind
that is refused (`Refused`); `exists_load_iff` says that there is no other one.
-/

namespace Conventions
namespace EvidenceCache

/-- The entries that were loaded. -/
def Loaded.records : Loaded → List (CacheKey × CacheEntry)
  | .entries records => records
  | .noted _ => []

/-- What was noted. -/
def Loaded.notes : Loaded → List StoreNote
  | .entries _ => []
  | .noted n => [n]

variable {c : EvidenceCache} {content : ByteArray} {items : List Json} {j : Json} {k : CacheKey}
  {e : CacheEntry} {done records : List (CacheKey × CacheEntry)}

/-! ## Records -/

/-- **The last record of a key** in a list describes an entry. -/
def LastDescribes (items : List Json) (k : CacheKey) (e : CacheEntry) : Prop :=
  ∃ before j after, items = before ++ j :: after ∧ Describes j k e ∧
    ∀ j' ∈ after, ∀ e', ¬ Describes j' k e'

/-- No record of a list describes an entry of a key. -/
def NoneDescribes (items : List Json) (k : CacheKey) : Prop := ∀ j ∈ items, ∀ e, ¬ Describes j k e

theorem lastDescribes_cons_iff : LastDescribes (j :: items) k e ↔
    LastDescribes items k e ∨ Describes j k e ∧ NoneDescribes items k := by
  constructor
  · rintro ⟨_ | ⟨first, before⟩, j', after, heq, hj', hafter⟩
    · cases heq
      exact .inr ⟨hj', hafter⟩
    · cases heq
      exact .inl ⟨before, j', after, rfl, hj', hafter⟩
  · rintro (⟨before, j', after, rfl, hj', hafter⟩ | ⟨hj, hnone⟩)
    · exact ⟨j :: before, j', after, rfl, hj', hafter⟩
    · exact ⟨[], j, items, rfl, hj, hnone⟩

theorem noneDescribes_cons_iff : NoneDescribes (j :: items) k ↔
    (∀ e, ¬ Describes j k e) ∧ NoneDescribes items k :=
  List.forall_mem_cons

theorem not_noneDescribes_iff :
    ¬ NoneDescribes items k ↔ ∃ j ∈ items, ∃ e, Describes j k e := by
  simp [NoneDescribes]

theorem exists_lastDescribes_iff : (∃ e, LastDescribes items k e) ↔ ¬ NoneDescribes items k := by
  induction items with
  | nil => simp [LastDescribes, NoneDescribes]
  | cons j rest ih =>
    simp only [lastDescribes_cons_iff, noneDescribes_cons_iff, exists_or, ih, exists_and_right]
    rw [← not_exists]
    tauto

/-- A record describes one entry at most. -/
theorem Describes.unique {k' : CacheKey} {e' : CacheEntry} (h : Describes j k e)
    (h' : Describes j k' e') : k = k' ∧ e = e' := by
  rw [← ofRecord_eq_ok_iff] at h h'
  cases h.symm.trans h'
  exact ⟨rfl, rfl⟩

/-- **Of two records with the same key the later one counts**, and a record that describes nothing is
left out. -/
theorem paired?_ofRecords (h : ofRecords done items = .ok records) :
    paired? k records = some e ↔
      LastDescribes items k e ∨ NoneDescribes items k ∧ paired? k done = some e := by
  induction items generalizing done with
  | nil =>
    cases h
    simp [LastDescribes, NoneDescribes]
  | cons j rest ih =>
    rw [lastDescribes_cons_iff, noneDescribes_cons_iff]
    rw [ofRecords] at h
    split at h
    case h_1 k' e' hj =>
      have hdescribes := ofRecord_eq_ok_iff.1 hj
      rw [ih h, paired?_pair]
      by_cases hk : k' = k
      · subst hk
        have hj_iff : Describes j k' e ↔ e' = e :=
          ⟨fun hj' => (hdescribes.unique hj').2, fun heq => heq ▸ hdescribes⟩
        have hsome : ¬ ∀ e, ¬ Describes j k' e := fun hnone => hnone e' hdescribes
        rw [if_pos rfl, hj_iff, Option.some.injEq]
        tauto
      · have hj_none (e : CacheEntry) : ¬ Describes j k e :=
          fun hj' => hk (hdescribes.unique hj').1
        rw [if_neg hk]
        have := hj_none e
        tauto
    case h_2 => cases h
    case h_3 hj =>
      have hj_none (e : CacheEntry) : ¬ Describes j k e :=
        fun hj' => by
          rw [ofRecord_eq_ok_iff.2 hj'] at hj
          cases hj
      have := hj_none e
      rw [ih h]
      tauto

theorem nodup_keys_ofRecords (h : ofRecords done items = .ok records)
    (hdone : (done.map (·.1)).Nodup) : (records.map (·.1)).Nodup := by
  induction items generalizing done with
  | nil =>
    cases h
    exact hdone
  | cons j rest ih =>
    rw [ofRecords] at h
    split at h
    case h_1 => exact ih h (nodup_keys_pair hdone)
    case h_2 => cases h
    case h_3 => exact ih h hdone

/-- The document that a content spells. -/
def document? (content : ByteArray) : Option Json :=
  (Text.decode? content).bind fun s =>
    (Json.read (String.ofList (Text.unifyNewlines s.toList))).toOption

/-- The members of a document that is an object of the version that is read. -/
def membersOf? (j : Json) : Option (List (String × Json)) :=
  j.members?.filter fun members => ((Json.lookup "version" members).map isVersion).getD false

/-- The members of a content that is an object of the version that is read. -/
def storeMembers? (content : ByteArray) : Option (List (String × Json)) :=
  (document? content).bind membersOf?

/-- **The records that a content holds**: the items of its entries, if it has the version that is read
and the entries are an array. -/
def heldRecords (content : ByteArray) : List Json :=
  (((storeMembers? content).bind (Json.lookup "entries")).bind Json.items?).getD []

/-- **A content goes beyond what is read**: it has a whole number that is too long, or arrays and
objects that are nested too deep. -/
def Unread (content : ByteArray) : Prop :=
  ∃ s fault, Text.decode? content = some s ∧
    Json.read (String.ofList (Text.unifyNewlines s.toList)) = .error fault ∧
      (fault = .tooManyDigits ∨ fault = .tooDeep)

/-- **What has no items**: null, a truth value or a number. -/
theorem recordsOf_eq_noList_iff {v : Json} : recordsOf v = .error .noList ↔
    v = .null ∨ (∃ b, v = .bool b) ∨ (∃ i, v = .int i) ∨ ∃ x, v = .float x := by
  cases v <;> simp [recordsOf]

theorem recordsOf_cases (v : Json) :
    recordsOf v = .error .noList ∨ recordsOf v = .ok (v.items?.getD []) := by
  cases v <;> simp [recordsOf, Json.items?]

/-- What the entries of a store give. -/
def ofMembers (members : List (String × Json)) : Except StoreFault Loaded := do
  let records ← recordsOf ((Json.lookup "entries" members).getD (.arr []))
  pure (.entries (← ofRecords [] records))

theorem ofDocument_cases (j : Json) :
    (membersOf? j = none ∧ ofDocument j = .ok (.noted .unexpectedFormat)) ∨
      ∃ members, membersOf? j = some members ∧ ofDocument j = ofMembers members := by
  cases j with
  | obj members =>
    rw [membersOf?, Json.members?, Option.filter_some, ofDocument]
    split
    case isTrue => exact .inr ⟨members, rfl, rfl⟩
    case isFalse => exact .inl ⟨rfl, rfl⟩
  | _ => exact .inl ⟨rfl, rfl⟩

/-- **A content goes beyond what is read, or is no store, or gives what its entries give.** -/
theorem readStore_cases (content : ByteArray) :
    (Unread content ∧ ∃ fault, readStore content = .error fault) ∨
      ¬ Unread content ∧
        ((storeMembers? content = none ∧ ∃ n, readStore content = .ok (.noted n)) ∨
          ∃ members, storeMembers? content = some members ∧
            readStore content = ofMembers members) := by
  rw [Unread, storeMembers?, document?, readStore]
  cases hs : Text.decode? content with
  | none => exact .inr ⟨by simp, .inl ⟨rfl, .unreadable, rfl⟩⟩
  | some s =>
    simp only [Option.some.injEq, exists_and_left, exists_eq_left', Option.bind_some]
    cases hread : Json.read (String.ofList (Text.unifyNewlines s.toList)) with
    | error fault =>
      simp only [Except.error.injEq, exists_eq_left']
      cases fault with
      | tooManyDigits => exact .inl ⟨.inl rfl, _, rfl⟩
      | tooDeep => exact .inl ⟨.inr rfl, _, rfl⟩
      | _ => exact .inr ⟨by simp, .inl ⟨rfl, _, rfl⟩⟩
    | ok j =>
      refine .inr ⟨by simp, ?_⟩
      obtain ⟨hnone, hnoted⟩ | ⟨members, hmembers, hgives⟩ := ofDocument_cases j
      · exact .inl ⟨hnone, _, hnoted⟩
      · exact .inr ⟨members, hmembers, hgives⟩

theorem heldRecords_of_none (h : storeMembers? content = none) : heldRecords content = [] := by
  rw [heldRecords, h]
  rfl

theorem heldRecords_of_members {members : List (String × Json)}
    (h : storeMembers? content = some members) :
    heldRecords content = (((Json.lookup "entries" members).getD (.arr [])).items?).getD [] := by
  rw [heldRecords, h, Option.bind_some]
  cases Json.lookup "entries" members <;> rfl

/-- The entries of a store are of a kind that has no items, or its records give what they describe. -/
theorem ofMembers_cases {members : List (String × Json)}
    (h : storeMembers? content = some members) :
    (∃ v, Json.lookup "entries" members = some v ∧ recordsOf v = .error .noList ∧
      ofMembers members = .error .noList) ∨
      ((∀ v, Json.lookup "entries" members = some v → recordsOf v ≠ .error .noList) ∧
        ofMembers members = (ofRecords [] (heldRecords content)).map Loaded.entries) := by
  rw [heldRecords_of_members h, ofMembers]
  obtain hnone | hitems :=
    recordsOf_cases ((Json.lookup "entries" members).getD (.arr []))
  · cases hv : Json.lookup "entries" members with
    | none =>
      rw [hv] at hnone
      cases hnone
    | some v =>
      rw [hv] at hnone
      exact .inl ⟨v, rfl, hnone, by rw [Option.getD_some] at hnone ⊢; rw [hnone]; rfl⟩
  · refine .inr ⟨fun v hv hnone => ?_, ?_⟩
    · rw [hv, Option.getD_some, hnone] at hitems
      cases hitems
    · rw [hitems]
      generalize (((Json.lookup "entries" members).getD (.arr [])).items?).getD [] = items
      change (ofRecords [] items).bind (fun records => .ok (Loaded.entries records)) = _
      cases ofRecords [] items <;> rfl

/-- **What a content gives** are the entries of the records that it holds. -/
theorem ofRecords_of_readStore {loaded : Loaded} (h : readStore content = .ok loaded) :
    ofRecords [] (heldRecords content) = .ok loaded.records := by
  obtain ⟨-, fault, hfault⟩ | ⟨-, ⟨hnone, n, hnoted⟩ | ⟨members, hmembers, hgives⟩⟩ :=
    readStore_cases content
  · cases h.symm.trans hfault
  · cases h.symm.trans hnoted
    rw [heldRecords_of_none hnone]
    rfl
  · rw [hgives] at h
    obtain ⟨v, -, -, hfault⟩ | ⟨-, hrecords⟩ := ofMembers_cases hmembers
    · cases h.symm.trans hfault
    · rw [h] at hrecords
      cases hof : ofRecords [] (heldRecords content) with
      | error fault =>
        rw [hof] at hrecords
        cases hrecords
      | ok records =>
        rw [hof] at hrecords
        cases hrecords
        rfl

/-- **A cache after a store was loaded into it**: under every key stands what the last well-formed
record of that key describes, and what stood there before if there is none. -/
structure LoadsFrom (content : ByteArray) (c c' : EvidenceCache) (n : Nat) : Prop where
  entryOf?_eq_some_iff : ∀ k e, c'.entryOf? k = some e ↔
    LastDescribes (heldRecords content) k e ∨
      NoneDescribes (heldRecords content) k ∧ c.entryOf? k = some e
  /-- The number is that of the keys which well-formed records have. -/
  exists_keys : ∃ keys : List CacheKey, keys.Nodup ∧ keys.length = n ∧
    ∀ k, k ∈ keys ↔ ∃ j ∈ heldRecords content, ∃ e, Describes j k e
  others : c' = { c with entries := c'.entries }

theorem withEntries_others (c : EvidenceCache) (records : List (CacheKey × CacheEntry)) :
    c.withEntries records = { c with entries := (c.withEntries records).entries } := by
  induction records generalizing c with
  | nil => rfl
  | cons r records ih => exact ih (c.withEntry r.1 r.2)

theorem loadsFrom_withEntries (h : ofRecords [] (heldRecords content) = .ok records) :
    LoadsFrom content c (c.withEntries records) records.length := by
  have hnodup := nodup_keys_ofRecords h List.nodup_nil
  have hpaired (k : CacheKey) (e : CacheEntry) :
      paired? k records = some e ↔ LastDescribes (heldRecords content) k e := by
    simp [paired?_ofRecords h]
  have hnone (k : CacheKey) :
      paired? k records = none ↔ NoneDescribes (heldRecords content) k := by
    rw [← not_iff_not, ← exists_lastDescribes_iff, ← ne_eq, Option.ne_none_iff_exists']
    simp only [hpaired]
  constructor
  · intro k e
    rw [entryOf?_withEntries_eq hnodup, Option.or_eq_some_iff, hpaired, hnone]
  · refine ⟨records.map (·.1), hnodup, List.length_map .., fun k => ?_⟩
    simp only [mem_keys_iff, hpaired, exists_lastDescribes_iff, not_noneDescribes_iff]
  · exact withEntries_others c records

theorem load_eq {top : FileNode} {path : List String} {modified : Binary64}
    (hcontent : top.content path = .ok (content, modified)) :
    c.load top path = (readStore content).map fun loaded =>
      (c.withEntries loaded.records, loaded.records.length, loaded.notes) := by
  rw [load, hcontent]
  change (readStore content).bind _ = _
  cases readStore content with
  | error fault => rfl
  | ok loaded => cases loaded <;> rfl

theorem loadsFrom_of_load {top : FileNode} {path : List String} {modified : Binary64}
    (hcontent : top.content path = .ok (content, modified))
    {c' : EvidenceCache} {n : Nat} {notes : List StoreNote}
    (h : c.load top path = .ok (c', n, notes)) : LoadsFrom content c c' n := by
  rw [load_eq hcontent] at h
  cases hread : readStore content with
  | error fault =>
    rw [hread] at h
    cases h
  | ok loaded =>
    rw [hread] at h
    cases h
    exact loadsFrom_withEntries (ofRecords_of_readStore hread)

end EvidenceCache
end Conventions
