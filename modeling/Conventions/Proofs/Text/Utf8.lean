import Conventions.Syntax.Source
import Mathlib.Algebra.Group.Nat.Defs
import Mathlib.Tactic.SplitIfs

/-!
# Proofs/Text/Utf8 — bytes as lists, and what decoding keeps

The bytes of a span are a stretch of the bytes of the file (`bytesOf_eq`). Decoding keeps every
solidus (`solidus_mem_decodeLossy`): its byte is never taken for a part of a longer character. What
is written as bytes is read again (`decodeLossy_utf8Encode`). A text that is all ASCII was read off
single bytes, so that a part of its bytes is shown as a part of it (`Source.slice_infix`).
-/

namespace Conventions
namespace Text

/-! ## Bytes as a list -/

theorem toList_loop (bs : ByteArray) (i : Nat) (read : List UInt8) :
    ByteArray.toList.loop bs i read = read.reverse ++ bs.data.toList.drop i := by
  rw [ByteArray.toList.loop]
  split
  case isTrue hi =>
    have hlt : i < bs.data.toList.length := hi
    rw [toList_loop bs (i + 1), List.drop_eq_getElem_cons hlt, List.reverse_cons, List.append_assoc,
      List.singleton_append]
    rw [show bs.get! i = bs.data.toList[i] from getElem!_pos bs.data i hi]
  case isFalse hi =>
    rw [List.drop_eq_nil_of_le (Nat.le_of_not_lt hi), List.append_nil]
  termination_by bs.size - i

theorem toList_eq (bs : ByteArray) : bs.toList = bs.data.toList := toList_loop bs 0 []

/-- **The bytes of a text are read as that text.** -/
theorem decode?_toUTF8 (s : String) : decode? s.toUTF8 = some s := by
  have hvalid : s.toUTF8.IsValidUTF8 := s.isValidUTF8
  rw [decode?, String.fromUTF8?, dif_pos hvalid]
  rfl

/-- **Bytes are read as a text** exactly if they are the bytes of that text. -/
theorem decode?_eq_some_iff {bytes : ByteArray} {s : String} :
    decode? bytes = some s ↔ s.toUTF8 = bytes := by
  constructor
  · intro h
    rw [decode?, String.fromUTF8?] at h
    split at h
    case isTrue hvalid =>
      obtain rfl := Option.some.inj h
      rfl
    case isFalse => cases h
  · rintro rfl
    exact decode?_toUTF8 s

end Text

theorem Source.bytesOf_eq (s : Source) (span : Span) :
    s.bytesOf span = (s.bytes.data.toList.take span.stop).drop span.start := by
  rw [bytesOf, Text.toList_eq, ByteArray.data_extract, Array.toList_extract, List.extract,
    List.drop_take]

namespace Text

/-! ## The solidus -/

theorem solidus_mem_continuation {count : Nat} {low high : UInt8} {code : Nat} {bs : List UInt8}
    (hlow : 0x80 ≤ low) (h : 0x2F ∈ bs) : 0x2F ∈ (continuation count low high code bs).2.2 := by
  induction count generalizing low high code bs with
  | zero => exact h
  | succ count ih =>
    cases bs with
    | nil => cases h
    | cons b rest =>
      rw [continuation]
      split
      case isTrue hb =>
        -- a continuation byte is at least 0x80, so it is not the solidus
        have hne : 0x2F ≠ b := by
          rintro rfl
          exact absurd (UInt8.le_trans hlow hb.1) (by decide)
        exact ih (by decide) ((List.mem_cons.1 h).resolve_left hne)
      case isFalse => exact h

theorem low_of_leadInfo? {b low high : UInt8} {count : Nat}
    (h : leadInfo? b = some (count, low, high)) : 0x80 ≤ low := by
  unfold leadInfo? at h
  repeat' split at h
  all_goals cases h
  all_goals decide

/-- **Decoding keeps every solidus.** -/
theorem solidus_mem_decodeLossy (bs : List UInt8) (h : 0x2F ∈ bs) : '/' ∈ decodeLossy bs := by
  induction bs using decodeLossy.induct with
  | case1 => cases h
  | case2 b rest hb ih =>
    rw [decodeLossy, if_pos hb]
    obtain rfl | h := List.mem_cons.1 h
    · exact List.mem_cons_self
    · exact List.mem_cons_of_mem _ (ih h)
  | case3 b rest hb hlead ih =>
    rw [decodeLossy, if_neg hb, hlead]
    obtain rfl | h := List.mem_cons.1 h
    · exact absurd (by decide) hb
    · exact List.mem_cons_of_mem _ (ih h)
  | case4 b rest hb count low high hlead step _ ih =>
    rw [decodeLossy, if_neg hb, hlead]
    obtain rfl | h := List.mem_cons.1 h
    · exact absurd (by decide) hb
    · exact List.mem_cons_of_mem _ (ih (solidus_mem_continuation (low_of_leadInfo? hlead) h))

/-! ## Characters as bytes -/

theorem toNat_byte {n : Nat} (h : n < 256) : (UInt8.ofNat n).toNat = n :=
  UInt8.toNat_ofNat_of_lt h

theorem leadInfo?_eq (b : UInt8) : leadInfo? b =
    if b.toNat < 0xC2 then none
    else if b.toNat < 0xE0 then some (1, 0x80, 0xBF)
    else if b.toNat = 0xE0 then some (2, 0xA0, 0xBF)
    else if b.toNat = 0xED then some (2, 0x80, 0x9F)
    else if b.toNat < 0xF0 then some (2, 0x80, 0xBF)
    else if b.toNat = 0xF0 then some (3, 0x90, 0xBF)
    else if b.toNat < 0xF4 then some (3, 0x80, 0xBF)
    else if b.toNat = 0xF4 then some (3, 0x80, 0x8F)
    else none := by
  simp only [leadInfo?, UInt8.lt_iff_toNat_lt, ← UInt8.toNat_inj]
  rfl

section Encoding

variable {v : Nat} (hvalid : v < 0xD800 ∨ 0xDFFF < v ∧ v < 0x110000)

/-- The first byte of a character of two bytes. -/
theorem leadInfo?_one (hlow : 0x7F < v) (hhigh : v ≤ 0x7FF) :
    leadInfo? (UInt8.ofNat (v / 64 % 32 + 192)) = some (1, 0x80, 0xBF) := by
  rw [leadInfo?_eq, toNat_byte (by omega), if_neg (by omega), if_pos (by omega)]

include hvalid in
/-- The first byte of a character of three bytes allows for its second one. -/
theorem leadInfo?_two (hlow : 0x7FF < v) (hhigh : v ≤ 0xFFFF) :
    ∃ low high, leadInfo? (UInt8.ofNat (v / 4096 % 16 + 224)) = some (2, low, high) ∧
      low.toNat ≤ v / 64 % 64 + 128 ∧ v / 64 % 64 + 128 ≤ high.toNat := by
  rw [leadInfo?_eq, toNat_byte (by omega), if_neg (by omega), if_neg (by omega)]
  split_ifs
  all_goals first | omega | refine ⟨_, _, rfl, ?_, ?_⟩ <;> simp only [UInt8.reduceToNat] <;> omega

include hvalid in
/-- The first byte of a character of four bytes allows for its second one. -/
theorem leadInfo?_three (hlow : 0xFFFF < v) :
    ∃ low high, leadInfo? (UInt8.ofNat (v / 262144 % 8 + 240)) = some (3, low, high) ∧
      low.toNat ≤ v / 4096 % 64 + 128 ∧ v / 4096 % 64 + 128 ≤ high.toNat := by
  rw [leadInfo?_eq, toNat_byte (by omega), if_neg (by omega), if_neg (by omega),
    if_neg (by omega), if_neg (by omega), if_neg (by omega)]
  split_ifs
  all_goals first | omega | refine ⟨_, _, rfl, ?_, ?_⟩ <;> simp only [UInt8.reduceToNat] <;> omega

end Encoding

/-- A byte that continues a character. -/
theorem continuation_cons {k n code : Nat} {low high : UInt8} (rest : List UInt8) (hn : n < 256)
    (hlow : low.toNat ≤ n) (hhigh : n ≤ high.toNat) :
    continuation (k + 1) low high code (UInt8.ofNat n :: rest) =
      continuation k 0x80 0xBF (code * 64 + (n - 0x80)) rest := by
  rw [continuation, if_pos, toNat_byte hn]
  rw [UInt8.le_iff_toNat_le, UInt8.le_iff_toNat_le, toNat_byte hn]
  exact ⟨hlow, hhigh⟩

/-- A byte that continues a character, not right after its first one. -/
theorem continuation_six {k d code : Nat} (rest : List UInt8) (hd : d < 64) :
    continuation (k + 1) 0x80 0xBF code (UInt8.ofNat (d + 128) :: rest) =
      continuation k 0x80 0xBF (code * 64 + d) rest := by
  rw [continuation_cons rest (by omega), Nat.add_sub_cancel]
  · simp only [UInt8.reduceToNat]
    omega
  · simp only [UInt8.reduceToNat]
    omega

/-- A character of several bytes. -/
theorem decodeLossy_cons {n count code : Nat} {low high : UInt8} {bs rest : List UInt8}
    (hn : 0xC2 ≤ n) (hn' : n < 256) (hlead : leadInfo? (UInt8.ofNat n) = some (count, low, high))
    (hrest : continuation count low high
      (n % (if count = 1 then 32 else if count = 2 then 16 else 8)) bs = (code, true, rest)) :
    decodeLossy (UInt8.ofNat n :: bs) = Char.ofNat code :: decodeLossy rest := by
  have hnot : ¬ UInt8.ofNat n < 0x80 := by
    rw [UInt8.lt_iff_toNat_lt, toNat_byte hn']
    exact Nat.not_lt.2 (Nat.le_trans (by decide) hn)
  rw [decodeLossy, if_neg hnot, hlead]
  simp only [leadBits, toNat_byte hn', hrest, if_true]

/-- **The bytes of a character are read as that character.** -/
theorem decodeLossy_utf8EncodeChar (c : Char) (rest : List UInt8) :
    decodeLossy (String.utf8EncodeChar c ++ rest) = c :: decodeLossy rest := by
  have hvalid : c.val.toNat < 0xD800 ∨ 0xDFFF < c.val.toNat ∧ c.val.toNat < 0x110000 := c.valid
  refine Eq.trans ?_ (congrArg (· :: decodeLossy rest) (Char.ofNat_toNat c))
  unfold String.utf8EncodeChar Char.toNat
  -- the character is its number from here on
  generalize c.val.toNat = v at hvalid
  simp only
  split
  case isTrue h =>
    have hv : (UInt8.ofNat v).toNat = v := toNat_byte (by omega)
    have hlt : UInt8.ofNat v < 0x80 := by
      rw [UInt8.lt_iff_toNat_lt, hv]
      exact Nat.lt_succ_of_le h
    rw [List.singleton_append, decodeLossy, if_pos hlt, hv]
  case isFalse h =>
    split
    case isTrue h' =>
      simp only [List.cons_append, List.nil_append]
      refine decodeLossy_cons (by omega) (by omega) (leadInfo?_one (by omega) h') ?_
      rw [continuation_six _ (by omega), continuation]
      simp only [if_true, Prod.mk.injEq, and_true]
      omega
    case isFalse h' =>
      split
      case isTrue h'' =>
        obtain ⟨low, high, hlead, hlow, hhigh⟩ := leadInfo?_two hvalid (by omega) h''
        simp only [List.cons_append, List.nil_append]
        refine decodeLossy_cons (by omega) (by omega) hlead ?_
        rw [continuation_cons _ (by omega) hlow hhigh, continuation_six _ (by omega), continuation]
        simp only [Nat.reduceEqDiff, if_false, if_true, Prod.mk.injEq, and_true]
        omega
      case isFalse h'' =>
        obtain ⟨low, high, hlead, hlow, hhigh⟩ := leadInfo?_three hvalid (by omega)
        simp only [List.cons_append, List.nil_append]
        refine decodeLossy_cons (by omega) (by omega) hlead ?_
        rw [continuation_cons _ (by omega) hlow hhigh, continuation_six _ (by omega),
          continuation_six _ (by omega), continuation]
        simp only [Nat.reduceEqDiff, if_false, Prod.mk.injEq, and_true]
        omega

/-- **The bytes of characters are read as those characters.** -/
theorem decodeLossy_utf8Encode (cs : List Char) :
    decodeLossy (cs.flatMap String.utf8EncodeChar) = cs := by
  induction cs with
  | nil => rw [List.flatMap_nil, decodeLossy]
  | cons c cs ih => rw [List.flatMap_cons, decodeLossy_utf8EncodeChar, ih]

/-! ## ASCII -/

/-- The first continuation byte adds its six bits, and those after it the rest. -/
theorem exists_of_continuation_succ {k code code' : Nat} {low high : UInt8} {bs rest : List UInt8}
    (h : continuation (k + 1) low high code bs = (code', true, rest)) :
    ∃ (b : UInt8) (bs' : List UInt8), low.toNat ≤ b.toNat ∧ b.toNat ≤ high.toNat ∧
      continuation k 0x80 0xBF (code * 64 + (b.toNat - 128)) bs' = (code', true, rest) := by
  cases bs with
  | nil => cases h
  | cons b bs =>
    rw [continuation] at h
    split at h
    case isTrue hb =>
      exact ⟨b, bs, UInt8.le_iff_toNat_le.1 hb.1, UInt8.le_iff_toNat_le.1 hb.2, h⟩
    case isFalse => cases h

theorem continuation_bounds {k code code' : Nat} {bs rest : List UInt8}
    (h : continuation k 0x80 0xBF code bs = (code', true, rest)) :
    code * 64 ^ k ≤ code' ∧ code' < (code + 1) * 64 ^ k := by
  induction k generalizing code bs with
  | zero =>
    cases h
    omega
  | succ k ih =>
    obtain ⟨b, bs', hlow, hhigh, h⟩ := exists_of_continuation_succ h
    simp only [UInt8.reduceToNat] at hlow hhigh
    obtain ⟨hge, hlt⟩ := ih h
    constructor
    · calc code * 64 ^ (k + 1) = code * 64 * 64 ^ k := by rw [Nat.pow_succ', Nat.mul_assoc]
        _ ≤ (code * 64 + (b.toNat - 128)) * 64 ^ k := Nat.mul_le_mul_right _ (by omega)
        _ ≤ code' := hge
    · calc code' < (code * 64 + (b.toNat - 128) + 1) * 64 ^ k := hlt
        _ ≤ (code + 1) * 64 * 64 ^ k := Nat.mul_le_mul_right _ (by omega)
        _ = (code + 1) * 64 ^ (k + 1) := by rw [Nat.pow_succ', Nat.mul_assoc]

/-- **A character of several bytes** is one, and not ASCII. -/
theorem isValidChar_of_leadInfo? {b low high : UInt8} {count code : Nat} {bs rest : List UInt8}
    (hlead : leadInfo? b = some (count, low, high))
    (h : continuation count low high (leadBits count b) bs = (code, true, rest)) :
    0x80 ≤ code ∧ code.isValidChar := by
  rw [leadInfo?_eq] at hlead
  split_ifs at hlead
  all_goals
    cases hlead
    obtain ⟨b', bs', hlow, hhigh, h⟩ := exists_of_continuation_succ h
    simp only [UInt8.reduceToNat] at hlow hhigh
    have hbounds := continuation_bounds h
    simp only [leadBits, Nat.reducePow, Nat.reduceEqDiff, if_true, if_false] at hbounds
    rw [Nat.isValidChar]
    omega

theorem ascii_of_decodeLossy (bs : List UInt8) (h : ∀ c ∈ decodeLossy bs, c.toNat < 0x80) :
    ∀ b ∈ bs, b < 0x80 := by
  induction bs using decodeLossy.induct with
  | case1 => simp
  | case2 b rest hb ih =>
    rw [decodeLossy, if_pos hb, List.forall_mem_cons] at h
    exact List.forall_mem_cons.2 ⟨hb, ih h.2⟩
  | case3 b rest hb hlead ih =>
    rw [decodeLossy, if_neg hb, hlead, List.forall_mem_cons] at h
    exact absurd h.1 (by decide)
  | case4 b rest hb count low high hlead step hlt ih =>
    rw [decodeLossy, if_neg hb, hlead, List.forall_mem_cons] at h
    have hfirst : (if step.2.1 then Char.ofNat step.1 else replacement).toNat < 0x80 := h.1
    split at hfirst
    case isTrue hread =>
      have hstep : continuation count low high (leadBits count b) rest =
          (step.1, true, step.2.2) := by rw [← hread]
      have hcode := isValidChar_of_leadInfo? hlead hstep
      have hchar : (Char.ofNat step.1).toNat = step.1 := by
        rw [Char.ofNat, dif_pos hcode.2]
        rfl
      omega
    case isFalse => exact absurd hfirst (by decide)

theorem decodeLossy_of_ascii (bs : List UInt8) (h : ∀ b ∈ bs, b < 0x80) :
    decodeLossy bs = bs.map fun b => Char.ofNat b.toNat := by
  induction bs with
  | nil => rw [decodeLossy, List.map_nil]
  | cons b bs ih =>
    obtain ⟨hb, hbs⟩ := List.forall_mem_cons.1 h
    rw [decodeLossy, if_pos hb, ih hbs, List.map_cons]

/-- **A part of bytes that are shown as ASCII** is shown as a part of that. -/
theorem decodeLossy_infix {cs bs : List UInt8} (hbs : ∀ c ∈ decodeLossy bs, c.toNat < 0x80)
    (h : cs <:+: bs) : decodeLossy cs <:+: decodeLossy bs := by
  have hascii := ascii_of_decodeLossy bs hbs
  rw [decodeLossy_of_ascii bs hascii,
    decodeLossy_of_ascii cs fun b hb => hascii b (h.subset hb)]
  exact h.map _

end Text

/-- **A file that holds a text** shows it, as a whole. -/
theorem Source.slice_ofList (cs : List Char) {stop : Nat}
    (hstop : (String.ofList cs).toUTF8.size ≤ stop) :
    (Source.mk (String.ofList cs).toUTF8).slice ⟨0, stop⟩ = cs := by
  have hbytes : (String.ofList cs).toUTF8.data.toList = cs.flatMap String.utf8EncodeChar := by
    rw [String.toUTF8, String.toByteArray_ofList, List.utf8Encode, List.toList_data_toByteArray]
  have hall :
      (String.ofList cs).toUTF8.data.toList.take stop = cs.flatMap String.utf8EncodeChar := by
    rw [← hbytes]
    exact List.take_of_length_le hstop
  rw [slice, bytesOf_eq, List.drop_zero, hall, Text.decodeLossy_utf8Encode]

/-- The bytes of a span that lies in another are a part of those of the other. -/
theorem Source.bytesOf_infix (s : Source) {inner outer : Span} (hstart : outer.start ≤ inner.start)
    (hstop : inner.stop ≤ outer.stop) : s.bytesOf inner <:+: s.bytesOf outer := by
  simp only [bytesOf_eq]
  generalize s.bytes.data.toList = bytes
  have htake : bytes.take inner.stop = (bytes.take outer.stop).take inner.stop := by
    rw [List.take_take, Nat.min_eq_left hstop]
  obtain ⟨d, hd⟩ := Nat.exists_eq_add_of_le hstart
  rw [htake, hd, ← List.drop_drop, List.drop_take]
  exact (List.drop_suffix d _).isInfix.trans (List.take_prefix _ _).isInfix

/-- **Within a text in ASCII**, the text of a smaller span is a part of that of the larger one. -/
theorem Source.slice_infix {s : Source} {inner outer : Span}
    (hascii : ∀ c ∈ s.slice outer, c.toNat < 0x80) (hstart : outer.start ≤ inner.start)
    (hstop : inner.stop ≤ outer.stop) : s.slice inner <:+: s.slice outer :=
  Text.decodeLossy_infix hascii (s.bytesOf_infix hstart hstop)

end Conventions
