/-!
# Text/Utf8 — bytes as text

`decode?` refuses bytes that are not well-formed; `decodeLossy` writes a replacement character for
each longest piece that begins a character and is not continued.
-/

namespace Conventions.Text

/-- The replacement character. -/
def replacement : Char := '\uFFFD'

/-- The bytes as text, if they are well-formed. -/
def decode? (bytes : ByteArray) : Option String := String.fromUTF8? bytes

/-- How many continuation bytes follow a first byte, and the range of the first of them. -/
def leadInfo? (b : UInt8) : Option (Nat × UInt8 × UInt8) :=
  if b < 0xC2 then none
  else if b < 0xE0 then some (1, 0x80, 0xBF)
  else if b = 0xE0 then some (2, 0xA0, 0xBF)
  else if b = 0xED then some (2, 0x80, 0x9F)
  else if b < 0xF0 then some (2, 0x80, 0xBF)
  else if b = 0xF0 then some (3, 0x90, 0xBF)
  else if b < 0xF4 then some (3, 0x80, 0xBF)
  else if b = 0xF4 then some (3, 0x80, 0x8F)
  else none

/-- Read up to `count` continuation bytes, the first of them in the range: the code read so far,
whether all were there, and the rest. -/
def continuation : Nat → UInt8 → UInt8 → Nat → List UInt8 → Nat × Bool × List UInt8
  | 0, _, _, code, rest => (code, true, rest)
  | _ + 1, _, _, code, [] => (code, false, [])
  | k + 1, low, high, code, b :: rest =>
    if low ≤ b ∧ b ≤ high then continuation k 0x80 0xBF (code * 64 + (b.toNat - 0x80)) rest
    else (code, false, b :: rest)

theorem length_continuation_le (k : Nat) (low high : UInt8) (code : Nat) (bs : List UInt8) :
    (continuation k low high code bs).2.2.length ≤ bs.length := by
  induction k generalizing low high code bs with
  | zero => simp [continuation]
  | succ k ih =>
    cases bs with
    | nil => simp [continuation]
    | cons b rest =>
      simp only [continuation]
      split
      · exact Nat.le_succ_of_le (ih ..)
      · simp

/-- The payload bits of a first byte that announces `count` continuation bytes. -/
def leadBits (count : Nat) (b : UInt8) : Nat :=
  b.toNat % (if count = 1 then 32 else if count = 2 then 16 else 8)

/-- The bytes as text, with replacement characters for what is not well-formed. -/
def decodeLossy : List UInt8 → List Char
  | [] => []
  | b :: rest =>
    if b < 0x80 then Char.ofNat b.toNat :: decodeLossy rest
    else
      match leadInfo? b with
      | none => replacement :: decodeLossy rest
      | some (count, low, high) =>
        let step := continuation count low high (leadBits count b) rest
        have : step.2.2.length < (b :: rest).length :=
          Nat.lt_succ_of_le (length_continuation_le ..)
        (if step.2.1 then Char.ofNat step.1 else replacement) :: decodeLossy step.2.2
  termination_by bs => bs.length
  decreasing_by
    · exact Nat.lt_succ_self _
    · exact Nat.lt_succ_self _
    · exact this

/-- How many bytes a character takes. -/
def byteLength (cs : List Char) : Nat := cs.foldr (fun c bytes => c.utf8Size + bytes) 0

end Conventions.Text
