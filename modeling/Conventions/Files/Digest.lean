/-!
# Files/Digest — the identity of a content

`Digest.sha256` is the hash function SHA-256 over bytes, and `fingerprint` its text: 64 small
hexadecimal digits. Words have 32 bits and wrap.
-/

namespace Conventions
namespace Digest

/-- The state of the hash: eight words. -/
structure State where
  a : UInt32
  b : UInt32
  c : UInt32
  d : UInt32
  e : UInt32
  f : UInt32
  g : UInt32
  h : UInt32
  deriving DecidableEq, Repr

namespace State

/-- The state before the first block: the square roots of the first eight primes, 32 bits of what
follows the point. -/
def start : State where
  a := 0x6a09e667
  b := 0xbb67ae85
  c := 0x3c6ef372
  d := 0xa54ff53a
  e := 0x510e527f
  f := 0x9b05688c
  g := 0x1f83d9ab
  h := 0x5be0cd19

/-- Two states, word by word. -/
def add (s t : State) : State where
  a := s.a + t.a
  b := s.b + t.b
  c := s.c + t.c
  d := s.d + t.d
  e := s.e + t.e
  f := s.f + t.f
  g := s.g + t.g
  h := s.h + t.h

/-- The words of a state. -/
def words (s : State) : List UInt32 := [s.a, s.b, s.c, s.d, s.e, s.f, s.g, s.h]

end State

/-- The round constants: the cube roots of the first 64 primes, 32 bits of what follows the
point. -/
def roundConstants : List UInt32 :=
  [0x428a2f98, 0x71374491, 0xb5c0fbcf, 0xe9b5dba5, 0x3956c25b, 0x59f111f1, 0x923f82a4, 0xab1c5ed5,
    0xd807aa98, 0x12835b01, 0x243185be, 0x550c7dc3, 0x72be5d74, 0x80deb1fe, 0x9bdc06a7, 0xc19bf174,
    0xe49b69c1, 0xefbe4786, 0x0fc19dc6, 0x240ca1cc, 0x2de92c6f, 0x4a7484aa, 0x5cb0a9dc, 0x76f988da,
    0x983e5152, 0xa831c66d, 0xb00327c8, 0xbf597fc7, 0xc6e00bf3, 0xd5a79147, 0x06ca6351, 0x14292967,
    0x27b70a85, 0x2e1b2138, 0x4d2c6dfc, 0x53380d13, 0x650a7354, 0x766a0abb, 0x81c2c92e, 0x92722c85,
    0xa2bfe8a1, 0xa81a664b, 0xc24b8b70, 0xc76c51a3, 0xd192e819, 0xd6990624, 0xf40e3585, 0x106aa070,
    0x19a4c116, 0x1e376c08, 0x2748774c, 0x34b0bcb5, 0x391c0cb3, 0x4ed8aa4a, 0x5b9cca4f, 0x682e6ff3,
    0x748f82ee, 0x78a5636f, 0x84c87814, 0x8cc70208, 0x90befffa, 0xa4506ceb, 0xbef9a3f7, 0xc67178f2]

/-- A word turned right by some bits, between 1 and 31. -/
def rotate (w : UInt32) (bits : UInt32) : UInt32 := (w >>> bits) ||| (w <<< (32 - bits))

/-- The sixteen words of a block, given with the last one first, grown by `count` words that each
mix four earlier ones. -/
def expand : Nat → List UInt32 → List UInt32
  | 0, ws => ws
  | n + 1, ws =>
    let two := ws.getD 1 0
    let fifteen := ws.getD 14 0
    let low := rotate fifteen 7 ^^^ rotate fifteen 18 ^^^ (fifteen >>> 3)
    let high := rotate two 17 ^^^ rotate two 19 ^^^ (two >>> 10)
    expand n ((ws.getD 15 0 + low + ws.getD 6 0 + high) :: ws)

/-- One round: a word of the schedule with its constant enters the state. -/
def round (s : State) (entry : UInt32 × UInt32) : State :=
  let high := rotate s.e 6 ^^^ rotate s.e 11 ^^^ rotate s.e 25
  let choice := (s.e &&& s.f) ^^^ ((~~~ s.e) &&& s.g)
  let first := s.h + high + choice + entry.1 + entry.2
  let low := rotate s.a 2 ^^^ rotate s.a 13 ^^^ rotate s.a 22
  let majority := (s.a &&& s.b) ^^^ (s.a &&& s.c) ^^^ (s.b &&& s.c)
  ⟨first + low + majority, s.a, s.b, s.c, s.d + first, s.e, s.f, s.g⟩

/-- A block of sixteen words enters the state. -/
def absorb (s : State) (block : List UInt32) : State :=
  (((expand 48 block.reverse).reverse.zip roundConstants).foldl round s).add s

/-! ## Bytes and words -/

/-- The byte at a place; zero behind the end. -/
def byteAt (bytes : ByteArray) (i : Nat) : UInt8 :=
  if h : i < bytes.size then bytes[i] else 0

/-- The word that four bytes from a place on write, the highest byte first. -/
def wordAt (bytes : ByteArray) (i : Nat) : UInt32 :=
  ((byteAt bytes i).toUInt32 <<< 24) ||| ((byteAt bytes (i + 1)).toUInt32 <<< 16) |||
    ((byteAt bytes (i + 2)).toUInt32 <<< 8) ||| (byteAt bytes (i + 3)).toUInt32

/-- The sixteen words of the block with a number. -/
def block (bytes : ByteArray) (k : Nat) : List UInt32 :=
  (List.range 16).map fun i => wordAt bytes (64 * k + 4 * i)

/-- The bytes of a number, the highest of `count` first. -/
def bigEndian (count n : Nat) : List UInt8 :=
  ((List.range count).map fun i => UInt8.ofNat (n >>> (8 * i))).reverse

/-- The bytes behind a content of some size: the bit one, zeros up to a full block less eight
bytes, and the size in bits. -/
def padding (size : Nat) : List UInt8 :=
  0x80 :: List.replicate ((119 - size % 64) % 64) 0 ++ bigEndian 8 (8 * size)

/-- **The hash of a content**: 32 bytes. -/
def sha256 (content : ByteArray) : List UInt8 :=
  let padded := content ++ ⟨(padding content.size).toArray⟩
  let final := (List.range (padded.size / 64)).foldl (fun s k => absorb s (block padded k)) .start
  final.words.flatMap fun w => bigEndian 4 w.toNat

/-- The two hexadecimal digits of a byte. -/
def hexDigits (b : UInt8) : List Char :=
  [Nat.digitChar (b.toNat / 16), Nat.digitChar (b.toNat % 16)]

/-- **The fingerprint of a content.** -/
def fingerprint (content : ByteArray) : String := String.ofList ((sha256 content).flatMap hexDigits)

end Digest
end Conventions
