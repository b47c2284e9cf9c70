import Conventions.Number.Binary64
import Conventions.Text.Blank
import Conventions.Text.Word

/-!
# Number/Numeral — numbers written by people

Numerals may stand between blanks, carry a sign, use the decimal digits of any script and hold
single underscores between digits. Numerals for binary64 numbers also know infinities and `nan`.
-/

namespace Conventions
namespace Numeral

/-- A blank around a numeral. Of the ASCII controls only the usual ones count. -/
def isBlank (c : Char) : Bool :=
  let n := c.toNat
  (9 ≤ n && n ≤ 13) || n == 32 || (128 ≤ n && Text.isBlank c)

/-- The text without blanks around it. -/
def strip (cs : List Char) : List Char :=
  ((cs.dropWhile isBlank).reverse.dropWhile isBlank).reverse

/-- The sign in front, and the rest. -/
def sign : List Char → Bool × List Char
  | '-' :: rest => (true, rest)
  | '+' :: rest => (false, rest)
  | cs => (false, cs)

/-- The values of the digits in front and the rest; an underscore has to stand between digits. -/
def digits (joined : Bool) : List Char → Option (List Nat × List Char)
  | [] => some ([], [])
  | c :: rest =>
    match Text.digitValue? c with
    | some d => (digits true rest).map fun (ds, after) => (d :: ds, after)
    | none =>
      if c = '_' then
        match rest with
        | d :: _ =>
          if joined && Text.isDecimalDigit d then digits false rest else none
        | [] => none
      else some ([], c :: rest)

/-- The number that decimal digits write. -/
def value (ds : List Nat) : Nat := ds.foldl (fun n d => 10 * n + d) 0

/-- The most digits of a whole number. -/
def maxDigits : Nat := 4300

/-- **The whole number that a text writes.** -/
def whole? (s : String) : Option Int :=
  let (negative, body) := sign (strip s.toList)
  match digits false body with
  | some (d :: ds, []) =>
    if maxDigits < (d :: ds).length then none
    else some (if negative then -(value (d :: ds) : Int) else value (d :: ds))
  | _ => none

/-- The exponent after a mantissa; without a mark there is none. -/
def exponent? : List Char → Option Int
  | [] => some 0
  | e :: rest =>
    if e = 'e' ∨ e = 'E' then
      let (negative, body) := sign rest
      match digits false body with
      | some (d :: ds, []) =>
        some (if negative then -(value (d :: ds) : Int) else value (d :: ds))
      | _ => none
    else none

/-- The fraction after the whole part, and the rest. -/
def fraction? : List Char → Option (List Nat × List Char)
  | '.' :: rest => digits false rest
  | cs => some ([], cs)

/-- A letter as the same small one, if it is an ASCII capital. -/
def small (cs : List Char) : String := String.ofList (cs.map Char.toLower)

/-- **The binary64 number that a text writes.** -/
def binary64? (s : String) : Option Binary64 :=
  let (negative, body) := sign (strip s.toList)
  let word := small body
  if word = "inf" ∨ word = "infinity" then some (.infinite negative)
  else if word = "nan" then some .nan
  else
    match digits false body with
    | none => none
    | some (front, rest) =>
      match fraction? rest with
      | none => none
      | some (back, rest) =>
        match front ++ back, exponent? rest with
        | [], _ => none
        | ds, some e => some (Binary64.ofDecimal negative (value ds) (e - back.length))
        | _, none => none

end Numeral
end Conventions
