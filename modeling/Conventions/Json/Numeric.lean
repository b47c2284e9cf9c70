import Conventions.Json.Basic
import Conventions.Number.Numeral
import Conventions.Number.Binary64

/-!
# Json/Numeric — the number that a JSON value stands for

Numbers stand for themselves, truth values for one and zero, and text for the number it writes.
-/

namespace Conventions

/-- **Why a value could not be taken for what was asked.** -/
inductive ConversionFault where
  /-- An object lacks a key. -/
  | missingKey
  /-- A text or a number writes no number of the kind. -/
  | noNumeral
  /-- A value of this kind stands for no number. -/
  | wrongKind
  /-- The number is too large. -/
  | outOfRange
  /-- A value that has to be text is none. -/
  | notText
  deriving DecidableEq, Repr

namespace Json

/-- A quantity as it was written. -/
def ofQuantity : Quantity → Json
  | .whole i => .int i
  | .binary x => .float x

/-- The number without its fraction; `none` if it is not finite. -/
def truncated? : Binary64 → Option Int
  | .finite negative n =>
    let whole : Int := (n / Binary64.unit : Nat)
    some (if negative then -whole else whole)
  | _ => none

/-- **The whole number that a value stands for.** -/
def whole : Json → Except ConversionFault Int
  | .int i => .ok i
  | .bool b => .ok (if b then 1 else 0)
  | .float x =>
    match truncated? x with
    | some i => .ok i
    | none => .error (if x.isNaN then .noNumeral else .outOfRange)
  | .str s =>
    match Numeral.whole? s with
    | some i => .ok i
    | none => .error .noNumeral
  | .null | .arr _ | .obj _ => .error .wrongKind

/-- **The binary64 number that a value stands for.** -/
def binary64 : Json → Except ConversionFault Binary64
  | .int i =>
    match Binary64.ofInt? i with
    | some x => .ok x
    | none => .error .outOfRange
  | .bool b => .ok (if b then .one else .zero)
  | .float x => .ok x
  | .str s =>
    match Numeral.binary64? s with
    | some x => .ok x
    | none => .error .noNumeral
  | .null | .arr _ | .obj _ => .error .wrongKind

/-- The value of a key that an object has to have. -/
def required (key : String) (members : List (String × Json)) : Except ConversionFault Json :=
  match lookup key members with
  | some v => .ok v
  | none => .error .missingKey

end Json
end Conventions
