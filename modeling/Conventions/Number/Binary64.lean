/-!
# Number/Binary64 — binary64 numbers as exact multiples of the smallest step

Every finite binary64 number is a whole number of steps of `2 ^ -1074`, so a finite number is kept
as a sign and that whole number. Order is then the order of `Int`, and each arithmetic operation is
exact integer arithmetic followed by one rounding to 53 significant bits (`roundQuotient`).
-/

namespace Conventions

/-- **A binary64 number**: not a number, an infinity, or a sign and a multiple of `2 ^ -1074`. -/
inductive Binary64 where
  | nan
  | infinite (negative : Bool)
  | finite (negative : Bool) (steps : Nat)
  deriving DecidableEq, Repr, Inhabited

namespace Binary64

/-- The number of steps in one unit. -/
def unit : Nat := Nat.pow 2 1074

/-- The least number of steps that is too large for a finite number. -/
def overflow : Nat := Nat.pow 2 2098

/-! ## Rounding -/

/-- The quotient rounded to the nearest whole number, a half going to the even neighbour. -/
def divNearest (num den : Nat) : Nat :=
  let q := num / den
  let r := num % den
  if 2 * r < den then q
  else if den < 2 * r then q + 1
  else if q % 2 = 0 then q else q + 1

/-- How many low bits of `n` lie below its leading 53. -/
def spareBits (n : Nat) : Nat := n.log2 + 1 - 53

/-- `num / den` steps, rounded to 53 significant bits, a half going to the even neighbour. -/
def roundQuotient (num den : Nat) : Nat :=
  let spare := spareBits (num / den)
  divNearest num (den * Nat.pow 2 spare) * Nat.pow 2 spare

/-- The finite number of the given steps, or the infinity of its sign when there are too many. -/
def ofSteps (negative : Bool) (steps : Nat) : Binary64 :=
  if steps < overflow then .finite negative steps else .infinite negative

/-- The number nearest to `± num / den`. -/
def ofRatio (negative : Bool) (num den : Nat) : Binary64 :=
  ofSteps negative (roundQuotient (num * unit) den)

/-- A number that is not infinite. -/
def bounded? : Binary64 → Option Binary64
  | .infinite _ => none
  | x => some x

/-- The number nearest to a whole number; `none` if that would be infinite. -/
def ofInt? (i : Int) : Option Binary64 := (ofRatio (decide (i < 0)) i.natAbs 1).bounded?

/-- The number nearest to a natural number. -/
def ofNat (n : Nat) : Binary64 := ofRatio false n 1

/-- The number nearest to `± digits * 10 ^ exponent`. Exponents far outside the range are answered
at once: they give an infinity or a zero whatever the digits are. -/
def ofDecimal (negative : Bool) (digits : Nat) (exponent : Int) : Binary64 :=
  if digits = 0 then .finite negative 0
  else if 0 ≤ exponent then
    if 400 < exponent then .infinite negative
    else ofRatio negative (digits * Nat.pow 10 exponent.toNat) 1
  else if exponent + (Nat.log2 digits + 1 : Nat) < -400 then .finite negative 0
  else ofRatio negative digits (Nat.pow 10 (-exponent).toNat)

/-! ## Order -/

def isNaN : Binary64 → Bool
  | .nan => true
  | _ => false

def isFinite : Binary64 → Bool
  | .finite .. => true
  | _ => false

/-- The signed number of steps; infinities stand just outside the finite range. -/
def key : Binary64 → Int
  | .nan => 0
  | .infinite true => -overflow
  | .infinite false => overflow
  | .finite true n => -n
  | .finite false n => n

/-- `x < y`; nothing compares with `nan`. -/
def lt (x y : Binary64) : Bool := !x.isNaN && !y.isNaN && decide (x.key < y.key)

/-- `x ≤ y`; nothing compares with `nan`. -/
def le (x y : Binary64) : Bool := !x.isNaN && !y.isNaN && decide (x.key ≤ y.key)

/-- Equality of values: the two zeros are equal and `nan` differs from itself. -/
def same (x y : Binary64) : Bool := !x.isNaN && !y.isNaN && decide (x.key = y.key)

/-- The second argument if it is greater, else the first. -/
def max (x y : Binary64) : Binary64 := if lt x y then y else x

/-- The second argument if it is less, else the first. -/
def min (x y : Binary64) : Binary64 := if lt y x then y else x

/-! ## Arithmetic -/

def zero : Binary64 := .finite false 0

def one : Binary64 := .finite false unit

def neg : Binary64 → Binary64
  | .nan => .nan
  | .infinite s => .infinite !s
  | .finite s n => .finite (!s) n

/-- The finite number nearest to a signed number of steps; an exact zero takes the given sign. -/
def ofSigned (zeroSign : Bool) (i : Int) : Binary64 :=
  if i = 0 then .finite zeroSign 0
  else ofSteps (decide (i < 0)) (roundQuotient i.natAbs 1)

def add : Binary64 → Binary64 → Binary64
  | .nan, _ | _, .nan => .nan
  | .infinite s, .infinite t => if s = t then .infinite s else .nan
  | .infinite s, _ => .infinite s
  | _, .infinite t => .infinite t
  | .finite s m, .finite t n => ofSigned (s && t) ((finite s m).key + (finite t n).key)

def sub (x y : Binary64) : Binary64 := add x y.neg

def mul : Binary64 → Binary64 → Binary64
  | .nan, _ | _, .nan => .nan
  | .infinite s, .infinite t => .infinite (s != t)
  | .infinite s, .finite t n | .finite s n, .infinite t => if n = 0 then .nan else .infinite (s != t)
  | .finite s m, .finite t n => ofSteps (s != t) (roundQuotient (m * n) unit)

/-- The quotient of two whole numbers, rounded once; `none` for a zero divisor. -/
def ratio? (num den : Nat) : Option Binary64 :=
  if den = 0 then none else some (ofRatio false num den)

/-- The quotient by a positive whole number, rounded once. -/
def divNat (x : Binary64) (n : Nat) : Binary64 :=
  match x with
  | .finite s m => ofSteps s (roundQuotient m n)
  | x => x

/-- The sum from left to right, starting at zero. -/
def sum (xs : List Binary64) : Binary64 := xs.foldl add zero

/-! ## Rounding to decimals -/

/-- The nearest whole number, a half going to the even neighbour; `none` if not finite. -/
def roundToInt? : Binary64 → Option Int
  | .finite s n =>
    let q : Int := divNearest n unit
    some (if s then -q else q)
  | _ => none

/-- The number rounded to `places` decimals by its exact value, a half going to the even
neighbour. -/
def roundTo (places : Nat) : Binary64 → Binary64
  | .finite s n => ofRatio s (divNearest (n * Nat.pow 10 places) unit) (Nat.pow 10 places)
  | x => x

/-! ## Exponential decay -/

/-- The first `k + 1` terms of the series of `e ^ (num / den)`, from the term `i` on, as a fraction:
`1 + a / i * (1 + a / (i + 1) * (…))`. -/
def seriesFrom (num den : Nat) : Nat → Nat → Nat × Nat
  | 0, _ => (1, 1)
  | k + 1, i =>
    let (p, q) := seriesFrom num den k (i + 1)
    (den * i * q + num * p, den * i * q)

/-- `e ^ (- num / den)` for a non-negative fraction. Above 64 the answer no longer depends on the
argument; up to there 256 terms leave a relative error below `2 ^ -200`. -/
def decayOf (num den : Nat) : Binary64 :=
  let (num, den) := if 64 * den < num then (64, 1) else (num, den)
  let (p, q) := seriesFrom num den 256 1
  ofRatio false q p

/-- `e ^ (- x)` of a finite non-negative number. -/
def decay : Binary64 → Binary64
  | .finite false n => decayOf n unit
  | .finite true 0 => one
  | .infinite false => zero
  | _ => .nan

end Binary64

/-! ## Quantities -/

/-- **A whole number or a binary64 number.** -/
inductive Quantity where
  | whole (i : Int)
  | binary (x : Binary64)
  deriving DecidableEq, Repr, Inhabited

namespace Quantity

/-- The number of steps of binary64 numbers, which orders quantities by value. -/
def key : Quantity → Int
  | whole i => i * Binary64.unit
  | binary x => x.key

/-- The nearest binary64 number. -/
def toBinary64 : Quantity → Binary64
  | whole i => Binary64.ofRatio (decide (i < 0)) i.natAbs 1
  | binary x => x

/-- The quantity rounded to a number of decimals; a whole number stays one. -/
def roundTo (places : Nat) : Quantity → Quantity
  | whole i => whole i
  | binary x => binary (x.roundTo places)

end Quantity
end Conventions
