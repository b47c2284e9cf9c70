import Conventions.Number.Binary64

/-!
# Number/Shortest — the fewest decimal digits that read back

`shortest n` gives the decimal `digits * 10 ^ exponent` with the fewest digits among those that lie
in the interval of reals rounding to `n` steps, and among these the nearest one. `Binary64.text`
writes it: positional from `1e-4` up to below `1e16`, with an exponent outside.
-/

namespace Conventions

/-- A positive decimal: `digits * 10 ^ exponent`. -/
structure Decimal where
  digits : Nat
  exponent : Int
  deriving DecidableEq, Repr

namespace Binary64

/-- The interval of reals that round to a positive number of steps: twice its ends would be
`4 * n ± gap`, in quarters of a step. Ends belong to it iff the leading 53 bits are even. -/
structure Interval where
  low : Nat
  high : Nat
  closed : Bool
  deriving Repr

/-- The reals, in quarters of a step, that round to `n` steps. Just above a power of two the lower
neighbour is half as far away. -/
def interval (n : Nat) : Interval :=
  let spare := spareBits n
  let ulp := Nat.pow 2 spare
  let lowGap := if 0 < spare ∧ n = Nat.pow 2 n.log2 then ulp else 2 * ulp
  ⟨4 * n - lowGap, 4 * n + 2 * ulp, (n / ulp) % 2 = 0⟩

/-- Is `num / den` quarters of a step inside the interval? -/
def Interval.contains (i : Interval) (num den : Nat) : Bool :=
  if i.closed then decide (i.low * den ≤ num ∧ num ≤ i.high * den)
  else decide (i.low * den < num ∧ num < i.high * den)

/-- The point `m * 10 ^ e`, in quarters of a step, as a fraction. -/
def gridPoint (m : Nat) (e : Int) : Nat × Nat :=
  if 0 ≤ e then (m * Nat.pow 10 e.toNat * (4 * unit), 1)
  else (m * (4 * unit), Nat.pow 10 (-e).toNat)

/-- The nearest multiple of `10 ^ e` that rounds to `n` steps, if there is one. -/
def nearestOnGrid (n : Nat) (e : Int) : Option Nat :=
  let (gn, gd) := gridPoint 1 e
  -- the value is `4 * n` quarters; the multiple below it is `4 * n * gd / gn`
  let below := 4 * n * gd / gn
  let i := interval n
  let inside (m : Nat) : Bool := let (p, q) := gridPoint m e; i.contains p q
  let below? := if 0 < below ∧ inside below then some below else none
  let above? := if inside (below + 1) then some (below + 1) else none
  match below?, above? with
  | some b, some a =>
    let r := 4 * n * gd % gn
    if 2 * r < gn then some b
    else if gn < 2 * r then some a
    else some (if b % 2 = 0 then b else a)
  | some b, none => some b
  | none, a => a

/-- The exponent of the leading decimal digit of a positive number of steps. -/
def leadingExponent (n : Nat) : Int :=
  -- an estimate from the binary length, then corrected by at most one step either way
  let guess : Int := ((n.log2 : Int) - 1074) * 30103 / 100000
  let atLeast (e : Int) : Bool :=
    if 0 ≤ e then decide (Nat.pow 10 e.toNat * unit ≤ n)
    else decide (unit ≤ n * Nat.pow 10 (-e).toNat)
  if atLeast (guess + 1) then guess + 1
  else if atLeast guess then guess
  else guess - 1

/-- The first of `count` grids, from `e` down, with a point that reads back. -/
def shortestFrom (n : Nat) : Nat → Int → Option Decimal
  | 0, _ => none
  | count + 1, e =>
    match nearestOnGrid n e with
    | some m => some ⟨m, e⟩
    | none => shortestFrom n count (e - 1)

/-- Drop trailing zeros. -/
def dropZeros : Nat → Decimal → Decimal
  | 0, d => d
  | k + 1, d =>
    if d.digits ≠ 0 ∧ d.digits % 10 = 0 then dropZeros k ⟨d.digits / 10, d.exponent + 1⟩ else d

/-- **The shortest decimal** that reads back as a positive number of steps, without trailing
zeros. -/
def shortest (n : Nat) : Decimal :=
  dropZeros 20 ((shortestFrom n 18 (leadingExponent n + 1)).getD ⟨0, 0⟩)

/-! ## Text -/

/-- A positive decimal in text: positional when the leading digit stands between `1e-4` and
`1e15`, otherwise with an exponent of at least two digits. -/
def decimalText (d : Decimal) : String :=
  let ds := (toString d.digits).toList
  let point : Int := ds.length + d.exponent
  if -4 < point ∧ point ≤ 16 then
    if 0 ≤ d.exponent then
      String.ofList (ds ++ List.replicate d.exponent.toNat '0') ++ ".0"
    else if 0 < point then
      String.ofList (ds.take point.toNat) ++ "." ++ String.ofList (ds.drop point.toNat)
    else "0." ++ String.ofList (List.replicate (-point).toNat '0' ++ ds)
  else
    let e := point - 1
    let mantissa := match ds with
      | [] => ""
      | [c] => String.singleton c
      | c :: rest => String.singleton c ++ "." ++ String.ofList rest
    let digits := toString e.natAbs
    let padded := if digits.length < 2 then "0" ++ digits else digits
    mantissa ++ "e" ++ (if e < 0 then "-" else "+") ++ padded

/-- **The text of a number**: shortest digits, with a point or an exponent. -/
def text : Binary64 → String
  | .nan => "nan"
  | .infinite s => if s then "-inf" else "inf"
  | .finite s 0 => if s then "-0.0" else "0.0"
  | .finite s n => (if s then "-" else "") ++ decimalText (shortest n)

end Binary64
end Conventions
