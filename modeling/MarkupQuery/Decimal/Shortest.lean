/-!
# Shortest decimals

A floating-point number stands for all real numbers that round to it. Of the decimals among them, its
shortest decimal is the one with the fewest digits, and of several with as few digits the one nearest
to the number; of two equally near ones it is the one with an even last digit.

All real numbers here are counted in units of `2 ^ -1076`, a quarter of the least positive number, in
which a number and both ends of its interval are whole.

## Main definitions

- `Decimal`: a whole number of digits with a power of ten.
- `Rounding`: a number with the interval of reals that round to it, and `Rounding.ofBits`, that of the
  bits of a number.
- `Rounding.nearestMultiple`: of the multiples of a real number, the one next to the number.
- `Rounding.shortest`: the shortest decimal of the interval.
- `Decimal.ofFloat`: the shortest decimal of a number, with its sign.
-/

namespace MarkupQuery

/-- The real number `± digits * 10 ^ exponent`. -/
structure Decimal where
  /-- Whether the sign is a minus. -/
  negative : Bool
  /-- The digits, read as a whole number. -/
  digits : Nat
  /-- The power of ten that the digits are multiplied by. -/
  exponent : Int
deriving DecidableEq

/-- A positive number with the interval of real numbers that round to it, in units of `2 ^ -1076`. -/
structure Rounding where
  /-- The lower end of the interval. -/
  least : Nat
  /-- The number. -/
  value : Nat
  /-- The upper end of the interval. -/
  greatest : Nat
  /-- Whether the ends round to the number. -/
  endsRound : Bool

namespace Rounding

/-- The interval for the bits of a number, whose sign is left out. The ends lie half way to the
neighbours, and below a power of two the neighbour is half as far; the ends round to the number
whose last bit is zero. -/
def ofBits (bits : UInt64) : Rounding :=
  let biased := (bits.toNat / Nat.pow 2 52) % 2048
  let fraction := bits.toNat % Nat.pow 2 52
  -- Numbers with a biased exponent of zero have the same unit as those with one, and no hidden bit.
  let significand := if biased = 0 then fraction else fraction + Nat.pow 2 52
  let quarter := Nat.pow 2 (biased - 1)
  let below := if fraction = 0 ∧ 1 < biased then 1 else 2
  { least := (4 * significand - below) * quarter
    value := 4 * significand * quarter
    greatest := (4 * significand + 2) * quarter
    endsRound := significand % 2 = 0 }

/-- Whether the real number `n * num / den` rounds to the number; `num` counts in the same units. -/
def contains (interval : Rounding) (num den n : Nat) : Bool :=
  if interval.endsRound then
    interval.least * den ≤ n * num ∧ n * num ≤ interval.greatest * den
  else
    interval.least * den < n * num ∧ n * num < interval.greatest * den

/-- The multiple of a real number `num / den` that lies in the interval next to the number, if there is one:
the nearer of the two neighbours, and of two that are as near the even one. -/
def nearestMultiple (interval : Rounding) (num den : Nat) : Option Nat :=
  let low := interval.value * den / num
  match interval.contains num den low, interval.contains num den (low + 1) with
  | false, false => none
  | true, false => some low
  | false, true => some (low + 1)
  | true, true =>
    let belowBy := interval.value * den - low * num
    let aboveBy := (low + 1) * num - interval.value * den
    if belowBy < aboveBy then some low
    else if aboveBy < belowBy then some (low + 1)
    else if low % 2 = 0 then some low
    else some (low + 1)

/-- The multiple of `10 ^ exponent` that lies in the interval next to the number, if there is one. -/
def onGrid (interval : Rounding) (exponent : Int) : Option Nat :=
  interval.nearestMultiple (Nat.pow 2 1076 * Nat.pow 10 exponent.toNat) (Nat.pow 10 (-exponent).toNat)

/-- The digits and the exponent of the shortest decimal: on the coarsest grid that meets the
interval. The greatest number lies below `10 ^ 309`, and multiples of `10 ^ -324` are so close that
every interval has one. -/
def shortest (interval : Rounding) : Nat × Int :=
  let grids := (List.range 634).map (fun i : Nat => (309 : Int) - i)
  match grids.findSome? (fun exponent => (interval.onGrid exponent).map (·, exponent)) with
  | some found => found
  | none => (0, 0)

end Rounding

/-- The shortest decimal of a finite number. Zero has the digits 0 and keeps its sign. -/
def Decimal.ofFloat (number : Float) : Decimal :=
  let bits := number.toBits
  let negative := Nat.pow 2 63 ≤ bits.toNat
  if bits.toNat % Nat.pow 2 63 = 0 then ⟨negative, 0, 0⟩
  else
    let (digits, exponent) := (Rounding.ofBits bits).shortest
    ⟨negative, digits, exponent⟩

end MarkupQuery
