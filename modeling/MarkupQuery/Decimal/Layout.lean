import MarkupQuery.Decimal.Shortest

/-!
# Layout of decimals

A decimal is written plainly, with a point and at least one digit on each side of it, as long as
its leading digit is not too far from the point; otherwise one digit stands before the point and
the power of ten follows with its sign.

## Main definitions

- `DecimalLayout`: how far the leading digit may be from the point for plain writing.
- `DecimalLayout.write`: the text of a decimal.
-/

namespace MarkupQuery

/-- When decimals are written plainly. -/
structure DecimalLayout where
  /-- The least power of ten of a leading digit that is written plainly. -/
  leastPlain : Int
  /-- The greatest power of ten of a leading digit that is written plainly. -/
  greatestPlain : Int

namespace DecimalLayout

/-- So many zeros. -/
def zeros (count : Int) : String :=
  String.ofList (List.replicate count.toNat '0')

/-- The text of a positive decimal written plainly; `power` is that of its leading digit. -/
def plain (digits : String) (power : Int) : String :=
  if power < 0 then "0." ++ zeros (-power - 1) ++ digits
  else
    let whole := digits.toList.take (power.toNat + 1)
    let fraction := digits.toList.drop (power.toNat + 1)
    String.ofList whole ++ zeros (power + 1 - whole.length) ++ "." ++
      (if fraction.isEmpty then "0" else String.ofList fraction)

/-- The text of a positive decimal with its power of ten, whose sign is always written. -/
def scientific (digits : String) (power : Int) : String :=
  let fraction := digits.toList.drop 1
  String.ofList (digits.toList.take 1) ++
    (if fraction.isEmpty then "" else "." ++ String.ofList fraction) ++
    (if power < 0 then "e-" else "e+") ++ toString power.natAbs

/-- The text of a decimal. -/
def write (layout : DecimalLayout) (decimal : Decimal) : String :=
  let sign := if decimal.negative then "-" else ""
  if decimal.digits = 0 then sign ++ "0.0"
  else
    let digits := toString decimal.digits
    let power := decimal.exponent + digits.length - 1
    sign ++
      if layout.leastPlain ≤ power ∧ power ≤ layout.greatestPlain then plain digits power
      else scientific digits power

end DecimalLayout

end MarkupQuery
