import Settle.Number.Binary64

/-!
# Decimal text of doubles

Reading takes the double nearest to the written number. Writing takes the fewest digits that
read back as the same double and, among those, the nearest; a tie rule settles which of two
equally near numbers is taken. Both work on exact units.
-/

namespace Settle

namespace Binary64

/-- The double nearest to `digits * 10 ^ exponent`. Exponents far out of range are settled by
the size of the digits, before any power is taken. -/
def ofDecimal (negative : Bool) (digits : Nat) (exponent : Int) : Binary64 :=
  if digits = 0 ∨ exponent + (digits.log2 + 1 : Nat) < -400 then zero negative
  else if 400 < exponent then .infinite negative
  else if 0 ≤ exponent then ofQuotient negative (digits * Nat.pow 10 exponent.toNat * one) 1
  else ofQuotient negative (digits * one) (Nat.pow 10 (-exponent).toNat)

end Binary64

/-- How many decimal digits a number is written with. -/
def digitCount (n : Nat) : Nat :=
  if _h : n < 10 then 1 else digitCount (n / 10) + 1
  termination_by n
  decreasing_by omega

/-- Which of two equally near numbers is taken. -/
inductive TieRule where
  | larger
  /-- The one whose last digit is even. -/
  | even
  deriving DecidableEq, Repr

/-- A decimal number `digits * 10 ^ exponent`. -/
structure Decimal where
  digits : Nat
  exponent : Int
  deriving DecidableEq, Repr

namespace Decimal

/-- The same number without trailing zeros among its digits. -/
def trim (d : Decimal) : Decimal :=
  if _h : d.digits ≠ 0 ∧ d.digits % 10 = 0 then trim ⟨d.digits / 10, d.exponent + 1⟩ else d
  termination_by d.digits
  decreasing_by omega

/-- Whether the number is read as the double of `units`. -/
def readsBack (d : Decimal) (units : Nat) : Bool :=
  match Binary64.ofDecimal false d.digits d.exponent with
  | .finite _ u _ => u = units
  | _ => false

/-- The exponent of the leading digit of a magnitude. -/
def leading (units : Nat) : Int :=
  (digitCount (units * Nat.pow 10 400 / Binary64.one) : Int) - 401

/-- Whether a number is taken rather than the next larger one of as many digits, for a magnitude
that lies `gap` of `step` parts of the way between them. -/
def isTaken (below : Decimal) (tie : TieRule) (gap step : Nat) : Bool :=
  2 * gap < step || 2 * gap = step && tie = .even && below.digits % 2 = 0

/-- The nearer of the two numbers of `count` digits around a magnitude, if one reads back. -/
def around (tie : TieRule) (units count : Nat) : Option Decimal :=
  let exponent := leading units + 1 - count
  let n := if 0 ≤ exponent then units else units * Nat.pow 10 (-exponent).toNat
  let d := if 0 ≤ exponent then Binary64.one * Nat.pow 10 exponent.toNat else Binary64.one
  let below : Decimal := ⟨n / d, exponent⟩
  let above : Decimal := ⟨n / d + 1, exponent⟩
  match below.readsBack units, above.readsBack units with
  | true, true => some (if below.isTaken tie (n % d) d then below else above)
  | true, false => some below
  | false, true => some above
  | false, false => none

/-- The shortest number that reads back as a magnitude; seventeen digits always do. -/
def shortest (tie : TieRule) (units : Nat) : Decimal :=
  if units = 0 then ⟨0, 0⟩
  else (((List.range 17).findSome? fun i => around tie units (i + 1)).getD ⟨0, 0⟩).trim

/-- The number written out in full, without an exponent. -/
def positional (d : Decimal) : String :=
  let text := toString d.digits
  if 0 ≤ d.exponent then text ++ "".pushn '0' d.exponent.toNat
  else
    let places := (-d.exponent).toNat
    if places < text.length then
      String.ofList (text.toList.take (text.length - places)) ++ "." ++
        String.ofList (text.toList.drop (text.length - places))
    else "0." ++ "".pushn '0' (places - text.length) ++ text

/-- The number with one digit before the point and an exponent with its sign. -/
def scientific (d : Decimal) : String :=
  match (toString d.digits).toList with
  | [] => ""
  | lead :: rest =>
    let power := d.exponent + rest.length
    let fraction := if rest.isEmpty then "" else "." ++ String.ofList rest
    String.singleton lead ++ fraction ++ (if power < 0 then "e" else "e+") ++ toString power

end Decimal

namespace Binary64

/-- The sign and the text of a double whose magnitude is written by `write`. -/
def textWith (write : Nat → String) : Binary64 → String
  | .nan => "NaN"
  | .infinite negative => if negative then "-inf" else "inf"
  | .finite negative units _ => (if negative then "-" else "") ++ write units

/-- The shortest text in full: `0.1`, `20`, `-0`. -/
def text : Binary64 → String :=
  textWith fun units => (Decimal.shortest .larger units).positional

/-- A text with a decimal point in it, `.0` where it has none. -/
def withPoint (text : String) : String := if text.contains '.' then text else text ++ ".0"

/-- The shortest text with a decimal point: `0.1`, `20.0`. -/
def pointed : Binary64 → String :=
  textWith fun units => withPoint (Decimal.shortest .larger units).positional

/-- The shortest text, ties to even, with a decimal point, or with an exponent where the number
is below `1e-5` or needs more than sixteen digits before the point: `20.0`, `1e+16`, `1.5e-7`. -/
def compact : Binary64 → String :=
  textWith fun units =>
    let d := Decimal.shortest .even units
    let point := digitCount d.digits + d.exponent
    if units = 0 ∨ (-5 < point ∧ point ≤ 16) then withPoint d.positional else d.scientific

end Binary64

end Settle
