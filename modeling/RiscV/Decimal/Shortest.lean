import RiscV.Decimal.Double
import RiscV.Text.Numeral

/-!
# Shortest decimal text

A double-precision number is written with the fewest digits that read back as the
same number; of several such decimals the nearest is taken, and of two that are
equally near the even one.  Numbers of moderate size are written positionally
with at least one place after the point, others with an exponent that always has
a sign.
-/

namespace RiscV.Double

/-- The decimal `digits * 10 ^ exponent`. -/
structure Decimal where
  /-- The digits as a number. -/
  digits : Nat
  /-- The power of ten. -/
  exponent : Int
  deriving DecidableEq, Repr, Inhabited

/-- The exact value of a decimal. -/
def Decimal.toRat (d : Decimal) : Rat := d.digits * (10 : Rat) ^ d.exponent

/-- Half the distance to the next number above. -/
def halfGapAbove (x : Double) : Rat := (2 : Rat) ^ (x.exponent - 1)

/-- Half the distance to the next number below; above a power of two the numbers
are twice as far apart as below it. -/
def halfGapBelow (x : Double) : Rat :=
  if x.mantissa = minNormal ∧ -1074 < x.exponent then (2 : Rat) ^ (x.exponent - 2)
  else (2 : Rat) ^ (x.exponent - 1)

/-- Whether a rational number rounds to `x`; the ends of the interval do if the
mantissa is even. -/
def roundsTo (x : Double) (y : Rat) : Bool :=
  let low := x.toRat - x.halfGapBelow
  let high := x.toRat + x.halfGapAbove
  if x.mantissa % 2 = 0 then low ≤ y && y ≤ high else low < y && y < high

/-- The power of ten of the leading digit.  Scaled up by `10 ^ 400` every number
has a whole part with the same leading digit. -/
def leadingPower (x : Double) : Int :=
  let whole := (x.toRat * (10 : Rat) ^ (400 : Int)).floor.toNat
  ((Nat.toDigits 10 whole).length : Int) - 401

/-- Of two neighbouring decimals around `x`, the nearer one; a tie goes to the
even one. -/
def nearer (x : Double) (low high : Decimal) : Decimal :=
  let down := x.toRat - low.toRat
  let up := high.toRat - x.toRat
  if down < up ∨ (down = up ∧ low.digits % 2 = 0) then low else high

/-- The nearest decimal of `n` digits that reads back, if there is one: the
neighbours of the number among those decimals are tried. -/
def decimalOf? (x : Double) (n : Nat) : Option Decimal :=
  let exponent := x.leadingPower - n + 1
  let below := (x.toRat / (10 : Rat) ^ exponent).floor.toNat
  let low : Decimal := ⟨below, exponent⟩
  let high : Decimal := ⟨below + 1, exponent⟩
  match x.roundsTo low.toRat, x.roundsTo high.toRat with
  | true, true => some (x.nearer low high)
  | true, false => some low
  | false, true => some high
  | false, false => none

/-- The shortest decimal that reads back; seventeen digits always do. -/
def shortest (x : Double) : Decimal :=
  ((List.range 17).findSome? fun n => x.decimalOf? (n + 1)).getD ⟨0, 0⟩

/-- The digits of a decimal without zeros at the end, and the power of ten of
the first digit. -/
def Decimal.significant (d : Decimal) : List Char × Int :=
  let digits := Nat.toDigits 10 d.digits
  ((digits.reverse.dropWhile (· == '0')).reverse, d.exponent + digits.length - 1)

/-- An exponent with its sign. -/
def exponentText (e : Int) : String :=
  (if 0 ≤ e then "+" else "-") ++ Text.natural e.natAbs

/-- The text of digits whose first one stands at the power `lead` of ten. -/
def layOut (digits : List Char) (lead : Int) : String :=
  let count : Int := digits.length
  if 0 ≤ lead ∧ lead ≤ 15 then
    if count ≤ lead + 1 then
      String.ofList (digits ++ List.replicate (lead + 1 - count).toNat '0') ++ ".0"
    else
      String.ofList (digits.take (lead + 1).toNat) ++ "." ++
        String.ofList (digits.drop (lead + 1).toNat)
  else if -5 ≤ lead ∧ lead < 0 then
    "0." ++ String.ofList (List.replicate (-lead - 1).toNat '0' ++ digits)
  else if count = 1 then String.ofList digits ++ "e" ++ exponentText lead
  else
    String.ofList (digits.take 1) ++ "." ++ String.ofList (digits.drop 1) ++ "e" ++
      exponentText lead

/-- The text of a number that is not negative. -/
def text (x : Double) : String :=
  if x.isZero then "0.0"
  else
    let (digits, lead) := x.shortest.significant
    layOut digits lead

end RiscV.Double
