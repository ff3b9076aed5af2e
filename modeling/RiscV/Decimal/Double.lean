/-!
# Double-precision numbers

A finite double-precision number is a mantissa of at most 53 bits times a power
of two.  All arithmetic is exact rational arithmetic followed by one rounding to
the nearest such number, with ties going to the even mantissa.  Signs are kept
apart, so the numbers here are not negative.

## Main definitions

* `Double`, `Double.toRat` — the numbers and their values.
* `Double.nearest` — rounding a rational number.
* `Double.scaled` — a natural number times a power of ten, rounded at each step.
-/

namespace RiscV

/-- The number `mantissa * 2 ^ exponent`. -/
structure Double where
  /-- At most 53 bits. -/
  mantissa : Nat
  /-- The power of two, at least -1074. -/
  exponent : Int
  deriving DecidableEq, Repr, Inhabited

namespace Double

/-- The exact value. -/
def toRat (x : Double) : Rat := x.mantissa * (2 : Rat) ^ x.exponent

/-- The smallest mantissa of 53 bits. -/
def minNormal : Nat := 0x10000000000000

/-- Whether the number is zero. -/
def isZero (x : Double) : Bool := x.mantissa == 0

/-- The nearest natural number, the even one of two equally near. -/
def roundHalfEven (x : Rat) : Nat :=
  let below := x.floor
  let rest := x - below
  if rest < 1 / 2 ∨ (rest = 1 / 2 ∧ below % 2 = 0) then below.toNat else (below + 1).toNat

/-- The power of two at which the value of `x` takes 53 bits, or the smallest
one there is. -/
def exponentOf (x : Rat) : Int :=
  let guess : Int := (Nat.log2 x.num.toNat : Int) - Nat.log2 x.den - 52
  let exact := if x < (2 : Rat) ^ (guess + 52) then guess - 1 else guess
  max exact (-1074)

/-- The double nearest to a number that is not negative, if it is in range. -/
def nearest (x : Rat) : Option Double :=
  if x.num ≤ 0 then some ⟨0, 0⟩
  else
    let exponent := exponentOf x
    let mantissa := roundHalfEven (x / (2 : Rat) ^ exponent)
    if (2 : Rat) ^ (1024 : Int) ≤ mantissa * (2 : Rat) ^ exponent then none
    else if mantissa = 2 * minNormal then some ⟨minNormal, exponent + 1⟩
    else some ⟨mantissa, exponent⟩

/-- The double nearest to a power of ten up to `10 ^ 308`. -/
def powerOfTen (n : Nat) : Double := (nearest ((10 : Rat) ^ n)).getD ⟨0, 0⟩

/-- The product, rounded. -/
def mul? (x y : Double) : Option Double := nearest (x.toRat * y.toRat)

/-- The quotient by a number that is at least one, rounded. -/
def div (x y : Double) : Double := (nearest (x.toRat / y.toRat)).getD ⟨0, 0⟩

/-- Divide by `10 ^ n`, in steps of `10 ^ 308`. -/
def shrink (x : Double) (n : Nat) : Double :=
  if n ≤ 308 then x.div (powerOfTen n)
  else if x.isZero then x
  else (x.div (powerOfTen 308)).shrink (n - 308)
termination_by n

/-- The natural number `n` times `10 ^ e`: `n` is rounded first, then multiplied
or divided by the rounded power of ten.  There is none if it is out of range. -/
def scaled (n : Nat) (e : Int) : Option Double :=
  let x := (nearest n).getD ⟨0, 0⟩
  match e with
  | .ofNat up =>
    if up ≤ 308 then x.mul? (powerOfTen up) else if x.isZero then some x else none
  | .negSucc down => some (x.shrink (down + 1))

end Double

end RiscV
