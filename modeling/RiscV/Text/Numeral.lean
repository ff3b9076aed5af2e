/-!
# Numerals

Numbers are printed in decimal with a leading minus where needed, or in
lower-case hexadecimal, bare, padded with zeros or marked with `0x`.

Reading a numeral goes from left to right and reports the first thing that is
wrong: a character that is not a digit, or a digit that takes the number past
the largest allowed value.
-/

namespace RiscV.Text

/-! ### Writing -/

/-- The lower-case hexadecimal numeral, without marker or padding. -/
def hex (n : Nat) : String := String.ofList (Nat.toDigits 16 n)

/-- The hexadecimal numeral padded with zeros to at least `width` digits. -/
def hexPadded (width n : Nat) : String :=
  String.ofList (List.leftpad width '0' (Nat.toDigits 16 n))

/-- The hexadecimal numeral after the marker `0x`. -/
def hexMarked (n : Nat) : String := "0x" ++ hex n

/-- The decimal numeral of a natural number. -/
def natural (n : Nat) : String := String.ofList (Nat.toDigits 10 n)

/-- The decimal numeral of an integer. -/
def decimal : Int → String
  | .ofNat n => natural n
  | .negSucc n => "-" ++ natural (n + 1)

/-! ### Reading -/

/-- The value of a digit character, letters counting from ten in either case. -/
def digitValue (c : Char) : Nat :=
  if '0' ≤ c ∧ c ≤ '9' then c.toNat - '0'.toNat
  else if 'a' ≤ c ∧ c ≤ 'z' then c.toNat - 'a'.toNat + 10
  else if 'A' ≤ c ∧ c ≤ 'Z' then c.toNat - 'A'.toNat + 10
  else 36

/-- The value of a digit character in the given base, if it is one. -/
def digit? (base : Nat) (c : Char) : Option Nat :=
  if digitValue c < base then some (digitValue c) else none

/-- Why a numeral could not be read. -/
inductive NumeralError
  /-- There is nothing to read. -/
  | empty
  /-- A character is not a digit of the base, or a sign stands alone. -/
  | invalidDigit
  /-- The number is above the largest allowed value. -/
  | tooLarge
  /-- The number is below the smallest allowed value. -/
  | tooSmall
  deriving DecidableEq, Repr

/-- The wording of a numeral error. -/
def NumeralError.message : NumeralError → String
  | empty => "cannot parse integer from empty string"
  | invalidDigit => "invalid digit found in string"
  | tooLarge => "number too large to fit in target type"
  | tooSmall => "number too small to fit in target type"

/-- Read digits onto the value `acc`, refusing to pass `max`. -/
def readDigits (base max : Nat) (excess : NumeralError) :
    Nat → List Char → Except NumeralError Nat
  | acc, [] => .ok acc
  | acc, c :: cs =>
    match digit? base c with
    | none => .error .invalidDigit
    | some d =>
      if acc * base + d ≤ max then readDigits base max excess (acc * base + d) cs
      else .error excess

/-- Read at least one digit. -/
def readMagnitude (base max : Nat) (excess : NumeralError) (cs : List Char) :
    Except NumeralError Nat :=
  if cs.isEmpty then .error .invalidDigit else readDigits base max excess 0 cs

/-- Read a natural number of at most `max`.  One leading plus is allowed. -/
def readNatural (base max : Nat) : List Char → Except NumeralError Nat
  | [] => .error .empty
  | '+' :: cs => readMagnitude base max .tooLarge cs
  | cs => readMagnitude base max .tooLarge cs

/-- Read a decimal integer between `-2 ^ 63` and `2 ^ 63 - 1`.  One leading sign
is allowed. -/
def readInteger : List Char → Except NumeralError Int
  | [] => .error .empty
  | '-' :: cs => (readMagnitude 10 0x8000000000000000 .tooSmall cs).map fun n => -(n : Int)
  | '+' :: cs => (readMagnitude 10 0x7fffffffffffffff .tooLarge cs).map Int.ofNat
  | cs => (readMagnitude 10 0x7fffffffffffffff .tooLarge cs).map Int.ofNat

end RiscV.Text
