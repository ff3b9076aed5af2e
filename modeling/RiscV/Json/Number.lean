import RiscV.Decimal.Shortest

/-!
# JSON numbers

A number is an optional minus, an integer part without leading zeros, and an
optional fraction and exponent.  A whole number that fits in 64 bits is an
integer; any other number is a double.

The digits of a number are collected into a significand of at most 64 bits.
Digits that no longer fit are dropped; in the integer part each of them raises
the power of ten.
-/

namespace RiscV.Json

/-- Why text is not JSON. -/
inductive Fault
  /-- The text ends too early. -/
  | ended
  /-- The text goes on in a way it must not. -/
  | malformed
  deriving DecidableEq, Repr

/-- A number as read. -/
inductive Number
  /-- A whole number that fits in 64 bits. -/
  | integer (value : Int)
  /-- Any other number, with its sign apart. -/
  | real (negative : Bool) (value : Double)
  deriving DecidableEq, Repr

/-! ### The digits -/

/-- The largest significand. -/
def maxSignificand : Nat := 0xffffffffffffffff

/-- The value of a digit. -/
def digitOf (c : Char) : Nat := c.toNat - '0'.toNat

/-- Digits collected so far, and the power of ten they are to be scaled by. -/
structure Digits where
  /-- The digits as a number. -/
  significand : Nat := 0
  /-- The power of ten. -/
  power : Int := 0
  deriving DecidableEq, Repr

/-- Collect the digits of the integer part.  Once a digit does not fit, it and
all that follow are dropped. -/
def Digits.takeWhole (d : Digits) : List Char → Digits
  | [] => d
  | c :: cs =>
    let next := d.significand * 10 + digitOf c
    if next ≤ maxSignificand then { d with significand := next : Digits }.takeWhole cs
    else { d with power := d.power + (cs.length + 1) }

/-- Collect the digits of the fraction, up to the first that does not fit. -/
def Digits.takeFraction (d : Digits) : List Char → Digits
  | [] => d
  | c :: cs =>
    let next := d.significand * 10 + digitOf c
    if next ≤ maxSignificand then
      { significand := next, power := d.power - 1 : Digits }.takeFraction cs
    else d

/-! ### The parts of a number -/

/-- The parts of a number as written. -/
structure Numeral where
  /-- Whether there is a minus. -/
  negative : Bool
  /-- The digits before the point. -/
  whole : List Char
  /-- The digits after the point, if there is one. -/
  fraction : Option (List Char)
  /-- The sign and digits of the exponent, if there is one. -/
  exponent : Option (Bool × List Char)
  deriving DecidableEq, Repr

/-- The leading digits, and what follows them. -/
def spanDigits (cs : List Char) : List Char × List Char :=
  (cs.takeWhile Char.isDigit, cs.dropWhile Char.isDigit)

/-- Read the integer part: a zero that no digit follows, or digits that start
with another one. -/
def readWhole : List Char → Except Fault (List Char × List Char)
  | [] => .error .ended
  | c :: cs =>
    if c = '0' then
      match cs with
      | d :: _ => if d.isDigit then .error .malformed else .ok (['0'], cs)
      | [] => .ok (['0'], cs)
    else if c.isDigit then .ok (spanDigits (c :: cs)) else .error .malformed

/-- Read a point and the digits after it, if there is a point. -/
def readFraction : List Char → Except Fault (Option (List Char) × List Char)
  | '.' :: cs =>
    match spanDigits cs with
    | ([], []) => .error .ended
    | ([], _ :: _) => .error .malformed
    | (digits, rest) => .ok (some digits, rest)
  | cs => .ok (none, cs)

/-- Read the digits of an exponent with the given sign. -/
def readExponentDigits (negative : Bool) (cs : List Char) :
    Except Fault (Option (Bool × List Char) × List Char) :=
  match spanDigits cs with
  | ([], []) => .error .ended
  | ([], _ :: _) => .error .malformed
  | (digits, rest) => .ok (some (negative, digits), rest)

/-- Read an exponent, if there is one. -/
def readExponent : List Char → Except Fault (Option (Bool × List Char) × List Char)
  | c :: cs =>
    if c = 'e' ∨ c = 'E' then
      match cs with
      | '+' :: cs => readExponentDigits false cs
      | '-' :: cs => readExponentDigits true cs
      | cs => readExponentDigits false cs
    else .ok (none, c :: cs)
  | [] => .ok (none, [])

/-- Read the parts of a number after its sign. -/
def readUnsigned (negative : Bool) (cs : List Char) : Except Fault (Numeral × List Char) := do
  let (whole, cs) ← readWhole cs
  let (fraction, cs) ← readFraction cs
  let (exponent, cs) ← readExponent cs
  .ok (⟨negative, whole, fraction, exponent⟩, cs)

/-- Read the parts of a number. -/
def readNumeral : List Char → Except Fault (Numeral × List Char)
  | '-' :: cs => readUnsigned true cs
  | cs => readUnsigned false cs

/-! ### Reading goes forward -/

theorem length_spanDigits {cs digits rest : List Char} (h : spanDigits cs = (digits, rest)) :
    rest.length ≤ cs.length := by
  simp only [spanDigits, Prod.mk.injEq] at h
  rw [← h.2]
  exact (List.dropWhile_suffix Char.isDigit).length_le

theorem length_readWhole {cs digits rest : List Char}
    (h : readWhole cs = .ok (digits, rest)) : rest.length < cs.length := by
  cases cs with
  | nil => simp [readWhole] at h
  | cons c cs =>
    simp only [readWhole] at h
    split at h
    · split at h
      · split at h
        · simp at h
        · simp only [Except.ok.injEq, Prod.mk.injEq] at h
          simp [← h.2]
      · simp only [Except.ok.injEq, Prod.mk.injEq] at h
        simp [← h.2]
    · split at h
      · next hd =>
        simp only [spanDigits, List.dropWhile_cons_of_pos hd, Except.ok.injEq,
          Prod.mk.injEq] at h
        have := (List.dropWhile_suffix (l := cs) Char.isDigit).length_le
        simp only [← h.2, List.length_cons]
        omega
      · simp at h

theorem length_readFraction {cs rest : List Char} {fraction : Option (List Char)}
    (h : readFraction cs = .ok (fraction, rest)) : rest.length ≤ cs.length := by
  unfold readFraction at h
  split at h
  · split at h
    · simp at h
    · simp at h
    · next hs =>
      simp only [Except.ok.injEq, Prod.mk.injEq] at h
      have := length_spanDigits hs
      simp only [← h.2, List.length_cons]
      omega
  · simp only [Except.ok.injEq, Prod.mk.injEq] at h
    simp [← h.2]

theorem length_readExponentDigits {negative : Bool} {cs rest : List Char}
    {exponent : Option (Bool × List Char)}
    (h : readExponentDigits negative cs = .ok (exponent, rest)) : rest.length ≤ cs.length := by
  unfold readExponentDigits at h
  split at h
  · simp at h
  · simp at h
  · next hs =>
    simp only [Except.ok.injEq, Prod.mk.injEq] at h
    rw [← h.2]
    exact length_spanDigits hs

theorem length_readExponent {cs rest : List Char} {exponent : Option (Bool × List Char)}
    (h : readExponent cs = .ok (exponent, rest)) : rest.length ≤ cs.length := by
  unfold readExponent at h
  split at h
  · split at h
    · split at h
      all_goals
        have := length_readExponentDigits h
        simp only [List.length_cons]
        omega
    · simp only [Except.ok.injEq, Prod.mk.injEq] at h
      simp [← h.2]
  · simp only [Except.ok.injEq, Prod.mk.injEq] at h
    simp [← h.2]

theorem length_readUnsigned {negative : Bool} {cs rest : List Char} {numeral : Numeral}
    (h : readUnsigned negative cs = .ok (numeral, rest)) : rest.length < cs.length := by
  unfold readUnsigned at h
  cases hw : readWhole cs with
  | error f => simp [hw, bind, Except.bind] at h
  | ok r =>
    obtain ⟨whole, cs₁⟩ := r
    cases hf : readFraction cs₁ with
    | error f => simp [hw, hf, bind, Except.bind] at h
    | ok r =>
      obtain ⟨fraction, cs₂⟩ := r
      cases he : readExponent cs₂ with
      | error f => simp [hw, hf, he, bind, Except.bind] at h
      | ok r =>
        obtain ⟨exponent, cs₃⟩ := r
        simp only [hw, hf, he, bind, Except.bind, Except.ok.injEq, Prod.mk.injEq] at h
        have := length_readWhole hw
        have := length_readFraction hf
        have := length_readExponent he
        rw [← h.2]
        omega

theorem length_readNumeral {cs rest : List Char} {numeral : Numeral}
    (h : readNumeral cs = .ok (numeral, rest)) : rest.length < cs.length := by
  unfold readNumeral at h
  split at h
  · have := length_readUnsigned h
    simp only [List.length_cons]
    omega
  · exact length_readUnsigned h

/-! ### The value -/

/-- The power of ten an exponent stands for. -/
def exponentValue : Option (Bool × List Char) → Int
  | none => 0
  | some (negative, digits) =>
    let n : Int := (digits.foldl (fun n c => n * 10 + digitOf c) 0 : Nat)
    if negative then -n else n

/-- The double of a numeral, if it is in range. -/
def Numeral.real? (n : Numeral) : Option Number :=
  let digits := (({} : Digits).takeWhole n.whole).takeFraction (n.fraction.getD [])
  (Double.scaled digits.significand (digits.power + exponentValue n.exponent)).map
    (.real n.negative)

/-- The number a numeral stands for, if it is in range.  Minus zero is no
integer. -/
def Numeral.value? (n : Numeral) : Option Number :=
  let digits := ({} : Digits).takeWhole n.whole
  if n.fraction.isNone ∧ n.exponent.isNone ∧ digits.power = 0 then
    if n.negative then
      if 0 < digits.significand ∧ digits.significand ≤ 0x8000000000000000 then
        some (.integer (-digits.significand))
      else n.real?
    else some (.integer digits.significand)
  else n.real?

/-- Read a number. -/
def readNumber (cs : List Char) : Except Fault (Number × List Char) := do
  let (numeral, rest) ← readNumeral cs
  match numeral.value? with
  | some number => .ok (number, rest)
  | none => .error .malformed

theorem length_readNumber {cs rest : List Char} {number : Number}
    (h : readNumber cs = .ok (number, rest)) : rest.length < cs.length := by
  unfold readNumber at h
  cases hn : readNumeral cs with
  | error f => simp [hn, bind, Except.bind] at h
  | ok r =>
    obtain ⟨numeral, rest'⟩ := r
    simp only [hn, bind, Except.bind] at h
    split at h
    · simp only [Except.ok.injEq, Prod.mk.injEq] at h
      rw [← h.2]
      exact length_readNumeral hn
    · simp at h

/-- The text of a number in a message. -/
def Number.text : Number → String
  | integer value => Text.decimal value
  | real negative value => (if negative then "-" else "") ++ value.text

end RiscV.Json
