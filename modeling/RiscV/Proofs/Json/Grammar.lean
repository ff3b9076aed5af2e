import RiscV.Json.Token
import RiscV.Proofs.Text.Numeral

/-!
# The grammar of JSON

A JSON value can be written in many ways: with blanks around every part, with escapes in
its strings, and with either letter before an exponent.  The grammar says which texts
write a value.  A number is kept as it is written, so that `32`, `32.0` and `3.2e1` are
three values; the members of an object are kept in their order, with repeated keys.

## Main definitions

* `Value` — the values.
* `WritesNumeral`, `WritesString` — the texts of a number and of a string.
* `Phrase`, `Writes` — the texts of a value, of elements and of members.
* `IsText` — a whole text with one value.
-/

namespace RiscV.Json

/-- A JSON value. -/
inductive Value
  /-- The word `null`. -/
  | null
  /-- A truth value. -/
  | boolean (value : Bool)
  /-- A number, as it is written. -/
  | number (numeral : Numeral)
  /-- A string. -/
  | string (text : String)
  /-- A list. -/
  | list (elements : List Value)
  /-- An object: its keys and their values, in order. -/
  | object (members : List (String × Value))

/-! ### Numbers -/

/-- Digits, at least one. -/
def IsDigits (cs : List Char) : Prop := cs ≠ [] ∧ ∀ c ∈ cs, c.isDigit = true

/-- The digits before the point: a zero, or digits that start with another one. -/
inductive IsWhole : List Char → Prop
  | zero : IsWhole ['0']
  | digits {c : Char} {cs : List Char} (hc : c ≠ '0') (h : IsDigits (c :: cs)) :
      IsWhole (c :: cs)

/-- The text of a fraction, if there is one. -/
inductive WritesFraction : Option (List Char) → List Char → Prop
  | absent : WritesFraction none []
  | present {digits : List Char} (h : IsDigits digits) :
      WritesFraction (some digits) ('.' :: digits)

/-- The text of an exponent, if there is one.  A plus may be left out. -/
inductive WritesExponent : Option (Bool × List Char) → List Char → Prop
  | absent : WritesExponent none []
  | present {letter : Char} {sign digits : List Char} {negative : Bool}
      (hletter : letter = 'e' ∨ letter = 'E')
      (hsign : if negative then sign = ['-'] else sign = [] ∨ sign = ['+'])
      (h : IsDigits digits) :
      WritesExponent (some (negative, digits)) (letter :: (sign ++ digits))

/-- The text of a number. -/
inductive WritesNumeral : Numeral → List Char → Prop
  | mk {n : Numeral} {fraction exponent : List Char} (hwhole : IsWhole n.whole)
      (hfraction : WritesFraction n.fraction fraction)
      (hexponent : WritesExponent n.exponent exponent) :
      WritesNumeral n ((if n.negative then ['-'] else []) ++ (n.whole ++ (fraction ++ exponent)))

/-! ### Strings -/

/-- Four hexadecimal digits for a code unit. -/
def IsUnit (unit : Nat) (digits : List Char) : Prop :=
  digits.length = 4 ∧ (∀ c ∈ digits, Text.digitValue c < 16) ∧ Text.denoted 16 digits = unit

/-- The text of a character: itself, unless it is a quote, a backslash or a control; an
escape of one letter; or its code units. -/
inductive WritesChar : Char → List Char → Prop
  | plain {c : Char} (hcontrol : 0x20 ≤ c.toNat) (hquote : c ≠ '"') (hbackslash : c ≠ '\\') :
      WritesChar c [c]
  | escape {letter c : Char} (h : (letter, c) ∈ escapes) : WritesChar c ['\\', letter]
  | unit {c : Char} {digits : List Char} (h : IsUnit c.toNat digits) :
      WritesChar c ('\\' :: 'u' :: digits)
  | pair {c : Char} {leading trailing : List Char} (hc : 0x10000 ≤ c.toNat)
      (hleading : IsUnit (0xd800 + (c.toNat - 0x10000) / 0x400) leading)
      (htrailing : IsUnit (0xdc00 + (c.toNat - 0x10000) % 0x400) trailing) :
      WritesChar c ('\\' :: 'u' :: (leading ++ '\\' :: 'u' :: trailing))

/-- The text of characters that follow each other. -/
inductive WritesChars : List Char → List Char → Prop
  | nil : WritesChars [] []
  | cons {c : Char} {cs text rest : List Char} (hc : WritesChar c text)
      (hcs : WritesChars cs rest) : WritesChars (c :: cs) (text ++ rest)

/-- The text of a string. -/
inductive WritesString : String → List Char → Prop
  | mk {s : String} {text : List Char} (h : WritesChars s.toList text) :
      WritesString s ('"' :: (text ++ ['"']))

/-! ### Values -/

/-- Blanks between tokens. -/
def IsGap (cs : List Char) : Prop := ∀ c ∈ cs, isSpace c = true

theorem isGap_nil : IsGap [] := by
  intro c hc
  contradiction

/-- What a part of a text can stand for. -/
inductive Phrase
  /-- A value. -/
  | value (v : Value)
  /-- The elements of a list: the first one, and further ones. -/
  | elements (v : Value) (vs : List Value)
  /-- The members of an object: the first one, and further ones. -/
  | members (key : String) (v : Value) (es : List (String × Value))

/-- The texts of a phrase. -/
inductive Writes : Phrase → List Char → Prop
  | null : Writes (.value .null) ['n', 'u', 'l', 'l']
  | true : Writes (.value (.boolean true)) ['t', 'r', 'u', 'e']
  | false : Writes (.value (.boolean false)) ['f', 'a', 'l', 's', 'e']
  | number {n : Numeral} {cs : List Char} (h : WritesNumeral n cs) : Writes (.value (.number n)) cs
  | string {s : String} {cs : List Char} (h : WritesString s cs) : Writes (.value (.string s)) cs
  | emptyList {gap : List Char} (h : IsGap gap) : Writes (.value (.list [])) ('[' :: (gap ++ [']']))
  | list {v : Value} {vs : List Value} {cs : List Char} (h : Writes (.elements v vs) cs) :
      Writes (.value (.list (v :: vs))) ('[' :: (cs ++ [']']))
  | emptyObject {gap : List Char} (h : IsGap gap) :
      Writes (.value (.object [])) ('\x7b' :: (gap ++ ['\x7d']))
  | object {key : String} {v : Value} {es : List (String × Value)} {cs : List Char}
      (h : Writes (.members key v es) cs) :
      Writes (.value (.object ((key, v) :: es))) ('\x7b' :: (cs ++ ['\x7d']))
  /-- A value with blanks around it. -/
  | element {v : Value} {before cs behind : List Char} (hbefore : IsGap before)
      (h : Writes (.value v) cs) (hbehind : IsGap behind) :
      Writes (.elements v []) (before ++ (cs ++ behind))
  /-- An element, a comma and further elements. -/
  | elements {v v' : Value} {vs : List Value} {cs ds : List Char}
      (h : Writes (.elements v []) cs) (hmore : Writes (.elements v' vs) ds) :
      Writes (.elements v (v' :: vs)) (cs ++ ',' :: ds)
  /-- A key with blanks around it, a colon and an element. -/
  | member {key : String} {v : Value} {before text behind cs : List Char}
      (hbefore : IsGap before) (hkey : WritesString key text) (hbehind : IsGap behind)
      (h : Writes (.elements v []) cs) :
      Writes (.members key v []) (before ++ (text ++ (behind ++ ':' :: cs)))
  /-- A member, a comma and further members. -/
  | members {key key' : String} {v v' : Value} {es : List (String × Value)}
      {cs ds : List Char} (h : Writes (.members key v []) cs)
      (hmore : Writes (.members key' v' es) ds) :
      Writes (.members key v ((key', v') :: es)) (cs ++ ',' :: ds)

/-- A whole text: one value, with blanks around it. -/
def IsText (v : Value) (cs : List Char) : Prop := Writes (.elements v []) cs

end RiscV.Json
