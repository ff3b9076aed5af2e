import RiscV.Proofs.Json.Grammar

/-!
# Printing JSON

Every value can be written: without blanks, with its strings in quotes and only those
characters escaped that must be.  All it takes is that its numbers have the digits they
need.

## Main definitions

* `Value.Proper` — the numbers of a value have their digits.
* `Numeral.ofNat` — a natural number.
* `Value.text` — a text of a value.

## Main results

* `isText_text` — **every proper value has a text.**
-/

namespace RiscV.Json

/-! ### Proper values -/

/-- The parts of a number have their digits. -/
structure Numeral.Proper (n : Numeral) : Prop where
  whole : IsWhole n.whole
  fraction : ∀ digits, n.fraction = some digits → IsDigits digits
  exponent : ∀ negative digits, n.exponent = some (negative, digits) → IsDigits digits

/-- All numbers in a value have their digits. -/
inductive Value.Proper : Value → Prop
  | null : Proper .null
  | boolean (b : Bool) : Proper (.boolean b)
  | number {n : Numeral} (h : n.Proper) : Proper (.number n)
  | string (s : String) : Proper (.string s)
  | list {vs : List Value} (h : ∀ v ∈ vs, v.Proper) : Proper (.list vs)
  | object {es : List (String × Value)} (h : ∀ e ∈ es, e.2.Proper) : Proper (.object es)

/-- The number with the digits of a natural number and nothing else. -/
def Numeral.ofNat (n : Nat) : Numeral := ⟨false, Nat.toDigits 10 n, none, none⟩

/-- A numeral has no zeros in front. -/
theorem toDigits_ten_ne_zero {n : Nat} (hn : n ≠ 0) :
    ∃ c cs, Nat.toDigits 10 n = c :: cs ∧ c ≠ '0' := by
  induction n using Nat.strongRecOn with
  | _ n ih =>
    rw [Nat.toDigits_eq_if (by decide)]
    split
    · next hlt =>
      have hall : ∀ d < 10, d ≠ 0 → d.digitChar ≠ '0' := by decide
      exact ⟨n.digitChar, [], rfl, hall n hlt hn⟩
    · next hge =>
      obtain ⟨c, cs, hcs, hc⟩ := ih (n / 10) (by omega) (by omega)
      rw [hcs]
      exact ⟨c, _, rfl, hc⟩

theorem isWhole_toDigits (n : Nat) : IsWhole (Nat.toDigits 10 n) := by
  by_cases hn : n = 0
  · subst hn
    exact .zero
  · have hdigits : IsDigits (Nat.toDigits 10 n) :=
      ⟨Nat.toDigits_ne_nil, fun c hc => Nat.isDigit_of_mem_toDigits (by decide) (by decide) hc⟩
    obtain ⟨c, cs, hcs, hc⟩ := toDigits_ten_ne_zero hn
    rw [hcs] at hdigits ⊢
    exact .digits hc hdigits

theorem Numeral.proper_ofNat (n : Nat) : (Numeral.ofNat n).Proper where
  whole := isWhole_toDigits n
  fraction := by
    intro digits h
    contradiction
  exponent := by
    intro negative digits h
    contradiction

/-! ### The text of a value -/

/-- The text of a number. -/
def Numeral.text (n : Numeral) : List Char :=
  (if n.negative then ['-'] else []) ++ (n.whole ++
    ((match n.fraction with
      | none => []
      | some digits => '.' :: digits) ++
    (match n.exponent with
      | none => []
      | some (negative, digits) => 'e' :: ((if negative then ['-'] else []) ++ digits))))

/-- The text of a character in a string.  A control is written as a code unit, the first
two digits of which are zeros. -/
def charText (c : Char) : List Char :=
  if c = '"' ∨ c = '\\' then ['\\', c]
  else if c.toNat < 0x20 then
    ['\\', 'u', '0', '0', (c.toNat / 16).digitChar, (c.toNat % 16).digitChar]
  else [c]

/-- The text of a string. -/
def stringText (s : String) : List Char := '"' :: (s.toList.flatMap charText ++ ['"'])

mutual

/-- A text of a value, without blanks. -/
def Value.text : Value → List Char
  | .null => ['n', 'u', 'l', 'l']
  | .boolean true => ['t', 'r', 'u', 'e']
  | .boolean false => ['f', 'a', 'l', 's', 'e']
  | .number n => n.text
  | .string s => stringText s
  | .list [] => ['[', ']']
  | .list (v :: vs) => '[' :: (v.text ++ elementsText vs ++ [']'])
  | .object [] => ['\x7b', '\x7d']
  | .object ((key, v) :: es) =>
    '\x7b' :: (stringText key ++ ':' :: v.text ++ membersText es ++ ['\x7d'])

/-- The text of the elements behind the first one. -/
def elementsText : List Value → List Char
  | [] => []
  | v :: vs => ',' :: (v.text ++ elementsText vs)

/-- The text of the members behind the first one. -/
def membersText : List (String × Value) → List Char
  | [] => []
  | (key, v) :: es => ',' :: (stringText key ++ ':' :: v.text ++ membersText es)

end

theorem writesNumeral_text {n : Numeral} (h : n.Proper) : WritesNumeral n n.text := by
  refine .mk h.whole ?_ ?_
  · cases hfraction : n.fraction with
    | none => exact .absent
    | some digits => exact .present (h.fraction digits hfraction)
  · cases hexponent : n.exponent with
    | none => exact .absent
    | some e =>
      obtain ⟨negative, digits⟩ := e
      refine .present (.inl rfl) ?_ (h.exponent negative digits hexponent)
      cases negative with
      | true => exact rfl
      | false => exact .inl rfl

theorem writesChar_charText (c : Char) : WritesChar c (charText c) := by
  rw [charText]
  split
  · next hc =>
    refine .escape ?_
    rcases hc with rfl | rfl <;> decide
  · next hc =>
    split
    · next hcontrol =>
      have hzero : Text.digitValue '0' = 0 := by decide
      have hhigh : Text.digitValue (c.toNat / 16).digitChar = c.toNat / 16 :=
        Text.digitValue_digitChar (by omega)
      have hlow : Text.digitValue (c.toNat % 16).digitChar = c.toNat % 16 :=
        Text.digitValue_digitChar (by omega)
      refine .unit ⟨rfl, ?_, ?_⟩
      · intro d hd
        simp only [List.mem_cons, List.not_mem_nil, or_false] at hd
        rcases hd with rfl | rfl | rfl | rfl <;> omega
      · simp only [Text.denoted, List.foldl_cons, List.foldl_nil, hzero, hhigh, hlow]
        omega
    · next hcontrol =>
      exact .plain (Nat.le_of_not_lt hcontrol) (fun h => hc (.inl h)) (fun h => hc (.inr h))

theorem writesChars_flatMap (cs : List Char) : WritesChars cs (cs.flatMap charText) := by
  induction cs with
  | nil => exact .nil
  | cons c cs ih => exact .cons (writesChar_charText c) ih

theorem writesString_text (s : String) : WritesString s (stringText s) :=
  .mk (writesChars_flatMap s.toList)

/-- A value alone is an element. -/
theorem writes_element {v : Value} {cs : List Char} (h : Writes (.value v) cs) :
    Writes (.elements v []) cs := by
  have := Writes.element isGap_nil h isGap_nil
  rwa [List.append_nil, List.nil_append] at this

theorem writes_elementsText {v : Value} {vs : List Value} {cs : List Char}
    (h : Writes (.value v) cs) (hvs : ∀ v ∈ vs, Writes (.value v) v.text) :
    Writes (.elements v vs) (cs ++ elementsText vs) := by
  induction vs generalizing v cs with
  | nil =>
    rw [elementsText, List.append_nil]
    exact writes_element h
  | cons v' vs ih =>
    obtain ⟨hv', hvs⟩ := List.forall_mem_cons.mp hvs
    rw [elementsText]
    exact .elements (writes_element h) (ih hv' hvs)

theorem writes_member {v : Value} {cs : List Char} (key : String) (h : Writes (.value v) cs) :
    Writes (.members key v []) (stringText key ++ ':' :: cs) :=
  .member isGap_nil (writesString_text key) isGap_nil (writes_element h)

theorem writes_membersText {key : String} {v : Value} {es : List (String × Value)}
    {cs : List Char} (h : Writes (.value v) cs) (hes : ∀ e ∈ es, Writes (.value e.2) e.2.text) :
    Writes (.members key v es) (stringText key ++ ':' :: cs ++ membersText es) := by
  induction es generalizing key v cs with
  | nil =>
    rw [membersText, List.append_nil]
    exact writes_member key h
  | cons e es ih =>
    obtain ⟨he, hes⟩ := List.forall_mem_cons.mp hes
    rw [membersText]
    exact .members (writes_member key h) (ih he hes)

theorem writes_text {v : Value} (h : v.Proper) : Writes (.value v) v.text := by
  induction h with
  | null =>
    rw [Value.text]
    exact .null
  | boolean b =>
    cases b with
    | true =>
      rw [Value.text]
      exact .true
    | false =>
      rw [Value.text]
      exact .false
  | number h =>
    rw [Value.text]
    exact .number (writesNumeral_text h)
  | string s =>
    rw [Value.text]
    exact .string (writesString_text s)
  | @list vs _ ih =>
    cases vs with
    | nil =>
      rw [Value.text]
      exact .emptyList isGap_nil
    | cons v vs =>
      obtain ⟨hv, hvs⟩ := List.forall_mem_cons.mp ih
      rw [Value.text]
      exact .list (writes_elementsText hv hvs)
  | @object es _ ih =>
    cases es with
    | nil =>
      rw [Value.text]
      exact .emptyObject isGap_nil
    | cons e es =>
      obtain ⟨he, hes⟩ := List.forall_mem_cons.mp ih
      rw [Value.text]
      exact .object (writes_membersText he hes)

/-- **Every proper value has a text.** -/
theorem isText_text {v : Value} (h : v.Proper) : IsText v v.text := writes_element (writes_text h)

end RiscV.Json
