import RiscV.Proofs.Json.Grammar

/-!
# Cutting a JSON text into tokens

The tokens of a text that writes a value are told by the value: blanks, escapes and the
spelling of exponents leave no trace in them.  A number that is out of range is broken,
and the tokens end there.

Since tokens can end early, the tokens of a value are defined together with those that
follow it.

## Main definitions

* `Value.tokens`, `furtherElements`, `furtherMembers` — the tokens of a value, and of what
  comes behind the first element or member, in front of other tokens.
* `Token.mark?` — the characters that are tokens by themselves.
* `Follows` — what may follow a value.

## Main results

* `readNumber_append`, `readString_append` — numbers and strings are read up to their end.
* `tokens_append` — **a text is cut into the tokens of what it writes.**
-/

namespace RiscV.Json

/-! ### The tokens of a value -/

mutual

/-- The tokens of a value, in front of the tokens `rest`. -/
def Value.tokens : Value → List Token → List Token
  | .null, rest => .null :: rest
  | .boolean b, rest => .plain (.boolean b) :: rest
  | .number n, rest =>
    match n.value? with
    | some number => .plain (.number number) :: rest
    | none => [.brokenPlain .malformed]
  | .string text, rest => .string text :: rest
  | .list [], rest => .openList :: .closeList :: rest
  | .list (v :: vs), rest => .openList :: v.tokens (furtherElements vs (.closeList :: rest))
  | .object [], rest => .openObject :: .closeObject :: rest
  | .object ((key, v) :: es), rest =>
    .openObject :: .string key :: .colon :: v.tokens (furtherMembers es (.closeObject :: rest))

/-- The tokens of the elements behind the first one, in front of the tokens `rest`. -/
def furtherElements : List Value → List Token → List Token
  | [], rest => rest
  | v :: vs, rest => .comma :: v.tokens (furtherElements vs rest)

/-- The tokens of the members behind the first one, in front of the tokens `rest`. -/
def furtherMembers : List (String × Value) → List Token → List Token
  | [], rest => rest
  | (key, v) :: es, rest => .comma :: .string key :: .colon :: v.tokens (furtherMembers es rest)

end

/-- The tokens of a phrase, in front of the tokens `rest`. -/
def Phrase.tokens : Phrase → List Token → List Token
  | value v, rest => v.tokens rest
  | elements v vs, rest => v.tokens (furtherElements vs rest)
  | members key v es, rest => .string key :: .colon :: v.tokens (furtherMembers es rest)

/-- A value does not start with a closing bracket. -/
theorem Value.tokens_ne_closeList (v : Value) (k ts : List Token) :
    v.tokens k ≠ .closeList :: ts := by
  cases v with
  | number n => cases h : n.value? <;> simp [Value.tokens, h]
  | list vs => cases vs <;> simp [Value.tokens]
  | object es => cases es <;> simp [Value.tokens]
  | _ => simp [Value.tokens]

/-! ### Tokens and blanks -/

theorem tokens_cons {c : Char} (hc : isSpace c = false) (cs : List Char) :
    tokens (c :: cs) = (scan c cs).1 :: tokens (scan c cs).2 := by
  rw [tokens, hc]
  rfl

/-- The character of a token between values. -/
def Token.mark? : Token → Option Char
  | .openObject => some '\x7b'
  | .closeObject => some '\x7d'
  | .openList => some '['
  | .closeList => some ']'
  | .comma => some ','
  | .colon => some ':'
  | _ => none

theorem tokens_mark (t : Token) {c : Char} (h : t.mark? = some c) (cs : List Char) :
    tokens (c :: cs) = t :: tokens cs := by
  cases t with
  | openObject | closeObject | openList | closeList | comma | colon =>
    obtain rfl := Option.some.inj h
    rw [tokens_cons (by decide)]
    rfl
  | _ => contradiction

theorem tokens_gap {gap : List Char} (h : IsGap gap) (cs : List Char) :
    tokens (gap ++ cs) = tokens cs := by
  induction gap with
  | nil => rfl
  | cons c gap ih =>
    rw [List.cons_append, tokens, if_pos (h c List.mem_cons_self)]
    exact ih fun d hd => h d (List.mem_cons_of_mem c hd)

theorem readWord_append (word cs : List Char) : readWord word (word ++ cs) = .ok cs := by
  induction word with
  | nil => rfl
  | cons c word ih => rw [List.cons_append, readWord, if_pos rfl, ih]

/-- What may follow a value: the end, a blank, a comma or a closing bracket. -/
def Follows (rest : List Char) : Prop :=
  ∀ c, rest.head? = some c → isSpace c = true ∨ c = ',' ∨ c = ']' ∨ c = '\x7d'

theorem follows_nil : Follows [] := by
  intro c hc
  contradiction

theorem follows_cons {c : Char} (hc : isSpace c = true ∨ c = ',' ∨ c = ']' ∨ c = '\x7d')
    (rest : List Char) : Follows (c :: rest) := by
  intro d hd
  rwa [← Option.some.inj hd]

theorem IsGap.follows {gap rest : List Char} (h : IsGap gap) (hrest : Follows rest) :
    Follows (gap ++ rest) := by
  cases gap with
  | nil => exact hrest
  | cons c gap => exact follows_cons (.inl (h c List.mem_cons_self)) _

/-! ### Numbers -/

/-- The text does not go on with a digit. -/
def NoDigit (cs : List Char) : Prop := ∀ c, cs.head? = some c → c.isDigit = false

/-- What follows a value continues no number. -/
theorem Follows.noDigit {rest : List Char} (h : Follows rest) :
    NoDigit rest ∧ rest.head? ≠ some '.' ∧ rest.head? ≠ some 'e' ∧ rest.head? ≠ some 'E' := by
  have hall : ∀ c, rest.head? = some c →
      c.isDigit = false ∧ c ≠ '.' ∧ c ≠ 'e' ∧ c ≠ 'E' := by
    intro c hc
    rcases h c hc with hspace | rfl | rfl | rfl
    · simp only [isSpace, Bool.or_eq_true, beq_iff_eq] at hspace
      rcases hspace with ((rfl | rfl) | rfl) | rfl <;> decide
    all_goals decide
  exact ⟨fun c hc => (hall c hc).1, fun hc => (hall _ hc).2.1 rfl,
    fun hc => (hall _ hc).2.2.1 rfl, fun hc => (hall _ hc).2.2.2 rfl⟩

theorem spanDigits_append {digits rest : List Char} (h : ∀ c ∈ digits, c.isDigit = true)
    (hrest : NoDigit rest) : spanDigits (digits ++ rest) = (digits, rest) := by
  rw [spanDigits, List.takeWhile_append_of_pos h, List.dropWhile_append_of_pos h]
  cases rest with
  | nil => simp
  | cons c rest => simp [hrest c rfl]

theorem readWhole_append {whole rest : List Char} (h : IsWhole whole) (hrest : NoDigit rest) :
    readWhole (whole ++ rest) = .ok (whole, rest) := by
  cases h with
  | zero =>
    cases rest with
    | nil => rfl
    | cons c rest =>
      have hc : c.isDigit = false := hrest c rfl
      simp [readWhole, hc]
  | @digits c cs hc h =>
    have hspan := spanDigits_append h.2 hrest
    rw [List.cons_append] at hspan ⊢
    simp only [readWhole, if_neg hc, h.2 c List.mem_cons_self, if_true, hspan]

theorem readFraction_append {fraction : Option (List Char)} {text rest : List Char}
    (h : WritesFraction fraction text) (hrest : NoDigit rest)
    (hpoint : rest.head? ≠ some '.') : readFraction (text ++ rest) = .ok (fraction, rest) := by
  cases h with
  | absent =>
    rw [List.nil_append]
    unfold readFraction
    split
    · exact absurd rfl hpoint
    · rfl
  | @present digits h =>
    obtain ⟨c, cs, rfl⟩ := List.exists_cons_of_ne_nil h.1
    simp only [List.cons_append, readFraction]
    rw [← List.cons_append, spanDigits_append h.2 hrest]

theorem readExponentDigits_append {digits rest : List Char} (h : IsDigits digits)
    (hrest : NoDigit rest) (negative : Bool) :
    readExponentDigits negative (digits ++ rest) = .ok (some (negative, digits), rest) := by
  obtain ⟨c, cs, rfl⟩ := List.exists_cons_of_ne_nil h.1
  rw [readExponentDigits, spanDigits_append h.2 hrest]

theorem readExponent_append {exponent : Option (Bool × List Char)} {text rest : List Char}
    (h : WritesExponent exponent text) (hrest : NoDigit rest) (he : rest.head? ≠ some 'e')
    (hE : rest.head? ≠ some 'E') : readExponent (text ++ rest) = .ok (exponent, rest) := by
  cases h with
  | absent =>
    cases rest with
    | nil => rfl
    | cons c rest =>
      have hletter : ¬(c = 'e' ∨ c = 'E') := by
        rintro (rfl | rfl)
        · exact he rfl
        · exact hE rfl
      simp [readExponent, hletter]
  | @present letter sign digits negative hletter hsign h =>
    simp only [List.cons_append, readExponent, if_pos hletter]
    cases negative with
    | true =>
      obtain rfl : sign = ['-'] := by simpa using hsign
      exact readExponentDigits_append h hrest true
    | false =>
      rcases (by simpa using hsign : sign = [] ∨ sign = ['+']) with rfl | rfl
      · -- without a sign, the digits themselves are none
        have hdigits := readExponentDigits_append h hrest false
        obtain ⟨c, cs, rfl⟩ := List.exists_cons_of_ne_nil h.1
        have hc : c.isDigit = true := h.2 c List.mem_cons_self
        simp only [List.nil_append, List.cons_append] at hdigits ⊢
        split
        · next heq =>
          obtain ⟨rfl, -⟩ := List.cons.inj heq
          contradiction
        · next heq =>
          obtain ⟨rfl, -⟩ := List.cons.inj heq
          contradiction
        · exact hdigits
      · exact readExponentDigits_append h hrest false

theorem WritesFraction.noDigit {fraction : Option (List Char)} {text rest : List Char}
    (h : WritesFraction fraction text) (hrest : NoDigit rest) : NoDigit (text ++ rest) := by
  cases h with
  | absent => exact hrest
  | present h =>
    intro c hc
    rw [← Option.some.inj hc]
    decide

theorem WritesExponent.noDigit {exponent : Option (Bool × List Char)} {text rest : List Char}
    (h : WritesExponent exponent text) (hrest : NoDigit rest) (hpoint : rest.head? ≠ some '.') :
    NoDigit (text ++ rest) ∧ (text ++ rest).head? ≠ some '.' := by
  cases h with
  | absent => exact ⟨hrest, hpoint⟩
  | present hletter _ _ =>
    constructor
    · intro c hc
      rw [← Option.some.inj hc]
      rcases hletter with rfl | rfl <;> decide
    · intro hc
      rw [Option.some.inj hc] at hletter
      revert hletter
      decide

/-- The integer part starts with a digit. -/
theorem IsWhole.exists_cons {whole : List Char} (h : IsWhole whole) :
    ∃ c cs, whole = c :: cs ∧ c.isDigit = true := by
  cases h with
  | zero => exact ⟨'0', [], rfl, by decide⟩
  | digits _ h => exact ⟨_, _, rfl, h.2 _ List.mem_cons_self⟩

theorem readUnsigned_append {n : Numeral} {fraction exponent rest : List Char}
    (hwhole : IsWhole n.whole) (hfraction : WritesFraction n.fraction fraction)
    (hexponent : WritesExponent n.exponent exponent) (hrest : Follows rest) :
    readUnsigned n.negative (n.whole ++ (fraction ++ exponent) ++ rest) = .ok (n, rest) := by
  obtain ⟨hdigit, hpoint, he, hE⟩ := hrest.noDigit
  obtain ⟨hdigit', hpoint'⟩ := hexponent.noDigit hdigit hpoint
  rw [readUnsigned, List.append_assoc, List.append_assoc,
    readWhole_append hwhole (hfraction.noDigit hdigit')]
  simp only [bind, Except.bind, readFraction_append hfraction hdigit' hpoint',
    readExponent_append hexponent hdigit he hE]

/-- The parts of a number are read up to its end. -/
theorem readNumeral_append {n : Numeral} {cs rest : List Char} (h : WritesNumeral n cs)
    (hrest : Follows rest) : readNumeral (cs ++ rest) = .ok (n, rest) := by
  cases h with
  | @mk fraction exponent hwhole hfraction hexponent =>
    have hparts := readUnsigned_append hwhole hfraction hexponent hrest
    cases hnegative : n.negative with
    | true =>
      rw [hnegative] at hparts
      exact hparts
    | false =>
      -- the first character is a digit, and no minus
      rw [hnegative] at hparts
      obtain ⟨c, cs, hcs, hc⟩ := hwhole.exists_cons
      rw [hcs] at hparts ⊢
      unfold readNumeral
      split
      · next heq =>
        obtain ⟨rfl, -⟩ := List.cons.inj heq
        contradiction
      · exact hparts

theorem readNumber_append {n : Numeral} {cs rest : List Char} (h : WritesNumeral n cs)
    (hrest : Follows rest) :
    readNumber (cs ++ rest) = match n.value? with
      | some number => .ok (number, rest)
      | none => .error .malformed := by
  rw [readNumber, readNumeral_append h hrest]
  rfl

/-- A number starts with a digit or a minus. -/
theorem WritesNumeral.exists_cons {n : Numeral} {cs : List Char} (h : WritesNumeral n cs) :
    ∃ c ds, cs = c :: ds ∧ (c = '-' ∨ c.isDigit = true) := by
  obtain ⟨hwhole, -, -⟩ := h
  cases hnegative : n.negative with
  | true => exact ⟨'-', _, rfl, .inl rfl⟩
  | false =>
    obtain ⟨c, ds, hcs, hc⟩ := hwhole.exists_cons
    rw [hcs]
    exact ⟨c, _, rfl, .inr hc⟩

theorem scan_number {c : Char} (hc : c = '-' ∨ c.isDigit = true) (cs : List Char) :
    isSpace c = false ∧ scan c cs = match readNumber (c :: cs) with
      | .ok (number, rest) => (.plain (.number number), rest)
      | .error fault => (.brokenPlain fault, []) := by
  have hne : ∀ d : Char, ¬(d = '-' ∨ d.isDigit = true) → c ≠ d := by
    rintro d hd rfl
    exact hd hc
  constructor
  · simp [isSpace, hne ' ' (by decide), hne '\t' (by decide), hne '\n' (by decide),
      hne '\r' (by decide)]
  · unfold scan
    split
    all_goals first | exact absurd rfl (hne _ (by decide)) | skip
    exact if_pos hc

/-! ### Strings -/

theorem mapM_digit? {b : Nat} {cs : List Char} (h : ∀ c ∈ cs, Text.digitValue c < b) :
    cs.mapM (Text.digit? b) = some (cs.map Text.digitValue) := by
  induction cs with
  | nil => rfl
  | cons c cs ih =>
    obtain ⟨hc, hcs⟩ := List.forall_mem_cons.mp h
    rw [List.mapM_cons, Text.digit?, if_pos hc, ih hcs]
    rfl

/-- A text has at least as many bytes as characters. -/
theorem length_le_foldl_utf8Size (cs : List Char) (n : Nat) :
    n + cs.length ≤ cs.foldl (fun bytes c => bytes + c.utf8Size) n := by
  induction cs generalizing n with
  | nil => exact Nat.le_refl n
  | cons c cs ih =>
    have hsize : 0 < c.utf8Size := c.utf8Size_pos
    have hrest := ih (n + c.utf8Size)
    rw [List.foldl_cons, List.length_cons]
    omega

theorem readUnit_append {unit : Nat} {digits : List Char} (h : IsUnit unit digits)
    (rest : List Char) : readUnit (digits ++ rest) = .ok (unit, rest) := by
  obtain ⟨hlength, hdigits, rfl⟩ := h
  have htake : (digits ++ rest).take 4 = digits := by rw [← hlength, List.take_left]
  have hdrop : (digits ++ rest).drop 4 = rest := by rw [← hlength, List.drop_left]
  have hbytes := length_le_foldl_utf8Size digits 0
  rw [readUnit, htake, hdrop, if_neg (by omega), mapM_digit? hdigits]
  simp only [List.foldl_map]
  rfl

/-- No character is a surrogate. -/
theorem not_surrogate (c : Char) : isTrailing c.toNat = false ∧ isLeading c.toNat = false := by
  have hvalid : c.toNat < 0xd800 ∨ 0xdfff < c.toNat ∧ c.toNat < 0x110000 := c.valid
  simp only [isTrailing, isLeading, Bool.and_eq_false_iff, decide_eq_false_iff_not]
  omega

/-- A character that is written in code units is read from them. -/
theorem readUnicode_unit {c : Char} {digits : List Char} (h : IsUnit c.toNat digits)
    (rest : List Char) : readUnicode (digits ++ rest) = .ok (c, rest) := by
  obtain ⟨htrailing, hleading⟩ := not_surrogate c
  rw [readUnicode, readUnit_append h]
  simp only [bind, Except.bind, htrailing, hleading, Char.ofNat_toNat]
  rfl

/-- A character beyond the first plane is that of its pair of surrogates. -/
theorem pairedChar_surrogates {c : Char} {leading trailing : Nat} (hc : 0x10000 ≤ c.toNat)
    (hleading : leading = 0xd800 + (c.toNat - 0x10000) / 0x400)
    (htrailing : trailing = 0xdc00 + (c.toNat - 0x10000) % 0x400) :
    isTrailing leading = false ∧ isLeading leading = true ∧ isTrailing trailing = true ∧
      pairedChar leading trailing = c := by
  have hvalid : c.toNat < 0xd800 ∨ 0xdfff < c.toNat ∧ c.toNat < 0x110000 := c.valid
  have hcode : (leading - 0xd800) * 0x400 + (trailing - 0xdc00) + 0x10000 = c.toNat := by omega
  refine ⟨?_, ?_, ?_, by rw [pairedChar, hcode, Char.ofNat_toNat]⟩
  · simp only [isTrailing, Bool.and_eq_false_iff, decide_eq_false_iff_not]
    omega
  · simp only [isLeading, Bool.and_eq_true, decide_eq_true_eq]
    omega
  · simp only [isTrailing, Bool.and_eq_true, decide_eq_true_eq]
    omega

theorem readUnicode_pair {c : Char} {lead trail : Nat} {leading trailing : List Char}
    (hpair : isTrailing lead = false ∧ isLeading lead = true ∧ isTrailing trail = true ∧
      pairedChar lead trail = c)
    (hleading : IsUnit lead leading) (htrailing : IsUnit trail trailing) (rest : List Char) :
    readUnicode (leading ++ '\\' :: 'u' :: (trailing ++ rest)) = .ok (c, rest) := by
  obtain ⟨hlead, hlead', htrail, hchar⟩ := hpair
  rw [readUnicode, readUnit_append hleading]
  simp only [bind, Except.bind, hlead, hlead', Bool.false_eq_true, if_false, if_true,
    readTrailing, readUnit_append htrailing, htrail, hchar]

/-- The character of an escape is read. -/
theorem readEscape_letter {letter c : Char} (h : (letter, c) ∈ escapes) (rest : List Char) :
    readEscape (letter :: rest) = .ok (c, rest) := by
  have hall : ∀ e ∈ escapes, e.1 ≠ 'u' ∧ escapes.lookup e.1 = some e.2 := by decide
  obtain ⟨hu, hlookup⟩ := hall _ h
  rw [readEscape, if_neg hu, hlookup]

/-- Behind a backslash, the character of the escape is read. -/
theorem readString_backslash {c : Char} {cs rest : List Char} (h : readEscape cs = .ok (c, rest)) :
    readString ('\\' :: cs)
      = (readString rest).map fun (text, rest) => (c :: text, rest) := by
  rw [readString, if_neg (by decide), if_pos rfl]
  split
  · next fault hfault =>
    rw [h] at hfault
    contradiction
  · next d rest' hd =>
    obtain ⟨rfl, rfl⟩ := Prod.mk.inj (Except.ok.inj (h.symm.trans hd))
    cases readString rest <;> rfl

/-- **Characters are read one after the other.** -/
theorem readString_char {c : Char} {text : List Char} (h : WritesChar c text)
    (rest : List Char) :
    readString (text ++ rest)
      = (readString rest).map fun (text, rest) => (c :: text, rest) := by
  cases h with
  | plain hcontrol hquote hbackslash =>
    rw [List.singleton_append, readString, if_neg hquote, if_neg hbackslash,
      if_neg (Nat.not_lt_of_le hcontrol)]
    cases readString rest <;> rfl
  | escape h => exact readString_backslash (readEscape_letter h rest)
  | unit h => exact readString_backslash (readUnicode_unit h rest)
  | pair hc hleading htrailing =>
    have hread := readUnicode_pair (pairedChar_surrogates hc rfl rfl) hleading htrailing rest
    rw [List.cons_append, List.cons_append, List.append_assoc, List.cons_append, List.cons_append]
    exact readString_backslash hread

/-- A string is read up to its closing quote. -/
theorem readString_append {cs text : List Char} (h : WritesChars cs text) (rest : List Char) :
    readString (text ++ '"' :: rest) = .ok (cs, rest) := by
  induction h with
  | nil => rw [List.nil_append, readString, if_pos rfl]
  | cons hc _ ih =>
    rw [List.append_assoc, readString_char hc, ih]
    rfl

theorem tokens_string {s : String} {text : List Char} (h : WritesString s text)
    (rest : List Char) : tokens (text ++ rest) = .string s :: tokens rest := by
  obtain ⟨h⟩ := h
  rw [List.cons_append, List.append_assoc, tokens_cons (by decide)]
  simp only [List.singleton_append, scan, readString_append h, String.ofList_toList]

/-! ### Values -/

theorem tokens_number {n : Numeral} {cs rest : List Char} (h : WritesNumeral n cs)
    (hrest : Follows rest) : tokens (cs ++ rest) = (Value.number n).tokens (tokens rest) := by
  have hread := readNumber_append h hrest
  obtain ⟨c, ds, rfl, hc⟩ := h.exists_cons
  obtain ⟨hspace, hscan⟩ := scan_number hc (ds ++ rest)
  rw [List.cons_append] at hread ⊢
  rw [tokens_cons hspace, hscan, hread, Value.tokens]
  cases n.value? with
  | some number => rfl
  | none => simp only [tokens]

/-- **A text is cut into the tokens of what it writes.** -/
theorem tokens_append {phrase : Phrase} {cs rest : List Char} (h : Writes phrase cs)
    (hrest : Follows rest) : tokens (cs ++ rest) = phrase.tokens (tokens rest) := by
  -- behind a part of the text stands the next one, or a blank, comma or closing bracket
  induction h generalizing rest with
  | null =>
    rw [List.cons_append, tokens_cons (by decide)]
    simp only [scan, readWord_append ['u', 'l', 'l'] rest, Phrase.tokens, Value.tokens]
  | true =>
    rw [List.cons_append, tokens_cons (by decide)]
    simp only [scan, readWord_append ['r', 'u', 'e'] rest, Phrase.tokens, Value.tokens]
  | false =>
    rw [List.cons_append, tokens_cons (by decide)]
    simp only [scan, readWord_append ['a', 'l', 's', 'e'] rest, Phrase.tokens, Value.tokens]
  | number h => exact tokens_number h hrest
  | string h => exact tokens_string h rest
  | emptyList h =>
    rw [List.cons_append, List.append_assoc, List.singleton_append, tokens_mark .openList rfl,
      tokens_gap h, tokens_mark .closeList rfl, Phrase.tokens, Value.tokens]
  | list _ ih =>
    rw [List.cons_append, List.append_assoc, List.singleton_append, tokens_mark .openList rfl,
      ih (follows_cons (by decide) rest), tokens_mark .closeList rfl]
    simp only [Phrase.tokens, Value.tokens]
  | emptyObject h =>
    rw [List.cons_append, List.append_assoc, List.singleton_append, tokens_mark .openObject rfl,
      tokens_gap h, tokens_mark .closeObject rfl, Phrase.tokens, Value.tokens]
  | object _ ih =>
    rw [List.cons_append, List.append_assoc, List.singleton_append, tokens_mark .openObject rfl,
      ih (follows_cons (by decide) rest), tokens_mark .closeObject rfl]
    simp only [Phrase.tokens, Value.tokens]
  | element hbefore _ hbehind ih =>
    rw [List.append_assoc, List.append_assoc, tokens_gap hbefore, ih (hbehind.follows hrest),
      tokens_gap hbehind]
    simp only [Phrase.tokens, furtherElements]
  | elements _ _ ih ihmore =>
    rw [List.append_assoc, List.cons_append, ih (follows_cons (by decide) _),
      tokens_mark .comma rfl, ihmore hrest]
    simp only [Phrase.tokens, furtherElements]
  | member hbefore hkey hbehind _ ih =>
    rw [List.append_assoc, List.append_assoc, List.append_assoc, tokens_gap hbefore,
      tokens_string hkey, tokens_gap hbehind, List.cons_append, tokens_mark .colon rfl, ih hrest]
    simp only [Phrase.tokens, furtherElements, furtherMembers]
  | members _ _ ih ihmore =>
    rw [List.append_assoc, List.cons_append, ih (follows_cons (by decide) _),
      tokens_mark .comma rfl, ihmore hrest]
    simp only [Phrase.tokens, furtherMembers]

/-- The tokens of a whole text. -/
theorem IsText.tokens {v : Value} {cs : List Char} (h : IsText v cs) :
    tokens cs = v.tokens [] := by
  have := tokens_append h follows_nil
  rwa [List.append_nil, Json.tokens, Phrase.tokens, furtherElements] at this

end RiscV.Json
