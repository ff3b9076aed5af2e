import RiscV.Proofs.Json.Lexing

/-!
# What tokens say about a text

Each token stands for a piece of the text, which spells it, and only blanks stand between
the pieces.  Nothing is known of a text behind a token that is broken.

## Main definitions

* `Token.Intact` — the token is not broken.
* `Spells` — the texts of a token.

## Main results

* `writesNumeral_of_readNumeral`, `writesChars_of_readString` — what is read of a number or a
  string is written there.
* `exists_spells` — **a text whose first token is intact starts with it.**
-/

namespace RiscV.Json

/-! ### Numbers -/

theorem of_spanDigits {cs digits rest : List Char} (h : spanDigits cs = (digits, rest)) :
    cs = digits ++ rest ∧ ∀ c ∈ digits, c.isDigit = true := by
  obtain ⟨rfl, rfl⟩ := Prod.mk.inj h
  refine ⟨List.takeWhile_append_dropWhile.symm, fun c hc => ?_⟩
  exact List.all_eq_true.mp List.all_takeWhile c hc

/-- Where reading digits stops at nothing else, there are some. -/
theorem isDigits_of_spanDigits {cs digits rest : List Char} (h : spanDigits cs = (digits, rest))
    (hended : digits = [] → rest = [] → False)
    (hmalformed : ∀ c cs, digits = [] → rest = c :: cs → False) :
    cs = digits ++ rest ∧ IsDigits digits := by
  obtain ⟨hcs, hdigits⟩ := of_spanDigits h
  refine ⟨hcs, ?_, hdigits⟩
  intro hnil
  cases rest with
  | nil => exact hended hnil rfl
  | cons c rest => exact hmalformed c rest hnil rfl

theorem isWhole_of_readWhole {cs whole rest : List Char} (h : readWhole cs = .ok (whole, rest)) :
    cs = whole ++ rest ∧ IsWhole whole := by
  cases cs with
  | nil => contradiction
  | cons c cs =>
    simp only [readWhole] at h
    by_cases hzero : c = '0'
    · rw [if_pos hzero] at h
      have hok : (.ok (['0'], cs) : Except Fault _) = .ok (whole, rest) := by
        split at h
        · split at h
          · contradiction
          · exact h
        · exact h
      obtain ⟨rfl, rfl⟩ := Prod.mk.inj (Except.ok.inj hok)
      exact ⟨by rw [hzero]; rfl, .zero⟩
    · rw [if_neg hzero] at h
      split at h
      · next hdigit =>
        have hspan := Except.ok.inj h
        obtain ⟨hcs, hdigits⟩ := of_spanDigits hspan
        refine ⟨hcs, ?_⟩
        cases whole with
        | nil => simp [spanDigits, hdigit] at hspan
        | cons d whole =>
          obtain ⟨rfl, -⟩ := List.cons.inj hcs
          exact .digits hzero ⟨List.cons_ne_nil _ _, hdigits⟩
      · contradiction

theorem writesFraction_of_readFraction {cs rest : List Char} {fraction : Option (List Char)}
    (h : readFraction cs = .ok (fraction, rest)) :
    ∃ text, cs = text ++ rest ∧ WritesFraction fraction text := by
  unfold readFraction at h
  split at h
  · next cs =>
    split at h
    · contradiction
    · contradiction
    · next digits rest' hended hmalformed hspan =>
      obtain ⟨rfl, rfl⟩ := Prod.mk.inj (Except.ok.inj h)
      obtain ⟨rfl, hdigits⟩ := isDigits_of_spanDigits hspan hended hmalformed
      exact ⟨'.' :: digits, rfl, .present hdigits⟩
  · obtain ⟨rfl, rfl⟩ := Prod.mk.inj (Except.ok.inj h)
    exact ⟨[], rfl, .absent⟩

theorem isDigits_of_readExponentDigits {cs rest : List Char} {negative : Bool}
    {exponent : Option (Bool × List Char)}
    (h : readExponentDigits negative cs = .ok (exponent, rest)) :
    ∃ digits, exponent = some (negative, digits) ∧ cs = digits ++ rest ∧ IsDigits digits := by
  unfold readExponentDigits at h
  split at h
  · contradiction
  · contradiction
  · next digits rest' hended hmalformed hspan =>
    obtain ⟨rfl, rfl⟩ := Prod.mk.inj (Except.ok.inj h)
    obtain ⟨rfl, hdigits⟩ := isDigits_of_spanDigits hspan hended hmalformed
    exact ⟨digits, rfl, rfl, hdigits⟩

theorem writesExponent_of_readExponent {cs rest : List Char} {exponent : Option (Bool × List Char)}
    (h : readExponent cs = .ok (exponent, rest)) :
    ∃ text, cs = text ++ rest ∧ WritesExponent exponent text := by
  unfold readExponent at h
  split at h
  · next letter cs =>
    split at h
    · next hletter =>
      split at h
      · next cs =>
        obtain ⟨digits, rfl, rfl, hdigits⟩ := isDigits_of_readExponentDigits h
        exact ⟨letter :: (['+'] ++ digits), rfl, .present hletter (.inr rfl) hdigits⟩
      · next cs =>
        obtain ⟨digits, rfl, rfl, hdigits⟩ := isDigits_of_readExponentDigits h
        exact ⟨letter :: (['-'] ++ digits), rfl, .present hletter rfl hdigits⟩
      · obtain ⟨digits, rfl, rfl, hdigits⟩ := isDigits_of_readExponentDigits h
        exact ⟨letter :: ([] ++ digits), rfl, .present hletter (.inl rfl) hdigits⟩
    · obtain ⟨rfl, rfl⟩ := Prod.mk.inj (Except.ok.inj h)
      exact ⟨[], rfl, .absent⟩
  · obtain ⟨rfl, rfl⟩ := Prod.mk.inj (Except.ok.inj h)
    exact ⟨[], rfl, .absent⟩

theorem of_readUnsigned {cs rest : List Char} {negative : Bool} {n : Numeral}
    (h : readUnsigned negative cs = .ok (n, rest)) :
    n.negative = negative ∧ IsWhole n.whole ∧
      ∃ fraction exponent, cs = n.whole ++ (fraction ++ exponent) ++ rest ∧
        WritesFraction n.fraction fraction ∧ WritesExponent n.exponent exponent := by
  unfold readUnsigned at h
  cases hwhole : readWhole cs with
  | error fault => simp [hwhole, bind, Except.bind] at h
  | ok r =>
    obtain ⟨whole, cs₁⟩ := r
    cases hfraction : readFraction cs₁ with
    | error fault => simp [hwhole, hfraction, bind, Except.bind] at h
    | ok r =>
      obtain ⟨fraction, cs₂⟩ := r
      cases hexponent : readExponent cs₂ with
      | error fault => simp [hwhole, hfraction, hexponent, bind, Except.bind] at h
      | ok r =>
        obtain ⟨exponent, cs₃⟩ := r
        simp only [hwhole, hfraction, hexponent, bind, Except.bind, Except.ok.injEq,
          Prod.mk.injEq] at h
        obtain ⟨rfl, rfl⟩ := h
        obtain ⟨rfl, hdigits⟩ := isWhole_of_readWhole hwhole
        obtain ⟨text, rfl, htext⟩ := writesFraction_of_readFraction hfraction
        obtain ⟨text', rfl, htext'⟩ := writesExponent_of_readExponent hexponent
        exact ⟨rfl, hdigits, text, text', by simp, htext, htext'⟩

/-- A number that is read is written in the text. -/
theorem writesNumeral_of_readNumeral {cs rest : List Char} {n : Numeral}
    (h : readNumeral cs = .ok (n, rest)) : ∃ text, cs = text ++ rest ∧ WritesNumeral n text := by
  unfold readNumeral at h
  split at h
  · next cs =>
    obtain ⟨hnegative, hwhole, fraction, exponent, rfl, hfraction, hexponent⟩ := of_readUnsigned h
    refine ⟨_, ?_, .mk hwhole hfraction hexponent⟩
    rw [hnegative]
    rfl
  · obtain ⟨hnegative, hwhole, fraction, exponent, rfl, hfraction, hexponent⟩ := of_readUnsigned h
    refine ⟨_, ?_, .mk hwhole hfraction hexponent⟩
    rw [hnegative]
    rfl

theorem writesNumeral_of_readNumber {cs rest : List Char} {number : Number}
    (h : readNumber cs = .ok (number, rest)) :
    ∃ text, cs = text ++ rest ∧ ∃ n, WritesNumeral n text ∧ n.value? = some number := by
  unfold readNumber at h
  cases hread : readNumeral cs with
  | error fault => simp [hread, bind, Except.bind] at h
  | ok r =>
    obtain ⟨n, rest'⟩ := r
    obtain ⟨text, rfl, htext⟩ := writesNumeral_of_readNumeral hread
    simp only [hread, bind, Except.bind] at h
    split at h
    · next hvalue =>
      obtain ⟨rfl, rfl⟩ := Prod.mk.inj (Except.ok.inj h)
      exact ⟨text, rfl, n, htext, hvalue⟩
    · contradiction

/-! ### Strings -/

theorem mapM_digit?_eq_some {b : Nat} {cs : List Char} {digits : List Nat}
    (h : cs.mapM (Text.digit? b) = some digits) :
    (∀ c ∈ cs, Text.digitValue c < b) ∧ digits = cs.map Text.digitValue := by
  induction cs generalizing digits with
  | nil => exact ⟨by simp, (Option.some.inj h).symm⟩
  | cons c cs ih =>
    rw [List.mapM_cons, Text.digit?] at h
    split at h
    · next hc =>
      cases hcs : cs.mapM (Text.digit? b) with
      | none => simp [hcs] at h
      | some ds =>
        obtain ⟨hall, rfl⟩ := ih hcs
        simp only [hcs, bind, Option.bind, pure, Option.some.injEq] at h
        exact ⟨List.forall_mem_cons.mpr ⟨hc, hall⟩, h.symm⟩
    · contradiction

/-- A hexadecimal digit is one byte. -/
theorem utf8Size_of_digitValue {c : Char} (h : Text.digitValue c < 16) : c.utf8Size = 1 :=
  Char.utf8Size_eq_one_iff.mpr
    (Nat.le_of_lt_succ (Text.toNat_lt_of_digitValue (Nat.lt_trans h (by decide))))

theorem foldl_utf8Size {cs : List Char} (h : ∀ c ∈ cs, Text.digitValue c < 16) (n : Nat) :
    cs.foldl (fun bytes c => bytes + c.utf8Size) n = n + cs.length := by
  induction cs generalizing n with
  | nil => rfl
  | cons c cs ih =>
    obtain ⟨hc, hcs⟩ := List.forall_mem_cons.mp h
    rw [List.foldl_cons, utf8Size_of_digitValue hc, ih hcs, List.length_cons]
    omega

theorem isUnit_of_readUnit {cs rest : List Char} {unit : Nat} (h : readUnit cs = .ok (unit, rest)) :
    ∃ digits, cs = digits ++ rest ∧ IsUnit unit digits := by
  unfold readUnit at h
  split at h
  · contradiction
  · next hbytes =>
    cases hdigits : (cs.take 4).mapM (Text.digit? 16) with
    | none => simp [hdigits] at h
    | some digits =>
      obtain ⟨hall, rfl⟩ := mapM_digit?_eq_some hdigits
      simp only [hdigits, Except.ok.injEq, Prod.mk.injEq] at h
      obtain ⟨rfl, rfl⟩ := h
      rw [foldl_utf8Size hall] at hbytes
      refine ⟨cs.take 4, (List.take_append_drop 4 cs).symm, ?_, hall, ?_⟩
      · have := List.length_take_le 4 cs
        omega
      · rw [List.foldl_map]
        rfl

/-- A unit is a number of 16 bits. -/
theorem IsUnit.lt {unit : Nat} {digits : List Char} (h : IsUnit unit digits) : unit < 0x10000 := by
  obtain ⟨hlength, hdigits, rfl⟩ := h
  match digits, hlength with
  | [a, b, c, d], _ =>
    have ha := hdigits a (by simp)
    have hb := hdigits b (by simp)
    have hc := hdigits c (by simp)
    have hd := hdigits d (by simp)
    simp only [Text.denoted, List.foldl_cons, List.foldl_nil]
    omega

theorem toNat_ofNat {n : Nat} (h : n.isValidChar) : (Char.ofNat n).toNat = n := by
  rw [Char.ofNat, dif_pos h]
  rfl

/-- A number that is no surrogate is that of a character. -/
theorem toNat_ofNat_of_not_surrogate {unit : Nat} (hunit : unit < 0x10000)
    (htrailing : isTrailing unit = false) (hleading : isLeading unit = false) :
    (Char.ofNat unit).toNat = unit := by
  simp only [isTrailing, isLeading, Bool.and_eq_false_iff, decide_eq_false_iff_not]
    at htrailing hleading
  refine toNat_ofNat ?_
  show unit < 0xd800 ∨ 0xdfff < unit ∧ unit < 0x110000
  omega

theorem toNat_pairedChar {leading trailing : Nat} (hleading : isLeading leading = true)
    (htrailing : isTrailing trailing = true) :
    (pairedChar leading trailing).toNat
      = (leading - 0xd800) * 0x400 + (trailing - 0xdc00) + 0x10000 := by
  simp only [isLeading, isTrailing, Bool.and_eq_true, decide_eq_true_eq] at hleading htrailing
  exact toNat_ofNat (.inr (by omega))

/-- A pair of surrogates is that of its character. -/
theorem surrogates_eq {leading trailing n : Nat} (hleading : isLeading leading = true)
    (htrailing : isTrailing trailing = true)
    (hn : n = (leading - 0xd800) * 0x400 + (trailing - 0xdc00) + 0x10000) :
    0x10000 ≤ n ∧ 0xd800 + (n - 0x10000) / 0x400 = leading ∧
      0xdc00 + (n - 0x10000) % 0x400 = trailing := by
  simp only [isLeading, isTrailing, Bool.and_eq_true, decide_eq_true_eq] at hleading htrailing
  omega

theorem writesChar_pair {leading trailing : Nat} {digits digits' : List Char}
    (hleading : isLeading leading = true) (htrailing : isTrailing trailing = true)
    (h : IsUnit leading digits) (h' : IsUnit trailing digits') :
    WritesChar (pairedChar leading trailing)
      ('\\' :: 'u' :: (digits ++ '\\' :: 'u' :: digits')) := by
  obtain ⟨hc, hfirst, hsecond⟩ := surrogates_eq hleading htrailing
    (toNat_pairedChar hleading htrailing)
  refine .pair hc ?_ ?_
  · rwa [hfirst]
  · rwa [hsecond]

theorem of_readTrailing {cs rest : List Char} {leading : Nat} {c : Char}
    (h : readTrailing leading cs = .ok (c, rest)) :
    ∃ trailing digits, cs = '\\' :: 'u' :: (digits ++ rest) ∧ IsUnit trailing digits ∧
      isTrailing trailing = true ∧ c = pairedChar leading trailing := by
  unfold readTrailing at h
  split at h
  · contradiction
  · contradiction
  · next cs =>
    cases hunit : readUnit cs with
    | error fault => simp [hunit, bind, Except.bind] at h
    | ok r =>
      obtain ⟨trailing, rest'⟩ := r
      obtain ⟨digits, rfl, hdigits⟩ := isUnit_of_readUnit hunit
      simp only [hunit, bind, Except.bind] at h
      split at h
      · next htrailing =>
        obtain ⟨rfl, rfl⟩ := Prod.mk.inj (Except.ok.inj h)
        exact ⟨trailing, digits, rfl, hdigits, htrailing, rfl⟩
      · contradiction
  · contradiction

theorem writesChar_of_readUnicode {cs rest : List Char} {c : Char}
    (h : readUnicode cs = .ok (c, rest)) :
    ∃ text, cs = text ++ rest ∧ WritesChar c ('\\' :: 'u' :: text) := by
  unfold readUnicode at h
  cases hunit : readUnit cs with
  | error fault => simp [hunit, bind, Except.bind] at h
  | ok r =>
    obtain ⟨unit, rest'⟩ := r
    obtain ⟨digits, rfl, hdigits⟩ := isUnit_of_readUnit hunit
    simp only [hunit, bind, Except.bind] at h
    split at h
    · contradiction
    · next htrailing =>
      split at h
      · next hleading =>
        obtain ⟨trailing, digits', rfl, hdigits', htrailing', hc⟩ := of_readTrailing h
        rw [hc]
        exact ⟨digits ++ '\\' :: 'u' :: digits', by simp,
          writesChar_pair hleading htrailing' hdigits hdigits'⟩
      · next hleading =>
        obtain ⟨rfl, rfl⟩ := Prod.mk.inj (Except.ok.inj h)
        refine ⟨digits, rfl, .unit ?_⟩
        rwa [toNat_ofNat_of_not_surrogate hdigits.lt (Bool.eq_false_iff.mpr htrailing)
          (Bool.eq_false_iff.mpr hleading)]

theorem writesChar_of_readEscape {cs rest : List Char} {c : Char}
    (h : readEscape cs = .ok (c, rest)) :
    ∃ text, cs = text ++ rest ∧ WritesChar c ('\\' :: text) := by
  cases cs with
  | nil => contradiction
  | cons d cs =>
    rw [readEscape] at h
    split at h
    · next hd =>
      obtain ⟨text, rfl, htext⟩ := writesChar_of_readUnicode h
      rw [hd]
      exact ⟨'u' :: text, rfl, htext⟩
    · cases hlookup : escapes.lookup d with
      | none => simp [hlookup] at h
      | some e =>
        simp only [hlookup, Except.ok.injEq, Prod.mk.injEq] at h
        obtain ⟨rfl, rfl⟩ := h
        obtain ⟨l₁, l₂, hsplit, -⟩ := List.lookup_eq_some_iff.mp hlookup
        exact ⟨[d], rfl, .escape (by rw [hsplit]; simp)⟩

/-- A string that is read is written in the text, up to its closing quote. -/
theorem writesChars_of_readString {cs rest text : List Char}
    (h : readString cs = .ok (text, rest)) :
    ∃ written, cs = written ++ '"' :: rest ∧ WritesChars text written := by
  fun_induction readString cs generalizing text rest with
  | case1 => contradiction
  | case2 cs =>
    obtain ⟨rfl, rfl⟩ := Prod.mk.inj (Except.ok.inj h)
    exact ⟨[], rfl, .nil⟩
  | case3 => contradiction
  | case4 => contradiction
  | case5 cs d rest' hescape _ text' rest'' hmore _ ih =>
    obtain ⟨rfl, rfl⟩ := Prod.mk.inj (Except.ok.inj h)
    obtain ⟨written, rfl, hwritten⟩ := ih hmore
    obtain ⟨escape, rfl, hchar⟩ := writesChar_of_readEscape hescape
    exact ⟨'\\' :: escape ++ written, by simp, .cons hchar hwritten⟩
  | case6 => contradiction
  | case7 => contradiction
  | case8 c cs hquote hbackslash hcontrol text' rest' hmore ih =>
    obtain ⟨rfl, rfl⟩ := Prod.mk.inj (Except.ok.inj h)
    obtain ⟨written, rfl, hwritten⟩ := ih hmore
    exact ⟨[c] ++ written, rfl,
      .cons (.plain (Nat.le_of_not_lt hcontrol) hquote hbackslash) hwritten⟩

/-! ### Tokens -/

/-- The token is not broken. -/
def Token.Intact : Token → Prop
  | .brokenNull _ | .brokenPlain _ | .brokenString _ | .stray => False
  | _ => True

/-- The texts of a token. -/
inductive Spells : Token → List Char → Prop
  | mark {t : Token} {c : Char} (h : t.mark? = some c) : Spells t [c]
  | null : Spells .null ['n', 'u', 'l', 'l']
  | true : Spells (.plain (.boolean true)) ['t', 'r', 'u', 'e']
  | false : Spells (.plain (.boolean false)) ['f', 'a', 'l', 's', 'e']
  | number {n : Numeral} {number : Number} {cs : List Char} (h : WritesNumeral n cs)
      (hvalue : n.value? = some number) : Spells (.plain (.number number)) cs
  | string {s : String} {cs : List Char} (h : WritesString s cs) : Spells (.string s) cs

theorem readWord_eq_ok {word cs rest : List Char} (h : readWord word cs = .ok rest) :
    cs = word ++ rest := by
  induction word generalizing cs with
  | nil => exact Except.ok.inj h
  | cons w word ih =>
    cases cs with
    | nil => contradiction
    | cons c cs =>
      rw [readWord] at h
      split at h
      · next hw => rw [hw, ih h, List.cons_append]
      · contradiction

theorem spells_of_scan {c : Char} {cs rest : List Char} {t : Token} (h : scan c cs = (t, rest))
    (ht : t.Intact) : ∃ text, c :: cs = text ++ rest ∧ Spells t text := by
  have hmark {d : Char} {u : Token} (hu : u.mark? = some d) (h : (u, cs) = (t, rest)) :
      ∃ text, d :: cs = text ++ rest ∧ Spells t text := by
    obtain ⟨rfl, rfl⟩ := Prod.mk.inj h
    exact ⟨[d], rfl, .mark hu⟩
  have hbroken {u : Token} {ds : List Char} (hu : ¬u.Intact) (h : (u, ds) = (t, rest)) : False := by
    obtain ⟨rfl, -⟩ := Prod.mk.inj h
    exact hu ht
  unfold scan at h
  split at h
  · exact hmark rfl h
  · exact hmark rfl h
  · exact hmark rfl h
  · exact hmark rfl h
  · exact hmark rfl h
  · exact hmark rfl h
  · split at h
    · next hread =>
      obtain ⟨rfl, rfl⟩ := Prod.mk.inj h
      obtain ⟨written, rfl, hwritten⟩ := writesChars_of_readString hread
      refine ⟨'"' :: (written ++ ['"']), by simp, .string (.mk ?_)⟩
      rwa [String.toList_ofList]
    · exact (hbroken id h).elim
  · split at h
    · next hread =>
      obtain ⟨rfl, rfl⟩ := Prod.mk.inj h
      rw [readWord_eq_ok hread]
      exact ⟨_, rfl, .null⟩
    · exact (hbroken id h).elim
  · split at h
    · next hread =>
      obtain ⟨rfl, rfl⟩ := Prod.mk.inj h
      rw [readWord_eq_ok hread]
      exact ⟨_, rfl, .true⟩
    · exact (hbroken id h).elim
  · split at h
    · next hread =>
      obtain ⟨rfl, rfl⟩ := Prod.mk.inj h
      rw [readWord_eq_ok hread]
      exact ⟨_, rfl, .false⟩
    · exact (hbroken id h).elim
  · split at h
    · split at h
      · next hread =>
        obtain ⟨rfl, rfl⟩ := Prod.mk.inj h
        obtain ⟨text, hcs, n, htext, hvalue⟩ := writesNumeral_of_readNumber hread
        exact ⟨text, hcs, .number htext hvalue⟩
      · exact (hbroken id h).elim
    · exact (hbroken id h).elim

/-- **A text whose first token is intact starts with it**, behind blanks. -/
theorem exists_spells {cs : List Char} {t : Token} {ts : List Token} (h : tokens cs = t :: ts)
    (ht : t.Intact) :
    ∃ gap text rest, cs = gap ++ (text ++ rest) ∧ IsGap gap ∧ Spells t text ∧ tokens rest = ts := by
  induction cs with
  | nil => simp [tokens] at h
  | cons c cs ih =>
    by_cases hc : isSpace c = true
    · rw [tokens, if_pos hc] at h
      obtain ⟨gap, text, rest, rfl, hgap, htext, hrest⟩ := ih h
      exact ⟨c :: gap, text, rest, rfl, List.forall_mem_cons.mpr ⟨hc, hgap⟩, htext, hrest⟩
    · rw [tokens_cons (Bool.eq_false_iff.mpr hc)] at h
      obtain ⟨hfirst, hrest⟩ := List.cons.inj h
      obtain ⟨text, hcs, htext⟩ := spells_of_scan (Prod.ext hfirst rfl) ht
      exact ⟨[], text, (scan c cs).2, hcs, isGap_nil, htext, hrest⟩

/-- A text without tokens is blank. -/
theorem isGap_of_tokens {cs : List Char} (h : tokens cs = []) : IsGap cs := by
  induction cs with
  | nil => exact isGap_nil
  | cons c cs ih =>
    by_cases hc : isSpace c = true
    · rw [tokens, if_pos hc] at h
      exact List.forall_mem_cons.mpr ⟨hc, ih h⟩
    · rw [tokens_cons (Bool.eq_false_iff.mpr hc)] at h
      contradiction

theorem exists_mark {cs : List Char} {t : Token} {ts : List Token} {c : Char}
    (h : tokens cs = t :: ts) (hc : t.mark? = some c) :
    ∃ gap rest, cs = gap ++ c :: rest ∧ IsGap gap ∧ tokens rest = ts := by
  have ht : t.Intact := by
    cases t with
    | brokenNull | brokenPlain | brokenString | stray => contradiction
    | _ => trivial
  obtain ⟨gap, text, rest, rfl, hgap, htext, hrest⟩ := exists_spells h ht
  cases htext with
  | mark hd =>
    obtain rfl := Option.some.inj (hc.symm.trans hd)
    exact ⟨gap, rest, rfl, hgap, hrest⟩
  | _ => contradiction

/-! ### Phrases at the front of a text -/

/-- The text starts with a phrase, behind which blanks may stand, and goes on with the
tokens `k`. -/
def Leads (phrase : Phrase) (cs : List Char) (k : List Token) : Prop :=
  ∃ head rest, cs = head ++ rest ∧ tokens rest = k ∧ ∀ gap, IsGap gap → Writes phrase (head ++ gap)

/-- A text is a value if nothing follows it. -/
theorem Leads.isText {v : Value} {cs : List Char} (h : Leads (.elements v []) cs []) :
    IsText v cs := by
  obtain ⟨head, rest, rfl, hrest, hwrites⟩ := h
  exact hwrites rest (isGap_of_tokens hrest)

/-- The text of a value, with blanks before it, leads. -/
theorem leads_value {v : Value} {gap text : List Char} (hgap : IsGap gap)
    (h : Writes (.value v) text) (rest : List Char) :
    Leads (.elements v []) (gap ++ (text ++ rest)) (tokens rest) := by
  refine ⟨gap ++ text, rest, (List.append_assoc _ _ _).symm, rfl, fun behind hbehind => ?_⟩
  rw [List.append_assoc]
  exact .element hgap h hbehind

/-- A token that is a value. -/
theorem exists_leads_value {cs : List Char} {t : Token} {ts : List Token} (h : tokens cs = t :: ts)
    (ht : t.Intact) (hmark : t.mark? = none) : ∃ v, Leads (.elements v []) cs ts := by
  obtain ⟨gap, text, rest, rfl, hgap, htext, rfl⟩ := exists_spells h ht
  cases htext with
  | mark hc =>
    rw [hmark] at hc
    contradiction
  | null => exact ⟨_, leads_value hgap .null rest⟩
  | true => exact ⟨_, leads_value hgap .true rest⟩
  | false => exact ⟨_, leads_value hgap .false rest⟩
  | number h => exact ⟨_, leads_value hgap (.number h) rest⟩
  | string h => exact ⟨_, leads_value hgap (.string h) rest⟩

/-- Behind a comma stand further elements. -/
theorem Leads.comma_elements {v : Value} {cs : List Char} {ts : List Token}
    (h : Leads (.elements v []) cs (.comma :: ts)) :
    ∃ cs', tokens cs' = ts ∧
      ∀ v' vs k, Leads (.elements v' vs) cs' k → Leads (.elements v (v' :: vs)) cs k := by
  obtain ⟨head, rest, rfl, hrest, hwrites⟩ := h
  obtain ⟨gap, cs', rfl, hgap, htokens⟩ := exists_mark hrest rfl
  refine ⟨cs', htokens, ?_⟩
  rintro v' vs k ⟨head', rest, rfl, hk, hwrites'⟩
  refine ⟨head ++ gap ++ ',' :: head', rest, by simp, hk, fun behind hbehind => ?_⟩
  rw [List.append_assoc, List.cons_append]
  exact .elements (hwrites gap hgap) (hwrites' behind hbehind)

/-- Behind a comma stand further members. -/
theorem Leads.comma_members {key : String} {v : Value} {cs : List Char} {ts : List Token}
    (h : Leads (.members key v []) cs (.comma :: ts)) :
    ∃ cs', tokens cs' = ts ∧ ∀ key' v' es k,
      Leads (.members key' v' es) cs' k → Leads (.members key v ((key', v') :: es)) cs k := by
  obtain ⟨head, rest, rfl, hrest, hwrites⟩ := h
  obtain ⟨gap, cs', rfl, hgap, htokens⟩ := exists_mark hrest rfl
  refine ⟨cs', htokens, ?_⟩
  rintro key' v' es k ⟨head', rest, rfl, hk, hwrites'⟩
  refine ⟨head ++ gap ++ ',' :: head', rest, by simp, hk, fun behind hbehind => ?_⟩
  rw [List.append_assoc, List.cons_append]
  exact .members (hwrites gap hgap) (hwrites' behind hbehind)

/-- Behind a key and a colon stands the value of the key. -/
theorem leads_member {cs : List Char} {key : String} {ts : List Token}
    (h : tokens cs = .string key :: .colon :: ts) :
    ∃ cs', tokens cs' = ts ∧
      ∀ v k, Leads (.elements v []) cs' k → Leads (.members key v []) cs k := by
  obtain ⟨before, text, rest, rfl, hbefore, htext, hrest⟩ := exists_spells h trivial
  obtain ⟨behind, cs', rfl, hbehind, htokens⟩ := exists_mark hrest rfl
  refine ⟨cs', htokens, ?_⟩
  rintro v k ⟨head, rest, rfl, hk, hwrites⟩
  have hkey : WritesString key text := by
    cases htext with
    | mark hc => contradiction
    | string h => exact h
  refine ⟨before ++ (text ++ (behind ++ ':' :: head)), rest, by simp, hk, fun gap hgap => ?_⟩
  have hmember := Writes.member hbefore hkey hbehind (hwrites gap hgap)
  simpa using hmember

/-- Behind an opening bracket stand the elements of a list. -/
theorem leads_list {cs : List Char} {ts : List Token} (h : tokens cs = .openList :: ts) :
    ∃ cs', tokens cs' = ts ∧
      (∀ k, ts = .closeList :: k → Leads (.elements (.list []) []) cs k) ∧
      ∀ v vs k, Leads (.elements v vs) cs' (.closeList :: k) →
        Leads (.elements (.list (v :: vs)) []) cs k := by
  obtain ⟨before, cs', rfl, hbefore, htokens⟩ := exists_mark h rfl
  refine ⟨cs', htokens, ?_, ?_⟩
  · rintro k rfl
    obtain ⟨gap, rest, rfl, hgap, rfl⟩ := exists_mark htokens rfl
    have hleads := leads_value hbefore (.emptyList hgap) rest
    simpa using hleads
  · rintro v vs k ⟨head, rest, rfl, hrest, hwrites⟩
    obtain ⟨gap, rest, rfl, hgap, rfl⟩ := exists_mark hrest rfl
    have hleads := leads_value hbefore (.list (hwrites gap hgap)) rest
    simpa using hleads

/-- Behind an opening brace stand the members of an object. -/
theorem leads_object {cs : List Char} {ts : List Token} (h : tokens cs = .openObject :: ts) :
    ∃ cs', tokens cs' = ts ∧
      (∀ k, ts = .closeObject :: k → Leads (.elements (.object []) []) cs k) ∧
      ∀ key v es k, Leads (.members key v es) cs' (.closeObject :: k) →
        Leads (.elements (.object ((key, v) :: es)) []) cs k := by
  obtain ⟨before, cs', rfl, hbefore, htokens⟩ := exists_mark h rfl
  refine ⟨cs', htokens, ?_, ?_⟩
  · rintro k rfl
    obtain ⟨gap, rest, rfl, hgap, rfl⟩ := exists_mark htokens rfl
    have hleads := leads_value hbefore (.emptyObject hgap) rest
    simpa using hleads
  · rintro key v es k ⟨head, rest, rfl, hrest, hwrites⟩
    obtain ⟨gap, rest, rfl, hgap, rfl⟩ := exists_mark hrest rfl
    have hleads := leads_value hbefore (.object (hwrites gap hgap)) rest
    simpa using hleads

end RiscV.Json
