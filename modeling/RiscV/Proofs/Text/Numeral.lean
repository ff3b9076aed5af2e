import Mathlib.Algebra.Group.Nat.Defs
import RiscV.Text.Numeral

/-!
# Numerals are read and written without loss

A numeral determines its number, in decimal and in hexadecimal, and it consists
of digits only, so that it can be told from what stands around it.

## Main definitions

* `Text.denoted` — the number that digits denote.
* `Text.Spells` — a hexadecimal numeral of a given number of digits.

## Main results

* `Text.natural_injective`, `Text.hex_injective`, `Text.decimal_injective` — two
  numbers with the same numeral are equal.
* `Text.denoted_toDigits` — the digits of a number denote it.
* `Text.notMem_toDigits` — what is no digit stands in no numeral.
* `Text.spells_hexPadded` — a number that fits is padded to just the width asked for.
* `Text.ofDigitChars_of_readDigits` — what is read is the number its digits denote.
* `Text.readNatural_eq_ok_iff` — which numerals are read, and as which number.
-/

namespace RiscV.Text

/-! ### Digits -/

/-- The characters of a numeral are digits of its base. -/
theorem eq_digitChar_of_mem_toDigits {b n : Nat} (hb : 1 < b) {c : Char}
    (hc : c ∈ Nat.toDigits b n) : ∃ d < b, c = d.digitChar := by
  induction n using Nat.strongRecOn with
  | _ n ih =>
    rw [Nat.toDigits_eq_if hb] at hc
    split at hc
    · next hlt => exact ⟨n, hlt, List.mem_singleton.mp hc⟩
    · next hge =>
      rcases List.mem_append.mp hc with hc | hc
      · exact ih (n / b) (Nat.div_lt_self (by omega) hb) hc
      · exact ⟨n % b, Nat.mod_lt n (by omega), List.mem_singleton.mp hc⟩

/-- The number that digits of a base denote. -/
def denoted (b : Nat) (cs : List Char) : Nat := cs.foldl (fun n c => n * b + digitValue c) 0

theorem denoted_append_singleton (b : Nat) (cs : List Char) (c : Char) :
    denoted b (cs ++ [c]) = denoted b cs * b + digitValue c := by
  simp [denoted, List.foldl_append]

theorem digitValue_digitChar {d : Nat} (hd : d < 16) : digitValue d.digitChar = d := by
  have hall : ∀ d < 16, digitValue d.digitChar = d := by decide
  exact hall d hd

/-- The digits of a number denote it, in a base up to sixteen. -/
theorem denoted_toDigits {b : Nat} (hb : 1 < b) (hb' : b ≤ 16) (n : Nat) :
    denoted b (Nat.toDigits b n) = n := by
  induction n using Nat.strongRecOn with
  | _ n ih =>
    rw [Nat.toDigits_eq_if hb]
    split
    · simp [denoted, digitValue_digitChar (show n < 16 by omega)]
    · have hmod : n % b < b := Nat.mod_lt n (by omega)
      rw [denoted_append_singleton, ih (n / b) (Nat.div_lt_self (by omega) hb),
        digitValue_digitChar (by omega), Nat.mul_comm, Nat.div_add_mod]

theorem toDigits_injective {b m n : Nat} (hb : 1 < b) (hb' : b ≤ 16)
    (h : Nat.toDigits b m = Nat.toDigits b n) : m = n := by
  rw [← denoted_toDigits hb hb' m, h, denoted_toDigits hb hb']

/-- Zeros in front of a numeral do not count. -/
theorem denoted_leftpad (b width : Nat) (cs : List Char) :
    denoted b (List.leftpad width '0' cs) = denoted b cs := by
  have hzeros : ∀ k, (List.replicate k '0').foldl (fun n c => n * b + digitValue c) 0 = 0 := by
    intro k
    induction k with
    | zero => rfl
    | succ k ih =>
      rw [List.replicate_succ, List.foldl_cons, Nat.zero_mul]
      exact ih
  rw [denoted, List.leftpad, List.foldl_append, hzeros, denoted]

/-! ### Writing -/

@[simp] theorem toList_natural (n : Nat) : (natural n).toList = Nat.toDigits 10 n :=
  String.toList_ofList

@[simp] theorem toList_hex (n : Nat) : (hex n).toList = Nat.toDigits 16 n :=
  String.toList_ofList

/-- A padded numeral denotes its number. -/
theorem denoted_hexPadded (width n : Nat) : denoted 16 (hexPadded width n).toList = n := by
  rw [hexPadded, String.toList_ofList, denoted_leftpad, denoted_toDigits (by decide) (by decide)]

theorem natural_injective {m n : Nat} (h : natural m = natural n) : m = n :=
  toDigits_injective (by decide) (by decide) (String.ofList_injective h)

theorem hex_injective {m n : Nat} (h : hex m = hex n) : m = n :=
  toDigits_injective (by decide) (by decide) (String.ofList_injective h)

theorem hexMarked_injective {m n : Nat} (h : hexMarked m = hexMarked n) : m = n :=
  hex_injective (String.append_right_inj _ |>.mp h)

theorem hexPadded_injective {width m n : Nat} (h : hexPadded width m = hexPadded width n) :
    m = n := by
  rw [← denoted_hexPadded width m, h, denoted_hexPadded]

/-- A character that is no hexadecimal digit stands in no numeral. -/
theorem notMem_toDigits {c : Char} (hc : 16 ≤ digitValue c) {b : Nat} (hb : 1 < b)
    (hb' : b ≤ 16) (n : Nat) : c ∉ Nat.toDigits b n := by
  intro h
  obtain ⟨d, hd, rfl⟩ := eq_digitChar_of_mem_toDigits hb h
  rw [digitValue_digitChar (by omega)] at hc
  omega

theorem decimal_injective {a b : Int} (h : decimal a = decimal b) : a = b := by
  have hlist := congrArg String.toList h
  cases a with
  | ofNat m =>
    cases b with
    | ofNat n => rw [natural_injective h]
    | negSucc n =>
      have hmem : '-' ∈ Nat.toDigits 10 m := by
        rw [← toList_natural, show (natural m).toList = _ from hlist]
        simp [decimal]
      exact absurd hmem (notMem_toDigits (by decide) (by decide) (by decide) m)
  | negSucc m =>
    cases b with
    | ofNat n =>
      have hmem : '-' ∈ Nat.toDigits 10 n := by
        rw [← toList_natural, show (natural n).toList = _ from hlist.symm]
        simp [decimal]
      exact absurd hmem (notMem_toDigits (by decide) (by decide) (by decide) n)
    | negSucc n =>
      have hnat : natural (m + 1) = natural (n + 1) := String.append_right_inj _ |>.mp h
      have hsucc := natural_injective hnat
      rw [show m = n by omega]

/-- What is neither a digit nor the sign stands in no decimal numeral. -/
theorem notMem_decimal {c : Char} (hc : 16 ≤ digitValue c) (hsign : c ≠ '-') (n : Int) :
    c ∉ (decimal n).toList := by
  have hdigits : ∀ m, c ∉ Nat.toDigits 10 m := notMem_toDigits hc (by decide) (by decide)
  cases n with
  | ofNat n => simpa [decimal] using hdigits n
  | negSucc n => simpa [decimal, hsign] using hdigits (n + 1)

/-! ### Numerals of a given length -/

/-- The lower-case hexadecimal digits. -/
def hexDigits : List Char :=
  ['0', '1', '2', '3', '4', '5', '6', '7', '8', '9', 'a', 'b', 'c', 'd', 'e', 'f']

/-- The characters are `count` lower-case hexadecimal digits, which denote `n`. -/
structure Spells (cs : List Char) (count n : Nat) : Prop where
  /-- There are just so many. -/
  length_eq : cs.length = count
  /-- They are lower-case hexadecimal digits. -/
  digits : ∀ c ∈ cs, c ∈ hexDigits
  /-- They denote the number. -/
  denoted_eq : denoted 16 cs = n

theorem mem_hexDigits_of_mem_toDigits {n : Nat} {c : Char} (hc : c ∈ Nat.toDigits 16 n) :
    c ∈ hexDigits := by
  have hall : ∀ d < 16, d.digitChar ∈ hexDigits := by decide
  obtain ⟨d, hd, rfl⟩ := eq_digitChar_of_mem_toDigits (by decide) hc
  exact hall d hd

theorem mem_hexDigits_of_mem_hexPadded {count n : Nat} {c : Char}
    (hc : c ∈ (hexPadded count n).toList) : c ∈ hexDigits := by
  rw [hexPadded, String.toList_ofList] at hc
  rcases List.mem_append.mp hc with hc | hc
  · rw [List.eq_of_mem_replicate hc]
    decide
  · exact mem_hexDigits_of_mem_toDigits hc

/-- **A number that fits is padded to just the width asked for.** -/
theorem spells_hexPadded {count n : Nat} (hcount : 0 < count) (hn : n < 16 ^ count) :
    Spells (hexPadded count n).toList count n := by
  refine ⟨?_, fun _ hc => mem_hexDigits_of_mem_hexPadded hc, denoted_hexPadded count n⟩
  have hle := (Nat.length_toDigits_le_iff (by decide) hcount).mpr hn
  rw [hexPadded, String.toList_ofList, List.length_leftpad, Nat.max_eq_left hle]

/-- What is no hexadecimal digit stands in no numeral. -/
theorem Spells.notMem {cs : List Char} {count n : Nat} (h : Spells cs count n) {c : Char}
    (hc : c ∉ hexDigits) : c ∉ cs := fun hmem => hc (h.digits c hmem)

/-! ### Reading -/

/-- What is a digit in some base is an ASCII character. -/
theorem toNat_lt_of_digitValue {c : Char} (h : digitValue c < 36) : c.toNat < 128 := by
  have hle : ∀ {top : Char}, c ≤ top → top.toNat < 128 → c.toNat < 128 :=
    fun hc htop => Nat.lt_of_le_of_lt hc htop
  rw [digitValue] at h
  split at h
  · next hc => exact hle hc.2 (by decide)
  · split at h
    · next hc => exact hle hc.2 (by decide)
    · split at h
      · next hc => exact hle hc.2 (by decide)
      · contradiction

/-- A decimal digit has the value of its distance from zero. -/
theorem toNat_sub_of_digit? {c : Char} {d : Nat} (h : digit? 10 c = some d) :
    c.toNat - '0'.toNat = d := by
  by_cases hdigit : '0' ≤ c ∧ c ≤ '9'
  · have hvalue : digitValue c = c.toNat - '0'.toNat := by rw [digitValue, if_pos hdigit]
    rw [digit?, hvalue] at h
    split at h
    · exact Option.some.inj h
    · contradiction
  · -- letters count from ten
    have hvalue : 10 ≤ digitValue c := by
      rw [digitValue, if_neg hdigit]
      split
      · omega
      · split <;> omega
    rw [digit?, if_neg (by omega)] at h
    contradiction

/-- What is read is the number that the digits denote. -/
theorem ofDigitChars_of_readDigits {max : Nat} {excess : NumeralError} {cs : List Char}
    {acc n : Nat} (h : readDigits 10 max excess acc cs = .ok n) :
    Nat.ofDigitChars 10 cs acc = n := by
  induction cs generalizing acc with
  | nil =>
    rw [readDigits] at h
    rw [Nat.ofDigitChars_nil]
    exact Except.ok.inj h
  | cons c cs ih =>
    rw [readDigits] at h
    split at h
    · contradiction
    · next d hd =>
      split at h
      · rw [Nat.ofDigitChars_cons, toNat_sub_of_digit? hd, Nat.mul_comm 10 acc]
        exact ih h
      · contradiction

/-- Further digits make a number no smaller. -/
theorem le_foldl_digits {b : Nat} (hb : 0 < b) (cs : List Char) (acc : Nat) :
    acc ≤ cs.foldl (fun n c => n * b + digitValue c) acc := by
  induction cs generalizing acc with
  | nil => exact Nat.le_refl acc
  | cons c cs ih =>
    calc acc ≤ acc * b := Nat.le_mul_of_pos_right acc hb
      _ ≤ acc * b + digitValue c := Nat.le_add_right _ _
      _ ≤ _ := ih (acc * b + digitValue c)

/-- Digits are read as the number they denote, if it is not too large. -/
theorem readDigits_eq_ok_iff {b max : Nat} (hb : 0 < b) {excess : NumeralError}
    {cs : List Char} {acc n : Nat} (hacc : acc ≤ max) :
    readDigits b max excess acc cs = .ok n ↔ (∀ c ∈ cs, digitValue c < b) ∧
      cs.foldl (fun n c => n * b + digitValue c) acc = n ∧ n ≤ max := by
  induction cs generalizing acc with
  | nil =>
    simp only [readDigits, Except.ok.injEq, List.foldl_nil, List.not_mem_nil]
    constructor
    · rintro rfl
      exact ⟨by simp, rfl, hacc⟩
    · rintro ⟨-, rfl, -⟩
      rfl
  | cons c cs ih =>
    rw [readDigits, digit?, List.forall_mem_cons, List.foldl_cons, and_assoc]
    by_cases hc : digitValue c < b
    · simp only [hc, if_true, true_and]
      by_cases hle : acc * b + digitValue c ≤ max
      · rw [if_pos hle]
        exact ih hle
      · -- a number that is too large stays so, whatever follows
        rw [if_neg hle]
        refine iff_of_false (by simp) ?_
        rintro ⟨-, rfl, hmax⟩
        exact hle (Nat.le_trans (le_foldl_digits hb cs _) hmax)
    · simp [hc]

theorem readMagnitude_eq_ok_iff {b max : Nat} (hb : 0 < b) {excess : NumeralError}
    {cs : List Char} {n : Nat} :
    readMagnitude b max excess cs = .ok n ↔
      cs ≠ [] ∧ (∀ c ∈ cs, digitValue c < b) ∧ denoted b cs = n ∧ n ≤ max := by
  unfold readMagnitude
  cases cs with
  | nil => simp
  | cons c cs => simp [readDigits_eq_ok_iff hb (Nat.zero_le max), denoted]

/-- **Which numerals are read, and as which number.**  They have at least one digit, and
possibly a plus in front. -/
theorem readNatural_eq_ok_iff {b max : Nat} (hb : 0 < b) (hb' : b ≤ 36) {text : List Char}
    {n : Nat} :
    readNatural b max text = .ok n ↔ ∃ digits, (text = digits ∨ text = '+' :: digits) ∧
      digits ≠ [] ∧ (∀ c ∈ digits, digitValue c < b) ∧ denoted b digits = n ∧ n ≤ max := by
  -- the plus is no digit in any base
  have hplus : ¬digitValue '+' < b := by
    have hvalue : digitValue '+' = 36 := by decide
    omega
  unfold readNatural
  split
  · simp
  · next digits =>
    rw [readMagnitude_eq_ok_iff hb]
    constructor
    · intro h
      exact ⟨digits, .inr rfl, h⟩
    · rintro ⟨digits', rfl | heq, h⟩
      · exact absurd (h.2.1 '+' List.mem_cons_self) hplus
      · rwa [(List.cons.inj heq).2]
  · next hne =>
    rw [readMagnitude_eq_ok_iff hb]
    constructor
    · intro h
      exact ⟨text, .inl rfl, h⟩
    · rintro ⟨digits', rfl | rfl, h⟩
      · exact h
      · exact absurd rfl (hne digits')

/-! ### Decimal digits -/

theorem isDigit_iff {c : Char} : c.isDigit = true ↔ '0' ≤ c ∧ c ≤ '9' := by
  rw [Char.isDigit, Bool.and_eq_true, decide_eq_true_iff, decide_eq_true_iff]
  exact Iff.rfl

theorem digitValue_of_isDigit {c : Char} (h : c.isDigit = true) :
    digitValue c = c.toNat - '0'.toNat := by
  rw [digitValue, if_pos (isDigit_iff.mp h)]

theorem digitValue_lt_ten_iff {c : Char} : digitValue c < 10 ↔ c.isDigit = true := by
  constructor
  · intro h
    by_cases hdigit : '0' ≤ c ∧ c ≤ '9'
    · exact isDigit_iff.mpr hdigit
    · -- letters count from ten
      rw [digitValue, if_neg hdigit] at h
      split at h
      · omega
      · split at h <;> omega
  · intro h
    have hle : c.toNat ≤ '9'.toNat := (isDigit_iff.mp h).2
    rw [digitValue_of_isDigit h]
    have hnine : '9'.toNat = 57 := rfl
    have hzero : '0'.toNat = 48 := rfl
    omega

/-- Decimal digits denote the number that the library reads them as. -/
theorem denoted_eq_ofDigitChars {cs : List Char} (h : ∀ c ∈ cs, c.isDigit = true) :
    denoted 10 cs = Nat.ofDigitChars 10 cs 0 := by
  unfold denoted
  generalize 0 = acc
  induction cs generalizing acc with
  | nil => rfl
  | cons c cs ih =>
    have hvalue : acc * 10 + digitValue c = 10 * acc + (c.toNat - '0'.toNat) := by
      rw [digitValue_of_isDigit (h c List.mem_cons_self), Nat.mul_comm]
    rw [List.foldl_cons, Nat.ofDigitChars_cons, hvalue]
    exact ih (fun d hd => h d (List.mem_cons_of_mem c hd)) _

end RiscV.Text
