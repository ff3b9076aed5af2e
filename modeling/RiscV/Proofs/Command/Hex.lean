import Mathlib.Data.List.Induction
import RiscV.Command.Hex
import RiscV.Proofs.Text.Numeral
import RiscV.Proofs.Word

/-!
# The grammar of hexadecimal arguments

An argument is written as a marker, a sign and digits, of which only the digits must be
there.  The digits are a run of any length with letters of either case, and the number
they denote grows with each of them, from left to right.  The grammar sets no bound on that
number: 64 bits bound what is read as an address, and 32 bits what is read as a word.

The parts cannot be confused.  Neither the sign nor the letter of a marker is a digit, so
a second marker, or a sign in front of a marker, is refused.

## Main definitions

* `Text.IsHexDigit` — the hexadecimal digits with their values.
* `Text.Denotes` — a run of digits denotes a number.
* `WritesHex` — the texts of a number.

## Main results

* `Text.denotes_iff` — runs of digits denote what the reader computes.
* `readHex_eq_ok_iff`, `readWord_eq_ok_iff` — which texts are read, and as which number.
* `readHex_iff_writesHex` — **arguments are read by their grammar**, and each way to write
  a word is read as that word.
-/

namespace RiscV

namespace Text

/-! ### Digits -/

/-- The upper-case hexadecimal digits. -/
def upperHexDigits : List Char :=
  ['0', '1', '2', '3', '4', '5', '6', '7', '8', '9', 'A', 'B', 'C', 'D', 'E', 'F']

/-- The character is the hexadecimal digit of value `d`, in either case. -/
def IsHexDigit (c : Char) (d : Nat) : Prop :=
  hexDigits[d]? = some c ∨ upperHexDigits[d]? = some c

instance (c : Char) (d : Nat) : Decidable (IsHexDigit c d) :=
  inferInstanceAs (Decidable (_ ∨ _))

/-- In a list of digits by value, the place of a digit is its value. -/
theorem digitValue_of_getElem? {digits : List Char} (h : digits.map digitValue = List.range 16)
    {c : Char} {d : Nat} (hc : digits[d]? = some c) : digitValue c = d ∧ d < 16 := by
  have hvalue : (List.range 16)[d]? = some (digitValue c) := by
    rw [← h, List.getElem?_map, hc, Option.map_some]
  obtain ⟨hd, heq⟩ := List.getElem?_eq_some_iff.mp hvalue
  rw [List.getElem_range] at heq
  exact ⟨heq.symm, by simpa using hd⟩

/-- The digits are the characters whose value is below sixteen. -/
theorem isHexDigit_iff {c : Char} {d : Nat} : IsHexDigit c d ↔ digitValue c = d ∧ d < 16 := by
  constructor
  · rintro (hc | hc)
    · exact digitValue_of_getElem? (by decide) hc
    · exact digitValue_of_getElem? (by decide) hc
  · rintro ⟨rfl, hd⟩
    -- a digit is an ASCII character, and those are checked one by one
    have hall : ((List.range 128).all fun n => decide (digitValue (Char.ofNat n) < 16 →
        IsHexDigit (Char.ofNat n) (digitValue (Char.ofNat n)))) = true := by decide +kernel
    have hascii : c.toNat ∈ List.range 128 :=
      List.mem_range.mpr (toNat_lt_of_digitValue (by omega))
    have hc := of_decide_eq_true (List.all_eq_true.mp hall _ hascii)
    rw [Char.ofNat_toNat] at hc
    exact hc hd

/-- A digit stays one of the same value in upper case. -/
theorem IsHexDigit.toUpper {c : Char} {d : Nat} (h : IsHexDigit c d) : IsHexDigit c.toUpper d := by
  have hlower : hexDigits.map Char.toUpper = upperHexDigits := by decide
  have hupper : upperHexDigits.map Char.toUpper = upperHexDigits := by decide
  refine .inr ?_
  rcases h with hc | hc
  · rw [← hlower, List.getElem?_map, hc, Option.map_some]
  · rw [← hupper, List.getElem?_map, hc, Option.map_some]

/-! ### Runs of digits -/

/-- The characters are a run of hexadecimal digits, at least one, which denotes a number. -/
inductive Denotes : List Char → Nat → Prop
  | single {c : Char} {d : Nat} (hc : IsHexDigit c d) : Denotes [c] d
  | snoc {cs : List Char} {n : Nat} {c : Char} {d : Nat} (hcs : Denotes cs n)
      (hc : IsHexDigit c d) : Denotes (cs ++ [c]) (n * 16 + d)

/-- **Runs of digits denote what the reader computes.** -/
theorem denotes_iff {cs : List Char} {n : Nat} :
    Denotes cs n ↔ cs ≠ [] ∧ (∀ c ∈ cs, digitValue c < 16) ∧ denoted 16 cs = n := by
  constructor
  · intro h
    induction h with
    | single hc =>
      obtain ⟨rfl, hd⟩ := isHexDigit_iff.mp hc
      exact ⟨List.cons_ne_nil _ _, by simpa using hd, by simp [denoted]⟩
    | snoc _ hc ih =>
      obtain ⟨-, hdigits, rfl⟩ := ih
      obtain ⟨rfl, hd⟩ := isHexDigit_iff.mp hc
      refine ⟨by simp, ?_, denoted_append_singleton _ _ _⟩
      exact List.forall_mem_append.mpr ⟨hdigits, by simpa using hd⟩
  · rintro ⟨hne, hdigits, rfl⟩
    -- the last digit is the one that was added last
    induction cs using List.reverseRecOn with
    | nil => exact absurd rfl hne
    | append_singleton cs c ih =>
      obtain ⟨hcs, hc⟩ := List.forall_mem_append.mp hdigits
      have hdigit : IsHexDigit c (digitValue c) :=
        isHexDigit_iff.mpr ⟨rfl, hc c (List.mem_singleton_self c)⟩
      rw [denoted_append_singleton]
      by_cases hnil : cs = []
      · subst hnil
        simpa [denoted] using Denotes.single hdigit
      · exact .snoc (ih hnil hcs) hdigit

/-- A numeral denotes its number, however far it is padded. -/
theorem denotes_hexPadded (width n : Nat) : Denotes (hexPadded width n).toList n := by
  refine denotes_iff.mpr ⟨?_, ?_, denoted_hexPadded width n⟩
  · simp [hexPadded, List.leftpad, Nat.toDigits_ne_nil]
  · intro c hc
    obtain ⟨d, hd⟩ := List.mem_iff_getElem?.mp (mem_hexDigits_of_mem_hexPadded hc)
    obtain ⟨rfl, hlt⟩ := isHexDigit_iff.mp (.inl hd)
    exact hlt

/-- The text with the letters at the chosen places in upper case. -/
def recase (upper : Nat → Bool) (text : String) : String :=
  String.ofList (text.toList.mapIdx fun i c => if upper i then c.toUpper else c)

/-- The case of the letters does not count. -/
theorem Denotes.recase {text : String} {n : Nat} (h : Denotes text.toList n)
    (upper : Nat → Bool) : Denotes (recase upper text).toList n := by
  rw [Text.recase, String.toList_ofList]
  generalize text.toList = cs at h
  have hcase : ∀ {c : Char} {d : Nat} (i : Nat), IsHexDigit c d →
      IsHexDigit (if upper i then c.toUpper else c) d := by
    intro c d i hc
    split
    · exact hc.toUpper
    · exact hc
  induction h with
  | single hc => exact .single (hcase 0 hc)
  | snoc _ hc ih =>
    rw [List.mapIdx_concat]
    exact .snoc ih (hcase _ hc)

end Text

namespace Command

/-! ### Arguments -/

/-- What may mark a number as hexadecimal. -/
def markers : List String := ["", "0x", "0X"]

/-- What may stand between the marker and the digits. -/
def signs : List String := ["", "+"]

/-- The texts of a number: a marker, a sign and the digits. -/
inductive WritesHex (n : Nat) : String → Prop
  | mk {marker sign digits : String} (hmarker : marker ∈ markers) (hsign : sign ∈ signs)
      (hdigits : Text.Denotes digits.toList n) : WritesHex n (marker ++ sign ++ digits)

/-- Where the letter of no marker stands, nothing is dropped. -/
theorem dropMarker_of_notMem {cs : List Char} (hlower : 'x' ∉ cs) (hupper : 'X' ∉ cs) :
    dropMarker cs = cs := by
  unfold dropMarker
  split
  · simp at hlower
  · simp at hupper
  · rfl

theorem exists_marker (cs : List Char) :
    ∃ marker ∈ markers, cs = marker.toList ++ dropMarker cs := by
  unfold dropMarker
  split
  · exact ⟨"0x", by simp [markers], rfl⟩
  · exact ⟨"0X", by simp [markers], rfl⟩
  · exact ⟨"", by simp [markers], rfl⟩

theorem exists_sign {cs digits : List Char} :
    (cs = digits ∨ cs = '+' :: digits) ↔ ∃ sign ∈ signs, cs = sign.toList ++ digits := by
  simp [signs]

/-- A marker is dropped up to the sign and the digits, and no more than that. -/
theorem dropMarker_append {marker : String} (hmarker : marker ∈ markers) {cs digits : List Char}
    (hcs : cs = digits ∨ cs = '+' :: digits) (hdigits : ∀ c ∈ digits, Text.digitValue c < 16) :
    dropMarker (marker.toList ++ cs) = cs := by
  simp only [markers, List.mem_cons, List.not_mem_nil, or_false] at hmarker
  rcases hmarker with rfl | rfl | rfl
  · -- the digits themselves may start with a zero, but no letter of a marker follows it
    have hletter : ∀ c, c ≠ '+' → ¬Text.digitValue c < 16 → c ∉ cs := by
      rintro c hplus hc hmem
      rcases hcs with rfl | rfl
      · exact hc (hdigits c hmem)
      · exact hc (hdigits c (List.mem_of_ne_of_mem hplus hmem))
    exact dropMarker_of_notMem (hletter 'x' (by decide) (by decide))
      (hletter 'X' (by decide) (by decide))
  · rfl
  · rfl

/-- **Which texts are read, and as which number.** -/
theorem readHex_eq_ok_iff {text : String} {n : Nat} :
    readHex text = .ok n ↔ WritesHex n text ∧ n < 2 ^ 64 := by
  have hread : readHex text = .ok n ↔
      Text.readNatural 16 0xffffffffffffffff (dropMarker text.toList) = .ok n := by
    unfold readHex
    cases Text.readNatural 16 0xffffffffffffffff (dropMarker text.toList) <;> simp
  rw [hread, Text.readNatural_eq_ok_iff (by decide) (by decide)]
  constructor
  · rintro ⟨digits, hrest, hne, hdigits, hn, hmax⟩
    obtain ⟨marker, hmarker, htext⟩ := exists_marker text.toList
    obtain ⟨sign, hsign, hsigned⟩ := exists_sign.mp hrest
    have heq : text = marker ++ sign ++ String.ofList digits := by
      apply String.toList_injective
      rw [htext, hsigned]
      simp
    have hdenotes : Text.Denotes (String.ofList digits).toList n := by
      rw [String.toList_ofList]
      exact Text.denotes_iff.mpr ⟨hne, hdigits, hn⟩
    exact ⟨heq ▸ .mk hmarker hsign hdenotes, by omega⟩
  · rintro ⟨⟨hmarker, hsign, hdenotes⟩, hn⟩
    next marker sign digits =>
    obtain ⟨hne, hdigits, hvalue⟩ := Text.denotes_iff.mp hdenotes
    have hsigned := exists_sign.mpr ⟨sign, hsign, Eq.refl (sign.toList ++ digits.toList)⟩
    refine ⟨digits.toList, ?_, hne, hdigits, hvalue, by omega⟩
    rw [String.toList_append, String.toList_append, List.append_assoc,
      dropMarker_append hmarker hsigned hdigits]
    exact hsigned

/-- An address takes all numbers that are read. -/
theorem readAddress_eq_ok_iff {text : String} {a : Address} :
    readAddress text = .ok a ↔ WritesHex a.toNat text := by
  have hread : readAddress text = .ok a ↔ readHex text = .ok a.toNat := by
    unfold readAddress
    cases h : readHex text with
    | error e => simp [Except.map]
    | ok n => simp [Except.map, BitVec.ofNat_eq_iff_of_lt (readHex_eq_ok_iff.mp h).2]
  rw [hread, readHex_eq_ok_iff, and_iff_left a.isLt]

/-- A word takes those of 32 bits. -/
theorem readWord_eq_ok_iff {text : String} {w : Word} :
    readWord text = .ok w ↔ WritesHex w.toNat text := by
  have hw : w.toNat < 2 ^ 32 := w.isLt
  have hread : readWord text = .ok w ↔ readHex text = .ok w.toNat := by
    unfold readWord
    cases readHex text with
    | error e => simp
    | ok n =>
      by_cases hn : n ≤ 0xffffffff
      · simp [hn, BitVec.ofNat_eq_iff_of_lt (show n < 2 ^ 32 by omega)]
      · have hne : n ≠ w.toNat := by omega
        simp [hn, hne]
  rw [hread, readHex_eq_ok_iff, and_iff_left (by omega)]

/-- **Arguments are read by their grammar.**  A number of 64 bits is read from its texts and
from no other, and a word from the texts of a number of 32 bits.  So a word is read from its
numeral, whatever marks it, however many zeros pad it and whichever of its letters are
capitals. -/
theorem readHex_iff_writesHex :
    (∀ text n, readHex text = .ok n ↔ WritesHex n text ∧ n < 2 ^ 64) ∧
    (∀ text a, readAddress text = .ok a ↔ WritesHex a.toNat text) ∧
    (∀ text w, readWord text = .ok w ↔ ∃ n, WritesHex n text ∧ n < 2 ^ 32 ∧ w.toNat = n) ∧
    ∀ (w : Word) (width : Nat) (upper : Nat → Bool), ∀ marker ∈ markers, ∀ sign ∈ signs,
      readWord (marker ++ sign ++ Text.recase upper (Text.hexPadded width w.toNat)) = .ok w := by
  refine ⟨fun text n => readHex_eq_ok_iff, fun text a => readAddress_eq_ok_iff, ?_, ?_⟩
  · intro text w
    rw [readWord_eq_ok_iff]
    constructor
    · intro h
      exact ⟨w.toNat, h, w.isLt, rfl⟩
    · rintro ⟨n, h, -, rfl⟩
      exact h
  · intro w width upper marker hmarker sign hsign
    exact readWord_eq_ok_iff.mpr
      (.mk hmarker hsign ((Text.denotes_hexPadded width w.toNat).recase upper))

/-- The zeros alone are more digits than 64 bits take, and one letter is a capital. -/
theorem readHex_iff_writesHex_padded :
    "0X" ∈ markers ∧ "+" ∈ signs ∧
    Text.recase (· == 19) (Text.hexPadded 20 0xff) = "000000000000000000fF" ∧
    readWord ("0X" ++ "+" ++ "000000000000000000fF") = .ok 0xff#32 := by
  have hmarker : "0X" ∈ markers := by simp [markers]
  have hsign : "+" ∈ signs := by simp [signs]
  have htext : Text.recase (· == 19) (Text.hexPadded 20 0xff) = "000000000000000000fF" := by
    decide +kernel
  refine ⟨hmarker, hsign, htext, ?_⟩
  rw [← htext]
  exact readHex_iff_writesHex.2.2.2 0xff#32 20 (· == 19) "0X" hmarker "+" hsign

/-- A second marker, a sign in front of the marker and a marker alone are refused. -/
example : readHex "0x0x1" = .error (.numeral .invalidDigit) ∧
    readHex "+0x1" = .error (.numeral .invalidDigit) ∧
    readHex "0x" = .error (.numeral .empty) := by decide +kernel

end Command

end RiscV
