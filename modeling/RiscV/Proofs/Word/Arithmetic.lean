import Mathlib.Data.Int.ModEq
import RiscV.Proofs.Word

/-!
# The arithmetic of fields

Every decoder takes its fields from a word by two operations: a bit range, moved to
the bottom, and the sign extension of the lowest bits.  Both are shifts and masks of 32
bits, and at the ends of a word they are not plainly what they look like: the power of two
behind the mask of all bits does not fit in a word, and a sign bit at the top is shifted by
nothing.  Still they are a quotient and a remainder, for all ranges and all lengths.

## Main results

* `Word.eq_signExtend_iff` — a sign extension is told by its range and its remainder.
* `Word.toNat_bits_eq_div_mod` — a bit range is a remainder of a quotient.
* `Word.toNat_bits_split` — a bit range is made of its upper and its lower part.
* `Word.signExtend_bits_arithmetic` — **what both operations are as numbers**, for every
  word.
-/

namespace RiscV
namespace Word

/-- **A sign extension is told by its range and its remainder.** -/
theorem eq_signExtend_iff (w : Word) {n : Nat} (hpos : 0 < n) (hn : n ≤ 32) (i : Int) :
    i = w.signExtend n ↔
      -2 ^ (n - 1) ≤ i ∧ i < 2 ^ (n - 1) ∧ i ≡ w.toNat [ZMOD 2 ^ n] := by
  rw [signExtend_eq_bmod w hpos hn, eq_comm, bmod_two_pow_eq_iff hpos, Int.modEq_comm,
    Int.modEq_iff_dvd]

/-- A bit range is a remainder of a quotient. -/
theorem toNat_bits_eq_div_mod (w : Word) (hi lo : Nat) :
    (w.bits hi lo).toNat = w.toNat / 2 ^ lo % 2 ^ (hi - lo + 1) := by
  rw [toNat_bits, BitVec.extractLsb'_toNat, Nat.shiftRight_eq_div_pow]

/-- A bit range is made of its upper and its lower part. -/
theorem toNat_bits_split (w : Word) {hi m lo : Nat} (hlo : lo ≤ m) (hhi : m < hi) :
    (w.bits hi lo).toNat
      = (w.bits hi (m + 1)).toNat * 2 ^ (m + 1 - lo) + (w.bits m lo).toNat := by
  -- the lengths of the parts add up, and the upper one starts where the lower one ends
  have hlength : hi - lo + 1 = (m - lo + 1) + (hi - (m + 1) + 1) := by omega
  have hstart : m + 1 = lo + (m - lo + 1) := by omega
  have hshift : m + 1 - lo = m - lo + 1 := by omega
  rw [toNat_bits_eq_div_mod, toNat_bits_eq_div_mod, toNat_bits_eq_div_mod, hlength, Nat.pow_add,
    Nat.mod_mul, Nat.div_div_eq_div_mul, ← Nat.pow_add, ← hstart, hshift, Nat.add_comm,
    Nat.mul_comm (2 ^ (m - lo + 1))]

/-- The range of all bits is the word. -/
theorem bits_full (w : Word) : w.bits 31 0 = w := by
  apply BitVec.eq_of_toNat_eq
  rw [toNat_bits_eq_div_mod, Nat.pow_zero, Nat.div_one]
  exact Nat.mod_eq_of_lt w.isLt

/-- **What bit ranges and sign extensions are as numbers.**

The sign extension of the lowest `n` bits, for `n` from 1 to 32, is the only number from
`-2 ^ (n - 1)` up to `2 ^ (n - 1)` that is congruent to the word modulo `2 ^ n`.  The bits
from `hi` down to `lo` are the word divided by `2 ^ lo`, modulo `2 ^ (hi - lo + 1)`; cut at
any place, they are the upper part, moved up by the length of the lower part, and the lower
part.  All bits together are the word. -/
theorem signExtend_bits_arithmetic (w : Word) :
    (∀ n, 1 ≤ n → n ≤ 32 → ∀ i : Int, i = w.signExtend n ↔
      -2 ^ (n - 1) ≤ i ∧ i < 2 ^ (n - 1) ∧ i ≡ w.toNat [ZMOD 2 ^ n]) ∧
    (∀ hi lo, lo ≤ hi → hi ≤ 31 →
      (w.bits hi lo).toNat = w.toNat / 2 ^ lo % 2 ^ (hi - lo + 1) ∧
      ∀ m, lo ≤ m → m < hi → (w.bits hi lo).toNat
        = (w.bits hi (m + 1)).toNat * 2 ^ (m + 1 - lo) + (w.bits m lo).toNat) ∧
    w.bits 31 0 = w := by
  refine ⟨?_, ?_, w.bits_full⟩
  · intro n hpos hn i
    exact w.eq_signExtend_iff hpos hn i
  · intro hi lo _ _
    refine ⟨w.toNat_bits_eq_div_mod hi lo, ?_⟩
    intro m hlo hhi
    exact w.toNat_bits_split hlo hhi

/-- The sign bit at the top, moved by nothing and cut off; a single bit that is a sign; and
all bits of a word, cut below the topmost. -/
theorem signExtend_bits_arithmetic_extremes :
    signExtend 0x80000000#32 32 = -0x80000000 ∧ signExtend 0x80000000#32 31 = 0 ∧
    signExtend 0xffffffff#32 1 = -1 ∧
    (bits 0xfedcba98#32 31 0).toNat
      = (bits 0xfedcba98#32 31 31).toNat * 2 ^ 31 + (bits 0xfedcba98#32 30 0).toNat ∧
    bits 0xfedcba98#32 31 0 = 0xfedcba98#32 := by
  have hleast := (signExtend_bits_arithmetic 0x80000000#32).1
  have hones := (signExtend_bits_arithmetic 0xffffffff#32).1
  have hmixed := (signExtend_bits_arithmetic 0xfedcba98#32).2
  refine ⟨?_, ?_, ?_, ?_, hmixed.2⟩
  · exact ((hleast 32 (by decide) (by decide) (-0x80000000)).mpr (by decide)).symm
  · exact ((hleast 31 (by decide) (by decide) 0).mpr (by decide)).symm
  · exact ((hones 1 (by decide) (by decide) (-1)).mpr (by decide)).symm
  · exact (hmixed.1 31 0 (by decide) (by decide)).2 30 (by decide) (by decide)

end Word
end RiscV
