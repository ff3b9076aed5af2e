import Mathlib.Algebra.Group.Int.Defs
import Mathlib.Algebra.Group.Nat.Defs
import RiscV.Word

/-!
# Bits of words

The operations on words are shifts and masks.  Here each is read bit by bit, or
as arithmetic on the number that the word stands for.

## Main results

* `Word.getLsbD_bits`, `Word.toNat_bits` — a bit range, bit by bit and as the
  extracted field.
* `Word.signExtend_eq_bmod` — sign extension is the balanced remainder, and
  `Word.bmod_two_pow_eq_iff` says which number that is.
* `Word.width_parcel`, `Word.parcel_parcel` — the bits that belong to an
  instruction announce its length, and nothing else belongs to it.
* `Word.parcel_eq_of_mod_eq` — of a short instruction only the low half counts.
-/

/-- A number that fits is the word it is taken for. -/
theorem BitVec.ofNat_eq_iff_of_lt {width n : Nat} {x : BitVec width} (hn : n < 2 ^ width) :
    BitVec.ofNat width n = x ↔ n = x.toNat := by
  rw [← BitVec.toNat_inj, BitVec.toNat_ofNat, Nat.mod_eq_of_lt hn]

namespace RiscV
namespace Word

/-! ### Bit ranges -/

/-- The mask of a range: the lowest `n` bits.  For thirty-two bits and more the
power of two is zero and the mask has all bits. -/
theorem getLsbD_lowMask (n i : Nat) (hi : i < 32) :
    ((1#32 <<< n) - 1#32 : Word).getLsbD i = decide (i < n) := by
  rcases Nat.lt_or_ge n 32 with hn | hn
  · have hpow : 2 ^ n < 2 ^ 32 := Nat.pow_lt_pow_right (by decide) hn
    have hpos : 0 < 2 ^ n := Nat.two_pow_pos n
    have hnat : ((1#32 <<< n) - 1#32 : Word).toNat = 2 ^ n - 1 := by
      rw [BitVec.toNat_sub, BitVec.toNat_shiftLeft]
      simp only [BitVec.toNat_ofNat, Nat.shiftLeft_eq]
      omega
    rw [← BitVec.testBit_toNat, hnat, Nat.testBit_two_pow_sub_one]
  · have hzero : (1#32 <<< n : Word) = 0#32 := BitVec.shiftLeft_eq_zero hn
    rw [hzero, decide_eq_true (by omega : i < n)]
    revert i
    decide

/-- Bit `i` of a range is bit `lo + i` of the word, up to the end of the range. -/
theorem getLsbD_bits (w : Word) (hi lo i : Nat) :
    (w.bits hi lo).getLsbD i = (decide (i ≤ hi - lo) && w.getLsbD (lo + i)) := by
  rcases Nat.lt_or_ge i 32 with h | h
  · rw [bits, BitVec.getLsbD_and, BitVec.getLsbD_ushiftRight, getLsbD_lowMask _ _ h,
      Bool.and_comm]
    simp only [Nat.lt_succ_iff]
  · rw [BitVec.getLsbD_of_ge _ i h, BitVec.getLsbD_of_ge w (lo + i) (by omega), Bool.and_false]

/-- A range is the field that starts at its lowest bit. -/
theorem toNat_bits (w : Word) (hi lo : Nat) :
    (w.bits hi lo).toNat = (w.extractLsb' lo (hi - lo + 1)).toNat := by
  apply Nat.eq_of_testBit_eq
  intro i
  rw [BitVec.testBit_toNat, BitVec.testBit_toNat, getLsbD_bits, BitVec.getLsbD_extractLsb']
  simp only [Nat.lt_succ_iff]

/-! ### Sign extension -/

/-- A remainder around zero is told by its range and by what it is a remainder of. -/
theorem bmod_two_pow_eq_iff {x i : Int} {n : Nat} (hpos : 0 < n) :
    Int.bmod x (2 ^ n) = i ↔ -2 ^ (n - 1) ≤ i ∧ i < 2 ^ (n - 1) ∧ (2 ^ n : Int) ∣ i - x := by
  obtain ⟨m, rfl⟩ : ∃ m, n = m + 1 := ⟨n - 1, by omega⟩
  have hpow : (2 ^ (m + 1) : Int) = 2 * 2 ^ m := by
    rw [pow_succ]
    omega
  have hcast : ((2 ^ (m + 1) : Nat) : Int) = 2 * 2 ^ m := by
    push_cast
    exact hpow
  have hlow : (2 * 2 ^ m / 2 : Int) = 2 ^ m := by omega
  have hhigh : ((2 * 2 ^ m + 1) / 2 : Int) = 2 ^ m := by omega
  rw [Int.bmod_eq_iff (Nat.two_pow_pos _), hcast, hlow, hhigh, Nat.add_sub_cancel, hpow]

/-- The low `n` bits as a signed number are the remainder modulo `2 ^ n` that
lies around zero. -/
theorem signExtend_eq_bmod (w : Word) {n : Nat} (hpos : 0 < n) (hn : n ≤ 32) :
    w.signExtend n = Int.bmod w.toNat (2 ^ n) := by
  have hsplit : 2 ^ 32 = 2 ^ (32 - n) * 2 ^ n := by
    rw [← Nat.pow_add]
    congr 1
    omega
  have hdvd : 2 ∣ 2 ^ n := Nat.pow_dvd_pow 2 hpos
  have hne : (2 ^ (32 - n) : Int) ≠ 0 := Int.ne_of_gt (Int.pow_pos (by decide))
  rw [signExtend, BitVec.toInt_sshiftRight, BitVec.toInt_shiftLeft, hsplit,
    Nat.shiftLeft_eq, Nat.mul_comm w.toNat]
  rw [Int.shiftRight_eq_div_pow]
  push_cast
  have hscale := Int.mod_bmod_mul_of_pos (a := 2 ^ (32 - n)) (w.toNat : Int) (2 ^ n)
    (Nat.two_pow_pos _) hdvd
  push_cast at hscale
  rw [hscale, Int.mul_ediv_cancel_left _ hne]

/-! ### Length -/

theorem isStandard_iff (w : Word) :
    w.isStandard = true ↔ w.getLsbD 0 = true ∧ w.getLsbD 1 = true := by
  rw [isStandard, beq_iff_eq]
  constructor
  · intro h
    have hbit : ∀ i, (w &&& 3#32).getLsbD i = (3#32 : Word).getLsbD i := fun i => by rw [h]
    have h0 := hbit 0
    have h1 := hbit 1
    simp at h0 h1
    exact ⟨h0, h1⟩
  · rintro ⟨h0, h1⟩
    apply BitVec.eq_of_getLsbD_eq
    intro i hi
    rw [BitVec.getLsbD_and]
    have hthree : (3#32 : Word).getLsbD i = (i == 0 || i == 1) := by
      revert i
      decide
    rw [hthree]
    rcases i with _ | _ | i <;> simp [h0, h1]

/-- The bits of a parcel: those of the word, without the high half for a 16-bit
instruction. -/
theorem getLsbD_parcel (w : Word) (i : Nat) :
    w.parcel.getLsbD i = (decide (i < w.width.bits) && w.getLsbD i) := by
  unfold parcel width
  split
  · rcases Nat.lt_or_ge i 32 with hi | hi
    · simp [hi]
    · rw [BitVec.getLsbD_of_ge w i hi, Bool.and_false]
  · rcases Nat.lt_or_ge i 32 with hi | hi
    · have hmask : (0xffff#32 : Word).getLsbD i = decide (i < 16) := by
        revert i
        decide
      rw [BitVec.getLsbD_and, hmask, Bool.and_comm]
      rfl
    · rw [BitVec.getLsbD_of_ge _ i hi, BitVec.getLsbD_of_ge w i hi, Bool.and_false]

theorem isStandard_parcel (w : Word) : w.parcel.isStandard = w.isStandard := by
  rw [Bool.eq_iff_iff, isStandard_iff, isStandard_iff, getLsbD_parcel, getLsbD_parcel]
  cases w.width <;> simp

@[simp] theorem width_parcel (w : Word) : w.parcel.width = w.width := by
  rw [width, width, isStandard_parcel]

@[simp] theorem parcel_parcel (w : Word) : w.parcel.parcel = w.parcel := by
  apply BitVec.eq_of_getLsbD_eq
  intro i _
  rw [getLsbD_parcel, getLsbD_parcel, width_parcel]
  cases decide (i < w.width.bits) <;> rfl

/-- The bits of an instruction fit in its length. -/
theorem toNat_parcel_lt (w : Word) : w.parcel.toNat < 2 ^ w.width.bits := by
  apply Nat.lt_pow_two_of_testBit
  intro i hi
  rw [BitVec.testBit_toNat, getLsbD_parcel, decide_eq_false (by omega), Bool.false_and]

theorem toNat_and_half (w : Word) : (w &&& 0xffff#32).toNat = w.toNat % 2 ^ 16 := by
  rw [BitVec.toNat_and]
  exact Nat.and_two_pow_sub_one_eq_mod w.toNat 16

/-- The low half of a word belongs to the instruction, whatever its length. -/
theorem toNat_parcel_mod (w : Word) : w.parcel.toNat % 2 ^ 16 = w.toNat % 2 ^ 16 := by
  unfold parcel
  split
  · rfl
  · rw [toNat_and_half, Nat.mod_mod]

/-- Short instructions with one low half have the same bits. -/
theorem parcel_eq_of_mod_eq {w v : Word} (hw : w.toNat % 4 ≠ 3)
    (hmod : w.toNat % 2 ^ 16 = v.toNat % 2 ^ 16) : w.parcel = v.parcel := by
  have hshort : ∀ u : Word, u.toNat % 4 ≠ 3 → u.parcel = u &&& 0xffff#32 := by
    intro u hu
    refine if_neg ?_
    rw [isStandard, beq_iff_eq, ← BitVec.toNat_inj, BitVec.toNat_and]
    intro hstandard
    exact hu ((Nat.and_two_pow_sub_one_eq_mod u.toNat 2).symm.trans hstandard)
  rw [hshort w hw, hshort v (by omega), ← BitVec.toNat_inj, toNat_and_half, toNat_and_half,
    hmod]

end Word
end RiscV
