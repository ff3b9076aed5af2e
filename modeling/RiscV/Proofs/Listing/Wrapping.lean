import RiscV.Proofs.Builtin.Wording
import RiscV.Proofs.Image.Tiling

/-!
# Addresses wrap around

The addresses of a set are the numbers below a power of two, whose exponent is the
register width or 64, whichever is less.  An address is masked before it is used, an
offset is added to it with 64 bits, and the sum is masked again.  Here all of this is one
remainder: a jump leads to the address of the jump plus its offset, modulo the size of the
address space, also where it crosses an end of the space.

## Main definitions

* `Xlen.addressBits` — the number of bits of an address.
* `Form.leading` — the forms that show where they lead.
* `InstructionSet.target` — the address at an offset from another.

## Main results

* `InstructionSet.disassemble_eq_of_mod_eq` — lines depend on addresses and words only as
  far as these count.
* `InstructionSet.toNat_goal` — masking twice is taking one remainder.
* `InstructionSet.target_add` — a target moves along with the address.
* `InstructionSet.disassemble_modulo` — **addresses and targets are computed modulo the
  size of the address space.**
-/

namespace RiscV

/-! ### Addresses -/

/-- The number of bits of an address: those of a register, and 64 at most. -/
def Xlen.addressBits (xlen : Xlen) : Nat := min xlen.bits 64

theorem Xlen.addressBits_cases (xlen : Xlen) :
    xlen.addressBits = 32 ∨ xlen.addressBits = 64 := by
  cases xlen <;> decide

/-- Masking an address takes its remainder. -/
theorem Xlen.toNat_and_mask (xlen : Xlen) (a : Address) :
    (a &&& addressMask xlen.bits).toNat = a.toNat % 2 ^ xlen.addressBits := by
  have hlt : a.toNat < 2 ^ 64 := a.isLt
  rw [toNat_and_addressMask]
  cases xlen with
  | rv32 => rfl
  | rv64 => rfl
  | rv128 =>
    -- no address has more than 64 bits
    change a.toNat % 2 ^ 128 = a.toNat % 2 ^ 64
    omega

/-! ### Targets -/

/-- The forms that show where they lead: jumps and branches, of either length. -/
def Form.leading : List Form := [.jump, .branch, .cJump, .cJumpLink, .cBranch]

/-- The last operand of such a form is its target. -/
theorem Form.getLast?_operands_write {form : Form} (h : form ∈ leading) (name : String)
    (o : Operands) (goal : Int → Address) :
    (form.write name o goal).operands.getLast? = some (.target (goal o.imm)) := by
  simp only [leading, List.mem_cons, List.not_mem_nil, or_false] at h
  rcases h with rfl | rfl | rfl | rfl | rfl
  case inl | inr.inl =>
    -- a shorthand leaves out a register, not the target
    rw [write]
    split <;> rfl
  all_goals rfl

namespace InstructionSet

/-- The address at an offset from `a`. -/
def target (s : InstructionSet) (a : Address) (offset : Int) : Nat :=
  ((a.toNat + offset) % 2 ^ s.xlen.addressBits).toNat

theorem natCast_target (s : InstructionSet) (a : Address) (offset : Int) :
    (s.target a offset : Int) = (a.toNat + offset) % 2 ^ s.xlen.addressBits := by
  unfold target
  rcases s.xlen.addressBits_cases with h | h <;> rw [h] <;> omega

theorem target_lt (s : InstructionSet) (a : Address) (offset : Int) :
    s.target a offset < 2 ^ s.xlen.addressBits := by
  unfold target
  rcases s.xlen.addressBits_cases with h | h <;> rw [h] <;> omega

/-- **A target moves along with the address.** -/
theorem target_add (s : InstructionSet) (a b : Address) (offset : Int) :
    s.target (a + b) offset = (s.target a offset + b.toNat) % 2 ^ s.xlen.addressBits := by
  unfold target
  rw [BitVec.toNat_add]
  rcases s.xlen.addressBits_cases with h | h <;> rw [h] <;> omega

/-- **Masking twice is taking one remainder**: the address before the offset is added, and
the sum with 64 bits. -/
theorem toNat_goal (s : InstructionSet) (a : Address) (offset : Int) :
    (Form.goal (a &&& s.addressMask) s.addressMask offset).toNat = s.target a offset := by
  rw [Form.goal, addressMask, Xlen.toNat_and_mask, BitVec.toNat_add, Xlen.toNat_and_mask,
    BitVec.toNat_ofInt, target]
  rcases s.xlen.addressBits_cases with h | h <;> rw [h] <;> omega

/-- The target is the last operand of a text. -/
theorem getLast?_operandsOf_disassemble {xlen : Xlen} {ms : List Builtin} {s : InstructionSet}
    (hs : build xlen (ms.map Builtin.table) = .ok s) {w : Word} {d : Definition}
    (h : s.lookup w = some d) (hform : d.form ∈ Form.leading) (a : Address) :
    (Assembly.operandsOf (s.disassemble a w).assembly.toList).getLast?
      = some (Nat.toDigits 16 (s.target a (d.form.operands w.parcel).imm)) := by
  rw [(parts_disassemble hs h a).operandsOf_eq, List.getLast?_map, Definition.line,
    Form.getLast?_operands_write hform, Option.map_some, Operand.text, Text.toList_hex,
    toNat_goal]

/-! ### Lines -/

/-- Lines depend on addresses and words only as far as these count. -/
theorem disassemble_eq_of_mod_eq (s : InstructionSet) {a b : Address} {w v : Word}
    (haddress : a.toNat % 2 ^ s.xlen.addressBits = b.toNat % 2 ^ s.xlen.addressBits)
    (hparcel : w.parcel = v.parcel) : s.disassemble a w = s.disassemble b v := by
  have hmask : a &&& s.addressMask = b &&& s.addressMask := by
    apply BitVec.eq_of_toNat_eq
    rw [addressMask, Xlen.toNat_and_mask, Xlen.toNat_and_mask, haddress]
  rw [s.disassemble_congr a hparcel]
  unfold disassemble
  rw [hmask]

/-- **Addresses and targets are computed modulo the size of the address space.**

The address space of a set has `2 ^ n` addresses, where `n` is the register width and 64 at
most.  Lines of addresses that are congruent modulo `2 ^ n` are equal, if their words are
equal or are short instructions with equal low halves; and the address that a line shows is
the remainder.

In a set of built-in instructions, let a word be a jump or a branch.  The last operand of
its text is the hexadecimal numeral of the address plus the offset that the word holds,
modulo `2 ^ n`.  So targets are addresses of the space, and moving the word moves its target
by as much. -/
theorem disassemble_modulo (s : InstructionSet) :
    (∀ (a b : Address) (w v : Word),
      a.toNat % 2 ^ min s.xlen.bits 64 = b.toNat % 2 ^ min s.xlen.bits 64 →
      w = v ∨ w.toNat % 4 ≠ 3 ∧ v.toNat % 4 ≠ 3 ∧ w.toNat % 2 ^ 16 = v.toNat % 2 ^ 16 →
      s.disassemble a w = s.disassemble b v) ∧
    (∀ (a : Address) (w : Word),
      (s.disassemble a w).address.toNat = a.toNat % 2 ^ min s.xlen.bits 64) ∧
    ∀ (xlen : Xlen) (ms : List Builtin), build xlen (ms.map Builtin.table) = .ok s →
      ∀ (w : Word) (d : Definition), s.lookup w = some d → d.form ∈ Form.leading →
      ∃ target : Address → Nat,
        (∀ a, target a
          = (a.toNat + (d.form.operands w.parcel).imm) % (2 ^ min s.xlen.bits 64 : Int)) ∧
        (∀ a, (Assembly.operandsOf (s.disassemble a w).assembly.toList).getLast?
          = some (Nat.toDigits 16 (target a))) ∧
        (∀ a, target a < 2 ^ min s.xlen.bits 64) ∧
        ∀ a b, target (a + b) = (target a + b.toNat) % 2 ^ min s.xlen.bits 64 := by
  refine ⟨?_, ?_, ?_⟩
  · intro a b w v haddress hword
    refine s.disassemble_eq_of_mod_eq haddress ?_
    rcases hword with rfl | ⟨hw, -, hmod⟩
    · rfl
    · exact Word.parcel_eq_of_mod_eq hw hmod
  · intro a w
    exact s.xlen.toNat_and_mask a
  · intro xlen ms hs w d hd hform
    refine ⟨fun a => s.target a (d.form.operands w.parcel).imm, ?_, ?_, ?_, ?_⟩
    · exact fun a => s.natCast_target a _
    · exact getLast?_operandsOf_disassemble hs hd hform
    · exact fun a => s.target_lt a _
    · exact fun a b => s.target_add a b _

/-- A jump backwards from the first address leads to the end of the space, and the high half
of a short instruction does not count. -/
theorem disassemble_modulo_backwards :
    ∃ s, build .rv32 ([Builtin.rv32i].map Builtin.table) = .ok s ∧
      s.lookup 0xff9ff0ef#32 = some ⟨"jal", ⟨0x7f#32, 0x6f#32, .standard⟩, .jump, .i⟩ ∧
      (Form.jump.operands 0xff9ff0ef#32).imm = -8 ∧
      (Assembly.operandsOf (s.disassemble 0#64 0xff9ff0ef#32).assembly.toList).getLast?
        = some ['f', 'f', 'f', 'f', 'f', 'f', 'f', '8'] ∧
      s.disassemble 0x100000000#64 0xbeef4505#32 = s.disassemble 0#64 0x00004505#32 := by
  have hbuild := build_of_not_shadowed .rv32
    (Builtin.not_shadowed_of_notMem (by decide : Builtin.rv128c ∉ [Builtin.rv32i]))
  obtain ⟨target, hvalue, hlast, -⟩ := (disassemble_modulo _).2.2 _ _ hbuild 0xff9ff0ef#32
    ⟨"jal", ⟨0x7f#32, 0x6f#32, .standard⟩, .jump, .i⟩ (by decide +kernel) (by decide)
  have hoffset : (Form.jump.operands 0xff9ff0ef#32).imm = -8 := by decide +kernel
  have hzero : target 0#64 = 0xfffffff8 := by
    have hmod : (0 + (Form.jump.operands 0xff9ff0ef#32).imm) % 2 ^ 32 = 0xfffffff8 := by
      rw [hoffset]
      decide
    exact Int.ofNat.inj ((hvalue 0#64).trans hmod)
  refine ⟨_, hbuild, by decide +kernel, hoffset, ?_, ?_⟩
  · rw [hlast, hzero]
    decide +kernel
  · exact (disassemble_modulo _).1 _ _ _ _ (by decide) (Or.inr (by decide))

end InstructionSet
end RiscV
