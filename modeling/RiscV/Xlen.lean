import RiscV.Word

/-!
# Register width

The register width of a machine is 32, 64 or 128 bits.  Addresses are kept to
that width, and to at most 64 bits.
-/

namespace RiscV

/-- The width of registers and addresses. -/
inductive Xlen
  | rv32
  | rv64
  | rv128
  deriving DecidableEq, Repr, Inhabited

namespace Xlen

/-- The number of bits. -/
def bits : Xlen → Nat
  | rv32 => 32
  | rv64 => 64
  | rv128 => 128

/-- The width with a given number of bits. -/
def ofBits? : Nat → Option Xlen
  | 32 => some rv32
  | 64 => some rv64
  | 128 => some rv128
  | _ => none

@[simp] theorem ofBits?_bits (x : Xlen) : ofBits? x.bits = some x := by cases x <;> rfl

end Xlen

/-- The addresses of a space with the given number of address bits. -/
def addressMask (bits : Nat) : Address :=
  if 64 ≤ bits then BitVec.allOnes 64 else (1#64 <<< bits) - 1#64

end RiscV
