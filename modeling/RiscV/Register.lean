/-!
# Register names

Operands are printed by the names of the standard calling convention.  There
are two files of 32 registers; an index outside a file prints as a placeholder.
-/

namespace RiscV

/-- The two register files. -/
inductive RegisterFile
  /-- The general-purpose registers `x0` to `x31`. -/
  | integer
  /-- The floating-point registers `f0` to `f31`. -/
  | float
  deriving DecidableEq, Repr, Inhabited

namespace RegisterFile

/-- The names of a file's registers, in index order. -/
def names : RegisterFile → List String
  | integer =>
    ["zero", "ra", "sp", "gp", "tp", "t0", "t1", "t2", "s0", "s1", "a0", "a1", "a2", "a3",
      "a4", "a5", "a6", "a7", "s2", "s3", "s4", "s5", "s6", "s7", "s8", "s9", "s10", "s11",
      "t3", "t4", "t5", "t6"]
  | float =>
    ["ft0", "ft1", "ft2", "ft3", "ft4", "ft5", "ft6", "ft7", "fs0", "fs1", "fa0", "fa1",
      "fa2", "fa3", "fa4", "fa5", "fa6", "fa7", "fs2", "fs3", "fs4", "fs5", "fs6", "fs7",
      "fs8", "fs9", "fs10", "fs11", "ft8", "ft9", "ft10", "ft11"]

/-- What an index outside the file prints as. -/
def placeholder : RegisterFile → String
  | integer => "x??"
  | float => "f??"

/-- The name of the register with the given index. -/
def name (file : RegisterFile) (index : Nat) : String :=
  file.names[index]?.getD file.placeholder

@[simp] theorem length_names (file : RegisterFile) : file.names.length = 32 := by
  cases file <;> rfl

end RegisterFile

namespace Register

/-- The register that always holds zero. -/
def zero : Nat := 0

/-- The return address register. -/
def ra : Nat := 1

/-- The stack pointer. -/
def sp : Nat := 2

end Register

end RiscV
