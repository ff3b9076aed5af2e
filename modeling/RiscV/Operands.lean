import RiscV.Register
import RiscV.Word

/-!
# Operands and where a word holds them

The operands of an instruction sit at fixed places of its word.  Immediates are
scattered: runs of consecutive word bits supply runs of consecutive operand
bits, in an order that differs from format to format.  An `Encoding` lists for
each operand the word bits it is read from; decoding reads them off.

## Main definitions

* `Run`, `gather` — a run of word bits, and the value several runs make up.
* `RegisterSource`, `ImmediateSource` — where a register number or an immediate
  comes from.
* `Encoding`, `Encoding.decode` — the places of all operands, and reading them.
-/

namespace RiscV

/-- The operands of an instruction.  One that the instruction does not have is
zero. -/
structure Operands where
  /-- The destination register. -/
  rd : Nat := 0
  /-- The first source register, or a five-bit unsigned immediate in its place. -/
  rs1 : Nat := 0
  /-- The second source register. -/
  rs2 : Nat := 0
  /-- The third source register. -/
  rs3 : Nat := 0
  /-- The immediate, extended and scaled. -/
  imm : Int := 0
  /-- The address of a control and status register. -/
  csr : Nat := 0
  /-- The shift amount. -/
  shamt : Nat := 0
  /-- The rounding mode. -/
  rm : Nat := 0
  /-- The acquire flag of an atomic. -/
  aq : Bool := false
  /-- The release flag of an atomic. -/
  rl : Bool := false
  deriving DecidableEq, Repr, Inhabited

/-! ### Scattered values -/

/-- Word bits `hi` down to `lo`, which supply the operand bits from `place`
upward. -/
structure Run where
  /-- The highest word bit. -/
  hi : Nat
  /-- The lowest word bit. -/
  lo : Nat
  /-- The operand bit that the lowest word bit supplies. -/
  place : Nat
  deriving DecidableEq, Repr, Inhabited

/-- What one run contributes to the operand. -/
def Run.read (r : Run) (w : Word) : Word := w.bits r.hi r.lo <<< r.place

/-- The value that several runs make up together. -/
def gather (rs : List Run) (w : Word) : Word :=
  rs.foldr (fun r acc => r.read w ||| acc) 0#32

@[simp] theorem gather_nil (w : Word) : gather [] w = 0#32 := rfl

@[simp] theorem gather_cons (r : Run) (rs : List Run) (w : Word) :
    gather (r :: rs) w = r.read w ||| gather rs w := rfl

/-! ### Sources -/

/-- Where a register number comes from. -/
inductive RegisterSource
  /-- The instruction has no such register. -/
  | absent
  /-- The register is implied. -/
  | fixed (index : Nat)
  /-- Five word bits from `lo` upward. -/
  | full (lo : Nat)
  /-- Three word bits from `lo` upward, which number the registers from 8 on. -/
  | short (lo : Nat)
  deriving DecidableEq, Repr, Inhabited

/-- The register number read from a word. -/
def RegisterSource.read : RegisterSource → Word → Nat
  | absent, _ => 0
  | fixed index, _ => index
  | full lo, w => (w.bits (lo + 4) lo).toNat
  | short lo, w => 8 + (w.bits (lo + 2) lo).toNat

/-- Where an immediate comes from. -/
inductive ImmediateSource
  /-- The instruction has no immediate. -/
  | absent
  /-- The runs make up a signed number of `width` bits. -/
  | signed (width : Nat) (runs : List Run)
  /-- The runs make up an unsigned number. -/
  | unsigned (runs : List Run)
  deriving DecidableEq, Repr, Inhabited

/-- The immediate read from a word. -/
def ImmediateSource.read : ImmediateSource → Word → Int
  | absent, _ => 0
  | signed width runs, w => (gather runs w).signExtend width
  | unsigned runs, w => (gather runs w).toNat

/-- A flag is one word bit. -/
def readFlag : Option Nat → Word → Bool
  | none, _ => false
  | some n, w => w.getLsbD n

/-! ### Encodings -/

/-- The places of all operands of an instruction. -/
structure Encoding where
  /-- The destination register. -/
  rd : RegisterSource := .absent
  /-- The first source register. -/
  rs1 : RegisterSource := .absent
  /-- The second source register. -/
  rs2 : RegisterSource := .absent
  /-- The third source register. -/
  rs3 : RegisterSource := .absent
  /-- The immediate. -/
  imm : ImmediateSource := .absent
  /-- The address of a control and status register. -/
  csr : List Run := []
  /-- The shift amount. -/
  shamt : List Run := []
  /-- The rounding mode. -/
  rm : List Run := []
  /-- The word bit of the acquire flag. -/
  aq : Option Nat := none
  /-- The word bit of the release flag. -/
  rl : Option Nat := none
  deriving DecidableEq, Repr, Inhabited

/-- Read all operands off a word. -/
def Encoding.decode (e : Encoding) (w : Word) : Operands where
  rd := e.rd.read w
  rs1 := e.rs1.read w
  rs2 := e.rs2.read w
  rs3 := e.rs3.read w
  imm := e.imm.read w
  csr := (gather e.csr w).toNat
  shamt := (gather e.shamt w).toNat
  rm := (gather e.rm w).toNat
  aq := readFlag e.aq w
  rl := readFlag e.rl w

end RiscV
