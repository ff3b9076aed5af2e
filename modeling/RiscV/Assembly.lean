import RiscV.Csr
import RiscV.Form
import RiscV.RoundingMode

/-!
# Assembly text

A decoded instruction is a mnemonic and a list of operands.  Registers are
written by name, immediates in decimal, shift amounts and upper immediates in
marked hexadecimal and jump targets as bare hexadecimal addresses.  Common
special cases have shorthands of their own, such as `li` and `ret`.

## Main definitions

* `Operand`, `Assembly`, `Assembly.text` — one line of assembly and its text.
* `Form.write` — the mnemonic and operands for decoded operands.
* `Form.render` — decoding and writing a word.
-/

namespace RiscV

/-- One operand as written. -/
inductive Operand
  /-- A register by name. -/
  | register (file : RegisterFile) (index : Nat)
  /-- A decimal number. -/
  | immediate (value : Int)
  /-- A hexadecimal number with its marker. -/
  | marked (value : Nat)
  /-- An address in bare hexadecimal. -/
  | target (address : Address)
  /-- A register holding an address, in parentheses. -/
  | indirect (base : Nat)
  /-- An offset from the address in a register. -/
  | memory (offset : Int) (base : Nat)
  /-- A control and status register by name. -/
  | csr (address : Nat)
  /-- A rounding mode by name. -/
  | rounding (mode : Nat)
  /-- The placeholder for operands that are not written. -/
  | placeholder
  deriving DecidableEq, Repr

namespace Operand

/-- A general-purpose register. -/
abbrev x (index : Nat) : Operand := register .integer index

/-- A floating-point register. -/
abbrev f (index : Nat) : Operand := register .float index

/-- The text of an operand. -/
def text : Operand → String
  | register file index => file.name index
  | immediate value => Text.decimal value
  | marked value => Text.hexMarked value
  | target address => Text.hex address.toNat
  | indirect base => "(" ++ RegisterFile.integer.name base ++ ")"
  | memory offset base =>
    Text.decimal offset ++ "(" ++ RegisterFile.integer.name base ++ ")"
  | csr address => Csr.name address
  | rounding mode => RoundingMode.name mode
  | placeholder => "<unimplemented>"

end Operand

/-- A mnemonic and its operands. -/
structure Assembly where
  /-- The mnemonic, with any suffix. -/
  mnemonic : String
  /-- The operands, in the order in which they are written. -/
  operands : List Operand := []
  deriving DecidableEq, Repr

namespace Assembly

/-- The mnemonic alone, or a space after it and the operands joined by commas. -/
def text (a : Assembly) : String :=
  match a.operands with
  | [] => a.mnemonic
  | os => a.mnemonic ++ " " ++ ",".intercalate (os.map Operand.text)

/-- What a word that is no instruction is written as. -/
def illegal : Assembly := ⟨"illegal", []⟩

end Assembly

/-! ### Mnemonics -/

namespace Mnemonic

/-- Replace the first occurrence of `old` by `new`. -/
def replaceFirst (old new : List Char) : List Char → List Char
  | [] => []
  | c :: cs =>
    if old.isPrefixOf (c :: cs) then new ++ (c :: cs).drop old.length
    else c :: replaceFirst old new cs

/-- The negation that a subtraction from zero is: `subw` becomes `negw`. -/
def negation (name : String) : String :=
  String.ofList (replaceFirst "sub".toList "neg".toList name.toList)

/-- The name of a register access that only writes: `csrrw` becomes `csrw`. -/
def writeOnly (name : String) : String :=
  if "csrr".toList.isPrefixOf name.toList then
    String.ofList ("csr".toList ++ name.toList.drop 4)
  else name

/-- The ordering suffix of an atomic. -/
def ordering (o : Operands) : String :=
  match o.aq, o.rl with
  | false, false => ""
  | true, false => ".aq"
  | false, true => ".rl"
  | true, true => ".aqrl"

/-- The branches that have a form comparing with zero. -/
def hasZeroForm (name : String) : Bool :=
  name == "beq" || name == "bne" || name == "blt" || name == "bge"

end Mnemonic

/-! ### Shorthands -/

namespace Form

open Operand

/-- Addition of an immediate: doing nothing, loading a constant and copying a
register have names of their own. -/
def writeAddImm (name : String) (o : Operands) : Assembly :=
  if o.rd = Register.zero ∧ o.rs1 = Register.zero ∧ o.imm = 0 then ⟨"nop", []⟩
  else if o.rs1 = Register.zero then ⟨"li", [x o.rd, immediate o.imm]⟩
  else if o.imm = 0 then ⟨"mv", [x o.rd, x o.rs1]⟩
  else ⟨name, [x o.rd, x o.rs1, immediate o.imm]⟩

/-- Jump to a register: `ret` returns, a link in `ra` is not written, and
neither is an offset of zero. -/
def writeJumpRegister (name : String) (o : Operands) : Assembly :=
  let source := if o.imm = 0 then x o.rs1 else memory o.imm o.rs1
  if o.rd = Register.zero ∧ o.rs1 = Register.ra ∧ o.imm = 0 then ⟨"ret", []⟩
  else if o.rd = Register.ra then ⟨name, [source]⟩
  else ⟨name, [x o.rd, source]⟩

/-- The floating-point registers whose accesses have mnemonics of their own, and
what those mnemonics end in. -/
def floatStem? (csr : Nat) : Option String :=
  if csr = Csr.fcsr then some "csr"
  else if csr = Csr.fflags then some "flags"
  else none

/-- The mnemonic of an immediate write to a floating-point register. -/
def floatWriteImm? (csr : Nat) : Option String :=
  if csr = Csr.frm then some "fsrmi"
  else if csr = Csr.fflags then some "fsflagsi"
  else none

/-- Whether a register access only reads. -/
def readsOnly (name : String) (o : Operands) : Bool :=
  name == "csrrs" && o.rs1 == Register.zero && o.rd != Register.zero

/-- Access to a register without a mnemonic of its own. -/
def writePlainCsr (name : String) (o : Operands) : Assembly :=
  if o.rd = Register.zero then ⟨Mnemonic.writeOnly name, [Operand.csr o.csr, x o.rs1]⟩
  else if readsOnly name o then ⟨"csrr", [x o.rd, Operand.csr o.csr]⟩
  else ⟨name, [x o.rd, Operand.csr o.csr, x o.rs1]⟩

/-- Register access to a control and status register. -/
def writeCsr (name : String) (o : Operands) : Assembly :=
  match floatStem? o.csr with
  | none => writePlainCsr name o
  | some stem =>
    if name = "csrrw" then
      ⟨"fs" ++ stem, if o.rd = Register.zero then [x o.rs1] else [x o.rd, x o.rs1]⟩
    else if readsOnly name o then ⟨"fr" ++ stem, [x o.rd]⟩
    else writePlainCsr name o

/-- Immediate access to a control and status register; the five bits in the
place of `rs1` are the operand. -/
def writeCsrImm (name : String) (o : Operands) : Assembly :=
  match floatWriteImm? o.csr, name with
  | some short, "csrrwi" =>
    ⟨short, if o.rd = Register.zero then [immediate o.rs1] else [x o.rd, immediate o.rs1]⟩
  | _, _ =>
    if o.rd = Register.zero then
      ⟨Mnemonic.writeOnly name, [Operand.csr o.csr, immediate o.rs1]⟩
    else ⟨name, [x o.rd, Operand.csr o.csr, immediate o.rs1]⟩

/-- The twenty bits above bit 11 of an upper immediate, as written in source. -/
def upperField (imm : Int) : Nat := (imm / 4096 % 1048576).toNat

/-! ### Writing -/

/-- The assembly of decoded operands.  `goal` gives the address that an offset
leads to. -/
def write (form : Form) (name : String) (o : Operands) (goal : Int → Address) : Assembly :=
  match form with
  | arith => ⟨name, [x o.rd, x o.rs1, x o.rs2]⟩
  | sub =>
    if o.rs1 = Register.zero then ⟨Mnemonic.negation name, [x o.rd, x o.rs2]⟩
    else ⟨name, [x o.rd, x o.rs1, x o.rs2]⟩
  | loadReserved => ⟨name ++ Mnemonic.ordering o, [x o.rd, indirect o.rs1]⟩
  | atomic => ⟨name ++ Mnemonic.ordering o, [x o.rd, x o.rs2, indirect o.rs1]⟩
  | floatArith => ⟨name, [f o.rd, f o.rs1, f o.rs2]⟩
  | floatUnary => ⟨name, [f o.rd, f o.rs1]⟩
  | floatToInt => ⟨name, [x o.rd, f o.rs1]⟩
  | intToFloat | intToFloatRounded => ⟨name, [f o.rd, x o.rs1]⟩
  | floatCompare => ⟨name, [x o.rd, f o.rs1, f o.rs2]⟩
  | floatToIntRounded =>
    if o.rm = RoundingMode.dynamic then ⟨name, [x o.rd, f o.rs1]⟩
    else ⟨name, [x o.rd, f o.rs1, rounding o.rm]⟩
  | fused => ⟨name, [f o.rd, f o.rs1, f o.rs2, f o.rs3]⟩
  | arithImm => ⟨name, [x o.rd, x o.rs1, immediate o.imm]⟩
  | addImm => writeAddImm name o
  | xorImm =>
    if o.imm = -1 then ⟨"not", [x o.rd, x o.rs1]⟩
    else ⟨name, [x o.rd, x o.rs1, immediate o.imm]⟩
  | shiftImm => ⟨name, [x o.rd, x o.rs1, marked o.shamt]⟩
  | load file => ⟨name, [register file o.rd, memory o.imm o.rs1]⟩
  | store file => ⟨name, [register file o.rs2, memory o.imm o.rs1]⟩
  | jumpRegister => writeJumpRegister name o
  | upper => ⟨name, [x o.rd, marked (upperField o.imm)]⟩
  | jump =>
    if o.rd = Register.zero then ⟨"j", [target (goal o.imm)]⟩
    else ⟨name, [x o.rd, target (goal o.imm)]⟩
  | branch =>
    if Mnemonic.hasZeroForm name ∧ o.rs2 = Register.zero then
      ⟨name ++ "z", [x o.rs1, target (goal o.imm)]⟩
    else ⟨name, [x o.rs1, x o.rs2, target (goal o.imm)]⟩
  | csr => writeCsr name o
  | csrImm => writeCsrImm name o
  | bare => ⟨name, []⟩
  | fence =>
    if o.rs1 = Register.zero ∧ o.rs2 = Register.zero then ⟨name, []⟩
    else ⟨name, [x o.rs1, x o.rs2]⟩
  | cIllegal => .illegal
  | cNop => ⟨"nop", []⟩
  | cAddSpWide => ⟨name, [x o.rd, x Register.sp, immediate o.imm]⟩
  | cAddImm | cAndImm => ⟨name, [x o.rd, x o.rd, immediate o.imm]⟩
  | cLoadImm => ⟨name, [x o.rd, immediate o.imm]⟩
  | cAddSp => ⟨name, [x Register.sp, x Register.sp, immediate o.imm]⟩
  | cUpper => ⟨name, [x o.rd, marked (upperField o.imm)]⟩
  | cShift | cShiftShort => ⟨name, [x o.rd, x o.rd, marked o.shamt]⟩
  | cArith | cAdd => ⟨name, [x o.rd, x o.rd, x o.rs2]⟩
  | cJump => ⟨name, [target (goal o.imm)]⟩
  | cJumpLink => ⟨name, [x Register.ra, target (goal o.imm)]⟩
  | cBranch => ⟨name, [x o.rs1, target (goal o.imm)]⟩
  | cJumpRegister => if o.rs1 = Register.ra then ⟨"ret", []⟩ else ⟨name, [x o.rs1]⟩
  | cJumpLinkRegister => ⟨name, [x o.rs1]⟩
  | cMove => ⟨name, [x o.rd, x o.rs2]⟩
  | cMemory _ file => ⟨name, [register file o.rd, memory o.imm o.rs1]⟩
  | cLoadSp _ file => ⟨name, [register file o.rd, memory o.imm Register.sp]⟩
  | cStoreSp _ file => ⟨name, [register file o.rs2, memory o.imm Register.sp]⟩
  | unimplemented => ⟨name, [placeholder]⟩

/-- The address an offset leads to from `pc` in an address space with the given
mask. -/
def goal (pc mask : Address) (offset : Int) : Address :=
  (pc + BitVec.ofInt 64 offset) &&& mask

/-- The assembly of the word `w` at the address `pc`. -/
def render (form : Form) (name : String) (pc : Address) (w : Word) (mask : Address) :
    Assembly :=
  form.write name (form.operands w) (goal pc mask)

end Form

end RiscV
