import RiscV.Encoding

/-!
# Assembly forms

Every instruction is written in one of a closed list of forms.  The form fixes
how the operands are encoded, how they are laid out in text and which
shorthands apply.
-/

namespace RiscV

/-- The access size of a compressed load or store. -/
inductive AccessSize
  /-- Four bytes. -/
  | word
  /-- Eight bytes. -/
  | double
  deriving DecidableEq, Repr, Inhabited

/-- How an instruction is decoded and written. -/
inductive Form
  /-- Writes `rd,rs1,rs2`. -/
  | arith
  /-- Writes `rd,rs1,rs2`, or `neg rd,rs2` when `rs1` is the zero register. -/
  | sub
  /-- Writes `rd,(rs1)` with an ordering suffix. -/
  | loadReserved
  /-- Writes `rd,rs2,(rs1)` with an ordering suffix. -/
  | atomic
  /-- Writes `fd,fs1,fs2`. -/
  | floatArith
  /-- Writes `fd,fs1`. -/
  | floatUnary
  /-- Writes `rd,fs1`. -/
  | floatToInt
  /-- Writes `fd,rs1`. -/
  | intToFloat
  /-- Writes `rd,fs1,fs2`. -/
  | floatCompare
  /-- Writes `rd,fs1` and the rounding mode unless it is dynamic. -/
  | floatToIntRounded
  /-- Writes `fd,rs1`; the rounding mode is not written. -/
  | intToFloatRounded
  /-- Writes `fd,fs1,fs2,fs3`. -/
  | fused
  /-- Writes `rd,rs1,imm`. -/
  | arithImm
  /-- Writes `rd,rs1,imm` with the shorthands `nop`, `li` and `mv`. -/
  | addImm
  /-- Writes `rd,rs1,imm`, or `not rd,rs1` when the immediate is -1. -/
  | xorImm
  /-- Writes `rd,rs1,shamt`. -/
  | shiftImm
  /-- Writes `rd,imm(rs1)` into the given register file. -/
  | load (file : RegisterFile)
  /-- Writes `rs2,imm(rs1)` from the given register file. -/
  | store (file : RegisterFile)
  /-- Writes `rd,imm(rs1)` with the shorthands for `ret`, a link in `ra` and no offset. -/
  | jumpRegister
  /-- Writes `rd` and the upper twenty bits of the immediate. -/
  | upper
  /-- Writes `rd,target`, or `j target` when nothing is linked. -/
  | jump
  /-- Writes `rs1,rs2,target`, or the comparison with zero. -/
  | branch
  /-- Register access to a control and status register. -/
  | csr
  /-- Immediate access to a control and status register. -/
  | csrImm
  /-- The mnemonic alone. -/
  | bare
  /-- Writes `rs1,rs2`, or the mnemonic alone when both are the zero register. -/
  | fence
  /-- The all-zero parcel. -/
  | cIllegal
  /-- Writes `nop`. -/
  | cNop
  /-- Writes `rd,sp,imm`. -/
  | cAddSpWide
  /-- Writes `rd,rd,imm`. -/
  | cAddImm
  /-- Writes `rd,imm`. -/
  | cLoadImm
  /-- Writes `sp,sp,imm`. -/
  | cAddSp
  /-- Writes `rd` and the upper bits of the immediate. -/
  | cUpper
  /-- Writes `rd,rd,shamt` on a full register. -/
  | cShift
  /-- Writes `rd,rd,shamt` on a short register. -/
  | cShiftShort
  /-- Writes `rd,rd,imm` on a short register. -/
  | cAndImm
  /-- Writes `rd,rd,rs2` on short registers. -/
  | cArith
  /-- Writes `target`. -/
  | cJump
  /-- Writes `ra,target`. -/
  | cJumpLink
  /-- Writes `rs1,target`. -/
  | cBranch
  /-- Writes `rs1`, or `ret` when it is the return address. -/
  | cJumpRegister
  /-- Writes `rs1`. -/
  | cJumpLinkRegister
  /-- Writes `rd,rs2`. -/
  | cMove
  /-- Writes `rd,rd,rs2` on full registers. -/
  | cAdd
  /-- Writes `rd,imm(rs1)` on short registers. -/
  | cMemory (size : AccessSize) (file : RegisterFile)
  /-- Writes `rd,imm(sp)`. -/
  | cLoadSp (size : AccessSize) (file : RegisterFile)
  /-- Writes `rs2,imm(sp)`. -/
  | cStoreSp (size : AccessSize) (file : RegisterFile)
  /-- The mnemonic and a placeholder. -/
  | unimplemented
  deriving DecidableEq, Repr, Inhabited

/-- The encoding a form reads its operands by; four forms read none. -/
def Form.encoding : Form → Option Encoding
  | arith | sub | loadReserved | atomic | floatArith | floatUnary | floatToInt | intToFloat
  | floatCompare | floatToIntRounded | intToFloatRounded | fence => some .r
  | fused => some .r4
  | arithImm | addImm | xorImm | load _ | jumpRegister => some .i
  | shiftImm => some .iShift
  | store _ => some .s
  | upper => some .u
  | jump => some .j
  | branch => some .b
  | csr | csrImm => some .iCsr
  | cAddSpWide => some .ciw
  | cAddImm | cLoadImm => some .ci
  | cAddSp => some .ciAddi16sp
  | cUpper => some .ciLui
  | cShift => some .ciShift
  | cShiftShort => some .cbShift
  | cAndImm => some .cbAndi
  | cArith => some .ca
  | cJump | cJumpLink => some .cj
  | cBranch => some .cbBranch
  | cJumpRegister | cJumpLinkRegister | cMove | cAdd => some .cr
  | cMemory .word _ => some .clWord
  | cMemory .double _ => some .clDouble
  | cLoadSp .word _ => some .ciLwsp
  | cLoadSp .double _ => some .ciLdsp
  | cStoreSp .word _ => some .cssSwsp
  | cStoreSp .double _ => some .cssSdsp
  | bare | cIllegal | cNop | unimplemented => none

/-- The operands a form reads off a word. -/
def Form.operands (f : Form) (w : Word) : Operands :=
  match f.encoding with
  | some e => e.decode w
  | none => {}

end RiscV
