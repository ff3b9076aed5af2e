import RiscV.Table

/-!
# The 16-bit instruction tables

The order within a table is the order in which definitions are tried.
-/

namespace RiscV.Table

/-- Compressed instructions for every register width.  Each special case stands before
the instruction it is carved out of. -/
def rv32c : Table where
  name := "rv32c"
  extension := .c
  width := .compressed
  rows :=
    [ ⟨"000 00000000 000 00 C.ILLEGAL", .cIllegal⟩,
      ⟨"000 nzuimm[5:4|9:6|2|3] rd0 00 C.ADDI4SPN", .cAddSpWide⟩,
      ⟨"010 uimm[5:3] rs10 uimm[2|6] rd0 00 C.LW", .cMemory .word .integer⟩,
      ⟨"110 uimm[5:3] rs10 uimm[2|6] rs20 00 C.SW", .cMemory .word .integer⟩,
      ⟨"000 nzimm[5] 00000 nzimm[4:0] 01 C.NOP", .cNop⟩,
      ⟨"000 nzimm[5] rs1/rd!=0 nzimm[4:0] 01 C.ADDI", .cAddImm⟩,
      ⟨"010 imm[5] rd!=0 imm[4:0] 01 C.LI", .cLoadImm⟩,
      ⟨"011 nzimm[9] 00010 nzimm[4|6|8:7|5] 01 C.ADDI16SP", .cAddSp⟩,
      ⟨"011 nzimm[17] rd!=\x7b0,2\x7d nzimm[16:12] 01 C.LUI", .cUpper⟩,
      ⟨"100 nzuimm[5] 00 rs10/rd0 nzuimm[4:0] 01 C.SRLI", .cShiftShort⟩,
      ⟨"100 nzuimm[5] 01 rs10/rd0 nzuimm[4:0] 01 C.SRAI", .cShiftShort⟩,
      ⟨"100 imm[5] 10 rs10/rd0 imm[4:0] 01 C.ANDI", .cAndImm⟩,
      ⟨"100 0 11 rs10/rd0 00 rs20 01 C.SUB", .cArith⟩,
      ⟨"100 0 11 rs10/rd0 01 rs20 01 C.XOR", .cArith⟩,
      ⟨"100 0 11 rs10/rd0 10 rs20 01 C.OR", .cArith⟩,
      ⟨"100 0 11 rs10/rd0 11 rs20 01 C.AND", .cArith⟩,
      ⟨"101 imm[11|4|9:8|10|6|7|3:1|5] 01 C.J", .cJump⟩,
      ⟨"110 imm[8|4:3] rs10 imm[7:6|2:1|5] 01 C.BEQZ", .cBranch⟩,
      ⟨"111 imm[8|4:3] rs10 imm[7:6|2:1|5] 01 C.BNEZ", .cBranch⟩,
      ⟨"000 nzuimm[5] rs1/rd!=0 nzuimm[4:0] 10 C.SLLI", .cShift⟩,
      ⟨"010 uimm[5] rd!=0 uimm[4:2|7:6] 10 C.LWSP", .cLoadSp .word .integer⟩,
      ⟨"100 0 rs1!=0 00000 10 C.JR", .cJumpRegister⟩,
      ⟨"100 0 rd!=0 rs2!=0 10 C.MV", .cMove⟩,
      ⟨"100 1 00000 00000 10 C.EBREAK", .bare⟩,
      ⟨"100 1 rs1!=0 00000 10 C.JALR", .cJumpLinkRegister⟩,
      ⟨"100 1 rs1/rd!=0 rs2!=0 10 C.ADD", .cAdd⟩,
      ⟨"110 uimm[5:2|7:6] rs2 10 C.SWSP", .cStoreSp .word .integer⟩ ]

/-- The compressed jump and link, whose words are an addition where registers are 64
bits wide. -/
def rv32cOnly : Table where
  name := "rv32c_only"
  extension := .c
  width := .compressed
  rows :=
    [ ⟨"001 imm[11|4|9:8|10|6|7|3:1|5] 01 C.JAL", .cJumpLink⟩ ]

/-- Compressed single-precision loads and stores. -/
def rv32fc : Table where
  name := "rv32fc"
  extension := .c
  width := .compressed
  rows :=
    [ ⟨"011 uimm[5:3] rs10 uimm[2|6] rd0 00 C.FLW", .cMemory .word .float⟩,
      ⟨"011 uimm[5] rd uimm[4:2|7:6] 10 C.FLWSP", .cLoadSp .word .float⟩,
      ⟨"111 uimm[5:3] rs10 uimm[2|6] rs20 00 C.FSW", .cMemory .word .float⟩,
      ⟨"111 uimm[5:2|7:6] rs2 10 C.FSWSP", .cStoreSp .word .float⟩ ]

/-- Compressed double-precision loads and stores. -/
def rv32dc : Table where
  name := "rv32dc"
  extension := .c
  width := .compressed
  rows :=
    [ ⟨"001 uimm[5:3] rs10 uimm[7:6] rd0 00 C.FLD", .cMemory .double .float⟩,
      ⟨"001 uimm[5] rd uimm[4:3|8:6] 10 C.FLDSP", .cLoadSp .double .float⟩,
      ⟨"101 uimm[5:3] rs10 uimm[7:6] rs20 00 C.FSD", .cMemory .double .float⟩,
      ⟨"101 uimm[5:3|8:6] rs2 10 C.FSDSP", .cStoreSp .double .float⟩ ]

/-- Compressed instructions for 64-bit registers. -/
def rv64c : Table where
  name := "rv64c"
  extension := .c
  width := .compressed
  rows :=
    [ ⟨"001 imm[5] rd!=0 imm[4:0] 01 C.ADDIW", .cAddImm⟩,
      ⟨"011 uimm[5] rd uimm[4:3|8:6] 10 C.LDSP", .cLoadSp .double .integer⟩,
      ⟨"011 uimm[5:3] rs10 uimm[7:6] rd0 00 C.LD", .cMemory .double .integer⟩,
      ⟨"100 1 11 rs10/rd0 00 rs20 01 C.SUBW", .cArith⟩,
      ⟨"100 1 11 rs10/rd0 01 rs20 01 C.ADDW", .cArith⟩,
      ⟨"111 uimm[5:3] rs10 uimm[7:6] rs20 00 C.SD", .cMemory .double .integer⟩,
      ⟨"111 uimm[5:3|8:6] rs2 10 C.SDSP", .cStoreSp .double .integer⟩ ]

/-- The shift that is reserved for 128-bit registers, a special case of the shift in
`rv32c`. -/
def rv128c : Table where
  name := "rv128c"
  extension := .c
  width := .compressed
  rows :=
    [ ⟨"000 0 rs1/rd!=0 00000 10 C.SLLI64", .unimplemented⟩ ]

end RiscV.Table
