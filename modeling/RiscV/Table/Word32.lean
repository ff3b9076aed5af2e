import RiscV.Table

/-!
# The 32-bit instruction tables

These tables serve every register width.
-/

namespace RiscV.Table

/-- The 32-bit integer base, with fences, system instructions and control and status
register access. -/
def rv32i : Table where
  name := "rv32i"
  extension := .i
  width := .standard
  rows :=
    [ ⟨"imm[31:12] rd 0110111 LUI", .upper⟩,
      ⟨"imm[31:12] rd 0010111 AUIPC", .upper⟩,
      ⟨"imm[20|10:1|11|19:12] rd 1101111 JAL", .jump⟩,
      ⟨"imm[11:0] rs1 000 rd 1100111 JALR", .jumpRegister⟩,
      ⟨"imm[12|10:5] rs2 rs1 000 imm[4:1|11] 1100011 BEQ", .branch⟩,
      ⟨"imm[12|10:5] rs2 rs1 001 imm[4:1|11] 1100011 BNE", .branch⟩,
      ⟨"imm[12|10:5] rs2 rs1 100 imm[4:1|11] 1100011 BLT", .branch⟩,
      ⟨"imm[12|10:5] rs2 rs1 101 imm[4:1|11] 1100011 BGE", .branch⟩,
      ⟨"imm[12|10:5] rs2 rs1 110 imm[4:1|11] 1100011 BLTU", .branch⟩,
      ⟨"imm[12|10:5] rs2 rs1 111 imm[4:1|11] 1100011 BGEU", .branch⟩,
      ⟨"imm[11:0] rs1 000 rd 0000011 LB", .load .integer⟩,
      ⟨"imm[11:0] rs1 001 rd 0000011 LH", .load .integer⟩,
      ⟨"imm[11:0] rs1 010 rd 0000011 LW", .load .integer⟩,
      ⟨"imm[11:0] rs1 100 rd 0000011 LBU", .load .integer⟩,
      ⟨"imm[11:0] rs1 101 rd 0000011 LHU", .load .integer⟩,
      ⟨"imm[11:5] rs2 rs1 000 imm[4:0] 0100011 SB", .store .integer⟩,
      ⟨"imm[11:5] rs2 rs1 001 imm[4:0] 0100011 SH", .store .integer⟩,
      ⟨"imm[11:5] rs2 rs1 010 imm[4:0] 0100011 SW", .store .integer⟩,
      ⟨"imm[11:0] rs1 000 rd 0010011 ADDI", .addImm⟩,
      ⟨"imm[11:0] rs1 010 rd 0010011 SLTI", .arithImm⟩,
      ⟨"imm[11:0] rs1 011 rd 0010011 SLTIU", .arithImm⟩,
      ⟨"imm[11:0] rs1 100 rd 0010011 XORI", .xorImm⟩,
      ⟨"imm[11:0] rs1 110 rd 0010011 ORI", .arithImm⟩,
      ⟨"imm[11:0] rs1 111 rd 0010011 ANDI", .arithImm⟩,
      ⟨"000000 shamt6 rs1 001 rd 0010011 SLLI", .shiftImm⟩,
      ⟨"000000 shamt6 rs1 101 rd 0010011 SRLI", .shiftImm⟩,
      ⟨"010000 shamt6 rs1 101 rd 0010011 SRAI", .shiftImm⟩,
      ⟨"0000000 rs2 rs1 000 rd 0110011 ADD", .arith⟩,
      ⟨"0100000 rs2 rs1 000 rd 0110011 SUB", .sub⟩,
      ⟨"0000000 rs2 rs1 001 rd 0110011 SLL", .arith⟩,
      ⟨"0000000 rs2 rs1 010 rd 0110011 SLT", .arith⟩,
      ⟨"0000000 rs2 rs1 011 rd 0110011 SLTU", .arith⟩,
      ⟨"0000000 rs2 rs1 100 rd 0110011 XOR", .arith⟩,
      ⟨"0000000 rs2 rs1 101 rd 0110011 SRL", .arith⟩,
      ⟨"0100000 rs2 rs1 101 rd 0110011 SRA", .arith⟩,
      ⟨"0000000 rs2 rs1 110 rd 0110011 OR", .arith⟩,
      ⟨"0000000 rs2 rs1 111 rd 0110011 AND", .arith⟩,
      ⟨"0000 pred succ 00000 000 00000 0001111 FENCE", .bare⟩,
      ⟨"0000 0000 0000 00000 001 00000 0001111 FENCE.I", .bare⟩,
      ⟨"0000000 00000 00000 000 00000 1110011 ECALL", .bare⟩,
      ⟨"0000000 00001 00000 000 00000 1110011 EBREAK", .bare⟩,
      ⟨"0000000 00010 00000 000 00000 1110011 URET", .bare⟩,
      ⟨"0001000 00010 00000 000 00000 1110011 SRET", .bare⟩,
      ⟨"0011000 00010 00000 000 00000 1110011 MRET", .bare⟩,
      ⟨"0001000 00101 00000 000 00000 1110011 WFI", .bare⟩,
      ⟨"0001001 rs2 rs1 000 00000 1110011 SFENCE.VMA", .fence⟩,
      ⟨"0010001 rs2 rs1 000 00000 1110011 HFENCE.VVMA", .fence⟩,
      ⟨"0110001 rs2 rs1 000 00000 1110011 HFENCE.GVMA", .fence⟩,
      ⟨"csr rs1 001 rd 1110011 CSRRW", .csr⟩,
      ⟨"csr rs1 010 rd 1110011 CSRRS", .csr⟩,
      ⟨"csr rs1 011 rd 1110011 CSRRC", .csr⟩,
      ⟨"csr zimm 101 rd 1110011 CSRRWI", .csrImm⟩,
      ⟨"csr zimm 110 rd 1110011 CSRRSI", .csrImm⟩,
      ⟨"csr zimm 111 rd 1110011 CSRRCI", .csrImm⟩ ]

/-- Multiplication and division. -/
def rv32m : Table where
  name := "rv32m"
  extension := .m
  width := .standard
  rows :=
    [ ⟨"0000001 rs2 rs1 000 rd 0110011 MUL", .arith⟩,
      ⟨"0000001 rs2 rs1 001 rd 0110011 MULH", .arith⟩,
      ⟨"0000001 rs2 rs1 010 rd 0110011 MULHSU", .arith⟩,
      ⟨"0000001 rs2 rs1 011 rd 0110011 MULHU", .arith⟩,
      ⟨"0000001 rs2 rs1 100 rd 0110011 DIV", .arith⟩,
      ⟨"0000001 rs2 rs1 101 rd 0110011 DIVU", .arith⟩,
      ⟨"0000001 rs2 rs1 110 rd 0110011 REM", .arith⟩,
      ⟨"0000001 rs2 rs1 111 rd 0110011 REMU", .arith⟩ ]

/-- Word atomics. -/
def rv32a : Table where
  name := "rv32a"
  extension := .a
  width := .standard
  rows :=
    [ ⟨"00010 aq rl 00000 rs1 010 rd 0101111 LR.W", .loadReserved⟩,
      ⟨"00011 aq rl rs2 rs1 010 rd 0101111 SC.W", .atomic⟩,
      ⟨"00001 aq rl rs2 rs1 010 rd 0101111 AMOSWAP.W", .atomic⟩,
      ⟨"00000 aq rl rs2 rs1 010 rd 0101111 AMOADD.W", .atomic⟩,
      ⟨"00100 aq rl rs2 rs1 010 rd 0101111 AMOXOR.W", .atomic⟩,
      ⟨"01100 aq rl rs2 rs1 010 rd 0101111 AMOAND.W", .atomic⟩,
      ⟨"01000 aq rl rs2 rs1 010 rd 0101111 AMOOR.W", .atomic⟩,
      ⟨"10000 aq rl rs2 rs1 010 rd 0101111 AMOMIN.W", .atomic⟩,
      ⟨"10100 aq rl rs2 rs1 010 rd 0101111 AMOMAX.W", .atomic⟩,
      ⟨"11000 aq rl rs2 rs1 010 rd 0101111 AMOMINU.W", .atomic⟩,
      ⟨"11100 aq rl rs2 rs1 010 rd 0101111 AMOMAXU.W", .atomic⟩ ]

/-- Single-precision floating point. -/
def rv32f : Table where
  name := "rv32f"
  extension := .f
  width := .standard
  rows :=
    [ ⟨"imm[11:0] rs1 010 rd 0000111 FLW", .load .float⟩,
      ⟨"imm[11:5] rs2 rs1 010 imm[4:0] 0100111 FSW", .store .float⟩,
      ⟨"rs3 00 rs2 rs1 rm rd 1000011 FMADD.S", .fused⟩,
      ⟨"rs3 00 rs2 rs1 rm rd 1000111 FMSUB.S", .fused⟩,
      ⟨"rs3 00 rs2 rs1 rm rd 1001011 FNMSUB.S", .fused⟩,
      ⟨"rs3 00 rs2 rs1 rm rd 1001111 FNMADD.S", .fused⟩,
      ⟨"0000000 rs2 rs1 rm rd 1010011 FADD.S", .floatArith⟩,
      ⟨"0000100 rs2 rs1 rm rd 1010011 FSUB.S", .floatArith⟩,
      ⟨"0001000 rs2 rs1 rm rd 1010011 FMUL.S", .floatArith⟩,
      ⟨"0001100 rs2 rs1 rm rd 1010011 FDIV.S", .floatArith⟩,
      ⟨"0101100 00000 rs1 rm rd 1010011 FSQRT.S", .floatUnary⟩,
      ⟨"0010000 rs2 rs1 000 rd 1010011 FSGNJ.S", .floatArith⟩,
      ⟨"0010000 rs2 rs1 001 rd 1010011 FSGNJN.S", .floatArith⟩,
      ⟨"0010000 rs2 rs1 010 rd 1010011 FSGNJX.S", .floatArith⟩,
      ⟨"0010100 rs2 rs1 000 rd 1010011 FMIN.S", .floatArith⟩,
      ⟨"0010100 rs2 rs1 001 rd 1010011 FMAX.S", .floatArith⟩,
      ⟨"1100000 00000 rs1 rm rd 1010011 FCVT.W.S", .floatToIntRounded⟩,
      ⟨"1100000 00001 rs1 rm rd 1010011 FCVT.WU.S", .floatToIntRounded⟩,
      ⟨"1110000 00000 rs1 000 rd 1010011 FMV.X.W", .floatToInt⟩,
      ⟨"1010000 rs2 rs1 010 rd 1010011 FEQ.S", .floatCompare⟩,
      ⟨"1010000 rs2 rs1 001 rd 1010011 FLT.S", .floatCompare⟩,
      ⟨"1010000 rs2 rs1 000 rd 1010011 FLE.S", .floatCompare⟩,
      ⟨"1110000 00000 rs1 001 rd 1010011 FCLASS.S", .floatToInt⟩,
      ⟨"1101000 00000 rs1 rm rd 1010011 FCVT.S.W", .intToFloatRounded⟩,
      ⟨"1101000 00001 rs1 rm rd 1010011 FCVT.S.WU", .intToFloatRounded⟩,
      ⟨"1111000 00000 rs1 000 rd 1010011 FMV.W.X", .intToFloat⟩ ]

/-- Double-precision floating point. -/
def rv32d : Table where
  name := "rv32d"
  extension := .d
  width := .standard
  rows :=
    [ ⟨"imm[11:0] rs1 011 rd 0000111 FLD", .load .float⟩,
      ⟨"imm[11:5] rs2 rs1 011 imm[4:0] 0100111 FSD", .store .float⟩,
      ⟨"rs3 01 rs2 rs1 rm rd 1000011 FMADD.D", .fused⟩,
      ⟨"rs3 01 rs2 rs1 rm rd 1000111 FMSUB.D", .fused⟩,
      ⟨"rs3 01 rs2 rs1 rm rd 1001011 FNMSUB.D", .fused⟩,
      ⟨"rs3 01 rs2 rs1 rm rd 1001111 FNMADD.D", .fused⟩,
      ⟨"0000001 rs2 rs1 rm rd 1010011 FADD.D", .floatArith⟩,
      ⟨"0000101 rs2 rs1 rm rd 1010011 FSUB.D", .floatArith⟩,
      ⟨"0001001 rs2 rs1 rm rd 1010011 FMUL.D", .floatArith⟩,
      ⟨"0001101 rs2 rs1 rm rd 1010011 FDIV.D", .floatArith⟩,
      ⟨"0101101 00000 rs1 rm rd 1010011 FSQRT.D", .floatUnary⟩,
      ⟨"0010001 rs2 rs1 000 rd 1010011 FSGNJ.D", .floatArith⟩,
      ⟨"0010001 rs2 rs1 001 rd 1010011 FSGNJN.D", .floatArith⟩,
      ⟨"0010001 rs2 rs1 010 rd 1010011 FSGNJX.D", .floatArith⟩,
      ⟨"0010101 rs2 rs1 000 rd 1010011 FMIN.D", .floatArith⟩,
      ⟨"0010101 rs2 rs1 001 rd 1010011 FMAX.D", .floatArith⟩,
      ⟨"0100000 00001 rs1 rm rd 1010011 FCVT.S.D", .floatUnary⟩,
      ⟨"0100001 00000 rs1 rm rd 1010011 FCVT.D.S", .floatUnary⟩,
      ⟨"1010001 rs2 rs1 010 rd 1010011 FEQ.D", .floatCompare⟩,
      ⟨"1010001 rs2 rs1 001 rd 1010011 FLT.D", .floatCompare⟩,
      ⟨"1010001 rs2 rs1 000 rd 1010011 FLE.D", .floatCompare⟩,
      ⟨"1110001 00000 rs1 001 rd 1010011 FCLASS.D", .floatToInt⟩,
      ⟨"1100001 00000 rs1 rm rd 1010011 FCVT.W.D", .floatToIntRounded⟩,
      ⟨"1100001 00001 rs1 rm rd 1010011 FCVT.WU.D", .floatToIntRounded⟩,
      ⟨"1101001 00000 rs1 rm rd 1010011 FCVT.D.W", .intToFloatRounded⟩,
      ⟨"1101001 00001 rs1 rm rd 1010011 FCVT.D.WU", .intToFloatRounded⟩ ]

end RiscV.Table
