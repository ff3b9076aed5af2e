import RiscV.Table

/-!
# The 32-bit instructions of 64-bit machines

These tables add to those that serve every register width.
-/

namespace RiscV.Table

/-- Additions to the integer base for 64-bit registers.  The shifts repeat those of the
32-bit base, so that the table can stand alone. -/
def rv64i : Table where
  name := "rv64i"
  extension := .i
  width := .standard
  rows :=
    [ ⟨"imm[11:0] rs1 110 rd 0000011 LWU", .load .integer⟩,
      ⟨"imm[11:0] rs1 011 rd 0000011 LD", .load .integer⟩,
      ⟨"imm[11:5] rs2 rs1 011 imm[4:0] 0100011 SD", .store .integer⟩,
      ⟨"000000 shamt6 rs1 001 rd 0010011 SLLI", .shiftImm⟩,
      ⟨"000000 shamt6 rs1 101 rd 0010011 SRLI", .shiftImm⟩,
      ⟨"010000 shamt6 rs1 101 rd 0010011 SRAI", .shiftImm⟩,
      ⟨"imm[11:0] rs1 000 rd 0011011 ADDIW", .arithImm⟩,
      ⟨"0000000 shamt5 rs1 001 rd 0011011 SLLIW", .shiftImm⟩,
      ⟨"0000000 shamt5 rs1 101 rd 0011011 SRLIW", .shiftImm⟩,
      ⟨"0100000 shamt5 rs1 101 rd 0011011 SRAIW", .shiftImm⟩,
      ⟨"0000000 rs2 rs1 000 rd 0111011 ADDW", .arith⟩,
      ⟨"0100000 rs2 rs1 000 rd 0111011 SUBW", .sub⟩,
      ⟨"0000000 rs2 rs1 001 rd 0111011 SLLW", .arith⟩,
      ⟨"0000000 rs2 rs1 101 rd 0111011 SRLW", .arith⟩,
      ⟨"0100000 rs2 rs1 101 rd 0111011 SRAW", .arith⟩ ]

/-- Multiplication and division of words in 64-bit registers. -/
def rv64m : Table where
  name := "rv64m"
  extension := .m
  width := .standard
  rows :=
    [ ⟨"0000001 rs2 rs1 000 rd 0111011 MULW", .arith⟩,
      ⟨"0000001 rs2 rs1 100 rd 0111011 DIVW", .arith⟩,
      ⟨"0000001 rs2 rs1 101 rd 0111011 DIVUW", .arith⟩,
      ⟨"0000001 rs2 rs1 110 rd 0111011 REMW", .arith⟩,
      ⟨"0000001 rs2 rs1 111 rd 0111011 REMUW", .arith⟩ ]

/-- Doubleword atomics. -/
def rv64a : Table where
  name := "rv64a"
  extension := .a
  width := .standard
  rows :=
    [ ⟨"00010 aq rl 00000 rs1 011 rd 0101111 LR.D", .loadReserved⟩,
      ⟨"00011 aq rl rs2 rs1 011 rd 0101111 SC.D", .atomic⟩,
      ⟨"00001 aq rl rs2 rs1 011 rd 0101111 AMOSWAP.D", .atomic⟩,
      ⟨"00000 aq rl rs2 rs1 011 rd 0101111 AMOADD.D", .atomic⟩,
      ⟨"00100 aq rl rs2 rs1 011 rd 0101111 AMOXOR.D", .atomic⟩,
      ⟨"01100 aq rl rs2 rs1 011 rd 0101111 AMOAND.D", .atomic⟩,
      ⟨"01000 aq rl rs2 rs1 011 rd 0101111 AMOOR.D", .atomic⟩,
      ⟨"10000 aq rl rs2 rs1 011 rd 0101111 AMOMIN.D", .atomic⟩,
      ⟨"10100 aq rl rs2 rs1 011 rd 0101111 AMOMAX.D", .atomic⟩,
      ⟨"11000 aq rl rs2 rs1 011 rd 0101111 AMOMINU.D", .atomic⟩,
      ⟨"11100 aq rl rs2 rs1 011 rd 0101111 AMOMAXU.D", .atomic⟩ ]

/-- Conversions between single precision and 64-bit integers. -/
def rv64f : Table where
  name := "rv64f"
  extension := .f
  width := .standard
  rows :=
    [ ⟨"1100000 00010 rs1 rm rd 1010011 FCVT.L.S", .floatToIntRounded⟩,
      ⟨"1100000 00011 rs1 rm rd 1010011 FCVT.LU.S", .floatToIntRounded⟩,
      ⟨"1101000 00010 rs1 rm rd 1010011 FCVT.S.L", .intToFloatRounded⟩,
      ⟨"1101000 00011 rs1 rm rd 1010011 FCVT.S.LU", .intToFloatRounded⟩ ]

/-- Conversions and moves between double precision and 64-bit integers. -/
def rv64d : Table where
  name := "rv64d"
  extension := .d
  width := .standard
  rows :=
    [ ⟨"1100001 00010 rs1 rm rd 1010011 FCVT.L.D", .floatToIntRounded⟩,
      ⟨"1100001 00011 rs1 rm rd 1010011 FCVT.LU.D", .floatToIntRounded⟩,
      ⟨"1110001 00000 rs1 000 rd 1010011 FMV.X.D", .floatToInt⟩,
      ⟨"1101001 00010 rs1 rm rd 1010011 FCVT.D.L", .intToFloatRounded⟩,
      ⟨"1101001 00011 rs1 rm rd 1010011 FCVT.D.LU", .intToFloatRounded⟩,
      ⟨"1111001 00000 rs1 000 rd 1010011 FMV.D.X", .intToFloat⟩ ]

end RiscV.Table
