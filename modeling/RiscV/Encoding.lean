import RiscV.Operands

/-!
# The instruction encodings

One encoding per instruction format of the base and compressed instruction
sets.  Runs of an immediate are listed from the highest word bit down, so a
definition reads like the format's bit diagram.
-/

namespace RiscV.Encoding

/-! ### 32-bit formats -/

/-- Register operations: rounding mode in the minor function field, ordering
flags of the atomics in bits 26 and 25. -/
def r : Encoding where
  rd := .full 7
  rs1 := .full 15
  rs2 := .full 20
  rm := [⟨14, 12, 0⟩]
  aq := some 26
  rl := some 25

/-- Fused multiply-add: a third source register on top of `r`. -/
def r4 : Encoding := { r with rs3 := .full 27 }

/-- Signed twelve-bit immediate. -/
def i : Encoding where
  rd := .full 7
  rs1 := .full 15
  imm := .signed 12 [⟨31, 20, 0⟩]

/-- Control and status register access; the immediate forms hold their operand
in the place of `rs1`. -/
def iCsr : Encoding where
  rd := .full 7
  rs1 := .full 15
  csr := [⟨31, 20, 0⟩]

/-- Shift by a constant. -/
def iShift : Encoding where
  rd := .full 7
  rs1 := .full 15
  shamt := [⟨25, 20, 0⟩]

/-- Stores. -/
def s : Encoding where
  rs1 := .full 15
  rs2 := .full 20
  imm := .signed 12 [⟨31, 25, 5⟩, ⟨11, 7, 0⟩]

/-- Conditional branches: an even offset of thirteen bits. -/
def b : Encoding where
  rs1 := .full 15
  rs2 := .full 20
  imm := .signed 13 [⟨31, 31, 12⟩, ⟨30, 25, 5⟩, ⟨11, 8, 1⟩, ⟨7, 7, 11⟩]

/-- Upper immediates: the top twenty bits stay in place. -/
def u : Encoding where
  rd := .full 7
  imm := .signed 32 [⟨31, 12, 12⟩]

/-- Jumps: an even offset of twenty-one bits. -/
def j : Encoding where
  rd := .full 7
  imm := .signed 21 [⟨31, 31, 20⟩, ⟨30, 21, 1⟩, ⟨20, 20, 11⟩, ⟨19, 12, 12⟩]

/-! ### 16-bit formats -/

/-- Two full registers, the first both read and written. -/
def cr : Encoding where
  rd := .full 7
  rs1 := .full 7
  rs2 := .full 2

/-- Two short registers, the first both read and written. -/
def ca : Encoding where
  rd := .short 7
  rs1 := .short 7
  rs2 := .short 2

/-- Signed six-bit immediate on a full register. -/
def ci : Encoding where
  rd := .full 7
  rs1 := .full 7
  imm := .signed 6 [⟨12, 12, 5⟩, ⟨6, 2, 0⟩]

/-- Stack-pointer adjustment by a signed multiple of 16. -/
def ciAddi16sp : Encoding where
  rd := .fixed Register.sp
  rs1 := .fixed Register.sp
  imm := .signed 10 [⟨12, 12, 9⟩, ⟨6, 6, 4⟩, ⟨5, 5, 6⟩, ⟨4, 3, 7⟩, ⟨2, 2, 5⟩]

/-- Upper immediate of six bits, kept in place. -/
def ciLui : Encoding where
  rd := .full 7
  imm := .signed 18 [⟨12, 12, 17⟩, ⟨6, 2, 12⟩]

/-- Six-bit shift amount on a full register. -/
def ciShift : Encoding where
  rd := .full 7
  rs1 := .full 7
  shamt := [⟨12, 12, 5⟩, ⟨6, 2, 0⟩]

/-- Word load relative to the stack pointer. -/
def ciLwsp : Encoding where
  rd := .full 7
  rs1 := .fixed Register.sp
  imm := .unsigned [⟨12, 12, 5⟩, ⟨6, 4, 2⟩, ⟨3, 2, 6⟩]

/-- Doubleword load relative to the stack pointer. -/
def ciLdsp : Encoding where
  rd := .full 7
  rs1 := .fixed Register.sp
  imm := .unsigned [⟨12, 12, 5⟩, ⟨6, 5, 3⟩, ⟨4, 2, 6⟩]

/-- Word store relative to the stack pointer. -/
def cssSwsp : Encoding where
  rs1 := .fixed Register.sp
  rs2 := .full 2
  imm := .unsigned [⟨12, 9, 2⟩, ⟨8, 7, 6⟩]

/-- Doubleword store relative to the stack pointer. -/
def cssSdsp : Encoding where
  rs1 := .fixed Register.sp
  rs2 := .full 2
  imm := .unsigned [⟨12, 10, 3⟩, ⟨9, 7, 6⟩]

/-- Stack-pointer offset into a short register. -/
def ciw : Encoding where
  rd := .short 2
  rs1 := .fixed Register.sp
  imm := .unsigned [⟨12, 11, 4⟩, ⟨10, 7, 6⟩, ⟨6, 6, 2⟩, ⟨5, 5, 3⟩]

/-- Word load or store; the data register is given both as destination and as
second source. -/
def clWord : Encoding where
  rd := .short 2
  rs1 := .short 7
  rs2 := .short 2
  imm := .unsigned [⟨12, 10, 3⟩, ⟨6, 6, 2⟩, ⟨5, 5, 6⟩]

/-- Doubleword load or store, with the registers of `clWord`. -/
def clDouble : Encoding where
  rd := .short 2
  rs1 := .short 7
  rs2 := .short 2
  imm := .unsigned [⟨12, 10, 3⟩, ⟨6, 5, 6⟩]

/-- Six-bit shift amount on a short register. -/
def cbShift : Encoding where
  rd := .short 7
  rs1 := .short 7
  shamt := [⟨12, 12, 5⟩, ⟨6, 2, 0⟩]

/-- Signed six-bit immediate on a short register. -/
def cbAndi : Encoding where
  rd := .short 7
  rs1 := .short 7
  imm := .signed 6 [⟨12, 12, 5⟩, ⟨6, 2, 0⟩]

/-- Conditional branches on a short register: an even offset of nine bits. -/
def cbBranch : Encoding where
  rs1 := .short 7
  imm := .signed 9 [⟨12, 12, 8⟩, ⟨11, 10, 3⟩, ⟨6, 5, 6⟩, ⟨4, 3, 1⟩, ⟨2, 2, 5⟩]

/-- Jumps: an even offset of twelve bits. -/
def cj : Encoding where
  imm := .signed 12
    [⟨12, 12, 11⟩, ⟨11, 11, 4⟩, ⟨10, 9, 8⟩, ⟨8, 8, 10⟩, ⟨7, 7, 6⟩, ⟨6, 6, 7⟩, ⟨5, 3, 1⟩,
      ⟨2, 2, 5⟩]

end RiscV.Encoding
