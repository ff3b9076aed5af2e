import RiscV.InstructionSet

/-!
# Listings

A listing has one line per instruction: its address, padded to the register
width, its word, and after a tab its assembly.
-/

namespace RiscV

/-- One line of a listing. -/
structure Line where
  /-- The address of the instruction. -/
  address : Address
  /-- The number of bits addresses are shown with. -/
  addressBits : Nat
  /-- The bits of the instruction. -/
  word : Word
  /-- The length in bytes. -/
  length : Nat
  /-- The assembly text. -/
  assembly : String
  deriving DecidableEq, Repr

namespace Line

/-- The text of a line.  The word takes nine columns whatever its length. -/
def text (l : Line) : String :=
  Text.hexPadded (l.addressBits / 4) l.address.toNat ++ ": " ++
    (if l.length = 2 then Text.hexPadded 4 l.word.toNat ++ "     "
      else Text.hexPadded 8 l.word.toNat ++ " ") ++
    "\t" ++ l.assembly

/-- Whether the line shows something that is no instruction. -/
def isIllegal (l : Line) : Bool := l.assembly == Assembly.illegal.text

end Line

namespace InstructionSet

/-- The addresses the set can tell apart. -/
def addressMask (s : InstructionSet) : Address := RiscV.addressMask s.xlen.bits

/-- The assembly of a word at an address, which has to be within the set's
addresses. -/
def assemblyAt (s : InstructionSet) (address : Address) (w : Word) : Assembly :=
  match s.lookup w with
  | some d => d.form.render d.mnemonic address w s.addressMask
  | none => .illegal

/-- The line for a word at an address.  Bits that do not belong to the
instruction, and address bits beyond the register width, are dropped. -/
def disassemble (s : InstructionSet) (address : Address) (w : Word) : Line where
  address := address &&& s.addressMask
  addressBits := s.xlen.bits
  word := w.parcel
  length := w.length
  assembly := (s.assemblyAt (address &&& s.addressMask) w.parcel).text

/-- What disassembling a word reports. -/
def misses (s : InstructionSet) (address : Address) (w : Word) : List Event :=
  match s.lookup w.parcel with
  | some _ => []
  | none => [.unmatched (address &&& s.addressMask).toNat w.parcel.toNat]

end InstructionSet

end RiscV
