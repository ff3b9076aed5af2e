import RiscV.Listing

/-!
# Images

An image is a sequence of bytes holding instructions one after the other, lowest
byte first.  It is cut into parcels: the low two bits of the next two bytes tell
whether two more belong to the instruction.  If those are missing the two bytes
are a torn parcel, which is listed as illegal; a single byte at the end is left
over.

## Main definitions

* `Parcel`, `parcels` — the pieces of an image, and cutting it.
* `InstructionSet.listing` — the lines for parcels at consecutive addresses.
-/

namespace RiscV

/-- A piece of an image. -/
inductive Parcel
  /-- A complete instruction. -/
  | whole (word : Word)
  /-- The first half of an instruction whose second half is missing. -/
  | torn (half : Word)
  deriving DecidableEq, Repr

/-- The number of bytes a parcel takes. -/
def Parcel.length : Parcel → Nat
  | whole w => w.length
  | torn _ => 2

/-- The word of two bytes, lowest first. -/
def halfWord (b₀ b₁ : UInt8) : Word := (b₁.toBitVec ++ b₀.toBitVec).setWidth 32

/-- The word of four bytes, lowest first. -/
def fullWord (b₀ b₁ b₂ b₃ : UInt8) : Word :=
  b₃.toBitVec ++ b₂.toBitVec ++ b₁.toBitVec ++ b₀.toBitVec

/-- The parcels of an image. -/
def parcels : List UInt8 → List Parcel
  | b₀ :: b₁ :: rest =>
    if (halfWord b₀ b₁).isStandard then
      match rest with
      | b₂ :: b₃ :: rest => .whole (fullWord b₀ b₁ b₂ b₃) :: parcels rest
      | _ => [.torn (halfWord b₀ b₁)]
    else .whole (halfWord b₀ b₁) :: parcels rest
  | _ => []

namespace InstructionSet

/-- The line of a parcel. -/
def lineOf (s : InstructionSet) (address : Address) : Parcel → Line
  | .whole w => s.disassemble address w
  | .torn half =>
    { address := address &&& s.addressMask
      addressBits := s.xlen.bits
      word := half
      length := 2
      assembly := Assembly.illegal.text }

/-- What listing a parcel reports; a torn parcel is not looked up. -/
def missesOf (s : InstructionSet) (address : Address) : Parcel → List Event
  | .whole w => s.misses address w
  | .torn _ => []

/-- The lines of parcels that follow each other from an address on. -/
def listing (s : InstructionSet) : Address → List Parcel → List Line
  | _, [] => []
  | address, p :: ps =>
    s.lineOf address p :: s.listing (address + BitVec.ofNat 64 p.length) ps

/-- What listing parcels reports, in order. -/
def listingLog (s : InstructionSet) : Address → List Parcel → List Event
  | _, [] => []
  | address, p :: ps =>
    s.missesOf address p ++ s.listingLog (address + BitVec.ofNat 64 p.length) ps

end InstructionSet

end RiscV
