/-!
# Instruction words

An instruction is 16 or 32 bits long, and the low two bits of its first parcel
say which: both set means 32 bits.  A raw word is always 32 bits wide; for a
16-bit instruction only the low half counts, and the high half may hold whatever
follows it in memory.

## Main definitions

* `Word`, `Address` — raw instruction words and addresses.
* `Width` — the two instruction lengths.
* `Word.bits`, `Word.signExtend` — bit ranges, and the sign-extension rule used
  by every signed immediate.
* `Word.width`, `Word.parcel` — the length a word announces, and the bits of it
  that belong to the instruction.
-/

namespace RiscV

/-- A raw instruction word. -/
abbrev Word := BitVec 32

/-- An address; arithmetic on it wraps at 64 bits. -/
abbrev Address := BitVec 64

/-- The two instruction lengths. -/
inductive Width
  /-- A 16-bit instruction. -/
  | compressed
  /-- A 32-bit instruction. -/
  | standard
  deriving DecidableEq, Repr, Inhabited

namespace Width

/-- The length in bits. -/
def bits : Width → Nat
  | compressed => 16
  | standard => 32

/-- The length in bytes. -/
def bytes : Width → Nat
  | compressed => 2
  | standard => 4

@[simp] theorem bits_compressed : compressed.bits = 16 := rfl

@[simp] theorem bits_standard : standard.bits = 32 := rfl

@[simp] theorem bytes_compressed : compressed.bytes = 2 := rfl

@[simp] theorem bytes_standard : standard.bytes = 4 := rfl

end Width

namespace Word

/-- Bits `hi` down to `lo` of a word, moved to the bottom.  For the full range
the subtracted power of two wraps to zero, which leaves a mask of all ones. -/
def bits (w : Word) (hi lo : Nat) : Word :=
  (w >>> lo) &&& ((1#32 <<< (hi - lo + 1)) - 1#32)

/-- The low `n` bits of a word as a signed number: the lowest `n` bits are moved
to the top and brought back by an arithmetic shift. -/
def signExtend (w : Word) (n : Nat) : Int :=
  ((w <<< (32 - n)).sshiftRight (32 - n)).toInt

/-! ### Length -/

/-- Both low bits are set: the word starts a 32-bit instruction. -/
def isStandard (w : Word) : Bool := w &&& 3#32 == 3#32

/-- The length the low two bits announce. -/
def width (w : Word) : Width := if w.isStandard then .standard else .compressed

/-- The length in bytes that the low two bits announce. -/
def length (w : Word) : Nat := w.width.bytes

/-- The bits that belong to the instruction: the whole word, or its low half
when it announces a 16-bit instruction. -/
def parcel (w : Word) : Word := if w.isStandard then w else w &&& 0xffff#32

end Word

end RiscV
