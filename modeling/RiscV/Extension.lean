import RiscV.Word

/-!
# Extensions

The extensions of an instruction set are single letters.  A set of them is kept
the way the machine reports it: one bit per letter, bit 0 for `a`.
-/

namespace RiscV

/-- A single-letter extension. -/
inductive Extension
  /-- Atomics. -/
  | a
  /-- Bit manipulation. -/
  | b
  /-- Compressed instructions. -/
  | c
  /-- Double-precision floating point. -/
  | d
  /-- The base with a reduced register file. -/
  | e
  /-- Single-precision floating point. -/
  | f
  /-- Hypervisor. -/
  | h
  /-- The integer base. -/
  | i
  /-- Multiplication and division. -/
  | m
  /-- User-level interrupts. -/
  | n
  /-- Quad-precision floating point. -/
  | q
  /-- Supervisor mode. -/
  | s
  /-- User mode. -/
  | u
  /-- Vectors. -/
  | v
  /-- Non-standard extensions. -/
  | x
  deriving DecidableEq, Repr, Inhabited

namespace Extension

/-- The letter, in lower case. -/
def letter : Extension → Char
  | a => 'a'
  | b => 'b'
  | c => 'c'
  | d => 'd'
  | e => 'e'
  | f => 'f'
  | h => 'h'
  | i => 'i'
  | m => 'm'
  | n => 'n'
  | q => 'q'
  | s => 's'
  | u => 'u'
  | v => 'v'
  | x => 'x'

/-- The order in which extensions are spelled. -/
def canonical : List Extension := [i, e, m, a, f, d, q, c, b, v, h, n, s, u, x]

theorem mem_canonical (ext : Extension) : ext ∈ canonical := by cases ext <;> decide

/-- The bit that stands for an extension. -/
def bit (ext : Extension) : Word := 1#32 <<< (ext.letter.toNat - 'a'.toNat)

end Extension

/-- A set of extensions, one bit per letter. -/
structure ExtensionSet where
  /-- The bits of the members. -/
  bits : Word := 0#32
  deriving DecidableEq, Repr, Inhabited

namespace ExtensionSet

/-- The set without members. -/
def empty : ExtensionSet := {}

/-- The set with one more member. -/
def insert (set : ExtensionSet) (ext : Extension) : ExtensionSet := ⟨set.bits ||| ext.bit⟩

/-- Membership. -/
def contains (set : ExtensionSet) (ext : Extension) : Bool := set.bits &&& ext.bit != 0#32

/-- The members in the order in which they are spelled. -/
def toList (set : ExtensionSet) : List Extension := Extension.canonical.filter set.contains

/-- The letters of the members. -/
def text (set : ExtensionSet) : String := String.ofList (set.toList.map Extension.letter)

end ExtensionSet

end RiscV
