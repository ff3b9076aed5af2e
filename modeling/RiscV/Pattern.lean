import RiscV.Word

/-!
# Patterns

A pattern fixes some bits of a word and leaves the others free.  The bits it
fixes are set in the mask, and their values are given by the value, which has no
bit outside the mask in any pattern that comes from a layout.

Two relations are decided on the masks and values alone: whether some word
matches both patterns, and whether one pattern fixes all bits that the other
fixes.
-/

namespace RiscV

/-- Fixed bits of a word. -/
structure Pattern where
  /-- The bits that are fixed. -/
  mask : Word
  /-- Their values. -/
  value : Word
  /-- The length of the instructions described. -/
  width : Width
  deriving DecidableEq, Repr, Inhabited

namespace Pattern

/-- Whether a word has the fixed bits of the pattern. -/
def accepts (p : Pattern) (w : Word) : Bool := w &&& p.mask == p.value

/-- Whether the patterns agree on every bit that both fix. -/
def meets (p q : Pattern) : Bool := (p.value ^^^ q.value) &&& p.mask &&& q.mask == 0#32

/-- Whether every bit fixed by `q` is fixed by `p`. -/
def refines (p q : Pattern) : Bool := p.mask &&& q.mask == q.mask

end Pattern

end RiscV
