import RiscV.Extension
import RiscV.Form
import RiscV.Layout

/-!
# The catalogue of definitions

A catalogue keeps the definitions of an instruction set in the order in which
they were added, one list for each width.  A word is looked up in the list of its
own width, and the first definition that accepts it is the answer.  So a special
case has to stand before the general one, and adding a definition checks that it
does: a new definition may share words with an earlier one only if the earlier
one is more specific.

## Main definitions

* `Definition` — a definition ready to be looked up.
* `Catalogue.verdict` — how a new definition relates to those before it.
* `Catalogue.push`, `Catalogue.lookup` — adding a definition, and looking up.
-/

namespace RiscV

/-- An instruction: its name, its words and how it is written. -/
structure Definition where
  /-- The mnemonic, in lower case. -/
  mnemonic : String
  /-- The fixed bits. -/
  pattern : Pattern
  /-- How it is written. -/
  form : Form
  /-- The extension it belongs to. -/
  extension : Extension
  deriving DecidableEq, Repr

/-- How a new definition relates to the definitions before it. -/
inductive Verdict
  /-- It can be added. -/
  | fits
  /-- It has the pattern of an earlier definition. -/
  | duplicate (kept : Definition)
  /-- It shares words with an earlier definition that is not more specific. -/
  | clash (earlier : Definition)
  deriving DecidableEq, Repr

/-- What became of a definition that was added without error. -/
inductive Insertion
  /-- It stands at the end of its list. -/
  | added
  /-- An earlier definition with the same pattern was kept in its place. -/
  | duplicate (kept : String)
  deriving DecidableEq, Repr

/-- The definitions of each width, in match order. -/
structure Catalogue where
  /-- The definitions of 16-bit instructions. -/
  compressed : List Definition := []
  /-- The definitions of 32-bit instructions. -/
  standard : List Definition := []
  deriving DecidableEq, Repr

namespace Catalogue

/-- The catalogue without definitions. -/
def empty : Catalogue := {}

/-- The definitions of a width. -/
def list (c : Catalogue) : Width → List Definition
  | .compressed => c.compressed
  | .standard => c.standard

/-- All definitions, the 16-bit ones first. -/
def toList (c : Catalogue) : List Definition := c.compressed ++ c.standard

/-- How a new definition relates to a list of definitions; the first that is not
simply passed over decides. -/
def verdict (new : Definition) : List Definition → Verdict
  | [] => .fits
  | old :: rest =>
    if old.pattern.meets new.pattern then
      if old.pattern = new.pattern then .duplicate old
      else if old.pattern.refines new.pattern then verdict new rest
      else .clash old
    else verdict new rest

/-- A definition at the end of the list of its width. -/
def append (c : Catalogue) (d : Definition) : Catalogue :=
  match d.pattern.width with
  | .compressed => { c with compressed := c.compressed ++ [d] }
  | .standard => { c with standard := c.standard ++ [d] }

/-- Add a definition, unless an earlier one has its pattern. -/
def push (c : Catalogue) (d : Definition) : Except DefinitionError (Catalogue × Insertion) :=
  match verdict d (c.list d.pattern.width) with
  | .fits => .ok (c.append d, .added)
  | .duplicate kept => .ok (c, .duplicate kept.mnemonic)
  | .clash old => .error ⟨d.mnemonic, .overlap old.mnemonic old.pattern d.pattern⟩

/-- The first definition that accepts a word, among those of its width. -/
def lookup (c : Catalogue) (w : Word) : Option Definition :=
  (c.list w.width).find? fun d => d.pattern.accepts w.parcel

@[simp] theorem list_append_self (c : Catalogue) (d : Definition) :
    (c.append d).list d.pattern.width = c.list d.pattern.width ++ [d] := by
  unfold append
  split <;> simp_all [list]

end Catalogue

end RiscV
