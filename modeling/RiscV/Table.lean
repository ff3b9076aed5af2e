import RiscV.Catalogue

/-!
# Instruction tables

A table lists definitions of one extension and one width: each row is a layout
and the form in which its instruction is written.
-/

namespace RiscV

/-- One row of a table. -/
structure Row where
  /-- The bits of the instruction, as drawn. -/
  layout : String
  /-- How the instruction is written. -/
  form : Form
  deriving DecidableEq, Repr

/-- The definitions of one extension and one width. -/
structure Table where
  /-- The name the table is selected by. -/
  name : String
  /-- The extension it contributes. -/
  extension : Extension
  /-- The width of all its instructions. -/
  width : Width
  /-- The rows, in match order. -/
  rows : List Row
  deriving DecidableEq, Repr

/-- The definition that a row of the table stands for. -/
def Table.define (t : Table) (row : Row) : Except DefinitionError Definition :=
  (Layout.compile row.layout t.width).map fun compiled =>
    ⟨compiled.mnemonic, compiled.pattern, row.form, t.extension⟩

/-! ### Adding rows to a catalogue -/

/-- What became of adding rows. -/
structure Installation where
  /-- The catalogue afterwards. -/
  catalogue : Catalogue
  /-- How many definitions were new. -/
  added : Nat := 0
  /-- The dropped duplicates: the mnemonic of each, and the one kept. -/
  duplicates : List (String × String) := []
  /-- What stopped the rows short. -/
  failure : Option DefinitionError := none
  deriving DecidableEq, Repr

/-- Add rows one at a time until one fails; the rows before it stay. -/
def Catalogue.install (c : Catalogue) (t : Table) : List Row → Installation
  | [] => { catalogue := c }
  | row :: rows =>
    match t.define row with
    | .error e => { catalogue := c, failure := some e }
    | .ok d =>
      match c.push d with
      | .error e => { catalogue := c, failure := some e }
      | .ok (c', .added) =>
        let rest := c'.install t rows
        { rest with added := rest.added + 1 }
      | .ok (c', .duplicate kept) =>
        let rest := c'.install t rows
        { rest with duplicates := (d.mnemonic, kept) :: rest.duplicates }

end RiscV
