import RiscV.Assembly
import RiscV.Event
import RiscV.Table
import RiscV.Xlen

/-!
# Instruction sets

An instruction set is put together from tables, one after the other, for a
given register width.  A table that fails part-way leaves the rows before the
failing one and its extension behind.

## Main definitions

* `InstructionSet.add`, `InstructionSet.addAll` — adding one or several tables.
* `InstructionSet.build` — putting a whole set together.
* `InstructionSet.lookup` — the definition of a word.
-/

namespace RiscV

/-- The definitions a word is looked up in, for one register width. -/
structure InstructionSet where
  /-- The width of registers and addresses. -/
  xlen : Xlen
  /-- The extensions of the tables added. -/
  extensions : ExtensionSet := .empty
  /-- The definitions. -/
  catalogue : Catalogue := .empty
  deriving DecidableEq, Repr

/-- A set after tables were added, with what was logged and what stopped it. -/
structure Composition where
  /-- The set afterwards. -/
  set : InstructionSet
  /-- What was reported, in order. -/
  log : List Event := []
  /-- What went wrong, if anything. -/
  failure : Option DefinitionError := none
  deriving DecidableEq, Repr

/-- The set a composition ends in, or the error that stopped it. -/
def Composition.result (c : Composition) : Except DefinitionError InstructionSet :=
  match c.failure with
  | some e => .error e
  | none => .ok c.set

namespace InstructionSet

/-- The set without tables. -/
def empty (xlen : Xlen) : InstructionSet := { xlen }

/-- The name of a set: the width and the letters of the extensions. -/
def name (s : InstructionSet) : String :=
  "rv" ++ Text.natural s.xlen.bits ++ s.extensions.text

/-- The definition of a word. -/
def lookup (s : InstructionSet) (w : Word) : Option Definition := s.catalogue.lookup w

/-- Add a table.  Its extension is recorded even if a row fails. -/
def add (s : InstructionSet) (t : Table) : Composition :=
  let installed := s.catalogue.install t t.rows
  let dropped := installed.duplicates.map fun (mnemonic, kept) =>
    Event.duplicateDropped mnemonic kept
  { set :=
      { s with
        extensions := s.extensions.insert t.extension
        catalogue := installed.catalogue }
    log :=
      match installed.failure with
      | some _ => dropped
      | none => dropped ++ [.tableAdded t.name t.width.bits installed.added]
    failure := installed.failure }

/-- Add tables in order, up to the first that fails. -/
def addAll (s : InstructionSet) : List Table → Composition
  | [] => { set := s }
  | t :: ts =>
    let step := s.add t
    match step.failure with
    | some _ => step
    | none =>
      let rest := step.set.addAll ts
      { rest with log := step.log ++ rest.log }

/-- Put a set together from tables. -/
def compose (xlen : Xlen) (ts : List Table) : Composition :=
  let all := (empty xlen).addAll ts
  match all.failure with
  | some _ => all
  | none =>
    { all with
      log := all.log ++ [.setBuilt all.set.name all.set.catalogue.compressed.length
        all.set.catalogue.standard.length] }

/-- Put a set together from tables, or say what is wrong with them. -/
def build (xlen : Xlen) (ts : List Table) : Except DefinitionError InstructionSet :=
  (compose xlen ts).result

end InstructionSet

end RiscV
