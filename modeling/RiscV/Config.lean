import RiscV.Builtin
import RiscV.InstructionSet

/-!
# Configurations

A configuration selects an instruction set: a register width, a preset and
further modules, all optional.  Without any selection the standard preset
applies.  The modules of the preset come first.

## Main definitions

* `Config`, `Config.moduleList`, `Config.resolveXlen` — what is selected.
* `Config.compose`, `Config.build` — putting the selected set together.
-/

namespace RiscV

/-- A selection of an instruction set. -/
structure Config where
  /-- The register width in bits. -/
  xlen : Option Nat := none
  /-- The preset whose modules come first. -/
  preset : Option Preset := none
  /-- Further modules. -/
  modules : List Builtin := []
  deriving DecidableEq, Repr

/-- Why a selected set cannot be built. -/
inductive BuildError
  /-- The register width is none of the known ones. -/
  | invalidXlen (bits : Nat)
  /-- A definition cannot be added. -/
  | definition (error : DefinitionError)
  deriving DecidableEq, Repr

/-- The wording of a build error. -/
def BuildError.message : BuildError → String
  | invalidXlen bits =>
    "unsupported xlen " ++ Text.natural bits ++ " (expected 32, 64 or 128)"
  | definition error => error.message

namespace Config

/-- The preset that applies: the selected one, or the standard one if nothing is
selected. -/
def effectivePreset (c : Config) : Option Preset :=
  match c.preset with
  | some p => some p
  | none => if c.modules.isEmpty then some .standard else none

/-- The register width: the selected one, or that of the preset, or 64 bits. -/
def resolveXlen (c : Config) : Except BuildError Xlen :=
  match c.xlen with
  | some bits =>
    match Xlen.ofBits? bits with
    | some xlen => .ok xlen
    | none => .error (.invalidXlen bits)
  | none => .ok ((c.effectivePreset.map Preset.xlen).getD .rv64)

/-- All modules, in the order in which they are added. -/
def moduleList (c : Config) : List Builtin :=
  (c.effectivePreset.map Preset.modules).getD [] ++ c.modules

/-- Put the selected set together.  The register width is checked first. -/
def compose (c : Config) : Except BuildError Composition :=
  c.resolveXlen.map fun xlen => InstructionSet.compose xlen (c.moduleList.map Builtin.table)

/-- The selected set, or why there is none. -/
def build (c : Config) : Except BuildError InstructionSet :=
  match c.compose with
  | .error e => .error e
  | .ok composition =>
    match composition.result with
    | .error e => .error (.definition e)
    | .ok set => .ok set

end Config

end RiscV
