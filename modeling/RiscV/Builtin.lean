import RiscV.Table.Compressed
import RiscV.Table.Word32
import RiscV.Table.Word64
import RiscV.Xlen

/-!
# Built-in modules and presets

The built-in tables are selected by name.  A preset is a common selection of
them, in the order in which they have to be added, for one register width.
-/

namespace RiscV

/-- The built-in modules. -/
inductive Builtin
  | rv32i | rv32m | rv32a | rv32f | rv32d | rv32c | rv32cOnly | rv32fc | rv32dc
  | rv64i | rv64m | rv64a | rv64f | rv64d | rv64c | rv128c
  deriving DecidableEq, Repr, Inhabited

namespace Builtin

/-- All built-in modules. -/
def all : List Builtin :=
  [rv32i, rv32m, rv32a, rv32f, rv32d, rv32c, rv32cOnly, rv32fc, rv32dc,
    rv64i, rv64m, rv64a, rv64f, rv64d, rv64c, rv128c]

/-- The table of a module. -/
def table : Builtin → Table
  | rv32i => .rv32i
  | rv32m => .rv32m
  | rv32a => .rv32a
  | rv32f => .rv32f
  | rv32d => .rv32d
  | rv32c => .rv32c
  | rv32cOnly => .rv32cOnly
  | rv32fc => .rv32fc
  | rv32dc => .rv32dc
  | rv64i => .rv64i
  | rv64m => .rv64m
  | rv64a => .rv64a
  | rv64f => .rv64f
  | rv64d => .rv64d
  | rv64c => .rv64c
  | rv128c => .rv128c

/-- The identifier of a module, each word of which starts with a capital. -/
def identifier : Builtin → String
  | rv32i => "Rv32i"
  | rv32m => "Rv32m"
  | rv32a => "Rv32a"
  | rv32f => "Rv32f"
  | rv32d => "Rv32d"
  | rv32c => "Rv32c"
  | rv32cOnly => "Rv32cOnly"
  | rv32fc => "Rv32fc"
  | rv32dc => "Rv32dc"
  | rv64i => "Rv64i"
  | rv64m => "Rv64m"
  | rv64a => "Rv64a"
  | rv64f => "Rv64f"
  | rv64d => "Rv64d"
  | rv64c => "Rv64c"
  | rv128c => "Rv128c"

/-- The name a module is selected by. -/
def name (m : Builtin) : String := m.table.name

/-- The module with the given name, in any mixture of cases. -/
def ofNameAnyCase? (text : String) : Option Builtin :=
  all.find? fun m => m.name.toList == text.toList.map Char.toLower

theorem mem_all (m : Builtin) : m ∈ all := by cases m <;> decide

end Builtin

/-- Common selections of modules. -/
inductive Preset
  | rv32i | rv32g | rv32gc | rv64i | rv64g | rv64gc
  deriving DecidableEq, Repr, Inhabited

namespace Preset

/-- All presets. -/
def all : List Preset := [rv32i, rv32g, rv32gc, rv64i, rv64g, rv64gc]

/-- The preset used when nothing is selected. -/
def standard : Preset := rv64gc

/-- The modules of a preset, in the order in which they are added. -/
def modules : Preset → List Builtin
  | rv32i => [.rv32i]
  | rv32g => [.rv32i, .rv32m, .rv32a, .rv32f, .rv32d]
  | rv32gc =>
    [.rv32i, .rv32m, .rv32a, .rv32f, .rv32d, .rv32c, .rv32cOnly, .rv32fc, .rv32dc]
  | rv64i => [.rv32i, .rv64i]
  | rv64g =>
    [.rv32i, .rv32m, .rv32a, .rv32f, .rv32d, .rv64i, .rv64m, .rv64a, .rv64f, .rv64d]
  | rv64gc =>
    [.rv32i, .rv32m, .rv32a, .rv32f, .rv32d, .rv32c, .rv32dc,
      .rv64i, .rv64m, .rv64a, .rv64f, .rv64d, .rv64c]

/-- The register width a preset is meant for. -/
def xlen : Preset → Xlen
  | rv32i | rv32g | rv32gc => .rv32
  | rv64i | rv64g | rv64gc => .rv64

/-- The identifier of a preset. -/
def identifier : Preset → String
  | rv32i => "Rv32i"
  | rv32g => "Rv32g"
  | rv32gc => "Rv32gc"
  | rv64i => "Rv64i"
  | rv64g => "Rv64g"
  | rv64gc => "Rv64gc"

/-- The name a preset is selected by. -/
def name : Preset → String
  | rv32i => "rv32i"
  | rv32g => "rv32g"
  | rv32gc => "rv32gc"
  | rv64i => "rv64i"
  | rv64g => "rv64g"
  | rv64gc => "rv64gc"

/-- The preset with the given name, in any mixture of cases. -/
def ofNameAnyCase? (text : String) : Option Preset :=
  all.find? fun p => p.name.toList == text.toList.map Char.toLower

theorem mem_all (p : Preset) : p ∈ all := by cases p <;> decide

end Preset

/-! ### Selecting by name -/

/-- What an unknown module name is answered with. -/
def unknownModule (text : String) : String := "unknown ISA module `" ++ text ++ "`"

/-- What an unknown preset name is answered with. -/
def unknownPreset (text : String) : String := "unknown ISA preset `" ++ text ++ "`"

end RiscV
