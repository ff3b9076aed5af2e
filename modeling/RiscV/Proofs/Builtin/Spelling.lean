import RiscV.Builtin
import RiscV.Proofs.Layout.Drawing

/-!
# The built-in rows, character by character

What is true of the rows of the built-in tables is checked by evaluation.  The
layout of a row is a string, whose characters are expensive to come by, so every
row is spelled out first: the characters are found once, and a check runs on them.

## Main definitions

* `Spelled` — rows whose layouts are given by their characters.
* `Builtin.spelled` — the rows of a built-in module, spelled out.
* `Layout.passes` — a check of a layout that is spelled out.
* `Layout.mnemonicOf` — the characters of its mnemonic.

## Main results

* `Spelled.rows_eq` — the rows are those that are spelled.
* `Builtin.forall_rows` — a check of the layouts that are spelled out holds of the
  layouts of all rows.
-/

namespace RiscV

/-- Rows whose layouts are given by their characters. -/
inductive Spelled : List Row → Type
  /-- No row. -/
  | nil : Spelled []
  /-- One more row in front. -/
  | cons {rows : List Row} (cs : List Char) (form : Form) (rest : Spelled rows) :
    Spelled (⟨String.ofList cs, form⟩ :: rows)

namespace Spelled

/-- The characters of each row, with its form. -/
def toList {rows : List Row} : Spelled rows → List (List Char × Form)
  | nil => []
  | cons cs form rest => (cs, form) :: rest.toList

/-- The rows are those that are spelled. -/
theorem rows_eq {rows : List Row} (sp : Spelled rows) :
    rows = sp.toList.map fun (cs, form) => ⟨String.ofList cs, form⟩ := by
  induction sp with
  | nil => rfl
  | cons cs form rest ih => rw [toList, List.map_cons, ← ih]

end Spelled

/-- The rows of a built-in module, spelled out. -/
def Builtin.spelled (m : Builtin) : Spelled m.table.rows := by
  cases m <;> (repeat refine .cons _ _ ?_) <;> exact .nil

/-! ### Checks -/

namespace Layout

/-- The characters of the mnemonic: the last word, in lower case. -/
def mnemonicOf (cs : List Char) : List Char :=
  ((Text.words cs).getLast?.getD []).map Char.toLower

theorem mnemonic_eq_of_ofWords {cs : List Char} {layout : Layout}
    (h : ofWords (Text.words cs) = .ok layout) :
    layout.mnemonic = String.ofList (mnemonicOf cs) := by
  obtain ⟨fields, name, hwords, -, hmnemonic⟩ := ofWords_eq_ok h
  rw [hmnemonic, mnemonicOf, hwords, List.getLast?_concat, Option.getD_some]

/-- A check of the layout and the mnemonic that characters spell.  The layout has
to be readable and to fill the width. -/
def passes (width : Width) (check : Layout → List Char → Bool) (cs : List Char) : Bool :=
  match ofWords (Text.words cs) with
  | .ok layout => layout.totalWidth == width.bits && check layout (mnemonicOf cs)
  | .error _ => false

theorem of_passes {width : Width} {check : Layout → List Char → Bool} {cs : List Char}
    (h : passes width check cs = true) :
    ∃ layout, parse (String.ofList cs) = .ok layout ∧ layout.totalWidth = width.bits ∧
      check layout layout.mnemonic.toList = true := by
  unfold passes at h
  split at h
  · next layout hlayout =>
    rw [Bool.and_eq_true, beq_iff_eq] at h
    refine ⟨layout, by rw [parse, String.toList_ofList, hlayout], h.1, ?_⟩
    rw [mnemonic_eq_of_ofWords hlayout, String.toList_ofList]
    exact h.2
  · contradiction

end Layout

/-- **What a check finds of the rows as they are spelled holds of the rows.** -/
theorem Builtin.forall_rows (check : Builtin → Form → Layout → List Char → Bool)
    (h : ∀ m ∈ all, ∀ x ∈ m.spelled.toList,
      Layout.passes m.table.width (check m x.2) x.1 = true)
    (m : Builtin) {row : Row} (hrow : row ∈ m.table.rows) :
    ∃ layout, Layout.parse row.layout = .ok layout ∧
      layout.totalWidth = m.table.width.bits ∧
      check m row.form layout layout.mnemonic.toList = true := by
  rw [m.spelled.rows_eq] at hrow
  obtain ⟨x, hx, rfl⟩ := List.mem_map.mp hrow
  exact Layout.of_passes (h m m.mem_all x hx)

end RiscV
