import Mathlib.Data.List.Induction
import RiscV.Layout
import RiscV.Proofs.Pattern

/-!
# The cells of a layout

A layout draws one cell for each bit of the word, from the highest bit down: a
fixed value under a literal, and nothing under a field.  Compiling collects the
cells into a mask and a value.  Here mask and value are read back bit by bit.

## Main definitions

* `cellAt` — the cell of a bit of the word.

## Main results

* `Layout.compile_eq_ok_iff` — what it takes to compile a layout, and what comes
  of it.
* `Pattern.getLsbD_mask_ofCells`, `Pattern.getLsbD_value_ofCells` — a bit is in
  the mask when its cell is fixed, and in the value when it is fixed to one.
* `Pattern.accepts_ofCells_iff` — a word is accepted when it has the value of
  every fixed cell.
-/

namespace RiscV

/-! ### Bits of a word -/

theorem Word.ofBits_append_singleton (bits : List Bool) (b : Bool) :
    Word.ofBits (bits ++ [b])
      = Word.ofBits bits <<< 1 ||| if b then 1#32 else 0#32 := by
  simp [Word.ofBits, List.foldl_append]

/-- The bits of a word that is given from the highest bit down. -/
theorem Word.getLsbD_ofBits (bits : List Bool) (i : Nat) (hi : i < 32) :
    (Word.ofBits bits).getLsbD i = bits.reverse[i]?.getD false := by
  induction bits using List.reverseRecOn generalizing i with
  | nil => simp [Word.ofBits]
  | append_singleton bits b ih =>
    rw [Word.ofBits_append_singleton, BitVec.getLsbD_or, List.reverse_append]
    cases i with
    | zero => cases b <;> simp
    | succ i =>
      have hlow : (if b then 1#32 else 0#32).getLsbD (i + 1) = false := by
        cases b <;> simp
      rw [hlow, Bool.or_false, BitVec.getLsbD_shiftLeft, Nat.add_sub_cancel, ih i (by omega)]
      simp [hi]

/-! ### Cells and their bits -/

/-- The cell of bit `i`, where cells are listed from the highest bit down.  Bits
beyond the list have none. -/
def cellAt (cells : List (Option Bool)) (i : Nat) : Option Bool := cells.reverse[i]?.join

theorem cellAt_eq_none {cells : List (Option Bool)} {i : Nat} (hi : cells.length ≤ i) :
    cellAt cells i = none := by
  rw [cellAt, List.getElem?_eq_none (by simpa using hi), Option.join_none]

namespace Pattern

variable {cells : List (Option Bool)} {width : Width}

/-- A bit is in the mask exactly when its cell is fixed. -/
theorem getLsbD_mask_ofCells (hlen : cells.length ≤ 32) (i : Nat) :
    (ofCells cells width).mask.getLsbD i = (cellAt cells i).isSome := by
  rcases Nat.lt_or_ge i 32 with hi | hi
  · rw [ofCells, Word.getLsbD_ofBits _ i hi, ← List.map_reverse, List.getElem?_map, cellAt]
    cases cells.reverse[i]? <;> simp
  · rw [cellAt_eq_none (by omega), BitVec.getLsbD_of_ge _ i hi, Option.isSome_none]

/-- A bit is in the value exactly when its cell is fixed to one. -/
theorem getLsbD_value_ofCells (hlen : cells.length ≤ 32) (i : Nat) :
    (ofCells cells width).value.getLsbD i = (cellAt cells i == some true) := by
  rcases Nat.lt_or_ge i 32 with hi | hi
  · rw [ofCells, Word.getLsbD_ofBits _ i hi, ← List.map_reverse, List.getElem?_map, cellAt]
    cases cells.reverse[i]? <;> simp
  · rw [cellAt_eq_none (by omega), BitVec.getLsbD_of_ge _ i hi]
    rfl

/-- A word is accepted exactly when it has the value of every fixed cell. -/
theorem accepts_ofCells_iff (hlen : cells.length ≤ 32) (w : Word) :
    (ofCells cells width).accepts w = true ↔
      ∀ i b, cellAt cells i = some b → w.getLsbD i = b := by
  constructor
  · intro h i b hcell
    have hmask : (ofCells cells width).mask.getLsbD i = true := by
      rw [getLsbD_mask_ofCells hlen, hcell, Option.isSome_some]
    rw [getLsbD_eq_of_accepts h hmask, getLsbD_value_ofCells hlen, hcell]
    cases b <;> rfl
  · intro h
    rw [accepts_iff]
    apply BitVec.eq_of_getLsbD_eq
    intro i _
    rw [BitVec.getLsbD_and, getLsbD_mask_ofCells hlen, getLsbD_value_ofCells hlen]
    cases hcell : cellAt cells i with
    | none => simp
    | some b => cases b <;> simp [h i _ hcell]

end Pattern

/-! ### Widths -/

@[simp] theorem Item.length_cells (item : Item) : item.cells.length = item.width := by
  cases item <;> simp [Item.cells, Item.width]

theorem Layout.length_cells (layout : Layout) :
    layout.cells.length = layout.totalWidth := by
  unfold Layout.cells Layout.totalWidth
  induction layout.items with
  | nil => rfl
  | cons item items ih => simp [ih]

theorem Width.bits_le (width : Width) : width.bits ≤ 32 := by cases width <;> decide

/-! ### Compiling -/

namespace Layout

/-- A layout compiles exactly when it can be read and its items fill the width;
the mnemonic is the one read, and the pattern that of its cells. -/
theorem compile_eq_ok_iff {text : String} {width : Width} {c : CompiledLayout} :
    compile text width = .ok c ↔ ∃ layout, parse text = .ok layout ∧
      layout.totalWidth = width.bits ∧ c = ⟨layout.mnemonic, .ofCells layout.cells width⟩ := by
  unfold compile toPattern
  cases hparse : parse text with
  | error defect => simp
  | ok layout =>
    by_cases hwidth : layout.totalWidth = width.bits
    · simp [hwidth, eq_comm]
    · simp [hwidth]

end Layout
end RiscV
