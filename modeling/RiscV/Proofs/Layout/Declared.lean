import RiscV.Proofs.Layout.Cells
import RiscV.Proofs.Operands.Reading

/-!
# The operands a layout declares

A layout says where the operands of its instruction are: a bare field holds the
word bits it is drawn over, and the parts of the immediate hold the bits that
their ranges name.  The decoding of a form says so once more, without looking at
the layout.  Here the operands are read off as the layout declares them, and a
check is given under which decoding finds the same.

## Main definitions

* `Layout.placed` — the items of a layout with the lowest word bit of each.
* `Layout.immediate` — the immediate as the layout declares it.
* `Layout.Reads` — operands are those that the layout declares.
* `Layout.Agrees` — the readings of a form are those that the layout declares.

## Main results

* `Layout.Agrees.reads` — **if the readings agree, every word that the layout
  accepts is decoded to the operands that it declares.**
-/

namespace RiscV

/-! ### Bare fields -/

namespace BareField

/-- The operands that a bare field holds.  The fields of `fence` are no
operands. -/
def slots : BareField → List Slot
  | rd | rdShort => [.rd]
  | rs1 | rs1Short | zimm => [.rs1]
  | rs2 | rs2Short => [.rs2]
  | rs3 => [.rs3]
  | rs1rd | rs1rdShort => [.rd, .rs1]
  | shamt5 | shamt6 => [.shamt]
  | rm => [.rm]
  | csr => [.csr]
  | aq => [.aq]
  | rl => [.rl]
  | pred | succ => []

/-- What the bits of a field count from: a short register field numbers the
registers from 8 on. -/
def base : BareField → Nat
  | rdShort | rs1Short | rs2Short | rs1rdShort => 8
  | _ => 0

/-- How a field is read that is drawn from word bit `lo` upward. -/
def reading (field : BareField) (lo : Nat) : Reading where
  wires := Run.wires ⟨lo + (field.width - 1), lo, 0⟩
  base := field.base

theorem width_pos (field : BareField) : 0 < field.width := by cases field <;> decide

theorem width_le (field : BareField) : field.width ≤ 32 := by cases field <;> decide

/-- A field is read as the contiguous bits at its place. -/
theorem value_reading (field : BareField) (lo : Nat) (w : Word) :
    (field.reading lo).value w = field.base + (w.extractLsb' lo field.width).toNat := by
  have hpos := field.width_pos
  have hle := field.width_le
  have hwidth : lo + (field.width - 1) - lo + 1 = field.width := by omega
  have hbits := Word.toNat_bits w (lo + (field.width - 1)) lo
  rw [hwidth, toNat_bits_eq_wired w (by omega)] at hbits
  simp only [Reading.value, reading, hbits]

end BareField

/-- The bare field that an item is. -/
def Item.field? : Item → Option BareField
  | bare field => some field
  | _ => none

/-- Whether an item is a part of a signed immediate. -/
def Item.isSigned : Item → Bool
  | immediate name _ => name.isSigned
  | _ => false

/-- Where the bits of an item go that holds a part of the immediate and is drawn
from word bit `lo` upward. -/
def Item.wires (item : Item) (lo : Nat) : List Wire :=
  (item.places.reverse.zipIdx lo).map fun (place, bit) => ⟨place, bit⟩

/-- The slot that the immediate of a form is in: compressed shifts have their
amount there. -/
def Form.immediateSlot : Form → Slot
  | cShift | cShiftShort => .shamt
  | _ => .imm

namespace Layout

/-! ### The declaration -/

/-- Items with the lowest word bit of each: as many bits are below it as the
items to its right take. -/
def place : List Item → List (Item × Nat)
  | [] => []
  | item :: items => (item, (items.flatMap Item.cells).length) :: place items

/-- The items of a layout with the lowest word bit of each. -/
def placed (layout : Layout) : List (Item × Nat) := place layout.items

/-- How the immediate is read that the parts of a layout make up.  A signed one
has its sign in the highest bit declared. -/
def immediate (layout : Layout) : Reading :=
  let wires := layout.placed.flatMap fun (item, lo) => item.wires lo
  { wires, signed := if layout.items.any Item.isSigned then some (extent wires) else none }

/-- The operands `o` are those that the layout declares for the word `w`, where
`immSlot` is the one that the immediate is in. -/
structure Reads (layout : Layout) (immSlot : Slot) (w : Word) (o : Operands) : Prop where
  /-- A bare field holds the contiguous bits at its place. -/
  bare : ∀ field lo, (Item.bare field, lo) ∈ layout.placed → ∀ slot ∈ field.slots,
    slot.get o = field.base + (w.extractLsb' lo field.width).toNat
  /-- The parts of the immediate make up its value. -/
  immediate : layout.immediate.wires ≠ [] → immSlot.get o = layout.immediate.value w

/-! ### Agreement -/

/-- Whether a layout fixes a bit to zero. -/
def fixesZero (layout : Layout) (i : Nat) : Bool := cellAt layout.cells i == some false

/-- The readings of a form agree with those that the layout declares, up to wires
from bits that the layout fixes to zero. -/
def Agrees (layout : Layout) (form : Form) : Prop :=
  (∀ p ∈ layout.placed, ∀ field ∈ p.1.field?, ∀ slot ∈ field.slots,
    Reading.Agree layout.fixesZero (form.reading slot) (field.reading p.2)) ∧
  (layout.immediate.wires ≠ [] →
    Reading.Agree layout.fixesZero (form.reading form.immediateSlot) layout.immediate)

instance (layout : Layout) (form : Form) : Decidable (layout.Agrees form) :=
  inferInstanceAs (Decidable (_ ∧ _))

/-- **If the readings agree, every word that the layout accepts is decoded to the
operands that it declares.** -/
theorem Agrees.reads {layout : Layout} {form : Form} (h : layout.Agrees form) {width : Width}
    (hwidth : layout.totalWidth = width.bits) {w : Word}
    (hw : (Pattern.ofCells layout.cells width).accepts w = true) :
    layout.Reads form.immediateSlot w (form.operands w) := by
  have hlen : layout.cells.length ≤ 32 := by
    rw [length_cells, hwidth]
    exact width.bits_le
  have hzero : ∀ i, layout.fixesZero i = true → w.getLsbD i = false := by
    intro i hi
    exact (Pattern.accepts_ofCells_iff hlen w).mp hw i false (eq_of_beq hi)
  -- the wires in which the readings differ come from bits that are zero in `w`
  constructor
  · intro field lo hplaced slot hslot
    rw [form.get_operands, ← field.value_reading]
    exact (h.1 _ hplaced field rfl slot hslot).value_eq hzero
  · intro hwires
    rw [form.get_operands]
    exact (h.2 hwires).value_eq hzero

end Layout
end RiscV
