import RiscV.Proofs.Builtin.Spelling
import RiscV.Proofs.Layout.Declared

/-!
# The built-in tables agree with the decoding

Where the operands of a built-in instruction are is written down twice: in the
layout of its row, and in the encoding of its form.  The two say the same, for
every row with operands and every word.

## Main results

* `Builtin.agrees` — the readings of every row agree.
* `Builtin.reads_decode` — **every word of a built-in row is decoded to the
  operands that the row's layout declares.**
-/

namespace RiscV
namespace Builtin

/-- The readings of every row with operands agree with its layout. -/
theorem agrees (m : Builtin) {row : Row} (hrow : row ∈ m.table.rows)
    (hform : row.form.encoding.isSome = true) :
    ∃ layout, Layout.parse row.layout = .ok layout ∧
      layout.totalWidth = m.table.width.bits ∧ layout.Agrees row.form := by
  obtain ⟨layout, hparse, hwidth, hcheck⟩ := forall_rows
    (fun _ form layout _ => decide (form.encoding.isSome = true → layout.Agrees form))
    (by decide +kernel) m hrow
  exact ⟨layout, hparse, hwidth, of_decide_eq_true hcheck hform⟩

/-- **Every word of a built-in row is decoded to the operands that the row's
layout declares.**  The row compiles, and the encoding that its form reads by
finds in each word of the pattern the operands at the bits that the layout draws
them over. -/
theorem reads_decode (m : Builtin) {row : Row} (hrow : row ∈ m.table.rows) {e : Encoding}
    (he : row.form.encoding = some e) :
    ∃ layout compiled, Layout.parse row.layout = .ok layout ∧
      Layout.compile row.layout m.table.width = .ok compiled ∧
      ∀ w, compiled.pattern.accepts w = true →
        layout.Reads row.form.immediateSlot w (e.decode w) := by
  obtain ⟨layout, hparse, hwidth, hagrees⟩ := m.agrees hrow (by rw [he, Option.isSome_some])
  refine ⟨layout, _, hparse, Layout.compile_eq_ok_iff.mpr ⟨layout, hparse, hwidth, rfl⟩, ?_⟩
  intro w hw
  have hreads := hagrees.reads hwidth hw
  rwa [Form.operands, he] at hreads

/-- A compressed branch, whose offset is scattered over two parts. -/
theorem reads_decode_beqz :
    (⟨"110 imm[8|4:3] rs10 imm[7:6|2:1|5] 01 C.BEQZ", .cBranch⟩ : Row)
        ∈ (table rv32c).rows ∧
      Form.cBranch.encoding = some .cbBranch ∧
      ∃ layout compiled,
        Layout.parse "110 imm[8|4:3] rs10 imm[7:6|2:1|5] 01 C.BEQZ" = .ok layout ∧
        Layout.compile "110 imm[8|4:3] rs10 imm[7:6|2:1|5] 01 C.BEQZ" (table rv32c).width
          = .ok compiled ∧
        ∀ w, compiled.pattern.accepts w = true →
          layout.Reads Form.cBranch.immediateSlot w (Encoding.cbBranch.decode w) := by
  have hrow : (⟨"110 imm[8|4:3] rs10 imm[7:6|2:1|5] 01 C.BEQZ", .cBranch⟩ : Row)
      ∈ (table rv32c).rows := by
    simp [table, Table.rv32c]
  exact ⟨hrow, rfl, reads_decode rv32c hrow rfl⟩

end Builtin
end RiscV
