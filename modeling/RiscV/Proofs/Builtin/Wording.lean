import RiscV.Proofs.Assembly.Shape
import RiscV.Proofs.Builtin.Composition
import RiscV.Proofs.Builtin.Legibility

/-!
# What the lines of built-in instructions say

Whether a line is illegal is told by its text alone.  Here it is shown that this is
sound: among the built-in instructions only `c.illegal`, the parcel without a bit set,
is written like a word that has no definition.

## Main definitions

* `Builtin.illegal` — the definition of the parcel without a bit set.

## Main results

* `Builtin.eq_illegal` — nothing else has the name, the text or the pattern of it.
* `InstructionSet.parts_disassemble` — every text consists of a mnemonic and operands.
* `InstructionSet.isIllegal_iff_lookup` — **a line is illegal exactly if its word has no
  definition or has no bit set in its low half.**
-/

namespace RiscV

/-! ### The definition of the empty parcel -/

namespace Builtin

/-- The definition of the parcel without a bit set. -/
def illegal : Definition := ⟨"c.illegal", ⟨0xffff#32, 0x0#32, .compressed⟩, .cIllegal, .c⟩

theorem mem_illegal : illegal ∈ rv32c.definitions := by decide +kernel

theorem accepts_illegal_iff (w : Word) :
    illegal.pattern.accepts w = true ↔ w.toNat % 2 ^ 16 = 0 := by
  rw [Pattern.accepts, beq_iff_eq, ← BitVec.toNat_inj, illegal, Word.toNat_and_half]
  rfl

/-- What the rows of all modules are written with, and what the row of `illegal` can be
told by, as they are spelled. -/
theorem wording : ∀ m ∈ all, ∀ x ∈ m.spelled.toList,
    (∀ name ∈ x.2.mnemonics (Layout.mnemonicOf x.1), Text.Plain name) ∧
    (['i', 'l', 'l', 'e', 'g', 'a', 'l'] ∈ x.2.mnemonics (Layout.mnemonicOf x.1) ∨
        Layout.mnemonicOf x.1 = ['c', '.', 'i', 'l', 'l', 'e', 'g', 'a', 'l'] ∨
        Layout.patternOf m.table.width x.1 = illegal.pattern →
      m = rv32c ∧ x.2 = .cIllegal ∧
        Layout.mnemonicOf x.1 = ['c', '.', 'i', 'l', 'l', 'e', 'g', 'a', 'l'] ∧
        Layout.patternOf m.table.width x.1 = illegal.pattern) := by
  decide +kernel

variable {m : Builtin} {d : Definition}

/-- The mnemonics that a built-in instruction can be written with are plain. -/
theorem plain_mnemonics (hd : d ∈ m.definitions) :
    ∀ name ∈ d.form.mnemonics d.mnemonic.toList, Text.Plain name := by
  obtain ⟨x, hx, rfl⟩ := List.mem_map.mp hd
  dsimp only
  rw [String.toList_ofList]
  exact (wording m m.mem_all x hx).1

/-- **Nothing but `illegal` has its text, its name or its pattern.** -/
theorem eq_illegal (hd : d ∈ m.definitions)
    (h : Assembly.illegal.mnemonic.toList ∈ d.form.mnemonics d.mnemonic.toList ∨
      d.mnemonic = illegal.mnemonic ∨ d.pattern = illegal.pattern) :
    m = rv32c ∧ d = illegal := by
  obtain ⟨x, hx, rfl⟩ := List.mem_map.mp hd
  dsimp only at h
  rw [String.toList_ofList, ← String.toList_inj, String.toList_ofList] at h
  obtain ⟨rfl, hform, hmnemonic, hpattern⟩ := (wording m m.mem_all x hx).2 h
  refine ⟨rfl, ?_⟩
  dsimp only
  rw [hform, hmnemonic, hpattern]
  rfl

end Builtin

/-! ### Sets of built-in instructions -/

namespace InstructionSet

variable {xlen : Xlen} {ms : List Builtin} {s : InstructionSet} {w : Word} {d : Definition}

theorem mem_definitions_of_lookup (hs : build xlen (ms.map Builtin.table) = .ok s)
    (h : s.lookup w = some d) : ∃ m ∈ ms, d ∈ m.definitions :=
  (definitions_of_build hs).2 _ d (Catalogue.mem_list_of_lookup h)

theorem assembly_disassemble_none (h : s.lookup w = none) (address : Address) :
    (s.disassemble address w).assembly = Assembly.illegal.text := by
  simp only [disassemble, assemblyAt, lookup_parcel, h]

/-- The text of a word consists of its mnemonic and its operands. -/
theorem parts_disassemble (hs : build xlen (ms.map Builtin.table) = .ok s)
    (h : s.lookup w = some d) (address : Address) :
    let line := d.line (Form.goal (address &&& s.addressMask) s.addressMask) w.parcel
    Assembly.Parts (s.disassemble address w).assembly.toList line.mnemonic.toList
      (line.operands.map fun o => o.text.toList) := by
  intro line
  obtain ⟨m, -, hd⟩ := mem_definitions_of_lookup hs h
  rw [assembly_disassemble h]
  exact Assembly.parts_text (Builtin.plain_mnemonics hd _ (Form.mnemonic_mem _ _ _ _))
    (Form.inRange_write d.form d.mnemonic (d.form.bounded_operands w.parcel) _)

/-- The text of any word consists of a mnemonic and operands. -/
theorem exists_parts_disassemble (hs : build xlen (ms.map Builtin.table) = .ok s)
    (address : Address) (w : Word) :
    ∃ mnemonic operands,
      Assembly.Parts (s.disassemble address w).assembly.toList mnemonic operands := by
  cases h : s.lookup w with
  | none =>
    rw [assembly_disassemble_none h]
    exact ⟨_, _, Assembly.parts_text (by decide) (by simp [Assembly.illegal])⟩
  | some d => exact ⟨_, _, parts_disassemble hs h address⟩

/-- A word with a definition is written as illegal only if it is `c.illegal`. -/
theorem isIllegal_iff_mnemonic (hs : build xlen (ms.map Builtin.table) = .ok s)
    (h : s.lookup w = some d) (address : Address) :
    (s.disassemble address w).isIllegal = true ↔ d.mnemonic = Builtin.illegal.mnemonic := by
  obtain ⟨m, -, hd⟩ := mem_definitions_of_lookup hs h
  rw [Line.isIllegal, beq_iff_eq, assembly_disassemble h]
  constructor
  · intro htext
    -- the mnemonic ends at the first space, so it can be told from the text
    have hmnemonic := Form.mnemonic_mem d.form d.mnemonic (d.form.operands w.parcel)
      (Form.goal (address &&& s.addressMask) s.addressMask)
    have hspace := (Builtin.plain_mnemonics hd _ hmnemonic).notMem (c := ' ') (by decide)
    have hrange := Form.inRange_write d.form d.mnemonic (d.form.bounded_operands w.parcel)
      (Form.goal (address &&& s.addressMask) s.addressMask)
    obtain ⟨heq, -⟩ := Assembly.text_inj hspace (by decide) hrange
      (by simp [Assembly.illegal]) htext
    rw [heq] at hmnemonic
    rw [(Builtin.eq_illegal hd (Or.inl hmnemonic)).2]
  · intro hname
    rw [(Builtin.eq_illegal hd (Or.inr (Or.inl hname))).2]
    rfl

/-- Which words are `c.illegal`. -/
theorem exists_lookup_illegal_iff (hs : build xlen (ms.map Builtin.table) = .ok s) (w : Word) :
    (∃ d, s.lookup w = some d ∧ d.mnemonic = Builtin.illegal.mnemonic) ↔
      Builtin.rv32c ∈ ms ∧ w.toNat % 2 ^ 16 = 0 := by
  constructor
  · rintro ⟨d, h, hname⟩
    obtain ⟨m, hm, hd⟩ := mem_definitions_of_lookup hs h
    obtain ⟨rfl, rfl⟩ := Builtin.eq_illegal hd (Or.inr (Or.inl hname))
    have haccepts := (Catalogue.lookup_eq_some h).1
    rw [Builtin.accepts_illegal_iff, Word.toNat_parcel_mod] at haccepts
    exact ⟨hm, haccepts⟩
  · rintro ⟨hm, hzero⟩
    obtain ⟨e, he, hpattern⟩ := exists_mem_of_build hs hm Builtin.mem_illegal
    obtain ⟨m, -, hd⟩ := (definitions_of_build hs).2 _ e he
    obtain ⟨-, rfl⟩ := Builtin.eq_illegal hd (Or.inr (Or.inr hpattern))
    refine ⟨_, ?_, rfl⟩
    -- the word is the fullest of its pattern, but for bits that do not count
    have hparcel : w.parcel = Builtin.illegal.pattern.fullest.parcel :=
      Word.parcel_eq_of_mod_eq (by omega) hzero
    rw [← lookup_parcel, hparcel, lookup_parcel]
    exact lookup_fullest hs he

/-- **A line is illegal exactly if its word has no definition or is `c.illegal`.**

In a set of built-in instructions, for any register width, a word is `c.illegal` if the
set has `rv32c` and no bit of the low half of the word is set.  No other instruction is
written as illegal, whatever its operands are.  The text of every word is a mnemonic,
with a space and the operands behind it if there are any, joined by commas; so it is not
empty, has no tab and no newline, and at most one space. -/
theorem isIllegal_iff_lookup (hs : build xlen (ms.map Builtin.table) = .ok s)
    (address : Address) (w : Word) :
    ((s.disassemble address w).isIllegal = true ↔
      s.lookup w = none ∨ ∃ d, s.lookup w = some d ∧ d.mnemonic = "c.illegal") ∧
    ((∃ d, s.lookup w = some d ∧ d.mnemonic = "c.illegal") ↔
      Builtin.rv32c ∈ ms ∧ w.toNat % 2 ^ 16 = 0) ∧
    ∃ mnemonic operands,
      Assembly.Parts (s.disassemble address w).assembly.toList mnemonic operands ∧
      (s.disassemble address w).assembly ≠ "" ∧
      '\t' ∉ (s.disassemble address w).assembly.toList ∧
      '\n' ∉ (s.disassemble address w).assembly.toList ∧
      (s.disassemble address w).assembly.toList.count ' ' ≤ 1 := by
  refine ⟨?_, exists_lookup_illegal_iff hs w, ?_⟩
  · cases h : s.lookup w with
    | none => simp [Line.isIllegal, assembly_disassemble_none h]
    | some d => simpa [Builtin.illegal] using isIllegal_iff_mnemonic hs h address
  · obtain ⟨mnemonic, operands, hparts⟩ := exists_parts_disassemble hs address w
    refine ⟨mnemonic, operands, hparts, ?_, ?_, ?_, ?_⟩
    · intro hempty
      exact hparts.ne_nil (by rw [hempty]; rfl)
    · exact hparts.notMem (by decide) (by decide) (by decide)
    · exact hparts.notMem (by decide) (by decide) (by decide)
    · rw [hparts.count_space]
      split <;> decide

/-- The three ways of a word in a set of 16-bit instructions: without a bit in its low
half, without a definition, and an instruction. -/
theorem isIllegal_iff_lookup_compressed :
    ∃ s, build .rv64 ([Builtin.rv32c].map Builtin.table) = .ok s ∧
      (s.disassemble 0#64 0xbeef0000#32).isIllegal = true ∧
      (s.disassemble 0#64 0x00000013#32).isIllegal = true ∧
      (s.disassemble 0#64 0x00000001#32).isIllegal = false := by
  have hbuild := build_of_not_shadowed .rv64
    (Builtin.not_shadowed_of_notMem (by decide : Builtin.rv128c ∉ [Builtin.rv32c]))
  refine ⟨_, hbuild, ?_, ?_, ?_⟩
  · obtain ⟨hillegal, hzero, -⟩ := isIllegal_iff_lookup hbuild 0#64 0xbeef0000#32
    exact hillegal.mpr (Or.inr (hzero.mpr (by decide)))
  · obtain ⟨hillegal, -⟩ := isIllegal_iff_lookup hbuild 0#64 0x00000013#32
    exact hillegal.mpr (Or.inl (by decide +kernel))
  · obtain ⟨hillegal, hzero, -⟩ := isIllegal_iff_lookup hbuild 0#64 0x00000001#32
    rw [← Bool.not_eq_true, hillegal, hzero]
    decide +kernel

end InstructionSet
end RiscV
