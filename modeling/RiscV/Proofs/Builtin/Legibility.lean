import Mathlib.Data.List.Pairwise
import RiscV.Listing
import RiscV.Proofs.Assembly.Shown
import RiscV.Proofs.Builtin.Spelling
import RiscV.Proofs.InstructionSet.Provenance

/-!
# Assembly text loses no operand

Two words that a set of built-in instructions writes alike are the same
instruction with the same operands, but for a few bits that are never written and
for two pairs of instructions that share a shorthand.

A definition is legible if every bit of its words is fixed, hidden, or carried to
an operand that its form shows.  The built-in rows are legible, and no two of them
write the same mnemonic unless they are the same definition or twins.

## Main definitions

* `Definition.hides` — the bits that are never written.
* `Definition.Legible` — every other bit can be told from the text.
* `Builtin.Entry` — a built-in row with what its table gives it.

## Main results

* `Definition.Legible.getLsbD_eq` — words of a legible definition that are written
  alike have the same bits, but for the hidden ones.
* `Builtin.legible_of_define` — the built-in definitions are legible.
* `Builtin.eq_or_twin` — built-in definitions with a common mnemonic are equal or
  twins.
* `InstructionSet.eq_of_assembly_eq` — **words that are written alike are alike.**
-/

namespace RiscV

/-! ### Legible definitions -/

/-- The bits that a form never writes: the rounding mode of most floating-point
operations, and the fields of three instructions that are written without
operands or with a placeholder. -/
def Form.hides (form : Form) (name : String) (i : Nat) : Bool :=
  (form == .floatArith || form == .floatUnary || form == .intToFloatRounded ||
      form == .fused) && 12 ≤ i && i ≤ 14 ||
    name == "fence" && 20 ≤ i && i ≤ 27 ||
    name == "c.nop" && (i == 12 || 2 ≤ i && i ≤ 6) ||
    name == "c.slli64" && 7 ≤ i && i ≤ 11

namespace Definition

/-- The bits of a definition's words that are never written. -/
def hides (d : Definition) (i : Nat) : Bool := d.form.hides d.mnemonic i

/-- Every bit of a definition's words can be told from the text, unless it is
hidden. -/
structure Legible (d : Definition) : Prop where
  /-- The form is made for the instruction. -/
  suits : d.form.suits d.mnemonic = true
  /-- Mnemonics have no space, so that they end at the first one. -/
  space_notMem : ∀ m ∈ d.form.mnemonics d.mnemonic.toList, ' ' ∉ m
  /-- Every bit is fixed, hidden, or carried to an operand that is shown. -/
  covers : ∀ i < d.pattern.width.bits, d.pattern.mask.getLsbD i = true ∨ d.hides i = true ∨
    ∃ slot ∈ d.form.shown, ∃ wire ∈ (d.form.reading slot).wires, wire.bit = i

/-- The line of a word at an address. -/
def line (d : Definition) (goal : Int → Address) (w : Word) : Assembly :=
  d.form.write d.mnemonic (d.form.operands w) goal

namespace Legible

variable {d d' : Definition} {goal : Int → Address} {w w' : Word}

/-- **Words of a legible definition that are written alike have the same bits**,
but for the hidden ones. -/
theorem getLsbD_eq (h : d.Legible) (hw : d.pattern.accepts w = true)
    (hw' : d.pattern.accepts w' = true)
    (hgoal : ∀ m n : Int, -2 ^ 31 ≤ m ∧ m < 2 ^ 31 → -2 ^ 31 ≤ n ∧ n < 2 ^ 31 →
      goal m = goal n → m = n)
    (htext : (d.line goal w).text = (d.line goal w').text) {i : Nat}
    (hi : i < d.pattern.width.bits) (hhides : d.hides i = false) :
    w.getLsbD i = w'.getLsbD i := by
  rcases h.covers i hi with hmask | hhidden | ⟨slot, hslot, wire, hwire, rfl⟩
  · rw [Pattern.getLsbD_eq_of_accepts hw hmask, Pattern.getLsbD_eq_of_accepts hw' hmask]
  · rw [hhides] at hhidden
    contradiction
  · -- the operand that the bit is carried to is shown, and determines the bit
    have hadmits := d.form.admits_operands w
    have hadmits' := d.form.admits_operands w'
    have hget := Form.get_eq_of_text_eq h.suits h.space_notMem hadmits hadmits'
      (hgoal _ _ (hadmits.bounded .imm) (hadmits'.bounded .imm)) htext slot hslot
    rw [d.form.get_operands, d.form.get_operands] at hget
    exact (d.form.proper_reading slot).determines hget hwire

/-- Words of legible definitions that are written alike have one mnemonic. -/
theorem mnemonic_eq (h : d.Legible) (h' : d'.Legible)
    (htext : (d.line goal w).text = (d'.line goal w').text) :
    (d.line goal w).mnemonic = (d'.line goal w').mnemonic := by
  have hrange := Form.inRange_write d.form d.mnemonic (d.form.bounded_operands w) goal
  have hrange' := Form.inRange_write d'.form d'.mnemonic (d'.form.bounded_operands w') goal
  exact (Assembly.text_inj (h.space_notMem _ (Form.mnemonic_mem _ _ _ _))
    (h'.space_notMem _ (Form.mnemonic_mem _ _ _ _)) hrange hrange' htext).1

end Legible
end Definition

/-! ### The built-in rows -/

namespace Builtin

/-- Whether a row is legible, as far as its form, its layout and the characters
of its mnemonic tell. -/
def legible (form : Form) (layout : Layout) (name : List Char) : Bool :=
  form.suits (String.ofList name) && (form.mnemonics name).all (fun m => !m.contains ' ') &&
    layout.cells.reverse.zipIdx.all fun (cell, i) =>
      cell.isSome ||
        form.shown.any (fun slot => (form.reading slot).wires.any fun wire => wire.bit == i) ||
        form.hides (String.ofList name) i

/-- **The built-in definitions are legible.** -/
theorem legible_of_define (m : Builtin) {row : Row} (hrow : row ∈ m.table.rows)
    {d : Definition} (hd : m.table.define row = .ok d) : d.Legible := by
  obtain ⟨layout, hparse, hwidth, hcheck⟩ := forall_rows
    (fun _ form layout name => legible form layout name) (by decide +kernel) m hrow
  have hcompile := Layout.compile_eq_ok_iff.mpr ⟨layout, hparse, hwidth, rfl⟩
  rw [Table.define, hcompile] at hd
  obtain rfl := Except.ok.inj hd
  have hlen : layout.cells.length ≤ 32 := by
    rw [layout.length_cells, hwidth]
    exact m.table.width.bits_le
  simp only [legible, Bool.and_eq_true, Bool.or_eq_true, List.all_eq_true, List.any_eq_true,
    String.ofList_toList, Bool.not_eq_true', beq_iff_eq] at hcheck
  obtain ⟨⟨hsuits, hspace⟩, hcovers⟩ := hcheck
  refine ⟨hsuits, ?_, ?_⟩
  · intro name hname hmem
    have hno := hspace name hname
    rw [List.contains_eq_mem, decide_eq_false_iff_not] at hno
    exact hno hmem
  · intro i hi
    have hlt : i < layout.cells.reverse.length := by
      rw [List.length_reverse, layout.length_cells, hwidth]
      exact hi
    have hmem : (layout.cells.reverse[i], i) ∈ layout.cells.reverse.zipIdx :=
      List.mem_zipIdx_iff_getElem?.mpr (List.getElem?_eq_getElem hlt)
    rcases hcovers _ hmem with (hcell | hslot) | hhides
    · refine Or.inl ((Pattern.getLsbD_mask_ofCells hlen i).trans ?_)
      rw [cellAt, List.getElem?_eq_getElem hlt, Option.join_some]
      exact hcell
    · exact Or.inr (Or.inr hslot)
    · exact Or.inr (Or.inl hhides)

/-! ### Common mnemonics -/

/-- A row with what its table gives it, by the characters of its layout. -/
structure Entry where
  /-- The width of the table. -/
  width : Width
  /-- The extension of the table. -/
  extension : Extension
  /-- The characters of the layout. -/
  chars : List Char
  /-- The form. -/
  form : Form
  deriving DecidableEq

/-- The entries of all built-in modules. -/
def entries : List Entry :=
  all.flatMap fun m =>
    m.spelled.toList.map fun (chars, form) => ⟨m.table.width, m.table.extension, chars, form⟩

/-- The definition that an entry stands for. -/
def Entry.define (a : Entry) : Except DefinitionError Definition :=
  (Layout.compile (String.ofList a.chars) a.width).map fun compiled =>
    ⟨compiled.mnemonic, compiled.pattern, a.form, a.extension⟩

theorem exists_entry (m : Builtin) {row : Row} (hrow : row ∈ m.table.rows) :
    ∃ a ∈ entries, a.define = m.table.define row := by
  rw [m.spelled.rows_eq] at hrow
  obtain ⟨x, hx, rfl⟩ := List.mem_map.mp hrow
  refine ⟨⟨m.table.width, m.table.extension, x.1, x.2⟩, ?_, rfl⟩
  exact List.mem_flatMap.mpr ⟨m, m.mem_all, List.mem_map.mpr ⟨x, hx, rfl⟩⟩

theorem Entry.of_define {a : Entry} {d : Definition} (h : a.define = .ok d) :
    d.form = a.form ∧ d.mnemonic.toList = Layout.mnemonicOf a.chars := by
  unfold define at h
  cases hcompile : Layout.compile (String.ofList a.chars) a.width with
  | error e =>
    rw [hcompile] at h
    contradiction
  | ok compiled =>
    rw [hcompile] at h
    obtain rfl := Except.ok.inj h
    obtain ⟨layout, hparse, -, rfl⟩ := Layout.compile_eq_ok_iff.mp hcompile
    rw [Layout.parse, String.toList_ofList] at hparse
    refine ⟨rfl, ?_⟩
    rw [Layout.mnemonic_eq_of_ofWords hparse, String.toList_ofList]

/-- The pairs of forms that share a shorthand: an addition and `c.nop` are both
written `nop`, and a jump to a register and `c.jr` both `ret`. -/
def twin : Form → Form → Bool
  | .addImm, .cNop | .jumpRegister, .cJumpRegister => true
  | _, _ => false

/-- Whether two entries may write the same mnemonic. -/
def Entry.compatible (a b : Entry) : Bool :=
  a == b || twin a.form b.form || twin b.form a.form

/-- The mnemonics that an entry can write, by number. -/
def Entry.written (a : Entry) : List (Nat × Entry) :=
  (a.form.mnemonics (Layout.mnemonicOf a.chars)).map fun m => (Text.key m, a)

theorem Entry.compatible_symm {a b : Entry} (h : a.compatible b = true) :
    b.compatible a = true := by
  simp only [compatible, Bool.or_eq_true, beq_iff_eq] at h ⊢
  rcases h with (h | h) | h
  · exact Or.inl (Or.inl h.symm)
  · exact Or.inr h
  · exact Or.inl (Or.inr h)

/-- Entries that write a mnemonic of the same number are compatible. -/
def Entry.Apart (x y : Nat × Entry) : Prop := x.1 = y.1 → x.2.compatible y.2 = true

instance : Std.Symm Entry.Apart where
  symm _ _ h heq := Entry.compatible_symm (h heq.symm)

theorem pairwise_written : (entries.flatMap Entry.written).Pairwise Entry.Apart := by
  have hcheck : Text.pairwise (fun x y => !Nat.beq x.1 y.1 || x.2.compatible y.2)
      (entries.flatMap Entry.written) = true := by
    decide +kernel
  refine (Text.pairwise_iff.mp hcheck).imp ?_
  intro x y h heq
  simpa [heq] using h

/-- Entries with a common mnemonic are compatible. -/
theorem compatible_of_mem {a b : Entry} (ha : a ∈ entries) (hb : b ∈ entries) {m : List Char}
    (hma : m ∈ a.form.mnemonics (Layout.mnemonicOf a.chars))
    (hmb : m ∈ b.form.mnemonics (Layout.mnemonicOf b.chars)) : a.compatible b = true := by
  have hwritten : ∀ c ∈ entries, m ∈ c.form.mnemonics (Layout.mnemonicOf c.chars) →
      (Text.key m, c) ∈ entries.flatMap Entry.written := fun c hc hmc =>
    List.mem_flatMap.mpr ⟨c, hc, List.mem_map.mpr ⟨m, hmc, rfl⟩⟩
  have hrefl : ∀ x ∈ entries.flatMap Entry.written, Entry.Apart x x := by
    intro x _ _
    simp [Entry.compatible]
  exact pairwise_written.forall_of_forall hrefl (hwritten a ha hma) (hwritten b hb hmb) rfl

/-- **Built-in definitions with a common mnemonic are equal or twins.** -/
theorem eq_or_twin {m m' : Builtin} {row row' : Row} {d d' : Definition}
    (hrow : row ∈ m.table.rows) (hd : m.table.define row = .ok d)
    (hrow' : row' ∈ m'.table.rows) (hd' : m'.table.define row' = .ok d') {name : List Char}
    (hname : name ∈ d.form.mnemonics d.mnemonic.toList)
    (hname' : name ∈ d'.form.mnemonics d'.mnemonic.toList) :
    d = d' ∨ twin d.form d'.form = true ∨ twin d'.form d.form = true := by
  obtain ⟨a, ha, hdefine⟩ := m.exists_entry hrow
  obtain ⟨b, hb, hdefine'⟩ := m'.exists_entry hrow'
  rw [hd] at hdefine
  rw [hd'] at hdefine'
  obtain ⟨hform, hmnemonic⟩ := Entry.of_define hdefine
  obtain ⟨hform', hmnemonic'⟩ := Entry.of_define hdefine'
  rw [hform, hmnemonic] at hname
  rw [hform', hmnemonic'] at hname'
  have hcompatible := compatible_of_mem ha hb hname hname'
  simp only [Entry.compatible, Bool.or_eq_true, beq_iff_eq, ← hform, ← hform'] at hcompatible
  rcases hcompatible with (rfl | htwin) | htwin
  · -- the same row, in a table that may stand in another module
    rw [hdefine] at hdefine'
    exact Or.inl (Except.ok.inj hdefine')
  · exact Or.inr (Or.inl htwin)
  · exact Or.inr (Or.inr htwin)

/-- Twins that are written alike are written with their common shorthand. -/
theorem text_of_twin {d d' : Definition} (h : d.Legible) (h' : d'.Legible)
    (htwin : twin d.form d'.form = true) {goal : Int → Address} {w w' : Word}
    (htext : (d.line goal w).text = (d'.line goal w').text) :
    d.mnemonic = "addi" ∧ d'.mnemonic = "c.nop" ∧ (d.line goal w).text = "nop" ∨
      d.mnemonic = "jalr" ∧ d'.mnemonic = "c.jr" ∧ (d.line goal w).text = "ret" := by
  have hsuits := h.suits
  have hsuits' := h'.suits
  have hmnemonic := Form.mnemonic_mem d.form d.mnemonic (d.form.operands w) goal
  rw [← Definition.line, h.mnemonic_eq h' htext] at hmnemonic
  rw [htext]
  unfold Definition.line at hmnemonic ⊢
  unfold twin at htwin
  split at htwin
  · next hform hform' =>
    rw [hform, Form.suits, beq_iff_eq] at hsuits
    rw [hform', Form.suits, beq_iff_eq] at hsuits'
    -- `c.nop` is always written `nop`
    exact Or.inl ⟨hsuits, hsuits', by rw [hform']; rfl⟩
  · next hform hform' =>
    rw [hform, Form.suits, beq_iff_eq] at hsuits
    rw [hform', Form.suits, beq_iff_eq] at hsuits'
    refine Or.inr ⟨hsuits, hsuits', ?_⟩
    rw [hform, hsuits, hform', hsuits', Form.write] at hmnemonic
    rw [hform', hsuits', Form.write]
    split at hmnemonic
    · next hra => rw [if_pos hra]; rfl
    · -- a compressed jump with its operand does not look like the other
      dsimp only at hmnemonic
      exact absurd hmnemonic (by decide +kernel)
  · contradiction

end Builtin

/-! ### Sets of built-in instructions -/

namespace InstructionSet

theorem assembly_disassemble {s : InstructionSet} {w : Word} {d : Definition}
    (h : s.lookup w = some d) (address : Address) :
    (s.disassemble address w).assembly
      = (d.line (Form.goal (address &&& s.addressMask) s.addressMask) w.parcel).text := by
  simp only [disassemble, assemblyAt, lookup_parcel, h]
  rfl

/-- **Words that are written alike are alike.**

In a set of built-in instructions, for any register width and at any address, let
two words have a definition each and the same text.  Then they have the same
definition, and their bits agree but for the hidden ones; or one is `addi` and the
other `c.nop`, and the text is `nop`; or one is `jalr` and the other `c.jr`, and
the text is `ret`. -/
theorem eq_of_assembly_eq {xlen : Xlen} {ms : List Builtin} {s : InstructionSet}
    (hs : build xlen (ms.map Builtin.table) = .ok s) (address : Address) {w₁ w₂ : Word}
    {d₁ d₂ : Definition} (h₁ : s.lookup w₁ = some d₁) (h₂ : s.lookup w₂ = some d₂)
    (h : (s.disassemble address w₁).assembly = (s.disassemble address w₂).assembly) :
    d₁ = d₂ ∧ (∀ i, d₁.hides i = false → w₁.parcel.getLsbD i = w₂.parcel.getLsbD i) ∨
    (d₁.mnemonic = "addi" ∧ d₂.mnemonic = "c.nop" ∨
        d₁.mnemonic = "c.nop" ∧ d₂.mnemonic = "addi") ∧
      (s.disassemble address w₁).assembly = "nop" ∨
    (d₁.mnemonic = "jalr" ∧ d₂.mnemonic = "c.jr" ∨
        d₁.mnemonic = "c.jr" ∧ d₂.mnemonic = "jalr") ∧
      (s.disassemble address w₁).assembly = "ret" := by
  obtain ⟨haccepts₁, hwidth₁, t₁, ht₁, row₁, hrow₁, hdefine₁⟩ := lookup_build hs h₁
  obtain ⟨haccepts₂, hwidth₂, t₂, ht₂, row₂, hrow₂, hdefine₂⟩ := lookup_build hs h₂
  obtain ⟨m₁, -, rfl⟩ := List.mem_map.mp ht₁
  obtain ⟨m₂, -, rfl⟩ := List.mem_map.mp ht₂
  have hlegible₁ := m₁.legible_of_define hrow₁ hdefine₁
  have hlegible₂ := m₂.legible_of_define hrow₂ hdefine₂
  rw [assembly_disassemble h₁, assembly_disassemble h₂] at h
  rw [assembly_disassemble h₁]
  -- the one mnemonic of both lines is among those of either definition
  have hmem₁ := Form.mnemonic_mem d₁.form d₁.mnemonic (d₁.form.operands w₁.parcel)
    (Form.goal (address &&& s.addressMask) s.addressMask)
  have hmem₂ := Form.mnemonic_mem d₂.form d₂.mnemonic (d₂.form.operands w₂.parcel)
    (Form.goal (address &&& s.addressMask) s.addressMask)
  rw [← Definition.line, hlegible₁.mnemonic_eq hlegible₂ h] at hmem₁
  rcases Builtin.eq_or_twin hrow₁ hdefine₁ hrow₂ hdefine₂ hmem₁ hmem₂ with rfl | htwin | htwin
  · refine Or.inl ⟨rfl, ?_⟩
    intro i hhides
    rcases Nat.lt_or_ge i d₁.pattern.width.bits with hi | hi
    · exact hlegible₁.getLsbD_eq haccepts₁ haccepts₂
        (fun m n hm hn => Form.goal_injective s.xlen _ hm hn) h hi hhides
    · -- bits beyond the width do not belong to the instruction
      rw [Word.getLsbD_parcel, Word.getLsbD_parcel, ← hwidth₁, ← hwidth₂,
        decide_eq_false (by omega), Bool.false_and, Bool.false_and]
  · rcases Builtin.text_of_twin hlegible₁ hlegible₂ htwin h with ⟨hm₁, hm₂, ht⟩ | ⟨hm₁, hm₂, ht⟩
    · exact Or.inr (Or.inl ⟨Or.inl ⟨hm₁, hm₂⟩, ht⟩)
    · exact Or.inr (Or.inr ⟨Or.inl ⟨hm₁, hm₂⟩, ht⟩)
  · rw [h]
    rcases Builtin.text_of_twin hlegible₂ hlegible₁ htwin h.symm with
      ⟨hm₂, hm₁, ht⟩ | ⟨hm₂, hm₁, ht⟩
    · exact Or.inr (Or.inl ⟨Or.inr ⟨hm₁, hm₂⟩, ht⟩)
    · exact Or.inr (Or.inr ⟨Or.inr ⟨hm₁, hm₂⟩, ht⟩)

/-- Two words of the instruction reserved for 128-bit registers, which is written
without its register. -/
theorem eq_of_assembly_eq_slli64 :
    ∃ s d, build .rv128 ([Builtin.rv128c].map Builtin.table) = .ok s ∧
      s.lookup 0x0082#32 = some d ∧ s.lookup 0x0102#32 = some d ∧
      (s.disassemble 0#64 0x0082#32).assembly = "c.slli64 <unimplemented>" ∧
      (s.disassemble 0#64 0x0102#32).assembly = "c.slli64 <unimplemented>" ∧
      ∀ i, d.hides i = false →
        (Word.parcel 0x0082#32).getLsbD i = (Word.parcel 0x0102#32).getLsbD i := by
  have hbuild : build .rv128 ([Builtin.rv128c].map Builtin.table)
      = .ok ⟨.rv128, ⟨4#32⟩,
          ⟨[⟨"c.slli64", ⟨0xf07f#32, 2#32, .compressed⟩, .unimplemented, .c⟩], []⟩⟩ := by
    decide +kernel
  refine ⟨_, _, hbuild, rfl, rfl, by decide +kernel, by decide +kernel, ?_⟩
  rcases eq_of_assembly_eq hbuild 0#64 (rfl : lookup _ 0x0082#32 = some _)
    (rfl : lookup _ 0x0102#32 = some _) (by decide +kernel) with
    ⟨-, hbits⟩ | ⟨hnames, -⟩ | ⟨hnames, -⟩
  · exact hbits
  · simp at hnames
  · simp at hnames

end InstructionSet
end RiscV
