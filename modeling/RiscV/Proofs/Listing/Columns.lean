import RiscV.Proofs.Image.Tiling
import RiscV.Proofs.Text.Numeral
import RiscV.Proofs.Text.Separation

/-!
# The columns of a listing

A line is written in columns: the address in as many digits as the register width
takes, the word in nine columns, and the assembly behind a tab.  Padding only sets a
least number of digits; the columns are fixed because the address is cut to the
register width and the word to its length before they are written.  So a line can be
read back.

## Main definitions

* `Line.Aligned` — a line is written in columns.

## Main results

* `Line.Aligned.eq_of_text_eq` — aligned lines with one text are equal.
* `InstructionSet.aligned_disassemble` — every line of a set is aligned.
* `InstructionSet.text_disassemble_columns` — **every line is aligned, and can be read
  back.**
-/

namespace RiscV

/-! ### Aligned lines -/

namespace Line

/-- The line is written in columns: the digits of the address, a colon and a space; nine
columns with the digits of the word, two for each byte, and spaces; a tab and the
assembly. -/
structure Aligned (l : Line) (address word : List Char) : Prop where
  /-- The columns, one after the other. -/
  text_eq : l.text.toList = address ++ ':' :: ' ' ::
    (word ++ List.replicate (9 - word.length) ' ' ++ '\t' :: l.assembly.toList)
  /-- The address has a digit for every four bits. -/
  address_spells : Text.Spells address (l.addressBits / 4) l.address.toNat
  /-- The instruction has two bytes or four. -/
  length_cases : l.length = 2 ∨ l.length = 4
  /-- The word has four digits for two bytes, and eight for four. -/
  word_spells : Text.Spells word (2 * l.length) l.word.toNat

namespace Aligned

variable {l l' : Line} {address address' word word' : List Char}

/-- The tab stands behind the columns of the address and the word. -/
theorem idxOf_tab (h : l.Aligned address word) :
    l.text.toList.idxOf '\t' = l.addressBits / 4 + 11 := by
  have haddress : '\t' ∉ address := h.address_spells.notMem (by decide)
  have hword : '\t' ∉ word := h.word_spells.notMem (by decide)
  have hspaces : '\t' ∉ List.replicate (9 - word.length) ' ' := by simp
  rw [h.text_eq, List.idxOf_append_of_notMem haddress, List.idxOf_cons_ne _ (by decide),
    List.idxOf_cons_ne _ (by decide), List.append_assoc, List.idxOf_append_of_notMem hword,
    List.idxOf_append_of_notMem hspaces, List.idxOf_cons_self, List.length_replicate,
    h.address_spells.length_eq, h.word_spells.length_eq]
  have hlength := h.length_cases
  omega

/-- The word is followed by a space. -/
theorem replicate_eq (h : l.Aligned address word) :
    List.replicate (9 - word.length) ' ' = ' ' :: List.replicate (8 - word.length) ' ' := by
  have hword := h.word_spells.length_eq
  have hlength := h.length_cases
  rw [← List.replicate_succ]
  congr 1
  omega

/-- **Aligned lines with one text are equal**, for one number of address bits: each column
ends at a character that does not occur in it. -/
theorem eq_of_text_eq (h : l.Aligned address word) (h' : l'.Aligned address' word')
    (hbits : l.addressBits = l'.addressBits) (htext : l.text = l'.text) : l = l' := by
  have hchars := congrArg String.toList htext
  rw [h.text_eq, h'.text_eq] at hchars
  obtain ⟨haddress, hrest⟩ := Text.append_cons_inj (h.address_spells.notMem (by decide))
    (h'.address_spells.notMem (by decide)) hchars
  have htab : '\t' ∉ word ++ List.replicate (9 - word.length) ' ' := by
    simpa using h.word_spells.notMem (by decide)
  have htab' : '\t' ∉ word' ++ List.replicate (9 - word'.length) ' ' := by
    simpa using h'.word_spells.notMem (by decide)
  obtain ⟨hcolumns, hassembly⟩ := Text.append_cons_inj htab htab' (List.cons.inj hrest).2
  rw [h.replicate_eq, h'.replicate_eq] at hcolumns
  obtain ⟨hword, -⟩ := Text.append_cons_inj (h.word_spells.notMem (by decide))
    (h'.word_spells.notMem (by decide)) hcolumns
  subst haddress hword
  have haddressNat := h.address_spells.denoted_eq.symm.trans h'.address_spells.denoted_eq
  have hwordNat := h.word_spells.denoted_eq.symm.trans h'.word_spells.denoted_eq
  have hcount := h.word_spells.length_eq.symm.trans h'.word_spells.length_eq
  obtain ⟨a, bits, w, length, assembly⟩ := l
  obtain ⟨a', bits', w', length', assembly'⟩ := l'
  simp only at *
  rw [BitVec.eq_of_toNat_eq haddressNat, hbits, BitVec.eq_of_toNat_eq hwordNat,
    String.toList_inj.mp hassembly]
  congr 1
  omega

end Aligned
end Line

/-! ### The lines of a set -/

namespace InstructionSet

/-- Every line of a set is aligned. -/
theorem aligned_disassemble (s : InstructionSet) (address : Address) (w : Word) :
    ∃ a v, (s.disassemble address w).Aligned a v := by
  have haddress : (address &&& s.addressMask).toNat < 16 ^ (s.xlen.bits / 4) := by
    have hpow : 2 ^ s.xlen.bits = 16 ^ (s.xlen.bits / 4) := by
      cases s.xlen <;> rfl
    rw [addressMask, toNat_and_addressMask, ← hpow]
    exact Nat.mod_lt _ (Nat.two_pow_pos _)
  have hlength : w.length = 2 ∨ w.length = 4 := by
    rw [Word.length]
    cases w.width <;> decide
  have hword : Text.Spells (Text.hexPadded (2 * w.length) w.parcel.toNat).toList
      (2 * w.length) w.parcel.toNat := by
    have hpow : 2 ^ w.width.bits = 16 ^ (2 * w.length) := by
      rw [Word.length]
      cases w.width <;> rfl
    exact Text.spells_hexPadded (by omega) (hpow ▸ w.toNat_parcel_lt)
  refine ⟨_, _, ?_, Text.spells_hexPadded ?_ haddress, ?_, hword⟩
  · -- the two lengths are written apart, and come to the same columns
    rw [hword.length_eq]
    rcases hlength with hlength | hlength <;> simp [Line.text, disassemble, hlength]
  · change 0 < s.xlen.bits / 4
    cases s.xlen <;> decide
  · exact hlength

/-- **Every line is aligned, and can be read back.**

The line of any word at any address has a digit of the address for every four bits of the
register width, a colon and a space, nine columns with the word, a tab and the assembly.
So the tab stands in the same column for all words, and lines of one set that are written
alike are equal: they have the same address, word, length and assembly. -/
theorem text_disassemble_columns (s : InstructionSet) :
    (∀ address w, ∃ a v,
      (s.disassemble address w).text.toList = a ++ ':' :: ' ' ::
        (v ++ List.replicate (9 - v.length) ' ' ++
          '\t' :: (s.disassemble address w).assembly.toList) ∧
      Text.Spells a (s.xlen.bits / 4) (s.disassemble address w).address.toNat ∧
      ((s.disassemble address w).length = 2 ∧
          Text.Spells v 4 (s.disassemble address w).word.toNat ∨
        (s.disassemble address w).length = 4 ∧
          Text.Spells v 8 (s.disassemble address w).word.toNat)) ∧
    (∀ address w, (s.disassemble address w).text.toList.idxOf '\t' = s.xlen.bits / 4 + 11) ∧
    ∀ address address' w w',
      (s.disassemble address w).text = (s.disassemble address' w').text →
        s.disassemble address w = s.disassemble address' w' := by
  refine ⟨?_, ?_, ?_⟩
  · intro address w
    obtain ⟨a, v, h⟩ := s.aligned_disassemble address w
    refine ⟨a, v, h.text_eq, h.address_spells, ?_⟩
    have hword := h.word_spells
    rcases h.length_cases with hlength | hlength
    · exact Or.inl ⟨hlength, by rwa [hlength] at hword⟩
    · exact Or.inr ⟨hlength, by rwa [hlength] at hword⟩
  · intro address w
    obtain ⟨a, v, h⟩ := s.aligned_disassemble address w
    exact h.idxOf_tab
  · intro address address' w w' htext
    obtain ⟨a, v, h⟩ := s.aligned_disassemble address w
    obtain ⟨a', v', h'⟩ := s.aligned_disassemble address' w'
    exact h.eq_of_text_eq h' rfl htext

/-- Two addresses that 32 bits do not tell apart, and two words of one short
instruction. -/
theorem text_disassemble_columns_wrapped :
    ((empty .rv32).disassemble 0x100000010#64 0x12344505#32).text
        = "00000010: 4505     \tillegal" ∧
      ((empty .rv32).disassemble 0x10#64 0x4505#32).text = "00000010: 4505     \tillegal" ∧
      (empty .rv32).disassemble 0x100000010#64 0x12344505#32
        = (empty .rv32).disassemble 0x10#64 0x4505#32 := by
  have htext : ((empty .rv32).disassemble 0x100000010#64 0x12344505#32).text
      = "00000010: 4505     \tillegal" := by decide +kernel
  have htext' : ((empty .rv32).disassemble 0x10#64 0x4505#32).text
      = "00000010: 4505     \tillegal" := by decide +kernel
  exact ⟨htext, htext',
    (text_disassemble_columns (empty .rv32)).2.2 _ _ _ _ (htext.trans htext'.symm)⟩

end InstructionSet
end RiscV
