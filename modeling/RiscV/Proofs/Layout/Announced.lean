import RiscV.Proofs.Catalogue.Order
import RiscV.Proofs.Layout.Cells
import RiscV.Proofs.Pattern.Words
import RiscV.Proofs.Word

/-!
# Layouts that contradict their width

A word announces its length in its low two bits, and is looked up among the definitions of
that length.  A definition has the length that it is declared with, and compiling its layout
does not compare the two: a layout is accepted also if its last bits announce the other
length.  No word is of such an instruction, and no catalogue ever finds it.

## Main definitions

* `Pattern.AnnouncesWidth` — the fixed low bits leave room for the length declared.

## Main results

* `Pattern.WellFormed.exists_word_iff` — when a pattern has a word of its width.
* `Layout.exists_word_iff_announcesWidth` — **a layout that compiles describes an
  instruction of its width exactly if its low bits leave room for it.**
* `Layout.not_exists_word_misprint` — a layout that compiles and describes none.
-/

namespace RiscV

theorem Word.isStandard_iff_forall (w : Word) :
    w.isStandard = true ↔ ∀ i < 2, w.getLsbD i = true := by
  rw [isStandard_iff]
  constructor
  · rintro ⟨h0, h1⟩ i hi
    obtain rfl | rfl : i = 0 ∨ i = 1 := by omega
    · exact h0
    · exact h1
  · intro h
    exact ⟨h 0 (by decide), h 1 (by decide)⟩

namespace Pattern

/-- The fixed low bits leave room for the length declared: none of them is fixed to zero in
an instruction of 32 bits, and one of them is not fixed to one in an instruction of 16. -/
def AnnouncesWidth (p : Pattern) : Prop :=
  match p.width with
  | .standard => ∀ i < 2, p.mask.getLsbD i = true → p.value.getLsbD i = true
  | .compressed => ∃ i < 2, p.value.getLsbD i = false

instance : DecidablePred AnnouncesWidth
  | ⟨mask, value, .standard⟩ =>
    inferInstanceAs (Decidable (∀ i < 2, mask.getLsbD i = true → value.getLsbD i = true))
  | ⟨_, value, .compressed⟩ =>
    inferInstanceAs (Decidable (∃ i < 2, value.getLsbD i = false))

variable {p : Pattern}

/-- With both low bits set, a pattern for 32 bits accepts the word of its value. -/
theorem WellFormed.or_mem (hp : p.WellFormed)
    (h : ∀ i < 2, p.mask.getLsbD i = true → p.value.getLsbD i = true) :
    p.value ||| 3#32 ∈ p.words := by
  rw [hp.mem_words_iff]
  intro i hi
  rw [BitVec.getLsbD_or]
  rcases Nat.lt_or_ge i 2 with hlow | hhigh
  · rw [h i hlow hi, Bool.true_or]
  · have hthree : (3#32 : Word).getLsbD i = false := by
      rw [← BitVec.testBit_toNat]
      exact Nat.testBit_lt_two_pow (Nat.lt_of_lt_of_le (by decide : 3 < 2 ^ 2)
        (Nat.pow_le_pow_right (by decide) hhigh))
    rw [hthree, Bool.or_false]

/-- **When a pattern has a word of its width.** -/
theorem WellFormed.exists_word_iff (hp : p.WellFormed) :
    (∃ w : Word, (w.isStandard = true ↔ p.width = .standard) ∧ p.accepts w = true) ↔
      p.AnnouncesWidth := by
  unfold AnnouncesWidth
  cases p.width with
  | standard =>
    constructor
    · rintro ⟨w, hwidth, hw⟩ i hi hmask
      rw [← getLsbD_eq_of_accepts hw hmask]
      exact (w.isStandard_iff_forall.mp (hwidth.mpr rfl)) i hi
    · intro h
      refine ⟨p.value ||| 3#32, iff_of_true ?_ rfl, hp.or_mem h⟩
      rw [Word.isStandard_iff, BitVec.getLsbD_or, BitVec.getLsbD_or]
      simp
  | compressed =>
    constructor
    · rintro ⟨w, hwidth, hw⟩
      by_contra hall
      -- a word of the pattern would have both low bits set
      have hone : ∀ i < 2, p.value.getLsbD i = true := by
        intro i hi
        by_contra hbit
        exact hall ⟨i, hi, Bool.eq_false_iff.mpr hbit⟩
      have hstandard : w.isStandard = true := by
        rw [Word.isStandard_iff_forall]
        intro i hi
        rw [getLsbD_eq_of_accepts hw (hp.getLsbD_mask (hone i hi)), hone i hi]
      exact absurd (hwidth.mp hstandard) (by decide)
    · rintro ⟨i, hi, hbit⟩
      refine ⟨p.value, iff_of_false ?_ (by decide), hp.value_mem⟩
      intro hstandard
      rw [p.value.isStandard_iff_forall.mp hstandard i hi] at hbit
      contradiction

/-- Cells give a value only where they are fixed. -/
theorem wellFormed_ofCells {cells : List (Option Bool)} {width : Width}
    (hlen : cells.length ≤ 32) : (ofCells cells width).WellFormed := by
  apply BitVec.eq_of_getLsbD_eq
  intro i _
  rw [BitVec.getLsbD_and, BitVec.getLsbD_not, getLsbD_mask_ofCells hlen,
    getLsbD_value_ofCells hlen]
  cases cellAt cells i <;> simp

end Pattern

/-- A definition whose low bits leave no room for its width is never found. -/
theorem Catalogue.lookup_ne_of_not_announcesWidth {d : Definition} (hd : d.pattern.WellFormed)
    (h : ¬d.pattern.AnnouncesWidth) (ds : List Definition) (w : Word) :
    (ofAttempts ds).lookup w ≠ some d := by
  intro hlookup
  obtain ⟨haccepts, before, after, hlist, -⟩ := lookup_eq_some hlookup
  have hwidth : d.pattern.width = w.width := by
    refine (ordered_ofAttempts ds).width_eq w.width d ?_
    rw [hlist]
    exact List.mem_append_right _ List.mem_cons_self
  refine h (hd.exists_word_iff.mp ⟨w.parcel, ?_, haccepts⟩)
  rw [hwidth, Word.isStandard_parcel, Word.width]
  cases w.isStandard <;> decide

namespace Layout

theorem wellFormed_of_compile {text : String} {width : Width} {c : CompiledLayout}
    (h : compile text width = .ok c) : c.pattern.WellFormed ∧ c.pattern.width = width := by
  obtain ⟨layout, -, hwidth, rfl⟩ := compile_eq_ok_iff.mp h
  refine ⟨Pattern.wellFormed_ofCells ?_, rfl⟩
  rw [length_cells, hwidth]
  exact width.bits_le

/-- **A layout that compiles describes an instruction of its width exactly if its low bits
leave room for it.**  Otherwise no catalogue that it is added to ever finds it. -/
theorem exists_word_iff_announcesWidth {text : String} {width : Width} {c : CompiledLayout}
    (h : compile text width = .ok c) :
    ((∃ w : Word, (w.isStandard = true ↔ width = .standard) ∧ c.pattern.accepts w = true) ↔
      c.pattern.AnnouncesWidth) ∧
    (¬c.pattern.AnnouncesWidth → ∀ (ds : List Definition) (w : Word) (d : Definition),
      d.pattern = c.pattern → (Catalogue.ofAttempts ds).lookup w ≠ some d) := by
  obtain ⟨hwell, rfl⟩ := wellFormed_of_compile h
  refine ⟨hwell.exists_word_iff, ?_⟩
  intro hnot ds w d hd
  rw [← hd] at hwell hnot
  exact Catalogue.lookup_ne_of_not_announcesWidth hwell hnot ds w

/-- A layout of 16 bits that ends like one of 32, and is never found. -/
theorem exists_word_iff_announcesWidth_compressed :
    compile "imm[15:2] 11 C.X" .compressed = .ok ⟨"c.x", ⟨0x3#32, 0x3#32, .compressed⟩⟩ ∧
      ∀ (ds : List Definition) (w : Word) (d : Definition),
        d.pattern = ⟨0x3#32, 0x3#32, .compressed⟩ →
          (Catalogue.ofAttempts ds).lookup w ≠ some d := by
  have h : compile "imm[15:2] 11 C.X" .compressed
      = .ok ⟨"c.x", ⟨0x3#32, 0x3#32, .compressed⟩⟩ := by decide +kernel
  exact ⟨h, (exists_word_iff_announcesWidth h).2 (by decide)⟩

/-- The layout of an addition with one digit of its opcode misprinted compiles for 32 bits,
and no word of 32 bits has its pattern. -/
theorem not_exists_word_misprint :
    compile "0000000 rs2 rs1 000 rd 0110010 ADD" .standard
        = .ok ⟨"add", ⟨0xfe00707f#32, 0x32#32, .standard⟩⟩ ∧
      ¬∃ w : Word, (w.isStandard = true ↔ Width.standard = .standard) ∧
        (⟨0xfe00707f#32, 0x32#32, .standard⟩ : Pattern).accepts w = true := by
  refine ⟨by decide +kernel, ?_⟩
  have hwell : (⟨0xfe00707f#32, 0x32#32, .standard⟩ : Pattern).WellFormed := by decide
  intro hword
  exact absurd (hwell.exists_word_iff.mp hword) (by decide)

end Layout
end RiscV
