import Mathlib.Data.Set.Basic
import RiscV.Proofs.Pattern

/-!
# Patterns as sets of words

A pattern stands for the words that it accepts.  The tests on patterns only look at
masks and values; here they are compared with what they stand for.  This needs that
the value of a pattern has no bit outside its mask: a pattern with such a bit accepts
no word at all, and the tests cannot tell.

## Main definitions

* `Pattern.words` — the words of a pattern.
* `Pattern.WellFormed` — the value has no bit outside the mask.

## Main results

* `Pattern.meets_iff_nonempty` — patterns meet exactly if they have a common word.
* `Pattern.words_subset_iff` — the words of one pattern are among those of another
  exactly if the two meet and the first refines the second.
* `Pattern.eq_of_words_eq` — a pattern is told by its words and its width.
* `Pattern.tests_iff_words` — **the tests decide the relations they stand for.**
-/

namespace RiscV
namespace Pattern

/-- The words that have the fixed bits of the pattern. -/
def words (p : Pattern) : Set Word := {w | p.accepts w = true}

/-- The value has no bit outside the mask. -/
def WellFormed (p : Pattern) : Prop := p.value &&& ~~~p.mask = 0#32

instance (p : Pattern) : Decidable p.WellFormed := inferInstanceAs (Decidable (_ = _))

theorem mem_words {p : Pattern} {w : Word} : w ∈ p.words ↔ p.accepts w = true := Iff.rfl

/-! ### Words, bit by bit -/

theorem WellFormed.getLsbD_mask {p : Pattern} (h : p.WellFormed) {i : Nat}
    (hi : p.value.getLsbD i = true) : p.mask.getLsbD i = true := by
  have hlt : i < 32 := BitVec.lt_of_getLsbD hi
  have hbit := congrArg (fun v : Word => v.getLsbD i) h
  simpa [hi, hlt] using hbit

/-- The words of a well-formed pattern are those with its value wherever it is fixed. -/
theorem WellFormed.mem_words_iff {p : Pattern} (h : p.WellFormed) {w : Word} :
    w ∈ p.words ↔ ∀ i, p.mask.getLsbD i = true → w.getLsbD i = p.value.getLsbD i := by
  constructor
  · intro hw i hi
    exact getLsbD_eq_of_accepts hw hi
  · intro hw
    rw [mem_words, accepts_iff]
    apply BitVec.eq_of_getLsbD_eq
    intro i _
    rw [BitVec.getLsbD_and]
    cases hmask : p.mask.getLsbD i with
    | true => rw [Bool.and_true, hw i hmask]
    | false =>
      -- outside the mask the value has no bit either
      rw [Bool.and_false]
      refine (Bool.eq_false_iff.mpr ?_).symm
      intro hvalue
      rw [h.getLsbD_mask hvalue] at hmask
      contradiction

theorem WellFormed.value_mem {p : Pattern} (h : p.WellFormed) : p.value ∈ p.words :=
  h.mem_words_iff.mpr fun _ _ => rfl

/-- A bit that is not fixed can be turned over. -/
theorem WellFormed.flip_mem {p : Pattern} (h : p.WellFormed) {i : Nat}
    (hi : p.mask.getLsbD i = false) : p.value ^^^ BitVec.twoPow 32 i ∈ p.words := by
  rw [h.mem_words_iff]
  intro j hj
  have hne : i ≠ j := by
    intro heq
    rw [heq, hj] at hi
    contradiction
  rw [BitVec.getLsbD_xor, BitVec.getLsbD_twoPow, decide_eq_false hne, Bool.and_false,
    Bool.xor_false]

/-! ### The tests -/

section Tests

variable {p q : Pattern}

/-- Patterns that agree where both are fixed have a common word: the one with the
bits of both values. -/
theorem or_mem_of_meets (hp : p.WellFormed) (hq : q.WellFormed) (h : p.meets q = true) :
    p.value ||| q.value ∈ p.words ∩ q.words := by
  rw [meets_iff] at h
  constructor
  · rw [hp.mem_words_iff]
    intro i hi
    rw [BitVec.getLsbD_or]
    cases hvalue : q.value.getLsbD i with
    | false => rw [Bool.or_false]
    | true => rw [h i hi (hq.getLsbD_mask hvalue), hvalue, Bool.or_true]
  · rw [hq.mem_words_iff]
    intro i hi
    rw [BitVec.getLsbD_or]
    cases hvalue : p.value.getLsbD i with
    | false => rw [Bool.false_or]
    | true => rw [← h i (hp.getLsbD_mask hvalue) hi, hvalue, Bool.true_or]

/-- **Patterns meet exactly if they have a common word.** -/
theorem meets_iff_nonempty (hp : p.WellFormed) (hq : q.WellFormed) :
    p.meets q = true ↔ (p.words ∩ q.words).Nonempty := by
  constructor
  · intro h
    exact ⟨_, or_mem_of_meets hp hq h⟩
  · rintro ⟨w, hwp, hwq⟩
    exact meets_of_accepts hwp hwq

/-- A pattern whose words are all words of another fixes every bit that the other
fixes: else two of its words would differ in such a bit. -/
theorem refines_of_words_subset (hp : p.WellFormed) (h : p.words ⊆ q.words) :
    p.refines q = true := by
  rw [refines_iff]
  intro i hi
  by_contra hfree
  have hfree : p.mask.getLsbD i = false := Bool.eq_false_iff.mpr hfree
  have hvalue := getLsbD_eq_of_accepts (h hp.value_mem) hi
  have hflip := getLsbD_eq_of_accepts (h (hp.flip_mem hfree)) hi
  have hlt : i < 32 := BitVec.lt_of_getLsbD hi
  rw [← hvalue, BitVec.getLsbD_xor, BitVec.getLsbD_twoPow, decide_eq_true hlt,
    decide_eq_true rfl] at hflip
  simp at hflip

/-- **The words of one pattern are among those of another exactly if the two meet and
the first refines the second.** -/
theorem words_subset_iff (hp : p.WellFormed) (hq : q.WellFormed) :
    p.words ⊆ q.words ↔ p.meets q = true ∧ p.refines q = true := by
  constructor
  · intro h
    exact ⟨meets_of_accepts hp.value_mem (h hp.value_mem), refines_of_words_subset hp h⟩
  · rintro ⟨hmeets, hrefines⟩ w hw
    rw [meets_iff] at hmeets
    rw [refines_iff] at hrefines
    rw [hq.mem_words_iff]
    intro i hi
    -- a bit that `q` fixes is one that `p` fixes, to the same value
    rw [getLsbD_eq_of_accepts hw (hrefines i hi), hmeets i (hrefines i hi) hi]

/-- The mask and the value of a pattern are told by its words. -/
theorem mask_value_of_words_eq (hp : p.WellFormed) (hq : q.WellFormed) (h : p.words = q.words) :
    p.mask = q.mask ∧ p.value = q.value := by
  have hpq := refines_iff.mp (refines_of_words_subset hp h.subset)
  have hqp := refines_iff.mp (refines_of_words_subset hq h.symm.subset)
  have hmask : p.mask = q.mask := by
    apply BitVec.eq_of_getLsbD_eq
    intro i _
    exact Bool.eq_iff_iff.mpr ⟨hqp i, hpq i⟩
  -- the value of one is a word of the other
  have hvalue : p.value &&& q.mask = q.value := accepts_iff.mp (h.subset hp.value_mem)
  refine ⟨hmask, ?_⟩
  rw [← hvalue, ← hmask]
  exact (accepts_iff.mp hp.value_mem).symm

/-- **A pattern is told by its words and its width.** -/
theorem eq_of_words_eq (hp : p.WellFormed) (hq : q.WellFormed) (hwidth : p.width = q.width)
    (h : p.words = q.words) : p = q := by
  obtain ⟨hmask, -⟩ := mask_value_of_words_eq hp hq h
  exact eq_of_accepts hmask hwidth hp.value_mem (h.subset hp.value_mem)

/-- **The tests on patterns decide the relations they stand for.**

Let the values of two patterns have no bit outside their masks.  The patterns meet exactly
if some word has the fixed bits of both.  One refines the other and meets it exactly if all
of its words are words of the other.  So the two have the same words exactly if their masks
and their values are equal. -/
theorem tests_iff_words (hp : p.WellFormed) (hq : q.WellFormed) :
    (p.meets q = true ↔ ∃ w, p.accepts w = true ∧ q.accepts w = true) ∧
    (p.refines q = true ∧ p.meets q = true ↔ ∀ w, p.accepts w = true → q.accepts w = true) ∧
    ((∀ w, p.accepts w = true ↔ q.accepts w = true) ↔ p.mask = q.mask ∧ p.value = q.value) := by
  refine ⟨meets_iff_nonempty hp hq, ?_, ?_⟩
  · rw [and_comm, ← words_subset_iff hp hq]
    exact Iff.rfl
  · constructor
    · intro h
      exact mask_value_of_words_eq hp hq (Set.ext h)
    · rintro ⟨hmask, hvalue⟩ w
      rw [accepts_iff, accepts_iff, hmask, hvalue]

end Tests

/-- A shift, the same shift without an amount, and a load: the second has only words of the
first, but not all of them, and neither has a word of the third. -/
theorem tests_iff_words_shift :
    let slli : Pattern := ⟨0xe003#32, 0x2#32, .compressed⟩
    let slli64 : Pattern := ⟨0xf07f#32, 0x2#32, .compressed⟩
    let lwsp : Pattern := ⟨0xe003#32, 0x4002#32, .compressed⟩
    (∀ w, slli64.accepts w = true → slli.accepts w = true) ∧
    (¬∀ w, slli64.accepts w = true ↔ slli.accepts w = true) ∧
    ¬∃ w, slli64.accepts w = true ∧ lwsp.accepts w = true := by
  intro slli slli64 lwsp
  have hshifts := tests_iff_words (p := slli64) (q := slli) (by decide) (by decide)
  have hload := tests_iff_words (p := slli64) (q := lwsp) (by decide) (by decide)
  refine ⟨hshifts.2.1.mp (by decide), ?_, ?_⟩
  · rw [hshifts.2.2]
    decide
  · rw [← hload.1]
    decide

end Pattern
end RiscV
