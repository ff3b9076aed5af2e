import RiscV.Pattern

/-!
# The bit tests on patterns

The tests on patterns are equations between masked words.  Here they are read
bit by bit: a word is accepted when it has the value at every bit of the mask,
and two patterns meet when their values agree wherever both are fixed.

## Main definitions

* `Pattern.FixesMore` — the mask of one pattern strictly contains that of another.
* `Pattern.MayPrecede` — an earlier pattern that shares words with a later one
  is a different one and fixes every bit that the later one fixes.

## Main results

* `Pattern.meets_of_accepts` — patterns that accept a common word meet.
* `Pattern.MayPrecede.fixesMore` — of two patterns of one width that accept a
  common word, the one that may precede fixes strictly more bits.
-/

namespace RiscV
namespace Pattern

/-! ### The tests, bit by bit -/

theorem accepts_iff {p : Pattern} {w : Word} :
    p.accepts w = true ↔ w &&& p.mask = p.value := by
  rw [accepts, beq_iff_eq]

theorem meets_iff {p q : Pattern} :
    p.meets q = true ↔ ∀ i, p.mask.getLsbD i = true → q.mask.getLsbD i = true →
      p.value.getLsbD i = q.value.getLsbD i := by
  rw [meets, beq_iff_eq]
  constructor
  · intro h i hp hq
    have hi := congrArg (fun v : Word => v.getLsbD i) h
    simpa [hp, hq] using hi
  · intro h
    apply BitVec.eq_of_getLsbD_eq
    intro i _
    specialize h i
    simp only [BitVec.getLsbD_and, BitVec.getLsbD_xor, BitVec.getLsbD_zero]
    cases hp : p.mask.getLsbD i <;> cases hq : q.mask.getLsbD i <;> simp_all

theorem refines_iff {p q : Pattern} :
    p.refines q = true ↔ ∀ i, q.mask.getLsbD i = true → p.mask.getLsbD i = true := by
  rw [refines, beq_iff_eq]
  constructor
  · intro h i hq
    have hi := congrArg (fun v : Word => v.getLsbD i) h
    simpa [hq] using hi
  · intro h
    apply BitVec.eq_of_getLsbD_eq
    intro i _
    specialize h i
    rw [BitVec.getLsbD_and]
    cases hq : q.mask.getLsbD i <;> simp_all

/-- At a fixed bit, an accepted word has the value of the pattern. -/
theorem getLsbD_eq_of_accepts {p : Pattern} {w : Word} (h : p.accepts w = true) {i : Nat}
    (hi : p.mask.getLsbD i = true) : w.getLsbD i = p.value.getLsbD i := by
  rw [← accepts_iff.mp h, BitVec.getLsbD_and, hi, Bool.and_true]

/-! ### Patterns with a common word -/

theorem meets_self (p : Pattern) : p.meets p = true := by
  rw [meets_iff]
  intro i _ _
  rfl

/-- Patterns that accept a common word agree on every bit that both fix. -/
theorem meets_of_accepts {p q : Pattern} {w : Word} (hp : p.accepts w = true)
    (hq : q.accepts w = true) : p.meets q = true := by
  rw [meets_iff]
  intro i hip hiq
  rw [← getLsbD_eq_of_accepts hp hip, getLsbD_eq_of_accepts hq hiq]

/-- A mask, a width and one accepted word determine a pattern. -/
theorem eq_of_accepts {p q : Pattern} {w : Word} (hmask : p.mask = q.mask)
    (hwidth : p.width = q.width) (hp : p.accepts w = true) (hq : q.accepts w = true) :
    p = q := by
  have hvalue : p.value = q.value := by
    rw [← accepts_iff.mp hp, ← accepts_iff.mp hq, hmask]
  cases p
  cases q
  simp_all

/-! ### Order -/

/-- The mask of `p` strictly contains the mask of `q`. -/
def FixesMore (p q : Pattern) : Prop :=
  (∀ i, q.mask.getLsbD i = true → p.mask.getLsbD i = true) ∧ p.mask ≠ q.mask

theorem FixesMore.asymm {p q : Pattern} (h : p.FixesMore q) : ¬q.FixesMore p := by
  intro h'
  apply h.2
  apply BitVec.eq_of_getLsbD_eq
  intro i _
  exact Bool.eq_iff_iff.mpr ⟨h'.1 i, h.1 i⟩

/-- `p` may stand before `q` in a list that is searched from the front: if the
two meet, they differ and `p` is at least as specific. -/
def MayPrecede (p q : Pattern) : Prop :=
  p.meets q = true → p ≠ q ∧ p.refines q = true

theorem MayPrecede.ne {p q : Pattern} (h : p.MayPrecede q) : p ≠ q := by
  rintro rfl
  exact (h p.meets_self).1 rfl

/-- A pattern that may precede another and accepts one of its words fixes
strictly more bits: with equal masks the two would be the same pattern. -/
theorem MayPrecede.fixesMore {p q : Pattern} {w : Word} (h : p.MayPrecede q)
    (hwidth : p.width = q.width) (hp : p.accepts w = true) (hq : q.accepts w = true) :
    p.FixesMore q := by
  obtain ⟨hne, hrefines⟩ := h (meets_of_accepts hp hq)
  refine ⟨refines_iff.mp hrefines, ?_⟩
  intro hmask
  exact hne (eq_of_accepts hmask hwidth hp hq)

end Pattern
end RiscV
