import Mathlib.Data.List.Nodup
import RiscV.Operands
import RiscV.Proofs.Word

/-!
# Wires

A scattered operand is a matter of wires: each leads from a bit of the word to a
bit of the operand.  What the wires carry depends on which wires there are, not
on how they are listed or bundled into runs, so two ways of describing an operand
are compared by comparing their wires.

## Main definitions

* `Wire`, `wired` — a wire, and the number that several wires carry.
* `Run.wires` — the wires of a run.

## Main results

* `testBit_wired` — a bit of the number carried.
* `wired_congr` — the same wires, from set bits, carry the same number.
* `toNat_gather` — what runs make up is what their wires carry.
* `getLsbD_eq_of_wired_eq` — the number carried determines the word bits, if no
  two wires end in one place.
-/

namespace RiscV

/-- A wire from a bit of the word to a bit of an operand. -/
structure Wire where
  /-- The bit of the operand. -/
  place : Nat
  /-- The bit of the word. -/
  bit : Nat
  deriving DecidableEq, Repr

/-- The number that wires carry from a word: each sets the bit at its place. -/
def wired (ws : List Wire) (w : Word) : Nat :=
  ws.foldr (fun wire n => (if w.getLsbD wire.bit then 2 ^ wire.place else 0) ||| n) 0

@[simp] theorem wired_nil (w : Word) : wired [] w = 0 := rfl

@[simp] theorem wired_cons (wire : Wire) (ws : List Wire) (w : Word) :
    wired (wire :: ws) w
      = (if w.getLsbD wire.bit then 2 ^ wire.place else 0) ||| wired ws w := rfl

theorem testBit_wired (ws : List Wire) (w : Word) (j : Nat) :
    (wired ws w).testBit j = ws.any fun wire => wire.place == j && w.getLsbD wire.bit := by
  induction ws with
  | nil => simp
  | cons wire ws ih =>
    rw [wired_cons, Nat.testBit_or, ih, List.any_cons]
    congr 1
    split
    · next h => simp [h, Nat.testBit_two_pow, Bool.beq_eq_decide_eq]
    · next h => simp [h]

/-- Wires from the same set bits carry the same number, however they are listed. -/
theorem wired_congr {ws ws' : List Wire} {w : Word}
    (h : ∀ wire, w.getLsbD wire.bit = true → (wire ∈ ws ↔ wire ∈ ws')) :
    wired ws w = wired ws' w := by
  apply Nat.eq_of_testBit_eq
  intro j
  rw [testBit_wired, testBit_wired, Bool.eq_iff_iff, List.any_eq_true, List.any_eq_true]
  refine exists_congr fun wire => and_congr_left ?_
  rw [Bool.and_eq_true]
  rintro ⟨-, hbit⟩
  exact h wire hbit

/-- The number of bits up to the highest place that wires end in. -/
def extent (ws : List Wire) : Nat := ws.foldr (fun wire n => max (wire.place + 1) n) 0

theorem place_lt_extent {ws : List Wire} {wire : Wire} (hwire : wire ∈ ws) :
    wire.place < extent ws := by
  unfold extent
  induction ws with
  | nil => contradiction
  | cons other ws ih =>
    rw [List.foldr_cons]
    rcases List.mem_cons.mp hwire with rfl | hwire
    · omega
    · have hlt := ih hwire
      omega

theorem extent_le {ws : List Wire} {n : Nat} (h : ∀ wire ∈ ws, wire.place < n) :
    extent ws ≤ n := by
  unfold extent
  induction ws with
  | nil => exact Nat.zero_le n
  | cons wire ws ih =>
    rw [List.forall_mem_cons] at h
    rw [List.foldr_cons]
    exact Nat.max_le.mpr ⟨h.1, ih h.2⟩

/-- Wires that end below bit `n` carry a number of `n` bits. -/
theorem wired_lt {ws : List Wire} {n : Nat} (h : ∀ wire ∈ ws, wire.place < n) (w : Word) :
    wired ws w < 2 ^ n := by
  apply Nat.lt_pow_two_of_testBit
  intro j hj
  rw [testBit_wired, List.any_eq_false]
  intro wire hwire
  have hplace := h wire hwire
  rw [beq_eq_false_iff_ne.mpr (by omega), Bool.false_and]
  decide

/-- Wires that end at bit `n` or above carry a multiple of `2 ^ n`. -/
theorem two_pow_dvd_wired {ws : List Wire} {n : Nat} (h : ∀ wire ∈ ws, n ≤ wire.place)
    (w : Word) : 2 ^ n ∣ wired ws w := by
  apply Nat.dvd_of_mod_eq_zero
  apply Nat.eq_of_testBit_eq
  intro j
  rw [Nat.testBit_mod_two_pow, Nat.zero_testBit]
  rcases Nat.lt_or_ge j n with hj | hj
  · rw [testBit_wired, Bool.and_eq_false_iff]
    refine Or.inr (List.any_eq_false.mpr ?_)
    intro wire hwire
    have hplace := h wire hwire
    rw [beq_eq_false_iff_ne.mpr (by omega), Bool.false_and]
    decide
  · rw [decide_eq_false (by omega), Bool.false_and]

/-- If no two wires end in one place, a bit carried is the bit of its wire. -/
theorem testBit_wired_place {ws : List Wire} (hnodup : (ws.map Wire.place).Nodup) {wire : Wire}
    (hwire : wire ∈ ws) (w : Word) : (wired ws w).testBit wire.place = w.getLsbD wire.bit := by
  rw [testBit_wired, Bool.eq_iff_iff, List.any_eq_true]
  constructor
  · rintro ⟨other, hother, hbit⟩
    rw [Bool.and_eq_true, beq_iff_eq] at hbit
    -- no other wire ends in this place
    obtain rfl := List.inj_on_of_nodup_map hnodup hother hwire hbit.1
    exact hbit.2
  · intro hbit
    exact ⟨wire, hwire, by rw [beq_self_eq_true, hbit, Bool.and_true]⟩

/-- **The number carried determines the word bits**, if no two wires end in one
place. -/
theorem getLsbD_eq_of_wired_eq {ws : List Wire} (hnodup : (ws.map Wire.place).Nodup)
    {w w' : Word} (h : wired ws w = wired ws w') {wire : Wire} (hwire : wire ∈ ws) :
    w.getLsbD wire.bit = w'.getLsbD wire.bit := by
  rw [← testBit_wired_place hnodup hwire w, h, testBit_wired_place hnodup hwire w']

/-! ### Runs -/

/-- The wires of a run, from its lowest bit up. -/
def Run.wires (r : Run) : List Wire :=
  (List.range (r.hi - r.lo + 1)).map fun k => ⟨r.place + k, r.lo + k⟩

theorem Run.mem_wires {r : Run} {wire : Wire} :
    wire ∈ r.wires ↔ ∃ k ≤ r.hi - r.lo, wire = ⟨r.place + k, r.lo + k⟩ := by
  simp only [Run.wires, List.mem_map, List.mem_range, Nat.lt_succ_iff, eq_comm]

theorem Run.getLsbD_read (r : Run) (w : Word) {j : Nat} (hj : j < 32) :
    (r.read w).getLsbD j = r.wires.any fun wire => wire.place == j && w.getLsbD wire.bit := by
  rw [Run.read, BitVec.getLsbD_shiftLeft, Word.getLsbD_bits, Bool.eq_iff_iff, List.any_eq_true]
  constructor
  · intro h
    simp only [Bool.and_eq_true, Bool.not_eq_true', decide_eq_true_eq, decide_eq_false_iff_not]
      at h
    obtain ⟨⟨-, hplace⟩, hle, hbit⟩ := h
    refine ⟨⟨j, r.lo + (j - r.place)⟩, ?_, by simp [hbit]⟩
    exact Run.mem_wires.mpr ⟨j - r.place, hle, by congr 1; omega⟩
  · rintro ⟨wire, hwire, hbit⟩
    obtain ⟨k, hk, rfl⟩ := Run.mem_wires.mp hwire
    rw [Bool.and_eq_true, beq_iff_eq] at hbit
    obtain ⟨rfl, hbit⟩ := hbit
    simp [hj, hk, hbit]

theorem getLsbD_gather (rs : List Run) (w : Word) {j : Nat} (hj : j < 32) :
    (gather rs w).getLsbD j
      = (rs.flatMap Run.wires).any fun wire => wire.place == j && w.getLsbD wire.bit := by
  induction rs with
  | nil => simp
  | cons r rs ih =>
    rw [gather_cons, BitVec.getLsbD_or, Run.getLsbD_read r w hj, ih, List.flatMap_cons,
      List.any_append]

/-- **What runs make up is what their wires carry**, if it fits in a word. -/
theorem toNat_gather {rs : List Run} (h : ∀ wire ∈ rs.flatMap Run.wires, wire.place < 32)
    (w : Word) : (gather rs w).toNat = wired (rs.flatMap Run.wires) w := by
  apply Nat.eq_of_testBit_eq
  intro j
  -- a word has no bits beyond 32, and by hypothesis neither has the number
  rcases Nat.lt_or_ge j 32 with hj | hj
  · rw [BitVec.testBit_toNat, getLsbD_gather rs w hj, testBit_wired]
  · have hlt : wired (rs.flatMap Run.wires) w < 2 ^ j :=
      Nat.lt_of_lt_of_le (wired_lt h w) (Nat.pow_le_pow_right (by decide) hj)
    rw [BitVec.testBit_toNat, BitVec.getLsbD_of_ge _ j hj, Nat.testBit_lt_two_pow hlt]

end RiscV
