import Mathlib.Data.List.Pairwise
import RiscV.Proofs.Builtin.Spelling
import RiscV.Proofs.Catalogue.Acceptance
import RiscV.Proofs.Text.Separation

/-!
# The built-in instructions that share words

Hardly any two built-in instructions have a word in common.  Where they do, either
both have one pattern, and a set keeps only one of them, or one is a special case
that is carved out of the other; there are eight such pairs, all of 16 bits.

All built-in definitions are surveyed once, two by two.

## Main definitions

* `Builtin.definitions` — the definitions that the rows of a module stand for.
* `Builtin.carveOuts` — the special cases, each with the instruction it is carved
  out of.
* `Pattern.fullest` — the word of a pattern with all free bits set.
* `Pattern.CarvedFrom` — what there is to know of a special case.

## Main results

* `Builtin.map_define` — every row of a module compiles, and to which definition.
* `Builtin.survey` — the survey, by evaluation.
* `Builtin.related_of_mem` — built-in definitions that share words have one pattern,
  or one is carved out of the other.
* `Builtin.arranged_definitions` — each module by itself is arranged.
-/

namespace RiscV

/-! ### The definitions of a module -/

namespace Layout

/-- The pattern of a layout that is spelled out. -/
def patternOf (width : Width) (cs : List Char) : Pattern :=
  match ofWords (Text.words cs) with
  | .ok layout => .ofCells layout.cells width
  | .error _ => default

/-- A layout that passes a check compiles. -/
theorem compile_of_passes {width : Width} {check : Layout → List Char → Bool}
    {cs : List Char} (h : passes width check cs = true) :
    compile (String.ofList cs) width
      = .ok ⟨String.ofList (mnemonicOf cs), patternOf width cs⟩ := by
  obtain ⟨layout, hparse, hwidth, -⟩ := of_passes h
  rw [compile_eq_ok_iff]
  refine ⟨layout, hparse, hwidth, ?_⟩
  rw [parse, String.toList_ofList] at hparse
  rw [patternOf, hparse, mnemonic_eq_of_ofWords hparse]

end Layout

namespace Builtin

/-- The definitions that the rows of a module stand for. -/
def definitions (m : Builtin) : List Definition :=
  m.spelled.toList.map fun (cs, form) =>
    ⟨String.ofList (Layout.mnemonicOf cs), Layout.patternOf m.table.width cs, form,
      m.table.extension⟩

/-- **Every row of a built-in module compiles**, and to which definition. -/
theorem map_define (m : Builtin) :
    m.table.rows.map m.table.define = m.definitions.map .ok := by
  have hpasses : ∀ m ∈ all, ∀ x ∈ m.spelled.toList,
      Layout.passes m.table.width (fun _ _ => true) x.1 = true := by
    decide +kernel
  rw [congrArg (List.map m.table.define) m.spelled.rows_eq, definitions, List.map_map,
    List.map_map]
  apply List.map_congr_left
  intro x hx
  simp only [Function.comp_apply, Table.define,
    Layout.compile_of_passes (hpasses m m.mem_all x hx)]
  rfl

end Builtin

/-! ### Special cases -/

namespace Pattern

/-- The word of a pattern with all free bits set. -/
def fullest (p : Pattern) : Word := p.value ||| ~~~p.mask

/-- The pattern can be found: the fullest of its words has its width. -/
def Found (p : Pattern) : Prop :=
  p.fullest.width = p.width ∧ p.accepts p.fullest.parcel = true

instance : DecidablePred Found := fun _ => inferInstanceAs (Decidable (_ ∧ _))

/-- `p` is a special case of `q`, for instructions of 16 bits: it fixes more bits, and
the fullest word of `p` is one of `q`, while that of `q` is none of `p`. -/
def CarvedFrom (p q : Pattern) : Prop :=
  (p.width = .compressed ∧ q.width = .compressed) ∧
    (p.refines q = true ∧ q.refines p = false) ∧
    (p.accepts p.fullest.parcel = true ∧ q.accepts p.fullest.parcel = true) ∧
    p.accepts q.fullest.parcel = false

instance (p q : Pattern) : Decidable (CarvedFrom p q) := inferInstanceAs (Decidable (_ ∧ _))

theorem meets_comm (p q : Pattern) : p.meets q = q.meets p := by
  rw [Bool.eq_iff_iff, meets_iff, meets_iff]
  constructor
  · intro h i hq hp
    exact (h i hp hq).symm
  · intro h i hp hq
    exact (h i hq hp).symm

theorem FixesMore.refines {p q : Pattern} (h : p.FixesMore q) : p.refines q = true :=
  refines_iff.mpr h.1

namespace CarvedFrom

variable {p q : Pattern}

theorem meets (h : CarvedFrom p q) : p.meets q = true :=
  meets_of_accepts h.2.2.1.1 h.2.2.1.2

theorem ne (h : CarvedFrom p q) : p ≠ q := by
  rintro rfl
  obtain ⟨hrefines, hnot⟩ := h.2.1
  rw [hrefines] at hnot
  contradiction

/-- A special case may precede what it is carved out of, and not the other way. -/
theorem mayPrecede (h : CarvedFrom p q) : p.MayPrecede q := fun _ => ⟨h.ne, h.2.1.1⟩

theorem not_mayPrecede (h : CarvedFrom p q) : ¬q.MayPrecede p := by
  intro hprecede
  have hrefines := (hprecede (meets_comm p q ▸ h.meets)).2
  rw [h.2.1.2] at hrefines
  contradiction

end CarvedFrom
end Pattern

/-! ### The survey -/

namespace Builtin

/-- The special cases among the built-in instructions, each with the instruction it
is carved out of. -/
def carveOuts : List (String × String) :=
  [("c.illegal", "c.addi4spn"), ("c.nop", "c.addi"), ("c.addi16sp", "c.lui"),
    ("c.jr", "c.mv"), ("c.ebreak", "c.jalr"), ("c.ebreak", "c.add"), ("c.jalr", "c.add"),
    ("c.slli64", "c.slli")]

/-- The one special case that has a module to itself. -/
def slli64 : Definition :=
  ⟨"c.slli64", ⟨0xf07f#32, 0x2#32, .compressed⟩, .unimplemented, .c⟩

/-- The shift it is carved out of. -/
def slli : Definition := ⟨"c.slli", ⟨0xe003#32, 0x2#32, .compressed⟩, .cShift, .c⟩

/-- All definitions with their modules. -/
def listed : List (Builtin × Definition) := all.flatMap fun m => m.definitions.map (m, ·)

/-- How two definitions may share words, the first being listed before the second:
they are of different modules and have one pattern, or the first is carved out of
the second, or they are of different modules and the second is carved out of the
first. -/
def Settled (x y : Builtin × Definition) : Prop :=
  x.2.pattern.width = y.2.pattern.width → x.2.pattern.meets y.2.pattern = true →
    x.1 ≠ y.1 ∧ x.2.pattern = y.2.pattern ∨
    (x.2.mnemonic, y.2.mnemonic) ∈ carveOuts ∨
    x.1 ≠ y.1 ∧ (y.2.mnemonic, x.2.mnemonic) ∈ carveOuts

instance (x y : Builtin × Definition) : Decidable (Settled x y) :=
  inferInstanceAs (Decidable (_ → _ → _))

/-- **The survey of the built-in definitions.**  Each can be found, and only one
module has the pattern of `slli64`; the pairs named as special cases are, and are of
one module with one exception; and there is nothing else that two definitions
share. -/
theorem survey :
    (∀ x ∈ listed, x.2.pattern.Found ∧ (x.2.pattern = slli64.pattern → x.1 = rv128c)) ∧
    (∀ names ∈ carveOuts, ∀ x ∈ listed, x.2.mnemonic = names.1 →
      ∀ y ∈ listed, y.2.mnemonic = names.2 →
        x.2.pattern.CarvedFrom y.2.pattern ∧
          (x.1 = y.1 ∨ x = (rv128c, slli64) ∧ y = (rv32c, slli))) ∧
    Text.pairwise (fun x y => decide (Settled x y)) listed = true := by
  decide +kernel

theorem mem_listed {m : Builtin} {d : Definition} (h : d ∈ m.definitions) :
    (m, d) ∈ listed :=
  List.mem_flatMap.mpr ⟨m, m.mem_all, List.mem_map.mpr ⟨d, h, rfl⟩⟩

theorem pairwise_settled : listed.Pairwise Settled := by
  refine (Text.pairwise_iff.mp survey.2.2).imp ?_
  intro x y h
  exact of_decide_eq_true h

variable {m m' : Builtin} {a b : Definition}

/-- A pair that is named as a special case is one, and is of one module unless it is
the pair of shifts. -/
theorem carvedFrom_of_mem (ha : a ∈ m.definitions) (hb : b ∈ m'.definitions)
    (h : (a.mnemonic, b.mnemonic) ∈ carveOuts) :
    a.pattern.CarvedFrom b.pattern ∧
      (m = m' ∨ (m = rv128c ∧ a = slli64) ∧ m' = rv32c ∧ b = slli) := by
  obtain ⟨hcarved, hmodules⟩ := survey.2.1 _ h (m, a) (mem_listed ha) rfl (m', b)
    (mem_listed hb) rfl
  simp only [Prod.mk.injEq] at hmodules
  exact ⟨hcarved, hmodules⟩

/-- Definitions that share words have one pattern, or one is carved out of the
other. -/
def Related (a b : Definition) : Prop :=
  a.pattern.width = b.pattern.width → a.pattern.meets b.pattern = true →
    a.pattern = b.pattern ∨ (a.mnemonic, b.mnemonic) ∈ carveOuts ∨
      (b.mnemonic, a.mnemonic) ∈ carveOuts

instance : Std.Symm Related where
  symm a b h hwidth hmeets := by
    rw [Pattern.meets_comm] at hmeets
    rcases h hwidth.symm hmeets with heq | hab | hba
    · exact Or.inl heq.symm
    · exact Or.inr (Or.inr hab)
    · exact Or.inr (Or.inl hba)

/-- **All built-in definitions are related.** -/
theorem related_of_mem (ha : a ∈ m.definitions) (hb : b ∈ m'.definitions) : Related a b := by
  have hpairs : (listed.map Prod.snd).Pairwise Related := by
    rw [List.pairwise_map]
    refine pairwise_settled.imp ?_
    intro x y h hwidth hmeets
    rcases h hwidth hmeets with ⟨-, heq⟩ | hxy | ⟨-, hyx⟩
    · exact Or.inl heq
    · exact Or.inr (Or.inl hxy)
    · exact Or.inr (Or.inr hyx)
  -- the survey looks at each pair in one order; the relation is symmetric
  have hrefl : ∀ d ∈ listed.map Prod.snd, Related d d := fun _ _ _ _ => Or.inl rfl
  have hmem : ∀ {m : Builtin} {d : Definition}, d ∈ m.definitions →
      d ∈ listed.map Prod.snd := fun h => List.mem_map.mpr ⟨_, mem_listed h, rfl⟩
  exact hpairs.forall_of_forall hrefl (hmem ha) (hmem hb)

/-- Each module by itself is arranged: no two of its definitions have one pattern, and
each special case stands before what it is carved out of. -/
theorem arranged_definitions (m : Builtin) : Catalogue.Arranged m.definitions := by
  have hpairs := (List.pairwise_flatMap.mp pairwise_settled).1 m m.mem_all
  rw [List.pairwise_map] at hpairs
  refine hpairs.imp_of_mem ?_
  intro a b ha hb h hwidth hmeets
  rcases h hwidth hmeets with ⟨hne, -⟩ | hcarve | ⟨hne, -⟩
  · exact absurd rfl hne
  · exact (carvedFrom_of_mem ha hb hcarve).1.mayPrecede hmeets
  · exact absurd rfl hne

end Builtin

end RiscV
