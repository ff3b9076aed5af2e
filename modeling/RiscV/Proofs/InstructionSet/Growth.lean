import RiscV.Listing
import RiscV.Proofs.InstructionSet.Outcome

/-!
# A set only grows

Tables can be added to a set at any time, and a table that fails part-way leaves some
of its rows behind.  Whatever is added, nothing that was there is lost or moved: new
definitions stand behind the old ones.  A word is looked up from the front, so a word
with an answer keeps it, and its line stays the same.

## Main definitions

* `InstructionSet.Grows` — one set has everything of another, in front.

## Main results

* `InstructionSet.grows_addEach` — adding tables makes a set grow.
* `InstructionSet.Grows.disassemble_eq` — a word with an answer keeps its line.
* `InstructionSet.addEach_conservative` — **adding tables never changes what a word is
  already decoded as.**
-/

namespace RiscV

/-! ### Catalogues -/

namespace Catalogue

/-- A run of attempts leaves the definitions that were there in front. -/
theorem list_prefix_foldl_attempt (c : Catalogue) (ds : List Definition) (width : Width) :
    c.list width <+: (ds.foldl attempt c).list width := by
  obtain ⟨new, hnew, -⟩ := c.list_foldl_attempt ds width
  exact ⟨new, hnew.symm⟩

end Catalogue

namespace InstructionSet

/-! ### Adding tables -/

/-- `s'` has everything of `s`, and what else it has stands behind. -/
structure Grows (s s' : InstructionSet) : Prop where
  /-- The register width is the same. -/
  xlen_eq : s'.xlen = s.xlen
  /-- No extension is lost. -/
  contains_of_contains : ∀ ext, s.extensions.contains ext = true →
    s'.extensions.contains ext = true
  /-- The definitions that were there come first. -/
  list_prefix : ∀ width, s.catalogue.list width <+: s'.catalogue.list width

theorem Grows.refl (s : InstructionSet) : s.Grows s where
  xlen_eq := rfl
  contains_of_contains _ h := h
  list_prefix _ := List.prefix_rfl

theorem Grows.trans {s s' s'' : InstructionSet} (h : s.Grows s') (h' : s'.Grows s'') :
    s.Grows s'' where
  xlen_eq := h'.xlen_eq.trans h.xlen_eq
  contains_of_contains ext hext := h'.contains_of_contains ext (h.contains_of_contains ext hext)
  list_prefix width := (h.list_prefix width).trans (h'.list_prefix width)

/-- A table makes a set grow, also one that fails part-way. -/
theorem grows_add (s : InstructionSet) (t : Table) : s.Grows (s.add t).set where
  xlen_eq := rfl
  contains_of_contains ext hext := by
    show (s.extensions.insert t.extension).contains ext = true
    rw [ExtensionSet.contains_insert, hext, Bool.true_or]
  list_prefix width := by
    obtain ⟨ds, hds, -⟩ := s.catalogue.catalogue_install t t.rows
    show s.catalogue.list width <+: (s.catalogue.install t t.rows).catalogue.list width
    rw [hds]
    exact s.catalogue.list_prefix_foldl_attempt ds width

/-- **Adding tables makes a set grow.** -/
theorem grows_addEach (s : InstructionSet) (ts : List Table) : s.Grows (s.addEach ts) := by
  induction ts generalizing s with
  | nil => exact Grows.refl s
  | cons t ts ih => exact (s.grows_add t).trans (ih (s.add t).set)

/-! ### Words with an answer -/

namespace Grows

variable {s s' : InstructionSet} (h : s.Grows s') {w : Word} {d : Definition}

include h

/-- The first definition that accepts a word is still the first. -/
theorem lookup_eq_some (hd : s.lookup w = some d) : s'.lookup w = some d :=
  (h.list_prefix w.width).find?_eq_some hd

/-- A word with an answer keeps its line. -/
theorem disassemble_eq (hd : s.lookup w = some d) (address : Address) :
    s'.disassemble address w = s.disassemble address w := by
  have hmask : s'.addressMask = s.addressMask := by rw [addressMask, addressMask, h.xlen_eq]
  have hassembly : ∀ a, s'.assemblyAt a w.parcel = s.assemblyAt a w.parcel := by
    intro a
    rw [assemblyAt, assemblyAt, lookup_parcel, lookup_parcel, hd, h.lookup_eq_some hd, hmask]
  unfold disassemble
  rw [hmask, h.xlen_eq, hassembly]

end Grows

/-- **Adding tables never changes what a word is already decoded as.**

Let tables be added to a set, each as far as it goes, whatever set it is and whatever
tables these are.  A word that has an answer keeps it, and its line at every address
is the same as before.  The definitions that were there stay in front, in each of the
two lists; those behind them stand for rows of the tables.  No extension is lost. -/
theorem addEach_conservative (s : InstructionSet) (ts : List Table) :
    (∀ w d, s.lookup w = some d →
      (s.addEach ts).lookup w = some d ∧
      ∀ address, (s.addEach ts).disassemble address w = s.disassemble address w) ∧
    (∀ width, ∃ new, (s.addEach ts).catalogue.list width = s.catalogue.list width ++ new ∧
      ∀ d ∈ new, ∃ t ∈ ts, ∃ row ∈ t.rows, t.define row = .ok d) ∧
    ∀ ext, s.extensions.contains ext = true →
      (s.addEach ts).extensions.contains ext = true := by
  have hgrows := s.grows_addEach ts
  refine ⟨?_, ?_, hgrows.contains_of_contains⟩
  · intro w d hd
    exact ⟨hgrows.lookup_eq_some hd, hgrows.disassemble_eq hd⟩
  · intro width
    obtain ⟨ds, hds, hrows⟩ := s.catalogue_addEach ts
    obtain ⟨new, hnew, hsublist⟩ := s.catalogue.list_foldl_attempt ds width
    refine ⟨new, by rw [hds, hnew], ?_⟩
    intro d hd
    exact hrows d (hsublist.subset hd)

/-- A special case that comes too late: the table with it fails after its first row,
and the word of the special case is decoded as before. -/
theorem addEach_conservative_nop :
    let addi : Row := ⟨"000 nzimm[5] rs1/rd!=0 nzimm[4:0] 01 C.ADDI", .cAddImm⟩
    let li : Row := ⟨"010 imm[5] rd!=0 imm[4:0] 01 C.LI", .cLoadImm⟩
    let nop : Row := ⟨"000 nzimm[5] 00000 nzimm[4:0] 01 C.NOP", .cNop⟩
    let d : Definition := ⟨"c.addi", ⟨0xe003#32, 0x1#32, .compressed⟩, .cAddImm, .c⟩
    let s := (empty .rv64).addEach [⟨"base", .c, .compressed, [addi]⟩]
    let late : Table := ⟨"late", .x, .compressed, [li, nop]⟩
    (s.add late).failure.isSome = true ∧
    s.lookup 0x1#32 = some d ∧ (s.addEach [late]).lookup 0x1#32 = some d ∧
    (∀ address, (s.addEach [late]).disassemble address 0x1#32 = s.disassemble address 0x1#32) ∧
    ((s.addEach [late]).catalogue.list .compressed).length = 2 ∧
    (s.addEach [late]).extensions.contains .c = true := by
  intro addi li nop d s late
  have hlookup : s.lookup 0x1#32 = some d := by decide +kernel
  have hkept := s.addEach_conservative [late]
  obtain ⟨hanswer, hline⟩ := hkept.1 0x1#32 d hlookup
  exact ⟨by decide +kernel, hlookup, hanswer, hline, by decide +kernel,
    hkept.2.2 .c (by decide +kernel)⟩

end InstructionSet
end RiscV
