import RiscV.Proofs.InstructionSet.Growth

/-!
# Tables that come again

A table that was added without error can be added again at any later time: every row
of it is recognised, whatever came in between, and nothing changes.  It is the order
of the catalogue that brings this about.  A definition that shares words with an
earlier one of another pattern could hide the one it repeats; in order, what stands
before a pattern and shares words with it is always passed over.

So a set is told by the first occurrence of each of its tables.

## Main definitions

* `Catalogue.Knows` — the pattern of a definition is there.
* `InstructionSet.Holds` — a set has all that a table would add.

## Main results

* `Catalogue.knows_of_pushAll`, `Catalogue.pushAll_of_knows` — definitions that were
  added are known, and definitions that are known can be added without change.
* `InstructionSet.holds_add`, `InstructionSet.Holds.add_eq` — the same for tables.
* `InstructionSet.result_addAll_eraseDups` — of tables that are added in order, only
  first occurrences count.
* `InstructionSet.add_again` — **repeating a table is harmless**, and so is repeating
  modules when a set is built.
-/

namespace RiscV

/-! ### Extensions -/

/-- An extension that is there can be inserted without change. -/
theorem ExtensionSet.insert_of_contains {set : ExtensionSet} {ext : Extension}
    (h : set.contains ext = true) : set.insert ext = set := by
  -- an extension has one bit only, so it is there as a whole
  have hbit : ext.bit = BitVec.twoPow 32 (ext.letter.toNat - 'a'.toNat) :=
    BitVec.twoPow_eq 32 _ ▸ rfl
  rw [contains, hbit, BitVec.and_twoPow] at h
  have hset : set.bits.getLsbD (ext.letter.toNat - 'a'.toNat) = true := by
    by_contra hclear
    rw [if_neg hclear] at h
    contradiction
  have hbits : set.bits ||| ext.bit = set.bits := by
    apply BitVec.eq_of_getLsbD_eq
    intro i _
    rw [BitVec.getLsbD_or, hbit, BitVec.getLsbD_twoPow]
    by_cases hi : ext.letter.toNat - 'a'.toNat = i
    · rw [← hi, hset, Bool.true_or]
    · rw [decide_eq_false hi, Bool.and_false, Bool.or_false]
  rw [insert, hbits]

/-! ### Definitions -/

namespace Catalogue

/-- The pattern of a definition is in the list of its width. -/
def Knows (c : Catalogue) (d : Definition) : Prop :=
  d.pattern ∈ (c.list d.pattern.width).map Definition.pattern

/-- A run without error is a run of attempts. -/
theorem eq_foldl_attempt_of_pushAll {c c' : Catalogue} {ds : List Definition}
    (h : c.pushAll ds = .ok c') : c' = ds.foldl attempt c := by
  induction ds generalizing c with
  | nil => exact (Except.ok.inj h).symm
  | cons d ds ih =>
    cases hpush : c.push d with
    | error e =>
      rw [pushAll_cons_of_error hpush] at h
      contradiction
    | ok pushed =>
      rw [pushAll_cons_of_ok hpush] at h
      rw [ih h, List.foldl_cons, attempt_of_push hpush]

theorem Knows.mono {c c' : Catalogue} {d : Definition} (h : c.Knows d)
    (hfront : c.list d.pattern.width <+: c'.list d.pattern.width) : c'.Knows d :=
  (hfront.map Definition.pattern).subset h

/-- In order, a definition that is not refused is known afterwards. -/
theorem knows_of_push {c c' : Catalogue} {r : Insertion} {d : Definition} (hc : c.Ordered)
    (h : c.push d = .ok (c', r)) : c'.Knows d := by
  rcases push_cases hc d with ⟨hmem, kept, hpush⟩ | ⟨-, -, hpush⟩ | ⟨-, old, -, -, -, hpush⟩
  · obtain ⟨rfl, -⟩ := Prod.mk.inj (Except.ok.inj (hpush.symm.trans h))
    exact hmem
  · obtain ⟨rfl, -⟩ := Prod.mk.inj (Except.ok.inj (hpush.symm.trans h))
    rw [Knows, list_append_self, List.map_append]
    exact List.mem_append_right _ List.mem_cons_self
  · rw [hpush] at h
    contradiction

/-- In order, definitions that were added without error are known afterwards. -/
theorem knows_of_pushAll {c c' : Catalogue} {ds : List Definition} (hc : c.Ordered)
    (h : c.pushAll ds = .ok c') : ∀ d ∈ ds, c'.Knows d := by
  induction ds generalizing c with
  | nil => simp
  | cons e ds ih =>
    cases hpush : c.push e with
    | error error =>
      rw [pushAll_cons_of_error hpush] at h
      contradiction
    | ok pushed =>
      rw [pushAll_cons_of_ok hpush] at h
      have hordered : pushed.1.Ordered := attempt_of_push hpush ▸ hc.attempt e
      intro d hd
      rcases List.mem_cons.mp hd with rfl | hd
      · -- what is known after one definition is known after those behind it
        have hfront := pushed.1.list_prefix_foldl_attempt ds d.pattern.width
        rw [← eq_foldl_attempt_of_pushAll h] at hfront
        exact (knows_of_push hc hpush).mono hfront
      · exact ih hordered h d hd

/-- In order, definitions that are known can be added without change. -/
theorem pushAll_of_knows {c : Catalogue} {ds : List Definition} (hc : c.Ordered)
    (h : ∀ d ∈ ds, c.Knows d) : c.pushAll ds = .ok c := by
  induction ds with
  | nil => rfl
  | cons d ds ih =>
    have hd : c.Knows d := h d List.mem_cons_self
    rcases push_cases hc d with ⟨-, kept, hpush⟩ | ⟨hnew, -⟩ | ⟨hnew, -⟩
    · rw [pushAll_cons_of_ok hpush]
      exact ih fun e he => h e (List.mem_cons_of_mem d he)
    · exact absurd hd hnew
    · exact absurd hd hnew

/-- Rows that were added without error compile. -/
theorem exists_definitions_of_install {c : Catalogue} {t : Table} {rows : List Row}
    (h : (c.install t rows).failure = none) :
    ∃ ds : List Definition, rows.map t.define = ds.map .ok := by
  induction rows generalizing c with
  | nil => exact ⟨[], rfl⟩
  | cons row rows ih =>
    rw [install] at h
    split at h
    · contradiction
    · next d hd =>
      have hrest : (∃ ds : List Definition, rows.map t.define = ds.map .ok) →
          ∃ ds : List Definition, (row :: rows).map t.define = ds.map .ok := by
        rintro ⟨ds, hds⟩
        exact ⟨d :: ds, by rw [List.map_cons, List.map_cons, hd, hds]⟩
      split at h
      · contradiction
      · exact hrest (ih h)
      · exact hrest (ih h)

end Catalogue

/-! ### Tables -/

namespace InstructionSet

/-- The set has all that a table would add: its extension, and the patterns of its
rows, all of which compile. -/
structure Holds (s : InstructionSet) (t : Table) : Prop where
  /-- The extension is there. -/
  contains : s.extensions.contains t.extension = true
  /-- The rows compile, and their patterns are there. -/
  knows : ∃ ds : List Definition,
    t.rows.map t.define = ds.map .ok ∧ ∀ d ∈ ds, s.catalogue.Knows d

variable {s s' : InstructionSet} {t : Table}

theorem Holds.mono (h : s.Holds t) (hgrows : s.Grows s') : s'.Holds t := by
  obtain ⟨ds, hds, hknows⟩ := h.knows
  refine ⟨hgrows.contains_of_contains _ h.contains, ds, hds, ?_⟩
  intro d hd
  exact (hknows d hd).mono (hgrows.list_prefix _)

/-- A set holds a table that was added to it without error. -/
theorem holds_add (hs : s.catalogue.Ordered) (h : (s.add t).failure = none) :
    (s.add t).set.Holds t := by
  have hfailure : (s.catalogue.install t t.rows).failure = none := h
  obtain ⟨ds, hds⟩ := Catalogue.exists_definitions_of_install hfailure
  have hpush : s.catalogue.pushAll ds = .ok (s.add t).set.catalogue := by
    rw [← s.catalogue.result_install t hds, Installation.result, hfailure]
    rfl
  refine ⟨?_, ds, hds, Catalogue.knows_of_pushAll hs hpush⟩
  show (s.extensions.insert t.extension).contains t.extension = true
  rw [ExtensionSet.contains_insert, decide_eq_true rfl, Bool.or_true]

/-- A table that a set holds can be added without error, and without change. -/
theorem Holds.add_eq (h : s.Holds t) (hs : s.catalogue.Ordered) :
    (s.add t).failure = none ∧ (s.add t).set = s := by
  obtain ⟨ds, hds, hknows⟩ := h.knows
  have hresult := s.catalogue.result_install t hds
  rw [Catalogue.pushAll_of_knows hs hknows] at hresult
  obtain ⟨hfailure, hcatalogue⟩ := Installation.result_ok hresult
  refine ⟨hfailure, ?_⟩
  rw [add, hcatalogue, ExtensionSet.insert_of_contains h.contains]

theorem ordered_addEach (hs : s.catalogue.Ordered) (ts : List Table) :
    (s.addEach ts).catalogue.Ordered := by
  obtain ⟨ds, hds, -⟩ := s.catalogue_addEach ts
  rw [hds]
  exact hs.foldl_attempt ds

theorem ordered_add (hs : s.catalogue.Ordered) (t : Table) : (s.add t).set.catalogue.Ordered :=
  ordered_addEach hs [t]

/-! ### First occurrences -/

theorem result_addAll_cons (s : InstructionSet) (t : Table) (ts : List Table) :
    (s.addAll (t :: ts)).result = match (s.add t).failure with
      | some e => .error e
      | none => ((s.add t).set.addAll ts).result := by
  rw [addAll]
  cases hfailure : (s.add t).failure with
  | some e => simp only [hfailure, Composition.result]
  | none => rfl

section FirstOccurrences

variable {α : Type} [BEq α] [LawfulBEq α] (table : α → Table)

/-- Occurrences of a table that the set holds do not count. -/
theorem Holds.result_addAll_filter {a : α} (h : s.Holds (table a))
    (hs : s.catalogue.Ordered) (as : List α) :
    (s.addAll (as.map table)).result
      = (s.addAll ((as.filter fun b => !b == a).map table)).result := by
  induction as generalizing s with
  | nil => rfl
  | cons b as ih =>
    by_cases hb : b = a
    · obtain ⟨hfailure, hset⟩ := h.add_eq hs
      rw [hb, List.filter_cons_of_neg (by simp), List.map_cons, result_addAll_cons, hfailure,
        hset]
      exact ih h hs
    · rw [List.filter_cons_of_pos (by simpa using hb), List.map_cons, List.map_cons,
        result_addAll_cons, result_addAll_cons]
      -- the set grows by another table, and still holds this one
      cases hfailure : (s.add (table b)).failure with
      | some e => rfl
      | none => exact ih (h.mono (s.grows_add (table b))) (ordered_add hs (table b))

/-- **Of tables that are added in order, only first occurrences count.** -/
theorem result_addAll_eraseDups (hs : s.catalogue.Ordered) (as : List α) :
    (s.addAll (as.map table)).result = (s.addAll (as.eraseDups.map table)).result := by
  -- the occurrences of the first element are taken out, which leaves a shorter list
  induction hn : as.length using Nat.strongRecOn generalizing s as with
  | ind n ih =>
    cases as with
    | nil => rfl
    | cons a as =>
      rw [List.eraseDups_cons, List.map_cons, List.map_cons, result_addAll_cons,
        result_addAll_cons]
      cases hfailure : (s.add (table a)).failure with
      | some e => rfl
      | none =>
        have hordered := ordered_add hs (table a)
        have hshorter : (as.filter fun b => !b == a).length < n := by
          rw [← hn, List.length_cons]
          exact Nat.lt_succ_of_le (List.length_filter_le _ _)
        have hrest := ih _ hshorter hordered (as.filter fun b => !b == a) rfl
        exact ((holds_add hs hfailure).result_addAll_filter table hordered as).trans hrest

end FirstOccurrences

/-- **Repeating a table is harmless.**

Let tables be added to the empty set, each as far as it goes, then one without error,
and then any others.  When that one is added again there is no error either, and the
set stays as it is.  So when a set is put together from built-in modules, only the
first occurrence of each counts, for the set as for the error. -/
theorem add_again (xlen : Xlen) :
    (∀ (before : List Table) (t : Table),
      (((empty xlen).addEach before).add t).failure = none → ∀ after : List Table,
        let s := (((empty xlen).addEach before).add t).set.addEach after
        (s.add t).failure = none ∧ (s.add t).set = s) ∧
    ∀ ms : List Builtin,
      build xlen (ms.map Builtin.table) = build xlen (ms.eraseDups.map Builtin.table) := by
  have hempty : (empty xlen).catalogue.Ordered := Catalogue.ordered_empty
  constructor
  · intro before t hfailure after s
    have hbefore := ordered_addEach hempty before
    have hadded := ordered_add hbefore t
    have hholds : s.Holds t := (holds_add hbefore hfailure).mono (grows_addEach _ after)
    exact hholds.add_eq (ordered_addEach hadded after)
  · intro ms
    rw [build_eq_result, build_eq_result]
    exact result_addAll_eraseDups Builtin.table hempty ms

/-- A table comes again after another, which shares all its words and fails at its
second row; and a module comes again behind the one that it is a special case of, where
it could not have been added for the first time. -/
theorem add_again_behind :
    let nop : Row := ⟨"000 nzimm[5] 00000 nzimm[4:0] 01 C.NOP", .cNop⟩
    let addi : Row := ⟨"000 nzimm[5] rs1/rd!=0 nzimm[4:0] 01 C.ADDI", .cAddImm⟩
    let any : Row := ⟨"imm[13:0] 01 C.ANY", .cAddImm⟩
    let li : Row := ⟨"010 imm[5] rd!=0 imm[4:0] 01 C.LI", .cLoadImm⟩
    let t : Table := ⟨"base", .c, .compressed, [nop, addi]⟩
    let wide : Table := ⟨"wide", .x, .compressed, [any, li]⟩
    let s := ((empty .rv128).add t).set.addEach [wide]
    ((empty .rv128).add t).failure = none ∧
    (((empty .rv128).add t).set.add wide).failure.isSome = true ∧
    (s.add t).failure = none ∧ (s.add t).set = s ∧
    build .rv128 ([Builtin.rv128c, .rv32c, .rv128c].map Builtin.table)
      = build .rv128 ([Builtin.rv128c, .rv32c].map Builtin.table) := by
  intro nop addi any li t wide s
  have hrepeat := add_again .rv128
  have hfailure : ((empty .rv128).add t).failure = none := by decide +kernel
  obtain ⟨hagain, hset⟩ := hrepeat.1 [] t hfailure [wide]
  exact ⟨hfailure, by decide +kernel, hagain, hset, hrepeat.2 [.rv128c, .rv32c, .rv128c]⟩

end InstructionSet
end RiscV
