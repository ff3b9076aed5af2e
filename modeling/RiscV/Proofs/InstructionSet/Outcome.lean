import RiscV.Proofs.Builtin.Overlap
import RiscV.Proofs.InstructionSet.Provenance

/-!
# What putting a set together comes to

A set is put together table by table and row by row, with a log on the way.  For
built-in modules, whose rows all compile, what comes of it is what comes of adding
their definitions to the empty catalogue.

## Main results

* `ExtensionSet.contains_foldl_insert` — the members of a set of extensions that were
  inserted one after the other.
* `Catalogue.result_install` — adding rows that compile is adding their definitions.
* `InstructionSet.build_builtin` — **building a set of built-in modules is adding
  their definitions to the empty catalogue.**
-/

namespace RiscV

/-! ### Extensions -/

namespace ExtensionSet

theorem contains_insert (set : ExtensionSet) (ext ext' : Extension) :
    (set.insert ext).contains ext' = (set.contains ext' || decide (ext = ext')) := by
  -- different extensions have different bits
  have hbit : (ext.bit &&& ext'.bit != 0#32) = decide (ext = ext') := by
    cases ext <;> cases ext' <;> rfl
  rw [contains, contains, insert, ← hbit, BitVec.and_or_distrib_right, Bool.eq_iff_iff]
  simp only [bne_iff_ne, Bool.or_eq_true, ne_eq, BitVec.or_eq_zero_iff]
  exact Classical.not_and_iff_not_or_not

/-- The members of a set after the extensions of several things were inserted. -/
theorem contains_foldl_insert {α : Type} (extension : α → Extension) (set : ExtensionSet)
    (as : List α) (ext : Extension) :
    (as.foldl (fun set a => set.insert (extension a)) set).contains ext = true ↔
      set.contains ext = true ∨ ∃ a ∈ as, extension a = ext := by
  induction as generalizing set with
  | nil => simp
  | cons a as ih =>
    rw [List.foldl_cons, ih, contains_insert]
    simp [or_assoc]

theorem contains_empty (ext : Extension) : empty.contains ext = false := by
  cases ext <;> rfl

end ExtensionSet

/-! ### Rows and tables -/

/-- What adding rows comes to: the catalogue afterwards, or what stopped them short. -/
def Installation.result (i : Installation) : Except DefinitionError Catalogue :=
  match i.failure with
  | some e => .error e
  | none => .ok i.catalogue

theorem Installation.result_ok {i : Installation} {c : Catalogue} (h : i.result = .ok c) :
    i.failure = none ∧ i.catalogue = c := by
  unfold result at h
  split at h
  · contradiction
  · next hnone => exact ⟨hnone, Except.ok.inj h⟩

theorem Installation.result_error {i : Installation} {e : DefinitionError}
    (h : i.result = .error e) : i.failure = some e := by
  unfold result at h
  split at h
  · next e' hsome => rw [hsome, Except.error.inj h]
  · contradiction

namespace Catalogue

/-- Adding rows that compile is adding their definitions. -/
theorem result_install (c : Catalogue) (t : Table) {rows : List Row} {ds : List Definition}
    (h : rows.map t.define = ds.map .ok) : (c.install t rows).result = c.pushAll ds := by
  induction rows generalizing c ds with
  | nil =>
    obtain rfl : ds = [] := List.map_eq_nil_iff.mp h.symm
    rfl
  | cons row rows ih =>
    cases ds with
    | nil => contradiction
    | cons d ds =>
      obtain ⟨hd, hrows⟩ := List.cons.inj h
      rw [install, hd]
      cases hpush : c.push d with
      | error e =>
        rw [pushAll_cons_of_error hpush]
        simp only [hpush]
        rfl
      | ok pushed =>
        rw [pushAll_cons_of_ok hpush, ← ih pushed.1 hrows]
        -- a duplicate differs from an addition in the log only
        rcases pushed with ⟨c', _ | kept⟩ <;> simp only [hpush] <;> rfl

theorem pushAll_append (c : Catalogue) (ds es : List Definition) :
    c.pushAll (ds ++ es) = (c.pushAll ds).bind (·.pushAll es) := by
  induction ds generalizing c with
  | nil => rfl
  | cons d ds ih =>
    rw [List.cons_append]
    cases hpush : c.push d with
    | error e => rw [pushAll_cons_of_error hpush, pushAll_cons_of_error hpush]; rfl
    | ok pushed => rw [pushAll_cons_of_ok hpush, pushAll_cons_of_ok hpush, ih]

end Catalogue

namespace InstructionSet

/-- Adding built-in modules is adding their definitions. -/
theorem result_addAll (s : InstructionSet) (ms : List Builtin) :
    (s.addAll (ms.map Builtin.table)).result
      = (s.catalogue.pushAll (ms.flatMap Builtin.definitions)).map fun c =>
        { s with
          extensions := ms.foldl (fun set m => set.insert m.table.extension) s.extensions
          catalogue := c } := by
  induction ms generalizing s with
  | nil => rfl
  | cons m ms ih =>
    rw [List.map_cons, List.flatMap_cons, addAll, Catalogue.pushAll_append]
    have hinstall := s.catalogue.result_install m.table m.map_define
    cases hpush : s.catalogue.pushAll m.definitions with
    | error e =>
      rw [hpush] at hinstall
      have hfailure : (s.add m.table).failure = some e := Installation.result_error hinstall
      -- the modules behind the one that failed are not looked at
      simp only [hfailure, Composition.result]
      rfl
    | ok c =>
      rw [hpush] at hinstall
      obtain ⟨hnone, hcatalogue⟩ := Installation.result_ok hinstall
      have hfailure : (s.add m.table).failure = none := hnone
      have hset : (s.add m.table).set
          = { s with extensions := s.extensions.insert m.table.extension, catalogue := c } := by
        rw [← hcatalogue]
        rfl
      simp only [hfailure, hset]
      exact ih { s with extensions := s.extensions.insert m.table.extension, catalogue := c }

/-- **Building a set of built-in modules is adding their definitions to the empty
catalogue.** -/
theorem build_builtin (xlen : Xlen) (ms : List Builtin) :
    build xlen (ms.map Builtin.table)
      = (Catalogue.empty.pushAll (ms.flatMap Builtin.definitions)).map fun c =>
        ⟨xlen, ms.foldl (fun set m => set.insert m.table.extension) .empty, c⟩ := by
  rw [build_eq_result, result_addAll]
  rfl

/-- The register width plays no part in whether built-in modules fit together. -/
theorem build_eq_error_iff {xlen : Xlen} {ms : List Builtin} {e : DefinitionError} :
    build xlen (ms.map Builtin.table) = .error e ↔
      Catalogue.empty.pushAll (ms.flatMap Builtin.definitions) = .error e := by
  rw [build_builtin]
  cases Catalogue.empty.pushAll (ms.flatMap Builtin.definitions) <;> simp [Except.map]

end InstructionSet
end RiscV
