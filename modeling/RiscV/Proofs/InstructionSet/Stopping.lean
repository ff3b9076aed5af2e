import RiscV.Proofs.Except
import RiscV.Proofs.InstructionSet.Growth

/-!
# Where adding a table stops

The rows of a table are added one at a time.  A row fails if its layout cannot be
compiled, or if its definition is refused by what was there before; the rows in front
of it have been added by then, and stay.  So whatever comes of adding a table, the set
is the one that the rows in front of some place make, and that place is told by the
table and the set it is added to.

## Main definitions

* `Catalogue.addRow` — one row, which can fail in two ways.
* `Catalogue.StopsAt` — the place of the first row that fails, or the end.
* `InstructionSet.AddedUpTo` — a set has the rows of a table up to a place, and nothing
  else of it.

## Main results

* `Catalogue.exists_stopsAt` — adding rows is adding those in front of the first that
  fails.
* `Catalogue.StopsAt.unique` — there is only one such place.
* `InstructionSet.add_stops` — **a table is added up to its first row that fails.**
-/

namespace RiscV

/-- What the definition of a row consists of. -/
theorem Table.define_eq_ok_iff {t : Table} {row : Row} {d : Definition} :
    t.define row = .ok d ↔ Layout.compile row.layout t.width = .ok ⟨d.mnemonic, d.pattern⟩ ∧
      d.form = row.form ∧ d.extension = t.extension := by
  unfold Table.define
  cases Layout.compile row.layout t.width with
  | error e => simp [Except.map]
  | ok compiled =>
    obtain ⟨mnemonic, pattern⟩ := compiled
    obtain ⟨mnemonic', pattern', form', extension'⟩ := d
    simp only [Except.map, Except.ok.injEq, Definition.mk.injEq, CompiledLayout.mk.injEq,
      and_assoc, eq_comm (a := row.form), eq_comm (a := t.extension)]

/-- A definition has the width of the table it comes from. -/
theorem Table.width_of_define {t : Table} {row : Row} {d : Definition}
    (h : t.define row = .ok d) : d.pattern.width = t.width := by
  obtain ⟨layout, -, -, hcompiled⟩ :=
    Layout.compile_eq_ok_iff.mp (Table.define_eq_ok_iff.mp h).1
  rw [(CompiledLayout.mk.inj hcompiled).2]
  rfl

/-! ### Rows -/

namespace Catalogue

/-- Add the row of a table: its layout is compiled, and then its definition is added. -/
def addRow (t : Table) (c : Catalogue) (row : Row) : Except DefinitionError Catalogue := do
  let compiled ← Layout.compile row.layout t.width
  let (c', _) ← c.push ⟨compiled.mnemonic, compiled.pattern, row.form, t.extension⟩
  .ok c'

/-- Adding rows to `c` stops at row `k`: those in front can be added one after the other,
which makes `c'`, and row `k` fails then, if there is one. -/
structure StopsAt (t : Table) (rows : List Row) (c : Catalogue) (k : Nat) (c' : Catalogue) :
    Prop where
  /-- There are rows up to this place. -/
  le_length : k ≤ rows.length
  /-- The rows in front can be added. -/
  before : (rows.take k).foldlM (addRow t) c = .ok c'
  /-- The row at this place cannot. -/
  stopped : ∀ row, rows[k]? = some row → ∃ e, addRow t c' row = .error e

variable {t : Table} {c c' : Catalogue} {row : Row} {rows : List Row} {e : DefinitionError}

theorem install_cons_of_error (h : addRow t c row = .error e) (rows : List Row) :
    (c.install t (row :: rows)).catalogue = c ∧
      (c.install t (row :: rows)).failure = some e := by
  unfold addRow at h
  rw [install, Table.define]
  cases hcompile : Layout.compile row.layout t.width with
  | error e' =>
    rw [hcompile] at h
    exact ⟨rfl, congrArg some (Except.error.inj h)⟩
  | ok compiled =>
    rw [hcompile] at h
    simp only [Except.map]
    cases hpush : c.push ⟨compiled.mnemonic, compiled.pattern, row.form, t.extension⟩ with
    | error e' =>
      simp only [bind, Except.bind, hpush] at h
      exact ⟨rfl, congrArg some (Except.error.inj h)⟩
    | ok pushed =>
      simp only [bind, Except.bind, hpush] at h
      contradiction

theorem install_cons_of_ok (h : addRow t c row = .ok c') (rows : List Row) :
    (c.install t (row :: rows)).catalogue = (c'.install t rows).catalogue ∧
      (c.install t (row :: rows)).failure = (c'.install t rows).failure := by
  unfold addRow at h
  rw [install, Table.define]
  cases hcompile : Layout.compile row.layout t.width with
  | error e =>
    rw [hcompile] at h
    contradiction
  | ok compiled =>
    rw [hcompile] at h
    simp only [Except.map]
    cases hpush : c.push ⟨compiled.mnemonic, compiled.pattern, row.form, t.extension⟩ with
    | error e =>
      simp only [bind, Except.bind, hpush] at h
      contradiction
    | ok pushed =>
      simp only [bind, Except.bind, hpush] at h
      obtain rfl := Except.ok.inj h
      -- a duplicate differs from an addition in the log only
      rcases pushed with ⟨c', _ | kept⟩ <;> exact ⟨rfl, rfl⟩

/-- Rows that can be added one after the other are added without failure. -/
theorem install_of_foldlM (h : rows.foldlM (addRow t) c = .ok c') :
    (c.install t rows).catalogue = c' ∧ (c.install t rows).failure = none := by
  induction rows generalizing c with
  | nil => exact ⟨Except.ok.inj h, rfl⟩
  | cons row rows ih =>
    rw [List.foldlM_cons] at h
    obtain ⟨c₁, hrow, hrows⟩ := Except.bind_eq_ok.mp h
    obtain ⟨hcatalogue, hfailure⟩ := install_cons_of_ok hrow rows
    rw [hcatalogue, hfailure]
    exact ih hrows

/-- **Adding rows is adding those in front of the first that fails**, and the failure is
that of this row. -/
theorem exists_stopsAt (c : Catalogue) (t : Table) (rows : List Row) :
    ∃ k, StopsAt t rows c k (c.install t rows).catalogue ∧
      (k = rows.length → (c.install t rows).failure = none) ∧
      ∀ row, rows[k]? = some row → ∃ e,
        addRow t (c.install t rows).catalogue row = .error e ∧
          (c.install t rows).failure = some e := by
  induction rows generalizing c with
  | nil => exact ⟨0, ⟨Nat.le_refl 0, rfl, by simp⟩, fun _ => rfl, by simp⟩
  | cons row rows ih =>
    cases hrow : addRow t c row with
    | error e =>
      -- the first row fails, and nothing is added
      obtain ⟨hcatalogue, hfailure⟩ := install_cons_of_error hrow rows
      have hfails : ∀ r, (row :: rows)[0]? = some r → addRow t c r = .error e := by
        intro r hr
        rw [← Option.some.inj hr]
        exact hrow
      rw [hcatalogue, hfailure]
      exact ⟨0, ⟨Nat.zero_le _, rfl, fun r hr => ⟨e, hfails r hr⟩⟩, by simp,
        fun r hr => ⟨e, hfails r hr, rfl⟩⟩
    | ok c₁ =>
      obtain ⟨hcatalogue, hfailure⟩ := install_cons_of_ok hrow rows
      obtain ⟨k, hstops, hnone, hsome⟩ := ih c₁
      rw [hcatalogue, hfailure]
      refine ⟨k + 1, ⟨Nat.succ_le_succ hstops.le_length, ?_, ?_⟩, ?_, ?_⟩
      · rw [List.take_succ_cons, List.foldlM_cons, hrow]
        exact hstops.before
      · exact hstops.stopped
      · intro hk
        exact hnone (Nat.succ.inj hk)
      · exact hsome

/-- No place behind a row that fails is reached. -/
theorem StopsAt.le {k k' : Nat} {c₁ c₂ : Catalogue} (h : StopsAt t rows c k c₁)
    (h' : StopsAt t rows c k' c₂) : k' ≤ k := by
  by_contra hlt
  have hk : k < rows.length := Nat.lt_of_lt_of_le (Nat.lt_of_not_le hlt) h'.le_length
  obtain ⟨e, he⟩ := h.stopped rows[k] (List.getElem?_eq_getElem hk)
  -- the rows in front of `k'` are those in front of `k`, then row `k`, then others
  have hsplit : rows.take k' = rows.take k ++ rows[k] :: (rows.take k').drop (k + 1) := by
    have hget : (rows.take k')[k]? = some rows[k] := by
      rw [List.getElem?_take_of_lt (Nat.lt_of_not_le hlt), List.getElem?_eq_getElem hk]
    have hlt' : k < (rows.take k').length := (List.getElem?_eq_some_iff.mp hget).1
    conv_lhs => rw [← List.take_append_drop k (rows.take k')]
    rw [List.take_take, Nat.min_eq_left (Nat.le_of_not_le hlt), List.drop_eq_getElem_cons hlt',
      List.getElem_take]
  have hbefore := h'.before
  rw [hsplit, List.foldlM_append, h.before] at hbefore
  obtain ⟨c₃, hrow, -⟩ := Except.bind_eq_ok.mp (List.foldlM_cons.symm.trans hbefore)
  rw [he] at hrow
  contradiction

/-- There is only one place where adding rows stops. -/
theorem StopsAt.unique {k k' : Nat} {c₁ c₂ : Catalogue} (h : StopsAt t rows c k c₁)
    (h' : StopsAt t rows c k' c₂) : k' = k ∧ c₂ = c₁ := by
  obtain rfl : k' = k := Nat.le_antisymm (h.le h') (h'.le h)
  exact ⟨rfl, Except.ok.inj (h'.before.symm.trans h.before)⟩

/-- Attempts to add definitions of one width leave the list of the other alone. -/
theorem list_foldl_attempt_of_ne (c : Catalogue) {ds : List Definition} {width : Width}
    (h : ∀ d ∈ ds, d.pattern.width ≠ width) : (ds.foldl attempt c).list width = c.list width := by
  induction ds generalizing c with
  | nil => rfl
  | cons d ds ih =>
    have hkept : (c.attempt d).list width = c.list width := by
      rw [attempt_eq]
      split
      · rw [list_append, if_neg (h d List.mem_cons_self)]
      · rfl
    rw [List.foldl_cons, ih _ fun e he => h e (List.mem_cons_of_mem d he), hkept]

end Catalogue

/-! ### Tables -/

namespace InstructionSet

/-- What adding a table leaves when it stops at row `k`, where the rows in front make the
catalogue `c`. -/
structure AddedUpTo (s : InstructionSet) (t : Table) (k : Nat) (c : Catalogue) : Prop where
  /-- The register width stays. -/
  xlen_eq : (s.add t).set.xlen = s.xlen
  /-- The extension of the table is there, and no other is new. -/
  contains_iff : ∀ ext, (s.add t).set.extensions.contains ext = true ↔
    s.extensions.contains ext = true ∨ ext = t.extension
  /-- The catalogue is the one that the rows in front make. -/
  catalogue_eq : (s.add t).set.catalogue = c
  /-- The table with these rows alone can be added without failure, and gives the same
  set. -/
  add_take : (s.add { t with rows := t.rows.take k }).failure = none ∧
    (s.add { t with rows := t.rows.take k }).set = (s.add t).set
  /-- The list of the other width stays. -/
  list_of_ne : ∀ width, width ≠ t.width →
    (s.add t).set.catalogue.list width = s.catalogue.list width
  /-- New definitions stand behind the old ones.  Each has the extension of the table, the
  form of one of these rows, and the mnemonic and the pattern that its layout compiles
  to. -/
  list_eq : ∃ new, (s.add t).set.catalogue.list t.width = s.catalogue.list t.width ++ new ∧
    ∀ d ∈ new, d.extension = t.extension ∧ ∃ row ∈ t.rows.take k, d.form = row.form ∧
      Layout.compile row.layout t.width = .ok ⟨d.mnemonic, d.pattern⟩
  /-- There is a failure exactly if a row is left. -/
  failure_iff : (∃ e, (s.add t).failure = some e) ↔ k < t.rows.length
  /-- The failure is that of row `k`. -/
  failure_eq : ∀ row, t.rows[k]? = some row → ∃ e,
    Catalogue.addRow t c row = .error e ∧ (s.add t).failure = some e

/-- What the rows in front of a place leave of the two lists. -/
theorem list_of_stopsAt {c c' : Catalogue} {t : Table} {k : Nat}
    (h : Catalogue.StopsAt t t.rows c k c') :
    (∀ width, width ≠ t.width → c'.list width = c.list width) ∧
      ∃ new, c'.list t.width = c.list t.width ++ new ∧
        ∀ d ∈ new, ∃ row ∈ t.rows.take k, t.define row = .ok d := by
  obtain ⟨ds, hds, hrows⟩ := c.catalogue_install t (t.rows.take k)
  rw [(Catalogue.install_of_foldlM h.before).1] at hds
  constructor
  · intro width hne
    rw [hds]
    apply c.list_foldl_attempt_of_ne
    intro d hd
    obtain ⟨row, -, hdefine⟩ := hrows d hd
    rw [Table.width_of_define hdefine]
    exact hne.symm
  · obtain ⟨new, hnew, hsublist⟩ := c.list_foldl_attempt ds t.width
    refine ⟨new, by rw [hds, hnew], ?_⟩
    intro d hd
    exact hrows d (hsublist.subset hd)

/-- **A table is added up to its first row that fails.**

For every set and every table there is one place where adding the rows stops: those in
front compile and are added or dropped as duplicates, and the row at this place, if there
is one, does not compile or is refused.  Whether this is a failure or the end of the
table, the set then has these rows, the extension of the table, and nothing else that is
new; and a failure is that of the row at this place. -/
theorem add_stops (s : InstructionSet) (t : Table) :
    ∃ k c, Catalogue.StopsAt t t.rows s.catalogue k c ∧
      (∀ k' c', Catalogue.StopsAt t t.rows s.catalogue k' c' → k' = k ∧ c' = c) ∧
      s.AddedUpTo t k c := by
  obtain ⟨k, hstops, hnone, hsome⟩ := s.catalogue.exists_stopsAt t t.rows
  obtain ⟨hother, new, hnew, hrows⟩ := list_of_stopsAt hstops
  refine ⟨k, _, hstops, fun k' c' h' => hstops.unique h', ?_⟩
  constructor
  case xlen_eq => rfl
  case contains_iff =>
    intro ext
    show (s.extensions.insert t.extension).contains ext = true ↔ _
    rw [ExtensionSet.contains_insert, Bool.or_eq_true, decide_eq_true_iff,
      eq_comm (a := t.extension)]
  case catalogue_eq => rfl
  case add_take =>
    -- a row is added in the same way, whatever rows stand behind it
    have hagain : ((t.rows.take k).foldlM
        (Catalogue.addRow { t with rows := t.rows.take k }) s.catalogue)
          = .ok (s.catalogue.install t t.rows).catalogue := hstops.before
    obtain ⟨hcatalogue, hfailure⟩ := Catalogue.install_of_foldlM hagain
    refine ⟨hfailure, ?_⟩
    rw [add, add]
    exact congrArg (InstructionSet.mk s.xlen (s.extensions.insert t.extension)) hcatalogue
  case list_of_ne => exact hother
  case list_eq =>
    refine ⟨new, hnew, ?_⟩
    intro d hd
    obtain ⟨row, hrow, hdefine⟩ := hrows d hd
    obtain ⟨hcompile, hform, hextension⟩ := Table.define_eq_ok_iff.mp hdefine
    exact ⟨hextension, row, hrow, hform, hcompile⟩
  case failure_iff =>
    constructor
    · rintro ⟨e, he⟩
      by_contra hge
      have hend : k = t.rows.length := Nat.le_antisymm hstops.le_length (Nat.le_of_not_lt hge)
      have hok : (s.add t).failure = none := hnone hend
      rw [hok] at he
      contradiction
    · intro hlt
      obtain ⟨e, -, he⟩ := hsome t.rows[k] (List.getElem?_eq_getElem hlt)
      exact ⟨e, he⟩
  case failure_eq => exact hsome

end InstructionSet
end RiscV
