import RiscV.InstructionSet
import RiscV.Proofs.Catalogue.Order
import RiscV.Proofs.Word

/-!
# Where the definitions of a set come from

Putting a set together is a run of attempts to add definitions to the empty
catalogue, one for each row of each table, up to the first that fails.  So what
holds of the catalogue after any run of attempts holds of every set, and its
definitions come from the rows of its tables.

## Main definitions

* `InstructionSet.addEach` — adding tables one after the other, each as far as it goes.

## Main results

* `Catalogue.list_foldl_attempt` — what a run of attempts leaves of the lists.
* `InstructionSet.catalogue_build` — **the catalogue of a set comes of attempts to
  add the rows of its tables.**
* `InstructionSet.lookup_build` — the answer to a word stands for a row of one of
  the tables, and has the width of the word.
-/

namespace RiscV

namespace Catalogue

/-- An attempt leaves each list as it was, or with the definition at its end. -/
theorem list_attempt (c : Catalogue) (d : Definition) (width : Width) :
    ∃ new, (c.attempt d).list width = c.list width ++ new ∧ new.Sublist [d] := by
  have hkept : ∃ new, c.list width = c.list width ++ new ∧ new.Sublist [d] :=
    ⟨[], (List.append_nil _).symm, List.nil_sublist _⟩
  rw [attempt_eq]
  split
  · rw [list_append]
    split
    · exact ⟨[d], rfl, List.Sublist.refl _⟩
    · exact hkept
  · exact hkept

/-- A run of attempts leaves each list as it was, with some of the definitions behind
it. -/
theorem list_foldl_attempt (c : Catalogue) (ds : List Definition) (width : Width) :
    ∃ new, (ds.foldl attempt c).list width = c.list width ++ new ∧ new.Sublist ds := by
  induction ds generalizing c with
  | nil => exact ⟨[], (List.append_nil _).symm, List.nil_sublist _⟩
  | cons d ds ih =>
    obtain ⟨first, hfirst, hd⟩ := c.list_attempt d width
    obtain ⟨rest, hrest, hds⟩ := ih (c.attempt d)
    refine ⟨first ++ rest, ?_, hd.append hds⟩
    rw [List.foldl_cons, hrest, hfirst, List.append_assoc]

/-- Every definition of a catalogue was added in one of the attempts. -/
theorem mem_of_mem_ofAttempts {ds : List Definition} {d : Definition} {width : Width}
    (h : d ∈ (ofAttempts ds).list width) : d ∈ ds := by
  obtain ⟨new, hnew, hsublist⟩ := empty.list_foldl_attempt ds width
  have hnil : empty.list width = [] := by cases width <;> rfl
  rw [ofAttempts, hnew, hnil, List.nil_append] at h
  exact hsublist.subset h

theorem attempt_of_push {c c' : Catalogue} {d : Definition} {r : Insertion}
    (h : c.push d = .ok (c', r)) : c.attempt d = c' := by
  rw [attempt, h]

/-- Adding rows is a run of attempts to add their definitions. -/
theorem catalogue_install (c : Catalogue) (t : Table) (rows : List Row) :
    ∃ ds : List Definition, (c.install t rows).catalogue = ds.foldl attempt c ∧
      ∀ d ∈ ds, ∃ row ∈ rows, t.define row = .ok d := by
  induction rows generalizing c with
  | nil => exact ⟨[], rfl, by simp⟩
  | cons row rows ih =>
    -- one more attempt in front of those for the other rows
    have hstep : ∀ d, t.define row = .ok d →
        ∃ ds : List Definition, ((c.attempt d).install t rows).catalogue = ds.foldl attempt c ∧
          ∀ e ∈ ds, ∃ r ∈ row :: rows, t.define r = .ok e := by
      intro d hd
      obtain ⟨ds, hds, hrows⟩ := ih (c.attempt d)
      refine ⟨d :: ds, hds, ?_⟩
      intro e he
      rcases List.mem_cons.mp he with rfl | he
      · exact ⟨row, List.mem_cons_self, hd⟩
      · obtain ⟨r, hr, hdefine⟩ := hrows e he
        exact ⟨r, List.mem_cons_of_mem row hr, hdefine⟩
    rw [install]
    split
    · exact ⟨[], rfl, by simp⟩
    · next d hd =>
      split
      · exact ⟨[], rfl, by simp⟩
      · next c' hpush => exact attempt_of_push hpush ▸ hstep d hd
      · next c' kept hpush => exact attempt_of_push hpush ▸ hstep d hd

end Catalogue

namespace InstructionSet

/-- Add tables one after the other, each as far as it goes. -/
def addEach (s : InstructionSet) (ts : List Table) : InstructionSet :=
  ts.foldl (fun s t => (s.add t).set) s

theorem addEach_cons (s : InstructionSet) (t : Table) (ts : List Table) :
    s.addEach (t :: ts) = (s.add t).set.addEach ts := rfl

/-- Adding tables is a run of attempts to add the definitions of their rows. -/
theorem catalogue_addEach (s : InstructionSet) (ts : List Table) :
    ∃ ds : List Definition,
      (s.addEach ts).catalogue = ds.foldl Catalogue.attempt s.catalogue ∧
      ∀ d ∈ ds, ∃ t ∈ ts, ∃ row ∈ t.rows, t.define row = .ok d := by
  induction ts generalizing s with
  | nil => exact ⟨[], rfl, by simp⟩
  | cons t ts ih =>
    obtain ⟨own, hown, hrows⟩ := s.catalogue.catalogue_install t t.rows
    obtain ⟨rest, hrest, htables⟩ := ih (s.add t).set
    refine ⟨own ++ rest, ?_, ?_⟩
    · have hadd : (s.add t).set.catalogue = own.foldl Catalogue.attempt s.catalogue := hown
      rw [addEach_cons, hrest, hadd, List.foldl_append]
    · intro d hd
      rcases List.mem_append.mp hd with hd | hd
      · exact ⟨t, List.mem_cons_self, hrows d hd⟩
      · obtain ⟨t', ht', hrow⟩ := htables d hd
        exact ⟨t', List.mem_cons_of_mem t ht', hrow⟩

/-- Adding tables up to the first that fails is adding some of them, from the front,
each as far as it goes. -/
theorem set_addAll (s : InstructionSet) (ts : List Table) :
    ∃ ts', ts' <+: ts ∧ (s.addAll ts).set = s.addEach ts' := by
  induction ts generalizing s with
  | nil => exact ⟨[], List.prefix_rfl, rfl⟩
  | cons t ts ih =>
    rw [addAll]
    dsimp only
    split
    · -- a table that fails is the last one, and leaves the rows before the failing one
      exact ⟨[t], ⟨ts, rfl⟩, rfl⟩
    · obtain ⟨ts', hts', hset⟩ := ih (s.add t).set
      exact ⟨t :: ts', List.cons_prefix_cons.mpr ⟨rfl, hts'⟩, hset⟩

/-- A composition without failure results in its set. -/
theorem set_of_result_eq_ok {c : Composition} {s : InstructionSet} (h : c.result = .ok s) :
    c.set = s := by
  unfold Composition.result at h
  split at h
  · contradiction
  · exact Except.ok.inj h

/-- Putting a set together is adding its tables to the empty one. -/
theorem build_eq_result (xlen : Xlen) (ts : List Table) :
    build xlen ts = ((empty xlen).addAll ts).result := by
  unfold build compose
  cases hfailure : ((empty xlen).addAll ts).failure <;>
    simp only [hfailure, Composition.result]

/-- **The catalogue of a set comes of attempts to add the rows of its tables.** -/
theorem catalogue_build {xlen : Xlen} {ts : List Table} {s : InstructionSet}
    (h : build xlen ts = .ok s) :
    ∃ ds, s.catalogue = Catalogue.ofAttempts ds ∧
      ∀ d ∈ ds, ∃ t ∈ ts, ∃ row ∈ t.rows, t.define row = .ok d := by
  rw [build_eq_result] at h
  obtain ⟨ts', hts', hset⟩ := (empty xlen).set_addAll ts
  obtain ⟨ds, hds, hrows⟩ := (empty xlen).catalogue_addEach ts'
  refine ⟨ds, ?_, ?_⟩
  · rw [← set_of_result_eq_ok h, hset, hds]
    rfl
  · intro d hd
    obtain ⟨t, ht, hrow⟩ := hrows d hd
    exact ⟨t, hts'.subset ht, hrow⟩

/-- The answer to a word stands for a row of one of the tables, accepts the
word and has its width. -/
theorem lookup_build {xlen : Xlen} {ts : List Table} {s : InstructionSet}
    (hs : build xlen ts = .ok s) {w : Word} {d : Definition} (hd : s.lookup w = some d) :
    d.pattern.accepts w.parcel = true ∧ d.pattern.width = w.width ∧
      ∃ t ∈ ts, ∃ row ∈ t.rows, t.define row = .ok d := by
  obtain ⟨ds, hds, hrows⟩ := catalogue_build hs
  rw [lookup, hds] at hd
  obtain ⟨haccepts, before, after, hlist, -⟩ := Catalogue.lookup_eq_some hd
  have hmem : d ∈ (Catalogue.ofAttempts ds).list w.width := by
    rw [hlist]
    exact List.mem_append_right _ List.mem_cons_self
  exact ⟨haccepts, (Catalogue.ordered_ofAttempts ds).width_eq _ d hmem,
    hrows d (Catalogue.mem_of_mem_ofAttempts hmem)⟩

/-- A word and the bits of it that belong to the instruction have one answer. -/
theorem lookup_parcel (s : InstructionSet) (w : Word) : s.lookup w.parcel = s.lookup w := by
  rw [lookup, lookup, Catalogue.lookup, Catalogue.lookup, Word.width_parcel, Word.parcel_parcel]

end InstructionSet
end RiscV
