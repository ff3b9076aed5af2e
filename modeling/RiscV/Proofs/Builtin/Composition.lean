import RiscV.Proofs.InstructionSet.Outcome

/-!
# Sets of built-in modules

Built-in modules fit together in any order and with any repetition, but for one
thing: the shift of `rv32c` must not be there before the first `rv128c`, whose one
instruction is a special case of it.

A set that is built is unambiguous: definitions that share words are a special case
and what it is carved out of, in this order, and every definition is the answer to
some word.

## Main definitions

* `Builtin.Shadowed` — an `rv32c` stands before the first `rv128c`.

## Main results

* `Builtin.shifts_of_refused` — a built-in definition is refused only because of the
  two shifts.
* `Builtin.pushAll_eq_error_iff` — **when the definitions of built-in modules cannot be
  added**, and what the error says.
* `InstructionSet.lookup_fullest` — a definition of a set is the answer to the fullest
  of its words.
* `InstructionSet.unambiguous_build` — **a set of built-in modules is unambiguous.**
-/

namespace RiscV

namespace Builtin

/-- Some `rv32c` stands before the first `rv128c`. -/
def Shadowed (ms : List Builtin) : Prop :=
  ∃ before after, ms = before ++ .rv128c :: after ∧ .rv128c ∉ before ∧ .rv32c ∈ before

example : Shadowed [.rv32i, .rv32c, .rv32fc, .rv128c, .rv128c] :=
  ⟨[.rv32i, .rv32c, .rv32fc], [.rv128c], rfl, by decide, by decide⟩

theorem not_shadowed_of_notMem {ms : List Builtin} (h : .rv128c ∉ ms) : ¬Shadowed ms := by
  rintro ⟨before, after, rfl, -, -⟩
  exact h (List.mem_append_right _ List.mem_cons_self)

/-- What is reported then: `slli64` comes too late. -/
def shadowError : DefinitionError :=
  ⟨slli64.mnemonic, .overlap slli.mnemonic slli.pattern slli64.pattern⟩

/-! ### Where a definition comes from -/

/-- A definition in the concatenation stands in one module, behind the definitions of
the modules before it. -/
theorem exists_module {ms : List Builtin} {before after : List Definition} {d : Definition}
    (h : ms.flatMap definitions = before ++ d :: after) :
    ∃ ms₁ m ms₂ own, ms = ms₁ ++ m :: ms₂ ∧ before = ms₁.flatMap definitions ++ own ∧
      own ++ [d] <+: m.definitions := by
  induction ms generalizing before with
  | nil => simp at h
  | cons m ms ih =>
    -- the definition comes from `m` itself, or from a later module
    have hlater : ∀ rest, before = m.definitions ++ rest →
        ms.flatMap definitions = rest ++ d :: after →
        ∃ ms₁ m' ms₂ own, m :: ms = ms₁ ++ m' :: ms₂ ∧
          before = ms₁.flatMap definitions ++ own ∧ own ++ [d] <+: m'.definitions := by
      rintro rest rfl hrest
      obtain ⟨ms₁, m', ms₂, own, rfl, rfl, hown⟩ := ih hrest
      exact ⟨m :: ms₁, m', ms₂, own, rfl, by simp, hown⟩
    rw [List.flatMap_cons] at h
    rcases List.append_eq_append_iff.mp h with ⟨rest, hbefore, hrest⟩ | ⟨rest, hm, hrest⟩
    · exact hlater rest hbefore hrest
    · cases rest with
      | nil => exact hlater [] (by simpa using hm.symm) hrest.symm
      | cons d' rest =>
        obtain ⟨rfl, -⟩ := List.cons.inj hrest
        exact ⟨[], m, ms, before, rfl, rfl, rest, by rw [hm]; simp⟩

theorem mem_slli64 : slli64 ∈ rv128c.definitions := by decide +kernel

theorem mem_slli : slli ∈ rv32c.definitions := by decide +kernel

theorem not_mayPrecede_slli64 : ¬slli.pattern.MayPrecede slli64.pattern := by
  intro h
  exact absurd (h (by decide)).2 (by decide)

/-! ### The definitions that are refused -/

/-- **A built-in definition is refused only because of the two shifts.**  Let `d` be
the first definition of its pattern and `old` one before it, which shares words with
it and does not fix all its bits. -/
theorem shifts_of_refused {ms : List Builtin} {before after : List Definition}
    {d old : Definition} (hsplit : ms.flatMap definitions = before ++ d :: after)
    (hnew : d.pattern ∉ before.map Definition.pattern) (hold : old ∈ before)
    (hwidth : old.pattern.width = d.pattern.width)
    (hmeets : old.pattern.meets d.pattern = true)
    (hrefines : old.pattern.refines d.pattern = false) :
    d = slli64 ∧ old = slli ∧ Shadowed ms := by
  have hprecede : ¬old.pattern.MayPrecede d.pattern := by
    intro h
    rw [(h hmeets).2] at hrefines
    contradiction
  obtain ⟨ms₁, m, ms₂, own, rfl, rfl, hown⟩ := exists_module hsplit
  have hd : d ∈ m.definitions := hown.subset (by simp)
  -- a module that came before has no definition with the pattern of `d`
  have habsent : ∀ m' ∈ ms₁, d ∉ m'.definitions := by
    intro m' hm' hd'
    apply hnew
    exact List.mem_map.mpr
      ⟨d, List.mem_append_left _ (List.mem_flatMap.mpr ⟨m', hm', hd'⟩), rfl⟩
  rcases List.mem_append.mp hold with hold | hold
  · obtain ⟨m', hm', hold⟩ := List.mem_flatMap.mp hold
    rcases related_of_mem hold hd hwidth hmeets with heq | hcarve | hcarve
    · exact absurd (List.mem_map.mpr
        ⟨old, List.mem_append_left _ (List.mem_flatMap.mpr ⟨m', hm', hold⟩), heq⟩) hnew
    · exact absurd (carvedFrom_of_mem hold hd hcarve).1.mayPrecede hprecede
    · rcases (carvedFrom_of_mem hd hold hcarve).2 with rfl | ⟨⟨rfl, rfl⟩, rfl, rfl⟩
      · exact absurd hd (habsent m hm')
      · refine ⟨rfl, rfl, ms₁, ms₂, rfl, ?_, hm'⟩
        intro hmem
        exact habsent _ hmem mem_slli64
  · -- in one module the order is right
    have hpairs := (arranged_definitions m).sublist hown.sublist
    exact absurd ((List.pairwise_append.mp hpairs).2.2 old hold d
      (List.mem_singleton_self d) hwidth) hprecede

/-- Behind `slli`, the first `slli64` is not arranged. -/
theorem not_arranged_of_shadowed {ms : List Builtin} (h : Shadowed ms) :
    ¬Catalogue.Arranged (Catalogue.firsts (ms.flatMap definitions)) := by
  obtain ⟨before, after, rfl, hfirst, hmem⟩ := h
  have hnew : slli64.pattern ∉ (before.flatMap definitions).map Definition.pattern := by
    intro hold
    obtain ⟨d, hd, hpattern⟩ := List.mem_map.mp hold
    obtain ⟨m, hm, hd⟩ := List.mem_flatMap.mp hd
    have hmodule := (survey.1 (m, d) (mem_listed hd)).2 hpattern
    exact hfirst (hmodule ▸ hm)
  have hslli : slli ∈ before.flatMap definitions :=
    List.mem_flatMap.mpr ⟨_, hmem, mem_slli⟩
  have hslli64 : slli64 ∈ (rv128c :: after).flatMap definitions :=
    List.mem_flatMap.mpr ⟨_, List.mem_cons_self, mem_slli64⟩
  obtain ⟨old, hold, holdPattern⟩ := Catalogue.exists_mem_firsts hslli
  obtain ⟨new, hnewMem, hnewPattern⟩ := Catalogue.exists_mem_firsts hslli64
  intro harranged
  rw [List.flatMap_append, Catalogue.firsts_append] at harranged
  -- both patterns count, and that of `slli64` stands behind the other
  have hprecede := (List.pairwise_append.mp harranged).2.2 old hold new
    (List.mem_filter.mpr ⟨hnewMem, by simpa [hnewPattern] using hnew⟩)
  rw [holdPattern, hnewPattern] at hprecede
  exact not_mayPrecede_slli64 (hprecede rfl)

/-- **When the definitions of built-in modules cannot be added**, and what the error
says. -/
theorem pushAll_eq_error_iff (ms : List Builtin) (e : DefinitionError) :
    Catalogue.empty.pushAll (ms.flatMap definitions) = .error e ↔
      Shadowed ms ∧ e = shadowError := by
  have hshifts : ∀ e', Catalogue.empty.pushAll (ms.flatMap definitions) = .error e' →
      Shadowed ms ∧ e' = shadowError := by
    intro e' h
    obtain ⟨before, d, after, hsplit, hnew, old, hold, hwidth, hmeets, hrefines, rfl⟩ :=
      Catalogue.pushAll_eq_error h
    obtain ⟨rfl, rfl, hshadowed⟩ := shifts_of_refused hsplit hnew
      ((Catalogue.firsts_sublist before).subset hold) hwidth hmeets hrefines
    exact ⟨hshadowed, rfl⟩
  -- conversely, shadowed modules cannot all be added, and there is one error only
  refine ⟨hshifts e, ?_⟩
  rintro ⟨hshadowed, rfl⟩
  cases h : Catalogue.empty.pushAll (ms.flatMap definitions) with
  | error e' => rw [(hshifts e' h).2]
  | ok c =>
    exact absurd (Catalogue.pushAll_eq_ok_iff.mp h).1 (not_arranged_of_shadowed hshadowed)

/-- Modules that are not shadowed leave the definitions that count. -/
theorem pushAll_of_not_shadowed {ms : List Builtin} (h : ¬Shadowed ms) :
    Catalogue.empty.pushAll (ms.flatMap definitions)
      = .ok (.ofList (Catalogue.firsts (ms.flatMap definitions))) := by
  cases hpush : Catalogue.empty.pushAll (ms.flatMap definitions) with
  | error e => exact absurd ((pushAll_eq_error_iff ms e).mp hpush).1 h
  | ok c => rw [(Catalogue.pushAll_eq_ok_iff.mp hpush).2]

end Builtin

/-! ### Sets of built-in instructions -/

namespace InstructionSet

variable {xlen : Xlen} {ms : List Builtin} {s : InstructionSet}

/-- Modules that are not shadowed make a set. -/
theorem build_of_not_shadowed (xlen : Xlen) (h : ¬Builtin.Shadowed ms) :
    build xlen (ms.map Builtin.table)
      = .ok ⟨xlen, ms.foldl (fun set m => set.insert m.table.extension) .empty,
        .ofList (Catalogue.firsts (ms.flatMap Builtin.definitions))⟩ := by
  rw [build_builtin, Builtin.pushAll_of_not_shadowed h]
  rfl

/-- The catalogue of a set has the definitions of its modules that count. -/
theorem catalogue_of_build (hs : build xlen (ms.map Builtin.table) = .ok s) :
    Catalogue.Arranged (Catalogue.firsts (ms.flatMap Builtin.definitions)) ∧
      s.catalogue = .ofList (Catalogue.firsts (ms.flatMap Builtin.definitions)) := by
  rw [build_builtin] at hs
  cases hpush : Catalogue.empty.pushAll (ms.flatMap Builtin.definitions) with
  | error e =>
    rw [hpush] at hs
    contradiction
  | ok c =>
    rw [hpush] at hs
    obtain rfl := Except.ok.inj hs
    exact Catalogue.pushAll_eq_ok_iff.mp hpush

/-- The definitions of a set of built-in modules are in order, and each is one of a
module. -/
theorem definitions_of_build (hs : build xlen (ms.map Builtin.table) = .ok s) :
    s.catalogue.Ordered ∧
      ∀ width, ∀ d ∈ s.catalogue.list width, ∃ m ∈ ms, d ∈ m.definitions := by
  obtain ⟨harranged, heq⟩ := catalogue_of_build hs
  rw [heq]
  refine ⟨harranged.ordered, ?_⟩
  intro width d hd
  have hmem := (Catalogue.firsts_sublist _).subset (Catalogue.mem_list_ofList.mp hd).1
  obtain ⟨m, hm, hd⟩ := List.mem_flatMap.mp hmem
  exact ⟨m, hm, hd⟩

/-- A set has the pattern of each definition of its modules. -/
theorem exists_mem_of_build (hs : build xlen (ms.map Builtin.table) = .ok s) {m : Builtin}
    (hm : m ∈ ms) {d : Definition} (hd : d ∈ m.definitions) :
    ∃ e ∈ s.catalogue.list d.pattern.width, e.pattern = d.pattern := by
  obtain ⟨e, he, hpattern⟩ :=
    Catalogue.exists_mem_firsts (List.mem_flatMap.mpr ⟨m, hm, hd⟩)
  rw [(catalogue_of_build hs).2]
  exact ⟨e, Catalogue.mem_list_ofList.mpr ⟨he, by rw [hpattern]⟩, hpattern⟩

/-- A definition of a set is the answer to the fullest of its words: a definition
that fixes more bits and takes that word away would be a special case, and special
cases leave it. -/
theorem lookup_fullest (hs : build xlen (ms.map Builtin.table) = .ok s) {width : Width}
    {d : Definition} (hd : d ∈ s.catalogue.list width) :
    s.lookup d.pattern.fullest = some d := by
  obtain ⟨hordered, hmodules⟩ := definitions_of_build hs
  obtain ⟨m, -, hm⟩ := hmodules width d hd
  obtain ⟨hwidth, haccepts⟩ := (Builtin.survey.1 (m, d) (Builtin.mem_listed hm)).1
  rw [← hordered.width_eq width d hd, ← hwidth] at hd
  obtain ⟨e, hlookup, hmore⟩ := hordered.exists_answer hd haccepts
  rcases hmore with rfl | hmore
  · exact hlookup
  · -- another answer `e` would be a special case of `d`, or `d` one of `e`
    have he := Catalogue.mem_list_of_lookup hlookup
    have hshared := (Catalogue.lookup_eq_some hlookup).1
    obtain ⟨m', -, hm'⟩ := hmodules _ e he
    have hwidths : e.pattern.width = d.pattern.width := by
      rw [hordered.width_eq _ e he, hwidth]
    rcases Builtin.related_of_mem hm' hm hwidths
      (Pattern.meets_of_accepts hshared haccepts) with heq | hcarve | hcarve
    · exact absurd (by rw [heq]) hmore.2
    · obtain ⟨-, -, -, hescapes⟩ := (Builtin.carvedFrom_of_mem hm' hm hcarve).1
      rw [hshared] at hescapes
      contradiction
    · obtain ⟨-, ⟨-, hrefines⟩, -⟩ := (Builtin.carvedFrom_of_mem hm hm' hcarve).1
      rw [hmore.refines] at hrefines
      contradiction

/-- **A set of built-in modules is unambiguous.**

Whatever modules a set is built from, in any order and with any repetition: of two
definitions of one width, the earlier and the later share a word exactly if they are
named as a special case and what it is carved out of, and never the other way round.
So no two definitions of 32 bits share a word.  Every definition of the set is the
answer to some word. -/
theorem unambiguous_build (hs : build xlen (ms.map Builtin.table) = .ok s) :
    (∀ width, (s.catalogue.list width).Pairwise fun a b =>
      ((∃ w, a.pattern.accepts w = true ∧ b.pattern.accepts w = true) ↔
        (a.mnemonic, b.mnemonic) ∈ Builtin.carveOuts) ∧
      (b.mnemonic, a.mnemonic) ∉ Builtin.carveOuts) ∧
    ((s.catalogue.list .standard).Pairwise fun a b =>
      ¬∃ w, a.pattern.accepts w = true ∧ b.pattern.accepts w = true) ∧
    ∀ d ∈ s.catalogue.toList, ∃ w, s.lookup w = some d := by
  obtain ⟨hordered, hmodules⟩ := definitions_of_build hs
  have hpairs : ∀ width, (s.catalogue.list width).Pairwise fun a b =>
      ((∃ w, a.pattern.accepts w = true ∧ b.pattern.accepts w = true) ↔
        (a.mnemonic, b.mnemonic) ∈ Builtin.carveOuts) ∧
      (b.mnemonic, a.mnemonic) ∉ Builtin.carveOuts := by
    intro width
    refine (hordered.mayPrecede width).imp_of_mem ?_
    intro a b ha hb hprecede
    obtain ⟨m, -, hm⟩ := hmodules width a ha
    obtain ⟨m', -, hm'⟩ := hmodules width b hb
    -- a special case behind what it is carved out of would have been refused
    have hreversed : (b.mnemonic, a.mnemonic) ∉ Builtin.carveOuts := fun hcarve =>
      (Builtin.carvedFrom_of_mem hm' hm hcarve).1.not_mayPrecede hprecede
    refine ⟨⟨?_, ?_⟩, hreversed⟩
    · rintro ⟨w, hwa, hwb⟩
      have hmeets := Pattern.meets_of_accepts hwa hwb
      have hwidths : a.pattern.width = b.pattern.width := by
        rw [hordered.width_eq width a ha, hordered.width_eq width b hb]
      rcases Builtin.related_of_mem hm hm' hwidths hmeets with heq | hcarve | hcarve
      · exact absurd heq (hprecede hmeets).1
      · exact hcarve
      · exact absurd hcarve hreversed
    · intro hcarve
      obtain ⟨-, -, haccepts, -⟩ := (Builtin.carvedFrom_of_mem hm hm' hcarve).1
      exact ⟨_, haccepts⟩
  refine ⟨hpairs, ?_, ?_⟩
  · -- the named pairs are of 16 bits
    refine (hpairs .standard).imp_of_mem ?_
    rintro a b ha hb ⟨hshared, -⟩ hword
    obtain ⟨m, -, hm⟩ := hmodules _ a ha
    obtain ⟨m', -, hm'⟩ := hmodules _ b hb
    obtain ⟨⟨hwidth, -⟩, -⟩ := (Builtin.carvedFrom_of_mem hm hm' (hshared.mp hword)).1
    rw [hordered.width_eq _ a ha] at hwidth
    contradiction
  · intro d hd
    have hlist : ∃ width, d ∈ s.catalogue.list width := by
      rcases List.mem_append.mp hd with hd | hd
      · exact ⟨.compressed, hd⟩
      · exact ⟨.standard, hd⟩
    obtain ⟨width, hd⟩ := hlist
    exact ⟨_, lookup_fullest hs hd⟩

/-- The shift that is reserved for 128-bit registers and the one it is carved out of,
in one set. -/
theorem unambiguous_build_shifts :
    ∃ s rest, build .rv128 ([Builtin.rv128c, .rv32c].map Builtin.table) = .ok s ∧
      s.catalogue.list .compressed = Builtin.slli64 :: rest ∧ Builtin.slli ∈ rest ∧
      (∃ w, Builtin.slli64.pattern.accepts w = true ∧
        Builtin.slli.pattern.accepts w = true) ∧
      (∃ w, s.lookup w = some Builtin.slli64) ∧ ∃ w, s.lookup w = some Builtin.slli := by
  have hshadowed : ¬Builtin.Shadowed [Builtin.rv128c, .rv32c] := by
    rintro ⟨before, after, heq, hfirst, hmem⟩
    cases before with
    | nil => contradiction
    | cons m before =>
      obtain ⟨rfl, -⟩ := List.cons.inj heq
      exact hfirst List.mem_cons_self
  have hbuild := build_of_not_shadowed .rv128 hshadowed
  obtain ⟨hpairs, -, hanswers⟩ := unambiguous_build hbuild
  have hdefinitions : [Builtin.rv128c, .rv32c].flatMap Builtin.definitions
      = Builtin.slli64 :: Builtin.rv32c.definitions := by decide +kernel
  have hslli : Builtin.slli ∈ Catalogue.firsts
      (Builtin.slli64 :: Builtin.rv32c.definitions) := by decide +kernel
  rw [hdefinitions] at hbuild hpairs hanswers
  have hmem := Catalogue.mem_list_ofList.mpr ⟨hslli, rfl⟩
  have hrest := (List.mem_cons.mp hmem).resolve_left (by decide)
  have hshared := ((List.pairwise_cons.mp (hpairs .compressed)).1 _ hrest).1
  exact ⟨_, _, hbuild, rfl, hrest, hshared.mpr (by decide),
    hanswers _ (List.mem_append_left _ List.mem_cons_self),
    hanswers _ (List.mem_append_left _ hmem)⟩

end InstructionSet
end RiscV
