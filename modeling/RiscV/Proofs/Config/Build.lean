import RiscV.Config
import RiscV.Proofs.Builtin.Composition

/-!
# Which configurations can be built

A configuration is refused for its register width, or because its modules do not
fit together.  Every other one gives the set that it selects.

## Main definitions

* `Config.BadXlen` — the register width is none of the known ones.
* `Config.Applies` — the preset that applies, and all modules in order.
* `Config.Selects` — what a set that is built from a configuration is like.

## Main results

* `Config.build_outcome` — **exactly which configurations can be built, and to what.**
-/

namespace RiscV

namespace Config

/-- The register width asked for is none of the known ones. -/
def BadXlen (c : Config) (n : Nat) : Prop := c.xlen = some n ∧ n ≠ 32 ∧ n ≠ 64 ∧ n ≠ 128

/-- The preset that applies to a configuration, if one does, and its modules in order. -/
inductive Applies (c : Config) : Option Preset → List Builtin → Prop
  /-- A preset is selected: its modules come first. -/
  | selected {p : Preset} (hpreset : c.preset = some p) :
    Applies c (some p) (p.modules ++ c.modules)
  /-- Neither a preset nor modules are selected: it is `rv64gc`. -/
  | standard (hpreset : c.preset = none) (hmodules : c.modules = []) :
    Applies c (some .rv64gc) Preset.rv64gc.modules
  /-- Only modules are selected: there is no preset. -/
  | modules (hpreset : c.preset = none) (hmodules : c.modules ≠ []) :
    Applies c none c.modules

/-- What the set of a configuration is like.  `applies_iff` says what its modules are, and
which preset applies. -/
structure Selects (c : Config) (s : InstructionSet) : Prop where
  /-- The register width is the one asked for, or else that of the preset that
  applies, or else 64 bits. -/
  xlen_eq : s.xlen.bits = c.xlen.getD ((c.effectivePreset.map (·.xlen.bits)).getD 64)
  /-- The extensions are those of the modules. -/
  contains_iff : ∀ ext, s.extensions.contains ext = true ↔
    ∃ m ∈ c.moduleList, m.table.extension = ext
  /-- All rows compile.  Of the definitions with one pattern the first is kept, those of
  16 bits before those of 32 bits, in the order of the modules and their rows. -/
  toList_eq : ∃ ds : List Definition,
    (c.moduleList.flatMap fun m => m.table.rows.map m.table.define) = ds.map .ok ∧
      s.catalogue.toList
        = ((Catalogue.firsts ds).filter fun d => d.pattern.width = .compressed) ++
          (Catalogue.firsts ds).filter fun d => d.pattern.width = .standard

/-- The preset and the modules that are computed are those that apply. -/
theorem applies_iff {c : Config} {preset : Option Preset} {ms : List Builtin} :
    c.Applies preset ms ↔ c.effectivePreset = preset ∧ c.moduleList = ms := by
  constructor
  · intro h
    cases h with
    | selected hpreset => simp [moduleList, effectivePreset, hpreset]
    | standard hpreset hmodules =>
      simp [moduleList, effectivePreset, hpreset, hmodules, Preset.standard]
    | modules hpreset hmodules => simp [moduleList, effectivePreset, hpreset, hmodules]
  · rintro ⟨rfl, rfl⟩
    unfold moduleList effectivePreset
    cases hpreset : c.preset with
    | some p => exact .selected hpreset
    | none =>
      cases hmodules : c.modules with
      | nil => exact .standard hpreset hmodules
      | cons m ms =>
        have happlies := Applies.modules hpreset (by simp [hmodules])
        rwa [hmodules] at happlies

theorem resolveXlen_of_bad {c : Config} {n : Nat} (h : c.BadXlen n) :
    c.resolveXlen = .error (.invalidXlen n) := by
  obtain ⟨hxlen, h32, h64, h128⟩ := h
  have hnone : Xlen.ofBits? n = none := by
    unfold Xlen.ofBits?
    split <;> first | contradiction | rfl
  rw [resolveXlen, hxlen]
  simp only [hnone]

theorem resolveXlen_of_not_bad {c : Config} (h : ¬∃ n, c.BadXlen n) :
    ∃ xlen, c.resolveXlen = .ok xlen ∧
      xlen.bits = c.xlen.getD ((c.effectivePreset.map (·.xlen.bits)).getD 64) := by
  unfold resolveXlen
  cases hxlen : c.xlen with
  | none =>
    -- no width is asked for: the preset decides, if there is one
    refine ⟨_, rfl, ?_⟩
    cases c.effectivePreset <;> rfl
  | some n =>
    have hknown : n = 32 ∨ n = 64 ∨ n = 128 := by
      by_contra hn
      exact h ⟨n, hxlen, by omega⟩
    rcases hknown with rfl | rfl | rfl
    · exact ⟨.rv32, rfl, rfl⟩
    · exact ⟨.rv64, rfl, rfl⟩
    · exact ⟨.rv128, rfl, rfl⟩

theorem build_of_bad {c : Config} {n : Nat} (h : c.BadXlen n) :
    c.build = .error (.invalidXlen n) := by
  rw [build, compose, resolveXlen_of_bad h]
  rfl

/-- With a known register width, what counts is whether the modules fit together. -/
theorem build_of_resolveXlen {c : Config} {xlen : Xlen} (h : c.resolveXlen = .ok xlen) :
    c.build = (InstructionSet.build xlen (c.moduleList.map Builtin.table)).mapError
      .definition := by
  rw [build, compose, h, InstructionSet.build]
  simp only [Except.map]
  cases (InstructionSet.compose xlen (c.moduleList.map Builtin.table)).result <;> rfl

/-- For that it counts whether the definitions of the modules can be added. -/
theorem build_of_not_bad {c : Config} (h : ¬∃ n, c.BadXlen n) :
    ∃ xlen : Xlen,
      xlen.bits = c.xlen.getD ((c.effectivePreset.map (·.xlen.bits)).getD 64) ∧
      c.build = match Catalogue.empty.pushAll (c.moduleList.flatMap Builtin.definitions) with
        | .error e => .error (.definition e)
        | .ok catalogue => .ok
          ⟨xlen, c.moduleList.foldl (fun set m => set.insert m.table.extension) .empty,
            catalogue⟩ := by
  obtain ⟨xlen, hxlen, hbits⟩ := resolveXlen_of_not_bad h
  refine ⟨xlen, hbits, ?_⟩
  rw [build_of_resolveXlen hxlen, InstructionSet.build_builtin]
  cases Catalogue.empty.pushAll (c.moduleList.flatMap Builtin.definitions) <;> rfl

/-- The definitions that count make the set that a configuration selects. -/
theorem selects_firsts {c : Config} {xlen : Xlen}
    (hbits : xlen.bits = c.xlen.getD ((c.effectivePreset.map (·.xlen.bits)).getD 64)) :
    c.Selects
      ⟨xlen, c.moduleList.foldl (fun set m => set.insert m.table.extension) .empty,
        .ofList (Catalogue.firsts (c.moduleList.flatMap Builtin.definitions))⟩ where
  xlen_eq := hbits
  contains_iff ext := by
    rw [ExtensionSet.contains_foldl_insert, ExtensionSet.contains_empty]
    simp
  toList_eq := by
    refine ⟨c.moduleList.flatMap Builtin.definitions, ?_, rfl⟩
    rw [List.map_flatMap]
    simp only [Builtin.map_define]

/-- **Exactly which configurations can be built, and to what.**

The modules are those of the preset that applies, then those of the configuration; the
preset is `rv64gc` if the configuration has neither a preset nor modules.  The register
width is looked at first, whatever the modules; then the modules are
refused exactly if some `rv32c` stands before the first `rv128c`, and the error names
the two shifts.  In all other cases there is a set, and it is the one that the
configuration selects. -/
theorem build_outcome (c : Config) :
    (∀ preset ms, c.Applies preset ms ↔ c.effectivePreset = preset ∧ c.moduleList = ms) ∧
    (∀ n, c.build = .error (.invalidXlen n) ↔ c.BadXlen n) ∧
    (∀ e, c.build = .error (.definition e) ↔
      (¬∃ n, c.BadXlen n) ∧ Builtin.Shadowed c.moduleList ∧ e = Builtin.shadowError) ∧
    ((¬∃ n, c.BadXlen n) → ¬Builtin.Shadowed c.moduleList →
      ∃ s, c.build = .ok s ∧ c.Selects s) ∧
    Builtin.shadowError.definition = "c.slli64" ∧
    Builtin.shadowError.defect.reason
      = "overlaps earlier definition `c.slli` (mask 0xe003/0xf07f, value 0x2/0x2)" := by
  refine ⟨fun preset ms => applies_iff, ?_, ?_, ?_, rfl, by decide +kernel⟩
  · intro n
    refine ⟨?_, build_of_bad⟩
    intro h
    -- the error tells the width, so it is the one that was asked for
    by_cases hbad : ∃ n', c.BadXlen n'
    · obtain ⟨n', hbad⟩ := hbad
      rw [build_of_bad hbad, Except.error.injEq, BuildError.invalidXlen.injEq] at h
      exact h ▸ hbad
    · obtain ⟨xlen, -, hbuild⟩ := build_of_not_bad hbad
      rw [hbuild] at h
      split at h <;> simp at h
  · intro e
    by_cases hbad : ∃ n, c.BadXlen n
    · obtain ⟨n, hn⟩ := hbad
      rw [build_of_bad hn]
      exact iff_of_false (by simp) fun h => h.1 ⟨n, hn⟩
    · obtain ⟨xlen, -, hbuild⟩ := build_of_not_bad hbad
      rw [hbuild, ← Builtin.pushAll_eq_error_iff]
      cases Catalogue.empty.pushAll (c.moduleList.flatMap Builtin.definitions) with
      | error e' => simp [hbad]
      | ok catalogue => simp
  · intro hbad hshadowed
    obtain ⟨xlen, hbits, hbuild⟩ := build_of_not_bad hbad
    rw [Builtin.pushAll_of_not_shadowed hshadowed] at hbuild
    exact ⟨_, hbuild, selects_firsts hbits⟩

end Config
end RiscV
