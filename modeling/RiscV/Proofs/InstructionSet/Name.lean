import Mathlib.Data.List.Basic
import RiscV.Proofs.InstructionSet.Growth
import RiscV.Proofs.Text.Numeral

/-!
# The name of a set

A set is named by its register width and the letters of its extensions.  The extensions
are kept as bits, one for each letter, and spelled in an order that has nothing to do with
the order of the bits; a table leaves its extension behind whether or not its rows can be
added.  So the name tells the register width and which extensions were asked for, and
nothing else: neither how often, nor in which order, nor with what success.

## Main definitions

* `InstructionSet.Spelled` — the extensions of a set are those of some tables, and its name
  spells them.

## Main results

* `ExtensionSet.text_eq_iff` — the letters of a set tell its members.
* `InstructionSet.contains_addEach` — the extensions after any tables were added.
* `InstructionSet.name_eq_iff` — the name tells the register width and the extensions.
* `InstructionSet.name_addEach_eq_iff` — **the name depends only on the register width and
  the set of extensions asked for.**
-/

namespace RiscV

/-! ### Letters -/

namespace Extension

/-- An extension is found by its letter. -/
theorem find?_letter (ext : Extension) :
    canonical.find? (fun other => other.letter == ext.letter) = some ext := by
  cases ext <;> rfl

theorem letter_injective : Function.Injective letter := by
  intro ext ext' h
  have hfind := find?_letter ext
  rw [h, find?_letter ext'] at hfind
  exact (Option.some.inj hfind).symm

end Extension

namespace ExtensionSet

theorem mem_toList {set : ExtensionSet} {ext : Extension} :
    ext ∈ set.toList ↔ set.contains ext = true := by
  rw [toList, List.mem_filter, and_iff_right ext.mem_canonical]

/-- The members are spelled in their order. -/
theorem toList_sublist (set : ExtensionSet) : set.toList.Sublist Extension.canonical :=
  List.filter_sublist

/-- No member is spelled twice. -/
theorem nodup_toList (set : ExtensionSet) : set.toList.Nodup :=
  set.toList_sublist.nodup (by decide)

/-- **The letters of a set tell its members.** -/
theorem text_eq_iff {set set' : ExtensionSet} :
    set.text = set'.text ↔ ∀ ext, set.contains ext = true ↔ set'.contains ext = true := by
  rw [text, text, String.ofList_inj,
    (List.map_injective_iff.mpr Extension.letter_injective).eq_iff]
  constructor
  · intro h ext
    rw [← mem_toList, h, mem_toList]
  · intro h
    apply List.filter_congr
    intro ext _
    exact Bool.eq_iff_iff.mpr (h ext)

end ExtensionSet

/-! ### Names -/

/-- The first digit tells a register width, whatever stands behind its digits. -/
theorem Xlen.eq_of_digits_append {x x' : Xlen} {cs cs' : List Char}
    (h : Nat.toDigits 10 x.bits ++ cs = Nat.toDigits 10 x'.bits ++ cs') : x = x' := by
  have h32 : Nat.toDigits 10 rv32.bits = ['3', '2'] := by decide
  have h64 : Nat.toDigits 10 rv64.bits = ['6', '4'] := by decide
  have h128 : Nat.toDigits 10 rv128.bits = ['1', '2', '8'] := by decide
  cases x <;> cases x' <;>
    simp only [h32, h64, h128, List.cons_append, List.cons.injEq, reduceCtorEq] at h ⊢ <;>
    exact absurd h.1 (by decide)

namespace InstructionSet

theorem toList_name (s : InstructionSet) :
    s.name.toList = 'r' :: 'v' :: (Nat.toDigits 10 s.xlen.bits ++ s.extensions.text.toList) := by
  rw [name, String.toList_append, String.toList_append, Text.toList_natural]
  rfl

/-- **The name tells the register width and the extensions.** -/
theorem name_eq_iff {s s' : InstructionSet} :
    s.name = s'.name ↔ s.xlen = s'.xlen ∧
      ∀ ext, s.extensions.contains ext = true ↔ s'.extensions.contains ext = true := by
  rw [← String.toList_inj, toList_name, toList_name, List.cons_inj_right, List.cons_inj_right]
  constructor
  · intro h
    have hxlen := Xlen.eq_of_digits_append h
    rw [hxlen, List.append_cancel_left_eq, String.toList_inj] at h
    exact ⟨hxlen, ExtensionSet.text_eq_iff.mp h⟩
  · rintro ⟨hxlen, hext⟩
    rw [hxlen, ExtensionSet.text_eq_iff.mpr hext]

/-! ### Adding tables -/

/-- Each table leaves its extension behind, also one that fails. -/
theorem extensions_addEach (s : InstructionSet) (ts : List Table) :
    (s.addEach ts).extensions
      = ts.foldl (fun set t => set.insert t.extension) s.extensions := by
  induction ts generalizing s with
  | nil => rfl
  | cons t ts ih => exact ih (s.add t).set

/-- **The extensions after any tables were added.** -/
theorem contains_addEach (xlen : Xlen) (ts : List Table) (ext : Extension) :
    ((empty xlen).addEach ts).extensions.contains ext = true ↔
      ∃ t ∈ ts, t.extension = ext := by
  have hempty : (empty xlen).extensions.contains ext = false := ExtensionSet.contains_empty ext
  rw [extensions_addEach, ExtensionSet.contains_foldl_insert, hempty]
  simp

/-- The set has the register width and the extensions of the tables, and its name spells
them. -/
structure Spelled (s : InstructionSet) (xlen : Xlen) (ts : List Table) : Prop where
  /-- The extensions are those of the tables. -/
  contains_iff : ∀ ext, s.extensions.contains ext = true ↔ ∃ t ∈ ts, t.extension = ext
  /-- Each of them is in the list of extensions, and no other. -/
  mem_iff : ∀ ext, ext ∈ s.extensions.toList ↔ ∃ t ∈ ts, t.extension = ext
  /-- None is there twice. -/
  nodup : s.extensions.toList.Nodup
  /-- They are listed in this order. -/
  sublist : s.extensions.toList.Sublist
    [.i, .e, .m, .a, .f, .d, .q, .c, .b, .v, .h, .n, .s, .u, .x]
  /-- The name has the width and then their letters. -/
  name_eq : s.name
    = "rv" ++ Text.natural xlen.bits ++ String.ofList (s.extensions.toList.map Extension.letter)

/-- **The name depends only on the register width and the set of extensions asked for.**

Let any tables be added to the empty set, each as far as it goes.  The extensions are those
of the tables, also of those that failed; they are listed once each, in the order in which
they are spelled, and the name is `rv`, the width and their letters.  After other tables the
name is the same exactly if the width is, and the tables have the same extensions. -/
theorem name_addEach_eq_iff :
    (∀ xlen ts, ((empty xlen).addEach ts).Spelled xlen ts) ∧
    ∀ xlen xlen' ts ts', ((empty xlen).addEach ts).name = ((empty xlen').addEach ts').name ↔
      xlen = xlen' ∧ ∀ ext, (∃ t ∈ ts, t.extension = ext) ↔ ∃ t ∈ ts', t.extension = ext := by
  have hxlen : ∀ xlen ts, ((empty xlen).addEach ts).xlen = xlen := by
    intro xlen ts
    exact ((empty xlen).grows_addEach ts).xlen_eq
  constructor
  · intro xlen ts
    refine ⟨contains_addEach xlen ts, ?_, ExtensionSet.nodup_toList _,
      ExtensionSet.toList_sublist _, ?_⟩
    · intro ext
      rw [ExtensionSet.mem_toList, contains_addEach]
    · rw [name, hxlen]
      rfl
  · intro xlen xlen' ts ts'
    rw [name_eq_iff, hxlen, hxlen]
    simp only [contains_addEach]

/-- A table that fails at its first row, one without rows, and its extension once more. -/
example :
    let broken : Table := ⟨"broken", .x, .compressed, [⟨"0000", .cNop⟩]⟩
    let base : Table := ⟨"base", .i, .standard, []⟩
    ((empty .rv32).add broken).failure.isSome = true ∧
    ((empty .rv32).addEach [broken, base, broken]).name = "rv32ix" ∧
    ((empty .rv32).addEach [base, broken]).name = "rv32ix" := by
  decide +kernel

end InstructionSet
end RiscV
