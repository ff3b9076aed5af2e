import Mathlib.Data.List.Forall2
import RiscV.Config
import RiscV.Proofs.Json.Printing

/-!
# How configurations are described

A configuration is described by a JSON value: an object with the keys `xlen`, `preset`
and `modules` in any order, none of them twice and any of them left out, or a list of
their values in this order, which may stop early.  What is left out takes its default.

## Main definitions

* `Config.IsXlen`, `Config.IsName`, `Config.IsPreset`, `Config.IsModules` — how a register
  width, a name, a preset and modules are described.
* `Config.Describes` — how a configuration is described.
* `Config.toValue`, `Config.text` — an object that describes a configuration, and its text.

## Main results

* `Config.Describes.perm` — the order of the keys does not matter.
* `Config.describes_toValue`, `Config.isText_text` — every configuration can be described
  and written.
-/

namespace RiscV.Config

open Json

/-! ### How values are described -/

/-- A register width: null, or a number of 32 bits that is written in digits alone. -/
inductive IsXlen : Value → Option Nat → Prop
  | absent : IsXlen .null none
  | width {whole : List Char} (h : Nat.ofDigitChars 10 whole 0 ≤ 0xffffffff) :
      IsXlen (.number ⟨false, whole, none, none⟩) (some (Nat.ofDigitChars 10 whole 0))

/-- A name: itself, or an object that maps it to null. -/
inductive IsName (name : String) : Value → Prop
  | plain : IsName name (.string name)
  | mapped : IsName name (.object [(name, .null)])

/-- A preset: null, or its name. -/
inductive IsPreset : Value → Option Preset → Prop
  | absent : IsPreset .null none
  | named {p : Preset} {v : Value} (h : IsName p.name v) : IsPreset v (some p)

/-- Modules: a list of their names. -/
inductive IsModules : Value → List Builtin → Prop
  | names {vs : List Value} {ms : List Builtin}
      (h : List.Forall₂ (fun v m => IsName m.name v) vs ms) : IsModules (.list vs) ms

/-- What a value describes, if there is one, or else the default. -/
inductive Given {α : Type} (P : Value → α → Prop) (default : α) : Option Value → α → Prop
  | absent : Given P default none default
  | present {v : Value} {a : α} (h : P v a) : Given P default (some v) a

/-- The values of the keys, where they are given. -/
structure Settings (xlen preset modules : Option Value) (c : Config) : Prop where
  xlen : Given IsXlen none xlen c.xlen
  preset : Given IsPreset none preset c.preset
  modules : Given IsModules [] modules c.modules

/-- A value describes a configuration: an object whose keys are distinct and among those
of a configuration, or a list of at most three values. -/
inductive Describes : Value → Config → Prop
  | object {es : List (String × Value)} {c : Config} (hdistinct : (es.map Prod.fst).Nodup)
      (hknown : ∀ e ∈ es, e.1 ∈ ["xlen", "preset", "modules"])
      (h : Settings (es.lookup "xlen") (es.lookup "preset") (es.lookup "modules") c) :
      Describes (.object es) c
  | list {vs : List Value} {c : Config} (hlength : vs.length ≤ 3)
      (h : Settings vs[0]? vs[1]? vs[2]? c) : Describes (.list vs) c

theorem isName_string {name text : String} : IsName name (.string text) ↔ text = name := by
  constructor
  · intro h
    cases h
    rfl
  · rintro rfl
    exact .plain

theorem isName_object {name key : String} {v : Value} {es : List (String × Value)} :
    IsName name (.object ((key, v) :: es)) ↔ key = name ∧ v = .null ∧ es = [] := by
  constructor
  · intro h
    cases h
    exact ⟨rfl, rfl, rfl⟩
  · rintro ⟨rfl, rfl, rfl⟩
    exact .mapped

theorem isModules_list {vs : List Value} {ms : List Builtin} :
    IsModules (.list vs) ms ↔ List.Forall₂ (fun v m => IsName m.name v) vs ms := by
  constructor
  · intro h
    cases h
    assumption
  · exact .names

theorem given_none {α : Type} {P : Value → α → Prop} {default a : α} :
    Given P default none a ↔ a = default := by
  constructor
  · intro h
    cases h
    rfl
  · rintro rfl
    exact .absent

theorem given_some {α : Type} {P : Value → α → Prop} {default a : α} {v : Value} :
    Given P default (some v) a ↔ P v a := by
  constructor
  · intro h
    cases h
    assumption
  · exact .present

theorem describes_list {vs : List Value} {c : Config} :
    Describes (.list vs) c ↔ vs.length ≤ 3 ∧ Settings vs[0]? vs[1]? vs[2]? c := by
  constructor
  · intro h
    cases h with
    | list hlength h => exact ⟨hlength, h⟩
  · rintro ⟨hlength, h⟩
    exact .list hlength h

/-- A register width that is described has 32 bits. -/
theorem Describes.xlen_le {v : Value} {c : Config} (h : Describes v c) :
    ∀ n, c.xlen = some n → n ≤ 0xffffffff := by
  intro n hn
  have hgiven : ∃ given, Given IsXlen none given c.xlen := by
    cases h with
    | object _ _ h => exact ⟨_, h.xlen⟩
    | list _ h => exact ⟨_, h.xlen⟩
  obtain ⟨given, hgiven⟩ := hgiven
  rw [hn] at hgiven
  cases hgiven with
  | present h =>
    cases h with
    | width h => exact h

/-! ### The order of the keys -/

theorem lookup_eq_none_iff {β : Type} {es : List (String × β)} {name : String} :
    es.lookup name = none ↔ name ∉ es.map Prod.fst := by
  rw [List.lookup_eq_none_iff, List.mem_map]
  constructor
  · rintro h ⟨e, he, rfl⟩
    simpa using h e he
  · intro h e he
    exact bne_iff_ne.mpr fun hname => h ⟨e, he, hname.symm⟩

/-- Where keys are distinct, each has the value of its member. -/
theorem lookup_eq_some_iff {β : Type} {es : List (String × β)} (h : (es.map Prod.fst).Nodup)
    {name : String} {v : β} : es.lookup name = some v ↔ (name, v) ∈ es := by
  induction es with
  | nil => simp
  | cons e es ih =>
    obtain ⟨name', v'⟩ := e
    rw [List.map_cons, List.nodup_cons] at h
    rw [List.lookup_cons, List.mem_cons, Prod.mk.injEq, ← ih h.2]
    by_cases hname : name = name'
    · subst hname
      simp [lookup_eq_none_iff.mpr h.1, eq_comm]
    · simp [beq_false_of_ne hname, hname]

/-- Where keys are distinct, their values do not depend on their order. -/
theorem lookup_eq_of_perm {es es' : List (String × Value)} (hperm : es.Perm es')
    (h : (es.map Prod.fst).Nodup) (name : String) : es'.lookup name = es.lookup name := by
  have h' : (es'.map Prod.fst).Nodup := (hperm.map Prod.fst).nodup_iff.mp h
  apply Option.ext
  intro v
  rw [lookup_eq_some_iff h, lookup_eq_some_iff h']
  exact hperm.mem_iff.symm

/-- **The order of the keys does not matter.** -/
theorem Describes.perm {es es' : List (String × Value)} {c : Config}
    (h : Describes (.object es) c) (hperm : es.Perm es') : Describes (.object es') c := by
  cases h with
  | object hdistinct hknown h =>
    refine .object ((hperm.map Prod.fst).nodup_iff.mp hdistinct)
      (fun e he => hknown e (hperm.mem_iff.mpr he)) ?_
    have hlookup := lookup_eq_of_perm hperm hdistinct
    rw [hlookup, hlookup, hlookup]
    exact h

/-! ### Writing a configuration -/

/-- The value of a register width. -/
def xlenValue : Option Nat → Value
  | none => .null
  | some n => .number (.ofNat n)

/-- The value of a preset. -/
def presetValue : Option Preset → Value
  | none => .null
  | some p => .string p.name

/-- The value of modules. -/
def modulesValue (ms : List Builtin) : Value := .list (ms.map fun m => .string m.name)

/-- An object that describes a configuration. -/
def toValue (c : Config) : Value :=
  .object [("xlen", xlenValue c.xlen), ("preset", presetValue c.preset),
    ("modules", modulesValue c.modules)]

/-- A text that describes a configuration. -/
def text (c : Config) : String := String.ofList c.toValue.text

theorem isXlen_xlenValue {x : Option Nat} (hx : ∀ n, x = some n → n ≤ 0xffffffff) :
    IsXlen (xlenValue x) x := by
  cases x with
  | none => exact .absent
  | some n =>
    have hn : Nat.ofDigitChars 10 (Nat.toDigits 10 n) 0 = n :=
      Nat.ofDigitChars_toDigits (by decide) (by decide)
    have hwidth : IsXlen (xlenValue (some n)) (some (Nat.ofDigitChars 10 (Nat.toDigits 10 n) 0)) :=
      .width (by rw [hn]; exact hx n rfl)
    rwa [hn] at hwidth

theorem isPreset_presetValue (p : Option Preset) : IsPreset (presetValue p) p := by
  cases p with
  | none => exact .absent
  | some p => exact .named .plain

theorem isModules_modulesValue (ms : List Builtin) : IsModules (modulesValue ms) ms := by
  refine .names ?_
  induction ms with
  | nil => exact .nil
  | cons m ms ih => exact .cons .plain ih

/-- **Every configuration can be described.** -/
theorem describes_toValue {c : Config} (hx : ∀ n, c.xlen = some n → n ≤ 0xffffffff) :
    Describes c.toValue c := by
  refine .object (by simp) (by simp) ⟨.present ?_, .present ?_, .present ?_⟩
  · exact isXlen_xlenValue hx
  · exact isPreset_presetValue c.preset
  · exact isModules_modulesValue c.modules

theorem proper_toValue (c : Config) : c.toValue.Proper := by
  have hxlen : (xlenValue c.xlen).Proper := by
    cases c.xlen with
    | none => exact .null
    | some n => exact .number (Numeral.proper_ofNat n)
  have hpreset : (presetValue c.preset).Proper := by
    cases c.preset with
    | none => exact .null
    | some p => exact .string p.name
  have hmodules : (modulesValue c.modules).Proper := by
    refine .list fun v hv => ?_
    obtain ⟨m, -, rfl⟩ := List.mem_map.mp hv
    exact .string m.name
  refine .object ?_
  simp [hxlen, hpreset, hmodules]

/-- **Every configuration can be written.** -/
theorem isText_text (c : Config) : IsText c.toValue c.text.toList := by
  rw [text, String.toList_ofList]
  exact Json.isText_text (proper_toValue c)

end RiscV.Config
