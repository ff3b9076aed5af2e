import RiscV.Config.Reader
import RiscV.Proofs.Config.Description
import RiscV.Proofs.Except
import RiscV.Proofs.Json.Lexing

/-!
# What is read as a configuration

Reading the text of a JSON value gives a configuration exactly if the value describes one,
and then it is the configuration described.

Each reader takes a value off the front of the tokens.  What follows the value is handed
on untouched, so that the readers of the parts add up to the reader of the whole.

## Main definitions

* `Config.Draft.Takes` — a draft takes the members of an object.

## Main results

* `Config.readXlen_eq_ok_iff`, `Config.readPreset_eq_ok_iff`, `Config.readModules_eq_ok_iff`
  — each value is read exactly where it is described.
* `Config.readMoreEntries_eq_ok_iff` — **the members of an object are read into a draft**
  exactly if their keys are known, new and distinct and their values fit.
* `Config.parse_eq_ok_iff` — **a text of a value is read** exactly if the value describes a
  configuration.
-/

namespace RiscV

open Json

/-! ### Whole numbers -/

namespace Json

theorem le_ofDigitChars (cs : List Char) (n : Nat) : n ≤ Nat.ofDigitChars 10 cs n := by
  induction cs generalizing n with
  | nil => exact Nat.le_refl n
  | cons c cs ih =>
    rw [Nat.ofDigitChars_cons]
    have := ih (10 * n + (c.toNat - '0'.toNat))
    omega

/-- Digits that fit are all collected; otherwise the power of ten is raised. -/
theorem takeWhole_cases (cs : List Char) (d : Digits) (hd : d.significand ≤ maxSignificand) :
    (Nat.ofDigitChars 10 cs d.significand ≤ maxSignificand ∧
        d.takeWhole cs = { d with significand := Nat.ofDigitChars 10 cs d.significand }) ∨
      (maxSignificand < Nat.ofDigitChars 10 cs d.significand ∧
        d.power < (d.takeWhole cs).power) := by
  induction cs generalizing d with
  | nil => exact .inl ⟨hd, rfl⟩
  | cons c cs ih =>
    rw [Nat.ofDigitChars_cons, Nat.mul_comm]
    by_cases hfits : d.significand * 10 + digitOf c ≤ maxSignificand
    · rw [Digits.takeWhole, if_pos hfits]
      exact ih { d with significand := d.significand * 10 + digitOf c } hfits
    · have hle := le_ofDigitChars cs (d.significand * 10 + digitOf c)
      rw [Digits.takeWhole, if_neg hfits]
      refine .inr ⟨Nat.lt_of_lt_of_le (Nat.lt_of_not_le hfits) hle, ?_⟩
      show d.power < d.power + (cs.length + 1)
      omega

theorem real?_ne_integer (n : Numeral) (i : Int) : n.real? ≠ some (.integer i) := by
  intro h
  obtain ⟨value, -, hvalue⟩ := Option.map_eq_some_iff.mp h
  contradiction

/-- **A natural number of 32 bits is written in digits alone.** -/
theorem value?_eq_natural_iff {n : Numeral} {k : Nat} (hk : k ≤ 0xffffffff) :
    n.value? = some (.integer k) ↔
      n.negative = false ∧ n.fraction = none ∧ n.exponent = none ∧
        Nat.ofDigitChars 10 n.whole 0 = k := by
  have hmax : 0xffffffff ≤ maxSignificand := by decide
  have hcases := takeWhole_cases n.whole {} (Nat.zero_le _)
  simp only [Numeral.value?]
  generalize ({} : Digits).takeWhole n.whole = d at hcases ⊢
  constructor
  · intro h
    split at h
    · next hplain =>
      obtain ⟨hfraction, hexponent, hpower⟩ := hplain
      split at h
      · split at h
        · have hneg := Number.integer.inj (Option.some.inj h)
          omega
        · exact absurd h (real?_ne_integer n k)
      · next hpositive =>
        have hvalue := Number.integer.inj (Option.some.inj h)
        rcases hcases with ⟨-, rfl⟩ | ⟨-, hraised⟩
        · exact ⟨Bool.eq_false_iff.mpr hpositive, Option.isNone_iff_eq_none.mp hfraction,
            Option.isNone_iff_eq_none.mp hexponent, Int.ofNat.inj hvalue⟩
        · exact absurd hpower (Int.ne_of_gt hraised)
    · exact absurd h (real?_ne_integer n k)
  · rintro ⟨hnegative, hfraction, hexponent, rfl⟩
    rcases hcases with ⟨-, rfl⟩ | ⟨hlarge, -⟩
    · simp [hnegative, hfraction, hexponent]
    · exact absurd (Nat.le_trans hk hmax) (Nat.not_le_of_lt hlarge)

end Json

namespace Config

/-! ### Widths, names, presets and modules -/

theorem readXlen_eq_ok_iff {v : Value} {k k' : List Token} {x : Option Nat} :
    readXlen (v.tokens k) = .ok (x, k') ↔ IsXlen v x ∧ k' = k := by
  constructor
  · intro h
    cases v with
    | null =>
      simp only [Value.tokens, readXlen, Except.ok.injEq, Prod.mk.injEq] at h
      obtain ⟨rfl, rfl⟩ := h
      exact ⟨.absent, rfl⟩
    | boolean b => simp [Value.tokens, readXlen] at h
    | number n =>
      rw [Value.tokens] at h
      cases hvalue : n.value? with
      | none => simp [hvalue, readXlen] at h
      | some number =>
        cases number with
        | real negative d => simp [hvalue, readXlen] at h
        | integer i =>
          simp only [hvalue, readXlen] at h
          split at h
          · next hrange =>
            obtain ⟨rfl, rfl⟩ := Prod.mk.inj (Except.ok.inj h)
            obtain ⟨m, rfl⟩ := Int.eq_ofNat_of_zero_le hrange.1
            have hm : m ≤ 0xffffffff := by omega
            obtain ⟨negative, whole, fraction, exponent⟩ := n
            obtain ⟨rfl, rfl, rfl, rfl⟩ := (value?_eq_natural_iff hm).mp hvalue
            exact ⟨.width hm, rfl⟩
          · contradiction
    | string text => simp [Value.tokens, readXlen] at h
    | list vs => cases vs <;> simp [Value.tokens, readXlen] at h
    | object es => cases es <;> simp [Value.tokens, readXlen] at h
  · rintro ⟨h, rfl⟩
    cases h with
    | absent => simp [Value.tokens, readXlen]
    | @width whole h =>
      have hvalue := (value?_eq_natural_iff (n := ⟨false, whole, none, none⟩) h).mpr
        ⟨rfl, rfl, rfl, rfl⟩
      simp only [Value.tokens, hvalue, readXlen]
      rw [if_pos (by omega)]
      rfl

/-- A name in its object form is mapped to null and to nothing else. -/
theorem readNameEnd_eq_ok_iff {v : Value} {es : List (String × Value)} {k k' : List Token} :
    readNameEnd (.colon :: v.tokens (furtherMembers es (.closeObject :: k))) = .ok k' ↔
      v = .null ∧ es = [] ∧ k' = k := by
  cases v with
  | null =>
    cases es with
    | nil => simp [Value.tokens, furtherMembers, readNameEnd, eq_comm]
    | cons e es => simp [Value.tokens, furtherMembers, readNameEnd]
  | boolean b => simp [Value.tokens, readNameEnd]
  | number n => cases h : n.value? <;> simp [Value.tokens, h, readNameEnd]
  | string text => simp [Value.tokens, readNameEnd]
  | list vs => cases vs <;> simp [Value.tokens, readNameEnd]
  | object es => cases es <;> simp [Value.tokens, readNameEnd]

theorem readName_eq_ok_iff {α : Type} {known : List (String × α)} {v : Value}
    {k k' : List Token} {a : α} :
    readName known (v.tokens k) = .ok (a, k') ↔
      (∃ name, known.lookup name = some a ∧ IsName name v) ∧ k' = k := by
  cases v with
  | null =>
    exact iff_of_false (by simp [Value.tokens, readName]) (by rintro ⟨⟨name, -, ⟨⟩⟩, -⟩)
  | boolean b =>
    exact iff_of_false (by simp [Value.tokens, readName]) (by rintro ⟨⟨name, -, ⟨⟩⟩, -⟩)
  | number n =>
    exact iff_of_false (by cases h : n.value? <;> simp [Value.tokens, h, readName])
      (by rintro ⟨⟨name, -, ⟨⟩⟩, -⟩)
  | string text =>
    simp only [Value.tokens, readName, isName_string, exists_eq_right']
    cases known.lookup text with
    | none => simp
    | some b => simp [eq_comm]
  | list vs =>
    exact iff_of_false (by cases vs <;> simp [Value.tokens, readName])
      (by rintro ⟨⟨name, -, ⟨⟩⟩, -⟩)
  | object es =>
    cases es with
    | nil =>
      exact iff_of_false (by simp [Value.tokens, readName]) (by rintro ⟨⟨name, -, ⟨⟩⟩, -⟩)
    | cons e es =>
      obtain ⟨key, v⟩ := e
      simp only [Value.tokens, readName, isName_object]
      cases hlookup : known.lookup key with
      | none => simp [hlookup]
      | some b =>
        simp only [Except.map_eq_ok, readNameEnd_eq_ok_iff, Prod.mk.injEq]
        constructor
        · rintro ⟨rest, ⟨rfl, rfl, rfl⟩, rfl, rfl⟩
          exact ⟨⟨key, hlookup, rfl, rfl, rfl⟩, rfl⟩
        · rintro ⟨⟨name, hname, rfl, rfl, rfl⟩, rfl⟩
          exact ⟨k', ⟨rfl, rfl, rfl⟩, Option.some.inj (hlookup.symm.trans hname), rfl⟩

/-- Where names are distinct, each thing is found under its own name. -/
theorem lookup_map_name {α : Type} {f : α → String} {as : List α} {name : String} {a : α}
    (hf : (as.map f).Nodup) :
    (as.map fun a => (f a, a)).lookup name = some a ↔ a ∈ as ∧ name = f a := by
  have hkeys : (as.map fun a => (f a, a)).map Prod.fst = as.map f := List.map_map
  rw [lookup_eq_some_iff (by rwa [hkeys]), List.mem_map]
  constructor
  · rintro ⟨b, hb, heq⟩
    obtain ⟨rfl, rfl⟩ := Prod.mk.inj heq
    exact ⟨hb, rfl⟩
  · rintro ⟨ha, rfl⟩
    exact ⟨a, ha, rfl⟩

/-- The identifier of a preset in lower case is its name. -/
theorem lowerCase_identifier (p : Preset) : lowerCase p.identifier = p.name := by
  cases p <;> decide

/-- The identifier of a module in snake case is its name. -/
theorem snakeCase_identifier (m : Builtin) : snakeCase m.identifier = m.name := by
  cases m <;> decide

theorem lookup_presetNames {name : String} {p : Preset} :
    presetNames.lookup name = some p ↔ name = p.name := by
  simp only [presetNames, lowerCase_identifier]
  exact (lookup_map_name (by decide)).trans (and_iff_right p.mem_all)

theorem lookup_moduleNames {name : String} {m : Builtin} :
    moduleNames.lookup name = some m ↔ name = m.name := by
  simp only [moduleNames, snakeCase_identifier]
  exact (lookup_map_name (by decide)).trans (and_iff_right m.mem_all)

theorem readPreset_eq_ok_iff {v : Value} {k k' : List Token} {p : Option Preset} :
    readPreset (v.tokens k) = .ok (p, k') ↔ IsPreset v p ∧ k' = k := by
  by_cases hnull : v = .null
  · subst hnull
    simp only [Value.tokens, readPreset, Except.ok.injEq, Prod.mk.injEq]
    constructor
    · rintro ⟨rfl, rfl⟩
      exact ⟨.absent, rfl⟩
    · rintro ⟨h, rfl⟩
      cases h with
      | absent => exact ⟨rfl, rfl⟩
      | named h => cases h
  · -- anything but null is read as a name
    have hname : readPreset (v.tokens k)
        = (readName presetNames (v.tokens k)).map fun r => (some r.1, r.2) := by
      cases v with
      | null => contradiction
      | number n =>
        rw [Value.tokens]
        cases n.value? <;> rfl
      | list vs => cases vs <;> rw [Value.tokens] <;> rfl
      | object es => cases es <;> rw [Value.tokens] <;> rfl
      | _ =>
        rw [Value.tokens]
        rfl
    simp only [hname, Except.map_eq_ok, Prod.exists, readName_eq_ok_iff, lookup_presetNames,
      exists_eq_left, Prod.mk.injEq]
    constructor
    · rintro ⟨q, rest, ⟨h, rfl⟩, rfl, rfl⟩
      exact ⟨.named h, rfl⟩
    · rintro ⟨h, rfl⟩
      cases h with
      | absent => contradiction
      | named h => exact ⟨_, _, ⟨h, rfl⟩, rfl, rfl⟩

theorem readModule_eq_ok_iff {v : Value} {k k' : List Token} {m : Builtin} :
    readName moduleNames (v.tokens k) = .ok (m, k') ↔ IsName m.name v ∧ k' = k := by
  simp only [readName_eq_ok_iff, lookup_moduleNames, exists_eq_left]

theorem readMoreModules_comma {ts : List Token} :
    readMoreModules (.comma :: ts) = readName moduleNames ts >>= fun (m, rest) =>
      (readMoreModules rest).map fun (ms, rest) => (m :: ms, rest) := by
  rw [readMoreModules]
  split
  · next h => simp only [h, bind, Except.bind]
  · next h => simp only [h, bind, Except.bind]

theorem readMoreModules_eq_ok_iff {vs : List Value} {k k' : List Token} {ms : List Builtin} :
    readMoreModules (furtherElements vs (.closeList :: k)) = .ok (ms, k') ↔
      List.Forall₂ (fun v m => IsName m.name v) vs ms ∧ k' = k := by
  induction vs generalizing ms with
  | nil =>
    simp only [furtherElements, readMoreModules, Except.ok.injEq, Prod.mk.injEq,
      List.forall₂_nil_left_iff]
    exact and_congr eq_comm eq_comm
  | cons v vs ih =>
    rw [furtherElements, readMoreModules_comma, Except.bind_eq_ok]
    simp only [Prod.exists, readModule_eq_ok_iff, Except.map_eq_ok, Prod.mk.injEq,
      List.forall₂_cons_left_iff]
    constructor
    · rintro ⟨m, rest, ⟨hm, rfl⟩, ms', rest', hmore, rfl, rfl⟩
      obtain ⟨hms, hrest⟩ := ih.mp hmore
      exact ⟨⟨m, ms', hm, hms, rfl⟩, hrest⟩
    · rintro ⟨⟨m, ms', hm, hms, rfl⟩, rfl⟩
      exact ⟨m, _, ⟨hm, rfl⟩, ms', _, ih.mpr ⟨hms, rfl⟩, rfl, rfl⟩

/-- The first module is read like a further one. -/
theorem readModules_openList (v : Value) (k : List Token) :
    readModules (.openList :: v.tokens k) = readMoreModules (.comma :: v.tokens k) := by
  rw [readMoreModules_comma]
  unfold readModules
  split
  · next heq => exact absurd (List.cons.inj heq).2 (v.tokens_ne_closeList k _)
  · next heq =>
    rw [(List.cons.inj heq).2]
    rfl
  · next hno => exact absurd rfl (hno _)

theorem readModules_eq_ok_iff {v : Value} {k k' : List Token} {ms : List Builtin} :
    readModules (v.tokens k) = .ok (ms, k') ↔ IsModules v ms ∧ k' = k := by
  cases v with
  | null => exact iff_of_false (by simp [Value.tokens, readModules]) (by rintro ⟨⟨⟩, -⟩)
  | boolean b => exact iff_of_false (by simp [Value.tokens, readModules]) (by rintro ⟨⟨⟩, -⟩)
  | number n =>
    exact iff_of_false (by cases h : n.value? <;> simp [Value.tokens, h, readModules])
      (by rintro ⟨⟨⟩, -⟩)
  | string text => exact iff_of_false (by simp [Value.tokens, readModules]) (by rintro ⟨⟨⟩, -⟩)
  | object es =>
    exact iff_of_false (by cases es <;> simp [Value.tokens, readModules]) (by rintro ⟨⟨⟩, -⟩)
  | list vs =>
    rw [isModules_list]
    cases vs with
    | nil =>
      simp only [Value.tokens, readModules, Except.ok.injEq, Prod.mk.injEq,
        List.forall₂_nil_left_iff]
      exact and_congr eq_comm eq_comm
    | cons v vs =>
      rw [Value.tokens, readModules_openList, ← furtherElements]
      exact readMoreModules_eq_ok_iff

/-! ### The object form -/

/-- What a draft holds for a key behind members that may give it a value: the value of the
members, which must be the only one, or what it held before. -/
def Entry {α : Type} (P : Value → α → Prop) (old : Option α) (given : Option Value)
    (new : Option α) : Prop :=
  match given with
  | none => new = old
  | some v => old = none ∧ ∃ a, P v a ∧ new = some a

/-- A draft takes the members of an object: their keys are known and distinct, and none of
them has a value already. -/
structure Draft.Takes (d : Draft) (es : List (String × Value)) (d' : Draft) : Prop where
  distinct : (es.map Prod.fst).Nodup
  known : ∀ e ∈ es, e.1 ∈ ["xlen", "preset", "modules"]
  xlen : Entry IsXlen d.xlen (es.lookup "xlen") d'.xlen
  preset : Entry IsPreset d.preset (es.lookup "preset") d'.preset
  modules : Entry IsModules d.modules (es.lookup "modules") d'.modules

/-- A draft takes the value of a key that has none. -/
def Draft.Sets (d : Draft) (v : Value) (d' : Draft) : Key → Prop
  | .xlen => d.xlen = none ∧ ∃ x, IsXlen v x ∧ d' = { d with xlen := some x }
  | .preset => d.preset = none ∧ ∃ p, IsPreset v p ∧ d' = { d with preset := some p }
  | .modules => d.modules = none ∧ ∃ ms, IsModules v ms ∧ d' = { d with modules := some ms }

theorem entry_some {α : Type} {P : Value → α → Prop} {a : α} {given : Option Value}
    {new : Option α} : Entry P (some a) given new ↔ given = none ∧ new = some a := by
  cases given with
  | none => simp [Entry]
  | some v => simp [Entry]

/-- Members are taken one after the other. -/
theorem Draft.takes_cons {d d' : Draft} {name : String} {v : Value}
    {es : List (String × Value)} :
    d.Takes ((name, v) :: es) d' ↔
      ∃ d₁, (∃ key : Key, key.name = name ∧ d.Sets v d₁ key) ∧ d₁.Takes es d' := by
  constructor
  · rintro ⟨hdistinct, hknown, hxlen, hpreset, hmodules⟩
    rw [List.map_cons, List.nodup_cons, ← lookup_eq_none_iff] at hdistinct
    obtain ⟨hnew, hdistinct⟩ := hdistinct
    obtain ⟨hname, hes⟩ := List.forall_mem_cons.mp hknown
    simp only [List.mem_cons, List.not_mem_nil, or_false] at hname
    rcases hname with rfl | rfl | rfl
    · obtain ⟨hnone, x, hx, hd'⟩ := hxlen
      exact ⟨{ d with xlen := some x }, ⟨.xlen, rfl, hnone, x, hx, rfl⟩, hdistinct, hes,
        entry_some.mpr ⟨hnew, hd'⟩, hpreset, hmodules⟩
    · obtain ⟨hnone, p, hp, hd'⟩ := hpreset
      exact ⟨{ d with preset := some p }, ⟨.preset, rfl, hnone, p, hp, rfl⟩, hdistinct, hes,
        hxlen, entry_some.mpr ⟨hnew, hd'⟩, hmodules⟩
    · obtain ⟨hnone, ms, hms, hd'⟩ := hmodules
      exact ⟨{ d with modules := some ms }, ⟨.modules, rfl, hnone, ms, hms, rfl⟩, hdistinct, hes,
        hxlen, hpreset, entry_some.mpr ⟨hnew, hd'⟩⟩
  · rintro ⟨d₁, ⟨key, rfl, hset⟩, hdistinct, hknown, hxlen, hpreset, hmodules⟩
    have hkeys : es.lookup key.name = none → (((key.name, v) :: es).map Prod.fst).Nodup := by
      intro hnew
      exact List.nodup_cons.mpr ⟨lookup_eq_none_iff.mp hnew, hdistinct⟩
    have hall : ∀ e ∈ (key.name, v) :: es, e.1 ∈ ["xlen", "preset", "modules"] := by
      refine List.forall_mem_cons.mpr ⟨?_, hknown⟩
      show key.name ∈ _
      cases key <;> decide
    cases key with
    | xlen =>
      obtain ⟨hnone, x, hx, rfl⟩ := hset
      obtain ⟨hnew, hd'⟩ := entry_some.mp hxlen
      exact ⟨hkeys hnew, hall, ⟨hnone, x, hx, hd'⟩, hpreset, hmodules⟩
    | preset =>
      obtain ⟨hnone, p, hp, rfl⟩ := hset
      obtain ⟨hnew, hd'⟩ := entry_some.mp hpreset
      exact ⟨hkeys hnew, hall, hxlen, ⟨hnone, p, hp, hd'⟩, hmodules⟩
    | modules =>
      obtain ⟨hnone, ms, hms, rfl⟩ := hset
      obtain ⟨hnew, hd'⟩ := entry_some.mp hmodules
      exact ⟨hkeys hnew, hall, hxlen, hpreset, ⟨hnone, ms, hms, hd'⟩⟩

theorem Draft.takes_nil {d d' : Draft} : d.Takes [] d' ↔ d' = d := by
  constructor
  · rintro ⟨-, -, hxlen, hpreset, hmodules⟩
    obtain ⟨xlen, preset, modules⟩ := d
    obtain ⟨xlen', preset', modules'⟩ := d'
    rw [show xlen' = xlen from hxlen, show preset' = preset from hpreset,
      show modules' = modules from hmodules]
  · rintro rfl
    exact ⟨List.nodup_nil, by simp, rfl, rfl, rfl⟩

/-- The value of a key is read into a draft. -/
theorem map_read_eq_ok_iff {α : Type} {read : List Token → Except ReadError (α × List Token)}
    {P : Value → α → Prop}
    (hread : ∀ {v k k' a}, read (v.tokens k) = .ok (a, k') ↔ P v a ∧ k' = k) (set : α → Draft)
    {v : Value} {k k' : List Token} {d : Draft} :
    (read (v.tokens k)).map (fun (a, rest) => (set a, rest)) = .ok (d, k') ↔
      (∃ a, P v a ∧ d = set a) ∧ k' = k := by
  simp only [Except.map_eq_ok, Prod.exists, hread, Prod.mk.injEq]
  constructor
  · rintro ⟨a, rest, ⟨ha, rfl⟩, rfl, rfl⟩
    exact ⟨⟨a, ha, rfl⟩, rfl⟩
  · rintro ⟨⟨a, ha, rfl⟩, rfl⟩
    exact ⟨a, _, ⟨ha, rfl⟩, rfl, rfl⟩

theorem readValue_eq_ok_iff {d d' : Draft} {key : Key} {v : Value} {k k' : List Token}
    (hnew : d.has key = false) :
    readValue d key (v.tokens k) = .ok (d', k') ↔ d.Sets v d' key ∧ k' = k := by
  cases key with
  | xlen =>
    have hnone : d.xlen = none := by simpa [Draft.has] using hnew
    simp only [Draft.Sets, hnone, true_and]
    exact map_read_eq_ok_iff readXlen_eq_ok_iff fun x => { d with xlen := some x }
  | preset =>
    have hnone : d.preset = none := by simpa [Draft.has] using hnew
    simp only [Draft.Sets, hnone, true_and]
    exact map_read_eq_ok_iff readPreset_eq_ok_iff fun p => { d with preset := some p }
  | modules =>
    have hnone : d.modules = none := by simpa [Draft.has] using hnew
    simp only [Draft.Sets, hnone, true_and]
    exact map_read_eq_ok_iff readModules_eq_ok_iff fun ms => { d with modules := some ms }

theorem Draft.Sets.has_eq_false {d d' : Draft} {v : Value} {key : Key} (h : d.Sets v d' key) :
    d.has key = false := by
  cases key <;> simp [Draft.has, h.1]

theorem ofName?_eq_some_iff {text : String} {key : Key} :
    Key.ofName? text = some key ↔ key.name = text := by
  constructor
  · intro h
    simpa using List.find?_some h
  · rintro rfl
    cases key <;> rfl

theorem readEntry_eq_ok_iff {d d' : Draft} {name : String} {v : Value} {k k' : List Token} :
    readEntry d (.string name :: .colon :: v.tokens k) = .ok (d', k') ↔
      (∃ key : Key, key.name = name ∧ d.Sets v d' key) ∧ k' = k := by
  simp only [readEntry, ← ofName?_eq_some_iff]
  cases hkey : Key.ofName? name with
  | none => simp
  | some key =>
    simp only [Option.some.injEq, exists_eq_left']
    cases hnew : d.has key with
    | false => exact readValue_eq_ok_iff hnew
    | true =>
      simp only [if_true, reduceCtorEq, false_iff]
      rintro ⟨h, -⟩
      exact Bool.noConfusion (hnew.symm.trans h.has_eq_false)

theorem readMoreEntries_comma {d : Draft} {ts : List Token} :
    readMoreEntries d (.comma :: ts)
      = readEntry d ts >>= fun (d', rest) => readMoreEntries d' rest := by
  rw [readMoreEntries]
  split
  · next h => simp only [h, bind, Except.bind]
  · next h => simp only [h, bind, Except.bind]

/-- **The members of an object are read into a draft** exactly if the draft takes them. -/
theorem readMoreEntries_eq_ok_iff {d d' : Draft} {es : List (String × Value)}
    {k k' : List Token} :
    readMoreEntries d (furtherMembers es (.closeObject :: k)) = .ok (d', k') ↔
      d.Takes es d' ∧ k' = k := by
  induction es generalizing d with
  | nil =>
    simp only [furtherMembers, readMoreEntries, Except.ok.injEq, Prod.mk.injEq, Draft.takes_nil]
    exact and_congr eq_comm eq_comm
  | cons e es ih =>
    obtain ⟨name, v⟩ := e
    rw [furtherMembers, readMoreEntries_comma, Except.bind_eq_ok, Draft.takes_cons]
    simp only [Prod.exists, readEntry_eq_ok_iff]
    constructor
    · rintro ⟨d₁, rest, ⟨hset, rfl⟩, hmore⟩
      obtain ⟨htakes, hrest⟩ := ih.mp hmore
      exact ⟨⟨d₁, hset, htakes⟩, hrest⟩
    · rintro ⟨⟨d₁, hset, htakes⟩, rfl⟩
      exact ⟨d₁, _, ⟨hset, rfl⟩, ih.mpr ⟨htakes, rfl⟩⟩

/-- What a draft that was empty holds for a key, or else the default. -/
theorem given_iff_entry {α : Type} {P : Value → α → Prop} {default a : α}
    {given : Option Value} :
    Given P default given a ↔ ∃ new, Entry P none given new ∧ new.getD default = a := by
  cases given with
  | none =>
    rw [given_none]
    simp [Entry, eq_comm]
  | some v =>
    rw [given_some]
    simp only [Entry, true_and]
    constructor
    · intro h
      exact ⟨some a, ⟨a, h, rfl⟩, rfl⟩
    · rintro ⟨_, ⟨b, h, rfl⟩, rfl⟩
      exact h

theorem describes_object {es : List (String × Value)} {c : Config} :
    Describes (.object es) c ↔ ∃ d, ({} : Draft).Takes es d ∧ d.toConfig = c := by
  constructor
  · rintro ⟨hdistinct, hknown, hxlen, hpreset, hmodules⟩
    obtain ⟨x, hx, hxlen⟩ := given_iff_entry.mp hxlen
    obtain ⟨p, hp, hpreset⟩ := given_iff_entry.mp hpreset
    obtain ⟨ms, hms, hmodules⟩ := given_iff_entry.mp hmodules
    refine ⟨⟨x, p, ms⟩, ⟨hdistinct, hknown, hx, hp, hms⟩, ?_⟩
    rw [Draft.toConfig, hxlen, hpreset, hmodules]
  · rintro ⟨d, ⟨hdistinct, hknown, hx, hp, hms⟩, rfl⟩
    exact .object hdistinct hknown ⟨given_iff_entry.mpr ⟨_, hx, rfl⟩,
      given_iff_entry.mpr ⟨_, hp, rfl⟩, given_iff_entry.mpr ⟨_, hms, rfl⟩⟩

/-- The first member is read like a further one. -/
theorem readObject_string (name : String) (ts : List Token) :
    readObject (.string name :: ts)
      = (readMoreEntries {} (.comma :: .string name :: ts)).map fun (d, rest) =>
          (d.toConfig, rest) := by
  rw [readMoreEntries_comma, readObject]
  · cases readEntry {} (.string name :: ts) with
    | error e => rfl
    | ok r =>
      show (readMoreEntries r.1 r.2 >>= _) = (readMoreEntries r.1 r.2).map _
      cases readMoreEntries r.1 r.2 <;> rfl
  · intro ts' h
    simp at h

theorem readObject_eq_ok_iff {es : List (String × Value)} {ts k k' : List Token} {c : Config}
    (hts : (Value.object es).tokens k = .openObject :: ts) :
    readObject ts = .ok (c, k') ↔ Describes (.object es) c ∧ k' = k := by
  have hmore : readObject ts = (readMoreEntries {} (furtherMembers es (.closeObject :: k))).map
      fun (d, rest) => (d.toConfig, rest) := by
    cases es with
    | nil =>
      rw [Value.tokens] at hts
      rw [← (List.cons.inj hts).2, furtherMembers, readMoreEntries]
      rfl
    | cons e es =>
      rw [Value.tokens] at hts
      rw [← (List.cons.inj hts).2, furtherMembers]
      exact readObject_string _ _
  rw [hmore, Except.map_eq_ok, describes_object]
  simp only [Prod.exists, readMoreEntries_eq_ok_iff, Prod.mk.injEq]
  constructor
  · rintro ⟨d, rest, ⟨htakes, rfl⟩, rfl, rfl⟩
    exact ⟨⟨d, htakes, rfl⟩, rfl⟩
  · rintro ⟨⟨d, htakes, rfl⟩, rfl⟩
    exact ⟨d, _, ⟨htakes, rfl⟩, rfl, rfl⟩

/-! ### The list form -/

theorem readListEnd_eq_ok_iff {c c' : Config} {vs : List Value} {k k' : List Token} :
    readListEnd c (furtherElements vs (.closeList :: k)) = .ok (c', k') ↔
      vs = [] ∧ c' = c ∧ k' = k := by
  cases vs with
  | nil =>
    simp only [furtherElements, readListEnd, Except.ok.injEq, Prod.mk.injEq, true_and]
    exact and_congr eq_comm eq_comm
  | cons v vs => simp [furtherElements, readListEnd]

theorem readThird_eq_ok_iff {c c' : Config} {vs : List Value} {k k' : List Token} :
    readThird c (furtherElements vs (.closeList :: k)) = .ok (c', k') ↔
      vs.length ≤ 1 ∧ (∃ ms, Given IsModules c.modules vs[0]? ms ∧ c' = { c with modules := ms }) ∧
        k' = k := by
  cases vs with
  | nil =>
    simp only [List.length_nil, Nat.zero_le, List.getElem?_nil, given_none, exists_eq_left,
      true_and]
    exact readListEnd_eq_ok_iff.trans (and_iff_right rfl)
  | cons v vs =>
    simp only [furtherElements, readThird, Except.bind_eq_ok, Prod.exists, readModules_eq_ok_iff,
      List.getElem?_cons_zero, given_some, List.length_cons]
    constructor
    · rintro ⟨ms, rest, ⟨hms, rfl⟩, hend⟩
      obtain ⟨rfl, rfl, rfl⟩ := readListEnd_eq_ok_iff.mp hend
      exact ⟨Nat.le_refl 1, ⟨ms, hms, rfl⟩, rfl⟩
    · rintro ⟨hlength, ⟨ms, hms, rfl⟩, rfl⟩
      obtain rfl := List.eq_nil_of_length_eq_zero (Nat.le_zero.mp (Nat.le_of_succ_le_succ hlength))
      exact ⟨ms, _, ⟨hms, rfl⟩, readListEnd_eq_ok_iff.mpr ⟨rfl, rfl, rfl⟩⟩

theorem readSecond_eq_ok_iff {c c' : Config} {vs : List Value} {k k' : List Token} :
    readSecond c (furtherElements vs (.closeList :: k)) = .ok (c', k') ↔
      vs.length ≤ 2 ∧
        (∃ p ms, Given IsPreset c.preset vs[0]? p ∧ Given IsModules c.modules vs[1]? ms ∧
          c' = { c with preset := p, modules := ms }) ∧
        k' = k := by
  cases vs with
  | nil =>
    simp only [List.length_nil, Nat.zero_le, List.getElem?_nil, given_none, exists_and_left,
      exists_eq_left, true_and]
    exact readListEnd_eq_ok_iff.trans (and_iff_right rfl)
  | cons v vs =>
    simp only [furtherElements, readSecond, Except.bind_eq_ok, Prod.exists, readPreset_eq_ok_iff,
      List.getElem?_cons_zero, List.getElem?_cons_succ, given_some, List.length_cons]
    constructor
    · rintro ⟨p, rest, ⟨hp, rfl⟩, hmore⟩
      obtain ⟨hlength, ⟨ms, hms, rfl⟩, hrest⟩ := readThird_eq_ok_iff.mp hmore
      exact ⟨Nat.succ_le_succ hlength, ⟨p, ms, hp, hms, rfl⟩, hrest⟩
    · rintro ⟨hlength, ⟨p, ms, hp, hms, rfl⟩, rfl⟩
      exact ⟨p, _, ⟨hp, rfl⟩,
        readThird_eq_ok_iff.mpr ⟨Nat.le_of_succ_le_succ hlength, ⟨ms, hms, rfl⟩, rfl⟩⟩

/-- A list that does not end at once starts with a width. -/
theorem readList_tokens (v : Value) (k : List Token) :
    readList (v.tokens k) = readXlen (v.tokens k) >>= fun (xlen, ts) => readSecond { xlen } ts := by
  rw [readList]
  exact v.tokens_ne_closeList k

theorem readList_eq_ok_iff {vs : List Value} {ts k k' : List Token} {c : Config}
    (hts : (Value.list vs).tokens k = .openList :: ts) :
    readList ts = .ok (c, k') ↔ Describes (.list vs) c ∧ k' = k := by
  rw [describes_list]
  cases vs with
  | nil =>
    rw [Value.tokens] at hts
    rw [← (List.cons.inj hts).2]
    simp only [readList, Except.ok.injEq, Prod.mk.injEq, List.length_nil, Nat.zero_le,
      List.getElem?_nil, true_and]
    refine and_congr ?_ eq_comm
    constructor
    · rintro rfl
      exact ⟨.absent, .absent, .absent⟩
    · rintro ⟨hxlen, hpreset, hmodules⟩
      rw [← given_none.mp hxlen, ← given_none.mp hpreset, ← given_none.mp hmodules]
  | cons v vs =>
    rw [Value.tokens] at hts
    rw [← (List.cons.inj hts).2, readList_tokens, Except.bind_eq_ok]
    simp only [Prod.exists, readXlen_eq_ok_iff, List.getElem?_cons_zero, List.getElem?_cons_succ,
      List.length_cons]
    constructor
    · rintro ⟨x, rest, ⟨hx, rfl⟩, hmore⟩
      obtain ⟨hlength, ⟨p, ms, hp, hms, rfl⟩, hrest⟩ := readSecond_eq_ok_iff.mp hmore
      exact ⟨⟨Nat.succ_le_succ hlength, given_some.mpr hx, hp, hms⟩, hrest⟩
    · rintro ⟨⟨hlength, hx, hp, hms⟩, rfl⟩
      exact ⟨c.xlen, _, ⟨given_some.mp hx, rfl⟩, readSecond_eq_ok_iff.mpr
        ⟨Nat.le_of_succ_le_succ hlength, ⟨c.preset, c.modules, hp, hms, rfl⟩, rfl⟩⟩

/-! ### The whole -/

/-- Nothing may follow a configuration. -/
theorem bind_isEmpty_eq_ok_iff {r : Except ReadError (Config × List Token)} {c : Config} :
    (r >>= fun (c, rest) => if rest.isEmpty then .ok c else .error (.json .malformed)) = .ok c ↔
      r = .ok (c, []) := by
  rw [Except.bind_eq_ok]
  constructor
  · rintro ⟨⟨c', rest⟩, rfl, h⟩
    cases rest with
    | nil => rw [Except.ok.inj h]
    | cons t ts => contradiction
  · rintro rfl
    exact ⟨_, rfl, rfl⟩

/-- **A value is read exactly if it describes a configuration**, as the one it describes. -/
theorem ofTokens_eq_ok_iff {v : Value} {c : Config} :
    ofTokens (v.tokens []) = .ok c ↔ Describes v c := by
  cases v with
  | null =>
    exact iff_of_false (by simp [Value.tokens, ofTokens, bind, Except.bind]) (by rintro ⟨⟩)
  | boolean b =>
    exact iff_of_false (by simp [Value.tokens, ofTokens, bind, Except.bind]) (by rintro ⟨⟩)
  | number n =>
    exact iff_of_false
      (by cases h : n.value? <;> simp [Value.tokens, h, ofTokens, bind, Except.bind]) (by rintro ⟨⟩)
  | string text =>
    exact iff_of_false (by simp [Value.tokens, ofTokens, bind, Except.bind]) (by rintro ⟨⟩)
  | list vs =>
    obtain ⟨ts, hts⟩ : ∃ ts, (Value.list vs).tokens [] = .openList :: ts := by
      cases vs <;> exact ⟨_, by rw [Value.tokens]⟩
    rw [hts]
    exact bind_isEmpty_eq_ok_iff.trans ((readList_eq_ok_iff hts).trans (and_iff_left rfl))
  | object es =>
    obtain ⟨ts, hts⟩ : ∃ ts, (Value.object es).tokens [] = .openObject :: ts := by
      cases es <;> exact ⟨_, by rw [Value.tokens]⟩
    rw [hts]
    exact bind_isEmpty_eq_ok_iff.trans ((readObject_eq_ok_iff hts).trans (and_iff_left rfl))

/-- **A text of a value is read exactly if the value describes a configuration**, and then
as this configuration. -/
theorem parse_eq_ok_iff {v : Value} {text : String} (h : IsText v text.toList) {c : Config} :
    parse text = .ok c ↔ Describes v c := by
  rw [parse, h.tokens]
  exact ofTokens_eq_ok_iff

end Config

end RiscV
