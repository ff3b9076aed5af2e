import RiscV.Proofs.Layout.Respelling
import RiscV.Proofs.Pattern.Words

/-!
# Every pattern can be written as a layout

A pattern that fixes no bit beyond its width is the pattern of a layout.  The plainest one has
a word for each bit of the instruction: a digit where the bit is fixed, and the part of the
immediate with the number of the bit where it is free.  Compiling it gives back the pattern,
and so does compiling any other way to spell it.

## Main definitions

* `Pattern.item`, `Pattern.token` — what stands for a bit of a pattern, read and written.
* `Pattern.layout` — the plainest layout of a pattern.

## Main results

* `Text.spaced_intercalate` — words with spaces between them.
* `Pattern.isItem_token` — the word for a bit is read as its item.
* `Pattern.grammatical_layout` — the layout of a pattern is grammatical.
* `Pattern.ofCells_items` — the items of a pattern fix its bits.
* `Pattern.compile_layout` — **every pattern is compiled from its layout, however it is
  spelled.**
-/

namespace RiscV

/-- The test for blanks, said of each character. -/
theorem Text.isBlank_of_any {cs : List Char} (h : cs.any isBlank = false) :
    ∀ c ∈ cs, isBlank c = false :=
  fun c hc => Bool.eq_false_iff.mpr (List.any_eq_false.mp h c hc)

/-- Words with single spaces between them are the words of the text. -/
theorem Text.spaced_intercalate {ws : List (List Char)}
    (h : ∀ w ∈ ws, w ≠ [] ∧ ∀ c ∈ w, isBlank c = false) :
    Spaced ([' '].intercalate ws) ws := by
  rw [spaced_iff]
  induction ws with
  | nil => rfl
  | cons w ws ih =>
    obtain ⟨⟨hne, hw⟩, hws⟩ := List.forall_mem_cons.mp h
    cases ws with
    | nil =>
      have hword := @words_append_of_end w [] hne hw (by simp)
      rw [List.append_nil] at hword
      rw [List.intercalate_singleton, hword]
      rfl
    | cons w' ws =>
      rw [List.intercalate_cons_cons, List.append_assoc, words_append_of_end hne hw,
        List.singleton_append, words_cons_of_blank (by decide), ih hws]
      rintro c hc
      rw [← Option.some.inj hc]
      decide

namespace Pattern

variable (p : Pattern)

/-! ### The layout of a pattern -/

/-- What stands for bit `i` of a pattern: its value where it is fixed, and else the bit of
the immediate with the same number. -/
def item (i : Nat) : Item :=
  if p.mask.getLsbD i then .literal [p.value.getLsbD i] else .immediate .imm [i]

/-- How that is written: as a digit, or as the immediate with the number in brackets. -/
def token (i : Nat) : List Char :=
  if p.mask.getLsbD i then [if p.value.getLsbD i then '1' else '0']
  else ImmediateName.imm.spelling ++ '[' :: (Nat.toDigits 10 i ++ [']'])

/-- The bits of the width, from the highest down. -/
def positions : List Nat := (List.range p.width.bits).reverse

/-- The layout that has a word for each bit, and the mnemonic behind them. -/
def layout (name : String) : String :=
  " ".intercalate (p.positions.map (fun i => String.ofList (p.token i)) ++ [name])

/-- A pattern of 16 bits that fixes all but two of them. -/
example : (⟨0x7ffb#32, 0x4001#32, .compressed⟩ : Pattern).layout "C.LI"
    = "imm[15] 1 0 0 0 0 0 0 0 0 0 0 0 imm[2] 0 1 C.LI" := by decide +kernel

/-! ### Words -/

theorem isIndex_toDigits {n : Nat} (h : n < 64) : Layout.IsIndex (Nat.toDigits 10 n) n :=
  ⟨_, .inl rfl, Nat.toDigits_ne_nil,
    fun _ hc => Nat.isDigit_of_mem_toDigits (by decide) (by decide) hc,
    Nat.ofDigitChars_toDigits (by decide) (by decide), h⟩

/-- **The word for a bit is read as its item.** -/
theorem isItem_token {i : Nat} (hi : i < 64) : Layout.IsItem (p.token i) (p.item i) := by
  unfold token item
  split
  · exact @Layout.IsItem.literal [p.value.getLsbD i] (by simp)
  · have hranges : List.Forall₂ (fun text (r : Nat × Nat) => Layout.IsRange text r.1 r.2)
        [Nat.toDigits 10 i] [(i, i)] := .cons (.index (isIndex_toDigits hi)) .nil
    have hplaces : [(i, i)].flatMap (fun r => Layout.descending r.1 r.2) = [i] := by
      simp [Layout.descending]
    have hmark : '!' ∉ ImmediateName.imm.spelling ++ '[' :: (Nat.toDigits 10 i ++ [']']) := by
      have hdigits : '!' ∉ Nat.toDigits 10 i :=
        Text.notMem_toDigits (by decide) (by decide) (by decide) i
      simp [ImmediateName.spelling, hdigits]
    -- a word without an exclamation mark has no remark
    have hremarked : Layout.Remarked
        (ImmediateName.imm.spelling ++ '[' :: (Nat.toDigits 10 i ++ [']']))
        (ImmediateName.imm.spelling ++ '[' :: (Nat.toDigits 10 i ++ [']'])) :=
      ⟨fun hwithin => hmark (hwithin.subset List.mem_cons_self), .inl rfl⟩
    have hjoin : ['|'].intercalate [Nat.toDigits 10 i] = Nat.toDigits 10 i :=
      List.intercalate_singleton
    rw [← hjoin] at hremarked
    have hitem := Layout.IsItem.immediate (by simp) hranges hremarked
    rwa [hplaces, hjoin] at hitem

theorem token_ne_nil (i : Nat) : p.token i ≠ [] := by
  unfold token
  split <;> simp

theorem isBlank_token (i : Nat) : ∀ c ∈ p.token i, Text.isBlank c = false := by
  have hdigits : ∀ c ∈ Nat.toDigits 10 i, Text.isBlank c = false := by
    have hall : ∀ d < 10, Text.isBlank d.digitChar = false := by decide
    intro c hc
    obtain ⟨d, hd, rfl⟩ := Text.eq_digitChar_of_mem_toDigits (by decide) hc
    exact hall d hd
  unfold token
  split
  · rw [List.forall_mem_singleton]
    split <;> decide
  · rw [List.forall_mem_append, List.forall_mem_cons, List.forall_mem_append,
      List.forall_mem_singleton]
    exact ⟨Text.isBlank_of_any rfl, by decide, hdigits, by decide⟩

/-! ### Items -/

/-- The cell of a bit. -/
def cell (i : Nat) : Option Bool :=
  if p.mask.getLsbD i then some (p.value.getLsbD i) else none

theorem cells_items (l : List Nat) : (l.map p.item).flatMap Item.cells = l.map p.cell := by
  have hcells : ∀ i, (p.item i).cells = [p.cell i] := by
    intro i
    unfold item cell
    split <;> rfl
  rw [List.flatMap_map, List.map_eq_flatMap]
  exact List.flatMap_congr fun i _ => hcells i

/-- The items hold the free bits, each once, and no bare field. -/
theorem distinct_items {l : List Nat} (hl : l.Nodup) : Layout.Distinct (l.map p.item) where
  places := by
    have hplaces : (l.map p.item).flatMap Item.places = l.filter (!p.mask.getLsbD ·) := by
      induction l with
      | nil => rfl
      | cons i l ih =>
        rw [List.map_cons, List.flatMap_cons, ih hl.of_cons, List.filter_cons, item]
        split <;> simp_all [Item.places]
    rw [hplaces]
    exact hl.filter _
  fields := by
    have hnone : Layout.bareFields (l.map p.item) = [] := by
      refine List.filterMap_eq_nil_iff.mpr ?_
      intro item hitem
      obtain ⟨i, -, rfl⟩ := List.mem_map.mp hitem
      cases hbit : p.mask.getLsbD i <;> simp [Pattern.item, hbit]
    rw [hnone]
    exact List.nodup_nil

/-- The layout of a pattern is grammatical. -/
theorem grammatical_layout (name : String) (hblank : ∀ c ∈ name.toList, Text.isBlank c = false)
    (hbracket : '[' ∉ name.toList) (hletter : ∃ c ∈ name.toList, c.isAlpha = true) :
    Layout.Grammatical (p.layout name).toList p.width (p.positions.map p.token) name.toList
      (p.positions.map p.item) where
  spaced := by
    have hwords : ∀ w ∈ p.positions.map p.token ++ [name.toList],
        w ≠ [] ∧ ∀ c ∈ w, Text.isBlank c = false := by
      rw [List.forall_mem_append, List.forall_mem_singleton]
      constructor
      · intro w hw
        obtain ⟨i, -, rfl⟩ := List.mem_map.mp hw
        exact ⟨p.token_ne_nil i, p.isBlank_token i⟩
      · obtain ⟨c, hc, -⟩ := hletter
        exact ⟨List.ne_nil_of_mem hc, hblank⟩
    have htext : (p.layout name).toList
        = [' '].intercalate (p.positions.map p.token ++ [name.toList]) := by
      rw [layout, String.toList_intercalate, List.map_append, List.map_map]
      simp [Function.comp_def]
    rw [htext]
    exact Text.spaced_intercalate hwords
  letter := hletter
  bracket := hbracket
  nonempty := by
    rw [positions]
    cases p.width <;> simp
  isItem := by
    rw [List.forall₂_map_left_iff, List.forall₂_map_right_iff, List.forall₂_same]
    intro i hi
    have hlt : i < p.width.bits := by simpa [positions] using hi
    exact p.isItem_token (Nat.lt_of_lt_of_le hlt (Nat.le_trans p.width.bits_le (by decide)))
  distinct := p.distinct_items (List.nodup_reverse.mpr List.nodup_range)
  width_eq := by
    rw [Layout.foldr_width, cells_items, List.length_map, positions, List.length_reverse,
      List.length_range]

variable {p}

theorem cellAt_positions (hmask : ∀ i, p.width.bits ≤ i → p.mask.getLsbD i = false) (i : Nat) :
    cellAt (p.positions.map p.cell) i = p.cell i := by
  rw [cellAt, positions, ← List.map_reverse, List.reverse_reverse, List.getElem?_map]
  rcases Nat.lt_or_ge i p.width.bits with hi | hi
  · rw [List.getElem?_range hi]
    rfl
  · rw [List.getElem?_eq_none (by simpa using hi), cell, hmask i hi]
    rfl

/-- **The items of a pattern fix its bits.** -/
theorem ofCells_items (hp : p.WellFormed)
    (hmask : ∀ i, p.width.bits ≤ i → p.mask.getLsbD i = false) :
    ofCells ((p.positions.map p.item).flatMap Item.cells) p.width = p := by
  rw [cells_items]
  have hlen : (p.positions.map p.cell).length ≤ 32 := by
    rw [List.length_map, positions, List.length_reverse, List.length_range]
    exact p.width.bits_le
  have hmask' : (ofCells (p.positions.map p.cell) p.width).mask = p.mask := by
    apply BitVec.eq_of_getLsbD_eq
    intro i _
    rw [getLsbD_mask_ofCells hlen, cellAt_positions hmask, cell]
    cases p.mask.getLsbD i <;> rfl
  have hvalue : (ofCells (p.positions.map p.cell) p.width).value = p.value := by
    apply BitVec.eq_of_getLsbD_eq
    intro i _
    rw [getLsbD_value_ofCells hlen, cellAt_positions hmask, cell]
    cases hbit : p.value.getLsbD i with
    | true =>
      rw [hp.getLsbD_mask hbit]
      rfl
    | false => cases p.mask.getLsbD i <;> rfl
  exact congrArg₂ (fun mask value => (⟨mask, value, p.width⟩ : Pattern)) hmask' hvalue

/-! ### Compiling -/

/-- **Every pattern is compiled from its layout, however it is spelled.**

The pattern has a value only where it is fixed, and is fixed only within its width; the
mnemonic has a letter, no bracket and no blank.  Then the layout with a word for each bit
compiles to the pattern and the mnemonic in lower case.  So does every text that comes from it
by joining runs of fixed bits, remarks on fields, other names of the immediate and other
blanks. -/
theorem compile_layout (hp : p.WellFormed)
    (hmask : ∀ i, p.width.bits ≤ i → p.mask.getLsbD i = false) (name : String)
    (hblank : ∀ c ∈ name.toList, Text.isBlank c = false) (hbracket : '[' ∉ name.toList)
    (hletter : ∃ c ∈ name.toList, c.isAlpha = true) :
    Layout.compile (p.layout name) p.width
        = .ok ⟨String.ofList (name.toList.map Char.toLower), p⟩ ∧
      ∀ text, Relation.ReflTransGen Layout.Respelled (p.layout name) text →
        Layout.compile text p.width
          = .ok ⟨String.ofList (name.toList.map Char.toLower), p⟩ := by
  have hplain := Layout.compile_of_grammatical
    (p.grammatical_layout name hblank hbracket hletter)
  rw [ofCells_items hp hmask] at hplain
  refine ⟨hplain, ?_⟩
  intro text htext
  exact Layout.compile_of_reflTransGen htext hplain

/-- A pattern with one free bit, whose layout gets another name of the immediate, then a
remark, then a longer run of bits and other blanks. -/
theorem compile_layout_respelled :
    let p : Pattern := ⟨0x7fff#32, 0x4001#32, .compressed⟩
    p.WellFormed ∧ (∀ i, p.width.bits ≤ i → p.mask.getLsbD i = false) ∧
      Layout.compile (p.layout "C.Li") .compressed = .ok ⟨"c.li", p⟩ ∧
      Layout.compile " uimm[15]!=[0\t10 0 0 0 0 0 0 0 0 0 0 0 0   1 C.Li" .compressed
        = .ok ⟨"c.li", p⟩ := by
  intro p
  have hp : p.WellFormed := by decide
  have hmask : ∀ i, p.width.bits ≤ i → p.mask.getLsbD i = false := by
    intro i hi
    rcases Nat.lt_or_ge i 32 with hlt | hge
    · have hall : ∀ i < 32, p.width.bits ≤ i → p.mask.getLsbD i = false := by decide
      exact hall i hlt hi
    · exact BitVec.getLsbD_of_ge _ i hge
  have hcompile := compile_layout hp hmask "C.Li" (Text.isBlank_of_any (by decide)) (by decide)
    ⟨'C', by decide, by decide⟩
  let digits : List (List Char) := List.replicate 12 ['0'] ++ [['1']]
  have hrename : Layout.Respelled (p.layout "C.Li")
      "uimm[15] 1 0 0 0 0 0 0 0 0 0 0 0 0 0 1 C.Li" :=
    ⟨(ImmediateName.imm.spelling ++ '[' :: ['1', '5', ']']) :: ['1'] :: ['0'] :: digits,
      (ImmediateName.uimm.spelling ++ '[' :: ['1', '5', ']']) :: ['1'] :: ['0'] :: digits,
      "C.Li".toList, Text.spaced_iff.mpr (by decide +kernel),
      Text.spaced_iff.mpr (by decide +kernel), .inr (.rename .imm .uimm)⟩
  have hremark : Layout.Respelled "uimm[15] 1 0 0 0 0 0 0 0 0 0 0 0 0 0 1 C.Li"
      "uimm[15]!=[0 1 0 0 0 0 0 0 0 0 0 0 0 0 0 1 C.Li" :=
    ⟨"uimm[15]".toList :: ['1'] :: ['0'] :: digits,
      ("uimm[15]".toList ++ '!' :: '=' :: ['[', '0']) :: ['1'] :: ['0'] :: digits,
      "C.Li".toList, Text.spaced_iff.mpr (by decide +kernel),
      Text.spaced_iff.mpr (by decide +kernel),
      .inr (.remark ['[', '0'] ⟨'u', by decide, by decide⟩)⟩
  have hjoin : Layout.Respelled "uimm[15]!=[0 1 0 0 0 0 0 0 0 0 0 0 0 0 0 1 C.Li"
      " uimm[15]!=[0\t10 0 0 0 0 0 0 0 0 0 0 0 0   1 C.Li" :=
    ⟨"uimm[15]!=[0".toList :: ['1'] :: ['0'] :: digits,
      "uimm[15]!=[0".toList :: (['1'] ++ ['0']) :: digits,
      "C.Li".toList, Text.spaced_iff.mpr (by decide +kernel),
      Text.spaced_iff.mpr (by decide +kernel), .inr (.behind _ (.join (by simp) (by simp)))⟩
  exact ⟨hp, hmask, hcompile.1, hcompile.2 _ (.tail (.tail (.single hrename) hremark) hjoin)⟩

end Pattern
end RiscV
