import RiscV.Proofs.Layout.Drawing
import RiscV.Proofs.Text.Words

/-!
# The grammar of layouts

A layout can be compiled exactly if it is written in the grammar of layouts and its items
fill the width.  The grammar is said here on the characters, without reading them:

    layout    =  item … item mnemonic          blanks between them
    item      =  bits  |  field  |  field `!=` remark
    field     =  name  |  immediate `[` range `|` … `|` range `]`
    range     =  index  |  index `:` index
    index     =  digits  |  `+` digits

Beyond the grammar, no index is 64 or more, no range is reversed, no bit of the immediate
occurs twice in a layout, and no bare field does.

## Main definitions

* `Layout.IsIndex`, `Layout.IsRange`, `Layout.Remarked`, `Layout.IsItem` — the grammar.
* `Layout.Distinct` — nothing is there twice.
* `Layout.Grammatical` — a text is a layout of a given width.

## Main results

* `Layout.readIndex_eq_ok_iff`, `Layout.readRange_eq_ok_iff`, `Layout.readItem_eq_ok_iff` —
  reading follows the grammar.
* `Layout.readItems_eq_ok_iff` — so does reading item after item, as long as nothing is
  there twice.
* `Layout.compile_ok_iff_grammatical` — **a layout is compiled exactly if it is
  grammatical.**
-/

namespace RiscV

/-! ### Names -/

theorem BareField.ofName?_eq_some_iff {text : List Char} {field : BareField} :
    BareField.ofName? text = some field ↔ field.spelling = text := by
  constructor
  · intro h
    simpa using List.find?_some h
  · rintro rfl
    cases field <;> rfl

theorem ImmediateName.ofName?_eq_some_iff {text : List Char} {name : ImmediateName} :
    ImmediateName.ofName? text = some name ↔ name.spelling = text := by
  constructor
  · intro h
    simpa using List.find?_some h
  · rintro rfl
    cases name <;> rfl

theorem BareField.bracket_notMem_spelling (field : BareField) : '[' ∉ field.spelling := by
  cases field <;> decide

theorem ImmediateName.bracket_notMem_spelling (name : ImmediateName) :
    '[' ∉ name.spelling := by
  cases name <;> decide

namespace Layout

/-! ### The grammar -/

/-- A text is the index of a bit: decimal digits, possibly after a plus, for a number
below 64. -/
def IsIndex (text : List Char) (n : Nat) : Prop :=
  ∃ digits, (text = digits ∨ text = '+' :: digits) ∧ digits ≠ [] ∧
    (∀ c ∈ digits, c.isDigit = true) ∧ Nat.ofDigitChars 10 digits 0 = n ∧ n < 64

/-- A text is a range of bits, with its upper and its lower end. -/
inductive IsRange : List Char → Nat → Nat → Prop
  /-- A single index. -/
  | index {text : List Char} {n : Nat} (h : IsIndex text n) : IsRange text n n
  /-- Two indices, the upper one first. -/
  | span {upper lower : List Char} {hi lo : Nat} (hhi : IsIndex upper hi)
      (hlo : IsIndex lower lo) (hle : lo ≤ hi) : IsRange (upper ++ ':' :: lower) hi lo

/-- A text is a field with a remark, or without one.  The remark starts at the first
`!=`. -/
def Remarked (token field : List Char) : Prop :=
  ¬['!', '='] <:+: field ∧ (token = field ∨ ∃ remark, token = field ++ '!' :: '=' :: remark)

/-- A text is an item of a layout. -/
inductive IsItem : List Char → Item → Prop
  /-- Fixed bits, at least one. -/
  | literal {bits : List Bool} (hne : bits ≠ []) :
      IsItem (bits.map fun b => if b then '1' else '0') (.literal bits)
  /-- The name of a bare field. -/
  | bare {token : List Char} {field : BareField} (h : Remarked token field.spelling) :
      IsItem token (.bare field)
  /-- The name of an immediate, and ranges in brackets, at least one, with bars between
  them. -/
  | immediate {token : List Char} {name : ImmediateName} {texts : List (List Char)}
      {ranges : List (Nat × Nat)} (hne : texts ≠ [])
      (hranges : List.Forall₂ (fun text r => IsRange text r.1 r.2) texts ranges)
      (h : Remarked token (name.spelling ++ '[' :: (['|'].intercalate texts ++ [']']))) :
      IsItem token (.immediate name (ranges.flatMap fun r => descending r.1 r.2))

/-- The bare fields among items. -/
def bareFields (items : List Item) : List BareField :=
  items.filterMap fun
    | .bare field => some field
    | _ => none

/-- No bit of the immediate is there twice, and no bare field. -/
structure Distinct (items : List Item) : Prop where
  /-- The bits of the immediate, in all its parts. -/
  places : (items.flatMap Item.places).Nodup
  /-- The bare fields. -/
  fields : (bareFields items).Nodup

/-- The text is a layout of the given width: the words `fields` stand for the items, and
the word `name` behind them is the mnemonic. -/
structure Grammatical (text : List Char) (width : Width) (fields : List (List Char))
    (name : List Char) (items : List Item) : Prop where
  /-- The text consists of these words and blanks. -/
  spaced : Text.Spaced text (fields ++ [name])
  /-- The mnemonic has a letter. -/
  letter : ∃ c ∈ name, c.isAlpha = true
  /-- It has no bracket. -/
  bracket : '[' ∉ name
  /-- There is at least one item. -/
  nonempty : fields ≠ []
  /-- The words in front of the mnemonic are the items. -/
  isItem : List.Forall₂ IsItem fields items
  /-- Nothing is there twice. -/
  distinct : Distinct items
  /-- The items add up to the width. -/
  width_eq : items.foldr (fun item total => item.width + total) 0 = width.bits

/-! ### Indices and ranges -/

theorem readIndex_eq_ok_iff {text : List Char} {n : Nat} :
    readIndex text = .ok n ↔ IsIndex text n := by
  have hread : readIndex text = .ok n ↔ Text.readNatural 10 63 text = .ok n := by
    unfold readIndex
    cases Text.readNatural 10 63 text <;> simp
  rw [hread, Text.readNatural_eq_ok_iff (by decide) (by decide)]
  refine exists_congr fun digits => and_congr_right fun _ => and_congr_right fun _ => ?_
  simp only [Text.digitValue_lt_ten_iff]
  refine and_congr_right fun hdigits => ?_
  rw [Text.denoted_eq_ofDigitChars hdigits, Nat.lt_succ_iff]

/-- What is neither a digit nor a plus stands in no index. -/
theorem IsIndex.notMem {text : List Char} {n : Nat} (h : IsIndex text n) {c : Char}
    (hc : c.isDigit = false) (hplus : c ≠ '+') : c ∉ text := by
  obtain ⟨digits, htext, -, hdigits, -⟩ := h
  have hnot : c ∉ digits := by
    intro hmem
    rw [hdigits c hmem] at hc
    contradiction
  rcases htext with rfl | rfl
  · exact hnot
  · rw [List.mem_cons]
    rintro (h | h)
    · exact hplus h
    · exact hnot h

/-- A range has digits, a plus and a colon only. -/
theorem IsRange.notMem {text : List Char} {hi lo : Nat} (h : IsRange text hi lo) {c : Char}
    (hc : c.isDigit = false) (hplus : c ≠ '+') (hcolon : c ≠ ':') : c ∉ text := by
  cases h with
  | index h => exact h.notMem hc hplus
  | span hhi hlo _ =>
    rw [List.mem_append, List.mem_cons]
    rintro (h | h | h)
    · exact hhi.notMem hc hplus h
    · exact hcolon h
    · exact hlo.notMem hc hplus h

theorem readRange_eq_ok_iff {text : List Char} {hi lo : Nat} :
    readRange text = .ok (hi, lo) ↔ IsRange text hi lo := by
  constructor
  · intro h
    unfold readRange at h
    rcases Text.span_cases ':' text with ⟨upper, lower, -, rfl, hspan⟩ | ⟨-, hspan⟩
    · simp only [hspan] at h
      obtain ⟨m, hm, h⟩ := Except.bind_eq_ok.mp h
      obtain ⟨n, hn, h⟩ := Except.bind_eq_ok.mp h
      split at h
      · contradiction
      · next hle =>
        obtain ⟨rfl, rfl⟩ := Prod.mk.inj (Except.ok.inj h)
        exact .span (readIndex_eq_ok_iff.mp hm) (readIndex_eq_ok_iff.mp hn) (Nat.le_of_not_lt hle)
    · simp only [hspan] at h
      obtain ⟨n, hn, h⟩ := Except.bind_eq_ok.mp h
      obtain ⟨rfl, rfl⟩ := Prod.mk.inj (Except.ok.inj h)
      exact .index (readIndex_eq_ok_iff.mp hn)
  · intro h
    unfold readRange
    cases h with
    | index h =>
      have hcolon : ':' ∉ text := h.notMem (by decide) (by decide)
      simp only [Text.span_of_notMem hcolon, readIndex_eq_ok_iff.mpr h]
      rfl
    | @span upper lower _ _ hhi hlo hle =>
      have hcolon : ':' ∉ upper := hhi.notMem (by decide) (by decide)
      simp only [Text.span_append_cons hcolon, readIndex_eq_ok_iff.mpr hhi,
        readIndex_eq_ok_iff.mpr hlo]
      exact if_neg (Nat.not_lt_of_le hle)

/-- Ranges are read one after the other, as long as no bit is held twice. -/
theorem readRanges_eq_ok_iff {all : List Char} {texts : List (List Char)}
    {held places : List Nat} (hheld : held.Nodup) :
    readRanges all held texts = .ok places ↔ ∃ ranges : List (Nat × Nat),
      List.Forall₂ (fun text r => IsRange text r.1 r.2) texts ranges ∧
      places = held ++ ranges.flatMap (fun r => descending r.1 r.2) ∧ places.Nodup := by
  induction texts generalizing held with
  | nil =>
    rw [readRanges, Except.ok.injEq]
    constructor
    · rintro rfl
      exact ⟨[], .nil, by simp, hheld⟩
    · rintro ⟨ranges, hranges, rfl, -⟩
      cases hranges
      simp
  | cons text texts ih =>
    rw [readRanges]
    constructor
    · intro h
      obtain ⟨⟨hi, lo⟩, hrange, h⟩ := Except.bind_eq_ok.mp h
      dsimp only at h
      split at h
      · contradiction
      · next hcommon =>
        rw [lowestCommon?_eq_none_iff] at hcommon
        have hnodup : (held ++ descending hi lo).Nodup := by
          rw [List.nodup_append]
          refine ⟨hheld, nodup_descending hi lo, ?_⟩
          rintro a ha b hb rfl
          exact hcommon a hb ha
        obtain ⟨ranges, hranges, rfl, hplaces⟩ := (ih hnodup).mp h
        refine ⟨(hi, lo) :: ranges, .cons (readRange_eq_ok_iff.mp hrange) hranges, ?_, hplaces⟩
        rw [List.flatMap_cons, List.append_assoc]
    · rintro ⟨ranges, hranges, rfl, hplaces⟩
      cases hranges with
      | @cons _ r _ ranges hrange hranges =>
        obtain ⟨hi, lo⟩ := r
        rw [List.flatMap_cons, ← List.append_assoc] at hplaces
        have hnodup : (held ++ descending hi lo).Nodup := (List.nodup_append.mp hplaces).1
        have hcommon : lowestCommon? held (descending hi lo) = none := by
          rw [lowestCommon?_eq_none_iff]
          intro bit hnew hold
          exact (List.nodup_append.mp hnodup).2.2 bit hold bit hnew rfl
        refine Except.bind_eq_ok.mpr ⟨(hi, lo), readRange_eq_ok_iff.mpr hrange, ?_⟩
        dsimp only
        rw [hcommon]
        refine (ih hnodup).mpr ⟨ranges, hranges, ?_, ?_⟩
        · rw [List.flatMap_cons, List.append_assoc]
        · rw [List.flatMap_cons, ← List.append_assoc]
          exact hplaces

/-! ### Fields -/

theorem beforeRemark_cons {c : Char} {cs : List Char} (h : ¬['!', '='] <+: c :: cs) :
    beforeRemark (c :: cs) = c :: beforeRemark cs := by
  rw [beforeRemark]
  rintro rest rfl rfl
  exact h ⟨rest, rfl⟩

/-- A field is kept up to its end, where nothing follows or a remark. -/
theorem beforeRemark_append {field tail : List Char} (hfield : ¬['!', '='] <:+: field)
    (htail : tail = [] ∨ ∃ remark, tail = '!' :: '=' :: remark) :
    beforeRemark (field ++ tail) = field := by
  induction field with
  | nil => rcases htail with rfl | ⟨remark, rfl⟩ <;> rfl
  | cons c field ih =>
    rw [List.infix_cons_iff, not_or] at hfield
    have hstart : ¬['!', '='] <+: c :: (field ++ tail) := by
      intro hstart
      obtain ⟨rfl, hnext⟩ := List.cons_prefix_cons.mp hstart
      cases field with
      | nil => rcases htail with rfl | ⟨remark, rfl⟩ <;> simp at hnext
      | cons d field =>
        obtain ⟨rfl, -⟩ := List.cons_prefix_cons.mp hnext
        exact hfield.1 ⟨field, rfl⟩
    rw [List.cons_append, beforeRemark_cons hstart, ih hfield.2]

theorem remarked_beforeRemark (token : List Char) : Remarked token (beforeRemark token) := by
  fun_induction beforeRemark token with
  | case1 => exact ⟨by simp, .inl rfl⟩
  | case2 remark => exact ⟨by simp, .inr ⟨remark, rfl⟩⟩
  | case3 c cs hne ih =>
    obtain ⟨hnone, htoken⟩ := ih
    -- what is kept starts as the text does
    have hfront : beforeRemark cs <+: cs := by
      rcases htoken with htoken | ⟨remark, htoken⟩
      · exact ⟨[], by rw [List.append_nil, ← htoken]⟩
      · exact ⟨_, htoken.symm⟩
    constructor
    · rw [List.infix_cons_iff, not_or]
      refine ⟨?_, hnone⟩
      intro hstart
      obtain ⟨rfl, hnext⟩ := List.cons_prefix_cons.mp hstart
      obtain ⟨rest, hrest⟩ := hnext.trans hfront
      exact hne rest rfl hrest.symm
    · rcases htoken with htoken | ⟨remark, htoken⟩
      · exact .inl (congrArg (c :: ·) htoken)
      · exact .inr ⟨remark, congrArg (c :: ·) htoken⟩

/-- The field of a word is what stands in front of the first `!=`. -/
theorem remarked_iff {token field : List Char} :
    Remarked token field ↔ beforeRemark token = field := by
  constructor
  · rintro ⟨hfield, rfl | ⟨remark, rfl⟩⟩
    · conv_lhs => rw [← List.append_nil token]
      exact beforeRemark_append hfield (.inl rfl)
    · exact beforeRemark_append hfield (.inr ⟨remark, rfl⟩)
  · rintro rfl
    exact remarked_beforeRemark token

/-- The bar does not occur in ranges. -/
theorem bar_notMem {texts : List (List Char)} {ranges : List (Nat × Nat)}
    (h : List.Forall₂ (fun text r => IsRange text r.1 r.2) texts ranges) :
    ∀ text ∈ texts, '|' ∉ text := by
  induction h with
  | nil => simp
  | cons hrange _ ih =>
    exact List.forall_mem_cons.mpr ⟨hrange.notMem (by decide) (by decide) (by decide), ih⟩

/-- A part of the immediate is read when ranges stand in its brackets. -/
theorem readImmediate_eq_ok_iff {token name rest : List Char} {item : Item} :
    readImmediate token name rest = .ok item ↔
      ∃ (field : ImmediateName) (texts : List (List Char)) (ranges : List (Nat × Nat)),
        field.spelling = name ∧ texts ≠ [] ∧ rest = ['|'].intercalate texts ++ [']'] ∧
        List.Forall₂ (fun text r => IsRange text r.1 r.2) texts ranges ∧
        item = .immediate field (ranges.flatMap fun r => descending r.1 r.2) ∧
        item.places.Nodup := by
  unfold readImmediate
  constructor
  · intro h
    split at h
    · contradiction
    · next field hname =>
      split at h
      · next hlast =>
        obtain ⟨places, hplaces, h⟩ := Except.bind_eq_ok.mp h
        obtain rfl := Except.ok.inj h
        obtain ⟨ranges, hranges, rfl, hnodup⟩ := (readRanges_eq_ok_iff List.nodup_nil).mp hplaces
        refine ⟨field, _, ranges, ImmediateName.ofName?_eq_some_iff.mp hname,
          Text.splitAt_ne_nil _ _, ?_, hranges, rfl, hnodup⟩
        rw [Text.splitAt_eq_splitOnP, ← List.splitOn, List.intercalate_splitOn]
        exact (List.dropLast_append_getLast? _ hlast).symm
      · contradiction
  · rintro ⟨field, texts, ranges, hname, hne, rfl, hranges, rfl, hnodup⟩
    have hsplit : Text.splitAt (· == '|') (['|'].intercalate texts) = texts := by
      rw [Text.splitAt_eq_splitOnP]
      exact List.splitOn_intercalate '|' (bar_notMem hranges) hne
    rw [ImmediateName.ofName?_eq_some_iff.mpr hname]
    simp only [List.getLast?_concat, if_true, List.dropLast_concat, hsplit]
    exact Except.bind_eq_ok.mpr ⟨_, (readRanges_eq_ok_iff List.nodup_nil).mpr
      ⟨ranges, hranges, rfl, hnodup⟩, rfl⟩

/-- A field with a bracket is a part of the immediate, or nothing. -/
theorem readField_of_bracket {token name rest : List Char}
    (h : Remarked token (name ++ '[' :: rest)) (hname : '[' ∉ name) :
    readField token = readImmediate token name rest := by
  rw [readField, remarked_iff.mp h, Text.span_append_cons hname]

/-- A field without a bracket is a bare field, or nothing. -/
theorem readField_of_notMem {token name : List Char} (h : Remarked token name)
    (hname : '[' ∉ name) {item : Item} :
    readField token = .ok item ↔
      ∃ field : BareField, field.spelling = name ∧ item = .bare field := by
  rw [readField, remarked_iff.mp h, Text.span_of_notMem hname]
  simp only [← BareField.ofName?_eq_some_iff]
  cases BareField.ofName? name with
  | none => simp
  | some field => simp [eq_comm]

/-! ### Items -/

theorem isLiteral_iff {token : List Char} :
    isLiteral token = true ↔
      token = (token.map (· == '1')).map fun b => if b then '1' else '0' := by
  unfold isLiteral
  induction token with
  | nil => simp
  | cons c cs ih =>
    rw [List.all_cons, Bool.and_eq_true, ih, List.map_cons, List.map_cons, List.cons.injEq]
    refine and_congr ?_ Iff.rfl
    by_cases hone : c = '1'
    · simp [hone]
    · simp [hone]

/-- A field has a character that is no fixed bit, and so has the word. -/
theorem not_isLiteral_of_remarked {token field : List Char} (h : Remarked token field) {c : Char}
    (hc : c ∈ field) (hbit : ¬(c = '0' ∨ c = '1')) : ¬isLiteral token = true := by
  have hmem : c ∈ token := by
    obtain ⟨-, rfl | ⟨remark, rfl⟩⟩ := h
    · exact hc
    · exact List.mem_append_left _ hc
  intro hliteral
  exact hbit (by simpa using List.all_eq_true.mp hliteral c hmem)

/-- **Reading a word of a layout follows the grammar.**  A part of the immediate holds no
bit twice. -/
theorem readItem_eq_ok_iff {token : List Char} (hne : token ≠ []) {item : Item} :
    readItem token = .ok item ↔ IsItem token item ∧ item.places.Nodup := by
  unfold readItem
  constructor
  · intro h
    split at h
    · next hliteral =>
      obtain rfl := Except.ok.inj h
      refine ⟨?_, List.nodup_nil⟩
      have hitem := @IsItem.literal (token.map (· == '1')) (by simpa using hne)
      rwa [← isLiteral_iff.mp hliteral] at hitem
    · have hfield := remarked_beforeRemark token
      rcases Text.span_cases '[' (beforeRemark token) with
        ⟨name, rest, hname, heq, -⟩ | ⟨hname, -⟩
      · rw [heq] at hfield
        rw [readField_of_bracket hfield hname] at h
        obtain ⟨field, texts, ranges, rfl, htexts, rfl, hranges, rfl, hnodup⟩ :=
          readImmediate_eq_ok_iff.mp h
        exact ⟨.immediate htexts hranges hfield, hnodup⟩
      · obtain ⟨field, hspelling, rfl⟩ := (readField_of_notMem hfield hname).mp h
        rw [← hspelling] at hfield
        exact ⟨.bare hfield, List.nodup_nil⟩
  · rintro ⟨hitem, hnodup⟩
    cases hitem with
    | @literal bits hbits =>
      have hback : (bits.map fun b => if b then '1' else '0').map (· == '1') = bits := by
        rw [List.map_map]
        exact List.map_id'' (fun b => by cases b <;> rfl) bits
      rw [if_pos (isLiteral_iff.mpr (by rw [hback])), hback]
    | @bare _ field hfield =>
      have hany : field.spelling.any (fun c => c != '0' && c != '1') = true := by
        cases field <;> rfl
      obtain ⟨c, hc, hbit⟩ := List.any_eq_true.mp hany
      rw [if_neg (not_isLiteral_of_remarked hfield hc (by simpa using hbit))]
      exact (readField_of_notMem hfield field.bracket_notMem_spelling).mpr ⟨field, rfl, rfl⟩
    | @immediate _ name texts ranges htexts hranges hfield =>
      have hbracket : '[' ∈ name.spelling ++ '[' :: (['|'].intercalate texts ++ [']']) :=
        List.mem_append_right _ List.mem_cons_self
      rw [if_neg (not_isLiteral_of_remarked hfield hbracket (by decide)),
        readField_of_bracket hfield name.bracket_notMem_spelling]
      exact readImmediate_eq_ok_iff.mpr
        ⟨name, texts, ranges, rfl, htexts, rfl, hranges, rfl, hnodup⟩

theorem Distinct.of_append {items new : List Item} (h : Distinct (items ++ new)) :
    Distinct items where
  places := by
    have hplaces := h.places
    rw [List.flatMap_append] at hplaces
    exact (List.nodup_append.mp hplaces).1
  fields := by
    have hfields := h.fields
    rw [bareFields, List.filterMap_append] at hfields
    exact (List.nodup_append.mp hfields).1

theorem mem_bareFields {items : List Item} {field : BareField} :
    field ∈ bareFields items ↔ .bare field ∈ items := by
  unfold bareFields
  rw [List.mem_filterMap]
  constructor
  · rintro ⟨item, hitem, hfield⟩
    cases item with
    | bare field' => rwa [← Option.some.inj hfield]
    | literal bits => contradiction
    | immediate name places => contradiction
  · intro h
    exact ⟨.bare field, h, rfl⟩

/-- An item can follow others exactly if nothing is there twice then. -/
theorem distinct_append_singleton {items : List Item} (h : Distinct items) (item : Item) :
    Distinct (items ++ [item]) ↔ conflict? items item = none ∧ item.places.Nodup := by
  have hiff : Distinct (items ++ [item]) ↔
      (items.flatMap Item.places ++ item.places).Nodup ∧
        (bareFields items ++ bareFields [item]).Nodup := by
    have hplaces : items.flatMap Item.places ++ item.places
        = (items ++ [item]).flatMap Item.places := by simp
    have hfields : bareFields items ++ bareFields [item] = bareFields (items ++ [item]) :=
      List.filterMap_append.symm
    rw [hplaces, hfields]
    exact ⟨fun h => ⟨h.places, h.fields⟩, fun h => ⟨h.1, h.2⟩⟩
  rw [hiff, List.nodup_append, List.nodup_append]
  cases item with
  | literal bits =>
    have hnone : bareFields [Item.literal bits] = [] := rfl
    simp [hnone, conflict?, Item.places, h.places, h.fields]
  | bare field =>
    have hone : bareFields [Item.bare field] = [field] := rfl
    have hnew : conflict? items (.bare field) = none ↔ field ∉ bareFields items := by
      rw [mem_bareFields, conflict?]
      by_cases hmem : Item.bare field ∈ items <;> simp [hmem]
    simp only [hone, hnew, Item.places, h.places, h.fields]
    grind
  | immediate name places =>
    have hnone : bareFields [Item.immediate name places] = [] := rfl
    have hnew : conflict? items (.immediate name places) = none ↔
        ∀ bit ∈ places, bit ∉ items.flatMap Item.places := by
      rw [conflict?, Option.map_eq_none_iff, lowestCommon?_eq_none_iff]
    simp only [hnone, hnew, Item.places, h.places, h.fields]
    grind

/-- **Reading item after item follows the grammar**, as long as nothing is there twice. -/
theorem readItems_eq_ok_iff {tokens : List (List Char)} (hne : ∀ token ∈ tokens, token ≠ [])
    {earlier items : List Item} (hearlier : Distinct earlier) :
    readItems earlier tokens = .ok items ↔ ∃ new, items = earlier ++ new ∧
      List.Forall₂ IsItem tokens new ∧ Distinct items := by
  induction tokens generalizing earlier with
  | nil =>
    rw [readItems, Except.ok.injEq]
    constructor
    · rintro rfl
      exact ⟨[], (List.append_nil _).symm, .nil, hearlier⟩
    · rintro ⟨new, rfl, hnew, -⟩
      cases hnew
      rw [List.append_nil]
  | cons token tokens ih =>
    obtain ⟨htoken, htokens⟩ := List.forall_mem_cons.mp hne
    rw [readItems]
    constructor
    · intro h
      obtain ⟨item, hitem, h⟩ := Except.bind_eq_ok.mp h
      obtain ⟨hitem, hplaces⟩ := (readItem_eq_ok_iff htoken).mp hitem
      split at h
      · contradiction
      · next hconflict =>
        have hnext := (distinct_append_singleton hearlier item).mpr ⟨hconflict, hplaces⟩
        obtain ⟨new, rfl, hnew, hdistinct⟩ := (ih htokens hnext).mp h
        refine ⟨item :: new, ?_, .cons hitem hnew, hdistinct⟩
        rw [List.append_assoc, List.singleton_append]
    · rintro ⟨new, rfl, hnew, hdistinct⟩
      cases hnew with
      | @cons _ item _ new hitem hnew =>
        have hsplit : earlier ++ item :: new = earlier ++ [item] ++ new := by
          rw [List.append_assoc, List.singleton_append]
        have hnext : Distinct (earlier ++ [item]) := (hsplit ▸ hdistinct).of_append
        obtain ⟨hconflict, hplaces⟩ := (distinct_append_singleton hearlier item).mp hnext
        refine Except.bind_eq_ok.mpr ⟨item, (readItem_eq_ok_iff htoken).mpr ⟨hitem, hplaces⟩, ?_⟩
        rw [hconflict]
        exact (ih htokens hnext).mpr ⟨new, hsplit, hnew, hdistinct⟩

/-! ### Layouts -/

theorem isMnemonic_iff {token : List Char} :
    isMnemonic token = true ↔ (∃ c ∈ token, c.isAlpha = true) ∧ '[' ∉ token := by
  simp [isMnemonic]

/-- A layout is read exactly if a mnemonic stands behind at least one item. -/
theorem ofWords_eq_ok_iff {tokens : List (List Char)} (hne : ∀ token ∈ tokens, token ≠ [])
    {layout : Layout} :
    ofWords tokens = .ok layout ↔ ∃ fields name, tokens = fields ++ [name] ∧
      isMnemonic name = true ∧ fields ≠ [] ∧ List.Forall₂ IsItem fields layout.items ∧
      Distinct layout.items ∧ layout.mnemonic = String.ofList (name.map Char.toLower) := by
  have hnone : Distinct [] := ⟨List.nodup_nil, List.nodup_nil⟩
  rcases List.eq_nil_or_concat' tokens with rfl | ⟨fields, name, rfl⟩
  · simp [ofWords]
  · have hfields : ∀ token ∈ fields, token ≠ [] := by
      intro token htoken
      exact hne token (List.mem_append_left _ htoken)
    simp only [ofWords, List.getLast?_concat, List.dropLast_concat]
    constructor
    · intro h
      split at h
      · next hname =>
        split at h
        · contradiction
        · next hsome =>
          obtain ⟨items, hitems, h⟩ := Except.bind_eq_ok.mp h
          obtain rfl := Except.ok.inj h
          obtain ⟨new, rfl, hnew, hdistinct⟩ := (readItems_eq_ok_iff hfields hnone).mp hitems
          exact ⟨fields, name, rfl, hname, by simpa using hsome, hnew, hdistinct, rfl⟩
      · contradiction
    · rintro ⟨fields', name', htokens, hname, hsome, hitems, hdistinct, hmnemonic⟩
      obtain ⟨rfl, hlast⟩ := List.append_inj' htokens rfl
      obtain rfl := List.singleton_inj.mp hlast
      rw [if_pos hname, if_neg (by simpa using hsome)]
      refine Except.bind_eq_ok.mpr ⟨layout.items,
        (readItems_eq_ok_iff hfields hnone).mpr ⟨layout.items, rfl, hitems, hdistinct⟩, ?_⟩
      rw [← hmnemonic]

/-- A layout compiles, or there is an error that names it. -/
theorem compile_cases (text : String) (width : Width) :
    (∃ c, compile text width = .ok c) ∨ ∃ defect, compile text width = .error ⟨text, defect⟩ := by
  unfold compile
  cases parse text with
  | error defect => exact .inr ⟨defect, rfl⟩
  | ok layout =>
    cases hpattern : layout.toPattern width with
    | error defect => exact .inr ⟨defect, by simp only [hpattern]⟩
    | ok pattern => exact .inl ⟨⟨layout.mnemonic, pattern⟩, by simp only [hpattern]⟩

/-- **A layout is compiled exactly if it is grammatical.**  In every other case there is an
error, and it names the layout. -/
theorem compile_ok_iff_grammatical (text : String) (width : Width) :
    ((∃ c, compile text width = .ok c) ↔
      ∃ fields name items, Grammatical text.toList width fields name items) ∧
    ((∃ defect, compile text width = .error ⟨text, defect⟩) ↔
      ¬∃ fields name items, Grammatical text.toList width fields name items) := by
  have hok : (∃ c, compile text width = .ok c) ↔
      ∃ fields name items, Grammatical text.toList width fields name items := by
    simp only [compile_eq_ok_iff, parse, ofWords_eq_ok_iff fun _ => Text.ne_nil_of_mem_words]
    constructor
    · rintro ⟨c, layout, ⟨fields, name, hwords, hname, hsome, hitems, hdistinct, -⟩, hwidth, -⟩
      obtain ⟨hletter, hbracket⟩ := isMnemonic_iff.mp hname
      exact ⟨fields, name, layout.items, Text.spaced_iff.mpr hwords, hletter, hbracket, hsome,
        hitems, hdistinct, hwidth⟩
    · rintro ⟨fields, name, items, h⟩
      exact ⟨_, ⟨items, String.ofList (name.map Char.toLower)⟩, ⟨fields, name,
        Text.spaced_iff.mp h.spaced, isMnemonic_iff.mpr ⟨h.letter, h.bracket⟩, h.nonempty,
        h.isItem, h.distinct, rfl⟩, h.width_eq, rfl⟩
  refine ⟨hok, ?_⟩
  rw [← hok]
  rcases compile_cases text width with ⟨c, hc⟩ | ⟨defect, hdefect⟩
  · simp [hc]
  · simp [hdefect]

/-- A plus is part of an index, and a remark is passed over.  An empty range is refused, and
so is a bit that two names of the immediate share. -/
example : (compile "imm[+5|4:0]!=0 0000000001 X" .compressed).isOk = true ∧
    (compile "imm[5|] 000000000000001 X" .compressed).isOk = false ∧
    (compile "imm[5:0] uimm[5] 000000001 X" .compressed).isOk = false := by decide +kernel

end Layout
end RiscV
