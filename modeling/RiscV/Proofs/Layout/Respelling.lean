import Mathlib.Logic.Relation
import RiscV.Proofs.Layout.Grammar
import RiscV.Proofs.Text.Separation

/-!
# Spelling a layout differently

Much in the text of a layout is a matter of taste: how long the runs of fixed bits are, which
name the immediate goes by, what is remarked on a field, and how much space there is.  Here
each such change is a step from one text to another.  A step keeps what the layout compiles
to, and so does any number of steps.

## Main definitions

* `Layout.Reworded` — one change in the words in front of the mnemonic.
* `Layout.Respelled` — one change in the text, in its words or in its blanks.
* `Layout.Alike` — items that give the same pattern and conflict with the same items.

## Main results

* `Layout.compile_of_grammatical`, `Layout.grammatical_of_compile` — what a layout compiles to.
* `Layout.exists_alike_of_reworded` — a change in the words gives items that are alike.
* `Layout.compile_of_respelled` — a step keeps what a layout compiles to.
* `Layout.compile_of_reflTransGen` — **so does any number of steps.**
-/

namespace RiscV
namespace Layout

/-! ### Changes -/

/-- One change in the words in front of the mnemonic. -/
inductive Reworded : List (List Char) → List (List Char) → Prop
  /-- Two runs of fixed bits, one behind the other, become one. -/
  | join {a b : List Char} {ws : List (List Char)} (ha : ∀ c ∈ a, c = '0' ∨ c = '1')
      (hb : ∀ c ∈ b, c = '0' ∨ c = '1') : Reworded (a :: b :: ws) ((a ++ b) :: ws)
  /-- A field, which is a word that is no run of fixed bits, gets a remark; like every
  word, the remark has no blanks. -/
  | remark {field : List Char} (remark : List Char) {ws : List (List Char)}
      (hfield : ∃ c ∈ field, c ≠ '0' ∧ c ≠ '1') :
      Reworded (field :: ws) ((field ++ '!' :: '=' :: remark) :: ws)
  /-- The immediate goes by another of its names. -/
  | rename (name name' : ImmediateName) {rest : List Char} {ws : List (List Char)} :
      Reworded ((name.spelling ++ '[' :: rest) :: ws) ((name'.spelling ++ '[' :: rest) :: ws)
  /-- The change is behind the first word. -/
  | behind (w : List Char) {ws ws' : List (List Char)} (h : Reworded ws ws') :
      Reworded (w :: ws) (w :: ws')

/-- One change in the text of a layout: in the blanks between its words alone, or in the
words in front of the mnemonic. -/
def Respelled (text text' : String) : Prop :=
  ∃ (fields fields' : List (List Char)) (name : List Char),
    Text.Spaced text.toList (fields ++ [name]) ∧ Text.Spaced text'.toList (fields' ++ [name]) ∧
      (fields' = fields ∨ Reworded fields fields')

/-! ### What a layout compiles to -/

section Compiling

variable {text : String} {width : Width}

/-- A text that is grammatical compiles to the pattern of its items. -/
theorem compile_of_grammatical {fields : List (List Char)} {name : List Char}
    {items : List Item} (h : Grammatical text.toList width fields name items) :
    compile text width = .ok
      ⟨String.ofList (name.map Char.toLower), .ofCells (items.flatMap Item.cells) width⟩ := by
  refine compile_eq_ok_iff.mpr
    ⟨⟨items, String.ofList (name.map Char.toLower)⟩, ?_, h.width_eq, rfl⟩
  refine (ofWords_eq_ok_iff fun _ => Text.ne_nil_of_mem_words).mpr ?_
  exact ⟨fields, name, Text.spaced_iff.mp h.spaced, isMnemonic_iff.mpr ⟨h.letter, h.bracket⟩,
    h.nonempty, h.isItem, h.distinct, rfl⟩

/-- The widths of items add up to the number of their cells. -/
theorem foldr_width (items : List Item) :
    items.foldr (fun item total => item.width + total) 0 = (items.flatMap Item.cells).length :=
  (length_cells ⟨items, ""⟩).symm

/-- A text that compiles is grammatical. -/
theorem grammatical_of_compile {c : CompiledLayout} (h : compile text width = .ok c) :
    ∃ fields name items, Grammatical text.toList width fields name items := by
  obtain ⟨layout, hparse, hwidth, -⟩ := compile_eq_ok_iff.mp h
  obtain ⟨fields, name, hwords, hname, hsome, hitems, hdistinct, -⟩ :=
    (ofWords_eq_ok_iff fun _ => Text.ne_nil_of_mem_words).mp hparse
  obtain ⟨hletter, hbracket⟩ := isMnemonic_iff.mp hname
  exact ⟨fields, name, layout.items, Text.spaced_iff.mpr hwords, hletter, hbracket, hsome,
    hitems, hdistinct, hwidth⟩

end Compiling

/-! ### Words -/

theorem isLiteral_of_forall {token : List Char} (h : ∀ c ∈ token, c = '0' ∨ c = '1') :
    isLiteral token = true :=
  List.all_eq_true.mpr fun c hc => by simpa using h c hc

/-- A run of fixed bits can only stand for these bits. -/
theorem IsItem.eq_literal {token : List Char} {item : Item} (h : IsItem token item)
    (htoken : ∀ c ∈ token, c = '0' ∨ c = '1') : item = .literal (token.map (· == '1')) := by
  have hliteral := isLiteral_of_forall htoken
  cases h with
  | @literal bits hbits =>
    rw [List.map_map]
    exact congrArg Item.literal (List.map_id'' (fun b => by cases b <;> rfl) bits).symm
  | @bare _ field hfield =>
    have hany : field.spelling.any (fun c => c != '0' && c != '1') = true := by
      cases field <;> rfl
    obtain ⟨c, hc, hbit⟩ := List.any_eq_true.mp hany
    exact absurd hliteral (not_isLiteral_of_remarked hfield hc (by simpa using hbit))
  | immediate _ _ hfield =>
    exact absurd hliteral (not_isLiteral_of_remarked hfield
      (List.mem_append_right _ List.mem_cons_self) (by decide))

theorem isItem_literal {token : List Char} (hne : token ≠ [])
    (htoken : ∀ c ∈ token, c = '0' ∨ c = '1') :
    IsItem token (.literal (token.map (· == '1'))) := by
  have hitem := @IsItem.literal (token.map (· == '1')) (by simpa using hne)
  rwa [← isLiteral_iff.mp (isLiteral_of_forall htoken)] at hitem

/-- A remark behind a field, or behind its remark, does not count. -/
theorem Remarked.append {token field : List Char} (h : Remarked token field)
    (remark : List Char) : Remarked (token ++ '!' :: '=' :: remark) field := by
  obtain ⟨hfield, rfl | ⟨remark', rfl⟩⟩ := h
  · exact ⟨hfield, .inr ⟨remark, rfl⟩⟩
  · refine ⟨hfield, .inr ⟨remark' ++ '!' :: '=' :: remark, ?_⟩⟩
    rw [List.append_assoc, List.cons_append, List.cons_append]

theorem IsItem.append_remark {token : List Char} {item : Item} (h : IsItem token item)
    (htoken : ∃ c ∈ token, c ≠ '0' ∧ c ≠ '1') (remark : List Char) :
    IsItem (token ++ '!' :: '=' :: remark) item := by
  cases h with
  | @literal bits hbits =>
    -- a run of fixed bits is no field
    obtain ⟨c, hc, hzero, hone⟩ := htoken
    obtain ⟨b, -, rfl⟩ := List.mem_map.mp hc
    cases b <;> contradiction
  | bare hfield => exact .bare (hfield.append remark)
  | immediate hne hranges hfield => exact .immediate hne hranges (hfield.append remark)

/-- The remark on an immediate starts behind its bracket. -/
theorem beforeRemark_immediate (name : ImmediateName) (rest : List Char) :
    beforeRemark (name.spelling ++ '[' :: rest) = name.spelling ++ '[' :: beforeRemark rest := by
  cases name <;> rfl

/-- An immediate holds the same bits under each of its names. -/
theorem IsItem.rename {name : ImmediateName} {rest : List Char} {item : Item}
    (h : IsItem (name.spelling ++ '[' :: rest) item) (name' : ImmediateName) :
    ∃ places, item = .immediate name places ∧
      IsItem (name'.spelling ++ '[' :: rest) (.immediate name' places) := by
  have hbracket : '[' ∈ name.spelling ++ '[' :: beforeRemark rest :=
    List.mem_append_right _ List.mem_cons_self
  generalize htoken : name.spelling ++ '[' :: rest = token at h
  cases h with
  | @literal bits hbits =>
    have hmem : '[' ∈ bits.map fun b => if b then '1' else '0' := by
      rw [← htoken]
      exact List.mem_append_right _ List.mem_cons_self
    obtain ⟨b, -, hb⟩ := List.mem_map.mp hmem
    cases b <;> contradiction
  | @bare _ field hfield =>
    rw [← htoken, remarked_iff, beforeRemark_immediate] at hfield
    rw [hfield] at hbracket
    exact absurd hbracket field.bracket_notMem_spelling
  | @immediate _ name₀ texts ranges hne hranges hfield =>
    rw [← htoken, remarked_iff, beforeRemark_immediate] at hfield
    obtain ⟨hname, hrest⟩ := Text.append_cons_inj name.bracket_notMem_spelling
      name₀.bracket_notMem_spelling hfield
    have hsame : name = name₀ := by
      have hof := ImmediateName.ofName?_eq_some_iff.mpr hname
      rw [ImmediateName.ofName?_eq_some_iff.mpr rfl] at hof
      exact (Option.some.inj hof).symm
    refine ⟨_, by rw [hsame], .immediate hne hranges ?_⟩
    rw [remarked_iff, beforeRemark_immediate, hrest]

/-! ### Items -/

/-- The items draw the same bits, hold the same bits of the immediate, and have the same
bare fields. -/
structure Alike (items items' : List Item) : Prop where
  /-- The bits drawn. -/
  cells : items'.flatMap Item.cells = items.flatMap Item.cells
  /-- The bits of the immediate. -/
  places : items'.flatMap Item.places = items.flatMap Item.places
  /-- The bare fields. -/
  fields : bareFields items' = bareFields items

namespace Alike

theorem refl (items : List Item) : Alike items items := ⟨rfl, rfl, rfl⟩

theorem append {front front' items items' : List Item} (hfront : Alike front front')
    (h : Alike items items') : Alike (front ++ items) (front' ++ items') where
  cells := by rw [List.flatMap_append, List.flatMap_append, hfront.cells, h.cells]
  places := by rw [List.flatMap_append, List.flatMap_append, hfront.places, h.places]
  fields := by
    have hfields : ∀ l l' : List Item, bareFields (l ++ l') = bareFields l ++ bareFields l' :=
      fun _ _ => List.filterMap_append
    rw [hfields, hfields, hfront.fields, h.fields]

theorem distinct {items items' : List Item} (h : Alike items items') (hdistinct : Distinct items) :
    Distinct items' where
  places := h.places ▸ hdistinct.places
  fields := h.fields ▸ hdistinct.fields

theorem join (bits bits' : List Bool) :
    Alike [.literal bits, .literal bits'] [.literal (bits ++ bits')] where
  cells := by simp [Item.cells]
  places := rfl
  fields := rfl

theorem rename (name name' : ImmediateName) (places : List Nat) :
    Alike [.immediate name places] [.immediate name' places] := ⟨rfl, rfl, rfl⟩

end Alike

/-- **A change in the words gives items that are alike.** -/
theorem exists_alike_of_reworded {ws ws' : List (List Char)} (h : Reworded ws ws')
    {items : List Item} (hitems : List.Forall₂ IsItem ws items) (hne : ∀ w ∈ ws, w ≠ []) :
    ∃ items', List.Forall₂ IsItem ws' items' ∧ Alike items items' := by
  induction h generalizing items with
  | @join a b ws ha hb =>
    cases hitems with
    | cons hitem hitems =>
      cases hitems with
      | @cons _ _ _ items hitem' hitems =>
        obtain rfl := hitem.eq_literal ha
        obtain rfl := hitem'.eq_literal hb
        have hboth : ∀ c ∈ a ++ b, c = '0' ∨ c = '1' := List.forall_mem_append.mpr ⟨ha, hb⟩
        have hjoined := isItem_literal (by simp [hne a List.mem_cons_self]) hboth
        rw [List.map_append] at hjoined
        exact ⟨_, .cons hjoined hitems, (Alike.join _ _).append (.refl items)⟩
  | remark remark hfield =>
    cases hitems with
    | cons hitem hitems =>
      exact ⟨_, .cons (hitem.append_remark hfield remark) hitems, .refl _⟩
  | rename name name' =>
    cases hitems with
    | @cons _ _ _ items hitem hitems =>
      obtain ⟨places, rfl, hrenamed⟩ := hitem.rename name'
      exact ⟨_, .cons hrenamed hitems, (Alike.rename name name' places).append (.refl items)⟩
  | behind w _ ih =>
    cases hitems with
    | @cons _ item _ items hitem hitems =>
      obtain ⟨items', hitems', halike⟩ := ih hitems (List.forall_mem_cons.mp hne).2
      exact ⟨item :: items', .cons hitem hitems', (Alike.refl [item]).append halike⟩

/-! ### Steps -/

theorem Reworded.ne_nil {ws ws' : List (List Char)} (h : Reworded ws ws') : ws' ≠ [] := by
  cases h <;> simp

/-- **A step keeps what a layout compiles to.** -/
theorem compile_of_respelled {text text' : String} {width : Width} {c : CompiledLayout}
    (h : Respelled text text') (hc : compile text width = .ok c) :
    compile text' width = .ok c := by
  obtain ⟨fields, fields', name, hspaced, hspaced', hchange⟩ := h
  obtain ⟨fields₀, name₀, items, hgrammar⟩ := grammatical_of_compile hc
  -- the words of a text are determined
  have hwords : fields₀ ++ [name₀] = fields ++ [name] := by
    rw [← Text.spaced_iff.mp hspaced, ← Text.spaced_iff.mp hgrammar.spaced]
  obtain ⟨rfl, hlast⟩ := List.append_inj' hwords rfl
  obtain rfl := List.singleton_inj.mp hlast
  have hne : ∀ w ∈ fields₀, w ≠ [] := by
    intro w hw
    refine @Text.ne_nil_of_mem_words text.toList w ?_
    rw [Text.spaced_iff.mp hspaced]
    exact List.mem_append_left _ hw
  obtain ⟨items', hitems', halike⟩ : ∃ items', List.Forall₂ IsItem fields' items' ∧
      Alike items items' := by
    rcases hchange with rfl | hchange
    · exact ⟨items, hgrammar.isItem, .refl items⟩
    · exact exists_alike_of_reworded hchange hgrammar.isItem hne
  have hnonempty : fields' ≠ [] := by
    rcases hchange with rfl | hchange
    · exact hgrammar.nonempty
    · exact hchange.ne_nil
  have hwidth : items'.foldr (fun item total => item.width + total) 0 = width.bits := by
    rw [foldr_width, halike.cells, ← foldr_width, hgrammar.width_eq]
  have hgrammar' : Grammatical text'.toList width fields' name₀ items' :=
    ⟨hspaced', hgrammar.letter, hgrammar.bracket, hnonempty, hitems',
      halike.distinct hgrammar.distinct, hwidth⟩
  rw [← hc, compile_of_grammatical hgrammar, compile_of_grammatical hgrammar', halike.cells]

/-- **Any number of steps keeps what a layout compiles to.** -/
theorem compile_of_reflTransGen {text text' : String} {width : Width} {c : CompiledLayout}
    (h : Relation.ReflTransGen Respelled text text') (hc : compile text width = .ok c) :
    compile text' width = .ok c := by
  induction h with
  | refl => exact hc
  | tail _ hstep ih => exact compile_of_respelled hstep ih

end Layout
end RiscV
