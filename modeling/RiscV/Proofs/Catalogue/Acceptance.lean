import Mathlib.Data.List.Basic
import RiscV.Proofs.Catalogue.Order

/-!
# Runs without error

A list of definitions can be added to the empty catalogue one after the other
until one of them is refused.  Whether that happens can be told from the list
alone: of the definitions with one pattern only the first counts, and of those
that count each has to be allowed before every later one of its width.  A run
without error leaves exactly the definitions that count, in their order.

So two runs over the same definitions in different orders answer every word with
the same pattern.  The definitions that are kept may differ where several have
one pattern, and nowhere else.

## Main definitions

* `Catalogue.pushAll` — adding definitions up to the first error.
* `Catalogue.firsts` — the definitions that repeat no earlier pattern.
* `Catalogue.Arranged` — each definition may precede the later ones of its width.
* `Catalogue.ofList` — definitions sorted into the two lists.

## Main results

* `Catalogue.pushAll_eq_ok_iff` — **which lists are added without error, and what
  they leave behind.**
* `Catalogue.pushAll_eq_error` — what the error of a run says.
* `Catalogue.Ordered.lookup_pattern_iff` — the pattern that answers a word is told
  by the patterns of the catalogue, not by their order.
* `Catalogue.lookup_perm` — **looking up does not depend on the order of the
  definitions, once an order is accepted.**
-/

namespace RiscV
namespace Catalogue

/-! ### Runs -/

/-- The catalogue after definitions were added in order, or the first error. -/
def pushAll (c : Catalogue) : List Definition → Except DefinitionError Catalogue
  | [] => .ok c
  | d :: ds =>
    match c.push d with
    | .ok (c', _) => c'.pushAll ds
    | .error e => .error e

/-- The definitions that repeat the pattern of no earlier one. -/
def firsts : List Definition → List Definition
  | [] => []
  | d :: ds => d :: (firsts ds).filter fun e => e.pattern ≠ d.pattern

/-- Each definition may precede the later ones of its width. -/
def Arranged (ds : List Definition) : Prop :=
  ds.Pairwise fun a b =>
    a.pattern.width = b.pattern.width → a.pattern.MayPrecede b.pattern

/-- The catalogue that holds definitions in a given order. -/
def ofList (ds : List Definition) : Catalogue where
  compressed := ds.filter fun d => d.pattern.width = .compressed
  standard := ds.filter fun d => d.pattern.width = .standard

@[simp] theorem pushAll_nil (c : Catalogue) : c.pushAll [] = .ok c := rfl

theorem pushAll_cons_of_ok {c c' : Catalogue} {d : Definition} {r : Insertion}
    (h : c.push d = .ok (c', r)) (ds : List Definition) :
    c.pushAll (d :: ds) = c'.pushAll ds := by
  rw [pushAll, h]

theorem pushAll_cons_of_error {c : Catalogue} {d : Definition} {e : DefinitionError}
    (h : c.push d = .error e) (ds : List Definition) : c.pushAll (d :: ds) = .error e := by
  rw [pushAll, h]

@[simp] theorem list_ofList (ds : List Definition) (width : Width) :
    (ofList ds).list width = ds.filter fun d => d.pattern.width = width := by
  cases width <;> rfl

theorem ofList_append_singleton (ds : List Definition) (d : Definition) :
    ofList (ds ++ [d]) = (ofList ds).append d := by
  unfold append ofList
  cases hd : d.pattern.width <;> simp [hd]

theorem mem_list_ofList {ds : List Definition} {d : Definition} {width : Width} :
    d ∈ (ofList ds).list width ↔ d ∈ ds ∧ d.pattern.width = width := by
  simp

/-- Arranged definitions make an ordered catalogue. -/
theorem Arranged.ordered {ds : List Definition} (h : Arranged ds) : (ofList ds).Ordered := by
  constructor
  · intro width d hd
    exact (mem_list_ofList.mp hd).2
  · intro width
    rw [list_ofList]
    refine (h.filter _).imp_of_mem ?_
    intro a b ha hb hab
    have ha' : a.pattern.width = width := by simpa using (List.mem_filter.mp ha).2
    have hb' : b.pattern.width = width := by simpa using (List.mem_filter.mp hb).2
    exact hab (ha'.trans hb'.symm)

/-! ### Definitions that count -/

theorem firsts_sublist (ds : List Definition) : (firsts ds).Sublist ds := by
  induction ds with
  | nil => exact List.Sublist.slnil
  | cons d ds ih => exact (List.filter_sublist.trans ih).cons_cons d

/-- Behind other definitions, those count whose pattern is new. -/
theorem firsts_append (ds es : List Definition) :
    firsts (ds ++ es)
      = firsts ds ++ (firsts es).filter fun e => e.pattern ∉ ds.map Definition.pattern := by
  induction ds with
  | nil => exact (List.filter_eq_self.mpr (by simp)).symm
  | cons d ds ih =>
    rw [List.cons_append, firsts, firsts, ih, List.filter_append, List.filter_filter,
      List.cons_append]
    congr 3
    funext e
    simp

/-- The patterns of a list are those of the definitions that count. -/
theorem exists_mem_firsts {ds : List Definition} {d : Definition} (h : d ∈ ds) :
    ∃ e ∈ firsts ds, e.pattern = d.pattern := by
  induction ds with
  | nil => contradiction
  | cons a ds ih =>
    by_cases ha : d.pattern = a.pattern
    · exact ⟨a, List.mem_cons_self, ha.symm⟩
    · have hmem : d ∈ ds := by
        rcases List.mem_cons.mp h with rfl | hmem
        · exact absurd rfl ha
        · exact hmem
      obtain ⟨e, he, heq⟩ := ih hmem
      refine ⟨e, List.mem_cons_of_mem a (List.mem_filter.mpr ⟨he, ?_⟩), heq⟩
      simpa [heq] using ha

theorem firsts_append_singleton_of_mem {ds : List Definition} {d : Definition}
    (h : d.pattern ∈ ds.map Definition.pattern) : firsts (ds ++ [d]) = firsts ds := by
  rw [firsts_append]
  simpa [firsts] using h

theorem firsts_append_singleton_of_notMem {ds : List Definition} {d : Definition}
    (h : d.pattern ∉ ds.map Definition.pattern) : firsts (ds ++ [d]) = firsts ds ++ [d] := by
  rw [firsts_append]
  simpa [firsts] using h

/-! ### One definition more -/

theorem verdict_eq_duplicate {new old : Definition} {l : List Definition}
    (h : verdict new l = .duplicate old) : old ∈ l ∧ old.pattern = new.pattern := by
  induction l with
  | nil => contradiction
  | cons a l ih =>
    rw [verdict] at h
    split at h
    · split at h
      · next heq =>
        obtain rfl := Verdict.duplicate.inj h
        exact ⟨List.mem_cons_self, heq⟩
      · split at h
        · exact ⟨List.mem_cons_of_mem a (ih h).1, (ih h).2⟩
        · contradiction
    · exact ⟨List.mem_cons_of_mem a (ih h).1, (ih h).2⟩

theorem verdict_eq_clash {new old : Definition} {l : List Definition}
    (h : verdict new l = .clash old) :
    old ∈ l ∧ old.pattern.meets new.pattern = true ∧
      old.pattern.refines new.pattern = false := by
  induction l with
  | nil => contradiction
  | cons a l ih =>
    rw [verdict] at h
    split at h
    · next hmeets =>
      split at h
      · contradiction
      · split at h
        · exact ⟨List.mem_cons_of_mem a (ih h).1, (ih h).2⟩
        · next hrefines =>
          obtain rfl := Verdict.clash.inj h
          exact ⟨List.mem_cons_self, hmeets, by simpa using hrefines⟩
    · exact ⟨List.mem_cons_of_mem a (ih h).1, (ih h).2⟩

/-- In order, a pattern that is already there is never refused: what stands
before it and shares words with it fixes more bits, and is passed over. -/
theorem verdict_of_mem {new : Definition} {l : List Definition}
    (hl : l.Pairwise fun a b => a.pattern.MayPrecede b.pattern)
    (h : new.pattern ∈ l.map Definition.pattern) :
    ∃ kept, verdict new l = .duplicate kept := by
  induction l with
  | nil => contradiction
  | cons a l ih =>
    obtain ⟨ha, hl⟩ := List.pairwise_cons.mp hl
    by_cases heq : a.pattern = new.pattern
    · have hmeets : a.pattern.meets new.pattern = true := by
        rw [heq, Pattern.meets_self]
      exact ⟨a, by rw [verdict, if_pos hmeets, if_pos heq]⟩
    · have hmem : new.pattern ∈ l.map Definition.pattern := by
        rcases List.mem_cons.mp h with hnew | hmem
        · exact absurd hnew.symm heq
        · exact hmem
      obtain ⟨b, hb, hpattern⟩ := List.mem_map.mp hmem
      rw [verdict, if_neg heq]
      by_cases hmeets : a.pattern.meets new.pattern = true
      · -- the definition that is there stands behind `a`
        have hrefines := (ha b hb (hpattern ▸ hmeets)).2
        rw [hpattern] at hrefines
        rw [if_pos hmeets, if_pos hrefines]
        exact ih hl hmem
      · rw [if_neg hmeets]
        exact ih hl hmem

/-- What adding a definition to an ordered catalogue can come to.  It is dropped
exactly if its pattern is there; otherwise it is appended if every definition of
its width may precede it, and refused if not. -/
theorem push_cases {c : Catalogue} (h : c.Ordered) (d : Definition) :
    (d.pattern ∈ (c.list d.pattern.width).map Definition.pattern ∧
      ∃ kept, c.push d = .ok (c, .duplicate kept)) ∨
    (d.pattern ∉ (c.list d.pattern.width).map Definition.pattern ∧
      (∀ old ∈ c.list d.pattern.width, old.pattern.MayPrecede d.pattern) ∧
      c.push d = .ok (c.append d, .added)) ∨
    (d.pattern ∉ (c.list d.pattern.width).map Definition.pattern ∧
      ∃ old ∈ c.list d.pattern.width, old.pattern.meets d.pattern = true ∧
        old.pattern.refines d.pattern = false ∧
        c.push d = .error ⟨d.mnemonic, .overlap old.mnemonic old.pattern d.pattern⟩) := by
  unfold push
  -- a clash could hide a duplicate behind it; in order it cannot
  by_cases hmem : d.pattern ∈ (c.list d.pattern.width).map Definition.pattern
  · obtain ⟨kept, hkept⟩ := verdict_of_mem (h.mayPrecede _) hmem
    rw [hkept]
    exact Or.inl ⟨hmem, kept.mnemonic, rfl⟩
  · cases hv : verdict d (c.list d.pattern.width) with
    | fits =>
      rw [verdict_eq_fits_iff] at hv
      exact Or.inr (Or.inl ⟨hmem, hv, rfl⟩)
    | duplicate kept =>
      obtain ⟨hkept, hpattern⟩ := verdict_eq_duplicate hv
      exact absurd (List.mem_map.mpr ⟨kept, hkept, hpattern⟩) hmem
    | clash old =>
      obtain ⟨hold, hmeets, hrefines⟩ := verdict_eq_clash hv
      exact Or.inr (Or.inr ⟨hmem, old, hold, hmeets, hrefines, rfl⟩)

/-! ### Runs without error -/

/-- The patterns of a catalogue that holds the definitions that count are those of
all definitions of the width. -/
theorem mem_map_pattern_ofList_firsts {ds : List Definition} {p : Pattern} {width : Width} :
    p ∈ ((ofList (firsts ds)).list width).map Definition.pattern
      ↔ p ∈ ds.map Definition.pattern ∧ p.width = width := by
  constructor
  · intro hp
    obtain ⟨d, hd, rfl⟩ := List.mem_map.mp hp
    obtain ⟨hmem, hwidth⟩ := mem_list_ofList.mp hd
    exact ⟨List.mem_map.mpr ⟨d, (firsts_sublist ds).subset hmem, rfl⟩, hwidth⟩
  · rintro ⟨hp, hwidth⟩
    obtain ⟨d, hd, rfl⟩ := List.mem_map.mp hp
    obtain ⟨e, he, heq⟩ := exists_mem_firsts hd
    exact List.mem_map.mpr ⟨e, mem_list_ofList.mpr ⟨he, heq ▸ hwidth⟩, heq⟩

/-- A definition with a new pattern keeps the arrangement exactly if it may follow
those that count. -/
theorem arranged_firsts_append_singleton {ds : List Definition} {d : Definition}
    (h : Arranged (firsts ds)) (hd : d.pattern ∉ ds.map Definition.pattern) :
    Arranged (firsts (ds ++ [d])) ↔
      ∀ old ∈ (ofList (firsts ds)).list d.pattern.width,
        old.pattern.MayPrecede d.pattern := by
  rw [firsts_append_singleton_of_notMem hd, Arranged, List.pairwise_append]
  constructor
  · rintro ⟨-, -, hlast⟩ old hold
    obtain ⟨hmem, hwidth⟩ := mem_list_ofList.mp hold
    exact hlast old hmem d (List.mem_singleton_self d) hwidth
  · intro hlast
    refine ⟨h, List.pairwise_singleton _ _, ?_⟩
    intro a ha b hb hwidth
    obtain rfl := List.mem_singleton.mp hb
    exact hlast a (mem_list_ofList.mpr ⟨ha, hwidth⟩)

/-- A run from the definitions that count of `ps` goes on to those of `ps ++ ds`. -/
theorem pushAll_ofList_firsts {ps : List Definition} (hps : Arranged (firsts ps))
    (ds : List Definition) (c : Catalogue) :
    (ofList (firsts ps)).pushAll ds = .ok c
      ↔ Arranged (firsts (ps ++ ds)) ∧ c = ofList (firsts (ps ++ ds)) := by
  -- the catalogue reached so far is always that of the definitions already seen
  induction ds generalizing ps with
  | nil =>
    rw [List.append_nil, pushAll_nil, Except.ok.injEq]
    exact ⟨fun h => ⟨hps, h.symm⟩, fun h => h.2.symm⟩
  | cons d ds ih =>
    have hassoc : ps ++ d :: ds = ps ++ [d] ++ ds := by simp
    have hknown : d.pattern ∈ ((ofList (firsts ps)).list d.pattern.width).map
        Definition.pattern ↔ d.pattern ∈ ps.map Definition.pattern := by
      rw [mem_map_pattern_ofList_firsts]
      exact and_iff_left rfl
    rw [hassoc]
    rcases push_cases hps.ordered d with
      ⟨hmem, kept, hpush⟩ | ⟨hmem, hprecede, hpush⟩ | ⟨hmem, old, hold, hmeets, hrefines, hpush⟩
    · -- dropped: the definitions that count stay the same
      have hfirsts := firsts_append_singleton_of_mem (hknown.mp hmem)
      rw [pushAll_cons_of_ok hpush, ← hfirsts]
      exact ih (hfirsts ▸ hps)
    · -- appended
      have hnew : d.pattern ∉ ps.map Definition.pattern := fun h => hmem (hknown.mpr h)
      have harranged := (arranged_firsts_append_singleton hps hnew).mpr hprecede
      rw [pushAll_cons_of_ok hpush, ← ofList_append_singleton,
        ← firsts_append_singleton_of_notMem hnew]
      exact ih harranged
    · -- refused: the arrangement fails at this definition, whatever follows
      have hnew : d.pattern ∉ ps.map Definition.pattern := fun h => hmem (hknown.mpr h)
      rw [pushAll_cons_of_error hpush]
      refine iff_of_false (by simp) ?_
      rintro ⟨harranged, -⟩
      rw [firsts_append] at harranged
      have hprecede := (arranged_firsts_append_singleton hps hnew).mp
        (List.pairwise_append.mp harranged).1 old hold
      rw [(hprecede hmeets).2] at hrefines
      contradiction

/-- **Which lists of definitions are added without error, and what they leave
behind.**  Of the definitions with one pattern the first counts; the list is
accepted exactly if those that count are arranged, and these are what is kept. -/
theorem pushAll_eq_ok_iff {ds : List Definition} {c : Catalogue} :
    empty.pushAll ds = .ok c ↔ Arranged (firsts ds) ∧ c = ofList (firsts ds) := by
  have hnil : Arranged (firsts []) := List.Pairwise.nil
  exact pushAll_ofList_firsts hnil ds c

/-- A run that fails does so at one definition, after a run without error. -/
theorem exists_refused {c : Catalogue} {ds : List Definition} {e : DefinitionError}
    (h : c.pushAll ds = .error e) :
    ∃ before d after c', ds = before ++ d :: after ∧ c.pushAll before = .ok c' ∧
      c'.push d = .error e := by
  induction ds generalizing c with
  | nil => contradiction
  | cons d ds ih =>
    cases hpush : c.push d with
    | error e' =>
      rw [pushAll_cons_of_error hpush] at h
      obtain rfl := Except.error.inj h
      exact ⟨[], d, ds, c, rfl, rfl, hpush⟩
    | ok pushed =>
      rw [pushAll_cons_of_ok hpush] at h
      obtain ⟨before, d', after, c', rfl, hbefore, hd'⟩ := ih h
      refine ⟨d :: before, d', after, c', rfl, ?_, hd'⟩
      rw [pushAll_cons_of_ok hpush, hbefore]

/-- The error of a run names the definition that was refused and one that was
kept before it, which shares words with it and does not fix all its bits. -/
theorem pushAll_eq_error {ds : List Definition} {e : DefinitionError}
    (h : empty.pushAll ds = .error e) :
    ∃ before d after, ds = before ++ d :: after ∧
      d.pattern ∉ before.map Definition.pattern ∧
      ∃ old ∈ firsts before, old.pattern.width = d.pattern.width ∧
        old.pattern.meets d.pattern = true ∧ old.pattern.refines d.pattern = false ∧
        e = ⟨d.mnemonic, .overlap old.mnemonic old.pattern d.pattern⟩ := by
  obtain ⟨before, d, after, c, hds, hbefore, hpush⟩ := exists_refused h
  obtain ⟨harranged, rfl⟩ := pushAll_eq_ok_iff.mp hbefore
  refine ⟨before, d, after, hds, ?_⟩
  rcases push_cases harranged.ordered d with
    ⟨-, kept, hok⟩ | ⟨-, -, hok⟩ | ⟨hmem, old, hold, hmeets, hrefines, herror⟩
  · rw [hok] at hpush
    contradiction
  · rw [hok] at hpush
    contradiction
  · obtain ⟨hold, hwidth⟩ := mem_list_ofList.mp hold
    rw [herror] at hpush
    refine ⟨?_, old, hold, hwidth, hmeets, hrefines, (Except.error.inj hpush).symm⟩
    intro hknown
    exact hmem (mem_map_pattern_ofList_firsts.mpr ⟨hknown, rfl⟩)

/-! ### Looking up -/

theorem mem_list_of_lookup {c : Catalogue} {w : Word} {d : Definition}
    (h : c.lookup w = some d) : d ∈ c.list w.width := by
  obtain ⟨-, before, after, heq, -⟩ := lookup_eq_some h
  rw [heq]
  exact List.mem_append_right _ List.mem_cons_self

/-- A definition that accepts a word is its answer, or the answer fixes more bits. -/
theorem Ordered.exists_answer {c : Catalogue} (h : c.Ordered) {w : Word} {d : Definition}
    (hd : d ∈ c.list w.width) (haccepts : d.pattern.accepts w.parcel = true) :
    ∃ e, c.lookup w = some e ∧ (e = d ∨ e.pattern.FixesMore d.pattern) := by
  cases hlookup : c.lookup w with
  | none =>
    rw [(lookup_eq_none_iff c w).mp hlookup d hd] at haccepts
    contradiction
  | some e =>
    refine ⟨e, rfl, ?_⟩
    obtain ⟨before, after, heq, hothers⟩ := h.lookup_fixesMore hlookup
    rw [heq, List.mem_append, List.mem_cons] at hd
    rcases hd with hd | rfl | hd
    · exact Or.inr (hothers d (List.mem_append_left _ hd) haccepts)
    · exact Or.inl rfl
    · exact Or.inr (hothers d (List.mem_append_right _ hd) haccepts)

/-- The pattern that answers a word is told by the patterns of the catalogue, not
by their order: it accepts the word, and fixes more bits than every other one that
does. -/
theorem Ordered.lookup_pattern_iff {c : Catalogue} (h : c.Ordered) (w : Word) (p : Pattern) :
    (c.lookup w).map Definition.pattern = some p ↔
      p ∈ (c.list w.width).map Definition.pattern ∧ p.accepts w.parcel = true ∧
      ∀ q ∈ (c.list w.width).map Definition.pattern, q.accepts w.parcel = true →
        q = p ∨ p.FixesMore q := by
  constructor
  · intro hp
    obtain ⟨d, hd, rfl⟩ := Option.map_eq_some_iff.mp hp
    refine ⟨List.mem_map.mpr ⟨d, mem_list_of_lookup hd, rfl⟩, (lookup_eq_some hd).1, ?_⟩
    intro q hq haccepts
    obtain ⟨e, he, rfl⟩ := List.mem_map.mp hq
    obtain ⟨answer, hanswer, hmore⟩ := h.exists_answer he haccepts
    obtain rfl : d = answer := Option.some.inj (hd.symm.trans hanswer)
    rcases hmore with rfl | hmore
    · exact Or.inl rfl
    · exact Or.inr hmore
  · rintro ⟨hp, haccepts, hmost⟩
    obtain ⟨d, hd, rfl⟩ := List.mem_map.mp hp
    obtain ⟨e, hlookup, hmore⟩ := h.exists_answer hd haccepts
    rw [hlookup, Option.map_some]
    rcases hmore with rfl | hmore
    · rfl
    · -- the two patterns are one, or each would fix more bits than the other
      have he : e.pattern ∈ (c.list w.width).map Definition.pattern :=
        List.mem_map.mpr ⟨e, mem_list_of_lookup hlookup, rfl⟩
      rcases hmost e.pattern he (lookup_eq_some hlookup).1 with hpattern | hless
      · rw [hpattern]
      · exact absurd hmore hless.asymm

/-- After a run without error, a word is answered by the most specific pattern
among the definitions that accepts it. -/
theorem lookup_pattern_of_pushAll {ds : List Definition} {c : Catalogue}
    (h : empty.pushAll ds = .ok c) (w : Word) (p : Pattern) :
    (c.lookup w).map Definition.pattern = some p ↔
      (p ∈ ds.map Definition.pattern ∧ p.width = w.width) ∧ p.accepts w.parcel = true ∧
      ∀ q ∈ ds.map Definition.pattern, q.width = w.width → q.accepts w.parcel = true →
        q = p ∨ p.FixesMore q := by
  obtain ⟨harranged, rfl⟩ := pushAll_eq_ok_iff.mp h
  rw [harranged.ordered.lookup_pattern_iff]
  simp only [mem_map_pattern_ofList_firsts, and_imp]

theorem mem_of_lookup_pushAll {ds : List Definition} {c : Catalogue}
    (h : empty.pushAll ds = .ok c) {w : Word} {d : Definition} (hd : c.lookup w = some d) :
    d ∈ ds := by
  obtain ⟨-, rfl⟩ := pushAll_eq_ok_iff.mp h
  have hmem := (mem_list_ofList.mp (mem_list_of_lookup hd)).1
  exact (firsts_sublist ds).subset hmem

/-- **Looking up does not depend on the order of the definitions, once an order is
accepted.**

Let the same definitions be added to the empty catalogue in two orders, both
without error.  Then a word has an answer in both catalogues or in none, and the
two answers have the same pattern.  If definitions with one pattern are the same
definition, so are the answers. -/
theorem lookup_perm {ds₁ ds₂ : List Definition} (hperm : ds₁.Perm ds₂) {c₁ c₂ : Catalogue}
    (h₁ : empty.pushAll ds₁ = .ok c₁) (h₂ : empty.pushAll ds₂ = .ok c₂) (w : Word) :
    (c₁.lookup w).map Definition.pattern = (c₂.lookup w).map Definition.pattern ∧
    ((∀ a ∈ ds₁, ∀ b ∈ ds₁, a.pattern = b.pattern → a = b) → c₁.lookup w = c₂.lookup w) := by
  have hpatterns : ∀ p, p ∈ ds₁.map Definition.pattern ↔ p ∈ ds₂.map Definition.pattern :=
    fun p => (hperm.map Definition.pattern).mem_iff
  -- what tells the answering pattern does not mention an order
  have hsame : (c₁.lookup w).map Definition.pattern = (c₂.lookup w).map Definition.pattern := by
    apply Option.ext
    intro p
    rw [lookup_pattern_of_pushAll h₁, lookup_pattern_of_pushAll h₂]
    simp only [hpatterns]
  refine ⟨hsame, ?_⟩
  intro hinj
  cases hl₁ : c₁.lookup w with
  | none =>
    rw [hl₁, Option.map_none] at hsame
    exact (Option.map_eq_none_iff.mp hsame.symm).symm
  | some d₁ =>
    rw [hl₁, Option.map_some] at hsame
    obtain ⟨d₂, hl₂, heq⟩ := Option.map_eq_some_iff.mp hsame.symm
    have hmem₁ := mem_of_lookup_pushAll h₁ hl₁
    have hmem₂ := hperm.mem_iff.mpr (mem_of_lookup_pushAll h₂ hl₂)
    rw [hl₂, hinj d₁ hmem₁ d₂ hmem₂ heq.symm]

/-- Two definitions with one pattern, and a special case that has to stand before what
it is carved out of: the orders keep different definitions, with the same patterns.
Without the repeated pattern the answers are the same. -/
theorem lookup_perm_jal :
    let jal : Definition := ⟨"c.jal", ⟨0xe003#32, 0x2001#32, .compressed⟩, .cJumpLink, .c⟩
    let addiw : Definition := ⟨"c.addiw", ⟨0xe003#32, 0x2001#32, .compressed⟩, .cAddImm, .c⟩
    let nop : Definition := ⟨"c.nop", ⟨0xef83#32, 0x1#32, .compressed⟩, .cNop, .c⟩
    let addi : Definition := ⟨"c.addi", ⟨0xe003#32, 0x1#32, .compressed⟩, .cAddImm, .c⟩
    (∃ c₁ c₂, empty.pushAll [jal, nop, addi, addiw] = .ok c₁ ∧
      empty.pushAll [nop, addiw, jal, addi] = .ok c₂ ∧
      c₁.lookup 0x2001#32 = some jal ∧ c₂.lookup 0x2001#32 = some addiw ∧
      (c₁.lookup 0x2001#32).map Definition.pattern
        = (c₂.lookup 0x2001#32).map Definition.pattern) ∧
    ∃ c₁ c₂, empty.pushAll [jal, nop, addi] = .ok c₁ ∧
      empty.pushAll [nop, addi, jal] = .ok c₂ ∧
      c₁.lookup 0x1#32 = some nop ∧ c₁.lookup 0x1#32 = c₂.lookup 0x1#32 := by
  intro jal addiw nop addi
  constructor
  · have h₁ : empty.pushAll [jal, nop, addi, addiw] = .ok (ofList [jal, nop, addi]) := by
      decide
    have h₂ : empty.pushAll [nop, addiw, jal, addi] = .ok (ofList [nop, addiw, addi]) := by
      decide
    exact ⟨_, _, h₁, h₂, by decide, by decide, (lookup_perm (by decide) h₁ h₂ _).1⟩
  · have h₁ : empty.pushAll [jal, nop, addi] = .ok (ofList [jal, nop, addi]) := by decide
    have h₂ : empty.pushAll [nop, addi, jal] = .ok (ofList [nop, addi, jal]) := by decide
    exact ⟨_, _, h₁, h₂, by decide, (lookup_perm (by decide) h₁ h₂ _).2 (by decide)⟩

end Catalogue
end RiscV
