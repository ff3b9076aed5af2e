import RiscV.Catalogue
import RiscV.Proofs.Pattern

/-!
# The order of a catalogue

A word is looked up by a search from the front, so what a catalogue answers
depends on the order of its lists.  Adding a definition keeps them in an order in
which the first match is always the most specific one, whatever is added and
whether it is taken in, dropped as a duplicate or refused.

## Main definitions

* `Catalogue.attempt`, `Catalogue.ofAttempts` — a catalogue after one attempt to
  add a definition, and after any number of them from the empty catalogue.
* `Catalogue.Ordered` — the invariant: every definition stands in the list of its
  width, and each may precede those behind it.

## Main results

* `Catalogue.verdict_eq_fits_iff` — a definition fits behind a list exactly when
  each of the list may precede it.
* `Catalogue.ordered_ofAttempts` — the invariant holds after every run.
* `Catalogue.lookup_mostSpecific` — **the answer to a word is its most specific
  definition.**
-/

namespace RiscV
namespace Catalogue

/-! ### Attempts -/

/-- The catalogue after an attempt to add a definition.  One that is refused
leaves it as it was. -/
def attempt (c : Catalogue) (d : Definition) : Catalogue :=
  match c.push d with
  | .ok (c', _) => c'
  | .error _ => c

/-- The catalogue after attempts to add definitions to the empty one, in order. -/
def ofAttempts (ds : List Definition) : Catalogue := ds.foldl attempt empty

/-- What an attempt can do: append the definition if it fits, else nothing. -/
theorem attempt_eq (c : Catalogue) (d : Definition) :
    c.attempt d
      = if verdict d (c.list d.pattern.width) = .fits then c.append d else c := by
  unfold attempt push
  cases hv : verdict d (c.list d.pattern.width) <;> simp

theorem list_append (c : Catalogue) (d : Definition) (width : Width) :
    (c.append d).list width
      = if d.pattern.width = width then c.list width ++ [d] else c.list width := by
  unfold append
  cases hd : d.pattern.width <;> cases width <;> simp [list]

/-- A definition fits behind a list exactly when each of the list may precede it. -/
theorem verdict_eq_fits_iff (new : Definition) (l : List Definition) :
    verdict new l = .fits ↔ ∀ old ∈ l, old.pattern.MayPrecede new.pattern := by
  induction l with
  | nil => simp [verdict]
  | cons old rest ih =>
    rw [List.forall_mem_cons, ← ih, verdict]
    unfold Pattern.MayPrecede
    split
    · next hmeets =>
      split
      · next heq =>
        rw [heq] at hmeets
        simp [heq, hmeets]
      · next hne => split <;> simp_all
    · next hmeets => simp [hmeets]

/-! ### The invariant -/

/-- Every definition stands in the list of its width, and each may precede those
behind it. -/
structure Ordered (c : Catalogue) : Prop where
  /-- A list holds definitions of its width only. -/
  width_eq : ∀ width, ∀ d ∈ c.list width, d.pattern.width = width
  /-- Each definition may precede those behind it. -/
  mayPrecede : ∀ width,
    (c.list width).Pairwise fun a b => a.pattern.MayPrecede b.pattern

theorem ordered_empty : Ordered empty := by
  constructor <;> intro width <;> cases width <;> simp [empty, list]

/-- A definition that fits can be appended. -/
theorem Ordered.append {c : Catalogue} {d : Definition} (h : c.Ordered)
    (hfits : verdict d (c.list d.pattern.width) = .fits) : (c.append d).Ordered := by
  rw [verdict_eq_fits_iff] at hfits
  constructor
  · intro width e he
    rw [list_append] at he
    split at he
    · next hw =>
      rcases List.mem_append.mp he with he | he
      · exact h.width_eq width e he
      · rw [List.mem_singleton.mp he, hw]
    · exact h.width_eq width e he
  · intro width
    rw [list_append]
    split
    · next hw =>
      rw [List.pairwise_append]
      refine ⟨h.mayPrecede width, List.pairwise_singleton _ _, ?_⟩
      intro a ha b hb
      rw [List.mem_singleton.mp hb]
      exact hfits a (hw ▸ ha)
    · exact h.mayPrecede width

/-- An attempt keeps the order, whatever comes of it. -/
theorem Ordered.attempt {c : Catalogue} (h : c.Ordered) (d : Definition) :
    (c.attempt d).Ordered := by
  rw [attempt_eq]
  split
  · next hfits => exact h.append hfits
  · exact h

theorem Ordered.foldl_attempt {c : Catalogue} (h : c.Ordered) (ds : List Definition) :
    (ds.foldl Catalogue.attempt c).Ordered := by
  induction ds generalizing c with
  | nil => exact h
  | cons d ds ih => exact ih (h.attempt d)

/-- **The order after any run of attempts.** -/
theorem ordered_ofAttempts (ds : List Definition) : (ofAttempts ds).Ordered :=
  ordered_empty.foldl_attempt ds

/-! ### Looking up -/

/-- The answer to a word accepts it, and stands before every other definition
that does. -/
theorem lookup_eq_some {c : Catalogue} {w : Word} {d : Definition}
    (h : c.lookup w = some d) :
    d.pattern.accepts w.parcel = true ∧ ∃ before after,
      c.list w.width = before ++ d :: after ∧
        ∀ e ∈ before, e.pattern.accepts w.parcel = false := by
  obtain ⟨hd, before, after, heq, hbefore⟩ := List.find?_eq_some_iff_append.mp h
  refine ⟨hd, before, after, heq, ?_⟩
  intro e he
  simpa using hbefore e he

theorem lookup_eq_none_iff (c : Catalogue) (w : Word) :
    c.lookup w = none ↔ ∀ d ∈ c.list w.width, d.pattern.accepts w.parcel = false := by
  simp [lookup]

/-- In order, two definitions of one list share no word unless the earlier one
fixes strictly more bits. -/
theorem Ordered.pairwise_fixesMore {c : Catalogue} (h : c.Ordered) (width : Width) :
    (c.list width).Pairwise fun a b =>
      ∀ w, a.pattern.accepts w = true → b.pattern.accepts w = true →
        a.pattern.FixesMore b.pattern := by
  refine (h.mayPrecede width).imp_of_mem ?_
  intro a b ha hb hab w hwa hwb
  have hwidth : a.pattern.width = b.pattern.width := by
    rw [h.width_eq width a ha, h.width_eq width b hb]
  exact hab.fixesMore hwidth hwa hwb

/-- In order, the answer to a word fixes strictly more bits than every other
definition that accepts the word. -/
theorem Ordered.lookup_fixesMore {c : Catalogue} (h : c.Ordered) {w : Word} {d : Definition}
    (hd : c.lookup w = some d) :
    ∃ before after, c.list w.width = before ++ d :: after ∧
      ∀ e ∈ before ++ after, e.pattern.accepts w.parcel = true →
        d.pattern.FixesMore e.pattern := by
  obtain ⟨haccepts, before, after, heq, hbefore⟩ := lookup_eq_some hd
  refine ⟨before, after, heq, ?_⟩
  intro e he hew
  rcases List.mem_append.mp he with he | he
  · -- nothing before the answer accepts the word
    rw [hbefore e he] at hew
    contradiction
  · have hpairs := h.pairwise_fixesMore w.width
    rw [heq, List.pairwise_append] at hpairs
    exact (List.pairwise_cons.mp hpairs.2.1).1 e he w.parcel haccepts hew

/-- **The answer to a word is its most specific definition.**

After any run of attempts to add definitions, with any outcomes: every definition
stands in the list of its width; of two definitions in one list, either no word
has both patterns or the earlier fixes strictly more bits; so a word has no answer
exactly when no definition of its width accepts it, and an answer accepts the word
and fixes strictly more bits than every other definition in the list that does. -/
theorem lookup_mostSpecific (ds : List Definition) :
    (∀ width, ∀ d ∈ (ofAttempts ds).list width, d.pattern.width = width) ∧
    (∀ width, ((ofAttempts ds).list width).Pairwise fun a b =>
      (¬∃ w, a.pattern.accepts w = true ∧ b.pattern.accepts w = true) ∨
        a.pattern.FixesMore b.pattern) ∧
    ∀ w, ((ofAttempts ds).lookup w = none ↔
        ∀ d ∈ (ofAttempts ds).list w.width, d.pattern.accepts w.parcel = false) ∧
      ∀ d, (ofAttempts ds).lookup w = some d →
        d.pattern.accepts w.parcel = true ∧
        ∃ before after, (ofAttempts ds).list w.width = before ++ d :: after ∧
          ∀ e ∈ before ++ after, e.pattern.accepts w.parcel = true →
            d.pattern.FixesMore e.pattern := by
  have hordered := ordered_ofAttempts ds
  refine ⟨hordered.width_eq, ?_, ?_⟩
  · intro width
    refine (hordered.pairwise_fixesMore width).imp ?_
    intro a b hab
    by_cases hshared : ∃ w, a.pattern.accepts w = true ∧ b.pattern.accepts w = true
    · obtain ⟨w, hwa, hwb⟩ := hshared
      exact Or.inr (hab w hwa hwb)
    · exact Or.inl hshared
  · intro w
    refine ⟨lookup_eq_none_iff _ w, ?_⟩
    intro d hd
    exact ⟨(lookup_eq_some hd).1, hordered.lookup_fixesMore hd⟩

end Catalogue
end RiscV
