import RiscV.Proofs.Config.Reading
import RiscV.Proofs.Json.Spelling

/-!
# The texts of configurations

Every text that is read as a configuration is JSON, and every configuration has a text, so
that reading accepts exactly the texts of the values that describe a configuration.

The readers check the shape of the tokens as they go.  For each of them, what it takes off
the tokens is a value, or the elements or members of one, at the front of the text.

## Main results

* `Config.exists_isText` — **only JSON is read.**
* `Config.parse_iff_describes` — **what is read as a configuration.**
-/

namespace RiscV.Config

open Json

/-! ### Values -/

theorem leads_of_readXlen {cs : List Char} {k : List Token} {x : Option Nat}
    (h : readXlen (tokens cs) = .ok (x, k)) : ∃ v, Leads (.elements v []) cs k := by
  generalize hts : tokens cs = ts at h
  unfold readXlen at h
  split at h
  · obtain ⟨-, rfl⟩ := Prod.mk.inj (Except.ok.inj h)
    exact exists_leads_value hts trivial rfl
  · split at h
    · obtain ⟨-, rfl⟩ := Prod.mk.inj (Except.ok.inj h)
      exact exists_leads_value hts trivial rfl
    · contradiction
  · contradiction

theorem of_readNameEnd {ts k : List Token} (h : readNameEnd ts = .ok k) :
    ts = .colon :: .null :: .closeObject :: k := by
  unfold readNameEnd at h
  split at h
  · split at h
    · split at h
      · rw [Except.ok.inj h]
      · contradiction
    · contradiction
  · contradiction

theorem leads_of_readName {α : Type} {known : List (String × α)} {cs : List Char}
    {k : List Token} {a : α} (h : readName known (tokens cs) = .ok (a, k)) :
    ∃ v, Leads (.elements v []) cs k := by
  generalize hts : tokens cs = ts at h
  unfold readName at h
  split at h
  · split at h
    · obtain ⟨-, rfl⟩ := Prod.mk.inj (Except.ok.inj h)
      exact exists_leads_value hts trivial rfl
    · contradiction
  · next text ts =>
    split at h
    · obtain ⟨rest, hend, hrest⟩ := Except.map_eq_ok.mp h
      obtain ⟨-, rfl⟩ := Prod.mk.inj hrest
      rw [of_readNameEnd hend] at hts
      obtain ⟨cs₁, hts₁, -, hobject⟩ := leads_object hts
      obtain ⟨cs₂, hts₂, hmember⟩ := leads_member hts₁
      obtain ⟨v, hv⟩ := exists_leads_value hts₂ trivial rfl
      exact ⟨_, hobject _ _ _ _ (hmember _ _ hv)⟩
    · contradiction
  · contradiction
  · contradiction
  · contradiction
  · contradiction

theorem leads_of_readPreset {cs : List Char} {k : List Token} {p : Option Preset}
    (h : readPreset (tokens cs) = .ok (p, k)) : ∃ v, Leads (.elements v []) cs k := by
  generalize hts : tokens cs = ts at h
  unfold readPreset at h
  split at h
  · obtain ⟨-, rfl⟩ := Prod.mk.inj (Except.ok.inj h)
    exact exists_leads_value hts trivial rfl
  · contradiction
  · obtain ⟨r, hname, hr⟩ := Except.map_eq_ok.mp h
    obtain ⟨-, rfl⟩ := Prod.mk.inj hr
    rw [← hts] at hname
    exact leads_of_readName hname

/-- Further modules are further elements. -/
theorem leads_of_readMoreModules {ts k : List Token} {ms : List Builtin}
    (h : readMoreModules ts = .ok (ms, k)) {v : Value} {cs : List Char}
    (hleads : Leads (.elements v []) cs ts) :
    ∃ vs, Leads (.elements v vs) cs (.closeList :: k) := by
  fun_induction readMoreModules ts generalizing ms k v cs with
  | case1 ts =>
    obtain ⟨-, rfl⟩ := Prod.mk.inj (Except.ok.inj h)
    exact ⟨[], hleads⟩
  | case2 => contradiction
  | case3 ts m rest hname _ ih =>
    obtain ⟨r, hmore, hr⟩ := Except.map_eq_ok.mp h
    obtain ⟨-, rfl⟩ := Prod.mk.inj hr
    obtain ⟨cs', rfl, hcomma⟩ := hleads.comma_elements
    obtain ⟨v', hv'⟩ := leads_of_readName hname
    obtain ⟨vs, hvs⟩ := ih hmore hv'
    exact ⟨v' :: vs, hcomma v' vs _ hvs⟩
  | case4 => contradiction

theorem leads_of_readModules {cs : List Char} {k : List Token} {ms : List Builtin}
    (h : readModules (tokens cs) = .ok (ms, k)) : ∃ v, Leads (.elements v []) cs k := by
  generalize hts : tokens cs = ts at h
  unfold readModules at h
  split at h
  · obtain ⟨-, rfl⟩ := Prod.mk.inj (Except.ok.inj h)
    obtain ⟨cs', -, hempty, -⟩ := leads_list hts
    exact ⟨_, hempty _ rfl⟩
  · next ts _ =>
    obtain ⟨cs', rfl, -, hlist⟩ := leads_list hts
    obtain ⟨⟨m, ts₁⟩, hname, h⟩ := Except.bind_eq_ok.mp h
    obtain ⟨⟨ms', ts₂⟩, hmore, h⟩ := Except.bind_eq_ok.mp h
    obtain ⟨-, rfl⟩ := Prod.mk.inj (Except.ok.inj h)
    obtain ⟨v, hv⟩ := leads_of_readName hname
    obtain ⟨vs, hvs⟩ := leads_of_readMoreModules hmore hv
    exact ⟨_, hlist v vs _ hvs⟩
  · contradiction

/-! ### The object form -/

theorem leads_of_readValue {d d' : Draft} {key : Key} {cs : List Char} {k : List Token}
    (h : readValue d key (tokens cs) = .ok (d', k)) : ∃ v, Leads (.elements v []) cs k := by
  cases key with
  | xlen =>
    obtain ⟨r, hread, hr⟩ := Except.map_eq_ok.mp h
    obtain ⟨-, rfl⟩ := Prod.mk.inj hr
    exact leads_of_readXlen hread
  | preset =>
    obtain ⟨r, hread, hr⟩ := Except.map_eq_ok.mp h
    obtain ⟨-, rfl⟩ := Prod.mk.inj hr
    exact leads_of_readPreset hread
  | modules =>
    obtain ⟨r, hread, hr⟩ := Except.map_eq_ok.mp h
    obtain ⟨-, rfl⟩ := Prod.mk.inj hr
    exact leads_of_readModules hread

theorem leads_of_readEntry {d d' : Draft} {cs : List Char} {k : List Token}
    (h : readEntry d (tokens cs) = .ok (d', k)) : ∃ key v, Leads (.members key v []) cs k := by
  generalize hts : tokens cs = ts at h
  unfold readEntry at h
  split at h
  · next text ts =>
    split at h
    · contradiction
    · split at h
      · contradiction
      · split at h
        · next ts =>
          obtain ⟨cs', rfl, hmember⟩ := leads_member hts
          obtain ⟨v, hv⟩ := leads_of_readValue h
          exact ⟨text, v, hmember v k hv⟩
        · contradiction
  · contradiction
  · contradiction

/-- Further entries are further members. -/
theorem leads_of_readMoreEntries {d d' : Draft} {ts k : List Token}
    (h : readMoreEntries d ts = .ok (d', k)) {key : String} {v : Value} {cs : List Char}
    (hleads : Leads (.members key v []) cs ts) :
    ∃ es, Leads (.members key v es) cs (.closeObject :: k) := by
  fun_induction readMoreEntries d ts generalizing k key v cs with
  | case1 d ts =>
    obtain ⟨-, rfl⟩ := Prod.mk.inj (Except.ok.inj h)
    exact ⟨[], hleads⟩
  | case2 => contradiction
  | case3 d ts d₁ rest hentry _ ih =>
    obtain ⟨cs', rfl, hcomma⟩ := hleads.comma_members
    obtain ⟨key', v', hv'⟩ := leads_of_readEntry hentry
    obtain ⟨es, hes⟩ := ih h hv'
    exact ⟨(key', v') :: es, hcomma key' v' es _ hes⟩
  | case4 => contradiction

theorem leads_of_readObject {cs : List Char} {ts k : List Token} {c : Config}
    (hts : tokens cs = .openObject :: ts) (h : readObject ts = .ok (c, k)) :
    ∃ v, Leads (.elements v []) cs k := by
  obtain ⟨cs', rfl, hempty, hobject⟩ := leads_object hts
  generalize hts' : tokens cs' = ts at h hempty
  unfold readObject at h
  split at h
  · obtain ⟨-, rfl⟩ := Prod.mk.inj (Except.ok.inj h)
    exact ⟨_, hempty _ rfl⟩
  · obtain ⟨⟨d, ts₁⟩, hentry, h⟩ := Except.bind_eq_ok.mp h
    obtain ⟨⟨d', ts₂⟩, hmore, h⟩ := Except.bind_eq_ok.mp h
    obtain ⟨-, rfl⟩ := Prod.mk.inj (Except.ok.inj h)
    rw [← hts'] at hentry
    obtain ⟨key, v, hv⟩ := leads_of_readEntry hentry
    obtain ⟨es, hes⟩ := leads_of_readMoreEntries hmore hv
    exact ⟨_, hobject key v es _ hes⟩

/-! ### The list form -/

theorem of_readListEnd {c c' : Config} {ts k : List Token} (h : readListEnd c ts = .ok (c', k)) :
    ts = .closeList :: k := by
  unfold readListEnd at h
  split at h
  · rw [(Prod.mk.inj (Except.ok.inj h)).2]
  · contradiction

theorem leads_of_readThird {c c' : Config} {ts k : List Token}
    (h : readThird c ts = .ok (c', k)) {v : Value} {cs : List Char}
    (hleads : Leads (.elements v []) cs ts) :
    ∃ vs, Leads (.elements v vs) cs (.closeList :: k) := by
  unfold readThird at h
  split at h
  · obtain ⟨cs', rfl, hcomma⟩ := hleads.comma_elements
    obtain ⟨⟨ms, ts₁⟩, hread, h⟩ := Except.bind_eq_ok.mp h
    obtain ⟨v', hv'⟩ := leads_of_readModules hread
    rw [of_readListEnd h] at hv'
    exact ⟨[v'], hcomma v' [] _ hv'⟩
  · rw [of_readListEnd h] at hleads
    exact ⟨[], hleads⟩

theorem leads_of_readSecond {c c' : Config} {ts k : List Token}
    (h : readSecond c ts = .ok (c', k)) {v : Value} {cs : List Char}
    (hleads : Leads (.elements v []) cs ts) :
    ∃ vs, Leads (.elements v vs) cs (.closeList :: k) := by
  unfold readSecond at h
  split at h
  · obtain ⟨cs', rfl, hcomma⟩ := hleads.comma_elements
    obtain ⟨⟨p, ts₁⟩, hread, h⟩ := Except.bind_eq_ok.mp h
    obtain ⟨v', hv'⟩ := leads_of_readPreset hread
    obtain ⟨vs, hvs⟩ := leads_of_readThird h hv'
    exact ⟨v' :: vs, hcomma v' vs _ hvs⟩
  · rw [of_readListEnd h] at hleads
    exact ⟨[], hleads⟩

theorem leads_of_readList {cs : List Char} {ts k : List Token} {c : Config}
    (hts : tokens cs = .openList :: ts) (h : readList ts = .ok (c, k)) :
    ∃ v, Leads (.elements v []) cs k := by
  obtain ⟨cs', rfl, hempty, hlist⟩ := leads_list hts
  generalize hts' : tokens cs' = ts at h hempty
  unfold readList at h
  split at h
  · obtain ⟨-, rfl⟩ := Prod.mk.inj (Except.ok.inj h)
    exact ⟨_, hempty _ rfl⟩
  · obtain ⟨⟨x, ts₁⟩, hread, h⟩ := Except.bind_eq_ok.mp h
    rw [← hts'] at hread
    obtain ⟨v, hv⟩ := leads_of_readXlen hread
    obtain ⟨vs, hvs⟩ := leads_of_readSecond h hv
    exact ⟨_, hlist v vs _ hvs⟩

/-! ### The whole -/

/-- **Only JSON is read.** -/
theorem exists_isText {text : String} {c : Config} (h : parse text = .ok c) :
    ∃ v, IsText v text.toList := by
  have hleads : ∃ v, Leads (.elements v []) text.toList [] := by
    generalize hts : tokens text.toList = ts
    rw [parse, hts] at h
    simp only [ofTokens] at h
    split at h
    · exact leads_of_readObject hts (bind_isEmpty_eq_ok_iff.mp h)
    · exact leads_of_readList hts (bind_isEmpty_eq_ok_iff.mp h)
    · contradiction
  obtain ⟨v, hv⟩ := hleads
  exact ⟨v, hv.isText⟩

/-- **What is read as a configuration.**  A text is read exactly if it writes a value that
describes a configuration, as the configuration described; a text that writes a value is
judged by this value alone, and the order of its keys does not matter.  Every configuration
can be written, and is read back. -/
theorem parse_iff_describes :
    (∀ (text : String) (c : Config),
        parse text = .ok c ↔ ∃ v, IsText v text.toList ∧ Describes v c) ∧
      (∀ (v : Value) (text : String), IsText v text.toList →
        ∀ c, parse text = .ok c ↔ Describes v c) ∧
      (∀ (es es' : List (String × Value)) (c : Config), es.Perm es' →
        (Describes (.object es) c ↔ Describes (.object es') c)) ∧
      ∀ c : Config, (∀ n, c.xlen = some n → n ≤ 0xffffffff) →
        IsText c.toValue c.text.toList ∧ Describes c.toValue c ∧ parse c.text = .ok c := by
  refine ⟨?_, ?_, ?_, ?_⟩
  · intro text c
    constructor
    · intro h
      obtain ⟨v, hv⟩ := exists_isText h
      exact ⟨v, hv, (parse_eq_ok_iff hv).mp h⟩
    · rintro ⟨v, hv, hdescribes⟩
      exact (parse_eq_ok_iff hv).mpr hdescribes
  · intro v text hv c
    exact parse_eq_ok_iff hv
  · intro es es' c hperm
    exact ⟨fun h => h.perm hperm, fun h => h.perm hperm.symm⟩
  · intro c hx
    have hdescribes := describes_toValue hx
    exact ⟨isText_text c, hdescribes, (parse_eq_ok_iff (isText_text c)).mpr hdescribes⟩

/-- A configuration with all its keys is read back, and a key must not occur twice. -/
theorem parse_iff_describes_rv32 :
    parse (⟨some 32, some .rv32gc, [.rv64i, .rv64m]⟩ : Config).text
        = .ok ⟨some 32, some .rv32gc, [.rv64i, .rv64m]⟩ ∧
      IsText (.object [("xlen", .null), ("xlen", .null)])
        "\x7b\"xlen\":null,\"xlen\":null\x7d".toList ∧
      parse "\x7b\"xlen\":null,\"xlen\":null\x7d" ≠ .ok ⟨none, none, []⟩ := by
  have htext : IsText (.object [("xlen", .null), ("xlen", .null)])
      "\x7b\"xlen\":null,\"xlen\":null\x7d".toList :=
    Json.isText_text (.object fun e he => by
      simp only [List.mem_cons, List.not_mem_nil, or_false, or_self] at he
      rw [he]
      exact .null)
  refine ⟨?_, htext, ?_⟩
  · have hx : ∀ n, some 32 = some n → n ≤ 0xffffffff := by
      rintro n ⟨⟩
      decide
    exact (parse_iff_describes.2.2.2 _ hx).2.2
  · intro h
    cases (parse_iff_describes.2.1 _ _ htext _).mp h with
    | object hdistinct => simp at hdistinct

end RiscV.Config
