import RiscV.Command.Run
import RiscV.Proofs.Config.Reading
import RiscV.Proofs.Text.Numeral

/-!
# Selecting a set by options or by a file

The set to disassemble for is chosen by options on the command line, or by a configuration
in a file.  The two ways lead to the same set, and hence to the same lines.

Options in front of other arguments are read first.  Arguments that make no choice of their
own are then read alike under all choices, so that two choices can be compared without
looking at the arguments behind them.

## Main definitions

* `optionArguments` — options with their values, as arguments.
* `Selection.choose` — the choices of one selection with the address of another.
* `Neutral` — the arguments make no choice.
* `setOptions` — the options for a preset, a register width and modules.

## Main results

* `Action.parse_optionArguments` — **options in front are read first.**
* `Action.complete_choose` — **arguments that make no choice are read alike** under all
  choices.
* `run_setOptions_eq_run_config` — **options and a configuration that say the same select
  the same set.**
-/

namespace RiscV.Command

open Json

/-! ### Options in front of other arguments -/

/-- Options with their values as arguments. -/
def optionArguments (options : List (Flag × String)) : List String :=
  options.flatMap fun (flag, value) => ["--" ++ flag.name, value]

/-- An option with its value. -/
def Occurrence.ofPair (o : Flag × String) : Occurrence := .option o.1 (some o.2)

/-- Read the values of gathered arguments. -/
def Action.complete (action : Action) (d : Draft) (gathered : List Occurrence × Ending) :
    Except UsageError Request := do
  let d ← gathered.1.foldlM (Draft.add action) d
  match gathered.2 with
  | .complete => d.finish action
  | .misplaced => .error .misuse
  | .help => .ok .help

theorem Action.parse_eq_complete (action : Action) (texts : List String) :
    action.parse texts = action.complete {} (gather action.room false .none texts) := rfl

theorem classify_flag (flag : Flag) :
    classify ("--" ++ flag.name) = .long flag.name.toList none := by
  cases flag <;> decide

theorem ofName?_name (flag : Flag) : Flag.ofName? flag.name.toList = some flag := by
  cases flag <;> decide

theorem gather_option {room : Option Nat} {pending : Pending} {flag : Flag} {value : String}
    {texts : List String} (hvalue : classify value = .operand) :
    gather room false pending (("--" ++ flag.name) :: value :: texts)
      = (pending.close ++ (gather room false (.supplied flag value) texts).1,
          (gather room false (.supplied flag value) texts).2) := by
  simp [gather, classify_flag, ofName?_name, hvalue]

/-- What is pending does not matter for what follows, unless an argument cannot be placed:
then it is dropped. -/
theorem gather_supplied (room : Option Nat) (ended : Bool) (texts : List String) :
    (gather room ended .none texts = ([], .misplaced) ∧
      ∀ flag value, gather room ended (.supplied flag value) texts = ([], .misplaced)) ∨
    ∀ flag value, gather room ended (.supplied flag value) texts
      = (.option flag (some value) :: (gather room ended .none texts).1,
          (gather room ended .none texts).2) := by
  induction texts generalizing ended with
  | nil => exact .inr fun _ _ => rfl
  | cons text texts ih =>
    simp only [gather]
    cases (if ended then .operand else classify text : Argument) with
    | separator => exact ih true
    | long name value =>
      dsimp only
      cases Flag.ofName? name with
      | some flag => cases value <;> exact .inr fun _ _ => rfl
      | none =>
        cases value with
        | some value => exact .inl ⟨rfl, fun _ _ => rfl⟩
        | none =>
          by_cases hhelp : name = "help".toList
          · simp only [if_pos hhelp]
            exact .inr fun _ _ => rfl
          · exact .inl ⟨if_neg hhelp, fun _ _ => if_neg hhelp⟩
    | short letter =>
      dsimp only
      by_cases hhelp : letter = 'h'
      · simp only [if_pos hhelp]
        exact .inr fun _ _ => rfl
      · exact .inl ⟨if_neg hhelp, fun _ _ => if_neg hhelp⟩
    | operand =>
      cases room with
      | none => cases ended <;> exact .inr fun _ _ => rfl
      | some n =>
        cases n with
        | zero => cases ended <;> exact .inl ⟨rfl, fun _ _ => rfl⟩
        | succ n => cases ended <;> exact .inr fun _ _ => rfl

/-- Options in front of other arguments are gathered one after the other. -/
theorem gather_optionArguments {room : Option Nat} {pending : Pending} {flag : Flag}
    {value : String} {options : List (Flag × String)}
    (hvalues : ∀ o ∈ options ++ [(flag, value)], classify o.2 = .operand) (texts : List String) :
    gather room false pending (optionArguments (options ++ [(flag, value)]) ++ texts)
      = (pending.close ++ options.map .ofPair ++ (gather room false (.supplied flag value) texts).1,
          (gather room false (.supplied flag value) texts).2) := by
  induction options generalizing pending with
  | nil =>
    have hvalue : classify value = .operand := hvalues _ List.mem_cons_self
    simpa [optionArguments] using gather_option hvalue
  | cons o options ih =>
    obtain ⟨flag', value'⟩ := o
    obtain ⟨hvalue', hvalues⟩ := List.forall_mem_cons.mp hvalues
    have hfirst : optionArguments ((flag', value') :: options ++ [(flag, value)]) ++ texts
        = ("--" ++ flag'.name) :: value' ::
          (optionArguments (options ++ [(flag, value)]) ++ texts) := rfl
    rw [hfirst, gather_option hvalue', ih hvalues]
    simp [Pending.close, Occurrence.ofPair]

/-- The occurrences that come first are read first. -/
theorem Action.complete_append {action : Action} {d d' : Draft} {occurrences : List Occurrence}
    (h : occurrences.foldlM (Draft.add action) d = .ok d') (more : List Occurrence)
    (ending : Ending) :
    action.complete d (occurrences ++ more, ending) = action.complete d' (more, ending) := by
  rw [complete, List.foldlM_append, h]
  rfl

/-- **Options in front of other arguments are read first**, and the other arguments start
from what they set. -/
theorem Action.parse_optionArguments {action : Action} {options : List (Flag × String)} {d : Draft}
    (hne : options ≠ []) (hvalues : ∀ o ∈ options, classify o.2 = .operand)
    (hread : (options.map .ofPair).foldlM (Draft.add action) {} = .ok d) (texts : List String) :
    action.parse (optionArguments options ++ texts)
      = action.complete d (gather action.room false .none texts) := by
  obtain ⟨options, ⟨flag, value⟩, rfl⟩ := options.eq_nil_or_concat'.resolve_left hne
  rw [parse_eq_complete, gather_optionArguments hvalues]
  rcases gather_supplied action.room false texts with ⟨hnone, hdropped⟩ | hkept
  · -- the last option is dropped, but so is all that was read
    have hinit := hread
    rw [List.map_append, List.foldlM_append] at hinit
    obtain ⟨d₁, hd₁, -⟩ := Except.bind_eq_ok.mp hinit
    rw [hdropped, hnone]
    exact complete_append hd₁ [] .misplaced
  · rw [hkept]
    have hall := complete_append hread (gather action.room false .none texts).1
      (gather action.room false .none texts).2
    simpa [Pending.close, Occurrence.ofPair] using hall

/-! ### Choices -/

/-- The choices of one selection, with the address of another. -/
def Selection.choose (choice s : Selection) : Selection := { choice with address := s.address }

@[inherit_doc Selection.choose]
def Draft.choose (choice : Selection) (d : Draft) : Draft :=
  { d with selection := choice.choose d.selection }

@[inherit_doc Selection.choose]
def Request.choose (choice : Selection) : Request → Request
  | .words s ws => .words (choice.choose s) ws
  | .file s path => .file (choice.choose s) path
  | .help => .help
  | .version => .version

/-- The occurrence makes no choice: it gives an address, or is no option. -/
def Occurrence.Neutral : Occurrence → Prop
  | .option flag _ => flag = .address
  | .operands _ => True

instance : DecidablePred Occurrence.Neutral
  | .option flag _ => inferInstanceAs (Decidable (flag = .address))
  | .operands _ => inferInstanceAs (Decidable True)

/-- What makes no choice is read alike under all choices. -/
theorem Draft.add_choose {action : Action} {o : Occurrence} (h : o.Neutral) (choice : Selection)
    (d : Draft) : (d.choose choice).add action o = (d.add action o).map (choose choice) := by
  cases o with
  | option flag value =>
    obtain rfl : flag = .address := h
    cases value with
    | none => rfl
    | some value =>
      simp only [add, Selection.record]
      by_cases haddress : d.selection.address.isSome = true
      · have haddress' : (d.choose choice).selection.address.isSome = true := haddress
        rw [if_pos haddress, if_pos haddress']
        rfl
      · have haddress' : ¬(d.choose choice).selection.address.isSome = true := haddress
        rw [if_neg haddress, if_neg haddress']
        cases orReject value Flag.address.label ((readAddress value).mapError (·.message value)) <;>
          rfl
  | operands values =>
    cases action with
    | words =>
      simp only [add]
      cases readWords values <;> rfl
    | file =>
      simp only [add]
      split
      · split <;> rfl
      · rfl

theorem Draft.foldlM_choose {action : Action} {occurrences : List Occurrence}
    (h : ∀ o ∈ occurrences, o.Neutral) (choice : Selection) (d : Draft) :
    occurrences.foldlM (Draft.add action) (d.choose choice)
      = (occurrences.foldlM (Draft.add action) d).map (choose choice) := by
  induction occurrences generalizing d with
  | nil => rfl
  | cons o occurrences ih =>
    obtain ⟨ho, hoccurrences⟩ := List.forall_mem_cons.mp h
    rw [List.foldlM_cons, List.foldlM_cons, add_choose ho]
    cases d.add action o with
    | error e => rfl
    | ok d' => exact ih hoccurrences d'

theorem Draft.finish_choose {action : Action} {choice : Selection} {d : Draft}
    (hchoice : choice.conflicts = false) (hd : d.selection.conflicts = false) :
    (d.choose choice).finish action = (d.finish action).map (Request.choose choice) := by
  have hconflicts : (d.choose choice).selection.conflicts = false := hchoice
  simp only [finish, hconflicts, hd]
  obtain ⟨selection, words, path⟩ := d
  cases action with
  | words => cases words <;> rfl
  | file => cases path <;> rfl

/-- **Arguments that make no choice are read alike under all choices.** -/
theorem Action.complete_choose {action : Action} {choice : Selection}
    (hchoice : choice.conflicts = false) {gathered : List Occurrence × Ending}
    (h : ∀ o ∈ gathered.1, o.Neutral) :
    action.complete (({} : Draft).choose choice) gathered
      = (action.complete {} gathered).map (Request.choose choice) := by
  unfold complete
  rw [Draft.foldlM_choose h]
  cases hd : gathered.1.foldlM (Draft.add action) {} with
  | error e => rfl
  | ok d =>
    -- without a choice in front, there is none behind
    have hnone : gathered.1.foldlM (Draft.add action) {}
        = Except.map (Draft.choose {}) (.ok d) := by
      rw [← hd]
      exact Draft.foldlM_choose h {} {}
    have hempty : d = d.choose {} := Except.ok.inj (hd.symm.trans hnone)
    have hconflicts : d.selection.conflicts = false := by
      rw [hempty]
      rfl
    cases gathered.2 with
    | complete => exact Draft.finish_choose hchoice hconflicts
    | misplaced => rfl
    | help => rfl

/-- The name of an action. -/
def Action.name : Action → String
  | words => "words"
  | file => "file"

theorem parse_action (action : Action) (texts : List String) :
    Request.parse (action.name :: texts) = action.parse texts := by
  cases action <;> rfl

/-- The arguments make no choice. -/
def Neutral (action : Action) (texts : List String) : Prop :=
  ∀ o ∈ (gather action.room false .none texts).1, o.Neutral

instance (action : Action) (texts : List String) : Decidable (Neutral action texts) :=
  inferInstanceAs (Decidable (∀ o ∈ (gather action.room false .none texts).1, o.Neutral))

/-- **Options that make a choice, in front of arguments that make none**, change the choice
and nothing else. -/
theorem parse_choose {action : Action} {options : List (Flag × String)} {choice : Selection}
    (hne : options ≠ []) (hvalues : ∀ o ∈ options, classify o.2 = .operand)
    (hread : (options.map .ofPair).foldlM (Draft.add action) {} = .ok (({} : Draft).choose choice))
    (hchoice : choice.conflicts = false) {texts : List String} (htexts : Neutral action texts) :
    Request.parse (action.name :: (optionArguments options ++ texts))
      = (Request.parse (action.name :: texts)).map (Request.choose choice) := by
  rw [parse_action, parse_action, Action.parse_optionArguments hne hvalues hread,
    Action.complete_choose hchoice htexts]
  rfl

/-! ### The options of a choice -/

theorem readPreset_name (p : Preset) : readPreset p.name = .ok p := by
  cases p <;> decide

theorem readModule_name (m : Builtin) : readModule m.name = .ok m := by
  cases m <;> decide

/-- A numeral starts with a digit. -/
theorem exists_natural (n : Nat) :
    ∃ c cs, (Text.natural n).toList = c :: cs ∧ c ≠ '-' ∧ c ≠ '+' := by
  rw [Text.toList_natural]
  obtain ⟨c, cs, hcs⟩ := List.exists_cons_of_ne_nil (Nat.toDigits_ne_nil (n := n) (b := 10))
  have hc : c.isDigit = true := by
    refine Nat.isDigit_of_mem_toDigits (b := 10) (n := n) (by decide) (by decide) ?_
    rw [hcs]
    exact List.mem_cons_self
  refine ⟨c, cs, hcs, ?_, ?_⟩
  · rintro rfl
    contradiction
  · rintro rfl
    contradiction

theorem classify_natural (n : Nat) : classify (Text.natural n) = .operand := by
  obtain ⟨c, cs, hcs, hminus, -⟩ := exists_natural n
  unfold classify
  split
  · next heq => exact absurd (List.cons.inj (hcs.symm.trans heq)).1 hminus
  · next heq => exact absurd (List.cons.inj (hcs.symm.trans heq)).1 hminus
  · next heq => exact absurd (List.cons.inj (hcs.symm.trans heq)).1 hminus
  · rfl

theorem readXlen_natural {n : Nat} (hn : n ≤ 0xffffffff) : readXlen (Text.natural n) = .ok n := by
  have hmagnitude : Text.readMagnitude 10 0x7fffffffffffffff .tooLarge (Text.natural n).toList
      = .ok n := by
    rw [Text.readMagnitude_eq_ok_iff (by decide), Text.toList_natural]
    refine ⟨Nat.toDigits_ne_nil, ?_, Text.denoted_toDigits (by decide) (by decide) n, by omega⟩
    intro c hc
    exact Text.digitValue_lt_ten_iff.mpr (Nat.isDigit_of_mem_toDigits (by decide) (by decide) hc)
  have hinteger : Text.readInteger (Text.natural n).toList = .ok n := by
    obtain ⟨c, cs, hcs, hminus, hplus⟩ := exists_natural n
    rw [hcs] at hmagnitude ⊢
    unfold Text.readInteger
    split
    · contradiction
    · next heq => exact absurd (List.cons.inj heq).1 hminus
    · next heq => exact absurd (List.cons.inj heq).1 hplus
    · rw [hmagnitude]
      rfl
  rw [readXlen, hinteger]
  simp only
  rw [if_pos (by omega)]
  rfl

/-- The options for a preset, a register width if there is one, and modules. -/
def setOptions (p : Preset) (x : Option Nat) (ms : List Builtin) : List (Flag × String) :=
  (.isa, p.name) :: ((x.toList.map fun n => (.xlen, Text.natural n)) ++
    ms.map fun m => (.module, m.name))

theorem classify_setOptions (p : Preset) (x : Option Nat) (ms : List Builtin) :
    ∀ o ∈ setOptions p x ms, classify o.2 = .operand := by
  intro o ho
  rcases List.mem_cons.mp ho with rfl | ho
  · cases p <;> decide
  · rcases List.mem_append.mp ho with ho | ho
    · obtain ⟨n, -, rfl⟩ := List.mem_map.mp ho
      exact classify_natural n
    · obtain ⟨m, -, rfl⟩ := List.mem_map.mp ho
      cases m <;> decide

theorem foldlM_modules (action : Action) (ms : List Builtin) (d : Draft) :
    ((ms.map fun m => (Flag.module, m.name)).map .ofPair).foldlM (Draft.add action) d
      = .ok { d with selection := { d.selection with modules := d.selection.modules ++ ms } } := by
  induction ms generalizing d with
  | nil => simp [pure, Except.pure]
  | cons m ms ih =>
    have hadd : d.add action (.ofPair (.module, m.name)) = .ok { d with
        selection := { d.selection with modules := d.selection.modules ++ [m] } } := by
      simp only [Occurrence.ofPair, Draft.add, Selection.record, readModule_name]
      rfl
    rw [List.map_cons, List.map_cons, List.foldlM_cons, hadd]
    refine (ih _).trans ?_
    simp

theorem foldlM_setOptions (action : Action) (p : Preset) {x : Option Nat}
    (hx : ∀ n, x = some n → n ≤ 0xffffffff) (ms : List Builtin) :
    ((setOptions p x ms).map .ofPair).foldlM (Draft.add action) {}
      = .ok (({} : Draft).choose { isa := some p, xlen := x, modules := ms }) := by
  have hisa : ({} : Draft).add action (.ofPair (.isa, p.name))
      = .ok { selection := { isa := some p } } := by
    simp only [Occurrence.ofPair, Draft.add, Selection.record, readPreset_name]
    rfl
  rw [setOptions, List.map_cons, List.foldlM_cons, hisa, List.map_append]
  show List.foldlM _ _ _ = _
  rw [List.foldlM_append]
  cases x with
  | none => exact foldlM_modules action ms _
  | some n =>
    have hxlen : ({ selection := { isa := some p } } : Draft).add action
        (.ofPair (.xlen, Text.natural n))
          = .ok { selection := { isa := some p, xlen := some n } } := by
      simp only [Occurrence.ofPair, Draft.add, Selection.record, readXlen_natural (hx n rfl)]
      rfl
    rw [Option.toList_some, List.map_cons, List.map_cons, List.foldlM_cons, hxlen]
    exact foldlM_modules action ms _

theorem foldlM_config (action : Action) {path : String} (hpath : path ≠ "") :
    ([(Flag.config, path)].map .ofPair).foldlM (Draft.add action) {}
      = .ok (({} : Draft).choose { config := some path }) := by
  have hadd : ({} : Draft).add action (.ofPair (.config, path))
      = .ok { selection := { config := some path } } := by
    simp only [Occurrence.ofPair, Draft.add, Selection.record]
    rw [if_neg (by simpa using hpath)]
    rfl
  rw [List.map_singleton, List.foldlM_cons, hadd]
  rfl

/-- Options for a set choose it. -/
theorem parse_setOptions {action : Action} {texts : List String} (htexts : Neutral action texts)
    (p : Preset) {x : Option Nat} (hx : ∀ n, x = some n → n ≤ 0xffffffff) (ms : List Builtin) :
    Request.parse (action.name :: (optionArguments (setOptions p x ms) ++ texts))
      = (Request.parse (action.name :: texts)).map
          (Request.choose { isa := some p, xlen := x, modules := ms }) :=
  parse_choose (List.cons_ne_nil _ _) (classify_setOptions p x ms)
    (foldlM_setOptions action p hx ms) rfl htexts

/-- The path of a configuration chooses its set. -/
theorem parse_config {action : Action} {texts : List String} (htexts : Neutral action texts)
    {path : String} (hpath : path ≠ "") (hoperand : classify path = .operand) :
    Request.parse (action.name :: (optionArguments [(.config, path)] ++ texts))
      = (Request.parse (action.name :: texts)).map (Request.choose { config := some path }) :=
  parse_choose (List.cons_ne_nil _ _) (by simpa using hoperand) (foldlM_config action hpath) rfl
    htexts

/-! ### The set of a choice -/

/-- The bytes of a text are read as this text. -/
theorem fromUTF8?_bytes (text : String) :
    String.fromUTF8? ⟨text.toUTF8.data.toList.toArray⟩ = some text := by
  rw [Array.toArray_toList]
  exact dif_pos text.isValidUTF8

/-- What a file with a text is read as. -/
theorem readConfig_of_text {files : Files} {path text : String}
    (hfile : files path = .ok text.toUTF8.data.toList) :
    readConfig files path = (Config.parse text).mapError .notConfig := by
  simp only [readConfig, hfile, fromUTF8?_bytes]

theorem readConfig_of_describes {files : Files} {path text : String} {v : Value} {c : Config}
    (hfile : files path = .ok text.toUTF8.data.toList) (htext : IsText v text.toList)
    (hdescribes : Config.Describes v c) : readConfig files path = .ok c := by
  rw [readConfig_of_text hfile, (Config.parse_eq_ok_iff htext).mpr hdescribes]
  rfl

/-- Choices with the same set print the same. -/
theorem run_choose {files : Files} {choice choice' : Selection}
    (h : choice.toSet files = choice'.toSet files) (request : Request) :
    (request.choose choice).run files = (request.choose choice').run files := by
  have hset (s : Selection) : (choice.choose s).toSet files = (choice'.choose s).toSet files := h
  cases request with
  | words s ws =>
    simp only [Request.choose, Request.run, listWords, hset]
    rfl
  | file s path =>
    simp only [Request.choose, Request.run, listFile, hset]
    rfl
  | help => rfl
  | version => rfl

/-- **Options and a configuration that say the same select the same set.**

For a preset, a register width if there is one, and modules, let a file hold a text of a value
that describes this configuration.  Then the options and the file lead to the same set, or
fail with the same error.  The options, and the option with the path of the file, can stand in
front of all arguments that make no choice of their own; the arguments are read as they would
be read alone, with the one choice or the other, and the two commands print the same lines and
end in the same way. -/
theorem run_setOptions_eq_run_config {p : Preset} {x : Option Nat} {ms : List Builtin}
    (files : Files) (path : String) {text : String} {v : Value}
    (hfile : files path = .ok text.toUTF8.data.toList) (htext : IsText v text.toList)
    (hdescribes : Config.Describes v ⟨x, some p, ms⟩) :
    ({ isa := some p, xlen := x, modules := ms } : Selection).toSet files
        = buildSet ⟨x, some p, ms⟩ ∧
      ({ config := some path } : Selection).toSet files = buildSet ⟨x, some p, ms⟩ ∧
      (path ≠ "" → classify path = .operand →
        ∀ (action : Action) (texts : List String), Neutral action texts →
          Request.parse (action.name :: (optionArguments (setOptions p x ms) ++ texts))
              = (Request.parse (action.name :: texts)).map
                  (Request.choose { isa := some p, xlen := x, modules := ms }) ∧
            Request.parse (action.name :: (optionArguments [(.config, path)] ++ texts))
              = (Request.parse (action.name :: texts)).map
                  (Request.choose { config := some path }) ∧
            run (action.name :: (optionArguments (setOptions p x ms) ++ texts)) files
              = run (action.name :: (optionArguments [(.config, path)] ++ texts)) files) := by
  have hconfig : ({ config := some path } : Selection).toSet files = buildSet ⟨x, some p, ms⟩ := by
    simp only [Selection.toSet, Selection.toConfig, readConfig_of_describes hfile htext hdescribes]
  refine ⟨rfl, hconfig, ?_⟩
  intro hpath hoperand action texts htexts
  have hoptions := parse_setOptions htexts p hdescribes.xlen_le ms
  have hpath := parse_config htexts hpath hoperand
  refine ⟨hoptions, hpath, ?_⟩
  rw [run, run, hoptions, hpath]
  cases Request.parse (action.name :: texts) with
  | error e => rfl
  | ok request =>
    have hset : ({ isa := some p, xlen := x, modules := ms } : Selection).toSet files
        = ({ config := some path } : Selection).toSet files := hconfig.symm
    exact run_choose hset request

/-- A word is listed for a set that is chosen by three options, and by a file. -/
theorem run_setOptions_eq_run_config_rv32 :
    Request.parse ["words", "--isa", "rv32gc", "--xlen", "32", "--module", "rv64i", "--address",
        "0x1000", "00000013"]
      = .ok (.words ⟨some .rv32gc, some 32, [.rv64i], none, some 0x1000#64⟩ [0x13#32]) ∧
    run ["words", "--isa", "rv32gc", "--xlen", "32", "--module", "rv64i", "--address", "0x1000",
        "00000013"]
        (fun _ => .ok (⟨some 32, some .rv32gc, [.rv64i]⟩ : Config).text.toUTF8.data.toList)
      = run ["words", "--config", "set.json", "--address", "0x1000", "00000013"]
        (fun _ => .ok (⟨some 32, some .rv32gc, [.rv64i]⟩ : Config).text.toUTF8.data.toList) := by
  have hx : ∀ n, some 32 = some n → n ≤ 0xffffffff := by
    rintro n ⟨⟩
    decide
  obtain ⟨-, -, hsame⟩ := run_setOptions_eq_run_config
    (fun _ => .ok (⟨some 32, some .rv32gc, [.rv64i]⟩ : Config).text.toUTF8.data.toList) "set.json"
    rfl (Config.isText_text ⟨some 32, some .rv32gc, [.rv64i]⟩) (Config.describes_toValue hx)
  obtain ⟨hparse, -, hrun⟩ := hsame (by decide) (by decide) .words
    ["--address", "0x1000", "00000013"] (by decide)
  exact ⟨hparse, hrun⟩

end RiscV.Command
