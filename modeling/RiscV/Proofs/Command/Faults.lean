import RiscV.Proofs.Builtin.Wording
import RiscV.Proofs.Command.Selection
import RiscV.Proofs.Image.Words

/-!
# What a run reports

A run reads a configuration, if options name one, builds the set, reads the image, if it
has one, and only then lists.  Several things may be wrong at once: each is said here by
itself, without regard to the others, and belongs to one of five stages.  A run reports
what is wrong at the first of these stages and prints nothing; if nothing is wrong, it
prints one line for each instruction.

## Main definitions

* `Stage` — where something can be wrong, in order.
* `Selection.Asks` — the configuration that options ask for.
* `Selection.Fault`, `Request.Fault` — what is wrong with a request, at any stage.
* `Request.FirstFault` — what is wrong at the first stage where anything is.
* `Request.Listed` — a run has listed the instructions of a request.

## Main results

* `Selection.result_toSet_of_fault`, `Selection.exists_set` — whether there is a set, and
  what is reported if there is none.
* `run_listed_or_fails` — **a run lists all instructions, or prints nothing and reports what
  is wrong first.**
-/

namespace RiscV

/-! ### Lines -/

theorem Line.newline_notMem_text {l : Line} (h : '\n' ∉ l.assembly.toList) :
    '\n' ∉ l.text.toList := by
  have hdigits : ∀ count n, '\n' ∉ (Text.hexPadded count n).toList := by
    intro count n hmem
    exact absurd (Text.mem_hexDigits_of_mem_hexPadded hmem) (by decide)
  unfold Line.text
  split <;> simp [hdigits, h]

namespace InstructionSet

variable (s : InstructionSet)

@[simp] theorem length_listing (base : Address) (ps : List Parcel) :
    (s.listing base ps).length = ps.length := by
  induction ps generalizing base with
  | nil => rfl
  | cons p ps ih => rw [listing, List.length_cons, List.length_cons, ih]

theorem mem_listing {base : Address} {ps : List Parcel} {l : Line}
    (h : l ∈ s.listing base ps) : ∃ address, ∃ p ∈ ps, l = s.lineOf address p := by
  induction ps generalizing base with
  | nil => contradiction
  | cons p ps ih =>
    rcases List.mem_cons.mp h with rfl | h
    · exact ⟨base, p, List.mem_cons_self, rfl⟩
    · obtain ⟨address, q, hq, hl⟩ := ih h
      exact ⟨address, q, List.mem_cons_of_mem p hq, hl⟩

variable {s}

/-- The lines of a set of built-in instructions are single lines. -/
theorem newline_notMem_listing {xlen : Xlen} {ms : List Builtin}
    (hs : build xlen (ms.map Builtin.table) = .ok s) {base : Address} {ps : List Parcel}
    {l : Line} (hl : l ∈ s.listing base ps) : '\n' ∉ l.text.toList := by
  apply Line.newline_notMem_text
  obtain ⟨address, p, -, rfl⟩ := s.mem_listing hl
  cases p with
  | whole w =>
    obtain ⟨mnemonic, operands, hparts⟩ := exists_parts_disassemble hs address w
    exact hparts.notMem (by decide) (by decide) (by decide)
  | torn half =>
    show '\n' ∉ Assembly.illegal.text.toList
    decide

end InstructionSet

namespace Command

/-! ### What can be wrong -/

/-- Where something can be wrong, in the order in which it is looked for. -/
inductive Stage
  /-- Reading the file with the configuration. -/
  | reading
  /-- Taking its text for a configuration. -/
  | acceptance
  /-- The register width. -/
  | width
  /-- Putting the modules together. -/
  | composition
  /-- Reading the file with the image. -/
  | image
  deriving DecidableEq, Repr

/-- The place in the order. -/
def Stage.rank : Stage → Nat
  | reading => 0
  | acceptance => 1
  | width => 2
  | composition => 3
  | image => 4

/-- The configuration that options ask for. -/
inductive Selection.Asks (files : Files) (s : Selection) : Config → Prop
  /-- A file is named, and its text is read as a configuration. -/
  | ofFile {path text : String} {c : Config} (hpath : s.config = some path)
    (hfile : files path = .ok text.toUTF8.data.toList) (hparse : Config.parse text = .ok c) :
    Asks files s c
  /-- No file is named: it is the preset with the other options. -/
  | ofOptions (hpath : s.config = none) :
    Asks files s ⟨s.xlen, some (s.isa.getD .standard), s.modules⟩

/-- What is wrong with options, at each stage by itself. -/
inductive Selection.Fault (files : Files) (s : Selection) : Stage → RunError → Prop
  /-- The file with the configuration cannot be read. -/
  | unreadable {path : String} {failure : ReadFailure} (hpath : s.config = some path)
    (hfile : files path = .error failure) :
    Fault files s .reading (.unreadable path failure)
  /-- It holds the bytes of no text. -/
  | notText {path : String} {bytes : List UInt8} (hpath : s.config = some path)
    (hfile : files path = .ok bytes) (htext : ∀ text : String, bytes ≠ text.toUTF8.data.toList) :
    Fault files s .reading (.notText path)
  /-- Its text is no configuration. -/
  | notConfig {path text : String} {error : ReadError} (hpath : s.config = some path)
    (hfile : files path = .ok text.toUTF8.data.toList)
    (hparse : Config.parse text = .error error) :
    Fault files s .acceptance (.notConfig error)
  /-- The register width is none of the known ones. -/
  | badXlen {c : Config} {n : Nat} (hasks : s.Asks files c) (hbad : c.BadXlen n) :
    Fault files s .width (.unbuildable (.invalidXlen n))
  /-- The modules do not fit together, whatever the register width. -/
  | unfit {c : Config} {error : DefinitionError} (hasks : s.Asks files c)
    (hbuild : ∀ xlen, InstructionSet.build xlen (c.moduleList.map Builtin.table) = .error error) :
    Fault files s .composition (.unbuildable (.definition error))

/-- The options of a request that lists instructions. -/
def Request.selection? : Request → Option Selection
  | words s _ => some s
  | file s _ => some s
  | help => none
  | version => none

/-- What is wrong with a request, at each stage by itself. -/
inductive Request.Fault (files : Files) : Request → Stage → RunError → Prop
  /-- Something is wrong with its options. -/
  | selection {request : Request} {s : Selection} {stage : Stage} {e : RunError}
    (hs : request.selection? = some s) (h : s.Fault files stage e) : Fault files request stage e
  /-- The file with the image cannot be read. -/
  | image {s : Selection} {path : String} {failure : ReadFailure}
    (hfile : files path = .error failure) :
    Fault files (.file s path) .image (.unreadable path failure)

/-- What is wrong at the first stage where anything is. -/
def Request.FirstFault (files : Files) (request : Request) (e : RunError) : Prop :=
  ∃ stage, request.Fault files stage e ∧
    ∀ earlier e', earlier.rank < stage.rank → ¬request.Fault files earlier e'

/-- If anything is wrong, something is wrong first. -/
theorem Request.exists_firstFault {files : Files} {request : Request} {stage : Stage}
    {e : RunError} (h : request.Fault files stage e) : ∃ e', request.FirstFault files e' := by
  -- go back to earlier stages as long as there is a fault
  induction hrank : stage.rank using Nat.strongRecOn generalizing stage e with
  | _ n ih =>
    by_cases hfirst : ∀ earlier e', earlier.rank < stage.rank → ¬request.Fault files earlier e'
    · exact ⟨e, stage, h, hfirst⟩
    · push Not at hfirst
      obtain ⟨earlier, e', hlt, hfault⟩ := hfirst
      exact ih earlier.rank (hrank ▸ hlt) hfault rfl

theorem Selection.Fault.rank_lt {files : Files} {s : Selection} {stage : Stage} {e : RunError}
    (h : s.Fault files stage e) : stage.rank < Stage.image.rank := by
  cases h <;> decide

/-! ### The set that options ask for -/

/-- Bytes are read as the text whose bytes they are. -/
theorem fromUTF8?_eq_some_iff {bytes : List UInt8} {text : String} :
    String.fromUTF8? ⟨bytes.toArray⟩ = some text ↔ bytes = text.toUTF8.data.toList := by
  constructor
  · intro h
    unfold String.fromUTF8? at h
    split at h
    · cases h
      rfl
    · contradiction
  · rintro rfl
    exact fromUTF8?_bytes text

namespace Selection

variable {files : Files} {s : Selection}

theorem toConfig_of_asks {c : Config} (h : s.Asks files c) : s.toConfig files = .ok c := by
  cases h with
  | ofFile hpath hfile hparse =>
    simp only [toConfig, hpath, readConfig_of_text hfile, hparse]
    rfl
  | ofOptions hpath => simp only [toConfig, hpath]

/-- What is wrong at one of the first two stages is why there is no configuration. -/
theorem toConfig_of_fault {stage : Stage} {e : RunError} (h : s.Fault files stage e)
    (hstage : stage.rank < Stage.width.rank) : s.toConfig files = .error e := by
  cases h with
  | unreadable hpath hfile => simp only [toConfig, hpath, readConfig, hfile]
  | notText hpath hfile htext =>
    have hnone : String.fromUTF8? ⟨_⟩ = none :=
      Option.eq_none_iff_forall_ne_some.mpr fun text h => htext text (fromUTF8?_eq_some_iff.mp h)
    simp only [toConfig, hpath, readConfig, hfile, hnone]
  | notConfig hpath hfile hparse =>
    simp only [toConfig, hpath, readConfig_of_text hfile, hparse]
    rfl
  | badXlen => exact absurd hstage (by decide)
  | unfit => exact absurd hstage (by decide)

/-- Options ask for a configuration, or something is wrong at one of the first two stages. -/
theorem exists_asks_or_fault (files : Files) (s : Selection) :
    (∃ c, s.Asks files c) ∨
      ∃ stage e, stage.rank < Stage.width.rank ∧ s.Fault files stage e := by
  cases hpath : s.config with
  | none => exact Or.inl ⟨_, .ofOptions hpath⟩
  | some path =>
    cases hfile : files path with
    | error failure => exact Or.inr ⟨.reading, _, by decide, .unreadable hpath hfile⟩
    | ok bytes =>
      by_cases htext : ∃ text : String, bytes = text.toUTF8.data.toList
      · obtain ⟨text, rfl⟩ := htext
        cases hparse : Config.parse text with
        | ok c => exact Or.inl ⟨c, .ofFile hpath hfile hparse⟩
        | error error => exact Or.inr ⟨.acceptance, _, by decide, .notConfig hpath hfile hparse⟩
      · push Not at htext
        exact Or.inr ⟨.reading, _, by decide, .notText hpath hfile htext⟩

/-- **What is wrong with options first is why there is no set.** -/
theorem result_toSet_of_fault {stage : Stage} {e : RunError} (h : s.Fault files stage e)
    (hfirst : ∀ earlier e', earlier.rank < stage.rank → ¬s.Fault files earlier e') :
    (s.toSet files).result = .error e := by
  rw [result_toSet]
  rcases Nat.lt_or_ge stage.rank Stage.width.rank with hearly | hlate
  · rw [toConfig_of_fault h hearly]
    rfl
  · cases h with
    | badXlen hasks hbad =>
      rw [toConfig_of_asks hasks]
      simp only [Except.bind, Config.build_of_bad hbad]
      rfl
    | @unfit c error hasks hbuild =>
      -- the register width is looked at before
      have hxlen : ¬∃ n, c.BadXlen n := by
        rintro ⟨n, hbad⟩
        exact hfirst .width _ (by decide) (.badXlen hasks hbad)
      obtain ⟨xlen, hresolve, -⟩ := Config.resolveXlen_of_not_bad hxlen
      rw [toConfig_of_asks hasks]
      simp only [Except.bind, Config.build_of_resolveXlen hresolve, hbuild xlen]
      rfl
    | unreadable | notText | notConfig => exact absurd hlate (by decide)

/-- **Options with which nothing is wrong have a set.** -/
theorem exists_set (h : ∀ stage e, ¬s.Fault files stage e) :
    ∃ c xlen set, s.Asks files c ∧ c.build = .ok set ∧
      InstructionSet.build xlen (c.moduleList.map Builtin.table) = .ok set ∧
      (s.toSet files).result = .ok set := by
  obtain ⟨c, hasks⟩ : ∃ c, s.Asks files c := by
    rcases exists_asks_or_fault files s with hasks | ⟨stage, e, -, hfault⟩
    · exact hasks
    · exact absurd hfault (h stage e)
  have hxlen : ¬∃ n, c.BadXlen n := by
    rintro ⟨n, hbad⟩
    exact h .width _ (.badXlen hasks hbad)
  obtain ⟨xlen, hresolve, -⟩ := Config.resolveXlen_of_not_bad hxlen
  have hbuild := Config.build_of_resolveXlen hresolve
  cases hset : InstructionSet.build xlen (c.moduleList.map Builtin.table) with
  | error error =>
    refine absurd (.unfit hasks ?_) (h .composition (.unbuildable (.definition error)))
    intro xlen'
    rwa [InstructionSet.build_eq_error_iff] at hset ⊢
  | ok set =>
    rw [hset] at hbuild
    exact ⟨c, xlen, set, hasks, hbuild, hset,
      result_toSet_of_build (toConfig_of_asks hasks) hresolve hset⟩

end Selection

/-! ### Runs -/

/-- The instructions of a request. -/
inductive Request.Holds (files : Files) : Request → List Parcel → Prop
  /-- Each word is one. -/
  | words {s : Selection} {ws : List Word} : Holds files (.words s ws) (ws.map .whole)
  /-- The image is cut into them. -/
  | file {s : Selection} {path : String} {bytes : List UInt8} (hfile : files path = .ok bytes) :
    Holds files (.file s path) (parcels bytes)

/-- A run has failed: it has printed nothing, and reports an error. -/
structure Transcript.Fails (t : Transcript) (e : RunError) : Prop where
  /-- The exit code says so. -/
  exitCode_eq : t.exitCode = 1
  /-- Nothing is printed. -/
  output_eq : t.output = []
  /-- The error is reported. -/
  message_eq : t.message = some e.message

/-- A run has succeeded: it has printed a line for each instruction. -/
structure Transcript.Lists (t : Transcript) (set : InstructionSet) (start : Address)
    (ps : List Parcel) : Prop where
  /-- The exit code says so. -/
  exitCode_eq : t.exitCode = 0
  /-- No error is reported. -/
  message_eq : t.message = none
  /-- The lines are those of the instructions, from the first address on. -/
  output_eq : t.output = (set.listing start ps).map Line.text
  /-- There are as many as instructions. -/
  length_output : t.output.length = ps.length
  /-- None of them is broken. -/
  newline_notMem : ∀ text ∈ t.output, '\n' ∉ text.toList

namespace Request

variable {files : Files} {request : Request} {s : Selection}

/-- A request without a set fails for the reason that there is none. -/
theorem fails_of_result_toSet {e : RunError} (hs : request.selection? = some s)
    (h : (s.toSet files).result = .error e) : (request.run files).Fails e := by
  cases request with
  | words s' ws =>
    obtain rfl : s' = s := Option.some.inj hs
    simp only [run, listWords, h]
    exact ⟨rfl, rfl, rfl⟩
  | file s' path =>
    obtain rfl : s' = s := Option.some.inj hs
    simp only [run, listFile, h]
    exact ⟨rfl, rfl, rfl⟩
  | help => contradiction
  | version => contradiction

/-- **A request with which something is wrong fails for what is wrong first.** -/
theorem fails_of_firstFault {e : RunError} (hs : request.selection? = some s)
    (h : request.FirstFault files e) : (request.run files).Fails e := by
  obtain ⟨stage, hfault, hfirst⟩ := h
  have hoptions : ∀ earlier e', earlier.rank < stage.rank → ¬s.Fault files earlier e' := by
    intro earlier e' hlt h
    exact hfirst earlier e' hlt (.selection hs h)
  cases hfault with
  | selection hs' hfault =>
    obtain rfl := Option.some.inj (hs'.symm.trans hs)
    exact fails_of_result_toSet hs (Selection.result_toSet_of_fault hfault hoptions)
  | image hfile =>
    obtain rfl := Option.some.inj hs
    -- the image is the last thing looked at, so there is a set
    obtain ⟨-, -, set, -, -, -, hset⟩ :=
      Selection.exists_set fun stage e h => hoptions stage e h.rank_lt h
    simp only [run, listFile, hset, hfile]
    exact ⟨rfl, rfl, rfl⟩

/-- **A request with which nothing is wrong lists its instructions.** -/
theorem lists_of_not_fault (hs : request.selection? = some s)
    (h : ∀ stage e, ¬request.Fault files stage e) :
    ∃ c set ps, s.Asks files c ∧ c.build = .ok set ∧ request.Holds files ps ∧
      (request.run files).Lists set s.start ps := by
  obtain ⟨c, xlen, set, hasks, hc, hbuild, hset⟩ :=
    Selection.exists_set fun stage e hfault => h stage e (.selection hs hfault)
  have hlists : ∀ {r : Logged (List Line)} {ps : List Parcel},
      r.result = .ok (set.listing s.start ps) → r.transcript.Lists set s.start ps := by
    intro r ps hr
    obtain ⟨hcode, hmessage, houtput⟩ := transcript_of_result hr
    refine ⟨hcode, hmessage, houtput, by simp [houtput], ?_⟩
    intro text htext
    rw [houtput] at htext
    obtain ⟨l, hl, rfl⟩ := List.mem_map.mp htext
    exact InstructionSet.newline_notMem_listing hbuild hl
  cases request with
  | words s' ws =>
    obtain rfl : s' = s := Option.some.inj hs
    exact ⟨c, set, _, hasks, hc, .words, hlists (result_listWords hset ws)⟩
  | file s' path =>
    obtain rfl : s' = s := Option.some.inj hs
    cases hfile : files path with
    | error failure => exact absurd (.image hfile) (h .image _)
    | ok bytes =>
      exact ⟨c, set, _, hasks, hc, .file hfile, hlists (result_listFile hset hfile)⟩
  | help => contradiction
  | version => contradiction

end Request

/-- **A run lists all instructions, or prints nothing and reports what is wrong first.**

Let arguments be read as a request to list words or a file.  Whatever files there are, one of
two things happens.  Nothing is wrong with the request: the run ends with exit code 0, reports
no error, and prints one line for each instruction, in the set that the options ask for.  Or
something is wrong: the run ends with exit code 1, prints nothing, and reports the error of the
first stage at which anything is wrong, whatever may be wrong at later ones. -/
theorem run_listed_or_fails {arguments : List String} {request : Request} {s : Selection}
    (hparse : Request.parse arguments = .ok request) (hs : request.selection? = some s)
    (files : Files) :
    ((∀ stage e, ¬request.Fault files stage e) ∧
        (∃ c set ps, s.Asks files c ∧ c.build = .ok set ∧ request.Holds files ps ∧
          (run arguments files).Lists set s.start ps) ∨
      ∃ e, request.FirstFault files e ∧ (run arguments files).Fails e) ∧
    ∀ e, request.FirstFault files e → (run arguments files).Fails e := by
  have hrun : run arguments files = request.run files := by rw [run, hparse]
  rw [hrun]
  refine ⟨?_, fun e he => Request.fails_of_firstFault hs he⟩
  by_cases hfault : ∃ stage e, request.Fault files stage e
  · obtain ⟨stage, e, hfault⟩ := hfault
    obtain ⟨e', he'⟩ := Request.exists_firstFault hfault
    exact Or.inr ⟨e', he', Request.fails_of_firstFault hs he'⟩
  · push Not at hfault
    exact Or.inl ⟨hfault, Request.lists_of_not_fault hs hfault⟩

/-- Three things are wrong at once: the register width, the order of the modules, and the
path.  The run reports the first. -/
theorem run_listed_or_fails_xlen :
    let s : Selection := { isa := some .rv32gc, xlen := some 16, modules := [.rv128c] }
    let files : Files := fun _ => .error .notFound
    let arguments := ["file", "--isa", "rv32gc", "--xlen", "16", "--module", "rv128c", "a.bin"]
    Request.parse arguments = .ok (.file s "a.bin") ∧
    (Request.file s "a.bin").Fault files .composition
      (.unbuildable (.definition Builtin.shadowError)) ∧
    (Request.file s "a.bin").Fault files .image (.unreadable "a.bin" .notFound) ∧
    (run arguments files).exitCode = 1 ∧ (run arguments files).output = [] ∧
    (run arguments files).message = some "unsupported xlen 16 (expected 32, 64 or 128)" := by
  intro s files arguments
  have hparse : Request.parse arguments = .ok (.file s "a.bin") := by decide
  have hasks : s.Asks files ⟨some 16, some .rv32gc, [.rv128c]⟩ := .ofOptions rfl
  have hshadowed : Builtin.Shadowed (Config.moduleList ⟨some 16, some .rv32gc, [.rv128c]⟩) :=
    ⟨Preset.rv32gc.modules, [], rfl, by decide, by decide⟩
  have hfirst : (Request.file s "a.bin").FirstFault files (.unbuildable (.invalidXlen 16)) := by
    refine ⟨.width, .selection rfl (.badXlen hasks ⟨rfl, by decide⟩), ?_⟩
    intro earlier e hlt hfault
    cases hfault with
    | image => exact absurd hlt (by decide)
    | selection hs hfault =>
      -- without a file with a configuration nothing is wrong before
      obtain rfl := Option.some.inj hs
      cases hfault with
      | unreadable hpath | notText hpath | notConfig hpath => contradiction
      | badXlen | unfit => exact absurd hlt (by decide)
  have hfails := (run_listed_or_fails hparse rfl files).2 _ hfirst
  refine ⟨hparse, .selection rfl (.unfit hasks ?_), .image rfl, hfails.exitCode_eq,
    hfails.output_eq, hfails.message_eq.trans (by decide +kernel)⟩
  intro xlen
  rw [InstructionSet.build_eq_error_iff, Builtin.pushAll_eq_error_iff]
  exact ⟨hshadowed, rfl⟩

end Command
end RiscV
