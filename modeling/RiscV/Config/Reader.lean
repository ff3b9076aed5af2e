import RiscV.Config
import RiscV.Json.Token

/-!
# Reading configurations

A configuration is written as a JSON object with the optional keys `xlen`,
`preset` and `modules`, or as a list of these three in that order, which may stop
early.  A preset or module is written as a string, or as an object that maps its
name to null.  A preset is called by its identifier in lower case, a module by its
identifier in snake case.

The tokens are read from left to right, and the first problem is reported.

## Main definitions

* `ReadError` — what can be wrong, and its wording.
* `Config.ofTokens` — reading a configuration off its tokens.
* `Config.parse` — reading a configuration.
-/

namespace RiscV

open Json

/-! ### What can be wrong -/

/-- What stands where something else was expected. -/
inductive Unexpected
  | null
  | boolean (value : Bool)
  | number (value : Number)
  | string (text : String)
  | list
  | object
  deriving DecidableEq, Repr

/-- How an unexpected value is described. -/
def Unexpected.text : Unexpected → String
  | null => "null"
  | boolean value => "boolean `" ++ (if value then "true" else "false") ++ "`"
  | number (.integer value) => "integer `" ++ Text.decimal value ++ "`"
  | number value => "floating point `" ++ value.text ++ "`"
  | string text => "string " ++ Text.quoted text
  | list => "sequence"
  | object => "map"

/-- What was expected. -/
inductive Expected
  /-- A register width. -/
  | width
  /-- A list of modules. -/
  | modules
  /-- The null that a name is mapped to. -/
  | nothing
  /-- A configuration. -/
  | config
  deriving DecidableEq, Repr

/-- How what was expected is described. -/
def Expected.text : Expected → String
  | width => "u32"
  | modules => "a sequence"
  | nothing => "unit"
  | config => "struct IsaConfig"

/-- What can be wrong with a value that is well-formed. -/
inductive Mismatch
  /-- A key that a configuration does not have. -/
  | unknownKey (key : String)
  /-- A key that occurs twice. -/
  | duplicateKey (key : String)
  /-- A name that is not among the known ones. -/
  | unknownName (name : String) (known : List String)
  /-- A value of the wrong kind. -/
  | wrongKind (found : Unexpected) (expected : Expected)
  /-- A register width that is no 32-bit number. -/
  | widthRange (value : Int)
  deriving DecidableEq, Repr

/-- Names in backquotes, separated by commas. -/
def listNames (names : List String) : String :=
  ", ".intercalate (names.map fun name => "`" ++ name ++ "`")

/-- The keys of a configuration. -/
inductive Key
  | xlen
  | preset
  | modules
  deriving DecidableEq, Repr

namespace Key

/-- All keys, in the order of the list form. -/
def all : List Key := [xlen, preset, modules]

/-- How a key is written. -/
def name : Key → String
  | xlen => "xlen"
  | preset => "preset"
  | modules => "modules"

/-- The key that is written in a given way. -/
def ofName? (text : String) : Option Key := all.find? fun key => key.name == text

end Key

/-- The wording of a mismatch. -/
def Mismatch.text : Mismatch → String
  | unknownKey key =>
    "unknown field `" ++ key ++ "`, expected one of " ++ listNames (Key.all.map Key.name)
  | duplicateKey key => "duplicate field `" ++ key ++ "`"
  | unknownName name known =>
    "unknown variant `" ++ name ++ "`, expected one of " ++ listNames known
  | wrongKind found expected =>
    "invalid type: " ++ found.text ++ ", expected " ++ expected.text
  | widthRange value =>
    "invalid value: integer `" ++ Text.decimal value ++ "`, expected " ++ Expected.width.text

/-- Why a text is no configuration. -/
inductive ReadError
  /-- It is not JSON. -/
  | json (fault : Fault)
  /-- It is JSON for something else. -/
  | mismatch (cause : Mismatch)
  deriving DecidableEq, Repr

/-- The wording of a read error.  For a text that is not JSON it is this library's own, and
says only whether the text ends too early: a reader of JSON may say more, and where. -/
def ReadError.message : ReadError → String
  | json .ended => "invalid configuration: the text ends too early"
  | json .malformed => "invalid configuration: the text is not JSON"
  | mismatch cause => "invalid configuration: " ++ cause.text

namespace Config

/-! ### Values -/

/-- The error for a value of the wrong kind.  What is broken counts as not being
JSON. -/
def wrongKind (expected : Expected) : List Token → ReadError
  | [] => .json .ended
  | .null :: _ => .mismatch (.wrongKind .null expected)
  | .plain (.boolean value) :: _ => .mismatch (.wrongKind (.boolean value) expected)
  | .plain (.number value) :: _ => .mismatch (.wrongKind (.number value) expected)
  | .string text :: _ => .mismatch (.wrongKind (.string text) expected)
  | .openList :: _ => .mismatch (.wrongKind .list expected)
  | .openObject :: _ => .mismatch (.wrongKind .object expected)
  | .brokenNull fault :: _ | .brokenPlain fault :: _ | .brokenString fault :: _ => .json fault
  | _ :: _ => .json .malformed

/-- The error where only one token would do: the text ends, or goes on wrongly. -/
def missing : List Token → ReadError
  | [] => .json .ended
  | _ :: _ => .json .malformed

/-- Read a register width, or null. -/
def readXlen : List Token → Except ReadError (Option Nat × List Token)
  | .null :: ts => .ok (none, ts)
  | .plain (.number (.integer n)) :: ts =>
    if 0 ≤ n ∧ n ≤ 0xffffffff then .ok (some n.toNat, ts)
    else .error (.mismatch (.widthRange n))
  | ts => .error (wrongKind .width ts)

/-- Read what follows the name in its object form: a colon, null and the end. -/
def readNameEnd : List Token → Except ReadError (List Token)
  | .colon :: ts =>
    match ts with
    | .null :: ts =>
      match ts with
      | .closeObject :: ts => .ok ts
      | ts => .error (missing ts)
    | ts => .error (wrongKind .nothing ts)
  | ts => .error (missing ts)

/-- Read a name in either of its forms.  `known` lists the names and what they
stand for. -/
def readName {α : Type} (known : List (String × α)) :
    List Token → Except ReadError (α × List Token)
  | .string text :: ts =>
    match known.lookup text with
    | some a => .ok (a, ts)
    | none => .error (.mismatch (.unknownName text (known.map Prod.fst)))
  | .openObject :: .string text :: ts =>
    match known.lookup text with
    | some a => (readNameEnd ts).map fun rest => (a, rest)
    | none => .error (.mismatch (.unknownName text (known.map Prod.fst)))
  | .openObject :: .brokenString fault :: _ => .error (.json fault)
  | .openObject :: ts => .error (missing ts)
  | .brokenString fault :: _ => .error (.json fault)
  | ts => .error (missing ts)

/-- An identifier in lower case. -/
def lowerCase (identifier : String) : String :=
  String.ofList (identifier.toList.map Char.toLower)

/-- An identifier in snake case: in lower case, with an underscore in front of every capital
but one at the start. -/
def snakeCase (identifier : String) : String :=
  match identifier.toList with
  | [] => ""
  | c :: cs => String.ofList
    (c.toLower :: cs.flatMap fun c => if c.isUpper then ['_', c.toLower] else [c.toLower])

/-- The presets by what a configuration calls them. -/
def presetNames : List (String × Preset) := Preset.all.map fun p => (lowerCase p.identifier, p)

/-- The modules by what a configuration calls them. -/
def moduleNames : List (String × Builtin) := Builtin.all.map fun m => (snakeCase m.identifier, m)

/-- Read a preset, or null. -/
def readPreset : List Token → Except ReadError (Option Preset × List Token)
  | .null :: ts => .ok (none, ts)
  | .brokenNull fault :: _ => .error (.json fault)
  | ts => (readName presetNames ts).map fun (p, rest) => (some p, rest)

theorem length_readNameEnd {ts rest : List Token} (h : readNameEnd ts = .ok rest) :
    rest.length < ts.length := by
  unfold readNameEnd at h
  split at h
  · split at h
    · split at h
      · simp only [Except.ok.injEq] at h
        simp only [← h, List.length_cons]
        omega
      · simp at h
    · simp at h
  · simp at h

theorem length_readName {α : Type} {known : List (String × α)} {ts rest : List Token} {a : α}
    (h : readName known ts = .ok (a, rest)) : rest.length < ts.length := by
  unfold readName at h
  split at h
  · split at h
    · simp only [Except.ok.injEq, Prod.mk.injEq] at h
      simp [← h.2]
    · simp at h
  · next ts =>
    split at h
    · cases he : readNameEnd ts with
      | error e => simp [he, Except.map] at h
      | ok r =>
        simp only [he, Except.map, Except.ok.injEq, Prod.mk.injEq] at h
        have := length_readNameEnd he
        simp only [← h.2, List.length_cons]
        omega
    · simp at h
  · simp at h
  · simp at h
  · simp at h
  · simp at h

/-- Read further modules, up to the end of their list. -/
def readMoreModules : List Token → Except ReadError (List Builtin × List Token)
  | .closeList :: ts => .ok ([], ts)
  | .comma :: ts =>
    match h : readName moduleNames ts with
    | .error e => .error e
    | .ok (m, rest) =>
      have := length_readName h
      (readMoreModules rest).map fun (ms, rest) => (m :: ms, rest)
  | ts => .error (missing ts)
termination_by ts => ts.length

/-- Read a list of modules. -/
def readModules : List Token → Except ReadError (List Builtin × List Token)
  | .openList :: .closeList :: ts => .ok ([], ts)
  | .openList :: ts => do
    let (m, ts) ← readName moduleNames ts
    let (ms, ts) ← readMoreModules ts
    .ok (m :: ms, ts)
  | ts => .error (wrongKind .modules ts)

theorem length_readXlen {ts rest : List Token} {xlen : Option Nat}
    (h : readXlen ts = .ok (xlen, rest)) : rest.length < ts.length := by
  unfold readXlen at h
  split at h
  · simp only [Except.ok.injEq, Prod.mk.injEq] at h
    simp [← h.2]
  · split at h
    · simp only [Except.ok.injEq, Prod.mk.injEq] at h
      simp [← h.2]
    · simp at h
  · simp at h

theorem length_readPreset {ts rest : List Token} {preset : Option Preset}
    (h : readPreset ts = .ok (preset, rest)) : rest.length < ts.length := by
  unfold readPreset at h
  split at h
  · simp only [Except.ok.injEq, Prod.mk.injEq] at h
    simp [← h.2]
  · simp at h
  · cases hn : readName presetNames ts with
    | error e => simp [hn, Except.map] at h
    | ok r =>
      simp only [hn, Except.map, Except.ok.injEq, Prod.mk.injEq] at h
      rw [← h.2]
      exact length_readName hn

theorem length_readMoreModules {ts rest : List Token} {ms : List Builtin}
    (h : readMoreModules ts = .ok (ms, rest)) : rest.length < ts.length := by
  fun_induction readMoreModules ts generalizing ms rest with
  | case1 ts => simp_all
  | case2 => simp at h
  | case3 ts m rest' hn hlt ih =>
    cases hm : readMoreModules rest' with
    | error e => simp [hm, Except.map] at h
    | ok r =>
      simp only [hm, Except.map, Except.ok.injEq, Prod.mk.injEq] at h
      have := ih hm
      simp only [← h.2, List.length_cons]
      omega
  | case4 => simp at h

theorem length_readModules {ts rest : List Token} {ms : List Builtin}
    (h : readModules ts = .ok (ms, rest)) : rest.length < ts.length := by
  unfold readModules at h
  split at h
  · simp only [Except.ok.injEq, Prod.mk.injEq] at h
    simp only [← h.2, List.length_cons]
    omega
  · next ts _ =>
    cases hn : readName moduleNames ts with
    | error e => simp [hn, bind, Except.bind] at h
    | ok r =>
      obtain ⟨m, ts₁⟩ := r
      cases hm : readMoreModules ts₁ with
      | error e => simp [hn, hm, bind, Except.bind] at h
      | ok r =>
        simp only [hn, hm, bind, Except.bind, Except.ok.injEq, Prod.mk.injEq] at h
        have := length_readName hn
        have := length_readMoreModules hm
        simp only [← h.2, List.length_cons]
        omega
  · simp at h

/-! ### The object form -/

/-- The values read so far. -/
structure Draft where
  /-- The value of `xlen`. -/
  xlen : Option (Option Nat) := none
  /-- The value of `preset`. -/
  preset : Option (Option Preset) := none
  /-- The value of `modules`. -/
  modules : Option (List Builtin) := none

/-- Whether a key has its value. -/
def Draft.has (d : Draft) : Key → Bool
  | .xlen => d.xlen.isSome
  | .preset => d.preset.isSome
  | .modules => d.modules.isSome

/-- The configuration of a draft, where keys without a value take their
defaults. -/
def Draft.toConfig (d : Draft) : Config where
  xlen := d.xlen.getD none
  preset := d.preset.getD none
  modules := d.modules.getD []

/-- Read the value of a key. -/
def readValue (d : Draft) (key : Key) (ts : List Token) :
    Except ReadError (Draft × List Token) :=
  match key with
  | .xlen => (readXlen ts).map fun (xlen, rest) => ({ d with xlen := some xlen }, rest)
  | .preset => (readPreset ts).map fun (preset, rest) => ({ d with preset := some preset }, rest)
  | .modules =>
    (readModules ts).map fun (modules, rest) => ({ d with modules := some modules }, rest)

/-- Read a key and its value. -/
def readEntry (d : Draft) : List Token → Except ReadError (Draft × List Token)
  | .string text :: ts =>
    match Key.ofName? text with
    | none => .error (.mismatch (.unknownKey text))
    | some key =>
      if d.has key then .error (.mismatch (.duplicateKey key.name))
      else
        match ts with
        | .colon :: ts => readValue d key ts
        | ts => .error (missing ts)
  | .brokenString fault :: _ => .error (.json fault)
  | ts => .error (missing ts)

theorem length_readValue {d d' : Draft} {key : Key} {ts rest : List Token}
    (h : readValue d key ts = .ok (d', rest)) : rest.length < ts.length := by
  cases key with
  | xlen =>
    cases hr : readXlen ts with
    | error e => simp [readValue, hr, Except.map] at h
    | ok r =>
      simp only [readValue, hr, Except.map, Except.ok.injEq, Prod.mk.injEq] at h
      rw [← h.2]
      exact length_readXlen hr
  | preset =>
    cases hr : readPreset ts with
    | error e => simp [readValue, hr, Except.map] at h
    | ok r =>
      simp only [readValue, hr, Except.map, Except.ok.injEq, Prod.mk.injEq] at h
      rw [← h.2]
      exact length_readPreset hr
  | modules =>
    cases hr : readModules ts with
    | error e => simp [readValue, hr, Except.map] at h
    | ok r =>
      simp only [readValue, hr, Except.map, Except.ok.injEq, Prod.mk.injEq] at h
      rw [← h.2]
      exact length_readModules hr

theorem length_readEntry {d d' : Draft} {ts rest : List Token}
    (h : readEntry d ts = .ok (d', rest)) : rest.length < ts.length := by
  unfold readEntry at h
  split at h
  · split at h
    · simp at h
    · split at h
      · simp at h
      · split at h
        · have := length_readValue h
          simp only [List.length_cons]
          omega
        · simp at h
  · simp at h
  · simp at h

/-- Read further entries, up to the end of the object. -/
def readMoreEntries (d : Draft) : List Token → Except ReadError (Draft × List Token)
  | .closeObject :: ts => .ok (d, ts)
  | .comma :: ts =>
    match h : readEntry d ts with
    | .error e => .error e
    | .ok (d', rest) =>
      have := length_readEntry h
      readMoreEntries d' rest
  | ts => .error (missing ts)
termination_by ts => ts.length

/-- Read an object after its opening brace. -/
def readObject : List Token → Except ReadError (Config × List Token)
  | .closeObject :: ts => .ok ({}, ts)
  | ts => do
    let (d, ts) ← readEntry {} ts
    let (d, ts) ← readMoreEntries d ts
    .ok (d.toConfig, ts)

/-! ### The list form -/

/-- Read the end of a list. -/
def readListEnd (c : Config) : List Token → Except ReadError (Config × List Token)
  | .closeList :: ts => .ok (c, ts)
  | ts => .error (missing ts)

/-- Read the modules, unless the list stops before them. -/
def readThird (c : Config) : List Token → Except ReadError (Config × List Token)
  | .comma :: ts => do
    let (modules, ts) ← readModules ts
    readListEnd { c with modules } ts
  | ts => readListEnd c ts

/-- Read the preset and what follows, unless the list stops before them. -/
def readSecond (c : Config) : List Token → Except ReadError (Config × List Token)
  | .comma :: ts => do
    let (preset, ts) ← readPreset ts
    readThird { c with preset } ts
  | ts => readListEnd c ts

/-- Read a list after its opening bracket. -/
def readList : List Token → Except ReadError (Config × List Token)
  | .closeList :: ts => .ok ({}, ts)
  | ts => do
    let (xlen, ts) ← readXlen ts
    readSecond { xlen } ts

/-! ### The whole -/

/-- Read a configuration off all its tokens. -/
def ofTokens (ts : List Token) : Except ReadError Config := do
  let (c, rest) ←
    match ts with
    | .openObject :: ts => readObject ts
    | .openList :: ts => readList ts
    | ts => .error (wrongKind .config ts)
  if rest.isEmpty then .ok c else .error (.json .malformed)

/-- Read a configuration. -/
def parse (text : String) : Except ReadError Config := ofTokens (tokens text.toList)

end Config

end RiscV
