import RiscV.Json.Number

/-!
# JSON tokens

JSON text is cut into tokens from left to right.  A string, number or word that
is broken is still a token, one that says what it started as and what is wrong
with it, and nothing follows it: whether it matters is for the reader of the
tokens to say.  A character that starts no token is a stray.

## Main definitions

* `Token` — the tokens.
* `readString` — the text of a string.
* `tokens` — cutting text into tokens.
-/

namespace RiscV.Json

/-- A value that is neither a string nor null. -/
inductive Plain
  /-- A truth value. -/
  | boolean (value : Bool)
  /-- A number. -/
  | number (value : Number)
  deriving DecidableEq, Repr

/-- A piece of JSON text. -/
inductive Token
  | openObject
  | closeObject
  | openList
  | closeList
  | comma
  | colon
  /-- The word `null`. -/
  | null
  /-- A truth value or a number. -/
  | plain (value : Plain)
  /-- A string. -/
  | string (text : String)
  /-- A word that starts like `null`. -/
  | brokenNull (fault : Fault)
  /-- Something that starts like a truth value or a number. -/
  | brokenPlain (fault : Fault)
  /-- A string that is not completed. -/
  | brokenString (fault : Fault)
  /-- A character that starts nothing. -/
  | stray
  deriving DecidableEq, Repr

/-! ### Strings -/

/-- The characters with an escape of one letter. -/
def escapes : List (Char × Char) :=
  [('"', '"'), ('\\', '\\'), ('/', '/'), ('b', '\x08'), ('f', '\x0c'), ('n', '\n'),
    ('r', '\r'), ('t', '\t')]

/-- Read four hexadecimal digits.  Text ends too early if fewer than four bytes
of it are left. -/
def readUnit (cs : List Char) : Except Fault (Nat × List Char) :=
  if (cs.take 4).foldl (fun bytes c => bytes + c.utf8Size) 0 < 4 then .error .ended
  else
    match (cs.take 4).mapM (Text.digit? 16) with
    | none => .error .malformed
    | some digits => .ok (digits.foldl (fun n d => n * 16 + d) 0, cs.drop 4)

/-- Whether a unit starts a pair of surrogates. -/
def isLeading (unit : Nat) : Bool := 0xd800 ≤ unit && unit ≤ 0xdbff

/-- Whether a unit ends a pair of surrogates. -/
def isTrailing (unit : Nat) : Bool := 0xdc00 ≤ unit && unit ≤ 0xdfff

/-- The character of a pair of surrogates. -/
def pairedChar (leading trailing : Nat) : Char :=
  Char.ofNat ((leading - 0xd800) * 0x400 + (trailing - 0xdc00) + 0x10000)

/-- Read the second half of a pair of surrogates, escape and all. -/
def readTrailing (leading : Nat) : List Char → Except Fault (Char × List Char)
  | [] | ['\\'] => .error .ended
  | '\\' :: 'u' :: cs => do
    let (trailing, rest) ← readUnit cs
    if isTrailing trailing then .ok (pairedChar leading trailing, rest) else .error .malformed
  | _ => .error .malformed

/-- Read an escape by code units. -/
def readUnicode (cs : List Char) : Except Fault (Char × List Char) := do
  let (unit, rest) ← readUnit cs
  if isTrailing unit then .error .malformed
  else if isLeading unit then readTrailing unit rest
  else .ok (Char.ofNat unit, rest)

/-- Read what follows a backslash. -/
def readEscape : List Char → Except Fault (Char × List Char)
  | [] => .error .ended
  | c :: cs =>
    if c = 'u' then readUnicode cs
    else
      match escapes.lookup c with
      | some d => .ok (d, cs)
      | none => .error .malformed

theorem length_readUnit {cs rest : List Char} {n : Nat} (h : readUnit cs = .ok (n, rest)) :
    rest.length ≤ cs.length := by
  unfold readUnit at h
  split at h
  · simp at h
  · split at h
    · simp at h
    · simp only [Except.ok.injEq, Prod.mk.injEq] at h
      simp [← h.2]

theorem length_readTrailing {leading : Nat} {cs rest : List Char} {c : Char}
    (h : readTrailing leading cs = .ok (c, rest)) : rest.length ≤ cs.length := by
  unfold readTrailing at h
  split at h
  · simp at h
  · simp at h
  · next cs =>
    cases hu : readUnit cs with
    | error f => simp [hu, bind, Except.bind] at h
    | ok r =>
      obtain ⟨unit, rest'⟩ := r
      have := length_readUnit hu
      simp only [hu, bind, Except.bind] at h
      split at h
      · simp only [Except.ok.injEq, Prod.mk.injEq] at h
        simp only [← h.2, List.length_cons]
        omega
      · simp at h
  · simp at h

theorem length_readEscape {cs rest : List Char} {c : Char} (h : readEscape cs = .ok (c, rest)) :
    rest.length ≤ cs.length := by
  cases cs with
  | nil => simp [readEscape] at h
  | cons d cs =>
    simp only [readEscape] at h
    split at h
    · unfold readUnicode at h
      cases hu : readUnit cs with
      | error f => simp [hu, bind, Except.bind] at h
      | ok r =>
        obtain ⟨unit, rest'⟩ := r
        have := length_readUnit hu
        simp only [hu, bind, Except.bind] at h
        split at h
        · simp at h
        · split at h
          · have := length_readTrailing h
            simp only [List.length_cons]
            omega
          · simp only [Except.ok.injEq, Prod.mk.injEq] at h
            simp only [← h.2, List.length_cons]
            omega
    · split at h
      · simp only [Except.ok.injEq, Prod.mk.injEq] at h
        simp [← h.2]
      · simp at h

/-- Read a string after its opening quote: its characters and what follows the
closing quote. -/
def readString : List Char → Except Fault (List Char × List Char)
  | [] => .error .ended
  | c :: cs =>
    if c = '"' then .ok ([], cs)
    else if c = '\\' then
      match h : readEscape cs with
      | .error fault => .error fault
      | .ok (d, rest) =>
        have := length_readEscape h
        match readString rest with
        | .error fault => .error fault
        | .ok (text, rest) => .ok (d :: text, rest)
    else if c.toNat < 0x20 then .error .malformed
    else
      match readString cs with
      | .error fault => .error fault
      | .ok (text, rest) => .ok (c :: text, rest)
termination_by cs => cs.length

/-! ### Tokens -/

/-- Whether a character may stand between tokens. -/
def isSpace (c : Char) : Bool := c == ' ' || c == '\t' || c == '\n' || c == '\r'

/-- Read the rest of a word. -/
def readWord : List Char → List Char → Except Fault (List Char)
  | [], cs => .ok cs
  | _ :: _, [] => .error .ended
  | w :: ws, c :: cs => if w = c then readWord ws cs else .error .malformed

/-- The token that starts with a character, and what follows it; nothing follows
a token that is broken. -/
def scan (c : Char) (cs : List Char) : Token × List Char :=
  match c with
  | '\x7b' => (.openObject, cs)
  | '\x7d' => (.closeObject, cs)
  | '[' => (.openList, cs)
  | ']' => (.closeList, cs)
  | ',' => (.comma, cs)
  | ':' => (.colon, cs)
  | '"' =>
    match readString cs with
    | .ok (text, rest) => (.string (String.ofList text), rest)
    | .error fault => (.brokenString fault, [])
  | 'n' =>
    match readWord ['u', 'l', 'l'] cs with
    | .ok rest => (.null, rest)
    | .error fault => (.brokenNull fault, [])
  | 't' =>
    match readWord ['r', 'u', 'e'] cs with
    | .ok rest => (.plain (.boolean true), rest)
    | .error fault => (.brokenPlain fault, [])
  | 'f' =>
    match readWord ['a', 'l', 's', 'e'] cs with
    | .ok rest => (.plain (.boolean false), rest)
    | .error fault => (.brokenPlain fault, [])
  | c =>
    if c = '-' ∨ c.isDigit then
      match readNumber (c :: cs) with
      | .ok (number, rest) => (.plain (.number number), rest)
      | .error fault => (.brokenPlain fault, [])
    else (.stray, [])

theorem length_readString {cs text rest : List Char} (h : readString cs = .ok (text, rest)) :
    rest.length ≤ cs.length := by
  fun_induction readString cs generalizing text rest with
  | case1 => simp at h
  | case2 cs => simp_all
  | case3 => simp at h
  | case4 => simp at h
  | case5 _ _ _ _ hle _ _ hs _ ih =>
    simp only [Except.ok.injEq, Prod.mk.injEq] at h
    have := ih hs
    simp only [← h.2, List.length_cons]
    omega
  | case6 => simp at h
  | case7 => simp at h
  | case8 _ _ _ _ _ _ _ hs ih =>
    simp only [Except.ok.injEq, Prod.mk.injEq] at h
    have := ih hs
    simp only [← h.2, List.length_cons]
    omega

theorem length_readWord {ws cs rest : List Char} (h : readWord ws cs = .ok rest) :
    rest.length ≤ cs.length := by
  induction ws generalizing cs with
  | nil => simp_all [readWord]
  | cons w ws ih =>
    cases cs with
    | nil => simp [readWord] at h
    | cons c cs =>
      simp only [readWord] at h
      split at h
      · have := ih h
        simp only [List.length_cons]
        omega
      · simp at h

theorem length_scan (c : Char) (cs : List Char) : (scan c cs).2.length ≤ cs.length := by
  unfold scan
  split
  · exact Nat.le_refl _
  · exact Nat.le_refl _
  · exact Nat.le_refl _
  · exact Nat.le_refl _
  · exact Nat.le_refl _
  · exact Nat.le_refl _
  · split
    · next h => exact length_readString h
    · simp
  · split
    · next h => exact length_readWord h
    · simp
  · split
    · next h => exact length_readWord h
    · simp
  · split
    · next h => exact length_readWord h
    · simp
  · split
    · split
      · next h => exact Nat.le_of_lt_succ (length_readNumber h)
      · simp
    · simp

/-- The tokens of a text. -/
def tokens : List Char → List Token
  | [] => []
  | c :: cs =>
    if isSpace c then tokens cs
    else
      have := length_scan c cs
      (scan c cs).1 :: tokens (scan c cs).2
termination_by cs => cs.length

end RiscV.Json
