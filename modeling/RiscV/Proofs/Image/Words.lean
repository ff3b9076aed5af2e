import RiscV.Command.Run
import RiscV.Proofs.Config.Build
import RiscV.Proofs.Image.Tiling

/-!
# The image of words

Words can be listed one by one, or written into an image, each in as many bytes as it
announces, and the image listed.  In the image only the bits that belong to an
instruction are left of its word, and where a word ends has to be found again; still
the lines are the same, and so is what the two commands print.

## Main definitions

* `image` — the bytes of words that follow each other.

## Main results

* `parcels_image` — cutting the image of words gives back the words, as far as they
  belong to an instruction.
* `InstructionSet.listing_image` — the lines of words are those of their image.
* `InstructionSet.getElem?_listing_words` — each line is that of its word, at the
  address of its bytes in the image.
* `Command.run_words_eq_run_file` — **listing words and listing their image print the
  same**, and what that is.
-/

namespace RiscV

/-- The image of words that follow each other: each is written lowest byte first, in
as many bytes as it announces. -/
def image (ws : List Word) : List UInt8 := ws.flatMap fun w => w.bytes w.length

/-- Two words of 16 bits, the first with a high half that is not written, around one
of 32 bits. -/
example : image [0xffff4505#32, 0x00100093#32, 0x8082#32]
    = [0x05, 0x45, 0x93, 0x00, 0x10, 0x00, 0x82, 0x80] := by decide

@[simp] theorem image_nil : image [] = [] := rfl

theorem image_cons (w : Word) (ws : List Word) :
    image (w :: ws) = w.bytes w.length ++ image ws := rfl

@[simp] theorem Word.length_bytes (w : Word) (n : Nat) : (w.bytes n).length = n := by
  simp [bytes]

@[simp] theorem Word.length_parcel (w : Word) : w.parcel.length = w.length := by
  rw [length, length, width_parcel]

/-! ### Cutting the image -/

/-- Every word is made of four bytes. -/
theorem exists_fullWord (w : Word) : ∃ b₀ b₁ b₂ b₃, fullWord b₀ b₁ b₂ b₃ = w := by
  refine ⟨⟨w.extractLsb' 0 8⟩, ⟨w.extractLsb' 8 8⟩, ⟨w.extractLsb' 16 8⟩,
    ⟨w.extractLsb' 24 8⟩, ?_⟩
  show w.extractLsb' 24 8 ++ w.extractLsb' 16 8 ++ w.extractLsb' 8 8 ++ w.extractLsb' 0 8 = w
  rw [BitVec.extractLsb'_append_extractLsb'_eq_extractLsb' (show 24 = 16 + 8 from rfl),
    BitVec.extractLsb'_append_extractLsb'_eq_extractLsb' (show 16 = 8 + 8 from rfl),
    BitVec.extractLsb'_append_extractLsb'_eq_extractLsb' (show 8 = 0 + 8 from rfl)]
  exact BitVec.extractLsb'_eq_self

/-- The bytes of a word are cut off as one parcel, whatever follows them. -/
theorem parcels_bytes_append (w : Word) (rest : List UInt8) :
    parcels (w.bytes w.length ++ rest) = .whole w.parcel :: parcels rest := by
  obtain ⟨b₀, b₁, b₂, b₃, rfl⟩ := exists_fullWord w
  have hstandard := isStandard_fullWord b₀ b₁ b₂ b₃
  cases h : (halfWord b₀ b₁).isStandard with
  | true =>
    rw [h] at hstandard
    have hlength : (fullWord b₀ b₁ b₂ b₃).length = 4 := Word.length_of_isStandard hstandard
    have hparcel : (fullWord b₀ b₁ b₂ b₃).parcel = fullWord b₀ b₁ b₂ b₃ := if_pos hstandard
    rw [hlength, hparcel, bytes_fullWord]
    exact parcels_long h b₂ b₃ rest
  | false =>
    -- the high half is not written, and does not belong to the instruction
    rw [h] at hstandard
    have hlength : (fullWord b₀ b₁ b₂ b₃).length = 2 := Word.length_of_not_isStandard hstandard
    have hbytes : (fullWord b₀ b₁ b₂ b₃).bytes 2 = [b₀, b₁] :=
      congrArg (List.take 2) (bytes_fullWord b₀ b₁ b₂ b₃)
    rw [hlength, hbytes, parcel_fullWord h]
    exact parcels_short h rest

/-- **Cutting the image of words gives back the words**, as far as they belong to an
instruction. -/
theorem parcels_image (ws : List Word) :
    parcels (image ws) = ws.map fun w => .whole w.parcel := by
  induction ws with
  | nil => rfl
  | cons w ws ih => rw [image_cons, parcels_bytes_append, ih, List.map_cons]

/-! ### Lines -/

namespace InstructionSet

variable (s : InstructionSet)

/-- The lines of words are those of their image. -/
theorem listing_image (base : Address) (ws : List Word) :
    s.listing base (parcels (image ws)) = s.listing base (ws.map .whole) := by
  rw [parcels_image]
  induction ws generalizing base with
  | nil => rfl
  | cons w ws ih =>
    have hline : s.lineOf base (.whole w.parcel) = s.lineOf base (.whole w) :=
      s.disassemble_congr base w.parcel_parcel
    have hlength : (Parcel.whole w.parcel).length = (Parcel.whole w).length := w.length_parcel
    rw [List.map_cons, List.map_cons, listing, listing, hline, hlength, ih]

/-- Each line is that of its word, at the address of its bytes in the image. -/
theorem getElem?_listing_words (base : Address) (ws : List Word) (k : Nat) :
    (s.listing base (ws.map .whole))[k]?
      = ws[k]?.map (s.disassemble (base + BitVec.ofNat 64 (image (ws.take k)).length)) := by
  induction ws generalizing base k with
  | nil => rfl
  | cons w ws ih =>
    cases k with
    | zero =>
      have hbase : base + BitVec.ofNat 64 0 = base := BitVec.add_zero base
      rw [List.take_zero, image_nil, List.length_nil, hbase]
      rfl
    | succ k =>
      have hnext : base + BitVec.ofNat 64 w.length
            + BitVec.ofNat 64 (image (ws.take k)).length
          = base + BitVec.ofNat 64 (image (w :: ws.take k)).length := by
        rw [image_cons, List.length_append, Word.length_bytes, BitVec.ofNat_add,
          BitVec.add_assoc]
      rw [List.map_cons, listing, List.getElem?_cons_succ, List.getElem?_cons_succ, ih,
        List.take_succ_cons, ← hnext]
      rfl

end InstructionSet

/-! ### The two commands -/

namespace Command

/-- The set of options is the one that their configuration selects. -/
theorem Selection.result_toSet (files : Files) (s : Selection) :
    (s.toSet files).result
      = (s.toConfig files).bind fun c => c.build.mapError .unbuildable := by
  unfold toSet
  cases s.toConfig files with
  | error e => rfl
  | ok c =>
    simp only [buildSet, Config.build, Except.bind]
    cases c.compose with
    | error e => rfl
    | ok composition =>
      dsimp only
      cases composition.result <;> rfl

/-- Options have the set that is built from the modules of their configuration. -/
theorem Selection.result_toSet_of_build {files : Files} {s : Selection} {c : Config} {xlen : Xlen}
    {set : InstructionSet} (hconfig : s.toConfig files = .ok c) (hxlen : c.resolveXlen = .ok xlen)
    (hbuild : InstructionSet.build xlen (c.moduleList.map Builtin.table) = .ok set) :
    (s.toSet files).result = .ok set := by
  rw [result_toSet, hconfig]
  simp only [Except.bind, Config.build_of_resolveXlen hxlen, hbuild]
  rfl

section

variable {options : Selection} {files : Files} {s : InstructionSet}

/-- With a set, the result of listing words is their lines. -/
theorem result_listWords (hset : (options.toSet files).result = .ok s) (ws : List Word) :
    (listWords options ws files).result = .ok (s.listing options.start (ws.map .whole)) := by
  simp only [listWords, hset]

/-- With a set, the result of listing a file that can be read is the lines of its image. -/
theorem result_listFile (hset : (options.toSet files).result = .ok s) {path : String}
    {bytes : List UInt8} (hfile : files path = .ok bytes) :
    (listFile options path files).result = .ok (s.listing options.start (parcels bytes)) := by
  simp only [listFile, hset, hfile]

/-- Listing words and listing their image have the same result, be it lines or what
went wrong with the options. -/
theorem result_listFile_image {path : String} {ws : List Word}
    (hfile : files path = .ok (image ws)) :
    (listFile options path files).result = (listWords options ws files).result := by
  cases hset : (options.toSet files).result with
  | error e => simp only [listFile, listWords, hset]
  | ok s => rw [result_listFile hset hfile, result_listWords hset, s.listing_image]

end

/-- Lines are printed, and nothing is reported. -/
theorem transcript_of_result {r : Logged (List Line)} {lines : List Line}
    (h : r.result = .ok lines) :
    r.transcript.exitCode = 0 ∧ r.transcript.message = none ∧
      r.transcript.output = lines.map Line.text := by
  unfold Logged.transcript
  rw [h]
  exact ⟨rfl, rfl, rfl⟩

/-- What is printed, the exit code and the message are told by the result. -/
theorem transcript_congr {r r' : Logged (List Line)} (h : r.result = r'.result) :
    r.transcript.output = r'.transcript.output ∧
      r.transcript.exitCode = r'.transcript.exitCode ∧
      r.transcript.message = r'.transcript.message := by
  unfold Logged.transcript
  rw [h]
  cases r'.result <;> exact ⟨rfl, rfl, rfl⟩

/-- **Listing words and listing their image print the same.**

For every set and every start address, the lines of words are those of the image of
the words, and line `k` is that of word `k` at the address of its bytes in the image.
So with a set, the command that is given words prints the lines of their image, from the
address asked for on.  For all options, with a set or without, the command that is given a
file with the image prints the same and ends in the same way. -/
theorem run_words_eq_run_file (ws : List Word) :
    (∀ (s : InstructionSet) (base : Address),
      s.listing base (ws.map .whole) = s.listing base (parcels (image ws)) ∧
      ∀ k, (s.listing base (ws.map .whole))[k]?
        = ws[k]?.map (s.disassemble (base + BitVec.ofNat 64 (image (ws.take k)).length))) ∧
    (∀ (options : Selection) (files : Files) (s : InstructionSet),
      (options.toSet files).result = .ok s →
      ((Request.words options ws).run files).exitCode = 0 ∧
      ((Request.words options ws).run files).message = none ∧
      ((Request.words options ws).run files).output
        = (s.listing (options.address.getD 0#64) (parcels (image ws))).map Line.text) ∧
    ∀ (options : Selection) (path : String) (files : Files), files path = .ok (image ws) →
      ((Request.words options ws).run files).output
        = ((Request.file options path).run files).output ∧
      ((Request.words options ws).run files).exitCode
        = ((Request.file options path).run files).exitCode ∧
      ((Request.words options ws).run files).message
        = ((Request.file options path).run files).message := by
  refine ⟨?_, ?_, ?_⟩
  · intro s base
    exact ⟨(s.listing_image base ws).symm, s.getElem?_listing_words base ws⟩
  · intro options files s hset
    rw [s.listing_image]
    exact transcript_of_result (result_listWords hset ws)
  · intro options path files hfile
    exact transcript_congr (result_listFile_image hfile).symm

/-- A word of 16 bits with a high half that is not written, and one of 32 bits behind
the end of the address space. -/
theorem run_words_eq_run_file_wrapping :
    let ws : List Word := [0xffff4505#32, 0x00100093#32]
    let bytes : List UInt8 := [0x05, 0x45, 0x93, 0x00, 0x10, 0x00]
    let files : Files := fun _ => .ok bytes
    let options : Selection :=
      { isa := some .rv32i, modules := [.rv32c], address := some 0xfffffffe#64 }
    files "a.bin" = .ok (image ws) ∧
    (∃ s, (options.toSet files).result = .ok s) ∧
    ((Request.words options ws).run files).exitCode = 0 ∧
    ((Request.words options ws).run files).output
      = ["fffffffe: 4505     \tc.li a0,1", "00000000: 00100093 \tli ra,1"] ∧
    ((Request.file options "a.bin").run files).output
      = ["fffffffe: 4505     \tc.li a0,1", "00000000: 00100093 \tli ra,1"] := by
  intro ws bytes files options
  have himage : image ws = bytes := by decide
  have hfile : files "a.bin" = .ok (image ws) := congrArg Except.ok himage.symm
  have hbuild := InstructionSet.build_of_not_shadowed .rv32
    (Builtin.not_shadowed_of_notMem (by decide : Builtin.rv128c ∉ [Builtin.rv32i, .rv32c]))
  have hset := Selection.result_toSet_of_build (rfl : options.toConfig files = _) rfl hbuild
  obtain ⟨-, hwords, hagree⟩ := run_words_eq_run_file ws
  obtain ⟨hcode, -, houtput⟩ := hwords options files _ hset
  rw [himage] at houtput
  have hlines : ((Request.words options ws).run files).output
      = ["fffffffe: 4505     \tc.li a0,1", "00000000: 00100093 \tli ra,1"] := by
    rw [houtput]
    decide +kernel
  have hsame := (hagree options "a.bin" files hfile).1
  exact ⟨hfile, ⟨_, hset⟩, hcode, hlines, hsame.symm.trans hlines⟩

end Command
end RiscV
