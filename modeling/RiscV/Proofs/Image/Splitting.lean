import Mathlib.Data.List.Basic
import RiscV.Proofs.Image.Words

/-!
# Splitting an image

An image can be listed in pieces, if it is split where an instruction ends.  Where it does
can be told from the lines of the front piece alone: they take all its bytes, and none is
shorter than its word announces.  Such a piece is the image of the words of its lines, and
what follows it does not change how it is cut.

## Main results

* `parcels_image_append` — behind the image of words, cutting starts anew.
* `InstructionSet.listing_append` — lines of parcels, and of further parcels behind them.
* `InstructionSet.eq_image` — a piece whose lines are complete is the image of their words.
* `InstructionSet.listing_parcels_append` — **an image can be listed in pieces.**
-/

namespace RiscV

/-- Behind the image of words, cutting starts anew. -/
theorem parcels_image_append (ws : List Word) (rest : List UInt8) :
    parcels (image ws ++ rest) = parcels (image ws) ++ parcels rest := by
  induction ws with
  | nil => rfl
  | cons w ws ih =>
    rw [image_cons, List.append_assoc, parcels_bytes_append, parcels_bytes_append, ih,
      List.cons_append]

/-- All lines together have as many bytes as their lengths say. -/
theorem Line.length_flatMap_bytes (lines : List Line) :
    (lines.flatMap Line.bytes).length = Line.offset lines lines.length := by
  induction lines with
  | nil => rfl
  | cons l lines ih =>
    rw [List.flatMap_cons, List.length_append, ih, List.length_cons, offset_cons_succ, bytes,
      Word.length_bytes]

namespace InstructionSet

variable (s : InstructionSet)

/-- The lines of further parcels start at the address that the lines before them lead to. -/
theorem listing_append (base : Address) (ps qs : List Parcel) :
    s.listing base (ps ++ qs) = s.listing base ps ++
      s.listing (base + BitVec.ofNat 64
        (Line.offset (s.listing base ps) (s.listing base ps).length)) qs := by
  induction ps generalizing base with
  | nil =>
    have hbase : base + BitVec.ofNat 64 0 = base := BitVec.add_zero base
    rw [listing, List.length_nil, Line.offset_zero, hbase]
    rfl
  | cons p ps ih =>
    rw [List.cons_append, listing, listing, ih, List.length_cons, Line.offset_cons_succ,
      length_lineOf, BitVec.ofNat_add, ← BitVec.add_assoc, List.cons_append]

/-- A piece whose lines take all its bytes, none of them torn, is the image of the words
that the lines show. -/
theorem eq_image {base : Address} {bytes : List UInt8}
    (hsize : Line.offset (s.listing base (parcels bytes)) (s.listing base (parcels bytes)).length
      = bytes.length)
    (hlength : ∀ l ∈ s.listing base (parcels bytes), l.length = l.word.length) :
    bytes = image ((s.listing base (parcels bytes)).map Line.word) := by
  have hbytes := s.flatMap_bytes_listing base bytes
  -- the lines end with the piece, so no odd byte is left over
  have hall : bytes.take (2 * (bytes.length / 2)) = bytes := by
    have hcount := Line.length_flatMap_bytes (s.listing base (parcels bytes))
    rw [hbytes, hsize, List.length_take] at hcount
    exact List.take_of_length_le (by omega)
  calc bytes = (s.listing base (parcels bytes)).flatMap Line.bytes := (hbytes.trans hall).symm
    _ = (s.listing base (parcels bytes)).flatMap fun l => l.word.bytes l.word.length :=
      List.flatMap_congr fun l hl => by rw [Line.bytes, hlength l hl]
    _ = _ := by rw [image, List.flatMap_map]

/-- **An image can be listed in pieces.**  If the lines of the front piece take all its
bytes, and each has the length that its word announces, then the lines of the whole are
those of the front piece, and behind them those of the rest from the address where the
front piece ends. -/
theorem listing_parcels_append (base : Address) (front rest : List UInt8)
    (hsize : Line.offset (s.listing base (parcels front)) (s.listing base (parcels front)).length
      = front.length)
    (hlength : ∀ l ∈ s.listing base (parcels front), l.length = l.word.length) :
    s.listing base (parcels (front ++ rest))
      = s.listing base (parcels front) ++
        s.listing (base + BitVec.ofNat 64 front.length) (parcels rest) := by
  have hcut : parcels (front ++ rest) = parcels front ++ parcels rest := by
    rw [s.eq_image hsize hlength, parcels_image_append]
  rw [hcut, listing_append, hsize]

/-- A short and a long instruction that end with the address space.  The rest starts at
address zero, and a byte of it is left over. -/
theorem listing_parcels_append_wrapping :
    let li : Definition := ⟨"c.li", ⟨0xe003#32, 0x4001#32, .compressed⟩, .cLoadImm, .c⟩
    let s : InstructionSet := { xlen := .rv64, catalogue := { compressed := [li] } }
    let front : List UInt8 := [0x05, 0x45, 0x93, 0x00, 0x10, 0x00]
    let rest : List UInt8 := [0x89, 0x45, 0x13]
    let lines := s.listing 0xfffffffffffffffa#64 (parcels front)
    Line.offset lines lines.length = front.length ∧
      (∀ l ∈ lines, l.length = l.word.length) ∧
      s.listing 0xfffffffffffffffa#64 (parcels (front ++ rest))
        = lines ++ s.listing 0x0#64 (parcels rest) := by
  intro li s front rest lines
  have hsize : Line.offset lines lines.length = front.length := by decide +kernel
  have hlength : ∀ l ∈ lines, l.length = l.word.length := by decide +kernel
  have hend : 0xfffffffffffffffa#64 + BitVec.ofNat 64 front.length = 0x0#64 := by decide
  have hsplit := s.listing_parcels_append 0xfffffffffffffffa#64 front rest hsize hlength
  rw [hend] at hsplit
  exact ⟨hsize, hlength, hsplit⟩

end InstructionSet
end RiscV
