import Mathlib.Algebra.GroupWithZero.Nat
import MinC.Vfs.InputLines

/-!
What lines leave in the buffer.

The trimming of a piece is different for every mode. With signals a piece loses
a byte, which is the newline of a line that came in one piece. Without signals a
piece is not terminated, so that what a longer one has left shows behind it, and
without signals a CR is never found, as the last byte is the newline.
-/

namespace MinC.Vfs

open MinC.Lib

/-! ### A piece in the buffer -/

namespace InputBuffer

theorem put_buf (b : InputBuffer) (bytes : List UInt8) :
    (b.put bytes).buf = bytes ++ b.buf.drop bytes.length := by
  show poke b.buf 0 bytes = _
  simp [poke, front]

/-- A store at a byte that is known. -/
theorem store_buf {b : InputBuffer} {before behind : List UInt8} {old : UInt8}
    (h : b.buf = before ++ old :: behind) {offset : Int} (hoffset : offset = before.length)
    (char : UInt8) : (b.store offset char).buf = before ++ char :: behind := by
  subst hoffset
  show (if ((before.length : Nat) : Int) < 0 then b.buf else poke b.buf _ [char]) = _
  rw [if_neg (by omega), Int.toNat_natCast, h, poke_append]
  rfl

theorem store_buf_of_neg {offset : Int} (h : offset < 0) (b : InputBuffer) (char : UInt8) :
    (b.store offset char).buf = b.buf := if_pos h

theorem store_inside {offset : Int} (h : 0 ≤ offset ∧ offset < inputBufSize) (b : InputBuffer)
    (char : UInt8) : (b.store offset char).inside = b.inside := by
  show (b.inside && decide (0 ≤ offset ∧ offset < inputBufSize)) = b.inside
  rw [decide_eq_true h, Bool.and_true]

end InputBuffer

section
variable {attribs : Termio}

theorem lineFill_pending (b : InputBuffer) (p : Piece) :
    (lineFill attribs b p).pending = text (lineFill attribs b p).buf := rfl

theorem lineFill_buf (b : InputBuffer) (p : Piece) :
    (lineFill attribs b p).buf = (trimLine attribs p.bytes.length (b.put p.bytes)).buf := rfl

theorem put_piece_inside (b : InputBuffer) (p : Piece) : (b.put p.bytes).inside = b.inside := by
  have hlen : p.bytes.length ≤ inputBufSize := Nat.le_trans p.length_le (by decide)
  show (b.inside && decide (p.bytes.length ≤ inputBufSize)) = b.inside
  rw [decide_eq_true hlen, Bool.and_true]

/-- With signals a zero takes the place of the last byte. What is before it does
not depend on the buffer. -/
theorem trimLine_signals (hsig : Signals attribs) {bytes : List UInt8} (hne : bytes ≠ []) :
    ∃ before, before.length + 1 = bytes.length ∧ ∀ b : InputBuffer,
      (trimLine attribs bytes.length (b.put bytes)).buf =
        before ++ 0 :: b.buf.drop bytes.length := by
  obtain ⟨before, last, rfl⟩ := (List.eq_nil_or_concat' bytes).resolve_left hne
  have hlen : (before ++ [last]).length = before.length + 1 := by
    rw [List.length_append, List.length_singleton]
  have hzero : ∀ b : InputBuffer,
      ((b.put (before ++ [last])).store (((before ++ [last]).length : Int) - 1) 0).buf =
        before ++ 0 :: b.buf.drop (before ++ [last]).length := by
    intro b
    have hput : (b.put (before ++ [last])).buf =
        before ++ last :: b.buf.drop (before ++ [last]).length := by
      rw [InputBuffer.put_buf, List.append_assoc]
      rfl
    exact InputBuffer.store_buf hput (by omega) 0
  simp only [trimLine, if_pos (show attribs.lFlags &&& winIsig ≠ 0 from hsig)]
  split_ifs with hcr
  · rcases List.eq_nil_or_concat' before with rfl | ⟨front, cr, rfl⟩
    · refine ⟨[], hlen.symm, fun b => ?_⟩
      rw [InputBuffer.store_buf_of_neg (by simp)]
      exact hzero b
    · refine ⟨front ++ [10], by simp, fun b => ?_⟩
      have hcell := (hzero b).trans (List.append_assoc front [cr] _)
      have hoffset : ((front ++ [cr] ++ [last]).length : Int) - 1 - 1 = front.length := by
        rw [hlen, List.length_append, List.length_singleton]
        omega
      exact (InputBuffer.store_buf hcell hoffset 10).trans (List.append_assoc front [10] _).symm
  · exact ⟨before, hlen.symm, hzero⟩

/-- Without signals no byte is lost. -/
theorem lineFill_unsignalled (hsig : ¬ Signals attribs) (b : InputBuffer) (p : Piece) :
    ∃ bytes, bytes.length = p.bytes.length ∧ (0 ∉ p.bytes → 0 ∉ bytes) ∧
      (lineFill attribs b p).buf = bytes ++ b.buf.drop p.bytes.length := by
  rw [lineFill_buf, trimLine, if_neg (show ¬ attribs.lFlags &&& winIsig ≠ 0 from hsig)]
  dsimp only
  split_ifs with hcr
  · obtain ⟨before, last, hbytes⟩ := (List.eq_nil_or_concat' p.bytes).resolve_left p.bytes_ne
    have hlen : p.bytes.length = before.length + 1 := by
      rw [hbytes, List.length_append, List.length_singleton]
    have hput : (b.put p.bytes).buf = before ++ last :: b.buf.drop p.bytes.length := by
      rw [InputBuffer.put_buf, hbytes, List.append_assoc]
      rfl
    refine ⟨before ++ [10], by simp [hlen], fun hzero hmem => ?_, ?_⟩
    · rw [hbytes] at hzero
      simp_all
    · rw [InputBuffer.store_buf hput (by omega), List.append_assoc]
      rfl
  · exact ⟨p.bytes, rfl, id, InputBuffer.put_buf _ _⟩

/-- With neither signals nor mapping the piece is all that is put there. -/
theorem lineFill_plain (hsig : ¬ Signals attribs) (hcr : ¬ MapsCr attribs) (b : InputBuffer)
    (p : Piece) : lineFill attribs b p =
      { buf := p.bytes ++ b.buf.drop p.bytes.length, input := 0, index := 0,
        inside := b.inside } := by
  rw [← InputBuffer.put_buf, ← put_piece_inside b p, lineFill, trimLine,
    if_neg (show ¬ attribs.lFlags &&& winIsig ≠ 0 from hsig)]
  dsimp only
  rw [if_neg (show ¬ attribs.iFlags &&& winIcrnl ≠ 0 from hcr)]
  rfl

/-- With both a line that came in one piece ends in a newline and a zero. -/
theorem lineFill_trimmed (hsig : Signals attribs) (hcr : MapsCr attribs) (b : InputBuffer)
    {p : Piece} {line : List UInt8} (hbytes : p.bytes = line ++ [13, 10]) :
    lineFill attribs b p =
      { buf := line ++ 10 :: 0 :: b.buf.drop p.bytes.length, input := 0, index := 0,
        inside := b.inside } := by
  have hlen : p.bytes.length = line.length + 2 := by rw [hbytes, List.length_append]; rfl
  have hle := p.length_le
  have hput : (b.put p.bytes).buf = (line ++ [13]) ++ 10 :: b.buf.drop p.bytes.length := by
    rw [InputBuffer.put_buf, hbytes]
    simp
  have hzero := InputBuffer.store_buf hput
    (show (p.bytes.length : Int) - 1 = (line ++ [13]).length by simp [hlen]; omega) 0
  rw [List.append_assoc] at hzero
  have hnl := InputBuffer.store_buf hzero
    (show (p.bytes.length : Int) - 1 - 1 = line.length by omega) 10
  have hin : (p.bytes.length : Int) - 1 < inputBufSize := by
    show (p.bytes.length : Int) - 1 < 257
    have : p.bytes.length ≤ 255 := p.length_le
    omega
  rw [lineFill, trimLine, if_pos (show attribs.lFlags &&& winIsig ≠ 0 from hsig)]
  dsimp only
  rw [if_pos (show attribs.iFlags &&& winIcrnl ≠ 0 from hcr)]
  unfold InputBuffer.rewind
  dsimp only
  rw [hnl, InputBuffer.store_inside (by omega), InputBuffer.store_inside (by omega),
    put_piece_inside]
  rfl

/-! ### All the pieces -/

/-- The bytes that pieces have. -/
def size (pieces : List Piece) : Nat := (pieces.map (·.bytes.length)).sum

theorem zero_not_mem_fillings (b : InputBuffer) (pieces : List Piece) :
    0 ∉ fillings attribs b pieces := by
  induction pieces generalizing b with
  | nil => exact List.not_mem_nil
  | cons p pieces ih =>
      rw [fillings, List.mem_append, not_or]
      exact ⟨InputBuffer.zero_not_mem_pending _, ih _⟩

/-- With signals every piece loses a byte. -/
theorem fillings_signals (hsig : Signals attribs) (b : InputBuffer) (pieces : List Piece) :
    (fillings attribs b pieces).length + pieces.length ≤ size pieces := by
  induction pieces generalizing b with
  | nil => exact Nat.le_refl 0
  | cons p pieces ih =>
      obtain ⟨before, hlen, hbuf⟩ := trimLine_signals hsig p.bytes_ne
      have hpending : (lineFill attribs b p).pending.length ≤ before.length := by
        rw [lineFill_pending, lineFill_buf, hbuf, text_append_zero_eq]
        exact length_text_le before
      have hrest := ih (lineFill attribs b p)
      rw [fillings, List.length_append, List.length_cons, size, List.map_cons, List.sum_cons]
      rw [size] at hrest
      omega

/-- Without signals no piece loses a byte. -/
theorem le_fillings (hsig : ¬ Signals attribs) (b : InputBuffer) {pieces : List Piece}
    (hzero : ∀ p ∈ pieces, 0 ∉ p.bytes) : size pieces ≤ (fillings attribs b pieces).length := by
  induction pieces generalizing b with
  | nil => exact Nat.le_refl 0
  | cons p pieces ih =>
      obtain ⟨bytes, hlen, hbytes, hbuf⟩ := lineFill_unsignalled hsig b p
      have hpending : p.bytes.length ≤ (lineFill attribs b p).pending.length := by
        rw [lineFill_pending, hbuf, text_append_of_not_mem (hbytes (hzero p List.mem_cons_self)),
          List.length_append, hlen]
        exact Nat.le_add_right _ _
      have hrest := ih (lineFill attribs b p) fun q hq => hzero q (List.mem_cons_of_mem _ hq)
      rw [fillings, List.length_append, size, List.map_cons, List.sum_cons]
      rw [size] at hrest
      omega

/-- Pieces that never get shorter show nothing of each other. -/
theorem fillings_plain (hsig : ¬ Signals attribs) (hcr : ¬ MapsCr attribs) {b : InputBuffer}
    {pieces : List Piece} (hzero : ∀ p ∈ pieces, 0 ∉ p.bytes)
    (hb : ∀ p ∈ pieces, b.buf.length ≤ p.bytes.length)
    (hsorted : (pieces.map (·.bytes.length)).Pairwise (· ≤ ·)) :
    fillings attribs b pieces = pieces.flatMap Piece.bytes ∧
      (fillAll attribs b pieces).inside = b.inside := by
  induction pieces generalizing b with
  | nil => exact ⟨rfl, rfl⟩
  | cons p pieces ih =>
      have hdrop : b.buf.drop p.bytes.length = [] :=
        List.drop_eq_nil_of_le (hb p List.mem_cons_self)
      have hfill := lineFill_plain hsig hcr b p
      rw [hdrop, List.append_nil] at hfill
      obtain ⟨hfirst, hrest⟩ := List.pairwise_cons.mp hsorted
      have hnext := ih (b := lineFill attribs b p) (fun q hq => hzero q (List.mem_cons_of_mem _ hq))
        (fun q hq => by
          rw [hfill]
          exact hfirst _ (List.mem_map_of_mem hq)) hrest
      rw [fillings, fillAll, List.foldl_cons, List.flatMap_cons, hnext.1, lineFill_pending]
      refine ⟨?_, hnext.2.trans (by rw [hfill])⟩
      rw [hfill, text_of_not_mem (hzero p List.mem_cons_self)]

/-- Pieces that show nothing of each other never get shorter. -/
theorem sorted_of_fillings (hsig : ¬ Signals attribs) (hcr : ¬ MapsCr attribs) {b : InputBuffer}
    {pieces : List Piece} (hb : 0 ∉ b.buf) (hzero : ∀ p ∈ pieces, 0 ∉ p.bytes)
    (hlen : (fillings attribs b pieces).length ≤ size pieces) :
    (∀ p ∈ pieces, b.buf.length ≤ p.bytes.length) ∧
      (pieces.map (·.bytes.length)).Pairwise (· ≤ ·) := by
  induction pieces generalizing b with
  | nil => simp
  | cons p pieces ih =>
      have hp := hzero p List.mem_cons_self
      have hpieces : ∀ q ∈ pieces, 0 ∉ q.bytes := fun q hq => hzero q (List.mem_cons_of_mem _ hq)
      have hfill := lineFill_plain hsig hcr b p
      have hbuf : 0 ∉ (lineFill attribs b p).buf := by
        rw [hfill, List.mem_append, not_or]
        exact ⟨hp, fun hmem => hb (List.mem_of_mem_drop hmem)⟩
      -- a line that is shorter than the one before leaves the end of it in the buffer
      have hpending : (lineFill attribs b p).pending.length =
          p.bytes.length + (b.buf.length - p.bytes.length) := by
        rw [lineFill_pending, text_of_not_mem hbuf, hfill, List.length_append, List.length_drop]
      have hleast := le_fillings hsig (lineFill attribs b p) hpieces
      rw [fillings, List.length_append, size, List.map_cons, List.sum_cons, hpending] at hlen
      rw [size] at hleast
      have hshort : b.buf.length ≤ p.bytes.length := by omega
      obtain ⟨hrest, hsorted⟩ := ih hbuf hpieces (by rw [size]; omega)
      have hnext : (lineFill attribs b p).buf.length = p.bytes.length := by
        rw [hfill, List.length_append, List.length_drop]
        omega
      rw [hnext] at hrest
      constructor
      · intro q hq
        rcases List.mem_cons.mp hq with rfl | hq
        · exact hshort
        · exact Nat.le_trans hshort (hrest q hq)
      · refine List.pairwise_cons.mpr ⟨fun n hn => ?_, hsorted⟩
        obtain ⟨q, hq, rfl⟩ := List.mem_map.mp hn
        exact hrest q hq

/-! ### Lines -/

theorem size_append (pieces pieces' : List Piece) :
    size (pieces ++ pieces') = size pieces + size pieces' := by
  rw [size, List.map_append, List.sum_append]
  rfl

theorem length_flatMap_bytes (pieces : List Piece) :
    (pieces.flatMap Piece.bytes).length = size pieces := List.length_flatMap

theorem TypedLine.size_pieces (line : TypedLine) : size line.pieces = line.text.length + 2 := by
  rw [← length_flatMap_bytes, line.pieces_eq, List.length_append]
  rfl

theorem TypedLine.pieces_ne (line : TypedLine) : line.pieces ≠ [] := by
  intro h
  have hsize := line.size_pieces
  rw [h] at hsize
  exact absurd hsize (Nat.zero_ne_add_one _)

theorem TypedLine.zero_not_mem {line : TypedLine} (h : 0 ∉ line.text) :
    ∀ p ∈ line.pieces, 0 ∉ p.bytes := by
  intro p hp hmem
  have hline : 0 ∈ line.pieces.flatMap Piece.bytes := List.mem_flatMap.mpr ⟨p, hp, hmem⟩
  rw [line.pieces_eq, List.mem_append] at hline
  exact hline.elim h (by decide)

theorem zero_not_mem_pieces {typed : List TypedLine} (h : ∀ line ∈ typed, 0 ∉ line.text) :
    ∀ p ∈ typed.flatMap TypedLine.pieces, 0 ∉ p.bytes := by
  intro p hp
  obtain ⟨line, hline, hp⟩ := List.mem_flatMap.mp hp
  exact TypedLine.zero_not_mem (h line hline) p hp

/-- Every line has two bytes more than its text has. -/
theorem size_typed (typed : List TypedLine) :
    size (typed.flatMap TypedLine.pieces) =
      (typed.flatMap TypedLine.text).length + 2 * typed.length := by
  induction typed with
  | nil => rfl
  | cons line typed ih =>
      rw [List.flatMap_cons, size_append, ih, line.size_pieces, List.flatMap_cons,
        List.length_append, List.length_cons]
      omega

theorem expected_cons (line : TypedLine) (typed : List TypedLine) :
    expected attribs (line :: typed) =
      (line.text ++ if MapsCr attribs then [10] else [13, 10]) ++ expected attribs typed := rfl

theorem length_expected (typed : List TypedLine) :
    (expected attribs typed).length = (typed.flatMap TypedLine.text).length +
      (if MapsCr attribs then 1 else 2) * typed.length := by
  induction typed with
  | nil => split_ifs <;> rfl
  | cons line typed ih =>
      rw [expected_cons, List.length_append, ih, List.flatMap_cons, List.length_append,
        List.length_append, List.length_cons]
      split_ifs
      · show line.text.length + 1 + _ = _
        omega
      · show line.text.length + 2 + _ = _
        omega

/-- What is read never has a zero, so that no text may have one. -/
theorem zero_not_mem_of_expected {typed : List TypedLine} (h : 0 ∉ expected attribs typed) :
    ∀ line ∈ typed, 0 ∉ line.text := by
  intro line hline hmem
  exact h (List.mem_flatMap.mpr ⟨line, hline, List.mem_append_left _ hmem⟩)

theorem length_le_pieces (typed : List TypedLine) :
    typed.length ≤ (typed.flatMap TypedLine.pieces).length := by
  induction typed with
  | nil => exact Nat.le_refl 0
  | cons line typed ih =>
      have hpos : 0 < line.pieces.length := List.length_pos_iff.mpr line.pieces_ne
      rw [List.length_cons, List.flatMap_cons, List.length_append]
      omega

/-- As many pieces as lines are one for each. -/
theorem pieces_length_eq_one {typed : List TypedLine}
    (h : (typed.flatMap TypedLine.pieces).length ≤ typed.length) :
    ∀ line ∈ typed, line.pieces.length = 1 := by
  induction typed with
  | nil => exact fun line hline => absurd hline List.not_mem_nil
  | cons line typed ih =>
      have hpos : 0 < line.pieces.length := List.length_pos_iff.mpr line.pieces_ne
      have hrest := length_le_pieces typed
      rw [List.length_cons, List.flatMap_cons, List.length_append] at h
      intro other hother
      rcases List.mem_cons.mp hother with rfl | hother
      · omega
      · exact ih (by omega) other hother

/-- Lines that came in one piece each are trimmed as they should be. -/
theorem fillings_trimmed (hsig : Signals attribs) (hcr : MapsCr attribs) (b : InputBuffer)
    {typed : List TypedLine} (hzero : ∀ line ∈ typed, 0 ∉ line.text)
    (hone : ∀ line ∈ typed, line.pieces.length = 1) :
    fillings attribs b (typed.flatMap TypedLine.pieces) = expected attribs typed ∧
      (fillAll attribs b (typed.flatMap TypedLine.pieces)).inside = b.inside := by
  induction typed generalizing b with
  | nil => exact ⟨rfl, rfl⟩
  | cons line typed ih =>
      obtain ⟨p, hpieces⟩ := List.length_eq_one_iff.mp (hone line List.mem_cons_self)
      have hbytes : p.bytes = line.text ++ [13, 10] := by
        have heq := line.pieces_eq
        rwa [hpieces, List.flatMap_singleton] at heq
      have hfill := lineFill_trimmed hsig hcr b hbytes
      have hpending : (lineFill attribs b p).pending = line.text ++ [10] := by
        have hnl : 0 ∉ line.text ++ [10] := by
          rw [List.mem_append, not_or]
          exact ⟨hzero line List.mem_cons_self, by decide⟩
        rw [lineFill_pending, hfill, List.append_cons]
        exact text_append_zero hnl _
      obtain ⟨hrest, hinside⟩ := ih (lineFill attribs b p)
        (fun other hother => hzero other (List.mem_cons_of_mem _ hother))
        (fun other hother => hone other (List.mem_cons_of_mem _ hother))
      rw [List.flatMap_cons, hpieces, List.singleton_append, fillings, fillAll, List.foldl_cons,
        hpending, hrest, expected_cons, if_pos hcr]
      refine ⟨rfl, hinside.trans ?_⟩
      rw [hfill]

theorem expected_plain (hcr : ¬ MapsCr attribs) (typed : List TypedLine) :
    expected attribs typed = (typed.flatMap TypedLine.pieces).flatMap Piece.bytes := by
  induction typed with
  | nil => rfl
  | cons line typed ih =>
      rw [expected_cons, ih, if_neg hcr, List.flatMap_cons, List.flatMap_append, line.pieces_eq]

end

/-- The lines that come out of the buffer as they should: either both modes are
set and every line came in one piece, or none of the two is set and the pieces
never get shorter. -/
def LinesFit (attribs : Termio) (typed : List TypedLine) : Prop :=
  typed = [] ∨ (∀ line ∈ typed, 0 ∉ line.text) ∧
    ((Signals attribs ∧ MapsCr attribs ∧ ∀ line ∈ typed, line.pieces.length = 1) ∨
      (¬ Signals attribs ∧ ¬ MapsCr attribs ∧
        ((typed.flatMap TypedLine.pieces).map (·.bytes.length)).Pairwise (· ≤ ·)))

theorem linesFit_of_fillings {attribs : Termio} {typed : List TypedLine}
    (h : fillings attribs Input.boot.buffer (typed.flatMap TypedLine.pieces) =
      expected attribs typed) : LinesFit attribs typed := by
  have hzero : ∀ line ∈ typed, 0 ∉ line.text :=
    zero_not_mem_of_expected (h ▸ zero_not_mem_fillings _ _)
  have hlen := congrArg List.length h
  rw [length_expected] at hlen
  have hsize := size_typed typed
  have hcount := length_le_pieces typed
  -- The length of what is delivered tells the four modes apart.
  by_cases hsig : Signals attribs
  · have hloss := fillings_signals hsig Input.boot.buffer (typed.flatMap TypedLine.pieces)
    by_cases hcr : MapsCr attribs
    · rw [if_pos hcr] at hlen
      exact .inr ⟨hzero, .inl ⟨hsig, hcr, pieces_length_eq_one (by omega)⟩⟩
    · rw [if_neg hcr] at hlen
      exact .inl (List.length_eq_zero_iff.mp (by omega))
  · have hpieces := zero_not_mem_pieces hzero
    have hgain := le_fillings hsig Input.boot.buffer hpieces
    by_cases hcr : MapsCr attribs
    · rw [if_pos hcr] at hlen
      exact .inl (List.length_eq_zero_iff.mp (by omega))
    · rw [if_neg hcr] at hlen
      have hsorted := sorted_of_fillings hsig hcr (b := Input.boot.buffer) List.not_mem_nil hpieces
        (by omega)
      exact .inr ⟨hzero, .inr ⟨hsig, hcr, hsorted.2⟩⟩

theorem fillings_of_linesFit {attribs : Termio} {typed : List TypedLine}
    (h : LinesFit attribs typed) :
    fillings attribs Input.boot.buffer (typed.flatMap TypedLine.pieces) =
        expected attribs typed ∧
      (fillAll attribs Input.boot.buffer (typed.flatMap TypedLine.pieces)).inside = true := by
  rcases h with rfl | ⟨hzero, ⟨hsig, hcr, hone⟩ | ⟨hsig, hcr, hsorted⟩⟩
  · exact ⟨rfl, rfl⟩
  · exact fillings_trimmed hsig hcr _ hzero hone
  · rw [expected_plain hcr]
    exact fillings_plain hsig hcr (zero_not_mem_pieces hzero) (fun p _ => Nat.zero_le _) hsorted

/-- Reading delivers the lines that were typed exactly when they fit. -/
theorem linesDelivered_iff {attribs : Termio} (hline : LineMode attribs)
    (spill : List UInt16 → List UInt8) (typed : List TypedLine) :
    LinesDelivered spill attribs typed ↔ LinesFit attribs typed := by
  rw [linesDelivered_iff_fillings hline]
  exact ⟨fun h => linesFit_of_fillings h.1, fillings_of_linesFit⟩

/-- A terminal with echo, signals and mapping. -/
def cooked : Termio := ⟨winIcrnl, winEcho ||| winIsig ||| winIcanon⟩

def ls : TypedLine where
  text := [108, 115]
  pieces := [⟨[108, 115, 13, 10], false, by decide, by decide⟩]
  lf_not_mem := by decide
  pieces_eq := rfl

theorem linesDelivered_iff_ls :
    LineMode cooked ∧ (LinesDelivered (fun _ => []) cooked [ls] ↔ LinesFit cooked [ls]) :=
  ⟨by unfold LineMode; decide, linesDelivered_iff (by unfold LineMode; decide) _ _⟩

/-- A line of which the console hands over the newline alone. -/
def longLine (n : Nat) (h : n + 1 ≤ winMaxInput) : TypedLine where
  text := List.replicate n 97
  pieces :=
    [⟨List.replicate n 97 ++ [13], false, by simp, by simpa using h⟩,
      ⟨[10], false, by decide, by decide⟩]
  lf_not_mem := by simp
  pieces_eq := by simp

/-- The newline of a line of 254 characters is trimmed in front of the buffer. -/
theorem long_line_lost :
    ¬ LinesDelivered (fun _ => []) cooked [longLine 254 (Nat.le_refl _)] := by
  rw [linesDelivered_iff_fillings (by unfold LineMode; decide)]
  rintro ⟨hfillings, -⟩
  rcases linesFit_of_fillings hfillings with h | ⟨-, ⟨-, -, hone⟩ | ⟨hsig, -, -⟩⟩
  · exact absurd h (List.cons_ne_nil _ _)
  · exact absurd (hone _ List.mem_cons_self) (show ¬ (2 = 1) by decide)
  · exact hsig (by unfold Signals; decide)

end MinC.Vfs
