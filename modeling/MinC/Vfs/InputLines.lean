import MinC.Vfs.Input
import MinC.Lib.Runs

/-!
Reading lines.

In line mode the console hands over a line in pieces, each of which fills the
buffer. What reads deliver is what the fillings put into the buffer, one after
the other, whatever the sizes of the reads and whatever signals come in
between. A filling is the piece that was handed over only if the piece is a
whole line, or if no piece is trimmed and none leaves behind what a longer one
has left there.
-/

namespace MinC.Vfs

open MinC.Lib

/-! ### A process that reads -/

def Outcome.bytes : Outcome → List UInt8
  | .done bytes => bytes
  | .failed => []
  | .blocked => []

/-- The state of the input, the waits that are to come, and what was delivered
so far. -/
structure Reader where
  delivered : List UInt8
  state : Input
  waits : List Wait

def Reader.read (spill : List UInt16 → List UInt8) (attribs : Termio) (r : Reader)
    (size : UInt32) : Reader :=
  let o := inputRead spill attribs size r.waits r.state
  { delivered := r.delivered ++ o.1.bytes, state := o.2.1, waits := o.2.2 }

/-- The input of a process that has read nothing. -/
def Input.boot : Input where
  buffer := { buf := [], input := 0, index := 0, inside := true }
  clipboard := none

/-! ### Lines -/

/-- A piece of a line, and whether a signal is pending when it comes. -/
structure Piece where
  bytes : List UInt8
  signal : Bool
  bytes_ne : bytes ≠ []
  length_le : bytes.length ≤ winMaxInput

/-- A line that was typed, and the pieces it comes in. -/
structure TypedLine where
  text : List UInt8
  pieces : List Piece
  lf_not_mem : 10 ∉ text
  pieces_eq : pieces.flatMap Piece.bytes = text ++ [13, 10]

def Piece.wait (p : Piece) : Wait where
  failed := false
  line := some p.bytes
  event := none
  signal := p.signal

/-- The mode that lines are read in. -/
def LineMode (attribs : Termio) : Prop := inputMode attribs &&& enableLineInput ≠ 0

def Signals (attribs : Termio) : Prop := attribs.lFlags &&& winIsig ≠ 0

def MapsCr (attribs : Termio) : Prop := attribs.iFlags &&& winIcrnl ≠ 0

instance (attribs : Termio) : Decidable (Signals attribs) := inferInstanceAs (Decidable (_ ≠ _))

instance (attribs : Termio) : Decidable (MapsCr attribs) := inferInstanceAs (Decidable (_ ≠ _))

/-- What reading the lines should deliver. -/
def expected (attribs : Termio) (typed : List TypedLine) : List UInt8 :=
  typed.flatMap fun line => line.text ++ if MapsCr attribs then [10] else [13, 10]

/-! ### Fillings -/

section
variable (attribs : Termio)

/-- The buffer after a piece. -/
def lineFill (b : InputBuffer) (p : Piece) : InputBuffer :=
  { (trimLine attribs p.bytes.length (b.put p.bytes)).rewind with index := 0 }

def fillAll (b : InputBuffer) (pieces : List Piece) : InputBuffer :=
  pieces.foldl (lineFill attribs) b

/-- What the fillings put into the buffer, one after the other. -/
def fillings (b : InputBuffer) : List Piece → List UInt8
  | [] => []
  | p :: pieces => (lineFill attribs b p).pending ++ fillings (lineFill attribs b p) pieces

/-- What is still to be delivered. -/
def whole (b : InputBuffer) (pieces : List Piece) : List UInt8 :=
  b.pending ++ fillings attribs b pieces

variable {attribs}

theorem inputWaitChar_piece (hline : LineMode attribs) (p : Piece) (s : Input) :
    inputWaitChar attribs p.wait s =
      (true, { s with buffer := lineFill attribs s.buffer p }) := by
  have hlen : ¬ p.bytes.length = 0 := fun h => p.bytes_ne (List.length_eq_zero_iff.mp h)
  have hmode : inputMode attribs &&& enableLineInput ≠ 0 := hline
  unfold inputWaitChar inputReadLine Piece.wait
  simp only [Bool.false_eq_true, if_false, if_pos hmode, if_neg hlen]
  rfl

/-- A filling does not depend on how far the buffer was read. -/
theorem lineFill_congr {b b' : InputBuffer} (hbuf : b.buf = b'.buf)
    (hinside : b.inside = b'.inside) (p : Piece) : lineFill attribs b p = lineFill attribs b' p := by
  obtain ⟨buf, input, index, inside⟩ := b
  obtain ⟨buf', input', index', inside'⟩ := b'
  obtain rfl : buf = buf' := hbuf
  obtain rfl : inside = inside' := hinside
  unfold lineFill trimLine
  dsimp only
  split_ifs <;> rfl

theorem fillings_congr {b b' : InputBuffer} (hbuf : b.buf = b'.buf)
    (hinside : b.inside = b'.inside) (pieces : List Piece) :
    fillings attribs b pieces = fillings attribs b' pieces := by
  cases pieces with
  | nil => rfl
  | cons p pieces => rw [fillings, fillings, lineFill_congr hbuf hinside]

theorem fillAll_inside_congr {b b' : InputBuffer} (hbuf : b.buf = b'.buf)
    (hinside : b.inside = b'.inside) (pieces : List Piece) :
    (fillAll attribs b pieces).inside = (fillAll attribs b' pieces).inside := by
  cases pieces with
  | nil => exact hinside
  | cons p pieces => rw [fillAll, fillAll, List.foldl_cons, List.foldl_cons,
      lineFill_congr hbuf hinside]

/-! ### What a read does -/

/-- What a read leaves of what there was to deliver. -/
structure Leaves (attribs : Termio) (b : InputBuffer) (pieces : List Piece)
    (o : Outcome × Input × List Wait) (rest : List Piece) : Prop where
  waits_eq : o.2.2 = rest.map Piece.wait
  clipboard_eq : o.2.1.clipboard = none
  whole_eq : o.1.bytes ++ whole attribs o.2.1.buffer rest = whole attribs b pieces
  inside_eq : (fillAll attribs o.2.1.buffer rest).inside = (fillAll attribs b pieces).inside
  length_le : rest.length ≤ pieces.length

/-- Nothing is taken out of a buffer that has nothing. -/
theorem copy_eq_nil {b : InputBuffer} {size : Nat} (hsize : size ≠ 0)
    (h : (b.copy size).1 = []) : b.pending = [] ∧ (b.copy size).2 = b := by
  have hbytes := (InputBuffer.copy_spec size b).1
  rw [h] at hbytes
  exact ⟨(List.take_eq_nil_iff.mp hbytes.symm).resolve_left hsize, InputBuffer.copy_of_nil h⟩

theorem readLoop_leaves (hline : LineMode attribs) (spill : List UInt16 → List UInt8)
    (size : Nat) (pieces : List Piece) (b : InputBuffer) :
    ∃ rest, Leaves attribs b pieces
        (readLoop spill attribs size (pieces.map Piece.wait) ⟨b, none⟩) rest ∧
      (size ≠ 0 → b.pending ≠ [] ∨ pieces ≠ [] →
        (readLoop spill attribs size (pieces.map Piece.wait) ⟨b, none⟩).1.bytes ≠ [] ∨
          rest.length < pieces.length) := by
  -- over what is typed in; each turn fetches one piece, and only if the buffer is empty
  induction pieces generalizing b with
  | nil =>
      rw [List.map_nil, readLoop]
      dsimp only
      by_cases hdone : size = 0 ∨ (b.copy size).1 ≠ []
      · rw [if_pos hdone]
        obtain ⟨-, -, hstate⟩ := InputBuffer.copy_spec size b
        refine ⟨[], ⟨rfl, rfl, ?_, by rw [hstate]; rfl, Nat.le_refl _⟩, fun hsize _ => ?_⟩
        · show (b.copy size).1 ++ ((b.copy size).2.pending ++ []) = b.pending ++ []
          rw [← List.append_assoc, InputBuffer.copy_append]
        · exact .inl (hdone.resolve_left hsize)
      · obtain ⟨hsize, hnil⟩ := not_or.mp hdone
        obtain ⟨hpending, hsame⟩ := copy_eq_nil hsize (not_not.mp hnil)
        rw [if_neg hdone, hsame]
        refine ⟨[], ⟨rfl, rfl, rfl, rfl, Nat.le_refl _⟩, fun _ hmore => ?_⟩
        exact absurd hmore (not_or.mpr ⟨not_not.mpr hpending, not_not.mpr rfl⟩)
  | cons p pieces ih =>
      rw [List.map_cons, readLoop]
      dsimp only
      by_cases hdone : size = 0 ∨ (b.copy size).1 ≠ []
      · rw [if_pos hdone]
        obtain ⟨-, -, hstate⟩ := InputBuffer.copy_spec size b
        have hbuf : (b.copy size).2.buf = b.buf := by rw [hstate]
        have hinside : (b.copy size).2.inside = b.inside := by rw [hstate]
        refine ⟨p :: pieces, ⟨rfl, rfl, ?_, fillAll_inside_congr hbuf hinside _, Nat.le_refl _⟩,
          fun hsize _ => .inl (hdone.resolve_left hsize)⟩
        show (b.copy size).1 ++ ((b.copy size).2.pending ++ _) = b.pending ++ _
        rw [← List.append_assoc, InputBuffer.copy_append, fillings_congr hbuf hinside]
      · obtain ⟨hsize, hnil⟩ := not_or.mp hdone
        obtain ⟨hpending, hsame⟩ := copy_eq_nil hsize (not_not.mp hnil)
        rw [if_neg hdone, hsame]
        have hpaste : paste spill size ((none.getD [] : List UInt16).length + 1) ⟨b, none⟩ =
            ([], ⟨b, none⟩) := rfl
        rw [hpaste, if_neg (not_not.mpr rfl), inputWaitChar_piece hline]
        have hwhole : whole attribs b (p :: pieces) = whole attribs (lineFill attribs b p) pieces := by
          rw [whole, hpending]
          rfl
        -- a signal ends the read with the rest of the pieces still to come
        by_cases hsignal : (!true) = true ∨ p.wait.signal = true
        · rw [if_pos hsignal]
          exact ⟨pieces, ⟨rfl, rfl, hwhole.symm, rfl, Nat.le_succ _⟩,
            fun _ _ => .inr (Nat.lt_succ_self _)⟩
        · rw [if_neg hsignal]
          obtain ⟨rest, hleaves, -⟩ := ih (lineFill attribs b p)
          refine ⟨rest, ⟨hleaves.waits_eq, hleaves.clipboard_eq, ?_, hleaves.inside_eq, ?_⟩,
            fun _ _ => .inr ?_⟩
          · rw [hwhole]
            exact hleaves.whole_eq
          · exact Nat.le_succ_of_le hleaves.length_le
          · exact Nat.lt_succ_of_le hleaves.length_le

/-! ### What any number of reads do -/

/-- What was delivered and what is still to be delivered are given bytes. -/
structure Holds (attribs : Termio) (bytes : List UInt8) (inside : Bool) (pieces : List Piece)
    (r : Reader) : Prop where
  waits_eq : r.waits = pieces.map Piece.wait
  clipboard_eq : r.state.clipboard = none
  whole_eq : r.delivered ++ whole attribs r.state.buffer pieces = bytes
  inside_eq : (fillAll attribs r.state.buffer pieces).inside = inside

variable {bytes : List UInt8} {inside : Bool}

theorem read_holds (hline : LineMode attribs) (spill : List UInt16 → List UInt8)
    {pieces : List Piece} {r : Reader} (h : Holds attribs bytes inside pieces r) (size : UInt32) :
    ∃ rest, Holds attribs bytes inside rest (r.read spill attribs size) ∧
      rest.length ≤ pieces.length ∧
      (size = 1 → r.state.buffer.pending ≠ [] ∨ pieces ≠ [] →
        r.delivered.length < (r.read spill attribs size).delivered.length ∨
          rest.length < pieces.length) := by
  obtain ⟨delivered, ⟨buffer, clipboard⟩, waits⟩ := r
  obtain ⟨hwaits, hclipboard, hwhole, hinside⟩ := h
  obtain rfl : waits = pieces.map Piece.wait := hwaits
  obtain rfl : clipboard = none := hclipboard
  obtain ⟨rest, hleaves, hmore⟩ := readLoop_leaves hline spill
    (if size < 0x80000000 then size.toNat else 0) pieces buffer
  rw [← inputRead_eq] at hleaves hmore
  refine ⟨rest, ⟨hleaves.waits_eq, hleaves.clipboard_eq, ?_, ?_⟩, hleaves.length_le, ?_⟩
  · show (delivered ++ _) ++ _ = bytes
    rw [List.append_assoc]
    exact (congrArg (delivered ++ ·) hleaves.whole_eq).trans hwhole
  · exact hleaves.inside_eq.trans hinside
  · rintro rfl hne
    refine (hmore (by decide) hne).imp_left fun hbytes => ?_
    show delivered.length < (delivered ++ _).length
    rw [List.length_append]
    exact Nat.lt_add_of_pos_right (List.length_pos_iff.mpr hbytes)

theorem run_holds (hline : LineMode attribs) (spill : List UInt16 → List UInt8)
    {pieces : List Piece} {r : Reader} (h : Holds attribs bytes inside pieces r)
    (sizes : List UInt32) :
    ∃ rest, Holds attribs bytes inside rest (run (Reader.read spill attribs) r sizes) := by
  induction sizes generalizing r pieces with
  | nil => exact ⟨pieces, h⟩
  | cons size sizes ih =>
      obtain ⟨rest, hrest, -⟩ := read_holds hline spill h size
      exact ih hrest

/-- There is nothing left to read. -/
def Reader.Drained (r : Reader) : Prop := r.waits = [] ∧ r.state.buffer.pending = []

/-- Enough reads of one byte leave nothing. -/
theorem exists_drained (hline : LineMode attribs) (spill : List UInt16 → List UInt8)
    {pieces : List Piece} {r : Reader} (h : Holds attribs bytes inside pieces r) :
    ∃ sizes, (run (Reader.read spill attribs) r sizes).Drained := by
  by_cases hmore : r.state.buffer.pending ≠ [] ∨ pieces ≠ []
  · obtain ⟨rest, hrest, hle, hprogress⟩ := read_holds hline spill h 1
    have hlen : (r.read spill attribs 1).delivered.length +
        (whole attribs (r.read spill attribs 1).state.buffer rest).length =
        r.delivered.length + (whole attribs r.state.buffer pieces).length := by
      rw [← List.length_append, ← List.length_append, hrest.whole_eq, h.whole_eq]
    have hkept : r.delivered.length ≤ (r.read spill attribs 1).delivered.length :=
      (List.prefix_append _ _).length_le
    have hdec := hprogress rfl hmore
    obtain ⟨sizes, hsizes⟩ := exists_drained hline spill hrest
    exact ⟨1 :: sizes, hsizes⟩
  · obtain ⟨hpending, hpieces⟩ := not_or.mp hmore
    refine ⟨[], ?_, not_not.mp hpending⟩
    rw [run_nil, h.waits_eq, not_not.mp hpieces]
    rfl
termination_by (whole attribs r.state.buffer pieces).length + pieces.length
decreasing_by omega

theorem lineFill_inside (b : InputBuffer) (p : Piece) (h : (lineFill attribs b p).inside = true) :
    b.inside = true := by
  unfold lineFill trimLine InputBuffer.store InputBuffer.put InputBuffer.rewind at h
  dsimp only at h
  split_ifs at h <;> simp_all

theorem inside_of_fillAll {b : InputBuffer} {pieces : List Piece}
    (h : (fillAll attribs b pieces).inside = true) : b.inside = true := by
  induction pieces generalizing b with
  | nil => exact h
  | cons p pieces ih => exact lineFill_inside b p (ih h)

end

/-- A process that reads lines in its first run of reads. -/
def lineReader (typed : List TypedLine) : Reader where
  delivered := []
  state := .boot
  waits := (typed.flatMap TypedLine.pieces).map Piece.wait

/-- Reads of any sizes deliver what they should: nothing else, all of it when
there is nothing left to read, and without a store outside of the buffer. -/
def LinesDelivered (spill : List UInt16 → List UInt8) (attribs : Termio)
    (typed : List TypedLine) : Prop :=
  ∀ sizes, let r := run (Reader.read spill attribs) (lineReader typed) sizes
    r.delivered <+: expected attribs typed ∧ (r.Drained → r.delivered = expected attribs typed) ∧
      r.state.buffer.inside = true

/-- The reads deliver the fillings. -/
theorem linesDelivered_iff_fillings {attribs : Termio} (hline : LineMode attribs)
    (spill : List UInt16 → List UInt8) (typed : List TypedLine) :
    LinesDelivered spill attribs typed ↔
      fillings attribs Input.boot.buffer (typed.flatMap TypedLine.pieces) =
          expected attribs typed ∧
        (fillAll attribs Input.boot.buffer (typed.flatMap TypedLine.pieces)).inside = true := by
  have hstart : Holds attribs (fillings attribs Input.boot.buffer
      (typed.flatMap TypedLine.pieces)) (fillAll attribs Input.boot.buffer
      (typed.flatMap TypedLine.pieces)).inside (typed.flatMap TypedLine.pieces)
      (lineReader typed) := ⟨rfl, rfl, rfl, rfl⟩
  constructor
  · intro h
    obtain ⟨sizes, hdrained⟩ := exists_drained hline spill hstart
    obtain ⟨rest, hrest⟩ := run_holds hline spill hstart sizes
    obtain ⟨-, hall, hinside⟩ := h sizes
    have hnil : rest = [] := List.map_eq_nil_iff.mp (hrest.waits_eq.symm.trans hdrained.1)
    subst hnil
    have hwhole := hrest.whole_eq
    rw [whole, hdrained.2, fillings, List.append_nil, List.append_nil, hall hdrained] at hwhole
    exact ⟨hwhole.symm, hrest.inside_eq.symm.trans hinside⟩
  · rintro ⟨hfillings, hinside⟩ sizes
    obtain ⟨rest, hrest⟩ := run_holds hline spill hstart sizes
    refine ⟨⟨_, hrest.whole_eq.trans hfillings⟩, fun hdrained => ?_,
      inside_of_fillAll (hrest.inside_eq.trans hinside)⟩
    have hnil : rest = [] := List.map_eq_nil_iff.mp (hrest.waits_eq.symm.trans hdrained.1)
    subst hnil
    have hwhole := hrest.whole_eq
    rw [whole, hdrained.2, fillings, List.append_nil, List.append_nil] at hwhole
    exact hwhole.trans hfillings

end MinC.Vfs
