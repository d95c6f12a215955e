import MinC.Vfs.InputLines

/-!
Pasting a text.

A piece of the text is counted in UTF-16 where it is cut, and in UTF-8 where it
is converted, by the same number. A text of fewer bytes than that is one piece,
and is delivered as it is. A text of as many characters overruns the array of
the piece by its zero, and one of fewer characters but as many bytes is left to
what Windows does with a conversion that has no room.
-/

namespace MinC.Vfs

open MinC.Lib MinC.Win

/-! ### A piece of a text -/

/-- The characters of a text that are pasted. -/
def pasteText (clip : List UInt16) : List UInt16 := clip.filter (· ≠ 10)

theorem pasteText_cons_of_ne {ch : UInt16} (h : ch ≠ 10) (clip : List UInt16) :
    pasteText (ch :: clip) = ch :: pasteText clip :=
  List.filter_cons_of_pos (by simpa using h)

theorem pasteText_cons_newline (clip : List UInt16) : pasteText (10 :: clip) = pasteText clip :=
  List.filter_cons_of_neg (by simp)

theorem clipPiece_fst (n : Nat) (clip : List UInt16) :
    (clipPiece n clip).1 = (pasteText clip).take n := by
  fun_induction clipPiece n clip with
  | case1 rest => exact List.take_zero.symm
  | case2 n => rfl
  | case3 n ch rest hch r ih =>
      rw [pasteText_cons_of_ne hch, List.take_succ_cons]
      exact congrArg (ch :: ·) ih
  | case4 n ch rest hch ih =>
      obtain rfl : ch = 10 := not_not.mp hch
      rw [pasteText_cons_newline]
      exact ih

/-- A text that is shorter than a piece is found to end. -/
theorem clipPiece_snd {n : Nat} {clip : List UInt16} (h : (pasteText clip).length < n) :
    (clipPiece n clip).2 = none := by
  fun_induction clipPiece n clip with
  | case1 rest => exact absurd h (Nat.not_lt_zero _)
  | case2 n => rfl
  | case3 n ch rest hch r ih =>
      rw [pasteText_cons_of_ne hch, List.length_cons] at h
      exact ih (Nat.lt_of_succ_lt_succ h)
  | case4 n ch rest hch ih =>
      obtain rfl : ch = 10 := not_not.mp hch
      rw [pasteText_cons_newline] at h
      exact ih h

/-! ### Filling the buffer with a piece -/

section
variable (spill : List UInt16 → List UInt8)

theorem inputReadClipboard_inside {clip : List UInt16} {b : InputBuffer}
    (h : (inputReadClipboard spill clip b).buffer.inside = true) :
    b.inside = true ∧ (pasteText clip).length < winMaxInput := by
  have hpiece : b.inside = true ∧ ((pasteText clip).take winMaxInput).length < winMaxInput := by
    rw [← clipPiece_fst]
    unfold inputReadClipboard InputBuffer.rewind InputBuffer.put InputBuffer.store at h
    dsimp only at h
    split at h
    · simp only [Bool.and_eq_true, decide_eq_true_eq] at h
      exact ⟨h.1.1.1, h.1.2⟩
    · simp only [Bool.and_eq_true, decide_eq_true_eq] at h
      exact ⟨h.1.1.1, h.1.2⟩
  refine ⟨hpiece.1, ?_⟩
  have hlen := hpiece.2
  rw [List.length_take] at hlen
  omega

/-- A text that has room is put into the buffer as it is. -/
theorem inputReadClipboard_fits {clip : List UInt16} (hzero : 0 ∉ clip)
    (h : (narrow (pasteText clip)).length < winMaxInput) {b : InputBuffer}
    (hb : b.inside = true) :
    (inputReadClipboard spill clip b).clipboard = none ∧
      (inputReadClipboard spill clip b).buffer.pending = narrow (pasteText clip) ∧
      (inputReadClipboard spill clip b).buffer.inside = true := by
  have hlen := Nat.lt_of_le_of_lt (length_le_narrow (pasteText clip)) h
  have hpiece : (clipPiece winMaxInput clip).1 = pasteText clip := by
    rw [clipPiece_fst, List.take_of_length_le (Nat.le_of_lt hlen)]
  have hwcs : winWcstombs (pasteText clip) winMaxInput = some (narrow (pasteText clip)) := by
    rw [winWcstombs, if_pos (by omega)]
  have hnarrow : 0 ∉ narrow (pasteText clip) :=
    zero_not_mem_narrow fun hmem => hzero (List.mem_of_mem_filter hmem)
  unfold inputReadClipboard
  dsimp only
  rw [hpiece, hwcs]
  refine ⟨clipPiece_snd hlen, ?_, ?_⟩
  · show text ((poke _ 0 _).drop 0) = _
    rw [List.drop_zero, text_poke (Nat.zero_le _) hnarrow]
    rfl
  · show (((b.inside && true) && decide _) && decide _) = true
    rw [hb, decide_eq_true hlen, decide_eq_true]
    · rfl
    · rw [List.length_append]
      exact Nat.succ_le_of_lt (Nat.lt_of_lt_of_le h (by decide))

theorem inputReadClipboard_spills {clip : List UInt16}
    (hlen : (pasteText clip).length < winMaxInput)
    (h : winMaxInput ≤ (narrow (pasteText clip)).length) (b : InputBuffer) :
    (inputReadClipboard (fun _ => []) clip b).clipboard = none ∧
      (inputReadClipboard (fun _ => []) clip b).buffer.pending = [] := by
  have hpiece : (clipPiece winMaxInput clip).1 = pasteText clip := by
    rw [clipPiece_fst, List.take_of_length_le (Nat.le_of_lt hlen)]
  have hwcs : winWcstombs (pasteText clip) winMaxInput = none := by
    rw [winWcstombs, if_neg (by omega)]
  unfold inputReadClipboard
  dsimp only
  rw [hpiece, hwcs]
  refine ⟨clipPiece_snd hlen, ?_⟩
  show text ((poke (poke b.buf 0 [0]) 0 []).drop 0) = []
  simp [poke, front, text]

/-! ### Reading a piece -/

theorem paste_none (size n : Nat) (b : InputBuffer) :
    paste spill size n ⟨b, none⟩ = ([], ⟨b, none⟩) := by
  cases n with
  | zero => rfl
  | succ n => rfl

theorem copy_inside (size : Nat) (b : InputBuffer) : (b.copy size).2.inside = b.inside := by
  rw [(InputBuffer.copy_spec size b).2.2]

/-- A store outside of the buffers is not undone. -/
theorem paste_inside {size n : Nat} {s : Input}
    (h : (paste spill size n s).2.buffer.inside = true) : s.buffer.inside = true := by
  induction n generalizing s with
  | zero => exact h
  | succ n ih =>
      obtain ⟨b, clipboard⟩ := s
      cases clipboard with
      | none => exact h
      | some clip =>
          rw [paste] at h
          dsimp only at h
          have hfilled : (inputReadClipboard spill clip b).buffer.inside = true := by
            rw [← copy_inside size]
            split_ifs at h
            · exact h
            · exact ih h
          exact (inputReadClipboard_inside spill hfilled).1

theorem paste_some_inside {size n : Nat} {clip : List UInt16} {b : InputBuffer}
    (h : (paste spill size (n + 1) ⟨b, some clip⟩).2.buffer.inside = true) :
    (pasteText clip).length < winMaxInput := by
  rw [paste] at h
  dsimp only at h
  have hfilled : (inputReadClipboard spill clip b).buffer.inside = true := by
    rw [← copy_inside size]
    split_ifs at h
    · exact h
    · exact paste_inside spill h
  exact (inputReadClipboard_inside spill hfilled).2

/-- The last piece is all that is read. -/
theorem paste_last (size n : Nat) {clip : List UInt16} {b : InputBuffer}
    (h : (inputReadClipboard spill clip b).clipboard = none) :
    paste spill size (n + 1) ⟨b, some clip⟩ =
      (((inputReadClipboard spill clip b).buffer.copy size).1,
        ⟨((inputReadClipboard spill clip b).buffer.copy size).2, none⟩) := by
  rw [paste]
  dsimp only
  rw [h]
  split_ifs with hnil
  · rfl
  · rw [paste_none, not_not.mp hnil]

theorem readLoop_nil (attribs : Termio) {size : Nat} {b : InputBuffer}
    (clipboard : Option (List UInt16)) (hsize : size ≠ 0) (hb : b.pending = []) :
    let p := paste spill size ((clipboard.getD []).length + 1) ⟨b, clipboard⟩
    let o := readLoop spill attribs size [] ⟨b, clipboard⟩
    o.1.bytes = p.1 ∧ o.2 = (p.2, []) := by
  obtain ⟨hbytes, -, hstate⟩ := InputBuffer.copy_spec size b
  rw [hb, List.take_nil] at hbytes
  have hsame : (b.copy size).2 = b := by
    rw [hstate, hbytes]
    rfl
  rw [readLoop]
  dsimp only
  rw [if_neg (not_or.mpr ⟨hsize, not_not.mpr hbytes⟩), hsame]
  split_ifs with hnil
  · exact ⟨rfl, rfl⟩
  · exact ⟨(not_not.mp hnil).symm, rfl⟩

/-- Without a text to paste and without waits a read takes what is there. -/
theorem readLoop_idle (attribs : Termio) (size : Nat) (b : InputBuffer) :
    let o := readLoop spill attribs size [] ⟨b, none⟩
    o.1.bytes = (b.copy size).1 ∧ o.2 = (⟨(b.copy size).2, none⟩, []) := by
  rw [readLoop]
  dsimp only
  rw [paste_none]
  split_ifs with hdone hnil
  · exact ⟨rfl, rfl⟩
  · exact absurd rfl hnil
  · obtain ⟨-, hempty⟩ := not_or.mp hdone
    exact ⟨(not_not.mp hempty).symm, rfl⟩

end

/-! ### A paste -/

/-- Insert with the shift key. -/
def insertKey : KeyEvent where
  down := true
  vk := 0x2D
  char := 0
  keyState := 0x0010

/-- The input after the key that pastes, when the buffer had nothing left. -/
def pasting (attribs : Termio) (buf : List UInt8) (clip : List UInt16) : Input :=
  (inputReadEvent attribs (some (.key insertKey ⟨true, true, some clip⟩))
    ⟨⟨buf, 0, 0, true⟩, none⟩).2

theorem pasting_eq (attribs : Termio) (buf : List UInt8) (clip : List UInt16) :
    pasting attribs buf clip = ⟨⟨poke buf 0 [0], 0, 0, true⟩, some clip⟩ := rfl

/-- A process that has just pasted the text in an array of the clipboard. -/
def pasteReader (attribs : Termio) (buf : List UInt8) (wcs : List UInt16) : Reader where
  delivered := []
  state := pasting attribs buf (text wcs)
  waits := []

/-- There is nothing left to paste. -/
def Reader.Pasted (r : Reader) : Prop :=
  r.state.clipboard = none ∧ r.state.buffer.pending = []

/-- Reads of any sizes deliver the text in UTF-8: nothing else, all of it when
there is nothing left, and without a store outside of the buffers. -/
def PasteDelivered (attribs : Termio) (buf : List UInt8) (wcs : List UInt16) : Prop :=
  ∀ spill sizes, let r := run (Reader.read spill attribs) (pasteReader attribs buf wcs) sizes
    r.delivered <+: narrow (pasteText (text wcs)) ∧
      (r.Pasted → r.delivered = narrow (pasteText (text wcs))) ∧ r.state.buffer.inside = true

section
variable (spill : List UInt16 → List UInt8) {attribs : Termio} {buf : List UInt8}
  {wcs : List UInt16}

/-- The text is about to be pasted, or is partly read. -/
def Pasting (attribs : Termio) (buf : List UInt8) (wcs : List UInt16) (r : Reader) : Prop :=
  r = pasteReader attribs buf wcs ∨
    r.waits = [] ∧ r.state.clipboard = none ∧ r.state.buffer.inside = true ∧
      r.delivered ++ r.state.buffer.pending = narrow (pasteText (text wcs))

theorem pending_pasting (attribs : Termio) (buf : List UInt8) (clip : List UInt16) :
    (pasting attribs buf clip).buffer.pending = [] := by
  show text ((poke buf 0 [0]).drop 0) = []
  simp [poke, front, text]

theorem readLoop_zero (attribs : Termio) (s : Input) :
    readLoop spill attribs 0 [] s = (.done [], s, []) := by
  rw [readLoop]
  rfl

theorem read_pasting (h : (narrow (pasteText (text wcs))).length < winMaxInput) {r : Reader}
    (hr : Pasting attribs buf wcs r) (size : UInt32) :
    Pasting attribs buf wcs (r.read spill attribs size) := by
  unfold Reader.read
  rw [inputRead_eq]
  generalize (if size < 0x80000000 then size.toNat else 0) = n
  rcases hr with rfl | ⟨hwaits, hclipboard, hinside, hall⟩
  · by_cases hn : n = 0
    · subst hn
      exact .inl (by rw [pasteReader, readLoop_zero]; rfl)
    -- all of the clipboard is fetched at once
    · obtain ⟨hnone, hpending, hin⟩ := inputReadClipboard_fits spill (zero_not_mem_text wcs) h
        (show (pasting attribs buf (text wcs)).buffer.inside = true from rfl)
      obtain ⟨hbytes, hstate⟩ := readLoop_nil spill attribs (some (text wcs)) hn
        (pending_pasting attribs buf (text wcs))
      rw [paste_last spill n _ hnone] at hbytes hstate
      refine .inr ⟨congrArg Prod.snd hstate, ?_, ?_, ?_⟩
      · exact congrArg (fun o => o.1.clipboard) hstate
      · exact (congrArg (fun o => o.1.buffer.inside) hstate).trans ((copy_inside _ _).trans hin)
      · have hcopy := InputBuffer.copy_append n
          (inputReadClipboard spill (text wcs) (pasting attribs buf (text wcs)).buffer).buffer
        rw [hpending] at hcopy
        rw [← hcopy]
        exact congrArg₂ (· ++ ·) hbytes (congrArg (fun o => o.1.buffer.pending) hstate)
  -- from then on the buffer has what is still to be read
  · obtain ⟨delivered, ⟨b, clipboard⟩, waits⟩ := r
    obtain rfl : waits = [] := hwaits
    obtain rfl : clipboard = none := hclipboard
    obtain ⟨hbytes, hstate⟩ := readLoop_idle spill attribs n b
    refine .inr ⟨congrArg Prod.snd hstate, ?_, ?_, ?_⟩
    · exact congrArg (fun o => o.1.clipboard) hstate
    · exact (congrArg (fun o => o.1.buffer.inside) hstate).trans ((copy_inside _ _).trans hinside)
    · have hpending : (readLoop spill attribs n [] ⟨b, none⟩).2.1.buffer.pending =
          (b.copy n).2.pending := congrArg (fun o => o.1.buffer.pending) hstate
      show (delivered ++ _) ++ _ = _
      rw [← hall, hbytes, hpending, List.append_assoc, InputBuffer.copy_append]

theorem run_pasting (h : (narrow (pasteText (text wcs))).length < winMaxInput)
    (sizes : List UInt32) :
    Pasting attribs buf wcs
      (run (Reader.read spill attribs) (pasteReader attribs buf wcs) sizes) := by
  have hstart : Pasting attribs buf wcs (pasteReader attribs buf wcs) := .inl rfl
  exact run_invariant (I := Pasting attribs buf wcs) (fun _ size hr => read_pasting spill h hr size)
    hstart sizes

/-- A read of one byte pastes. -/
theorem read_one (attribs : Termio) (buf : List UInt8) (wcs : List UInt16) :
    let p := paste spill 1 ((text wcs).length + 1)
      ⟨⟨poke buf 0 [0], 0, 0, true⟩, some (text wcs)⟩
    let r := (pasteReader attribs buf wcs).read spill attribs 1
    r.delivered = p.1 ∧ r.state = p.2 := by
  have hone : (if (1 : UInt32) < 0x80000000 then (1 : UInt32).toNat else 0) = 1 := by decide
  obtain ⟨hbytes, hstate⟩ := readLoop_nil spill attribs (some (text wcs))
    Nat.one_ne_zero (pending_pasting attribs buf (text wcs))
  rw [Option.getD_some, pasting_eq] at hbytes hstate
  unfold Reader.read pasteReader
  rw [inputRead_eq]
  dsimp only
  rw [hone, pasting_eq, List.nil_append]
  exact ⟨hbytes, by rw [hstate]⟩

end

theorem room_of_delivered {attribs : Termio} {buf : List UInt8} {wcs : List UInt16}
    (h : PasteDelivered attribs buf wcs) :
    (narrow (pasteText (text wcs))).length < winMaxInput := by
  by_contra hlong
  obtain ⟨-, hall, hroom⟩ := h (fun _ => []) [1]
  obtain ⟨hbytes, hstate⟩ := read_one (fun _ => []) attribs buf wcs
  rw [run_cons, run_nil] at hall hroom
  rw [hstate] at hroom
  have hlen := paste_some_inside _ hroom
  -- The text is one piece, but the conversion has no room for it.
  obtain ⟨hnone, hnil⟩ := inputReadClipboard_spills hlen (Nat.le_of_not_lt hlong)
    ⟨poke buf 0 [0], 0, 0, true⟩
  obtain ⟨htaken, hrest, -⟩ := InputBuffer.copy_spec 1
    (inputReadClipboard (fun _ => []) (text wcs) ⟨poke buf 0 [0], 0, 0, true⟩).buffer
  rw [hnil, List.take_nil] at htaken
  rw [hnil, List.drop_nil] at hrest
  rw [paste_last _ _ _ hnone] at hbytes hstate
  dsimp only at hbytes hstate
  have hpasted : ((pasteReader attribs buf wcs).read (fun _ => []) attribs 1).Pasted := by
    rw [Reader.Pasted, hstate]
    dsimp only
    exact ⟨rfl, hrest⟩
  have hempty : narrow (pasteText (text wcs)) = [] := by
    rw [← hall hpasted, hbytes, htaken]
  rw [hempty] at hlong
  exact hlong (by decide)

/-- A paste delivers its text exactly when the text with its zero has room in a
piece, in UTF-8. -/
theorem pasteDelivered_iff (attribs : Termio) (buf : List UInt8) (wcs : List UInt16) :
    PasteDelivered attribs buf wcs ↔ (narrow (pasteText (text wcs))).length < winMaxInput := by
  constructor
  · exact room_of_delivered
  · intro h spill sizes
    have hrun : Pasting attribs buf wcs
        (run (Reader.read spill attribs) (pasteReader attribs buf wcs) sizes) :=
      run_pasting spill h sizes
    rcases hrun with hr | ⟨-, -, hin, hall⟩
    · rw [hr]
      refine ⟨List.nil_prefix, ?_, rfl⟩
      exact fun hpasted => absurd hpasted.1 (Option.some_ne_none (text wcs))
    · refine ⟨⟨_, hall⟩, fun hpasted => ?_, hin⟩
      rw [hpasted.2, List.append_nil] at hall
      exact hall

/-- A text of 255 characters overruns the array of the piece by its zero. -/
theorem paste_overruns : ¬ PasteDelivered ⟨0, 0⟩ [] (List.replicate 255 97) := by
  have htext : pasteText (text (List.replicate 255 97)) = List.replicate 255 97 := by
    rw [text_of_not_mem (fun h => absurd (List.eq_of_mem_replicate h) (by decide)), pasteText]
    exact List.filter_eq_self.mpr fun ch hch => by simp [List.eq_of_mem_replicate hch]
  intro h
  have hroom := room_of_delivered h
  have hlen := length_le_narrow (List.replicate 255 97)
  rw [htext] at hroom
  rw [List.length_replicate] at hlen
  exact Nat.not_lt.mpr hlen hroom

end MinC.Vfs
