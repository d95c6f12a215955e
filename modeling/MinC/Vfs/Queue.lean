import MinC.Vfs.Fillings
import MinC.Vfs.Paste

/-!
The input as a queue.

Reads take from the front of a queue, and what is fetched goes into it when it
is empty. Reading from the buffer is reading from the queue of its pending
bytes as long as what is fetched into the buffer ends with a zero of its own:
what was there before is not seen then.
-/

namespace MinC.Vfs

open MinC.Lib MinC.Win

/-! ### The queue -/

/-- The bytes that are to be read, and the text that is being pasted. -/
structure Queue where
  bytes : List UInt8
  clipboard : Option (List UInt16)

/-- What an input has to be read. -/
def Input.queue (s : Input) : Queue := ⟨s.buffer.pending, s.clipboard⟩

namespace Queue

variable (spill : List UInt16 → List UInt8) (attribs : Termio) (size : Nat)

def drop (q : Queue) : Queue := { q with bytes := q.bytes.drop size }

def paste : Nat → Queue → List UInt8 × Queue
  | 0, q => ([], q)
  | n + 1, q =>
      match q.clipboard with
      | none => ([], q)
      | some clip =>
          let q := (inputReadClipboard spill clip Input.boot.buffer).queue
          if q.bytes.take size ≠ [] then (q.bytes.take size, q.drop size) else paste n q

/-- Read from the queue. What is fetched is what comes of it in an empty
buffer. -/
def read : List Wait → Queue → Outcome × Queue × List Wait
  | waits, q =>
      if size = 0 ∨ q.bytes.take size ≠ [] then (.done (q.bytes.take size), q.drop size, waits)
      else
        let p := q.paste spill size ((q.clipboard.getD []).length + 1)
        if p.1 ≠ [] then (.done p.1, p.2, waits)
        else match waits with
          | [] => (.blocked, p.2, [])
          | wait :: waits =>
              let w := inputWaitChar attribs wait { Input.boot with clipboard := p.2.clipboard }
              if !w.1 ∨ wait.signal then (.failed, w.2.queue, waits)
              else read waits w.2.queue

end Queue

/-! ### What is fetched -/

/-- The text has room in one piece. -/
def Fits (clip : List UInt16) : Prop := (narrow (pasteText clip)).length < winMaxInput

/-- What a wait ends with ends with a zero in the buffer: a line that was read,
with signals, or an event that does not start to paste too much. -/
def Sound (attribs : Termio) (wait : Wait) : Prop :=
  wait.failed = true ∨
    (LineMode attribs ∧ Signals attribs ∧ wait.line ≠ none) ∨
    (¬ LineMode attribs ∧
      ∀ event os, wait.event = some (.key event os) → ∀ clip ∈ os.clipboardData, Fits clip)

/-- What is put at the front of a buffer, with a zero, is what is pending. -/
theorem pending_put (b : InputBuffer) (bytes : List UInt8) (hinput : b.input = 0) :
    (b.put (bytes ++ [0])).pending = text bytes := by
  show text ((poke b.buf 0 (bytes ++ [0])).drop b.input) = _
  rw [hinput, drop_poke, List.append_assoc]
  exact text_append_zero_eq _ _

theorem pending_erase (b : InputBuffer) : (b.store 0 0).rewind.pending = [] := by
  show text ((poke b.buf 0 [0]).drop 0) = []
  rw [drop_poke]
  exact text_append_zero_eq [] _

section
variable {spill : List UInt16 → List UInt8} {attribs : Termio}

theorem queue_inputReadClipboard (spill : List UInt16 → List UInt8) {clip : List UInt16}
    (h : Fits clip) (b : InputBuffer) :
    (inputReadClipboard spill clip b).buffer.pending = text (narrow (pasteText clip)) ∧
      (inputReadClipboard spill clip b).clipboard = none := by
  have hlen := Nat.lt_of_le_of_lt (length_le_narrow (pasteText clip)) h
  have hpiece : (clipPiece winMaxInput clip).1 = pasteText clip := by
    rw [clipPiece_fst, List.take_of_length_le (Nat.le_of_lt hlen)]
  have hwcs : winWcstombs (pasteText clip) winMaxInput = some (narrow (pasteText clip)) := by
    rw [winWcstombs, if_pos (by unfold Fits at h; omega)]
  unfold inputReadClipboard
  dsimp only
  rw [hpiece, hwcs]
  exact ⟨pending_put (b.store 0 0).rewind _ rfl, clipPiece_snd hlen⟩

/-- The text that a key starts to paste is that of the clipboard. -/
def Pastes (os : KeyAnswers) (r : KeyResult) : Prop :=
  r.clipboard = none ∨ r.clipboard = os.clipboardData

theorem pastes_ite {os : KeyAnswers} {p : Prop} [Decidable p] {r r' : KeyResult}
    (h : Pastes os r) (h' : Pastes os r') : Pastes os (if p then r else r') := by
  split_ifs
  · exact h
  · exact h'

theorem pastes_inputChar (os : KeyAnswers) (char : UInt8) (keyState : UInt32) :
    Pastes os (inputChar char keyState) :=
  pastes_ite (.inl rfl) (pastes_ite (.inl rfl) (.inl rfl))

theorem pastes_inputInsert (os : KeyAnswers) (keyState : UInt32) :
    Pastes os (inputInsert keyState os) := by
  refine pastes_ite (.inl rfl) (pastes_ite (.inl rfl) (pastes_ite (.inl rfl) ?_))
  cases hdata : os.clipboardData with
  | none => exact .inl rfl
  | some data => exact .inr hdata.symm

theorem pastes_inputKey (attribs : Termio) (event : KeyEvent) (os : KeyAnswers) :
    Pastes os (inputKey event attribs os) := by
  unfold inputKey
  refine pastes_ite (.inl rfl) (pastes_ite ?_ (pastes_ite ?_ (pastes_ite ?_ ?_)))
  · exact pastes_ite (pastes_inputChar _ _ _) (pastes_inputChar _ _ _)
  · exact pastes_ite (.inl rfl) (pastes_inputChar _ _ _)
  · exact pastes_inputChar _ _ _
  · refine pastes_ite ?_ (pastes_ite (pastes_inputInsert os _) ?_)
    · exact pastes_ite (pastes_inputChar _ _ _) (.inl rfl)
    · refine pastes_ite (.inl rfl) (pastes_ite (.inl rfl) (pastes_ite (.inl rfl) ?_))
      exact pastes_ite (.inl rfl) (pastes_ite (.inl rfl) (.inl rfl))

theorem queue_inputReadLine {line : Option (List UInt8)} (hsig : Signals attribs)
    (hline : line ≠ none) (b : InputBuffer) :
    (inputReadLine attribs line b).1 = (inputReadLine attribs line Input.boot.buffer).1 ∧
      (inputReadLine attribs line b).2.pending =
        (inputReadLine attribs line Input.boot.buffer).2.pending := by
  obtain ⟨bytes, rfl⟩ := Option.ne_none_iff_exists'.mp hline
  unfold inputReadLine
  dsimp only
  by_cases hlen : bytes.length = 0
  · rw [if_pos hlen, if_pos hlen]
    exact ⟨rfl, (pending_erase _).trans (pending_erase _).symm⟩
  · rw [if_neg hlen, if_neg hlen]
    obtain ⟨before, -, hbuf⟩ := trimLine_signals hsig fun h => hlen (List.length_eq_zero_iff.mpr h)
    refine ⟨rfl, ?_⟩
    show text ((trimLine _ _ _).buf.drop 0) = text ((trimLine _ _ _).buf.drop 0)
    rw [List.drop_zero, List.drop_zero, hbuf, hbuf, text_append_zero_eq, text_append_zero_eq]

theorem queue_inputReadEvent (event : Option Event) (s : Input) :
    (inputReadEvent attribs event s).1 =
        (inputReadEvent attribs event { Input.boot with clipboard := s.clipboard }).1 ∧
      (inputReadEvent attribs event s).2.queue =
        (inputReadEvent attribs event { Input.boot with clipboard := s.clipboard }).2.queue := by
  have herase : (s.buffer.store 0 0).rewind.pending =
      (Input.boot.buffer.store 0 0).rewind.pending :=
    (pending_erase _).trans (pending_erase _).symm
  cases event with
  | none => exact ⟨rfl, congrArg (Queue.mk · _) herase⟩
  | some event =>
      cases event with
      | key event os =>
          refine ⟨rfl, congrArg (Queue.mk · _) ?_⟩
          unfold inputReadEvent
          dsimp only
          cases (inputKey event attribs os).put with
          | none => exact herase
          | some bytes =>
              exact (pending_put (s.buffer.store 0 0).rewind bytes rfl).trans
                (pending_put (Input.boot.buffer.store 0 0).rewind bytes rfl).symm
      | bufferSize raised => exact ⟨rfl, congrArg (Queue.mk · _) herase⟩
      | focus => exact ⟨rfl, congrArg (Queue.mk · _) herase⟩
      | menu => exact ⟨rfl, congrArg (Queue.mk · _) herase⟩
      | mouse => exact ⟨rfl, congrArg (Queue.mk · _) herase⟩
      | other => exact ⟨rfl, congrArg (Queue.mk · _) herase⟩

/-- With nothing pending, what is fetched does not depend on the buffer. -/
theorem queue_inputWaitChar {wait : Wait} (h : Sound attribs wait) {s : Input}
    (hs : s.buffer.pending = []) :
    (inputWaitChar attribs wait s).1 =
        (inputWaitChar attribs wait { Input.boot with clipboard := s.clipboard }).1 ∧
      (inputWaitChar attribs wait s).2.queue =
        (inputWaitChar attribs wait { Input.boot with clipboard := s.clipboard }).2.queue := by
  unfold inputWaitChar
  dsimp only
  by_cases hfailed : wait.failed = true
  · rw [if_pos hfailed, if_pos hfailed]
    exact ⟨rfl, congrArg (Queue.mk · _) hs⟩
  · rw [if_neg hfailed, if_neg hfailed]
    rcases h.resolve_left hfailed with ⟨hline, hsig, hread⟩ | ⟨hline, -⟩
    · rw [if_pos (show inputMode attribs &&& enableLineInput ≠ 0 from hline),
        if_pos (show inputMode attribs &&& enableLineInput ≠ 0 from hline)]
      obtain ⟨hok, hpending⟩ := queue_inputReadLine hsig hread s.buffer
      exact ⟨hok, congrArg (Queue.mk · _) hpending⟩
    · rw [if_neg (show ¬ inputMode attribs &&& enableLineInput ≠ 0 from hline),
        if_neg (show ¬ inputMode attribs &&& enableLineInput ≠ 0 from hline)]
      exact queue_inputReadEvent wait.event s

/-- What is being pasted has room. -/
def Input.Fits (s : Input) : Prop := ∀ clip, s.clipboard = some clip → MinC.Vfs.Fits clip

theorem fits_inputWaitChar {wait : Wait} (h : Sound attribs wait) {s : Input} (hs : s.Fits) :
    (inputWaitChar attribs wait s).2.Fits := by
  unfold inputWaitChar
  dsimp only
  by_cases hfailed : wait.failed = true
  · rw [if_pos hfailed]
    exact hs
  · rw [if_neg hfailed]
    rcases h.resolve_left hfailed with ⟨hline, -, -⟩ | ⟨hline, hevent⟩
    · rw [if_pos (show inputMode attribs &&& enableLineInput ≠ 0 from hline)]
      exact hs
    · rw [if_neg (show ¬ inputMode attribs &&& enableLineInput ≠ 0 from hline)]
      intro clip hclip
      cases hwait : wait.event with
      | none =>
          rw [hwait] at hclip
          exact hs clip hclip
      | some event =>
          rw [hwait] at hclip
          cases event with
          | key event os =>
              have hor : (inputKey event attribs os).clipboard.or s.clipboard = some clip := hclip
              -- a key may fetch the clipboard, and nothing else does
              rcases pastes_inputKey attribs event os with hnone | hdata
              · rw [hnone] at hor
                exact hs clip hor
              · rw [hdata] at hor
                cases hos : os.clipboardData with
                | none =>
                    rw [hos] at hor
                    exact hs clip hor
                | some data =>
                    rw [hos] at hor
                    obtain rfl : data = clip := Option.some.inj hor
                    exact hevent event os hwait data hos
          | bufferSize raised => exact hs clip hclip
          | focus => exact hs clip hclip
          | menu => exact hs clip hclip
          | mouse => exact hs clip hclip
          | other => exact hs clip hclip

/-! ### Reading from the buffer is reading from the queue -/

theorem queue_copy (size : Nat) (s : Input) :
    Input.queue ⟨(s.buffer.copy size).2, s.clipboard⟩ = s.queue.drop size := by
  unfold Input.queue Queue.drop
  rw [(InputBuffer.copy_spec size s.buffer).2.1]

namespace Queue

theorem paste_none (size n : Nat) (bytes : List UInt8) :
    (Queue.mk bytes none).paste spill size n = ([], ⟨bytes, none⟩) := by
  cases n with
  | zero => rfl
  | succ n => rfl

/-- A paste that gives nothing leaves nothing. -/
theorem paste_bytes {size n : Nat} (hsize : size ≠ 0) {q : Queue} (hq : q.bytes = [])
    (h : (q.paste spill size n).1 = []) : (q.paste spill size n).2.bytes = [] := by
  induction n generalizing q with
  | zero => exact hq
  | succ n ih =>
      obtain ⟨bytes, clipboard⟩ := q
      cases clipboard with
      | none => exact hq
      | some clip =>
          rw [Queue.paste] at h ⊢
          dsimp only at h ⊢
          split_ifs at h ⊢ with hnil
          · exact absurd h hnil
          · exact ih ((List.take_eq_nil_iff.mp (not_not.mp hnil)).resolve_left hsize) h

/-- A text that has room is pasted at once. -/
theorem paste_fits (size n : Nat) {clip : List UInt16} (h : Fits clip) (bytes : List UInt8) :
    (Queue.mk bytes (some clip)).paste spill size (n + 1) =
      ((text (narrow (pasteText clip))).take size,
        ⟨(text (narrow (pasteText clip))).drop size, none⟩) := by
  obtain ⟨hpending, hnone⟩ := queue_inputReadClipboard spill h Input.boot.buffer
  rw [Queue.paste]
  unfold Input.queue
  dsimp only
  rw [hpending, hnone]
  split_ifs with hnil
  · rfl
  · have hdrop : (text (narrow (pasteText clip))).drop size = text (narrow (pasteText clip)) := by
      rcases List.take_eq_nil_iff.mp (not_not.mp hnil) with rfl | hempty
      · rfl
      · rw [hempty, List.drop_nil]
    rw [paste_none, not_not.mp hnil, hdrop]

end Queue

theorem queue_paste (spill : List UInt16 → List UInt8) (size n : Nat) {s : Input}
    (hs : s.Fits) :
    (paste spill size n s).1 = (s.queue.paste spill size n).1 ∧
      (paste spill size n s).2.queue = (s.queue.paste spill size n).2 ∧
      (paste spill size n s).2.Fits := by
  cases n with
  | zero => exact ⟨rfl, rfl, hs⟩
  | succ n =>
      obtain ⟨b, clipboard⟩ := s
      cases clipboard with
      | none => exact ⟨rfl, rfl, hs⟩
      | some clip =>
          have hfits := hs clip rfl
          obtain ⟨hpending, hnone⟩ := queue_inputReadClipboard spill hfits b
          obtain ⟨hbytes, hrest, -⟩ := InputBuffer.copy_spec size
            (inputReadClipboard spill clip b).buffer
          rw [paste_last spill size n hnone,
            show Input.queue ⟨b, some clip⟩ = ⟨b.pending, some clip⟩ from rfl,
            Queue.paste_fits size n hfits, ← hpending]
          refine ⟨hbytes, congrArg (Queue.mk · none) hrest, fun clip hclip => ?_⟩
          cases hclip

/-- The loop reads what is read from the queue, and leaves that queue and its waits. -/
def ReadsQueue (spill : List UInt16 → List UInt8) (attribs : Termio) (size : Nat)
    (waits : List Wait) (s : Input) : Prop :=
  (readLoop spill attribs size waits s).1 = (s.queue.read spill attribs size waits).1 ∧
    (readLoop spill attribs size waits s).2.1.queue =
      (s.queue.read spill attribs size waits).2.1 ∧
    (readLoop spill attribs size waits s).2.2 = (s.queue.read spill attribs size waits).2.2

/-- Nothing is waited for if nothing is asked for, or something is pending or in
the clipboard. -/
theorem queue_readLoop_early (spill : List UInt16 → List UInt8) (attribs : Termio) (size : Nat)
    (waits : List Wait) {s : Input} (hs : s.Fits)
    (h : (size = 0 ∨ s.buffer.pending.take size ≠ []) ∨
      (s.queue.paste spill size ((s.clipboard.getD []).length + 1)).1 ≠ []) :
    ReadsQueue spill attribs size waits s := by
  obtain ⟨hbytes, hqueue, -⟩ := queue_paste spill size ((s.clipboard.getD []).length + 1) hs
  rw [ReadsQueue, readLoop, Queue.read]
  dsimp only
  rw [(InputBuffer.copy_spec size s.buffer).1]
  by_cases hdone : size = 0 ∨ s.buffer.pending.take size ≠ []
  · rw [if_pos hdone, if_pos (show _ ∨ s.queue.bytes.take size ≠ [] from hdone)]
    exact ⟨rfl, queue_copy size s, rfl⟩
  · have hp := h.resolve_left hdone
    have hnil := not_not.mp (not_or.mp hdone).2
    rw [if_neg hdone, if_neg (show ¬ (_ ∨ s.queue.bytes.take size ≠ []) from hdone),
      InputBuffer.copy_of_nil ((InputBuffer.copy_spec size s.buffer).1.trans hnil), hbytes,
      if_pos hp, if_pos (show (s.queue.paste spill size
        ((s.queue.clipboard.getD []).length + 1)).1 ≠ [] from hp)]
    exact ⟨rfl, hqueue, rfl⟩

theorem queue_readLoop (spill : List UInt16 → List UInt8) (size : Nat) {waits : List Wait}
    (hwaits : ∀ w ∈ waits, Sound attribs w) {s : Input} (hs : s.Fits) :
    ReadsQueue spill attribs size waits s := by
  induction waits generalizing s with
  | nil =>
      obtain ⟨hbytes, hqueue, -⟩ := queue_paste spill size ((s.clipboard.getD []).length + 1) hs
      by_cases hearly : (size = 0 ∨ s.buffer.pending.take size ≠ []) ∨
          (s.queue.paste spill size ((s.clipboard.getD []).length + 1)).1 ≠ []
      · exact queue_readLoop_early spill attribs size [] hs hearly
      · obtain ⟨hdone, hp⟩ := not_or.mp hearly
        have hnil := not_not.mp (not_or.mp hdone).2
        rw [ReadsQueue, readLoop, Queue.read]
        dsimp only
        rw [(InputBuffer.copy_spec size s.buffer).1, if_neg hdone,
          if_neg (show ¬ (_ ∨ s.queue.bytes.take size ≠ []) from hdone),
          InputBuffer.copy_of_nil ((InputBuffer.copy_spec size s.buffer).1.trans hnil), hbytes,
          if_neg hp, if_neg (show ¬ (s.queue.paste spill size
            ((s.queue.clipboard.getD []).length + 1)).1 ≠ [] from hp)]
        exact ⟨rfl, hqueue, rfl⟩
  | cons wait waits ih =>
      obtain ⟨hbytes, hqueue, hfits⟩ :=
        queue_paste spill size ((s.clipboard.getD []).length + 1) hs
      by_cases hearly : (size = 0 ∨ s.buffer.pending.take size ≠ []) ∨
          (s.queue.paste spill size ((s.clipboard.getD []).length + 1)).1 ≠ []
      · exact queue_readLoop_early spill attribs size (wait :: waits) hs hearly
      · obtain ⟨hdone, hp⟩ := not_or.mp hearly
        obtain ⟨hsize, hnil⟩ := not_or.mp hdone
        have hnone : s.queue.bytes = [] :=
          (List.take_eq_nil_iff.mp (not_not.mp hnil)).resolve_left hsize
        rw [ReadsQueue, readLoop, Queue.read]
        dsimp only
        rw [(InputBuffer.copy_spec size s.buffer).1, if_neg hdone,
          if_neg (show ¬ (_ ∨ s.queue.bytes.take size ≠ []) from hdone),
          InputBuffer.copy_of_nil
            ((InputBuffer.copy_spec size s.buffer).1.trans (not_not.mp hnil)), hbytes,
          if_neg hp, if_neg (show ¬ (s.queue.paste spill size
            ((s.queue.clipboard.getD []).length + 1)).1 ≠ [] from hp)]
        -- the wait leaves in the buffer what it leaves in the queue
        have hpending : (paste spill size ((s.clipboard.getD []).length + 1) s).2.buffer.pending =
            [] := (congrArg Queue.bytes hqueue).trans
          (Queue.paste_bytes hsize hnone (not_not.mp hp))
        have hsound := hwaits wait List.mem_cons_self
        obtain ⟨hok, hnext⟩ := queue_inputWaitChar hsound hpending
        have hclip : (s.queue.paste spill size ((s.queue.clipboard.getD []).length + 1)).2.clipboard =
            (paste spill size ((s.clipboard.getD []).length + 1) s).2.clipboard :=
          (congrArg Queue.clipboard hqueue).symm
        rw [hclip, hok]
        split_ifs
        · exact ⟨rfl, hnext, rfl⟩
        · rw [← hnext]
          exact ih (fun w hw => hwaits w (List.mem_cons_of_mem _ hw))
            (fits_inputWaitChar hsound hfits)

/-- With something pending, nothing is fetched. -/
theorem queue_readLoop_of_pending (spill : List UInt16 → List UInt8) (attribs : Termio)
    (size : Nat) (waits : List Wait) {s : Input} (h : s.buffer.pending ≠ []) :
    ReadsQueue spill attribs size waits s := by
  have hdone : size = 0 ∨ s.buffer.pending.take size ≠ [] := by
    rw [ne_eq, List.take_eq_nil_iff, not_or]
    exact (Decidable.em (size = 0)).imp_right fun hsize => ⟨hsize, h⟩
  rw [ReadsQueue, readLoop, Queue.read]
  dsimp only
  rw [(InputBuffer.copy_spec size s.buffer).1, if_pos hdone,
    if_pos (show _ ∨ s.queue.bytes.take size ≠ [] from hdone)]
  exact ⟨rfl, queue_copy size s, rfl⟩

end

end MinC.Vfs
