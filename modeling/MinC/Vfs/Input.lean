import MinC.Vfs.Console
import MinC.Win.Wchar
import Mathlib.Tactic.SplitIfs

/-!
Reading from the console.

What is read comes out of one buffer, which holds a string: the pointer of the
input goes through it up to its zero. When nothing is left the buffer is filled
again, with the next piece of a text that is being pasted, or with a line or a
key that is waited for. All fillings start at the front of the buffer.
-/

namespace MinC.Vfs

open MinC.Lib MinC.Win

/-! ### The buffer -/

namespace InputBuffer

/-- What is left to read. -/
def pending (b : InputBuffer) : List UInt8 := text (b.buf.drop b.input)

/-- Store one byte. The offset may be in front of the buffer. -/
def store (b : InputBuffer) (offset : Int) (char : UInt8) : InputBuffer :=
  { b with
    buf := if offset < 0 then b.buf else poke b.buf offset.toNat [char]
    inside := b.inside && decide (0 ≤ offset ∧ offset < inputBufSize) }

/-- Fill from the front. -/
def put (b : InputBuffer) (bytes : List UInt8) : InputBuffer :=
  { b with
    buf := poke b.buf 0 bytes
    inside := b.inside && decide (bytes.length ≤ inputBufSize) }

def rewind (b : InputBuffer) : InputBuffer := { b with input := 0 }

/-- Take bytes out, up to the zero. -/
def copy : Nat → InputBuffer → List UInt8 × InputBuffer
  | 0, b => ([], b)
  | size + 1, b =>
      let char := b.buf.getD b.input 0
      if char ≠ 0 then
        let r := copy size { b with input := b.input + 1 }
        (char :: r.1, r.2)
      else ([], b)

end InputBuffer

structure Termio where
  iFlags : UInt32
  lFlags : UInt32
  deriving DecidableEq

def winEcho : UInt32 := 0x008
def winIsig : UInt32 := 0x080
def winIcanon : UInt32 := 0x100
def winBrkint : UInt32 := 0x002
def winIcrnl : UInt32 := 0x100

def enableProcessedInput : UInt32 := 0x001
def enableLineInput : UInt32 := 0x002
def enableEchoInput : UInt32 := 0x004
def enableWindowInput : UInt32 := 0x008
def enableMouseInput : UInt32 := 0x010
def enableQuickEditMode : UInt32 := 0x040
def enableExtendedFlags : UInt32 := 0x080
def enableVirtualTerminalInput : UInt32 := 0x200

def inputMode (attribs : Termio) : UInt32 :=
  enableWindowInput ||| 0x020 ||| enableQuickEditMode ||| enableExtendedFlags |||
    enableMouseInput |||
    (if attribs.lFlags &&& winEcho ≠ 0 then enableLineInput ||| enableEchoInput
      else if attribs.lFlags &&& winIcanon ≠ 0 then enableLineInput
      else 0) |||
    (if attribs.lFlags &&& winIsig ≠ 0 then enableProcessedInput else 0)

/-! ### Keys -/

structure KeyEvent where
  down : Bool
  vk : UInt16
  char : UInt8
  keyState : UInt32
  deriving DecidableEq

/-- The answers to the calls that a key may make. -/
structure KeyAnswers where
  isFormatAvailable : Bool
  openClipboard : Bool
  clipboardData : Option (List UInt16)
  deriving DecidableEq

/-- What a key does: whether it failed, what it puts into the buffer, if it
does, and the text it starts to paste. -/
structure KeyResult where
  ok : Bool
  put : Option (List UInt8)
  clipboard : Option (List UInt16)
  deriving DecidableEq

def KeyResult.text (bytes : List UInt8) : KeyResult := ⟨true, some bytes, none⟩

/-- Shift out and shift in have no escape in front. That they change the code page of the console's
output is left out, since no reading depends on it. -/
def inputChar (char : UInt8) (keyState : UInt32) : KeyResult :=
  if char = 14 ∨ char = 15 then .text [char]
  else if keyState &&& 0x0002 ≠ 0 then .text [27, char]
  else .text [char]

def inputReturn (keyState : UInt32) (attribs : Termio) : KeyResult :=
  if attribs.iFlags &&& winIcrnl ≠ 0 then inputChar 10 keyState else inputChar 13 keyState

def inputTabulator (keyState : UInt32) : KeyResult :=
  if keyState &&& 0x0010 ≠ 0 then .text [27, 91, 90] else inputChar 9 keyState

def ansiCursorKey (vk : UInt16) : List UInt8 :=
  if vk = 0x2E then [127]
  else if vk = 0x2D then [27, 91, 76]
  else if vk = 0x28 then [27, 91, 66]
  else if vk = 0x27 then [27, 91, 67]
  else if vk = 0x26 then [27, 91, 65]
  else if vk = 0x25 then [27, 91, 68]
  else if vk = 0x24 then [27, 91, 72]
  else if vk = 0x23 then [27, 91, 70]
  else if vk = 0x22 then [27, 91, 84]
  else if vk = 0x21 then [27, 91, 83]
  else []

/-- The function keys are numbered with digits and then with letters. -/
def ansiFunctionKey (vk : UInt16) : List UInt8 :=
  if 0x70 ≤ vk ∧ vk ≤ 0x78 then [27, 70, (vk - 0x70 + 49).toUInt8]
  else if 0x79 ≤ vk ∧ vk ≤ 0x87 then [27, 70, (vk - 0x79 + 65).toUInt8]
  else []

/-- With the shift key, insert starts to paste. -/
def inputInsert (keyState : UInt32) (os : KeyAnswers) : KeyResult :=
  if keyState &&& 0x0010 = 0 then .text (ansiCursorKey 0x2D)
  else if !os.isFormatAvailable then .text []
  else if !os.openClipboard then ⟨false, none, none⟩
  else match os.clipboardData with
    | some data => ⟨true, none, some data⟩
    | none => ⟨false, none, none⟩

/-- A break that is a signal puts nothing into the buffer. -/
def inputPause (keyState : UInt32) (attribs : Termio) : KeyResult :=
  if attribs.iFlags &&& winBrkint = 0 then inputChar 10 keyState else ⟨true, none, none⟩

def inputKey (event : KeyEvent) (attribs : Termio) (os : KeyAnswers) : KeyResult :=
  if !event.down then .text []
  else if event.vk = 0x0D then inputReturn event.keyState attribs
  else if event.vk = 0x09 then inputTabulator event.keyState
  else if event.char ≠ 0 then inputChar event.char event.keyState
  else if event.vk = 0x13 then inputPause event.keyState attribs
  else if event.vk = 0x2D then inputInsert event.keyState os
  else if event.vk ≤ 0x1F then .text []
  else if event.vk ≤ 0x2F then .text (ansiCursorKey event.vk)
  else if event.vk ≤ 0x5F then .text []
  else if event.vk ≤ 0x6F then .text []
  else if event.vk ≤ 0x8F then .text (ansiFunctionKey event.vk)
  else ⟨true, none, none⟩

/-! ### Filling the buffer -/

/-- The buffer, and the text that is being pasted. -/
structure Input where
  buffer : InputBuffer
  clipboard : Option (List UInt16)

inductive Event
  | key (event : KeyEvent) (os : KeyAnswers)
  | bufferSize (raised : Bool)
  | focus
  | menu
  | mouse
  | other

/-- What a wait for input ends with: a line or an event, by the mode of the
console, and whether a signal was pending then. -/
structure Wait where
  failed : Bool
  line : Option (List UInt8)
  event : Option Event
  signal : Bool

def inputReadEvent (attribs : Termio) (event : Option Event) (s : Input) : Bool × Input :=
  let s := { s with buffer := (s.buffer.store 0 0).rewind }
  match event with
  | none => (false, s)
  | some (.key event os) =>
      let r := inputKey event attribs os
      (r.ok,
        { buffer := match r.put with
            | some bytes => s.buffer.put (bytes ++ [0])
            | none => s.buffer
          clipboard := r.clipboard.or s.clipboard })
  | some (.bufferSize raised) => (!raised, s)
  | some .focus => (true, s)
  | some .menu => (true, s)
  | some .mouse => (true, s)
  | some .other => (false, s)

/-- The line is trimmed at its end, which is taken to be CR LF. -/
def trimLine (attribs : Termio) (count : Nat) (b : InputBuffer) : InputBuffer :=
  let last : Int := (count : Int) - 1
  let (b, last) := if attribs.lFlags &&& winIsig ≠ 0 then (b.store last 0, last - 1) else (b, last)
  if attribs.iFlags &&& winIcrnl ≠ 0 then b.store last 10 else b

def inputReadLine (attribs : Termio) (line : Option (List UInt8)) (b : InputBuffer) :
    Bool × InputBuffer :=
  match line with
  | none => (false, b.rewind)
  | some bytes =>
      if bytes.length = 0 then (false, (b.store 0 0).rewind)
      else (true, (trimLine attribs bytes.length (b.put bytes)).rewind)

/-- The characters of a piece, which has at most `n`, and what is left of the
text, unless its end was found. -/
def clipPiece : Nat → List UInt16 → List UInt16 × Option (List UInt16)
  | 0, rest => ([], some rest)
  | _ + 1, [] => ([], none)
  | n + 1, ch :: rest =>
      if ch ≠ 10 then
        let r := clipPiece n rest
        (ch :: r.1, r.2)
      else clipPiece (n + 1) rest

/-- The next piece of the text that is pasted. Its terminating zero goes behind
its characters. What a conversion leaves that fails is up to Windows. -/
def inputReadClipboard (spill : List UInt16 → List UInt8) (clip : List UInt16)
    (b : InputBuffer) : Input :=
  let r := clipPiece winMaxInput clip
  let b := b.store 0 0
  let b := { b with inside := b.inside && decide (r.1.length < winMaxInput) }
  { buffer := (match winWcstombs r.1 winMaxInput with
      | some bytes => b.put (bytes ++ [0])
      | none => b.put ((spill r.1).take winMaxInput)).rewind
    clipboard := r.2 }

def inputWaitChar (attribs : Termio) (wait : Wait) (s : Input) : Bool × Input :=
  let r :=
    if wait.failed then (false, s)
    else if inputMode attribs &&& enableLineInput ≠ 0 then
      let r := inputReadLine attribs wait.line s.buffer
      (r.1, { s with buffer := r.2 })
    else inputReadEvent attribs wait.event s
  (r.1, { r.2 with buffer := { r.2.buffer with index := 0 } })

/-! ### Reading -/

/-- What a read ends with: bytes, an error, or nothing, if it still waits when
there is nothing left to wait for. -/
inductive Outcome
  | done (bytes : List UInt8)
  | failed
  | blocked
  deriving DecidableEq

/-- Paste pieces until one of them gives a byte. Each takes a character out of
the text or is the last one. -/
def paste (spill : List UInt16 → List UInt8) (size : Nat) :
    Nat → Input → List UInt8 × Input
  | 0, s => ([], s)
  | n + 1, s =>
      match s.clipboard with
      | none => ([], s)
      | some clip =>
          let s := inputReadClipboard spill clip s.buffer
          let r := s.buffer.copy size
          let s := { s with buffer := r.2 }
          if r.1 ≠ [] then (r.1, s) else paste spill size n s

/-- The loop of `input_read`, with the waits that are to come. -/
def readLoop (spill : List UInt16 → List UInt8) (attribs : Termio) (size : Nat) :
    List Wait → Input → Outcome × Input × List Wait
  | waits, s =>
      let r := s.buffer.copy size
      let s := { s with buffer := r.2 }
      if size = 0 ∨ r.1 ≠ [] then (.done r.1, s, waits)
      else
        let p := paste spill size ((s.clipboard.getD []).length + 1) s
        if p.1 ≠ [] then (.done p.1, p.2, waits)
        else match waits with
          | [] => (.blocked, p.2, [])
          | wait :: waits =>
              let w := inputWaitChar attribs wait p.2
              if !w.1 ∨ wait.signal then (.failed, w.2, waits)
              else readLoop spill attribs size waits w.2

/-- A console that handles sequences itself is read at once. A size that is negative as a `LONG`
is none. -/
def inputRead (spill : List UInt16 → List UInt8) (attribs : Termio) (size : UInt32)
    (waits : List Wait) (s : Input) : Outcome × Input × List Wait :=
  if inputMode attribs &&& enableVirtualTerminalInput ≠ 0 then
    match waits with
    | [] => (.blocked, s, [])
    | wait :: waits =>
        match wait.line with
        | some bytes => (.done (bytes.take size.toNat), s, waits)
        | none => (.failed, s, waits)
  else readLoop spill attribs (if size < 0x80000000 then size.toNat else 0) waits s

theorem inputMode_virtual (attribs : Termio) :
    inputMode attribs &&& enableVirtualTerminalInput = 0 := by
  unfold inputMode
  split_ifs <;> decide

/-- The mode never asks the console to handle sequences itself, so that there is only the loop. -/
theorem inputRead_eq (spill : List UInt16 → List UInt8) (attribs : Termio) (size : UInt32)
    (waits : List Wait) (s : Input) :
    inputRead spill attribs size waits s =
      readLoop spill attribs (if size < 0x80000000 then size.toNat else 0) waits s := by
  unfold inputRead
  exact if_neg (not_not_intro (inputMode_virtual attribs))

/-! ### Taking bytes out -/

namespace InputBuffer

theorem getD_eq_zero_iff {b : InputBuffer} : b.buf.getD b.input 0 = 0 ↔ b.pending = [] := by
  unfold pending
  rw [List.getD_eq_getElem?_getD, ← List.head?_drop]
  cases b.buf.drop b.input with
  | nil => simp [text]
  | cons ch rest => by_cases hch : ch = 0 <;> simp [text, hch]

theorem pending_of_ne_zero {b : InputBuffer} (h : b.buf.getD b.input 0 ≠ 0) :
    b.pending = b.buf.getD b.input 0 :: { b with input := b.input + 1 }.pending := by
  unfold pending
  rw [List.getD_eq_getElem?_getD, ← List.head?_drop] at h ⊢
  have htail : b.buf.drop (b.input + 1) = (b.buf.drop b.input).tail := by
    rw [List.tail_drop]
  rw [htail]
  cases hdrop : b.buf.drop b.input with
  | nil =>
      rw [hdrop] at h
      exact absurd rfl h
  | cons ch rest =>
      rw [hdrop] at h
      have hch : ch ≠ 0 := h
      rw [text, List.takeWhile_cons_of_pos (by simpa using hch)]
      rfl

/-- Bytes are taken out in their order, and nothing else is changed. -/
theorem copy_spec (size : Nat) (b : InputBuffer) :
    (b.copy size).1 = b.pending.take size ∧ (b.copy size).2.pending = b.pending.drop size ∧
      (b.copy size).2 = { b with input := b.input + (b.copy size).1.length } := by
  induction size generalizing b with
  | zero => exact ⟨rfl, rfl, rfl⟩
  | succ size ih =>
      rw [copy]
      by_cases hch : b.buf.getD b.input 0 = 0
      · have hnil := getD_eq_zero_iff.mp hch
        dsimp only
        rw [if_neg (not_not.mpr hch), hnil]
        exact ⟨rfl, rfl, rfl⟩
      · obtain ⟨hbytes, hrest, hstate⟩ := ih { b with input := b.input + 1 }
        dsimp only
        rw [if_pos hch, pending_of_ne_zero hch, List.take_succ_cons, List.drop_succ_cons]
        refine ⟨by rw [hbytes], hrest, ?_⟩
        rw [hstate, List.length_cons, Nat.add_assoc, Nat.add_comm 1]

/-- Bytes that were taken out and those that were not are what there was. -/
theorem copy_append (size : Nat) (b : InputBuffer) :
    (b.copy size).1 ++ (b.copy size).2.pending = b.pending := by
  obtain ⟨hbytes, hrest, -⟩ := copy_spec size b
  rw [hbytes, hrest, List.take_append_drop]

/-- A buffer that nothing was taken out of is as it was. -/
theorem copy_of_nil {size : Nat} {b : InputBuffer} (h : (b.copy size).1 = []) :
    (b.copy size).2 = b := by
  rw [(copy_spec size b).2.2, h]
  rfl

theorem zero_not_mem_pending (b : InputBuffer) : 0 ∉ b.pending := zero_not_mem_text _

end InputBuffer

end MinC.Vfs
