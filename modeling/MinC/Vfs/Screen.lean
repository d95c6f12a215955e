import MinC.Vfs.Ansi
import Mathlib.Tactic.SplitIfs

/-!
Writing to the screen.

The emulator goes through the bytes it is given and holds back the printable
ones, which it prints as one run when it meets a control character or the end
of what it was given. The bytes of an escape sequence go into a collector,
which outlives the call. The record of the console is read at the start of a
call and after each run that was printed.
-/

namespace MinC.Vfs

open MinC.Lib

def enableProcessedOutput : UInt32 := 0x01
def enableVirtualTerminalProcessing : UInt32 := 0x04
def winOpost : UInt32 := 0x01
def winOnlcr : UInt32 := 0x02
def winOcrnl : UInt32 := 0x10

/-- The flags of the terminal make no difference to the mode. -/
def screenMode (_oFlags : UInt32) : UInt32 := enableProcessedOutput ||| enableWrapAtEolOutput

/-- The console is never asked to handle sequences itself. -/
theorem screenMode_virtual (oFlags : UInt32) :
    ¬ screenMode oFlags &&& enableVirtualTerminalProcessing ≠ 0 := by
  unfold screenMode
  decide

namespace Screen

variable {κ : Type} (c : Console κ)

/-- Read the record of the console. The window of the record is as wide as the
screen. -/
def renderWindow (s : Screen κ) : Screen κ :=
  let info := c.getScreenBufferInfo s.con
  s.withInfo { info with window := { info.window with left := 0, right := info.size.x - 1 } }

def carriageReturn (s : Screen κ) : Bool × Screen κ :=
  let pos := s.info.cursorPosition
  let flags := winOpost ||| winOcrnl
  s.moveTo c
    (if s.tty.oFlags &&& flags = flags then { pos with y := pos.y + 1 } else { pos with x := 0 })

def scrollUp (s : Screen κ) : Bool × Screen κ :=
  s.scroll c { s.info.window with top := 1, bottom := s.info.size.y - 1 } none { x := 0, y := 0 }

def lineFeed (s : Screen κ) : Bool × Screen κ :=
  let rect := s.info.window
  let flags := winOpost ||| winOnlcr
  let x := if s.tty.oFlags &&& flags = flags then 0 else s.info.cursorPosition.x
  let y := s.info.cursorPosition.y
  if y < rect.bottom then s.moveTo c { x := x, y := y + 1 }
  else if s.tty.vEdit then (s.ansiScrollUp c 1).2.moveTo c { x := x, y := y }
  else if y = s.info.size.y - 1 then (s.scrollUp c).2.moveTo c { x := x, y := y }
  else
    (s.withInfo { s.info with
        window := { rect with top := rect.top + 1, bottom := rect.bottom + 1 } }).moveTo c
      { x := x, y := y + 1 }

/-! ### Escape sequences -/

/-- What a sequence does, by the character that introduces it. -/
def ansiSequence (s : Screen κ) (char : UInt8) (size : Nat) : Bool × Screen κ :=
  if s.seq.csi = 91 then s.ansiControl c char size
  else if s.seq.csi = 63 then
    if char = 104 then s.decSetMode c (word s.argsToInt)
    else if char = 108 then s.decResetMode c (word s.argsToInt)
    else if char = 117 then s.decRestorePresentationState c (word s.argsToInt)
    else (false, s)
  else if s.seq.csi = 0 then
    if char = 55 then s.ansiSaveCursor
    else if char = 56 then s.ansiRestoreCursor c
    else (false, s)
  else if s.seq.csi = 40 then s.decSelectCharacterSet c char
  else if s.seq.csi = 41 then s.decResetCharacterSet c char
  else (false, s)

/-- Store into the buffer of the collector. -/
def storeSeq (s : Screen κ) (offset : Nat) (char : UInt8) : Screen κ :=
  { s with seq := { s.seq with
      buf := poke s.seq.buf offset [char]
      inside := s.seq.inside && decide (offset < ansiBufSize) } }

/-- A sequence that did nothing is ended with a zero and shown. -/
def ansi (s : Screen κ) (char : UInt8) (size : Nat) : Screen κ :=
  let r := s.ansiSequence c char size
  let s := if r.1 then r.2
    else
      let s := r.2.storeSeq size 0
      { s with con := c.printf s.con (27 :: text s.seq.buf) }
  { s with escape := none }

/-- What a byte of a sequence does that is the last one of `size` so far. -/
def escapeTo (s : Screen κ) (size : Nat) (char : UInt8) : Screen κ :=
  if char = 7 then { s with escape := none }
  else if char = 64 then s.ansi c char size
  else if char = 95 then { s with escape := none }
  else if s.seq.csi = 93 then s
  else if char = 59 then
    { s with seq := { s.seq with arg1 := s.argsToInt, char1 := 0, args := size } }
  else if !c.isCharAlphaNumeric char then
    { s with seq := { s.seq with args := s.seq.args + 1, csi := char } }
  else if c.isCharAlpha char then s.ansi c char size
  else if s.seq.csi = 0 then s.ansi c char size
  else if s.seq.char1 = 0 then { s with seq := { s.seq with char1 := char } }
  else s

/-- The sequence with one more byte. -/
def stored (s : Screen κ) (n : Nat) (char : UInt8) : Screen κ :=
  { s.storeSeq n char with escape := some (n + 1) }

/-- The next byte of a sequence, of which there are `n` already. -/
def escapeAt (s : Screen κ) (n : Nat) (char : UInt8) : Screen κ :=
  (s.stored n char).escapeTo c (n + 1) char

/-- Print a run, and read the record again. -/
def putString (s : Screen κ) (run : List UInt8) : Screen κ :=
  { s with con := c.writeFile s.con run }.renderWindow c

/-- The start of a sequence. -/
def startEscape (s : Screen κ) : Screen κ :=
  { s with
    escape := some 0
    seq := { s.seq with arg1 := 1, char1 := 0, csi := 0, args := 0 } }

/-- What a control character does, if it is not printed. -/
def control (s : Screen κ) (char : UInt8) : Option (Screen κ) :=
  if char = 0 then some s
  else if char = 1 then some s
  else if char = 27 then some s.startEscape
  else if char = 8 then some (s.ansiCursorBack c 1).2
  else if char = 10 then some (s.lineFeed c).2
  else if char = 13 then some (s.carriageReturn c).2
  else if char = 14 then some (s.withCon (c.setOutputCP s.con 437)).2
  else if char = 15 then some (s.withCon (c.setOutputCP s.con cpUtf8)).2
  else none

/-- Keep the byte that is gone through. -/
def withChar (s : Screen κ) (char : UInt8) : Screen κ := { s with char := char }

/-- The loop, with the bytes that are left to go through, the buffer from the
first byte that is held back, and how many are. -/
def writeLoop : Nat → List UInt8 → Nat → Screen κ → Screen κ
  | 0, buffer, count, s => if count = 0 then s else s.putString c (buffer.take count)
  | size + 1, buffer, count, s =>
      let char := buffer.getD count 0
      let s := s.withChar char
      match s.escape with
      | some n => writeLoop size (buffer.drop 1) 0 (s.escapeAt c n char)
      | none =>
          if char < 32 then
            let s := s.putString c (buffer.take count)
            match s.control c char with
            | some s => writeLoop size ((buffer.drop count).drop 1) 0 s
            | none => writeLoop size (buffer.drop count) 1 s
          else writeLoop size buffer (count + 1) s

/-- `screen_write`, with the number of bytes it says it has written. -/
def write (s : Screen κ) (buffer : List UInt8) : Screen κ × Nat :=
  if screenMode s.tty.oFlags &&& enableVirtualTerminalProcessing ≠ 0 then
    ({ s with con := c.writeFile s.con buffer }, buffer.length)
  else (writeLoop c buffer.length buffer 0 (s.renderWindow c), buffer.length)

/-! ### What a byte of a sequence does -/

/-- A byte drops the sequence, has it carried out, or goes on with it under an
introducer. -/
inductive Turn
  | drops
  | runs
  | goesOn (csi : UInt8)
  deriving DecidableEq

def turn (csi char : UInt8) : Turn :=
  if char = 7 then .drops
  else if char = 64 then .runs
  else if char = 95 then .drops
  else if csi = 93 then .goesOn csi
  else if char = 59 then .goesOn csi
  else if !c.isCharAlphaNumeric char then .goesOn char
  else if c.isCharAlpha char then .runs
  else if csi = 0 then .runs
  else .goesOn csi

variable {c} {s : Screen κ}

/-- The state after a byte is what its turn says. -/
def Follows (c : Console κ) (s : Screen κ) (size : Nat) (char : UInt8) :
    Turn → Screen κ → Prop
  | .drops, s' => s' = { s with escape := none }
  | .runs, s' => s' = s.ansi c char size
  | .goesOn csi, s' =>
      ∃ seq, s' = { s with seq := seq } ∧ seq.csi = csi ∧ seq.inside = s.seq.inside

theorem follows_ite {size : Nat} {char : UInt8} {p : Prop} [Decidable p] {t t' : Turn}
    {s₁ s₂ : Screen κ} (h : p → Follows c s size char t s₁)
    (h' : ¬ p → Follows c s size char t' s₂) :
    Follows c s size char (if p then t else t') (if p then s₁ else s₂) := by
  by_cases hp : p
  · rw [if_pos hp, if_pos hp]
    exact h hp
  · rw [if_neg hp, if_neg hp]
    exact h' hp

theorem follows_escapeTo (s : Screen κ) (size : Nat) (char : UInt8) :
    Follows c s size char (turn c s.seq.csi char) (s.escapeTo c size char) := by
  unfold turn escapeTo
  refine follows_ite (fun _ => rfl) fun _ => ?_
  refine follows_ite (fun _ => rfl) fun _ => ?_
  refine follows_ite (fun _ => rfl) fun _ => ?_
  refine follows_ite (fun _ => ⟨s.seq, rfl, rfl, rfl⟩) fun _ => ?_
  refine follows_ite (fun _ => ⟨_, rfl, rfl, rfl⟩) fun _ => ?_
  refine follows_ite (fun _ => ⟨_, rfl, rfl, rfl⟩) fun _ => ?_
  refine follows_ite (fun _ => rfl) fun _ => ?_
  refine follows_ite (fun _ => rfl) fun _ => ?_
  by_cases hchar : s.seq.char1 = 0
  · rw [if_pos hchar]
    exact ⟨_, rfl, rfl, rfl⟩
  · rw [if_neg hchar]
    exact ⟨s.seq, rfl, rfl, rfl⟩

theorem follows_escapeAt (s : Screen κ) (n : Nat) (char : UInt8) :
    Follows c (s.stored n char) (n + 1) char (turn c s.seq.csi char) (s.escapeAt c n char) :=
  follows_escapeTo (s.stored n char) (n + 1) char

/-! ### What the functions leave alone -/

theorem keeps_carriageReturn : s.Keeps (s.carriageReturn c).2 := keeps_moveTo _

theorem keeps_lineFeed : s.Keeps (s.lineFeed c).2 := by
  unfold lineFeed
  dsimp only
  refine keeps_ite (keeps_moveTo _) (keeps_ite ?_ (keeps_ite ?_ ?_))
  · exact Keeps.trans ⟨rfl, rfl⟩ (keeps_moveTo _)
  · exact Keeps.trans ⟨rfl, rfl⟩ (keeps_moveTo _)
  · exact (keeps_withInfo _).trans (keeps_moveTo _)

/-- What a sequence has the emulator print behind the input. -/
def sequenceReply (s : Screen κ) (char : UInt8) : Option (List UInt8) :=
  if s.seq.csi = 91 then s.controlReply char else none

theorem replies_ansiSequence (char : UInt8) (size : Nat) :
    s.Replies (s.ansiSequence c char size).2 (s.sequenceReply char) := by
  unfold ansiSequence sequenceReply
  by_cases hcsi : s.seq.csi = 91
  · rw [if_pos hcsi, if_pos hcsi]
    exact replies_ansiControl char size
  · rw [if_neg hcsi, if_neg hcsi]
    refine Keeps.replies ?_
    refine keeps_ite (keeps_ite (keeps_decSetMode _) (keeps_ite (keeps_decResetMode _) ?_)) ?_
    · exact keeps_ite (keeps_decRestorePresentationState _) (keeps_refl s)
    · refine keeps_ite (keeps_ite ⟨rfl, rfl⟩ ?_) ?_
      · exact keeps_ite (keeps_moveTo _) (keeps_refl s)
      · refine keeps_ite (keeps_decSelectCharacterSet _) ?_
        exact keeps_ite (keeps_decResetCharacterSet _) (keeps_refl s)

end Screen

end MinC.Vfs
