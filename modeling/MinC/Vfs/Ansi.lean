import MinC.Lib.Numerals
import MinC.Vfs.Console
import Mathlib.Tactic.SplitIfs

/-!
The control functions of the emulator.

Each function works on the emulator's copy of the record of the console and
makes the call that brings the console in line with it. Positions are 16-bit
and wrap. A function says whether it did something; one that did not makes the
sequence be reported.
-/

namespace MinC.Vfs

open MinC.Lib

def commonLvbReverseVideo : UInt16 := 0x4000

def enableInsertMode : UInt32 := 0x20
def enableWrapAtEolOutput : UInt32 := 0x02

def cpUtf8 : UInt32 := 65001

/-! ### Numbers -/

def ansiStrToInt (s : List UInt8) : Int := if atoi s = 0 then 1 else atoi s

/-- A number that is passed as a `WORD`. -/
def word (n : Int) : UInt16 := UInt16.ofInt n

/-- Print at the place that the index gives, with a zero behind it. -/
def InputBuffer.sprintf (b : InputBuffer) (text : List UInt8) : InputBuffer where
  buf := poke b.buf (b.input + b.index) (text ++ [0])
  input := b.input
  index := b.index + text.length
  inside := b.inside && decide (b.input + b.index + text.length + 1 ≤ inputBufSize)

namespace Screen

variable {κ : Type}

/-! ### Changes of the record and the console -/

def info (s : Screen κ) : ConsoleScreenBufferInfo := s.tty.info

def withInfo (s : Screen κ) (info : ConsoleScreenBufferInfo) : Screen κ :=
  { s with tty := { s.tty with info := info } }

def withAttributes (s : Screen κ) (attributes : UInt16) : Screen κ :=
  s.withInfo { s.info with attributes := attributes }

def withVEdit (s : Screen κ) (vEdit : Bool) : Screen κ :=
  { s with tty := { s.tty with vEdit := vEdit } }

/-- Do something with the console. -/
def withCon (s : Screen κ) (r : Bool × κ) : Bool × Screen κ := (r.1, { s with con := r.2 })

/-- The arguments of the sequence that is being collected. -/
def argsToInt (s : Screen κ) : Int := ansiStrToInt (s.seq.buf.drop s.seq.args)

variable (c : Console κ)

/-- Move the cursor of the record and of the console. -/
def moveTo (s : Screen κ) (pos : Coord) : Bool × Screen κ :=
  (s.withInfo { s.info with cursorPosition := pos }).withCon (c.setCursorPosition s.con pos)

/-- What is scrolled in, and what is erased with. -/
def blank (s : Screen κ) : UInt8 × UInt16 := (32, s.info.attributes &&& 0xFF)

def scroll (s : Screen κ) (rect : SmallRect) (clip : Option SmallRect) (pos : Coord) :
    Bool × Screen κ :=
  s.withCon (c.scrollScreenBuffer s.con rect clip pos s.blank)

/-- Fill from a position on with attributes and spaces. -/
def fill (s : Screen κ) (attributes : UInt16) (size : UInt32) (pos : Coord) : Bool × Screen κ :=
  s.withCon (c.fillOutputCharacter (c.fillOutputAttribute s.con attributes size pos) 32 size pos)

/-! ### Rendering -/

def ansiScrollHorizontal (s : Screen κ) (deltaLeft deltaRight : UInt16) : Bool × Screen κ :=
  let pos := s.info.cursorPosition
  s.scroll c
    { left := pos.x + deltaLeft.toInt16
      right := s.info.size.x - deltaRight.toInt16
      top := pos.y
      bottom := pos.y }
    none { pos with x := pos.x + deltaRight.toInt16 }

def ansiInvertAttribs (s : Screen κ) : UInt16 :=
  (s.info.attributes &&& 0xF0) / 0x10 ||| (s.info.attributes &&& 0x0F) * 0x10

/-- The margins as a window, and whether they are not the whole of it. -/
def ansiRenderMargin (s : Screen κ) (top bottom : UInt16) : Bool × SmallRect :=
  let window := (c.getScreenBufferInfo s.con).window
  let result := { window with
    bottom := window.top + bottom.toInt16 - 1
    top := window.top + (top.toInt16 - 1) }
  (result ≠ window, result)

def ansiRenderCursor (s : Screen κ) : Coord :=
  let pos := s.info.cursorPosition
  if s.info.window.right < pos.x then
    { x := pos.x - (s.info.window.right + 1), y := pos.y + 1 }
  else pos

/-- The colours that a digit stands for, blue being the lowest bit. -/
def ansiColor (ch : UInt8) : Option UInt16 :=
  if ch = 48 then some 0
  else if ch = 49 then some 4
  else if ch = 50 then some 2
  else if ch = 51 then some 6
  else if ch = 52 then some 1
  else if ch = 53 then some 5
  else if ch = 54 then some 3
  else if ch = 55 then some 7
  else none

/-- The colour is taken out before it is known whether there is another. -/
def ansiRenderForeground (s : Screen κ) (char2 : UInt8) : Bool × Screen κ :=
  let attrib := s.info.attributes &&& 0xFFF8
  match ansiColor char2 with
  | some color => (true, s.withAttributes (attrib ||| color))
  | none =>
      if char2 = 57 then (true, s.withAttributes (attrib ||| 7))
      else (false, s.withAttributes attrib)

def ansiRenderBackground (s : Screen κ) (char2 : UInt8) : Bool × Screen κ :=
  let attrib := s.info.attributes &&& 0xFF8F
  match ansiColor char2 with
  | some color => (true, s.withAttributes (attrib ||| color * 0x10))
  | none =>
      if char2 = 57 then (true, s.withAttributes attrib)
      else (false, s.withAttributes attrib)

def ansiRenderFont (s : Screen κ) (char2 : UInt8) : Bool × Screen κ :=
  let attribs := s.info.attributes
  if char2 = 0 ∨ char2 = 48 then (true, s.withAttributes 7)
  else if char2 = 49 then (true, s.withAttributes (attribs ||| 8))
  else if char2 = 50 then (true, s)
  else if char2 = 51 then (true, s)
  else if char2 = 52 then (true, s.withAttributes (attribs ||| 3))
  else if char2 = 53 then (true, s.withAttributes (attribs ||| commonLvbReverseVideo))
  else if char2 = 55 then (true, s.withAttributes (attribs ||| commonLvbReverseVideo))
  else (false, s)

def ansiRenderClear (s : Screen κ) (char2 : UInt8) : Bool × Screen κ :=
  let attribs := s.info.attributes
  if char2 = 50 then (true, s.withAttributes (attribs &&& ~~~8))
  else if char2 = 52 then (true, s.withAttributes (attribs &&& ~~~3))
  else if char2 = 53 then (true, s.withAttributes (attribs &&& ~~~commonLvbReverseVideo))
  else if char2 = 55 then (true, s.withAttributes (attribs &&& ~~~commonLvbReverseVideo))
  else (false, s)

def ansiRender (s : Screen κ) (char1 char2 : UInt8) : Bool × Screen κ :=
  if char1 = 48 then s.ansiRenderFont char2
  else if char2 = 0 then s.ansiRenderFont char1
  else if char1 = 49 then s.ansiRenderFont char2
  else if char1 = 50 then s.ansiRenderClear char2
  else if char1 = 51 then s.ansiRenderForeground char2
  else if char1 = 52 then s.ansiRenderBackground char2
  else (false, s)

/-- The loop over the parameters, which gives up at one it cannot render. -/
def ansiRenderAll (s : Screen κ) (char1 char2 : UInt8) : List UInt8 → Bool × Screen κ
  | [] => (true, s)
  | ch :: rest =>
      if ch = 91 then ansiRenderAll s char1 char2 rest
      else if ch = 59 ∨ rest = [] then
        let r := s.ansiRender char1 char2
        if r.1 then ansiRenderAll r.2 0 0 rest else (false, r.2)
      else if char1 = 0 then ansiRenderAll s ch char2 rest
      else if char2 = 0 then ansiRenderAll s char1 ch rest
      else ansiRenderAll s char1 char2 rest

def ansiSelectGraphicRendition (s : Screen κ) (size : Nat) : Bool × Screen κ :=
  let r := s.ansiRenderAll 0 0 (s.seq.buf.take size)
  if !r.1 then (true, r.2)
  else if r.2.info.attributes &&& commonLvbReverseVideo ≠ 0 then
    r.2.withCon (c.setTextAttribute r.2.con r.2.ansiInvertAttribs)
  else r.2.withCon (c.setTextAttribute r.2.con (r.2.info.attributes &&& 0xFF))

/-! ### The cursor -/

def ansiCursorUp (s : Screen κ) (count : UInt16) : Bool × Screen κ :=
  let pos := s.ansiRenderCursor
  let y := pos.y - count.toInt16
  s.moveTo c { pos with y := if y < s.info.window.top then s.info.window.top else y }

def ansiCursorDown (s : Screen κ) (count : UInt16) : Bool × Screen κ :=
  let pos := s.ansiRenderCursor
  let y := pos.y + count.toInt16
  s.moveTo c { pos with y := if s.info.window.bottom < y then s.info.window.bottom else y }

def ansiCursorForward (s : Screen κ) (count : UInt16) : Bool × Screen κ :=
  let pos := s.info.cursorPosition
  let x := pos.x + count.toInt16
  let right := s.info.window.right
  s.moveTo c
    (if right < x then
      if s.tty.vEdit then { x := x - (right + 1), y := pos.y + 1 } else { pos with x := right }
    else { pos with x := x })

def ansiCursorBack (s : Screen κ) (count : UInt16) : Bool × Screen κ :=
  let pos := s.info.cursorPosition
  let x := pos.x - count.toInt16
  s.moveTo c
    (if x < 0 then
      if s.tty.vEdit then { x := x + (s.info.window.right + 1), y := pos.y - 1 }
      else { pos with x := 0 }
    else { pos with x := x })

def ansiCursorPosition (s : Screen κ) (y x : UInt16) : Bool × Screen κ :=
  s.moveTo c { x := x.toInt16 - 1, y := y.toInt16 - 1 + s.info.window.top }

def ansiNextPage (s : Screen κ) (count : UInt16) : Bool × Screen κ :=
  let window := s.info.window
  s.moveTo c
    { x := window.left, y := window.top + (window.bottom - window.top) * count.toInt16 }

def ansiCursorHorizontalAbsolute (s : Screen κ) (x : UInt16) : Bool × Screen κ :=
  s.moveTo c { s.ansiRenderCursor with x := x.toInt16 - 1 }

def ansiVerticalPositionAbsolute (s : Screen κ) (y : UInt16) : Bool × Screen κ :=
  let pos := s.ansiRenderCursor
  s.moveTo c { pos with y := pos.y - y.toInt16 }

def ansiSaveCursor (s : Screen κ) : Bool × Screen κ :=
  (true, { s with tty := { s.tty with cursor := s.ansiRenderCursor } })

def ansiRestoreCursor (s : Screen κ) : Bool × Screen κ :=
  let pos := s.tty.cursor
  s.moveTo c (if s.tty.vEdit then pos else { pos with y := s.info.cursorPosition.y })

/-! ### Scrolling and erasing -/

def ansiScrollDown (s : Screen κ) (count : UInt16) : Bool × Screen κ :=
  let window := s.info.window
  s.scroll c window (some window) { x := window.left, y := window.top + count.toInt16 }

def ansiScrollUp (s : Screen κ) (count : UInt16) : Bool × Screen κ :=
  let window := s.info.window
  s.scroll c { window with top := window.top + count.toInt16 } (some window)
    { x := window.left, y := window.top }

def ansiDeleteCharacter (s : Screen κ) (count : UInt16) : Bool × Screen κ :=
  s.ansiScrollHorizontal c count 0

def ansiInsertCharacter (s : Screen κ) (count : UInt16) : Bool × Screen κ :=
  s.ansiScrollHorizontal c 0 count

def ansiInsertLine (s : Screen κ) (count : UInt16) : Bool × Screen κ :=
  let window := s.info.window
  let y := s.info.cursorPosition.y
  s.scroll c { window with top := y } (some window) { x := 0, y := y + count.toInt16 }

def ansiDeleteLine (s : Screen κ) (count : UInt16) : Bool × Screen κ :=
  let window := s.info.window
  let y := s.info.cursorPosition.y
  s.scroll c { window with top := y + count.toInt16 } (some window) { x := 0, y := y }

def ansiEraseCharacter (s : Screen κ) (size : Int) : Bool × Screen κ :=
  s.fill c (s.info.attributes &&& 0xFF) (UInt32.ofInt size) s.ansiRenderCursor

def ansiEraseInDisplay (s : Screen κ) (parm : UInt8) : Bool × Screen κ :=
  let rect := s.info.window
  let width : Int16 := rect.right - rect.left + 1
  let attribs := s.info.attributes &&& 0xFF
  let screen : Int := (rect.bottom.toInt - rect.top.toInt + 1) * width.toInt
  if parm = 0 ∨ parm = 48 then
    let pos := s.ansiRenderCursor
    let offset := (pos.y.toInt - rect.top.toInt + 1) * width.toInt - (width.toInt - pos.x.toInt)
    s.fill c attribs (UInt32.ofInt (screen - offset)) pos
  else if parm = 49 then
    let pos := s.info.cursorPosition
    let offset := (rect.bottom.toInt - pos.y.toInt) * width.toInt + pos.x.toInt
    s.fill c attribs (UInt32.ofInt (screen - offset)) { x := rect.left, y := rect.top }
  else if parm = 50 then
    let pos := { x := rect.left, y := rect.top }
    (s.moveTo c pos).2.fill c attribs (UInt32.ofInt screen) pos
  else (false, s)

def ansiEraseInLine (s : Screen κ) (char : UInt8) : Bool × Screen κ :=
  let pos := s.ansiRenderCursor
  let right := s.info.window.right.toInt
  if char = 0 ∨ char = 48 then
    s.fill c s.info.attributes (UInt32.ofInt (right - pos.x.toInt + 1)) pos
  else if char = 49 then
    s.fill c s.info.attributes (UInt32.ofInt (s.info.cursorPosition.x.toInt + 1))
      { pos with x := 0 }
  else if char = 50 then
    s.fill c s.info.attributes (UInt32.ofInt (right + 1)) { pos with x := 0 }
  else (false, s)

/-! ### Replies -/

/-- Print a reply behind the input. -/
def reply (s : Screen κ) (text : List UInt8) : Screen κ :=
  { s with replies := s.replies.sprintf text }

/-- `ESC [ row ; column R`, without the blanks. -/
def cursorReport (s : Screen κ) : List UInt8 :=
  let pos := s.ansiRenderCursor
  [27, 91] ++ decimal (pos.y.toInt - s.info.window.top.toInt + 1) ++ [59] ++
    decimal (pos.x.toInt + 1) ++ [82]

def ansiDeviceStatusReport (s : Screen κ) (parm : UInt8) : Bool × Screen κ :=
  if parm = 54 then (true, s.reply s.cursorReport) else (false, s)

/-- `ESC [ ? 64 ; 1 ; 6 ; 15 ; 22 c`, without the blanks. -/
def attributesReport : List UInt8 :=
  [27, 91, 63, 54, 52, 59, 49, 59, 54, 59, 49, 53, 59, 50, 50, 99]

def ansiDeviceAttributes (s : Screen κ) : Bool × Screen κ := (true, s.reply attributesReport)

/-! ### Modes and margins -/

def ansiSetMode (s : Screen κ) (arg : UInt16) : Bool × Screen κ :=
  match c.getMode s.con with
  | none => (false, s)
  | some mode =>
      if arg = 4 then s.withCon (c.setMode s.con (mode ||| enableInsertMode))
      else if arg = 7 then (true, s.withVEdit true)
      else (false, s)

def ansiResetMode (s : Screen κ) (arg : UInt16) : Bool × Screen κ :=
  match c.getMode s.con with
  | none => (false, s)
  | some mode =>
      if arg = 4 then s.withCon (c.setMode s.con (mode &&& ~~~enableInsertMode))
      else if arg = 7 then (true, s.withVEdit false)
      else (false, s)

def ansiVerticalEditingMode (s : Screen κ) (parm : Int16) : Bool × Screen κ :=
  if parm = 1 then (true, s.withVEdit true)
  else if parm = 2 then (true, s.withVEdit false)
  else (false, s)

/-- The margins go into the record only: the console is not told. -/
def ansiSetTopBottomMargin (s : Screen κ) (top bottom : UInt16) : Bool × Screen κ :=
  let r := s.ansiRenderMargin c top bottom
  let s := (s.ansiVerticalEditingMode (if r.1 then 1 else 2)).2
  (s.withInfo { s.info with window := r.2 }).moveTo c { x := r.2.left, y := r.2.top }

/-! ### DEC private functions -/

def decSetMode (s : Screen κ) (arg : UInt16) : Bool × Screen κ :=
  match c.getMode s.con with
  | none => (false, s)
  | some mode =>
      if arg = 4 then (true, { s with tty := { s.tty with scrollRate := 1 } })
      else if arg = 7 then s.withCon (c.setMode s.con (mode ||| enableWrapAtEolOutput))
      else if arg = 25 then s.withCon (c.setCursorInfo s.con true)
      else if arg = 1000 then (true, s)
      else if arg = 2004 then (true, s)
      else (false, s)

def decResetMode (s : Screen κ) (arg : UInt16) : Bool × Screen κ :=
  match c.getMode s.con with
  | none => (false, s)
  | some mode =>
      if arg = 4 then (true, { s with tty := { s.tty with scrollRate := 6 } })
      else if arg = 7 then s.withCon (c.setMode s.con (mode &&& ~~~enableWrapAtEolOutput))
      else if arg = 12 then s.withCon (c.setCursorInfo s.con true)
      else if arg = 25 then s.withCon (c.setCursorInfo s.con false)
      else if arg = 1000 then (true, s)
      else if arg = 2004 then (true, s)
      else (false, s)

def decSelectCharacterSet (s : Screen κ) (char : UInt8) : Bool × Screen κ :=
  if char = 65 then s.withCon (c.setOutputCP s.con 850)
  else if char = 66 then s.withCon (c.setOutputCP s.con 437)
  else if char = 75 then s.withCon (c.setOutputCP s.con c.oemcp)
  else if char = 85 then s.withCon (c.setOutputCP s.con 437)
  else if char = 48 then s.withCon (c.setOutputCP s.con 437)
  else if char = 49 then s.withCon (c.setOutputCP s.con c.acp)
  else if char = 50 then s.withCon (c.setOutputCP s.con c.oemcp)
  else (false, s)

def decResetCharacterSet (s : Screen κ) (char : UInt8) : Bool × Screen κ :=
  if char = 65 then s.withCon (c.setOutputCP s.con cpUtf8)
  else if char = 66 then s.withCon (c.setOutputCP s.con 1252)
  else if char = 75 then s.withCon (c.setOutputCP s.con c.acp)
  else if char = 85 then s.withCon (c.setOutputCP s.con cpUtf8)
  else (false, s)

/-- The record as the console has it, without the edges that are rendered. -/
def decRestorePresentationState (s : Screen κ) (arg : UInt16) : Bool × Screen κ :=
  if arg = 1 then (true, s.withInfo (c.getScreenBufferInfo s.con)) else (false, s)

/-! ### The dispatch -/

/-- What a control sequence does, by its last character. An unknown one does
nothing, and is not reported. -/
def ansiControl (s : Screen κ) (char : UInt8) (size : Nat) : Bool × Screen κ :=
  let arg := word s.argsToInt
  if char = 64 then s.ansiInsertCharacter c arg
  else if char = 65 then s.ansiCursorUp c arg
  else if char = 66 then s.ansiCursorDown c arg
  else if char = 67 then s.ansiCursorForward c arg
  else if char = 68 then s.ansiCursorBack c arg
  else if char = 71 then s.ansiCursorHorizontalAbsolute c arg
  else if char = 72 then s.ansiCursorPosition c (word s.seq.arg1) arg
  else if char = 74 then s.ansiEraseInDisplay c s.seq.char1
  else if char = 75 then s.ansiEraseInLine c s.seq.char1
  else if char = 76 then s.ansiInsertLine c arg
  else if char = 77 then s.ansiDeleteLine c arg
  else if char = 80 then s.ansiDeleteCharacter c arg
  else if char = 83 then s.ansiScrollUp c arg
  else if char = 84 then s.ansiScrollDown c arg
  else if char = 85 then s.ansiNextPage c arg
  else if char = 88 then s.ansiEraseCharacter c s.argsToInt
  else if char = 98 then s.ansiVerticalEditingMode arg.toInt16
  else if char = 99 then s.ansiDeviceAttributes
  else if char = 100 then s.ansiVerticalPositionAbsolute c arg
  else if char = 102 then s.ansiCursorPosition c (word s.seq.arg1) arg
  else if char = 104 then s.ansiSetMode c (word s.seq.arg1)
  else if char = 108 then s.ansiResetMode c (word s.seq.arg1)
  else if char = 109 then s.ansiSelectGraphicRendition c size
  else if char = 110 then s.ansiDeviceStatusReport s.seq.char1
  else if char = 114 then s.ansiSetTopBottomMargin c (word s.seq.arg1) arg
  else if char = 115 then s.ansiSaveCursor
  else if char = 117 then s.ansiRestoreCursor c
  else (true, s)

/-! ### What the functions leave alone -/

/-- The collector and the replies are as they were. -/
def Keeps (s s' : Screen κ) : Prop := s'.seq = s.seq ∧ s'.replies = s.replies

variable {c} {s : Screen κ}

theorem Keeps.trans {s₁ s₂ s₃ : Screen κ} (h : s₁.Keeps s₂) (h' : s₂.Keeps s₃) :
    s₁.Keeps s₃ :=
  ⟨h'.1.trans h.1, h'.2.trans h.2⟩

theorem keeps_refl (s : Screen κ) : s.Keeps s := ⟨rfl, rfl⟩

theorem keeps_withInfo (info : ConsoleScreenBufferInfo) : s.Keeps (s.withInfo info) := ⟨rfl, rfl⟩

theorem keeps_withCon (r : Bool × κ) : s.Keeps (s.withCon r).2 := ⟨rfl, rfl⟩

theorem keeps_moveTo (pos : Coord) : s.Keeps (s.moveTo c pos).2 := ⟨rfl, rfl⟩

theorem keeps_fill (attributes : UInt16) (size : UInt32) (pos : Coord) :
    s.Keeps (s.fill c attributes size pos).2 := ⟨rfl, rfl⟩

theorem keeps_ite {p : Prop} [Decidable p] {r r' : Bool × Screen κ} (h : s.Keeps r.2)
    (h' : s.Keeps r'.2) : s.Keeps (if p then r else r').2 := by
  split_ifs
  · exact h
  · exact h'

theorem keeps_ansiRenderFont (char2 : UInt8) : s.Keeps (s.ansiRenderFont char2).2 := by
  unfold ansiRenderFont
  dsimp only
  refine keeps_ite ⟨rfl, rfl⟩ (keeps_ite ⟨rfl, rfl⟩ (keeps_ite ⟨rfl, rfl⟩ ?_))
  refine keeps_ite ⟨rfl, rfl⟩ (keeps_ite ⟨rfl, rfl⟩ (keeps_ite ⟨rfl, rfl⟩ ?_))
  exact keeps_ite ⟨rfl, rfl⟩ ⟨rfl, rfl⟩

theorem keeps_ansiRenderClear (char2 : UInt8) : s.Keeps (s.ansiRenderClear char2).2 := by
  unfold ansiRenderClear
  dsimp only
  split_ifs <;> exact ⟨rfl, rfl⟩

theorem keeps_ansiRenderForeground (char2 : UInt8) :
    s.Keeps (s.ansiRenderForeground char2).2 := by
  unfold ansiRenderForeground
  cases ansiColor char2 with
  | none =>
      dsimp only
      split_ifs <;> exact ⟨rfl, rfl⟩
  | some color => exact ⟨rfl, rfl⟩

theorem keeps_ansiRenderBackground (char2 : UInt8) :
    s.Keeps (s.ansiRenderBackground char2).2 := by
  unfold ansiRenderBackground
  cases ansiColor char2 with
  | none =>
      dsimp only
      split_ifs <;> exact ⟨rfl, rfl⟩
  | some color => exact ⟨rfl, rfl⟩

theorem keeps_ansiRender (char1 char2 : UInt8) : s.Keeps (s.ansiRender char1 char2).2 := by
  unfold ansiRender
  split_ifs
  · exact keeps_ansiRenderFont char2
  · exact keeps_ansiRenderFont char1
  · exact keeps_ansiRenderFont char2
  · exact keeps_ansiRenderClear char2
  · exact keeps_ansiRenderForeground char2
  · exact keeps_ansiRenderBackground char2
  · exact keeps_refl s

theorem keeps_ansiRenderAll (char1 char2 : UInt8) (parms : List UInt8) :
    s.Keeps (s.ansiRenderAll char1 char2 parms).2 := by
  induction parms generalizing s char1 char2 with
  | nil => exact keeps_refl s
  | cons ch rest ih =>
      rw [ansiRenderAll]
      dsimp only
      split_ifs
      · exact ih char1 char2
      · exact (keeps_ansiRender char1 char2).trans (ih 0 0)
      · exact keeps_ansiRender char1 char2
      · exact ih ch char2
      · exact ih char1 ch
      · exact ih char1 char2

theorem keeps_ansiSelectGraphicRendition (size : Nat) :
    s.Keeps (s.ansiSelectGraphicRendition c size).2 := by
  unfold ansiSelectGraphicRendition
  dsimp only
  split_ifs
  · exact keeps_ansiRenderAll 0 0 _
  · exact (keeps_ansiRenderAll 0 0 _).trans (keeps_withCon _)
  · exact (keeps_ansiRenderAll 0 0 _).trans (keeps_withCon _)

theorem keeps_ansiEraseInDisplay (parm : UInt8) : s.Keeps (s.ansiEraseInDisplay c parm).2 := by
  unfold ansiEraseInDisplay
  dsimp only
  split_ifs
  · exact keeps_fill _ _ _
  · exact keeps_fill _ _ _
  · exact (keeps_moveTo _).trans (keeps_fill _ _ _)
  · exact keeps_refl s

theorem keeps_ansiEraseInLine (char : UInt8) : s.Keeps (s.ansiEraseInLine c char).2 := by
  unfold ansiEraseInLine
  dsimp only
  split_ifs
  · exact keeps_fill _ _ _
  · exact keeps_fill _ _ _
  · exact keeps_fill _ _ _
  · exact keeps_refl s

theorem keeps_ansiVerticalEditingMode (parm : Int16) :
    s.Keeps (s.ansiVerticalEditingMode parm).2 := by
  unfold ansiVerticalEditingMode
  split_ifs <;> exact ⟨rfl, rfl⟩

theorem keeps_ansiSetTopBottomMargin (top bottom : UInt16) :
    s.Keeps (s.ansiSetTopBottomMargin c top bottom).2 :=
  ((keeps_ansiVerticalEditingMode _).trans (keeps_withInfo _)).trans (keeps_moveTo _)

theorem keeps_ansiSetMode (arg : UInt16) : s.Keeps (s.ansiSetMode c arg).2 := by
  unfold ansiSetMode
  split
  · exact keeps_refl s
  · split_ifs <;> exact ⟨rfl, rfl⟩

theorem keeps_ansiResetMode (arg : UInt16) : s.Keeps (s.ansiResetMode c arg).2 := by
  unfold ansiResetMode
  split
  · exact keeps_refl s
  · split_ifs <;> exact ⟨rfl, rfl⟩

theorem keeps_decSetMode (arg : UInt16) : s.Keeps (s.decSetMode c arg).2 := by
  unfold decSetMode
  split
  · exact keeps_refl s
  · split_ifs <;> exact ⟨rfl, rfl⟩

theorem keeps_decResetMode (arg : UInt16) : s.Keeps (s.decResetMode c arg).2 := by
  unfold decResetMode
  split
  · exact keeps_refl s
  · split_ifs <;> exact ⟨rfl, rfl⟩

theorem keeps_decSelectCharacterSet (char : UInt8) :
    s.Keeps (s.decSelectCharacterSet c char).2 := by
  unfold decSelectCharacterSet
  refine keeps_ite ⟨rfl, rfl⟩ (keeps_ite ⟨rfl, rfl⟩ (keeps_ite ⟨rfl, rfl⟩ ?_))
  refine keeps_ite ⟨rfl, rfl⟩ (keeps_ite ⟨rfl, rfl⟩ (keeps_ite ⟨rfl, rfl⟩ ?_))
  exact keeps_ite ⟨rfl, rfl⟩ ⟨rfl, rfl⟩

theorem keeps_decResetCharacterSet (char : UInt8) :
    s.Keeps (s.decResetCharacterSet c char).2 := by
  unfold decResetCharacterSet
  split_ifs <;> exact ⟨rfl, rfl⟩

theorem keeps_decRestorePresentationState (arg : UInt16) :
    s.Keeps (s.decRestorePresentationState c arg).2 := by
  unfold decRestorePresentationState
  split_ifs <;> exact ⟨rfl, rfl⟩

/-- What a control sequence has the emulator print behind the input. -/
def controlReply (s : Screen κ) (char : UInt8) : Option (List UInt8) :=
  if char = 99 then some attributesReport
  else if char = 110 ∧ s.seq.char1 = 54 then some s.cursorReport
  else none

/-- A state that is left alone but for a reply. -/
def Replies (s s' : Screen κ) (text : Option (List UInt8)) : Prop :=
  s'.seq = s.seq ∧ s'.replies = (text.elim s.replies s.replies.sprintf)

theorem Keeps.replies {s' : Screen κ} (h : s.Keeps s') : s.Replies s' none := h

theorem controlReply_of_ne {char : UInt8} (hda : char ≠ 99) (hdsr : char ≠ 110) :
    s.controlReply char = none := by
  unfold controlReply
  rw [if_neg hda, if_neg fun h => hdsr h.1]

theorem replies_ansiControl (char : UInt8) (size : Nat) :
    s.Replies (s.ansiControl c char size).2 (s.controlReply char) := by
  by_cases hda : char = 99
  · subst hda
    exact ⟨rfl, rfl⟩
  · by_cases hdsr : char = 110
    · subst hdsr
      show s.Replies (s.ansiDeviceStatusReport s.seq.char1).2 (s.controlReply 110)
      unfold ansiDeviceStatusReport controlReply
      by_cases hparm : s.seq.char1 = 54
      · rw [if_pos hparm, if_neg (by decide), if_pos ⟨rfl, hparm⟩]
        exact ⟨rfl, rfl⟩
      · rw [if_neg hparm, if_neg (by decide), if_neg fun h => hparm h.2]
        exact ⟨rfl, rfl⟩
    · rw [controlReply_of_ne hda hdsr]
      -- no other sequence is answered
      refine Keeps.replies ?_
      unfold ansiControl
      dsimp only
      refine keeps_ite ⟨rfl, rfl⟩ (keeps_ite (keeps_moveTo _) (keeps_ite (keeps_moveTo _) ?_))
      refine keeps_ite (keeps_moveTo _) (keeps_ite (keeps_moveTo _) ?_)
      refine keeps_ite (keeps_moveTo _) (keeps_ite (keeps_moveTo _) ?_)
      refine keeps_ite (keeps_ansiEraseInDisplay _) (keeps_ite (keeps_ansiEraseInLine _) ?_)
      refine keeps_ite ⟨rfl, rfl⟩ (keeps_ite ⟨rfl, rfl⟩ (keeps_ite ⟨rfl, rfl⟩ ?_))
      refine keeps_ite ⟨rfl, rfl⟩ (keeps_ite ⟨rfl, rfl⟩ (keeps_ite (keeps_moveTo _) ?_))
      refine keeps_ite (keeps_fill _ _ _) (keeps_ite (keeps_ansiVerticalEditingMode _) ?_)
      rw [if_neg hda]
      refine keeps_ite (keeps_moveTo _) (keeps_ite (keeps_moveTo _) ?_)
      refine keeps_ite (keeps_ansiSetMode _) (keeps_ite (keeps_ansiResetMode _) ?_)
      refine keeps_ite (keeps_ansiSelectGraphicRendition _) ?_
      rw [if_neg hdsr]
      refine keeps_ite (keeps_ansiSetTopBottomMargin _ _) (keeps_ite ⟨rfl, rfl⟩ ?_)
      exact keeps_ite (keeps_moveTo _) (keeps_refl s)

end Screen

end MinC.Vfs
