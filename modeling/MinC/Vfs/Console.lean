import MinC.Lib.Cells

/-!
The console, as the emulator sees it.

Windows keeps a screen of cells, a cursor, a window on the screen and the
attributes that are printed with. The emulator reads them back as one record
and changes them one at a time. What a console does with a change is its own
affair: all that the emulator relies on is that printing two strings is
printing one after the other.
-/

namespace MinC.Vfs

structure Coord where
  x : Int16
  y : Int16
  deriving DecidableEq

structure SmallRect where
  left : Int16
  top : Int16
  right : Int16
  bottom : Int16
  deriving DecidableEq

/-- What a console says of itself. -/
structure ConsoleScreenBufferInfo where
  size : Coord
  cursorPosition : Coord
  attributes : UInt16
  window : SmallRect
  deriving DecidableEq

/-- The calls of a console whose state is of some type. A call that may be
refused says whether it was. -/
structure Console (κ : Type) where
  getScreenBufferInfo : κ → ConsoleScreenBufferInfo
  writeFile : κ → List UInt8 → κ
  /-- What the C library does to show a message on the error stream. -/
  printf : κ → List UInt8 → κ
  setCursorPosition : κ → Coord → Bool × κ
  setTextAttribute : κ → UInt16 → Bool × κ
  scrollScreenBuffer : κ → SmallRect → Option SmallRect → Coord → UInt8 × UInt16 → Bool × κ
  fillOutputAttribute : κ → UInt16 → UInt32 → Coord → κ
  fillOutputCharacter : κ → UInt8 → UInt32 → Coord → Bool × κ
  getMode : κ → Option UInt32
  setMode : κ → UInt32 → Bool × κ
  /-- Show or hide the cursor. -/
  setCursorInfo : κ → Bool → Bool × κ
  setOutputCP : κ → UInt32 → Bool × κ
  acp : UInt32
  oemcp : UInt32
  isCharAlpha : UInt8 → Bool
  isCharAlphaNumeric : UInt8 → Bool
  writeFile_nil : ∀ k, writeFile k [] = k
  writeFile_append : ∀ k a b, writeFile k (a ++ b) = writeFile (writeFile k a) b

/-- The fields of a terminal that the emulator uses, its copy of the record of
the console among them. -/
structure Tty where
  oFlags : UInt32
  scrollRate : UInt32
  vEdit : Bool
  cursor : Coord
  info : ConsoleScreenBufferInfo
  deriving DecidableEq

/-- The collector of escape sequences. The pointer into its buffer is an
offset, and a store outside of the buffer is remembered. -/
structure Sequence where
  args : Nat
  arg1 : Int
  char1 : UInt8
  csi : UInt8
  buf : List UInt8
  inside : Bool
  deriving DecidableEq

/-- The buffer that input is read from, with the offset of what is next, and
the place behind it where the next reply is printed. -/
structure InputBuffer where
  buf : List UInt8
  input : Nat
  index : Nat
  inside : Bool
  deriving DecidableEq

/-- A console and the globals of the emulator. -/
structure Screen (κ : Type) where
  con : κ
  tty : Tty
  seq : Sequence
  escape : Option Nat
  char : UInt8
  replies : InputBuffer

/-- The globals as a process starts with them. -/
def Screen.boot {κ : Type} (con : κ) (tty : Tty) : Screen κ where
  con := con
  tty := tty
  seq := { args := 0, arg1 := 0, char1 := 0, csi := 0, buf := [], inside := true }
  escape := none
  char := 0
  replies := { buf := [], input := 0, index := 0, inside := true }

/-- The bytes that the buffer of the collector has. -/
def ansiBufSize : Nat := 128

def winMaxInput : Nat := 255

/-- The bytes that the buffer of the input has. -/
def inputBufSize : Nat := winMaxInput + 2

end MinC.Vfs
