/-!
The types the virtual file system shares.

Handles, attributes and flags are the numbers Windows has for them. A
`WinNameidata` keeps the cells of its path buffer in a list that grows as it
is written to, so that a write behind the end of the array the source has is a
state like any other; `high` is the number of cells up to the last one ever
written, and `linkOutside` tells that the target of a link was read into cells
its buffer does not have. Pointers into the buffer are offsets, and `last`,
which the source sets to one before the write position, may be one before the
buffer.
-/

namespace MinC.Vfs

/-- The kinds of file systems, in the order of the source. -/
inductive WinFsType
  | unknown | disk | char | pipe | mailslot | pdo | drive | process | winsock | registry
  | volume | npf | link | ndis | shell
  deriving DecidableEq

/-- The kinds of files, in the order of the source. -/
inductive WinVtype
  | vnon | vreg | vdir | vblk | vchr | vlnk | vsock | vfifo | vbad
  deriving DecidableEq

/-- The pseudo devices that are opened in a way of their own. -/
def devClassTty : UInt32 := 0x0500
def devTypeNull : UInt32 := 0x0103
def devTypeStdin : UInt32 := 0x0109
def devTypeStdout : UInt32 := 0x010A
def devTypeStderr : UInt32 := 0x010B
def devTypePtm : UInt32 := 0x0502

/-- The cells a path buffer has. -/
def winPathMax : Nat := 1024

/-- The attributes of a name that names nothing. -/
def noAttribs : UInt32 := 0xFFFFFFFF

/-- A path under resolution. -/
structure WinNameidata where
  mountId : UInt32
  deviceId : UInt32
  fileType : WinVtype
  fsType : WinFsType
  size : UInt32
  object : Nat
  attribs : UInt32
  flags : UInt32
  base : Nat
  last : Int
  r : Nat
  s : List UInt16
  resolved : List UInt16
  high : Nat
  linkOutside : Bool
  deriving DecidableEq

namespace WinNameidata

/-- The name in the buffer, up to its terminating zero. -/
def name (path : WinNameidata) : List UInt16 := path.resolved.takeWhile (· ≠ 0)

/-- The cell `last` points at. -/
def lastChar (path : WinNameidata) : UInt16 := path.resolved.getD path.last.toNat 0

end WinNameidata

end MinC.Vfs
