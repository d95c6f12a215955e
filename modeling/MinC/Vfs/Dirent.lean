import MinC.Lib.Records
import MinC.Vfs.Walk
import MinC.Win.Error

/-!
Entries of directories.

A directory is read through a search of Windows, which is begun with the first
entry. What was found goes into the buffer of the caller as a record, of the
size that its name takes, as long as there is room for the largest one. An
entry that is hidden is passed over, and one that is a link of the shell is
named without its extension. The end of the search closes it, and the index
then says that there is nothing more.
-/

namespace MinC.Vfs

open MinC.Lib MinC.Win

/-! ### Searches -/

/-- `WIN32_FIND_DATAW`. -/
structure FindData where
  fileAttributes : UInt32
  fileName : List UInt16
  zero_not_mem : 0 ∉ fileName
  length_le : fileName.length ≤ 255

/-- What Windows comes to in a directory. -/
inductive Found
  | entry (data : FindData)
  | fail (error : UInt32)

/-- The searches that were begun, with what each has not come to yet. Their handles are
given out one after the other, and none is zero. -/
structure Finds where
  last : Nat
  rest : Nat → List Found

namespace Finds

variable (s : Finds)

def findFirstFile (dir : List UInt16 → List Found) (name : List UInt16) :
    Except UInt32 (FindData × Nat) × Finds :=
  match dir name with
  | [] => (.error errorFileNotFound, s)
  | .fail e :: _ => (.error e, s)
  | .entry data :: rest =>
      (.ok (data, s.last + 1), ⟨s.last + 1, Function.update s.rest (s.last + 1) rest⟩)

def findNextFile (handle : Nat) : Except UInt32 FindData × Finds :=
  match s.rest handle with
  | [] => (.error errorNoMoreFiles, s)
  | .fail e :: rest => (.error e, { s with rest := Function.update s.rest handle rest })
  | .entry data :: rest => (.ok data, { s with rest := Function.update s.rest handle rest })

end Finds

/-- What there is to be found, and whether a search can be closed. -/
structure DirEnv where
  fs : WinFs
  dir : List UInt16 → List Found
  closes : Bool

/-! ### Records -/

def winDirentSize : UInt32 := 280
def fileNameOffset : Nat := 24
def winMaxnamlen : Int := 255

def fileAttributeHidden : UInt32 := 0x02

def direntRecsize (namelen : UInt32) : UInt32 := (24 + namelen + 1 + 7) &&& 0xFFFFFFF8

/-- `__DTYPE_POSIX`. -/
def dtypePosix : WinVtype → UInt8
  | .vnon => 0
  | .vreg => 8
  | .vdir => 4
  | .vblk => 6
  | .vchr => 2
  | .vlnk => 10
  | .vsock => 12
  | .vfifo => 1
  | .vbad => 0

/-- The loop of `win_typename`, at an offset, with that of the last point. -/
def typenameFrom (f : Nat) (r : Option Nat) : List UInt16 → Nat
  | [] => r.getD f
  | c :: fileName =>
      typenameFrom (f + 1) (if c = 46 then some f else if c = 92 then none else r) fileName

/-- The offset of the type in a name. -/
def winTypename (fileName : List UInt16) : Nat := typenameFrom 0 none fileName

section
variable (env : DirEnv)

/-- What an entry is, with the name it is given. -/
def entityKind (data : FindData) (path : WinNameidata) :
    (WinNameidata × Bool) × List UInt16 :=
  if data.fileAttributes = fileClassInode then
    (diskLookup env.fs (path.write path.base (data.fileName ++ [0])) 0, data.fileName)
  else if flagSet data.fileAttributes fileAttributeDirectory then
    (({ path with fileType := .vdir }, true), data.fileName)
  else if data.fileName.drop (winTypename data.fileName) = lnkType then
    (({ path with fileType := .vlnk }, true),
      data.fileName.take (winTypename data.fileName))
  else (({ path with fileType := .vreg }, true), data.fileName)

/-- `WIN_DIRENT` without its name. -/
def direntHead (index recSize : UInt32) (fileType nameSize : UInt8) : List UInt8 :=
  leBytes 8 index.toNat ++ leBytes 8 recSize.toNat ++ leBytes 2 recSize.toNat ++
    [fileType, nameSize]

/-- Write a record to the front of a buffer. A name that is not converted has the size −1. -/
def direntWrite (index : UInt32) (fileType : WinVtype) (name : Option (List UInt8))
    (buffer : List UInt8) : List UInt8 × UInt32 :=
  let nameSize := (name.map fun name => UInt32.ofNat name.length).getD 0xFFFFFFFF
  let named := (name.map fun name => poke buffer fileNameOffset (name ++ [0])).getD buffer
  (poke named 0 (direntHead index (direntRecsize nameSize) (dtypePosix fileType)
    (UInt8.ofNat nameSize.toNat)), direntRecsize nameSize)

/-- What `DiskGetEntity` leaves: the path, the buffer, the size of the record and the error
that the caller is told. -/
structure Entity where
  path : WinNameidata
  buffer : List UInt8
  size : UInt32
  error : Option UInt32

def diskGetEntity (data : FindData) (path : WinNameidata) (index : UInt32)
    (buffer : List UInt8) : Entity :=
  let kind := entityKind env data path
  let name := winWcstombs kind.2 winMaxnamlen
  let written := direntWrite index kind.1.1.fileType name buffer
  { path := kind.1.1
    buffer := written.1
    size := written.2
    error :=
      if kind.1.2 then none
      else if name = none then some errorInsufficientBuffer else some errorBadFileType }

/-! ### Directories -/

/-- A path with its index, and the searches. -/
structure DirStream where
  path : WinNameidata
  index : UInt32
  finds : Finds

def diskRewinddir (s : DirStream) : Option FindData × DirStream :=
  match s.finds.findFirstFile env.dir s.path.name with
  | (.error _, finds) => (none, { s with finds := finds })
  | (.ok (data, handle), finds) => (some data, ⟨{ s.path with object := handle }, 1, finds⟩)

def diskReaddir (s : DirStream) : Option FindData × DirStream :=
  if s.path.object = 0 then diskRewinddir env s
  else match s.finds.findNextFile s.path.object with
  | (.ok data, finds) => (some data, { s with finds := finds })
  | (.error e, finds) =>
      if e ≠ errorNoMoreFiles then (none, { s with finds := finds })
      else if !env.closes then (none, { s with finds := finds })
      else (none, ⟨{ s.path with object := 0 }, 0xFFFFFFFF,
        { finds with rest := Function.update finds.rest s.path.object [] }⟩)

/-- What is left when a call ends: the buffer, the number of bytes, the error and the path. -/
structure Getdents where
  buffer : List UInt8
  result : UInt32
  error : Option UInt32
  stream : DirStream

/-- The loop of `disk_getdents`. Every turn but the last comes to another entry, so that one
turn more than there are entries is enough. -/
def getdentsLoop : Nat → UInt32 → List UInt8 → UInt32 → DirStream → Getdents
  | 0, _, buffer, dwResult, s => ⟨buffer, dwResult, none, s⟩
  | fuel + 1, lSize, buffer, dwResult, s =>
      if lSize < winDirentSize then ⟨buffer, dwResult, none, s⟩
      else match diskReaddir env s with
      | (none, s) => ⟨buffer, dwResult, none, s⟩
      | (some data, s) =>
          if flagSet data.fileAttributes fileAttributeHidden then
            getdentsLoop fuel lSize buffer dwResult s
          else
            let entity := diskGetEntity env data s.path s.index buffer
            match entity.error with
            | some e => ⟨entity.buffer, dwResult, some e, { s with path := entity.path }⟩
            | none =>
                let rest := getdentsLoop fuel (lSize - entity.size)
                  (entity.buffer.drop entity.size.toNat) (dwResult + entity.size)
                  { s with path := entity.path, index := s.index + 1 }
                { rest with buffer := entity.buffer.take entity.size.toNat ++ rest.buffer }

/-- The entries that a stream has not come to. -/
def DirStream.rest (s : DirStream) : List Found :=
  if s.path.object = 0 then env.dir s.path.name else s.finds.rest s.path.object

def diskGetdents (buffer : List UInt8) (s : DirStream) : Getdents :=
  if s.index = 0xFFFFFFFF then ⟨buffer, 0, none, s⟩
  else getdentsLoop env ((s.rest env).length + 1) (UInt32.ofNat buffer.length) buffer 0 s

def vfsGetdents (buffer : List UInt8) (s : DirStream) : Getdents :=
  match s.path.fsType with
  | .disk => diskGetdents env buffer s
  | _ => ⟨buffer, 0, some errorBadFileType, s⟩

end

/-! ### Reading records -/

/-- A record as a caller has it. -/
structure Dirent where
  recSize : Nat
  fileType : UInt8
  nameSize : UInt8
  name : List UInt8
  deriving DecidableEq

/-- The record at the front of a buffer, with a name that ends in it. -/
def readDirent (bytes : List UInt8) : Option (Dirent × Nat) :=
  let recSize := leNat ((bytes.drop 16).take 2)
  let cells := (bytes.take recSize).drop fileNameOffset
  if bytes.length < recSize ∨ 0 ∉ cells then none
  else some (⟨recSize, bytes.getD 18 0, bytes.getD 19 0, text cells⟩, recSize)

end MinC.Vfs
