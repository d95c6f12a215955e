import MinC.Vfs.Types
import MinC.Win.Wchar

/-!
Path resolution.

The name grows in the path buffer component by component, and each component
but the last is looked at before the next one is appended. A link, a mount
point or a pipe that is found there replaces what is in the buffer. What
Windows answers is a `WinFs`; resolving a path does not change it.
-/

namespace MinC.Vfs

open MinC.Lib MinC.Win

/-! ### What is found -/

/-- The head of a node that is kept in a file. The system writes these for
links, pipes and devices only. -/
structure WinInode where
  deviceId : UInt32
  fileType : WinVtype
  fsType : WinFsType
  nameSize : UInt32
  known : fsType = .disk ∨ fsType = .pipe ∨ fsType = .pdo

/-- The cells `szBuffer` has in the readers of links. -/
def maxPath : Nat := 260

/-- What a shell link says about its target. -/
inductive ShellTarget
  | idList (path : List UInt16) (fits : path.length < maxPath)
  | badIdList
  | localBase (path : List UInt8)
  | network (device suffix : List UInt8)
  | neither

structure Shortcut where
  fileAttributes : UInt32
  target : ShellTarget
  valid : fileAttributes ≠ noAttribs

/-- The answers of Windows: the attributes of a name, the head of a node with a
handle to what follows it, the text behind a handle, which is kept with its
zero, and the shell links. `stale` is what is found in a buffer that nothing
was written to. -/
structure WinFs where
  attributes : List UInt16 → UInt32
  stat : Bool → List UInt16 → Option (WinInode × Nat)
  read : Nat → UInt32 → List UInt16
  shortcut : List UInt16 → Option Shortcut
  stale : List UInt16
  zero_not_mem_read : ∀ handle size, 0 ∉ read handle size
  bounded : ∃ n, ∀ name, n < name.length → attributes name = noAttribs

/-! ### Flags and attributes -/

def winFollow : UInt32 := 0x40
def winNofollow : UInt32 := 0
def winNocrossmount : UInt32 := 0x100
def winIssymlink : UInt32 := 0x10000
def winRequiredir : UInt32 := 0x80000
def winStripslashes : UInt32 := 0x100000
def winPathcopy : UInt32 := 0x400000
def winRequireobject : UInt32 := 0x1000000
def winLockleaf : UInt32 := 4

def fileAttributeDirectory : UInt32 := 0x10

/-- The attributes that tell the classes of files apart. -/
def fileClass (attribs : UInt32) : UInt32 := attribs &&& 0x17

def fileClassInode : UInt32 := 0x04
def fileClassMount : UInt32 := 0x15

/-- The number of the drive a letter names. -/
def mountIdOf (ch : UInt16) : UInt32 := if ch = 0 then 0 else 1 + (tolower ch).toUInt32 - 97

/-- A flag is set. -/
def flagSet (flags flag : UInt32) : Bool := flags &&& flag ≠ 0

/-! ### Writing -/

namespace WinNameidata

/-- A path that is cleared, as all callers of a lookup have it. -/
def zero : WinNameidata where
  mountId := 0
  deviceId := 0
  fileType := .vnon
  fsType := .unknown
  size := 0
  object := 0
  attribs := 0
  flags := 0
  base := 0
  last := 0
  r := 0
  s := []
  resolved := []
  high := 0
  linkOutside := false

/-- Write cells into the buffer. -/
def write (path : WinNameidata) (i : Nat) (cells : List UInt16) : WinNameidata :=
  { path with
    resolved := poke path.resolved i cells
    high := max path.high (i + cells.length) }

/-- `win_wcpcpy` to an offset of the buffer: the write position ends up at the
terminating zero. -/
def wcpcpy (path : WinNameidata) (i : Nat) (w : List UInt16) : WinNameidata :=
  { path.write i (w ++ [0]) with r := i + w.length }

end WinNameidata

/-! ### Reading components -/

/-- The character a component gets for a colon. -/
def underscore (c : UInt16) : UInt16 := replace 58 95 c

def backslash (c : UInt16) : UInt16 := replace 47 92 c

def pathRead (path : WinNameidata) (flags : UInt32) : WinNameidata × UInt16 :=
  let component := path.s.takeWhile (· ≠ 47)
  let rest := path.s.drop component.length
  ({ path.wcpcpy path.r (92 :: component.map underscore) with
      base := path.r + 1
      s := rest.drop 1 },
    if flagSet flags winStripslashes then (rest.drop 1).headD 0 else rest.headD 0)

def pathCopy (path : WinNameidata) : WinNameidata :=
  { path.wcpcpy path.r (path.s.map (backslash ∘ underscore)) with
    base := path.r
    s := [] }

/-! ### Nodes that lead on -/

/-- What `win_readlink` leaves in a buffer. -/
structure LinkBuffer where
  text : List UInt16
  outside : Bool

/-- A target in a volume, or one in a network that is put together from the
name of the device and the rest of the path. Without the name of the device
the rest is written from one before the buffer. -/
def linkRead (stale : List UInt16) : ShellTarget → Option LinkBuffer
  | .idList path _ => some ⟨path, false⟩
  | .badIdList => none
  | .localBase path =>
      some ⟨(winMbstowcs path maxPath).getD stale, false⟩
  | .network device suffix =>
      match winMbstowcs device maxPath with
      | none => some ⟨(winMbstowcs suffix (maxPath - 3 : Nat)).getD stale, true⟩
      | some w =>
          match winMbstowcs suffix (maxPath - 3 : Nat) with
          | none => some ⟨w ++ 92 :: stale, maxPath < w.length + 2⟩
          | some v => some ⟨w ++ 92 :: v, maxPath < w.length + 1 + (v.length + 1)⟩
  | .neither => none

/-- The second cell of a buffer that holds a text. -/
def secondCell (stale buffer : List UInt16) : UInt16 := (buffer ++ 0 :: stale).getD 1 0

section
variable (fs : WinFs)

def winReadlink (name : List UInt16) : Option (UInt32 × LinkBuffer) :=
  (fs.shortcut name).bind fun link =>
    (linkRead fs.stale link.target).map fun buffer => (link.fileAttributes, buffer)

def shellReadlink (path : WinNameidata) : WinNameidata × Bool :=
  match winReadlink fs path.name with
  | none => (path, false)
  | some (attribs, buffer) =>
      let copied := path.wcpcpy 0 (text buffer.text)
      ({ copied with
          mountId := if secondCell fs.stale buffer.text = 58 then mountIdOf (buffer.text.headD 0)
            else path.mountId
          last := (copied.r : Int) - 1
          fsType := .disk
          attribs := attribs
          linkOutside := path.linkOutside || buffer.outside },
        true)

/-- A link in a file. A target with a drive and one that starts at the root
replace the whole name, any other one the last component. -/
def diskFLookup (handle : Nat) (flags : UInt32) (path : WinNameidata) : WinNameidata × Bool :=
  if flagSet flags winIssymlink then ({ path with object := handle }, true)
  else if !flagSet flags winFollow then (path, true)
  else
    let buffer := fs.read handle path.size
    let second := secondCell fs.stale buffer
    let base := if second = 58 ∨ second = 92 then 0 else path.base
    let copied := path.wcpcpy base buffer
    ({ copied with
        mountId := if second = 58 then mountIdOf (buffer.headD 0)
          else if second = 92 then 0 else path.mountId
        base := copied.r
        last := (copied.r : Int) - 1
        attribs := fs.attributes copied.name
        fileType := .vreg
        linkOutside := path.linkOutside || decide (maxPath < buffer.length + 1) },
      true)

def pipeFLookup (handle : Nat) (flags : UInt32) (path : WinNameidata) : WinNameidata × Bool :=
  if flagSet flags winRequireobject then ({ path with object := handle }, false)
  else if !flagSet flags winFollow then (path, true)
  else (path.write 0 (fs.read handle path.size ++ [0]), true)

def pdoFLookup (handle : Nat) (flags : UInt32) (path : WinNameidata) : WinNameidata × Bool :=
  if flagSet flags winRequireobject then ({ path with object := handle }, true) else (path, true)

def diskLookup (path : WinNameidata) (flags : UInt32) : WinNameidata × Bool :=
  match fs.stat (flagSet flags winLockleaf) path.name with
  | none => ({ path with fsType := .disk, fileType := .vreg }, true)
  | some (iNode, handle) =>
      let node := { path with
        deviceId := iNode.deviceId
        fileType := iNode.fileType
        fsType := iNode.fsType
        size := iNode.nameSize }
      match iNode.fsType with
      | .disk => diskFLookup fs handle flags node
      | .pipe => pipeFLookup fs handle flags node
      | .pdo => pdoFLookup handle flags node
      | _ => (node, false)

def driveLookup (path : WinNameidata) (flags : UInt32) : WinNameidata × Bool :=
  let mounted := { path with mountId := mountIdOf (path.resolved.getD path.base 0) }
  if flagSet flags winNocrossmount then (mounted, true)
  else
    let crossed := mounted.wcpcpy 0 (winDrivename (text (path.resolved.drop path.base)))
    ({ crossed with base := crossed.r }, true)

def pathGlob (path : WinNameidata) (flags : UInt32) : WinNameidata × Bool :=
  let found := { path with attribs := fs.attributes path.name }
  if found.attribs = noAttribs then (found, false)
  else if fileClass found.attribs = fileClassInode then diskLookup fs found flags
  else if fileClass found.attribs = fileClassMount then driveLookup found flags
  else (found, true)

/-! ### The last component -/

/-- Look for the name with an extension, which stays in the buffer if there is
such a file. -/
def shGlobType (typeName : List UInt16) (path : WinNameidata) : WinNameidata × Bool :=
  let probed := path.write path.r (typeName ++ [0])
  if fs.attributes probed.name = noAttribs then (probed.write path.r [0], false)
  else ({ probed with attribs := fs.attributes probed.name }, true)

/-- `.exe` and `.lnk`. -/
def exeType : List UInt16 := [46, 101, 120, 101]
def lnkType : List UInt16 := [46, 108, 110, 107]

def shGlobLink (path : WinNameidata) (flags : UInt32) : WinNameidata × Bool :=
  match shGlobType fs lnkType path with
  | (probed, false) => (probed, false)
  | (probed, true) =>
      if flagSet flags winFollow then shellReadlink fs probed
      else ({ probed with fsType := .shell }, true)

/-- What the last component is. -/
def pathKind (path : WinNameidata) (flags : UInt32) : WinNameidata :=
  match pathGlob fs path flags with
  | (globbed, true) =>
      if flagSet globbed.attribs fileAttributeDirectory then { globbed with fileType := .vdir }
      else globbed
  | (globbed, false) =>
      match shGlobType fs exeType globbed with
      | (probed, true) => { probed with fileType := .vreg }
      | (probed, false) =>
          match shGlobLink fs probed flags with
          | (linked, true) => { linked with fileType := .vlnk }
          | (linked, false) => linked

def pathClose (path : WinNameidata) (flags : UInt32) : WinNameidata :=
  let closed := pathKind fs path flags
  { closed with last := (closed.r : Int) - 1 }

/-! ### The walk -/

def pathOpen (path : WinNameidata) (source : List UInt16) (flags : UInt32) : WinNameidata :=
  { path with attribs := noAttribs, fileType := .vreg, s := source, flags := flags }

/-- Append what is left of the source after a component that is not there. -/
def pathRest (path : WinNameidata) : WinNameidata :=
  let copied := pathCopy { path.write path.r [92] with r := path.r + 1 }
  { copied with last := (copied.r : Int) - 1 }

/-- The loop of the lookup. Every turn but the last takes a separator off the
source, so that its length is fuel enough. -/
def pathWalk : Nat → WinNameidata → UInt32 → WinNameidata
  | 0, path, _ => path
  | fuel + 1, path, flags =>
      match pathRead path flags with
      | (read, c) =>
          if c = 0 then pathClose fs read flags
          else match pathGlob fs read winFollow with
            | (globbed, true) => pathWalk fuel globbed flags
            | (globbed, false) => pathRest globbed

def vfsLookup (path : WinNameidata) (source : List UInt16) (flags : UInt32) : WinNameidata :=
  let opened := pathOpen path source flags
  if flagSet flags winPathcopy then pathClose fs (pathCopy opened) flags
  else pathWalk fs (source.length + 1) opened flags

end

end MinC.Vfs
