import MinC.Lib.Slots
import MinC.Vfs.Namei
import MinC.Vfs.Node
import Mathlib.Tactic.SplitIfs

/-!
The descriptor table of a task, and the calls that fill and empty it.

A slot is free when its access is zero. Calls that need a slot take the lowest
free one from a start on; they prepare a vnode first and only then look for a
place to put it. The one exception is `dup2`, which is given its slot, and
which prepares the vnode in it.
-/

namespace MinC.Sys

open MinC.Lib MinC.Win MinC.Vfs

def openMax : Nat := 64

/-- The descriptor table of a task, and the handles of the process it runs in. -/
structure TaskFds where
  node : Nat → WinVnode
  handles : Handles

def slotFree (node : Nat → WinVnode) (i : Nat) : Bool := (node i).access == 0

/-- Put a vnode in the lowest free slot from the offset on. -/
def fdPosix (node : Nat → WinVnode) (v : WinVnode) (offset : Int) : Int × (Nat → WinVnode) :=
  match firstFree (slotFree node) (openMax - offset.toNat) offset.toNat with
  | some fd => (fd, Function.update node fd { v with fileId := fd })
  | none => (-(emfile : Int), node)

/-- Either the lowest free slot is taken, or there is none and the table stays. -/
theorem fdPosix_cases (node : Nat → WinVnode) (v : WinVnode) (offset : Int) :
    (∃ fd : Nat, LowestFree (slotFree node) offset.toNat openMax fd ∧
      fdPosix node v offset = ((fd : Int), Function.update node fd { v with fileId := fd })) ∨
      ((∀ fd, offset.toNat ≤ fd → fd < openMax → slotFree node fd = false) ∧
        fdPosix node v offset = (-(emfile : Int), node)) := by
  unfold fdPosix
  cases hfree : firstFree (slotFree node) (openMax - offset.toNat) offset.toNat with
  | none => exact .inr ⟨fun fd hlow hfd => firstFree_none hfree fd hlow (by omega), rfl⟩
  | some fd =>
      left
      have hlow := firstFree_some hfree
      refine ⟨fd, ⟨hlow.low_le, ?_, hlow.isFree, hlow.least⟩, rfl⟩
      have := hlow.lt_high
      have := hlow.low_le
      omega

/-- The descriptor is one of the table's. -/
def inRange (fd : Int) : Bool := 0 ≤ fd && fd < openMax

/-! ### Opening -/

/-- The flags of an open file. How it is shared is left to Windows. -/
structure WinFlags where
  access : UInt32
  creation : UInt32
  attribs : UInt32
  closeExec : Bool
  deriving DecidableEq

def genericRead : UInt32 := 0x80000000
def genericWrite : UInt32 := 0x40000000
def fileAppendData : UInt32 := 4
def fileAttributeNormal : UInt32 := 0x80
def fileFlagBackupSemantics : UInt32 := 0x2000000

def createNew : UInt32 := 1
def createAlways : UInt32 := 2
def openExisting : UInt32 := 3
def openAlways : UInt32 := 4
def truncateExisting : UInt32 := 5

def flagsWin (flags : UInt32) : WinFlags where
  access :=
    if flags &&& 2 ≠ 0 then genericRead ||| genericWrite
    else if flags &&& 8 ≠ 0 then genericRead ||| fileAppendData
    else if flags &&& 1 ≠ 0 then genericWrite
    else genericRead
  creation :=
    if flags &&& 0x200 ≠ 0 then
      if flags &&& 0x800 ≠ 0 then createNew
      else if flags &&& 0x400 ≠ 0 then createAlways
      else openAlways
    else if flags &&& 0x400 ≠ 0 then truncateExisting
    else openExisting
  attribs := fileAttributeNormal
  closeExec := flags &&& 0x10000 ≠ 0

theorem flagsWin_access_ne_zero (flags : UInt32) : (flagsWin flags).access ≠ 0 := by
  unfold flagsWin
  dsimp only
  split_ifs <;> decide

/-- The answer to the creation of a file, with what the new handle is to. -/
inductive CreateAnswer
  | handle (h : Nat) (entry : HandleEntry)
  | fail (error : UInt32)
  deriving DecidableEq

/-- What opening finds besides the path: the answer of Windows, how the list that
a new file is to have was made, the error that was left before, the terminal
of the process, the device a new pseudo terminal gets, and the table of the
first task of the process, if that is another one. -/
structure OpenEnv where
  create : CreateAnswer
  list : Except UInt32 Unit
  lastError : UInt32
  ctty : WinDevice
  pty : WinDevice
  process : Option (Nat → WinVnode)

def createFile (t : Handles) (answer : CreateAnswer) : Except UInt32 Nat × Handles :=
  match answer with
  | .fail e => (.error e, t)
  | .handle h entry =>
      if Fresh t .current h then (.ok h, t.put .current h entry)
      else (.error errorInvalidHandle, t)

def diskOpenFile (env : OpenEnv) (t : Handles) (path : WinNameidata) (flags : WinFlags)
    (result : WinVnode) : Except UInt32 Unit × WinVnode × Handles :=
  match createFile t env.create with
  | (.error e, t) => (.error e, result, t)
  | (.ok h, t) =>
      (.ok (), { result with
        handle := h
        mountId := path.mountId
        fsType := path.fsType
        fileType := path.fileType
        attribs := flags.attribs
        closeExec := flags.closeExec
        access := winFGetfl t h
        flags := winFGetfd t h }, t)

/-- The vnode of `DiskCreateFile`. The list of a new file is made before the file. -/
def diskCreateFileVnode (env : OpenEnv) (t : Handles) (path : WinNameidata) (flags : WinFlags)
    (result : WinVnode) : Except UInt32 Unit × WinVnode × Handles :=
  match env.list with
  | .error e => (.error e, result, t)
  | .ok () => diskOpenFile env t path flags result

/-- A file that was not found is refused with the error that was left before. -/
def fileOpen (env : OpenEnv) (t : Handles) (path : WinNameidata) (flags : WinFlags)
    (result : WinVnode) : Except UInt32 Unit × WinVnode × Handles :=
  if flags.creation ≠ openExisting then diskCreateFileVnode env t path flags result
  else if path.attribs = noAttribs then (.error env.lastError, result, t)
  else if flagSet path.flags winRequiredir then (.error errorDirectory, result, t)
  else diskOpenFile env t path flags result

def dirOpen (env : OpenEnv) (t : Handles) (path : WinNameidata) (flags : WinFlags)
    (result : WinVnode) : Except UInt32 Unit × WinVnode × Handles :=
  let flags := { flags with attribs := flags.attribs ||| fileFlagBackupSemantics }
  if path.attribs = noAttribs then (.error env.lastError, result, t)
  else diskOpenFile env t path flags result

def diskOpen (env : OpenEnv) (t : Handles) (path : WinNameidata) (flags : WinFlags)
    (result : WinVnode) : Except UInt32 Unit × WinVnode × Handles :=
  if path.fileType = .vdir then dirOpen env t path flags result
  else fileOpen env t path flags result

/-- A disk object is refused before Windows is asked to open it, or it is what Windows opens. -/
theorem diskOpen_cases (env : OpenEnv) (t : Handles) (path : WinNameidata) (flags : WinFlags)
    (result : WinVnode) :
    (∃ e, (e = env.lastError ∨ env.list = .error e ∨ e = errorDirectory) ∧
      diskOpen env t path flags result = (.error e, result, t)) ∨
      ∃ flags', diskOpen env t path flags result = diskOpenFile env t path flags' result := by
  rw [diskOpen]
  by_cases hdir : path.fileType = .vdir
  · rw [if_pos hdir, dirOpen]
    by_cases hattribs : path.attribs = noAttribs
    · exact .inl ⟨_, .inl rfl, if_pos hattribs⟩
    · exact .inr ⟨_, if_neg hattribs⟩
  · rw [if_neg hdir, fileOpen]
    by_cases hcreation : flags.creation ≠ openExisting
    · rw [if_pos hcreation, diskCreateFileVnode]
      cases hlist : env.list with
      | error e => exact .inl ⟨e, .inr (.inl rfl), rfl⟩
      | ok _ => exact .inr ⟨flags, rfl⟩
    · rw [if_neg hcreation]
      by_cases hattribs : path.attribs = noAttribs
      · exact .inl ⟨_, .inl rfl, if_pos hattribs⟩
      · rw [if_neg hattribs]
        by_cases hflags : flagSet path.flags winRequiredir = true
        · exact .inl ⟨_, .inr (.inr rfl), if_pos hflags⟩
        · exact .inr ⟨flags, if_neg hflags⟩

def pdoOpenFile (device : WinDevice) (path : WinNameidata) (flags : WinFlags)
    (result : WinVnode) : Option WinVnode :=
  if device.flags = 0 then none
  else some { result with
    deviceType := device.deviceType
    fsType := .pdo
    index := device.index
    deviceId := path.deviceId
    fileType := path.fileType
    object := path.object
    attribs := path.attribs
    handle := invalidHandle
    closeExec := flags.closeExec
    access := flags.access
    flags := 1 }

def nullOpen (env : OpenEnv) (t : Handles) (result : WinVnode) :
    Except UInt32 Unit × WinVnode × Handles :=
  match createFile t env.create with
  | (.error e, t) => (.error e, result, t)
  | (.ok h, t) =>
      (.ok (), { result with
        handle := h
        event := h
        fsType := .char
        flags := winFGetfd t h
        access := winFGetfl t h }, t)

/-- The vnode of a terminal is that of the device it is on. -/
def onTerminal (result : WinVnode) (terminal : WinDevice) : WinVnode :=
  { result with
    deviceType := terminal.deviceType
    deviceId := terminal.deviceId
    index := terminal.index }

/-- A pseudo device is opened without a handle. The standard streams are those
of the first task of the process, handle and all. -/
def pdoOpen (devices : UInt32 → WinDevice) (env : OpenEnv) (s : TaskFds)
    (path : WinNameidata) (flags : WinFlags) (result : WinVnode) :
    Except UInt32 Unit × WinVnode × Handles :=
  let process := env.process.getD s.node
  match pdoOpenFile (devices path.deviceId) path flags result with
  | none => (.error errorDeviceNotAvailable, result, s.handles)
  | some result =>
      if result.deviceType = devClassTty then (.ok (), onTerminal result env.ctty, s.handles)
      else if result.deviceType = devTypeNull then nullOpen env s.handles result
      else if result.deviceType = devTypePtm then (.ok (), onTerminal result env.pty, s.handles)
      else if result.deviceType = devTypeStdin then (.ok (), process 0, s.handles)
      else if result.deviceType = devTypeStdout then (.ok (), process 1, s.handles)
      else if result.deviceType = devTypeStderr then (.ok (), process 2, s.handles)
      else (.ok (), result, s.handles)

def vfsOpen (devices : UInt32 → WinDevice) (env : OpenEnv) (s : TaskFds)
    (path : WinNameidata) (flags : WinFlags) (result : WinVnode) :
    Except UInt32 Unit × WinVnode × Handles :=
  match path.fsType with
  | .pdo => pdoOpen devices env s path flags result
  | .disk => diskOpen env s.handles path flags result
  | _ => (.error errorBadFileType, result, s.handles)

/-! ### The calls -/

/-- The reply to a failure. -/
def failed (error : UInt32) : Int := -(errnoPosix error : Int)

/-- Put a vnode that was prepared into the table. -/
def install (s : TaskFds) (prepared : Except UInt32 Unit × WinVnode × Handles) (offset : Int) :
    Int × TaskFds :=
  match prepared with
  | (.error e, _, t) => (failed e, { s with handles := t })
  | (.ok (), v, t) =>
      let (fd, node) := fdPosix s.node v offset
      (fd, ⟨node, t⟩)

/-- `__openat`, from the path it is given on. -/
def openat (devices : UInt32 → WinDevice) (env : OpenEnv) (s : TaskFds) (path : WinNameidata)
    (flags : UInt32) : Int × TaskFds :=
  if path.fileType = .vlnk ∧ path.flags = 0 then (-(eloop : Int), s)
  else install s (vfsOpen devices env s path (flagsWin flags) .zero) 0

def vfsDup (devices : UInt32 → WinDevice) (os : DupAnswers) (t : Handles)
    (node result : WinVnode) : Except UInt32 Unit × WinVnode × Handles :=
  vfsFDupfd devices os t node false { result with fileId := node.fileId }

def sysDup (devices : UInt32 → WinDevice) (os : DupAnswers) (s : TaskFds) (oldfd : Int) :
    Int × TaskFds :=
  if inRange oldfd then
    install s (vfsDup devices os s.handles (s.node oldfd.toNat) .zero) 0
  else (-(ebadf : Int), s)

def fcntlFDupfd (devices : UInt32 → WinDevice) (os : DupAnswers) (s : TaskFds) (node : WinVnode)
    (closeExec : Bool) (offset : Int) : Int × TaskFds :=
  if inRange offset then
    install s (vfsFDupfd devices os s.handles node closeExec .zero) offset
  else (-(ebadf : Int), s)

/-- `fcntl` with `F_DUPFD` or `F_DUPFD_CLOEXEC`. -/
def sysFcntlDupfd (devices : UInt32 → WinDevice) (os : DupAnswers) (s : TaskFds) (fd : Int)
    (closeExec : Bool) (offset : Int) : Int × TaskFds :=
  if inRange fd then fcntlFDupfd devices os s (s.node fd.toNat) closeExec offset
  else (-(ebadf : Int), s)

/-- The occupant of the slot is saved, overwritten, and closed if the
duplicate could be made. -/
def vfsDup2 (devices : UInt32 → WinDevice) (os : DupAnswers) (closing : CloseAnswers)
    (s : TaskFds) (old new : Nat) : Except UInt32 Unit × TaskFds :=
  let vnCurrent := s.node new
  if (s.node old).handle = nullHandle then (.error errorInvalidHandle, s)
  else if old = new then (.ok (), s)
  else
    let (r, v, t) := vfsFDupfd devices os s.handles (s.node old) false (s.node new)
    let s : TaskFds := ⟨Function.update s.node new v, t⟩
    match r with
    | .error e => (.error e, s)
    | .ok () =>
        let (r, _, t) := vfsClose s.handles closing vnCurrent
        (r, { s with handles := t })

def sysDup2 (devices : UInt32 → WinDevice) (os : DupAnswers) (closing : CloseAnswers)
    (s : TaskFds) (oldfd newfd : Int) : Int × TaskFds :=
  if inRange oldfd then
    if inRange newfd then
      match vfsDup2 devices os closing s oldfd.toNat newfd.toNat with
      | (.error e, s) => (failed e, s)
      | (.ok (), s) => (newfd, s)
    else (-(ebadf : Int), s)
  else (-(ebadf : Int), s)

def sysClose (closing : CloseAnswers) (s : TaskFds) (fd : Int) : Int × TaskFds :=
  if inRange fd then
    let (r, v, t) := vfsClose s.handles closing (s.node fd.toNat)
    let s : TaskFds := ⟨Function.update s.node fd.toNat v, t⟩
    match r with
    | .error e => (failed e, s)
    | .ok () => (0, s)
  else (-(ebadf : Int), s)

/-! ### Requests -/

inductive FdCall
  | openat (path : WinNameidata) (flags : UInt32)
  | dup (oldfd : Int)
  | dupfd (fd : Int) (closeExec : Bool) (offset : Int)
  | dup2 (oldfd newfd : Int)
  | close (fd : Int)

/-- A call, with the devices as it finds them and the answers it will get. -/
structure FdRequest where
  call : FdCall
  devices : UInt32 → WinDevice
  opening : OpenEnv
  duplicating : DupAnswers
  closing : CloseAnswers

def FdRequest.exec (s : TaskFds) (rq : FdRequest) : Int × TaskFds :=
  match rq.call with
  | .openat path flags => openat rq.devices rq.opening s path flags
  | .dup oldfd => sysDup rq.devices rq.duplicating s oldfd
  | .dupfd fd closeExec offset =>
      sysFcntlDupfd rq.devices rq.duplicating s fd closeExec offset
  | .dup2 oldfd newfd => sysDup2 rq.devices rq.duplicating rq.closing s oldfd newfd
  | .close fd => sysClose rq.closing s fd

def stepFds (s : TaskFds) (rq : FdRequest) : TaskFds := (rq.exec s).2

end MinC.Sys
