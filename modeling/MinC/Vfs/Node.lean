import MinC.Vfs.Types
import MinC.Win.Handle

/-!
Descriptors: duplicating and closing them.

A vnode is what a slot of a task's descriptor table holds. Most of them own a
handle. One that was opened on a pseudo device does not: it names a device,
which has an input and an output handle of its own, and the number of the slot
decides which of the two a duplicate is made of. Duplicating and closing
dispatch on the file system the handle is from, and the members of each family
differ in which handle they duplicate and in what they leave of a vnode they
could not close.
-/

namespace MinC.Vfs

open MinC.Lib MinC.Win

structure WinVnode where
  mountId : UInt32
  fileType : WinVtype
  deviceType : UInt32
  deviceId : UInt32
  fsType : WinFsType
  fileId : Nat
  access : UInt32
  attribs : UInt32
  event : Nat
  flags : UInt32
  handle : Nat
  object : Nat
  index : UInt32
  closeExec : Bool
  deriving DecidableEq

/-- A cleared vnode. -/
def WinVnode.zero : WinVnode where
  mountId := 0
  fileType := .vnon
  deviceType := 0
  deviceId := 0
  fsType := .unknown
  fileId := 0
  access := 0
  attribs := 0
  event := 0
  flags := 0
  handle := nullHandle
  object := 0
  index := 0
  closeExec := false

structure WinDevice where
  fileType : WinVtype
  deviceType : UInt32
  deviceId : UInt32
  fsType : WinFsType
  event : Nat
  input : Nat
  output : Nat
  flags : UInt32
  index : UInt32
  deriving DecidableEq

/-- `HANDLE_FLAG_INHERIT` as a vnode remembers it. -/
def WinVnode.inherits (node : WinVnode) : Bool := node.flags &&& 1 ≠ 0

/-- The answers to the duplication of a handle and of an event. -/
structure DupAnswers where
  handle : HandleAnswer
  event : HandleAnswer
  deriving DecidableEq

/-! ### Duplicating -/

/-- What all duplicating functions do with a duplicate: the vnode is given the
new handle, or left as it is. -/
def adopt (duplicate : Except UInt32 Nat × Handles) (result : WinVnode)
    (own : Nat → Handles → WinVnode) : Except UInt32 Unit × WinVnode × Handles :=
  match duplicate with
  | (.error e, t) => (.error e, result, t)
  | (.ok h, t) => (.ok (), own h t, t)

section
variable (t : Handles) (target : Proc) (closeSource : Bool) (os : DupAnswers)

def pipeFDupfd (node result : WinVnode) : Except UInt32 Unit × WinVnode × Handles :=
  match duplicateHandle t node.handle target node.inherits closeSource os.handle with
  | (.error e, t) => (.error e, result, t)
  | (.ok hResult, t) =>
      adopt (duplicateHandle t node.event target node.inherits closeSource os.event) result
        fun hEvent _ => { result with handle := hResult, event := hEvent }

def charFDupfd (node result : WinVnode) : Except UInt32 Unit × WinVnode × Handles :=
  adopt (duplicateHandle t node.handle target node.inherits closeSource os.handle) result
    fun hResult _ => { result with handle := hResult, event := hResult }

def diskFDupfd (node result : WinVnode) : Except UInt32 Unit × WinVnode × Handles :=
  adopt (duplicateHandle t node.handle target node.inherits closeSource os.handle) result
    fun hResult _ => { result with handle := hResult }

/-- The handle of a device that belongs to a slot: the first slot is its input. -/
def WinDevice.side (device : WinDevice) (fileId : Nat) : Nat :=
  if fileId = 0 then device.input else device.output

/-- Duplicate the side of a device that belongs to the slot of the result. -/
def deviceFDupfd (device : WinDevice) (result : WinVnode) (own : Nat → Handles → WinVnode) :
    Except UInt32 Unit × WinVnode × Handles :=
  if device.side result.fileId = nullHandle then (.error errorIoDevice, result, t)
  else
    adopt (duplicateHandle t (device.side result.fileId) target true closeSource os.handle)
      result own

def pdoFDupfd (device : WinDevice) (result : WinVnode) :
    Except UInt32 Unit × WinVnode × Handles :=
  deviceFDupfd t target closeSource os device result fun hResult _ =>
    { result with handle := hResult, event := device.event, fsType := device.fsType }

def mailFDupfd (device : WinDevice) (result : WinVnode) :
    Except UInt32 Unit × WinVnode × Handles :=
  deviceFDupfd t target closeSource os device result fun hResult t =>
    { result with handle := hResult, access := winFGetfl t hResult }

variable (devices : UInt32 → WinDevice)

/-- The dispatch that duplicating and handing down have in common. -/
def dupByType (node result : WinVnode) : Except UInt32 Unit × WinVnode × Handles :=
  match node.fsType with
  | .winsock => pipeFDupfd t target closeSource os node result
  | .pipe => pipeFDupfd t target closeSource os node result
  | .char => charFDupfd t target closeSource os node result
  | .disk => diskFDupfd t target closeSource os node result
  | .pdo => pdoFDupfd t target closeSource os (devices node.deviceId) result
  | .mailslot => mailFDupfd t target closeSource os (devices node.deviceId) result
  | _ => (.error errorBadFileType, result, t)

end

/-- Duplicate within the process. The result is overwritten with the source
before it is known whether there is a handle for it. -/
def vfsFDupfd (devices : UInt32 → WinDevice) (os : DupAnswers) (t : Handles) (node : WinVnode)
    (closeExec : Bool) (result : WinVnode) : Except UInt32 Unit × WinVnode × Handles :=
  dupByType t .current false os devices node
    { node with closeExec := closeExec, fileId := result.fileId }

/-- Hand down to a created process, giving up the handle of this one. -/
def vfsFInherit (devices : UInt32 → WinDevice) (os : DupAnswers) (t : Handles)
    (node : WinVnode) : Except UInt32 Unit × WinVnode × Handles :=
  dupByType t .created true os devices node node

/-! ### Closing -/

/-- The answers to the calls that closing makes. -/
structure CloseAnswers where
  closeHandle : Answer
  setEvent : Answer
  findClose : Answer
  wsaCloseEvent : Answer
  closesocket : Answer
  deriving DecidableEq

/-- What all closing functions do when the last call is made: the vnode is
cleared, or it is left as the failing function leaves it. -/
def release (closed : Except UInt32 Unit × Handles) (kept : WinVnode) :
    Except UInt32 Unit × WinVnode × Handles :=
  match closed with
  | (.error e, t) => (.error e, kept, t)
  | (.ok (), t) => (.ok (), .zero, t)

section
variable (t : Handles) (os : CloseAnswers) (node : WinVnode)

/-- `SetEvent` on the event of a pipe. -/
def setEvent (t : Handles) (answer : Answer) : Except UInt32 Unit × Handles :=
  match answer with
  | .fail e => (.error e, t)
  | .ok => (.ok (), t)

/-- The vnode is cleared whether or not its handle was closed. -/
def pipeClose : Except UInt32 Unit × WinVnode × Handles :=
  if node.handle = invalidHandle then (.ok (), .zero, t)
  else match closeHandle t node.handle os.closeHandle with
  | (.error e, t) => (.error e, .zero, t)
  | (.ok (), t) => release (setEvent t os.setEvent) .zero

/-- The vnode is cleared whether or not its handle was closed. -/
def pdoClose : Except UInt32 Unit × WinVnode × Handles :=
  if node.handle = invalidHandle then (.ok (), .zero, t)
  else release (closeHandle t node.handle os.closeHandle) .zero

def ws2Close : Except UInt32 Unit × WinVnode × Handles :=
  match closeHandle t node.event os.wsaCloseEvent with
  | (.error e, t) => (.error e, node, t)
  | (.ok (), t) => release (closeHandle t node.handle os.closesocket) node

def fileClose : Except UInt32 Unit × WinVnode × Handles :=
  release (closeHandle t node.handle os.closeHandle) node

/-- The search handle of a directory is none of the handles above. -/
def dirClose : Except UInt32 Unit × WinVnode × Handles :=
  if node.object = 0 then fileClose t os node
  else match os.findClose with
  | .fail e => (.error e, node, t)
  | .ok => fileClose t os node

def diskClose : Except UInt32 Unit × WinVnode × Handles :=
  match node.fileType with
  | .vdir => dirClose t os node
  | _ => fileClose t os node

/-- The number of the slot outlives what was in it. -/
def vfsClose : Except UInt32 Unit × WinVnode × Handles :=
  if node.handle = nullHandle then (.ok (), node, t)
  else
    let closed := match node.fsType with
      | .pipe => pipeClose t os node
      | .winsock => ws2Close t os node
      | .pdo => pdoClose t os node
      | _ => diskClose t os node
    (closed.1, { closed.2.1 with fileId := node.fileId }, closed.2.2)

end

end MinC.Vfs
