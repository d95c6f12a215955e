import MinC.Vfs.Node
import MinC.Win.FileObject

/-!
Reading and writing disk files.

Windows moves the pointer of a file object with every transfer. Calls that must
leave the pointer alone ask for it first and put it back afterwards; a call that
fails in between returns without putting it back.

What a descriptor of another file system answers is not looked into here: it is
`other`.
-/

namespace MinC.Vfs

open MinC.Lib MinC.Win

/-! ### Disks -/

def diskLseek (offset : Int) (method : MoveMethod) : FileProg (Except UInt32 Nat) :=
  setFilePointerEx offset method

/-- Put the pointer back. Only now the transfer is known to be done. -/
def restorePointer {α : Type} (current : Nat) (result : α) : FileProg (Except UInt32 α) := do
  match ← setFilePointerEx current .begin with
  | .error error => return .error error
  | .ok _ => return .ok result

def diskPread (size offset : Nat) : FileProg (Except UInt32 (List UInt8)) := do
  match ← setFilePointerEx 0 .current with
  | .error error => return .error error
  | .ok current =>
      match ← readFile size (some offset) with
      | .ok data => restorePointer current data
      | .error error => return if error = errorHandleEof then .ok [] else .error error

def diskPwrite (data : List UInt8) (offset : Nat) : FileProg (Except UInt32 Nat) := do
  match ← setFilePointerEx 0 .current with
  | .error error => return .error error
  | .ok current =>
      match ← writeFile data (some offset) with
      | .ok count => restorePointer current count
      | .error error => return .error error

/-- A pointer that could not be moved is not noticed, since what tells it is compared with a
number that it never is. -/
def vfsFtruncate (size : Int) : FileProg (Except UInt32 Unit) := do
  let _ ← setFilePointerEx size .begin
  setEndOfFile

/-- `MManLoadFile`, with what it leaves in the memory. -/
def mmanLoadFile (memory : List UInt8) (size : Nat) (offset : Int) :
    FileProg (Except UInt32 (List UInt8)) := do
  match ← setFilePointerEx 0 .current with
  | .error error => return .error error
  | .ok current =>
      match ← setFilePointerEx offset .begin with
      | .error error => return .error error
      | .ok _ =>
          match ← readFile size none with
          | .error error => return .error error
          | .ok data => restorePointer current (data ++ memory.drop data.length)

/-- What Windows answers when memory is asked for, and when it is to be protected, and what is at
each place from the address on if the memory there is in use already. -/
structure MemoryAnswers where
  alloc : Except UInt32 Nat
  protect : Option UInt32
  committed : Nat → Option UInt8

/-- What `win_mmap` leaves. The address is told before the memory is protected. -/
structure Mapped where
  error : Option UInt32
  address : Nat
  memory : List UInt8
  deriving DecidableEq

/-- `MManAlloc` at an address. Memory that is in use already is left as it is, and new memory is
cleared. -/
def mmanAlloc (size : Nat) (answers : MemoryAnswers) : Mapped :=
  match answers.alloc with
  | .error error => ⟨some error, 0, []⟩
  | .ok address =>
      ⟨none, address, (List.range size).map fun i => (answers.committed i).getD 0⟩

/-- `win_mmap` of a file, either to an address with memory there or to new memory. -/
def winMmap (address : Option (Nat × List UInt8)) (size : Nat) (offset : Int)
    (answers : MemoryAnswers) : FileProg Mapped :=
  match address with
  | some (address, memory) => do
      match ← mmanLoadFile (memory.take size) size offset with
      | .error error => return ⟨some error, 0, []⟩
      | .ok memory => return ⟨none, address, memory⟩
  | none =>
      match answers.alloc with
      | .error error => return ⟨some error, 0, []⟩
      | .ok address => do
          match ← mmanLoadFile (List.replicate size 0) size offset with
          | .error error => return ⟨some error, 0, []⟩
          | .ok memory => return ⟨answers.protect, address, memory⟩

/-! ### Descriptors -/

section
variable {α : Type} (fsType : WinFsType) (other : Except UInt32 α)

def vfsLseek (other : Except UInt32 Nat) (offset : Int) (method : MoveMethod) :
    FileProg (Except UInt32 Nat) :=
  match fsType with
  | .char => return .error errorInvalidHandle
  | .pipe | .winsock => return .error errorPipeConnected
  | .disk => diskLseek offset method
  | _ => return other

/-- How positioned transfers are handed on. -/
def positioned (disk : FileProg (Except UInt32 α)) : FileProg (Except UInt32 α) :=
  match fsType with
  | .disk => disk
  | .pipe | .winsock => return .error errorPipeConnected
  | .pdo => return other
  | _ => return .error errorBadFileType

def vfsPread (other : Except UInt32 (List UInt8)) (size offset : Nat) :
    FileProg (Except UInt32 (List UInt8)) :=
  positioned fsType other (diskPread size offset)

def vfsPwrite (other : Except UInt32 Nat) (data : List UInt8) (offset : Nat) :
    FileProg (Except UInt32 Nat) :=
  positioned fsType other (diskPwrite data offset)

/-- How other transfers are handed on. -/
def streamed (disk : FileProg (Except UInt32 α)) : FileProg (Except UInt32 α) :=
  match fsType with
  | .disk => disk
  | .winsock | .pipe | .mailslot | .char | .pdo => return other
  | _ => return .error errorBadFileType

def vfsReadFile (other : Except UInt32 (List UInt8)) (size : Nat) :
    FileProg (Except UInt32 (List UInt8)) :=
  streamed fsType other (readFile size none)

def vfsWrite (other : Except UInt32 Nat) (data : List UInt8) : FileProg (Except UInt32 Nat) :=
  streamed fsType other (writeFile data none)

end

end MinC.Vfs
