import MinC.Sys.Uio
import MinC.Vfs.DiskFile

/-!
Calls on open files.

Processes that share an open file share its offset. The calls that leave it alone
move it and put it back, so that it is elsewhere in between; no other call may use
the open file then. Where none does, the calls are those of files that are images
of bytes, and of open files that have an offset: each is done at one moment, in
whatever order the requests of the processes reach Windows, and however many
open files there are of one file.
-/

namespace MinC.Sys

open MinC.Lib MinC.Win MinC.Vfs

/-- What a call returns, and the bytes it leaves with the caller. -/
structure FileReply where
  result : Int
  data : List UInt8
  deriving DecidableEq

def failing (error : UInt32) : FileReply := ⟨-(errnoPosix error : Int), []⟩

/-- What a call returns, by what the file system replyFor. -/
def replyFor {α : Type} (reply : α → FileReply) : Except UInt32 α → FileReply
  | .error error => failing error
  | .ok value => reply value

def readReply (data : List UInt8) : FileReply := ⟨ssize (UInt32.ofNat data.length), data⟩

def countReply (count : Nat) : FileReply := ⟨ssize (UInt32.ofNat count), []⟩

/-- What `sys_read` returns for what was read. All ones stand for a count that was never told. -/
def readResult (data : List UInt8) : FileReply :=
  if UInt32.ofNat data.length = 0xFFFFFFFF then ⟨0, data⟩ else readReply data

def seekReply (n : Nat) : FileReply := ⟨n, []⟩

def doneReply (_ : Unit) : FileReply := ⟨0, []⟩

/-- What `sys_mmap` returns for what `win_mmap` leaves. -/
def mappedReply (mapped : Mapped) : FileReply :=
  match mapped.error with
  | none => ⟨mapped.address, mapped.memory⟩
  | some error => ⟨mapped.address - (errnoPosix error : Int), mapped.memory⟩

/-! ### The calls -/

section
variable (fd : Int) (fsType : WinFsType)

def sysRead (other : Except UInt32 (List UInt8)) (count : UInt32) : FileProg FileReply :=
  if !inRange fd then return ⟨-(ebadf : Int), []⟩
  else do return replyFor readResult (← vfsReadFile fsType other count.toNat)

def sysWrite (other : Except UInt32 Nat) (data : List UInt8) : FileProg FileReply :=
  if !inRange fd then return ⟨-(ebadf : Int), []⟩
  else do return replyFor countReply (← vfsWrite fsType other data)

def sysPread (other : Except UInt32 (List UInt8)) (nbytes : UInt32) (offset : Int) :
    FileProg FileReply :=
  if offset < 0 then return ⟨-(einval : Int), []⟩
  else if !inRange fd then return ⟨-(ebadf : Int), []⟩
  else do return replyFor readReply (← vfsPread fsType other nbytes.toNat offset.toNat)

def sysPwrite (other : Except UInt32 Nat) (data : List UInt8) (offset : Int) :
    FileProg FileReply :=
  if offset < 0 then return ⟨-(einval : Int), []⟩
  else if !inRange fd then return ⟨-(ebadf : Int), []⟩
  else do return replyFor countReply (← vfsPwrite fsType other data offset.toNat)

/-- A way to count that is not known counts from the beginning. -/
def whenceWin (whence : Int) : MoveMethod :=
  if whence = 1 then .current else if whence = 2 then .ends else .begin

def sysLseek (other : Except UInt32 Nat) (offset whence : Int) : FileProg FileReply :=
  if !inRange fd then return ⟨-(ebadf : Int), []⟩
  else do return replyFor seekReply (← vfsLseek fsType other offset (whenceWin whence))

/-- What is not on a disk has no end to be set. -/
def sysFtruncate (other : Except UInt32 Unit) (length : Int) : FileProg FileReply :=
  if !inRange fd then return ⟨-(ebadf : Int), []⟩
  else if fsType = .disk then do return replyFor doneReply (← vfsFtruncate length)
  else return replyFor doneReply other

/-- A descriptor that is none maps no file, as if that had been asked for. -/
def sysMmap (other : Mapped) (anon : Bool) (address : Option (Nat × List UInt8)) (len : UInt32)
    (offset : Int) (answers : MemoryAnswers) : FileProg FileReply :=
  if len = 0 then return ⟨-(einval : Int), []⟩
  else if anon ∨ !inRange fd then return mappedReply (mmanAlloc len.toNat answers)
  else if fsType = .disk then do return mappedReply (← winMmap address len.toNat offset answers)
  else return mappedReply other

end

inductive FileCall
  | read (other : Except UInt32 (List UInt8)) (count : UInt32)
  | write (other : Except UInt32 Nat) (data : List UInt8)
  | pread (other : Except UInt32 (List UInt8)) (nbytes : UInt32) (offset : Int)
  | pwrite (other : Except UInt32 Nat) (data : List UInt8) (offset : Int)
  | lseek (other : Except UInt32 Nat) (offset whence : Int)
  | ftruncate (other : Except UInt32 Unit) (length : Int)
  | mmap (other : Mapped) (anon : Bool) (address : Option (Nat × List UInt8)) (len : UInt32)
      (offset : Int) (answers : MemoryAnswers)

/-- A call on a descriptor, with the file system of its vnode. -/
structure OpenCall where
  fd : Int
  fsType : WinFsType
  call : FileCall

def OpenCall.program (c : OpenCall) : FileProg FileReply :=
  match c.call with
  | .read other count => sysRead c.fd c.fsType other count
  | .write other data => sysWrite c.fd c.fsType other data
  | .pread other nbytes offset => sysPread c.fd c.fsType other nbytes offset
  | .pwrite other data offset => sysPwrite c.fd c.fsType other data offset
  | .lseek other offset whence => sysLseek c.fd c.fsType other offset whence
  | .ftruncate other length => sysFtruncate c.fd c.fsType other length
  | .mmap other anon address len offset answers =>
      sysMmap c.fd c.fsType other anon address len offset answers

/-! ### What the calls mean -/

/-- Transfers that go to no disk. -/
def elsewhere (fsType : WinFsType) (other : FileReply) : Option FileReply :=
  match fsType with
  | .disk => none
  | .winsock | .pipe | .mailslot | .char | .pdo => some other
  | _ => some (failing errorBadFileType)

/-- Positioned transfers that go to no disk. -/
def elsewhereAt (fsType : WinFsType) (other : FileReply) : Option FileReply :=
  match fsType with
  | .disk => none
  | .pipe | .winsock => some (failing errorPipeConnected)
  | .pdo => some other
  | _ => some (failing errorBadFileType)

/-- What a call returns that does not get to a file. -/
def OpenCall.refusal (c : OpenCall) : Option FileReply :=
  match c.call with
  | .read other _ =>
      if !inRange c.fd then some ⟨-(ebadf : Int), []⟩
      else elsewhere c.fsType (replyFor readResult other)
  | .write other _ =>
      if !inRange c.fd then some ⟨-(ebadf : Int), []⟩
      else elsewhere c.fsType (replyFor countReply other)
  | .pread other _ offset =>
      if offset < 0 then some ⟨-(einval : Int), []⟩
      else if !inRange c.fd then some ⟨-(ebadf : Int), []⟩
      else elsewhereAt c.fsType (replyFor readReply other)
  | .pwrite other _ offset =>
      if offset < 0 then some ⟨-(einval : Int), []⟩
      else if !inRange c.fd then some ⟨-(ebadf : Int), []⟩
      else elsewhereAt c.fsType (replyFor countReply other)
  | .lseek other _ _ =>
      if !inRange c.fd then some ⟨-(ebadf : Int), []⟩
      else match c.fsType with
        | .disk => none
        | .char => some (failing errorInvalidHandle)
        | .pipe | .winsock => some (failing errorPipeConnected)
        | _ => some (replyFor seekReply other)
  | .ftruncate other _ =>
      if !inRange c.fd then some ⟨-(ebadf : Int), []⟩
      else if c.fsType = .disk then none
      else some (replyFor doneReply other)
  | .mmap other anon _ len _ answers =>
      if len = 0 then some ⟨-(einval : Int), []⟩
      else if anon ∨ !inRange c.fd then some (mappedReply (mmanAlloc len.toNat answers))
      else if c.fsType = .disk then none
      else some (mappedReply other)

/-- Where a write begins that is to begin at an offset. -/
def BeginsAt (files : Nat → Image) (o : FileObject) (offset n : Nat) : Prop :=
  if o.writes then n = offset else (files o.file).EndsAt n

/-- From where an offset is counted. -/
def CountsFrom (files : Nat → Image) (o : FileObject) (whence : Int) (n : Nat) : Prop :=
  if whence = 1 then n = o.pointer else if whence = 2 then (files o.file).EndsAt n else n = 0

/-- Where a file is cut that is to have a length. A length that is none cuts it at the offset. -/
def cutAt (o : FileObject) (length : Int) : Nat :=
  if 0 ≤ length ∧ length.toNat < maxOffset then length.toNat else o.pointer

/-- The memory a file is to be mapped to, and what is there before. -/
def mapTarget (address : Option (Nat × List UInt8)) (len : UInt32) (answers : MemoryAnswers) :
    Except UInt32 (Nat × List UInt8 × Option UInt32) :=
  match address with
  | some (address, memory) => .ok (address, memory.take len.toNat, none)
  | none => answers.alloc.map fun address =>
      (address, List.replicate len.toNat 0, answers.protect)

/-- The file of an open file, changed. -/
def changed (files : Nat → Image) (o : FileObject) (image : Image) : Nat → Image :=
  Function.update files o.file image

/-- What a call does that gets to its file. -/
inductive OnFile (files : Nat → Image) (o : FileObject) :
    FileCall → FileReply → (Nat → Image) → FileObject → Prop
  | read {other : Except UInt32 (List UInt8)} {count : UInt32} {o' : FileObject}
      (data : List UInt8) (hreads : o.reads = true)
      (hdata : data = (files o.file).read o.pointer count.toNat)
      (hleft : o.LeftAt (o.pointer + data.length) o') :
      OnFile files o (.read other count) (readResult data) files o'
  | readFails {other : Except UInt32 (List UInt8)} {count : UInt32} (error : UInt32)
      (hdenied : o.reads = false → error = errorAccessDenied) :
      OnFile files o (.read other count) (failing error) files o
  | write {other : Except UInt32 Nat} {data : List UInt8} {n : Nat} {o' : FileObject}
      (hwrites : o.writes = true ∨ o.appends = true) (hbegins : BeginsAt files o o.pointer n)
      (hleft : o.LeftAt (n + data.length) o') :
      OnFile files o (.write other data) (countReply data.length)
        (changed files o ((files o.file).write data n)) o'
  | writeFails {other : Except UInt32 Nat} {data : List UInt8} (error : UInt32)
      (hdenied : o.writes = false → o.appends = false → error = errorAccessDenied) :
      OnFile files o (.write other data) (failing error) files o
  | pread {other : Except UInt32 (List UInt8)} {nbytes : UInt32} {offset : Int}
      (hreads : o.reads = true) :
      OnFile files o (.pread other nbytes offset)
        (readReply ((files o.file).read offset.toNat nbytes.toNat)) files o
  | preadFails {other : Except UInt32 (List UInt8)} {nbytes : UInt32} {offset : Int}
      (error : UInt32) (hdenied : o.reads = false → error = errorAccessDenied) :
      OnFile files o (.pread other nbytes offset) (failing error) files o
  | pwrite {other : Except UInt32 Nat} {data : List UInt8} {offset : Int} {n : Nat}
      (hwrites : o.writes = true ∨ o.appends = true) (hbegins : BeginsAt files o offset.toNat n) :
      OnFile files o (.pwrite other data offset) (countReply data.length)
        (changed files o ((files o.file).write data n)) o
  | pwriteFails {other : Except UInt32 Nat} {data : List UInt8} {offset : Int} (error : UInt32)
      (hdenied : o.writes = false → o.appends = false → error = errorAccessDenied) :
      OnFile files o (.pwrite other data offset) (failing error) files o
  | lseek {other : Except UInt32 Nat} {offset whence : Int} {start n : Nat} {o' : FileObject}
      (hstart : CountsFrom files o whence start) (hn : (n : Int) = start + offset)
      (hleft : o.LeftAt n o') :
      OnFile files o (.lseek other offset whence) (seekReply n) files o'
  | lseekFails {other : Except UInt32 Nat} {offset whence : Int} {start : Nat}
      (hstart : CountsFrom files o whence start)
      (hout : start + offset < 0 ∨ (maxOffset : Int) ≤ start + offset) :
      OnFile files o (.lseek other offset whence) (failing errorNegativeSeek) files o
  | ftruncate {other : Except UInt32 Unit} {length : Int} {o' : FileObject}
      (hwrites : o.writes = true) (hleft : o.LeftAt (cutAt o length) o') :
      OnFile files o (.ftruncate other length) (doneReply ())
        (changed files o ((files o.file).resize (cutAt o length))) o'
  | ftruncateFails {other : Except UInt32 Unit} {length : Int} {o' : FileObject}
      (error : UInt32) (hdenied : o.writes = false → error = errorAccessDenied)
      (hleft : o.LeftAt (cutAt o length) o') :
      OnFile files o (.ftruncate other length) (failing error) files o'
  | mmap {other : Mapped} {anon : Bool} {address : Option (Nat × List UInt8)} {len : UInt32}
      {offset : Int} {answers : MemoryAnswers} {place : Nat} {memory data : List UInt8}
      {protect : Option UInt32}
      (htarget : mapTarget address len answers = .ok (place, memory, protect))
      (hreads : o.reads = true) (hoffset : 0 ≤ offset)
      (hdata : data = (files o.file).read offset.toNat len.toNat) :
      OnFile files o (.mmap other anon address len offset answers)
        (mappedReply ⟨protect, place, data ++ memory.drop data.length⟩) files o
  | mmapNoMemory {other : Mapped} {anon : Bool} {address : Option (Nat × List UInt8)}
      {len : UInt32} {offset : Int} {answers : MemoryAnswers} (error : UInt32)
      (htarget : mapTarget address len answers = .error error) :
      OnFile files o (.mmap other anon address len offset answers) (failing error) files o
  | mmapNegative {other : Mapped} {anon : Bool} {address : Option (Nat × List UInt8)}
      {len : UInt32} {offset : Int} {answers : MemoryAnswers}
      (hoffset : offset < 0 ∨ (maxOffset : Int) ≤ offset) :
      OnFile files o (.mmap other anon address len offset answers) (failing errorNegativeSeek)
        files o
  | mmapFails {other : Mapped} {anon : Bool} {address : Option (Nat × List UInt8)}
      {len : UInt32} {offset : Int} {answers : MemoryAnswers} {o' : FileObject} (error : UInt32)
      (hdenied : o.reads = false → error = errorAccessDenied)
      (hleft : o.LeftAt offset.toNat o') :
      OnFile files o (.mmap other anon address len offset answers) (failing error) files o'

/-- A call on an open file, done at once. -/
inductive FileEffect (c : OpenCall) (files : Nat → Image) (o : FileObject) (reply : FileReply) :
    (Nat → Image) → FileObject → Prop
  | refused (h : c.refusal = some reply) : FileEffect c files o reply files o
  | served {files' : Nat → Image} {o' : FileObject} (h : c.refusal = none)
      (hfile : OnFile files o c.call reply files' o') : FileEffect c files o reply files' o'

/-- The files, as images. -/
def images (files : Files) : Nat → Image := fun i => Image.of (files i)

/-! ### What a call asks for -/

/-- What is left of a call that gets to its file. -/
def onDisk : FileCall → FileProg FileReply
  | .read _ count => do return replyFor readResult (← readFile count.toNat none)
  | .write _ data => do return replyFor countReply (← writeFile data none)
  | .pread _ nbytes offset => do
      return replyFor readReply (← diskPread nbytes.toNat offset.toNat)
  | .pwrite _ data offset => do return replyFor countReply (← diskPwrite data offset.toNat)
  | .lseek _ offset whence => do
      return replyFor seekReply (← setFilePointerEx offset (whenceWin whence))
  | .ftruncate _ length => do return replyFor doneReply (← vfsFtruncate length)
  | .mmap _ _ address len offset answers => do
      return mappedReply (← winMmap address len.toNat offset answers)

section
variable {α : Type} (fsType : WinFsType) (other : Except UInt32 α)
  (disk : FileProg (Except UInt32 α)) (reply : α → FileReply)

theorem streamed_bind :
    (do return replyFor reply (← streamed fsType other disk)) =
      (elsewhere fsType (replyFor reply other)).elim
        (do return replyFor reply (← disk)) .done := by
  cases fsType <;> rfl

theorem positioned_bind :
    (do return replyFor reply (← positioned fsType other disk)) =
      (elsewhereAt fsType (replyFor reply other)).elim
        (do return replyFor reply (← disk)) .done := by
  cases fsType <;> rfl

end

/-- A call that does not get to a file asks for nothing. -/
theorem program_eq (c : OpenCall) : c.program = c.refusal.elim (onDisk c.call) .done := by
  obtain ⟨fd, fsType, call⟩ := c
  cases call with
  | read other count =>
      dsimp only [OpenCall.program, OpenCall.refusal, sysRead]
      split_ifs
      · rfl
      · exact streamed_bind fsType other _ readResult
  | write other data =>
      dsimp only [OpenCall.program, OpenCall.refusal, sysWrite]
      split_ifs
      · rfl
      · exact streamed_bind fsType other _ countReply
  | pread other nbytes offset =>
      dsimp only [OpenCall.program, OpenCall.refusal, sysPread]
      split_ifs
      · rfl
      · rfl
      · exact positioned_bind fsType other _ readReply
  | pwrite other data offset =>
      dsimp only [OpenCall.program, OpenCall.refusal, sysPwrite]
      split_ifs
      · rfl
      · rfl
      · exact positioned_bind fsType other _ countReply
  | lseek other offset whence =>
      dsimp only [OpenCall.program, OpenCall.refusal, sysLseek]
      split_ifs
      · rfl
      · cases fsType <;> rfl
  | ftruncate other length =>
      dsimp only [OpenCall.program, OpenCall.refusal, sysFtruncate]
      split_ifs <;> rfl
  | mmap other anon address len offset answers =>
      dsimp only [OpenCall.program, OpenCall.refusal, sysMmap]
      split_ifs <;> rfl

/-! ### The requests of a call -/

theorem images_update (files : Files) (file : Nat) (bytes : List UInt8) :
    images (Function.update files file bytes) =
      Function.update (images files) file (Image.of bytes) := by
  funext i
  by_cases hi : i = file
  · rw [hi, images, Function.update_self, Function.update_self]
  · rw [images, Function.update_of_ne hi, Function.update_of_ne hi]
    rfl

section
variable {α : Type} {c : OpenCall} {o o' q : FileObject} {reply : FileReply}

theorem owes_setFilePointerEx {distance : Int} {method : MoveMethod}
    {k : Except UInt32 Nat → FileProg FileReply}
    (h : ∀ contents, Owes serveFile reply (k (o.setFilePointerEx contents distance method).1)
      (o.setFilePointerEx contents distance method).2 q) :
    Owes serveFile reply (setFilePointerEx distance method >>= k) o q :=
  fun _ files => ⟨rfl, h (files o.file)⟩

theorem waits_setFilePointerEx {distance : Int} {method : MoveMethod}
    {k : Except UInt32 Nat → FileProg FileReply}
    (h : ∀ files : Files,
      Waits serveFile images FileEffect c
          (k (o.setFilePointerEx (files o.file) distance method).1)
          (o.setFilePointerEx (files o.file) distance method).2 q ∨
        ∃ reply own, FileEffect c (images files) q reply (images files) own ∧
          Owes serveFile reply (k (o.setFilePointerEx (files o.file) distance method).1)
            (o.setFilePointerEx (files o.file) distance method).2 own) :
    Waits serveFile images FileEffect c (setFilePointerEx distance method >>= k) o q :=
  fun _ files => (h files).imp_left fun hwaits => ⟨rfl, hwaits⟩

/-- All that is left is to put the pointer back. -/
theorem owes_restorePointer {n : Nat} (h : o.LeftAt n o') {value : α}
    {k : Except UInt32 α → FileProg FileReply} (hk : k (.ok value) = .done reply) :
    Owes serveFile reply (restorePointer o.pointer value >>= k) o' o := by
  rw [restorePointer, Prog.bind_assoc]
  refine owes_setFilePointerEx fun contents => ?_
  rw [h.restored]
  dsimp only
  rw [Prog.pure_eq, Prog.done_bind, hk]
  exact ⟨rfl, rfl⟩

/-- To ask for the pointer changes nothing. -/
theorem waits_current {k : Except UInt32 Nat → FileProg FileReply}
    (h : Waits serveFile images FileEffect c (k (.ok o.pointer)) o q) :
    Waits serveFile images FileEffect c (setFilePointerEx 0 .current >>= k) o q := by
  refine waits_setFilePointerEx fun files => .inl ?_
  rw [o.setFilePointerEx_current]
  exact h

/-- The effect of a read, and what it leaves to be done. -/
theorem waits_readFile {size : Nat} {overlapped : Option Nat}
    {k : Except UInt32 (List UInt8) → FileProg FileReply}
    (hdone : ∀ files data o', o.reads = true →
      data = (images files o.file).read (overlapped.getD o.pointer) size →
      o.LeftAt (overlapped.getD o.pointer + data.length) o' →
      ∃ reply own, FileEffect c (images files) q reply (images files) own ∧
        Owes serveFile reply (k (.ok data)) o' own)
    (hend : ∀ files, o.reads = true → overlapped.isSome = true →
      (images files o.file).read (overlapped.getD o.pointer) size = [] →
      ∃ reply own, FileEffect c (images files) q reply (images files) own ∧
        Owes serveFile reply (k (.error errorHandleEof)) o own)
    (hfails : ∀ files error, (o.reads = false → error = errorAccessDenied) →
      error ≠ errorHandleEof →
      ∃ reply own, FileEffect c (images files) q reply (images files) own ∧
        Owes serveFile reply (k (.error error)) o own) :
    Waits serveFile images FileEffect c (readFile size overlapped >>= k) o q := by
  intro fate files
  have hread : ∀ offset, (images files o.file).read offset size =
      sliceAt (files o.file) offset size := fun offset => Image.read_of (files o.file) offset size
  have hserve : serveFile fate (.readFile size overlapped) files o =
      ((o.readFile (files o.file) size overlapped fate).1, files,
        (o.readFile (files o.file) size overlapped fate).2) := rfl
  right
  rcases o.readFile_cases (files o.file) size overlapped fate with
    ⟨data, o', hreads, hdata, hleft, hout⟩ | ⟨hreads, hsome, hnone, hout⟩ |
      ⟨error, hdenied, hnot, hout⟩
  · rw [hserve, hout]
    exact hdone files data o' hreads (by rw [hread]; exact hdata) hleft
  · rw [hserve, hout]
    exact hend files hreads hsome (by rw [hread]; exact hnone)
  · rw [hserve, hout]
    exact hfails files error hdenied hnot

theorem waits_writeFile {data : List UInt8} {overlapped : Option Nat}
    {k : Except UInt32 Nat → FileProg FileReply}
    (hdone : ∀ files n o', (o.writes = true ∨ o.appends = true) →
      BeginsAt (images files) o (overlapped.getD o.pointer) n → o.LeftAt (n + data.length) o' →
      ∃ reply own, FileEffect c (images files) q reply
          (changed (images files) o ((images files o.file).write data n)) own ∧
        Owes serveFile reply (k (.ok data.length)) o' own)
    (hfails : ∀ files error,
      (o.writes = false → o.appends = false → error = errorAccessDenied) →
      ∃ reply own, FileEffect c (images files) q reply (images files) own ∧
        Owes serveFile reply (k (.error error)) o own) :
    Waits serveFile images FileEffect c (writeFile data overlapped >>= k) o q := by
  intro fate files
  have hserve : serveFile fate (.writeFile data overlapped) files o =
      ((o.writeFile (files o.file) data overlapped fate).1,
        Function.update files o.file (o.writeFile (files o.file) data overlapped fate).2.1,
        (o.writeFile (files o.file) data overlapped fate).2.2) := rfl
  right
  rcases o.writeFile_cases (files o.file) data overlapped fate with
    ⟨n, o', hmay, hn, hleft, hout⟩ | ⟨error, hdenied, hout⟩
  · rw [hserve, hout]
    dsimp only
    rw [images_update, Image.of_overwritten]
    refine hdone files n o' hmay ?_ hleft
    rw [BeginsAt]
    split_ifs with hwrites
    · rw [hn, if_pos hwrites]
    · rw [hn, if_neg hwrites]
      exact Image.endsAt_of _
  · rw [hserve, hout]
    dsimp only
    rw [Function.update_eq_self]
    exact hfails files error hdenied

/-! ### The effect of a call -/

theorem waits_read (hc : c.refusal = none) {other : Except UInt32 (List UInt8)}
    {count : UInt32} (hcall : c.call = .read other count) (o : FileObject) :
    Waits serveFile images FileEffect c (onDisk (.read other count)) o o := by
  refine waits_readFile (fun files data o' hreads hdata hleft => ?_)
    (fun files _ hsome _ => by cases hsome) (fun files error hdenied _ => ?_)
  · exact ⟨_, o', .served hc (hcall ▸ .read data hreads hdata hleft), rfl, rfl⟩
  · exact ⟨_, o, .served hc (hcall ▸ .readFails error hdenied), rfl, rfl⟩

theorem waits_write (hc : c.refusal = none) {other : Except UInt32 Nat} {data : List UInt8}
    (hcall : c.call = .write other data) (o : FileObject) :
    Waits serveFile images FileEffect c (onDisk (.write other data)) o o := by
  refine waits_writeFile (fun files n o' hmay hbegins hleft => ?_) (fun files error hdenied => ?_)
  · exact ⟨_, o', .served hc (hcall ▸ .write hmay hbegins hleft), rfl, rfl⟩
  · exact ⟨_, o, .served hc (hcall ▸ .writeFails error hdenied), rfl, rfl⟩

theorem waits_pread (hc : c.refusal = none) {other : Except UInt32 (List UInt8)}
    {nbytes : UInt32} {offset : Int} (hcall : c.call = .pread other nbytes offset)
    (o : FileObject) :
    Waits serveFile images FileEffect c (onDisk (.pread other nbytes offset)) o o := by
  have heffect : ∀ files, o.reads = true → FileEffect c files o
      (readReply ((files o.file).read offset.toNat nbytes.toNat)) files o :=
    fun files hreads => .served hc (hcall ▸ .pread hreads)
  rw [onDisk, diskPread, Prog.bind_assoc]
  refine waits_current ?_
  dsimp only
  rw [Prog.bind_assoc]
  refine waits_readFile (fun files data o' hreads hdata hleft => ?_)
    (fun files hreads _ hnone => ?_) (fun files error hdenied hnot => ?_)
  · have hfiles := heffect (images files) hreads
    rw [Option.getD_some] at hdata hleft
    rw [← hdata] at hfiles
    exact ⟨_, o, hfiles, owes_restorePointer hleft rfl⟩
  · have hfiles := heffect (images files) hreads
    rw [Option.getD_some] at hnone
    rw [hnone] at hfiles
    exact ⟨_, o, hfiles, rfl, rfl⟩
  · refine ⟨failing error, o, .served hc (hcall ▸ .preadFails error hdenied), ?_⟩
    dsimp only
    rw [if_neg hnot]
    exact ⟨rfl, rfl⟩

theorem waits_pwrite (hc : c.refusal = none) {other : Except UInt32 Nat} {data : List UInt8}
    {offset : Int} (hcall : c.call = .pwrite other data offset) (o : FileObject) :
    Waits serveFile images FileEffect c (onDisk (.pwrite other data offset)) o o := by
  rw [onDisk, diskPwrite, Prog.bind_assoc]
  refine waits_current ?_
  dsimp only
  rw [Prog.bind_assoc]
  refine waits_writeFile (fun files n o' hmay hbegins hleft => ?_) (fun files error hdenied => ?_)
  · exact ⟨_, o, .served hc (hcall ▸ .pwrite hmay hbegins), owes_restorePointer hleft rfl⟩
  · exact ⟨_, o, .served hc (hcall ▸ .pwriteFails error hdenied), rfl, rfl⟩

/-- From where Windows counts. -/
theorem target_eq (files : Files) (o : FileObject) (offset whence : Int) :
    ∃ start, CountsFrom (images files) o whence start ∧
      o.target (files o.file).length offset (whenceWin whence) = start + offset := by
  by_cases hcurrent : whence = 1
  · refine ⟨o.pointer, by rw [CountsFrom, if_pos hcurrent], ?_⟩
    rw [whenceWin, if_pos hcurrent]
    rfl
  · by_cases hends : whence = 2
    · refine ⟨(files o.file).length, ?_, ?_⟩
      · rw [CountsFrom, if_neg hcurrent, if_pos hends]
        exact Image.endsAt_of _
      · rw [whenceWin, if_neg hcurrent, if_pos hends]
        rfl
    · refine ⟨0, by rw [CountsFrom, if_neg hcurrent, if_neg hends], ?_⟩
      rw [whenceWin, if_neg hcurrent, if_neg hends]
      exact (Int.zero_add offset).symm

theorem waits_lseek (hc : c.refusal = none) {other : Except UInt32 Nat} {offset whence : Int}
    (hcall : c.call = .lseek other offset whence) (o : FileObject) :
    Waits serveFile images FileEffect c (onDisk (.lseek other offset whence)) o o := by
  refine waits_setFilePointerEx fun files => .inr ?_
  obtain ⟨start, hstart, htarget⟩ := target_eq files o offset whence
  rcases o.setFilePointerEx_cases (files o.file) offset (whenceWin whence) with
    ⟨hnonneg, hrange, o', hleft, hout⟩ | ⟨hrange, hout⟩
  · rw [hout]
    refine ⟨_, o', .served hc (hcall ▸ .lseek hstart ?_ hleft), rfl, rfl⟩
    omega
  · rw [hout]
    refine ⟨_, o, .served hc (hcall ▸ .lseekFails hstart ?_), rfl, rfl⟩
    omega

/-- The pointer is where the file is to be cut, also where it could not be moved. -/
theorem leftAt_cutAt (o : FileObject) (contents : List UInt8) (length : Int) :
    o.LeftAt (cutAt o length) (o.setFilePointerEx contents length .begin).2 := by
  have htarget : o.target contents.length length .begin = length := rfl
  rcases o.setFilePointerEx_cases contents length .begin with
    ⟨hnonneg, hrange, o', hleft, hout⟩ | ⟨hrange, hout⟩
  · rw [htarget] at hnonneg hrange hleft
    rw [hout, cutAt, if_pos ⟨hnonneg, hrange⟩]
    exact hleft
  · rw [htarget] at hrange
    rw [hout, cutAt, if_neg hrange]
    exact ⟨rfl, rfl, rfl, rfl, rfl⟩

theorem waits_ftruncate (hc : c.refusal = none) {other : Except UInt32 Unit} {length : Int}
    (hcall : c.call = .ftruncate other length) (o : FileObject) :
    Waits serveFile images FileEffect c (onDisk (.ftruncate other length)) o o := by
  rw [onDisk, vfsFtruncate, Prog.bind_assoc]
  refine waits_setFilePointerEx fun files => .inl ?_
  have hleft := leftAt_cutAt o (files o.file) length
  generalize (o.setFilePointerEx (files o.file) length .begin).2 = o' at hleft
  intro fate files
  have hserve : serveFile fate .setEndOfFile files o' =
      ((o'.setEndOfFile (files o'.file) fate).1,
        Function.update files o'.file (o'.setEndOfFile (files o'.file) fate).2, o') := rfl
  right
  rcases o'.setEndOfFile_cases (files o'.file) fate with ⟨hwrites, hout⟩ | ⟨error, hdenied, hout⟩
  · rw [hserve, hout]
    dsimp only
    rw [images_update, Image.of_resized, hleft.pointer, hleft.file]
    rw [hleft.writes] at hwrites
    exact ⟨_, o', .served hc (hcall ▸ .ftruncate hwrites hleft), rfl, rfl⟩
  · rw [hserve, hout]
    dsimp only
    rw [Function.update_eq_self]
    rw [hleft.writes] at hdenied
    exact ⟨_, o', .served hc (hcall ▸ .ftruncateFails error hdenied hleft), rfl, rfl⟩

theorem mappedReply_failing (error : UInt32) : mappedReply ⟨some error, 0, []⟩ = failing error := by
  simp [mappedReply, failing]

section
variable {other : Mapped} {anon : Bool} {address : Option (Nat × List UInt8)} {len : UInt32}
  {offset : Int} {answers : MemoryAnswers}

theorem waits_mmanLoadFile (hc : c.refusal = none)
    (hcall : c.call = .mmap other anon address len offset answers) {place : Nat}
    {memory : List UInt8} {protect : Option UInt32}
    (htarget : mapTarget address len answers = .ok (place, memory, protect))
    {k : Except UInt32 (List UInt8) → FileProg FileReply}
    (hmapped : ∀ mapped, k (.ok mapped) = .done (mappedReply ⟨protect, place, mapped⟩))
    (hfailed : ∀ error, k (.error error) = .done (failing error)) (o : FileObject) :
    Waits serveFile images FileEffect c (mmanLoadFile memory len.toNat offset >>= k) o o := by
  rw [mmanLoadFile, Prog.bind_assoc]
  refine waits_current ?_
  dsimp only
  rw [Prog.bind_assoc]
  refine waits_setFilePointerEx fun files => ?_
  have hbegin : o.target (files o.file).length offset .begin = offset := rfl
  rcases o.setFilePointerEx_cases (files o.file) offset .begin with
    ⟨hnonneg, hrange, o', hleft, hout⟩ | ⟨hrange, hout⟩
  · rw [hbegin] at hnonneg hleft
    rw [hout]
    dsimp only
    left
    rw [Prog.bind_assoc]
    refine waits_readFile (fun files data o'' hreads hdata hleft' => ?_)
      (fun files _ hsome _ => by cases hsome) (fun files error hdenied _ => ?_)
    · rw [hleft.reads] at hreads
      rw [Option.getD_none, hleft.pointer, hleft.file] at hdata
      refine ⟨mappedReply ⟨protect, place, data ++ memory.drop data.length⟩, o,
        .served hc (hcall ▸ .mmap htarget hreads hnonneg hdata), ?_⟩
      exact owes_restorePointer (hleft.trans hleft') (hmapped _)
    · rw [hleft.reads] at hdenied
      refine ⟨failing error, o', .served hc (hcall ▸ .mmapFails error hdenied hleft), ?_⟩
      dsimp only
      rw [Prog.pure_eq, Prog.done_bind, hfailed]
      exact ⟨rfl, rfl⟩
  · rw [hbegin] at hrange
    rw [hout]
    dsimp only
    refine .inr ⟨failing errorNegativeSeek, o, .served hc (hcall ▸ .mmapNegative ?_), ?_⟩
    · omega
    · rw [Prog.pure_eq, Prog.done_bind, hfailed]
      exact ⟨rfl, rfl⟩

theorem takesEffect_mmap (hc : c.refusal = none)
    (hcall : c.call = .mmap other anon address len offset answers) :
    TakesEffect serveFile images FileEffect c
      (onDisk (.mmap other anon address len offset answers)) := by
  rw [onDisk]
  cases address with
  | some target =>
      obtain ⟨place, memory⟩ := target
      refine takesEffect_of_waits fun o => ?_
      rw [winMmap, Prog.bind_assoc]
      exact waits_mmanLoadFile hc hcall rfl (fun _ => rfl)
        (fun error => congrArg Prog.done (mappedReply_failing error)) o
  | none =>
      cases halloc : answers.alloc with
      | error error =>
          have htarget : mapTarget none len answers = .error error := by
            rw [mapTarget, halloc]
            rfl
          rw [winMmap, halloc]
          dsimp only
          rw [Prog.pure_eq, Prog.done_bind, mappedReply_failing]
          exact fun files o => .served hc (hcall ▸ .mmapNoMemory error htarget)
      | ok place =>
          have htarget : mapTarget none len answers =
              .ok (place, List.replicate len.toNat 0, answers.protect) := by
            rw [mapTarget, halloc]
            rfl
          refine takesEffect_of_waits fun o => ?_
          rw [winMmap, halloc]
          dsimp only
          rw [Prog.bind_assoc]
          exact waits_mmanLoadFile hc hcall htarget (fun _ => rfl)
            (fun error => congrArg Prog.done (mappedReply_failing error)) o

end

/-- Every call has its effect at one of its requests. -/
theorem takesEffect_program (c : OpenCall) :
    TakesEffect serveFile images FileEffect c c.program := by
  rw [program_eq]
  cases hc : c.refusal with
  | some reply => exact fun _ _ => .refused hc
  | none =>
      rw [Option.elim_none]
      cases hcall : c.call with
      | read other count => exact takesEffect_of_waits (waits_read hc hcall)
      | write other data => exact takesEffect_of_waits (waits_write hc hcall)
      | pread other nbytes offset => exact takesEffect_of_waits (waits_pread hc hcall)
      | pwrite other data offset => exact takesEffect_of_waits (waits_pwrite hc hcall)
      | lseek other offset whence => exact takesEffect_of_waits (waits_lseek hc hcall)
      | ftruncate other length => exact takesEffect_of_waits (waits_ftruncate hc hcall)
      | mmap other anon address len offset answers => exact takesEffect_mmap hc hcall

end

/-! ### Runs -/

abbrev OpenFiles := CallSystem Nat OpenCall Files FileObject FileRequest.Reply FileReply

abbrev FileEvent := CallEvent Nat OpenCall (Option Fault)

def OpenFiles.next (s : OpenFiles) (e : FileEvent) : OpenFiles :=
  (s.step serveFile OpenCall.program e).1

/-- The calls of a run, and what they return. -/
def OpenFiles.shown (s : OpenFiles) (es : List FileEvent) : List (Shown Nat OpenCall FileReply) :=
  s.trace serveFile OpenCall.program es

/-- In every run of calls on open files, in whatever order their requests are served, the calls
return what they would if each was done at once, and so they leave the files. It is enough that
no request comes in between those of another call on the same open file. -/
theorem calls_atomic (s : OpenFiles) (hidle : ∀ task, s.running task = none)
    (es : List FileEvent) (hrun : Along OpenFiles.next CallSystem.Uninterrupted s es) :
    ∃ a, AtomicRun FileEffect ⟨images s.shared, s.cell, fun _ => .idle⟩ (s.shown es) a ∧
      a.shared = images (run OpenFiles.next s es).shared ∧
      ∀ object, (∀ task r, (run OpenFiles.next s es).running task = some r → r.amid = true →
          r.cell ≠ object) → a.cell object = (run OpenFiles.next s es).cell object := by
  obtain ⟨a, hatomic, hsim⟩ := (simulated_idle hidle).run takesEffect_program hrun
  exact ⟨a, hatomic, hsim.shared, hsim.settled⟩

/-- A file with the bytes of `abcdef`, which two processes have open. -/
def sharedFile : OpenFiles where
  shared := fun _ => [97, 98, 99, 100, 101, 102]
  cell := fun _ => ⟨0, 0, true, true, false, zero_lt_maxOffset⟩
  running := fun _ => none

/-- One reads from the middle while the other writes to the beginning. -/
def sharedCalls : List FileEvent :=
  [.calls 0 0 ⟨3, .disk, .pread (.ok []) 2 3⟩, .goes 0 none, .goes 0 none,
    .calls 1 1 ⟨4, .disk, .write (.ok 0) [88, 89]⟩, .goes 1 none, .goes 1 none,
    .goes 0 none, .goes 0 none]

theorem sharedCalls_atomic :
    (∃ a, AtomicRun FileEffect ⟨images sharedFile.shared, sharedFile.cell, fun _ => .idle⟩
        [.called 0 0 ⟨3, .disk, .pread (.ok []) 2 3⟩,
          .called 1 1 ⟨4, .disk, .write (.ok 0) [88, 89]⟩,
          .returned 1 ⟨2, []⟩, .returned 0 ⟨2, [100, 101]⟩] a ∧
      a.shared = images (run OpenFiles.next sharedFile sharedCalls).shared ∧
      ∀ object, (∀ task r, (run OpenFiles.next sharedFile sharedCalls).running task = some r →
          r.amid = true → r.cell ≠ object) →
        a.cell object = (run OpenFiles.next sharedFile sharedCalls).cell object) :=
  calls_atomic sharedFile (fun _ => rfl) sharedCalls
    (along_uninterrupted serveFile OpenCall.program Function.injective_id
      (fun _ _ h => by cases h) (by simp [sharedCalls, CallEvent.OnOwn]))

/-- Two processes share one open file. What one of them reads while the other asks for bytes
from elsewhere, it reads again. -/
example : (sharedFile.shown
    [.calls 0 0 ⟨3, .disk, .pread (.ok []) 2 3⟩, .goes 0 none,
      .calls 1 0 ⟨3, .disk, .read (.ok []) 2⟩, .goes 1 none, .goes 1 none,
      .goes 0 none, .goes 0 none, .goes 0 none,
      .calls 1 0 ⟨3, .disk, .read (.ok []) 2⟩, .goes 1 none, .goes 1 none]).filterMap
        (fun | .called _ _ _ => none | .returned task reply => some (task, reply)) =
      [(1, ⟨2, [97, 98]⟩), (0, ⟨2, [100, 101]⟩), (1, ⟨2, [97, 98]⟩)] := rfl

end MinC.Sys
