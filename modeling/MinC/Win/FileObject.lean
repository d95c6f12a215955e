import MinC.Lib.ByteFile
import MinC.Lib.Prog
import MinC.Win.Error
import Mathlib.Tactic.SplitIfs

/-!
Files that are open in Windows.

A file object is what the handles of an open file stand for, in however many
processes. It has one pointer, which the handles share. Reading and writing
begin at the pointer, or at an offset that is given with the request; either way
the pointer is left behind the last byte. A request that fails changes nothing.
A file object that may only append writes at the end of the file, wherever its
pointer is.
-/

namespace MinC.Win

open MinC.Lib

def errorNegativeSeek : UInt32 := 131

/-- Positions are signed words of 64 bits. -/
def maxOffset : Nat := 0x8000000000000000

theorem zero_lt_maxOffset : 0 < maxOffset := by decide

structure FileObject where
  file : Nat
  pointer : Nat
  reads : Bool
  writes : Bool
  appends : Bool
  inRange : pointer < maxOffset
  deriving DecidableEq

/-- What is in each file. -/
abbrev Files := Nat → List UInt8

/-- Why a request may fail that could be served. The end of a file is not a reason. -/
structure Fault where
  error : UInt32
  notEof : error ≠ errorHandleEof
  deriving DecidableEq

/-- From where `SetFilePointerEx` counts. -/
inductive MoveMethod
  | begin
  | current
  | ends
  deriving DecidableEq

namespace FileObject

variable (o : FileObject) (contents : List UInt8)

def move (n : Nat) (h : n < maxOffset) : FileObject := { o with pointer := n, inRange := h }

/-- Where `SetFilePointerEx` is to leave the pointer. -/
def target (size : Nat) (distance : Int) : MoveMethod → Int
  | .begin => distance
  | .current => o.pointer + distance
  | .ends => size + distance

/-- A position that is too large for the word is negative. -/
def setFilePointerEx (distance : Int) (method : MoveMethod) : Except UInt32 Nat × FileObject :=
  let target := o.target contents.length distance method
  if h : 0 ≤ target ∧ target.toNat < maxOffset then (.ok target.toNat, o.move target.toNat h.2)
  else (.error errorNegativeSeek, o)

/-- `ReadFile`. To begin at the end of the file is an error only with an offset. -/
def readFile (size : Nat) (overlapped : Option Nat) (fault : Option Fault) :
    Except UInt32 (List UInt8) × FileObject :=
  if o.reads then
    match fault with
    | some fault => (.error fault.error, o)
    | none =>
        let offset := overlapped.getD o.pointer
        let data := sliceAt contents offset size
        if overlapped.isSome ∧ size ≠ 0 ∧ data = [] then (.error errorHandleEof, o)
        else if h : offset + data.length < maxOffset then (.ok data, o.move _ h)
        else (.error errorInvalidParameter, o)
  else (.error errorAccessDenied, o)

/-- `WriteFile`, with the contents it leaves. -/
def writeFile (data : List UInt8) (overlapped : Option Nat) (fault : Option Fault) :
    Except UInt32 Nat × List UInt8 × FileObject :=
  if o.writes ∨ o.appends then
    match fault with
    | some fault => (.error fault.error, contents, o)
    | none =>
        let offset := if o.writes then overlapped.getD o.pointer else contents.length
        if h : offset + data.length < maxOffset then
          (.ok data.length, overwritten contents data offset, o.move _ h)
        else (.error errorInvalidParameter, contents, o)
  else (.error errorAccessDenied, contents, o)

/-- `SetEndOfFile`: the file ends where the pointer is. -/
def setEndOfFile (fault : Option Fault) : Except UInt32 Unit × List UInt8 :=
  if o.writes then
    match fault with
    | some fault => (.error fault.error, contents)
    | none => (.ok (), resized contents o.pointer)
  else (.error errorAccessDenied, contents)

/-! ### What the requests leave -/

/-- The same open file, with its pointer somewhere. -/
structure LeftAt (n : Nat) (o' : FileObject) : Prop where
  pointer : o'.pointer = n
  file : o'.file = o.file
  reads : o'.reads = o.reads
  writes : o'.writes = o.writes
  appends : o'.appends = o.appends

variable {o contents}

theorem leftAt_move (n : Nat) (h : n < maxOffset) : o.LeftAt n (o.move n h) :=
  ⟨rfl, rfl, rfl, rfl, rfl⟩

theorem LeftAt.trans {m n : Nat} {o' o'' : FileObject} (h : o.LeftAt m o')
    (h' : o'.LeftAt n o'') : o.LeftAt n o'' where
  pointer := h'.pointer
  file := h'.file.trans h.file
  reads := h'.reads.trans h.reads
  writes := h'.writes.trans h.writes
  appends := h'.appends.trans h.appends

theorem LeftAt.eq {o' : FileObject} (h : o.LeftAt o.pointer o') : o' = o := by
  obtain ⟨hpointer, hfile, hreads, hwrites, happends⟩ := h
  cases o
  cases o'
  simp_all

theorem setFilePointerEx_cases (o : FileObject) (contents : List UInt8) (distance : Int)
    (method : MoveMethod) :
    (0 ≤ o.target contents.length distance method ∧
        (o.target contents.length distance method).toNat < maxOffset ∧
        ∃ o', o.LeftAt (o.target contents.length distance method).toNat o' ∧
          o.setFilePointerEx contents distance method =
            (.ok (o.target contents.length distance method).toNat, o')) ∨
      (¬(0 ≤ o.target contents.length distance method ∧
          (o.target contents.length distance method).toNat < maxOffset) ∧
        o.setFilePointerEx contents distance method = (.error errorNegativeSeek, o)) := by
  rw [setFilePointerEx]
  by_cases h : 0 ≤ o.target contents.length distance method ∧
      (o.target contents.length distance method).toNat < maxOffset
  · exact .inl ⟨h.1, h.2, _, leftAt_move _ h.2, dif_pos h⟩
  · exact .inr ⟨h, dif_neg h⟩

/-- To where a pointer is, it can be put back. -/
theorem LeftAt.restored {n : Nat} {o' : FileObject} (h : o.LeftAt n o') (contents : List UInt8) :
    o'.setFilePointerEx contents o.pointer .begin = (.ok o.pointer, o) := by
  have htarget : (o'.target contents.length o.pointer .begin).toNat = o.pointer :=
    Int.toNat_natCast _
  rcases setFilePointerEx_cases o' contents o.pointer .begin with
    ⟨_, _, o'', hleft, hout⟩ | ⟨hfails, _⟩
  · rw [htarget] at hleft hout
    rw [hout, (h.trans hleft).eq]
  · exact absurd ⟨Int.natCast_nonneg _, htarget ▸ o.inRange⟩ hfails

/-- To ask where the pointer is leaves it there. -/
theorem setFilePointerEx_current (o : FileObject) (contents : List UInt8) :
    o.setFilePointerEx contents 0 .current = (.ok o.pointer, o) := by
  have htarget : o.target contents.length 0 .current = o.pointer := Int.add_zero _
  rcases setFilePointerEx_cases o contents 0 .current with ⟨_, _, o', hleft, hout⟩ | ⟨hfails, _⟩
  · rw [htarget, Int.toNat_natCast] at hleft hout
    rw [hout, hleft.eq]
  · rw [htarget, Int.toNat_natCast] at hfails
    exact absurd ⟨Int.natCast_nonneg _, o.inRange⟩ hfails

/-- A read that is served, one that begins at the end, and one that fails. -/
theorem readFile_cases (o : FileObject) (contents : List UInt8) (size : Nat)
    (overlapped : Option Nat) (fault : Option Fault) :
    (∃ data o', o.reads = true ∧ data = sliceAt contents (overlapped.getD o.pointer) size ∧
        o.LeftAt (overlapped.getD o.pointer + data.length) o' ∧
        o.readFile contents size overlapped fault = (.ok data, o')) ∨
      (o.reads = true ∧ overlapped.isSome = true ∧
        sliceAt contents (overlapped.getD o.pointer) size = [] ∧
        o.readFile contents size overlapped fault = (.error errorHandleEof, o)) ∨
      ∃ error, (o.reads = false → error = errorAccessDenied) ∧ error ≠ errorHandleEof ∧
        o.readFile contents size overlapped fault = (.error error, o) := by
  unfold readFile
  cases hreads : o.reads with
  | false => exact .inr (.inr ⟨errorAccessDenied, fun _ => rfl, by decide, rfl⟩)
  | true =>
      rw [if_pos rfl]
      cases fault with
      | some fault => exact .inr (.inr ⟨fault.error, (by simp), fault.notEof, rfl⟩)
      | none =>
          dsimp only
          split_ifs with hend hrange
          · exact .inr (.inl ⟨rfl, hend.1, hend.2.2, rfl⟩)
          · exact .inl ⟨_, _, rfl, rfl, leftAt_move _ hrange, rfl⟩
          · exact .inr (.inr ⟨errorInvalidParameter, (by simp), by decide, rfl⟩)

theorem writeFile_cases (o : FileObject) (contents data : List UInt8)
    (overlapped : Option Nat) (fault : Option Fault) :
    (∃ n o', (o.writes = true ∨ o.appends = true) ∧
        n = (if o.writes then overlapped.getD o.pointer else contents.length) ∧
        o.LeftAt (n + data.length) o' ∧
        o.writeFile contents data overlapped fault =
          (.ok data.length, overwritten contents data n, o')) ∨
      ∃ error, (o.writes = false → o.appends = false → error = errorAccessDenied) ∧
        o.writeFile contents data overlapped fault = (.error error, contents, o) := by
  unfold writeFile
  by_cases hmay : o.writes = true ∨ o.appends = true
  · have hdenied : ∀ error : UInt32, o.writes = false → o.appends = false →
        error = errorAccessDenied := by
      intro error hwrites happends
      rw [hwrites, happends] at hmay
      simp at hmay
    rw [if_pos hmay]
    cases fault with
    | some fault => exact .inr ⟨fault.error, hdenied _, rfl⟩
    | none =>
        dsimp only
        by_cases hrange : (if o.writes then overlapped.getD o.pointer else contents.length) +
            data.length < maxOffset
        · exact .inl ⟨_, _, hmay, rfl, leftAt_move _ hrange, dif_pos hrange⟩
        · exact .inr ⟨errorInvalidParameter, hdenied _, dif_neg hrange⟩
  · exact .inr ⟨errorAccessDenied, fun _ _ => rfl, if_neg hmay⟩

theorem setEndOfFile_cases (o : FileObject) (contents : List UInt8) (fault : Option Fault) :
    (o.writes = true ∧
        o.setEndOfFile contents fault = (.ok (), resized contents o.pointer)) ∨
      ∃ error, (o.writes = false → error = errorAccessDenied) ∧
        o.setEndOfFile contents fault = (.error error, contents) := by
  unfold setEndOfFile
  cases hwrites : o.writes with
  | false => exact .inr ⟨errorAccessDenied, fun _ => rfl, rfl⟩
  | true =>
      cases fault with
      | some fault => exact .inr ⟨fault.error, by simp, rfl⟩
      | none => exact .inl ⟨rfl, rfl⟩

end FileObject

/-! ### Requests -/

inductive FileRequest
  | setFilePointerEx (distance : Int) (method : MoveMethod)
  | readFile (size : Nat) (overlapped : Option Nat)
  | writeFile (data : List UInt8) (overlapped : Option Nat)
  | setEndOfFile

def FileRequest.Reply : FileRequest → Type
  | .setFilePointerEx _ _ => Except UInt32 Nat
  | .readFile _ _ => Except UInt32 (List UInt8)
  | .writeFile _ _ => Except UInt32 Nat
  | .setEndOfFile => Except UInt32 Unit

abbrev FileProg := Prog FileRequest.Reply

/-- Serve a request about a file object. A transfer may fail for reasons of its own. -/
def serveFile (fault : Option Fault) :
    (r : FileRequest) → Files → FileObject → r.Reply × Files × FileObject
  | .setFilePointerEx distance method, files, o =>
      let out := o.setFilePointerEx (files o.file) distance method
      (out.1, files, out.2)
  | .readFile size overlapped, files, o =>
      let out := o.readFile (files o.file) size overlapped fault
      (out.1, files, out.2)
  | .writeFile data overlapped, files, o =>
      let out := o.writeFile (files o.file) data overlapped fault
      (out.1, Function.update files o.file out.2.1, out.2.2)
  | .setEndOfFile, files, o =>
      let out := o.setEndOfFile (files o.file) fault
      (out.1, Function.update files o.file out.2, o)

def setFilePointerEx (distance : Int) (method : MoveMethod) : FileProg (Except UInt32 Nat) :=
  Prog.request (FileRequest.setFilePointerEx distance method)

def readFile (size : Nat) (overlapped : Option Nat) : FileProg (Except UInt32 (List UInt8)) :=
  Prog.request (FileRequest.readFile size overlapped)

def writeFile (data : List UInt8) (overlapped : Option Nat) : FileProg (Except UInt32 Nat) :=
  Prog.request (FileRequest.writeFile data overlapped)

def setEndOfFile : FileProg (Except UInt32 Unit) := Prog.request FileRequest.setEndOfFile

end MinC.Win
