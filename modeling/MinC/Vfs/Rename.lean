import MinC.Lib.Names
import MinC.Vfs.Types
import MinC.Win.Error

/-!
Renaming a disk object.

The three kinds of disk objects are renamed by three functions of one shape:
an existing target is deleted first, and the source is moved to the free name
afterwards. Each of the Windows calls is one step that may fail, but the two
together are not one step, and what the second one finds is what the first one
left. The source and the target may be one entry under two names, and two
entries may be links to one object.
-/

namespace MinC.Vfs

open MinC.Lib MinC.Win

/-! ### The volume -/

/-- What an entry of a volume names. Two entries name one object when they
name the same one; only a directory can have entries in it. -/
structure DiskObject where
  id : Nat
  directory : Bool
  empty : Bool
  deriving DecidableEq

/-- The answers Windows gives to the removal of the target and to the move. A
call that would be let through may still have nothing to work on. -/
structure RenameAnswers where
  remove : Answer
  move : Answer
  deriving DecidableEq

variable {κ : Type} [DecidableEq κ]

/-- `DeleteFileW` removes an entry that is no directory. -/
def deleteFile (answer : Answer) (fs : Names κ DiskObject) (q : κ) :
    Except UInt32 Unit × Names κ DiskObject :=
  match answer with
  | .fail e => (.error e, fs)
  | .ok => match fs q with
    | none => (.error errorFileNotFound, fs)
    | some o => if o.directory then (.error errorAccessDenied, fs) else (.ok (), fs.unlink q)

/-- `RemoveDirectoryW` removes an entry that is a directory without entries. -/
def removeDirectory (answer : Answer) (fs : Names κ DiskObject) (q : κ) :
    Except UInt32 Unit × Names κ DiskObject :=
  match answer with
  | .fail e => (.error e, fs)
  | .ok => match fs q with
    | none => (.error errorFileNotFound, fs)
    | some o =>
        if !o.directory then (.error errorDirectory, fs)
        else if !o.empty then (.error errorDirNotEmpty, fs)
        else (.ok (), fs.unlink q)

/-- `MoveFileExW`: an entry may be moved to itself, to a free entry and, if
asked to replace, from a file to a file. -/
def moveFileEx (answer : Answer) (replace : Bool) (fs : Names κ DiskObject) (p q : κ) :
    Except UInt32 Unit × Names κ DiskObject :=
  match answer with
  | .fail e => (.error e, fs)
  | .ok => match fs p with
    | none => (.error errorFileNotFound, fs)
    | some o =>
        if p = q then (.ok (), fs)
        else match fs q with
        | none => (.ok (), fs.move p q)
        | some t =>
            if replace && !o.directory && !t.directory then (.ok (), fs.move p q)
            else (.error errorAlreadyExists, fs)

/-- Remove the target, and when that went through move the source to it. -/
def removeThenMove (removed : Except UInt32 Unit × Names κ DiskObject) (answer : Answer)
    (replace : Bool) (p q : κ) : Except UInt32 Unit × Names κ DiskObject :=
  match removed with
  | (.ok (), fs') => moveFileEx answer replace fs' p q
  | (.error e, fs') => (.error e, fs')

/-! ### The three renames -/

section
variable (locate : List UInt16 → κ) (os : RenameAnswers) (fs : Names κ DiskObject)
  (path result : WinNameidata)

def fileRename : Except UInt32 Unit × Names κ DiskObject :=
  if path.lastChar = 92 ∨ result.lastChar = 92 then (.error errorBadPathname, fs)
  else if result.attribs = noAttribs then
    moveFileEx os.move false fs (locate path.name) (locate result.name)
  else if result.fileType ≠ .vreg then (.error errorFileExists, fs)
  else removeThenMove (deleteFile os.remove fs (locate result.name)) os.move true
    (locate path.name) (locate result.name)

def linkRename : Except UInt32 Unit × Names κ DiskObject :=
  if result.attribs = noAttribs then
    moveFileEx os.move false fs (locate path.name) (locate result.name)
  else if result.fileType ≠ .vlnk then (.error errorFileExists, fs)
  else removeThenMove (deleteFile os.remove fs (locate result.name)) os.move false
    (locate path.name) (locate result.name)

def dirRename : Except UInt32 Unit × Names κ DiskObject :=
  if path.mountId ≠ result.mountId then (.error errorNotSameDevice, fs)
  else if result.attribs = noAttribs then
    moveFileEx os.move false fs (locate path.name) (locate result.name)
  else if result.fileType ≠ .vdir then (.error errorDirectory, fs)
  else removeThenMove (removeDirectory os.remove fs (locate result.name)) os.move false
    (locate path.name) (locate result.name)

def diskRename : Except UInt32 Unit × Names κ DiskObject :=
  match path.fileType with
  | .vdir => dirRename locate os fs path result
  | .vlnk => linkRename locate os fs path result
  | .vreg => fileRename locate os fs path result
  | _ => (.error errorBadFileType, fs)

/-! ### When the target is deleted -/

/-- The target is deleted on the way: the checks of the source's kind let an
existing target of the same kind through, and Windows removes it. -/
def TargetDeleted : Prop :=
  match path.fileType with
  | .vdir => path.mountId = result.mountId ∧ result.attribs ≠ noAttribs ∧
      result.fileType = .vdir ∧ os.remove = .ok ∧
        ∃ o, fs (locate result.name) = some o ∧ o.directory = true ∧ o.empty = true
  | .vlnk => result.attribs ≠ noAttribs ∧ result.fileType = .vlnk ∧ os.remove = .ok ∧
      ∃ o, fs (locate result.name) = some o ∧ o.directory = false
  | .vreg => ¬(path.lastChar = 92 ∨ result.lastChar = 92) ∧ result.attribs ≠ noAttribs ∧
      result.fileType = .vreg ∧ os.remove = .ok ∧
        ∃ o, fs (locate result.name) = some o ∧ o.directory = false
  | _ => False

end

/-! ### Steps -/

/-- Whatever a removal may remove, it removes it or leaves everything. -/
structure Removal (removed : Except UInt32 Unit × Names κ DiskObject) (fs : Names κ DiskObject)
    (q : κ) (removes : Prop) : Prop where
  done : removes → fs q ≠ none ∧ removed = (.ok (), fs.unlink q)
  undone : ¬ removes → ∃ e, removed = (.error e, fs)

theorem deleteFile_removal (answer : Answer) (fs : Names κ DiskObject) (q : κ) :
    Removal (deleteFile answer fs q) fs q
      (answer = .ok ∧ ∃ o, fs q = some o ∧ o.directory = false) := by
  constructor
  · rintro ⟨rfl, o, ho, hdir⟩
    simp [deleteFile, ho, hdir]
  · intro h
    cases answer with
    | fail e => exact ⟨e, rfl⟩
    | ok =>
        cases hq : fs q with
        | none => exact ⟨errorFileNotFound, by simp [deleteFile, hq]⟩
        | some o =>
            have hdir : o.directory = true := by
              by_contra hne
              exact h ⟨rfl, o, hq, by simpa using hne⟩
            exact ⟨errorAccessDenied, by simp [deleteFile, hq, hdir]⟩

theorem removeDirectory_removal (answer : Answer) (fs : Names κ DiskObject) (q : κ) :
    Removal (removeDirectory answer fs q) fs q
      (answer = .ok ∧ ∃ o, fs q = some o ∧ o.directory = true ∧ o.empty = true) := by
  constructor
  · rintro ⟨rfl, o, ho, hdir, hempty⟩
    simp [removeDirectory, ho, hdir, hempty]
  · intro h
    cases answer with
    | fail e => exact ⟨e, rfl⟩
    | ok =>
        cases hq : fs q with
        | none => exact ⟨errorFileNotFound, by simp [removeDirectory, hq]⟩
        | some o =>
            cases hdir : o.directory with
            | false => exact ⟨errorDirectory, by simp [removeDirectory, hq, hdir]⟩
            | true =>
                have hempty : o.empty = false := by
                  by_contra hne
                  exact h ⟨rfl, o, hq, hdir, by simpa using hne⟩
                exact ⟨errorDirNotEmpty, by simp [removeDirectory, hq, hdir, hempty]⟩

/-- A move that does not replace is a rename by itself. -/
theorem moveFileEx_renames (answer : Answer) (fs : Names κ DiskObject) (p q : κ) :
    Renames fs (moveFileEx answer false fs p q).2
      ((moveFileEx answer false fs p q).1 = .ok ()) p q := by
  cases answer with
  | fail e => exact renames_failed (by simp [moveFileEx])
  | ok =>
      cases hp : fs p with
      | none =>
          simp only [moveFileEx, hp]
          exact renames_failed (by simp)
      | some o =>
          by_cases hpq : p = q
          · subst hpq
            simp only [moveFileEx, hp, if_true]
            exact renames_self
          · cases hq : fs q with
            | none =>
                simp only [moveFileEx, hp, hq, hpq, if_false]
                exact renames_move trivial (by simp [hp]) (by simp) (by simp [hpq])
            | some t =>
                simp only [moveFileEx, hp, hq, hpq, if_false]
                exact renames_failed (by simp)

/-- Removing the target first is a rename exactly if the removal fails, or the
source is another entry that exists and Windows lets the move through. -/
theorem removeThenMove_renames_iff {removed : Except UInt32 Unit × Names κ DiskObject}
    {fs : Names κ DiskObject} {q : κ} {removes : Prop} (h : Removal removed fs q removes)
    (answer : Answer) (replace : Bool) (p : κ) :
    Renames fs (removeThenMove removed answer replace p q).2
        ((removeThenMove removed answer replace p q).1 = .ok ()) p q ↔
      (removes → p ≠ q ∧ fs p ≠ none ∧ answer = .ok) := by
  by_cases hr : removes
  · obtain ⟨hq, rfl⟩ := h.done hr
    simp only [removeThenMove, hr, true_implies]
    constructor
    · intro hren
      by_contra hcond
      -- with the target gone, whatever stops the move loses it
      have hstop : ∃ e, moveFileEx answer replace (fs.unlink q) p q = (.error e, fs.unlink q) := by
        cases answer with
        | fail e => exact ⟨e, rfl⟩
        | ok =>
            have hsource : fs.unlink q p = none := by
              by_cases hpq : p = q
              · simp [hpq]
              · have hp : fs p = none := by
                  by_contra hp
                  exact hcond ⟨hpq, hp, rfl⟩
                simp [hpq, hp]
            exact ⟨errorFileNotFound, by simp [moveFileEx, hsource]⟩
      obtain ⟨e, he⟩ := hstop
      rw [he] at hren
      exact not_renames_of_lost (by simp) hq (by simp) hren
    · rintro ⟨hpq, hp, rfl⟩
      obtain ⟨o, ho⟩ := Option.ne_none_iff_exists'.mp hp
      have hmove : moveFileEx .ok replace (fs.unlink q) p q =
          (.ok (), (fs.unlink q).move p q) := by
        simp [moveFileEx, hpq, ho]
      rw [hmove]
      exact renames_move rfl hp (by simp [hpq]) (by simp [hpq])
  · obtain ⟨e, rfl⟩ := h.undone hr
    simp only [removeThenMove, hr, false_implies, iff_true]
    exact renames_failed (by simp)

/-! ### The whole call -/

section
variable (locate : List UInt16 → κ) (os : RenameAnswers) (fs : Names κ DiskObject)
  (path result : WinNameidata)

/-- What one of the three renames has to do to be all or nothing, given what
stands before the removal of the target in it. -/
def SafeToDelete (deleted : Prop) : Prop :=
  deleted → locate path.name ≠ locate result.name ∧ fs (locate path.name) ≠ none ∧ os.move = .ok

/-- The outcome of a rename is all or nothing. -/
def Atomic (outcome : Except UInt32 Unit × Names κ DiskObject) : Prop :=
  Renames fs outcome.2 (outcome.1 = .ok ()) (locate path.name) (locate result.name)

omit [DecidableEq κ] in
theorem atomic_error (e : UInt32) : Atomic locate fs path result (.error e, fs) :=
  renames_failed (by simp)

theorem atomic_moveFileEx :
    Atomic locate fs path result
      (moveFileEx os.move false fs (locate path.name) (locate result.name)) :=
  moveFileEx_renames os.move fs _ _

variable {locate os fs path result} in
theorem atomic_removeThenMove_iff {removed : Except UInt32 Unit × Names κ DiskObject}
    {removes : Prop} (h : Removal removed fs (locate result.name) removes) (replace : Bool) :
    Atomic locate fs path result
        (removeThenMove removed os.move replace (locate path.name) (locate result.name)) ↔
      SafeToDelete locate os fs path result removes :=
  removeThenMove_renames_iff h os.move replace (locate path.name)

theorem dirRename_atomic_iff :
    Atomic locate fs path result (dirRename locate os fs path result) ↔
      SafeToDelete locate os fs path result
        (path.mountId = result.mountId ∧ result.attribs ≠ noAttribs ∧ result.fileType = .vdir ∧
          os.remove = .ok ∧
            ∃ o, fs (locate result.name) = some o ∧ o.directory = true ∧ o.empty = true) := by
  unfold dirRename SafeToDelete
  by_cases hmount : path.mountId = result.mountId
  · by_cases hattribs : result.attribs = noAttribs
    · simp [hmount, hattribs, atomic_moveFileEx]
    · by_cases hkind : result.fileType = .vdir
      · simpa [hmount, hattribs, hkind, SafeToDelete] using atomic_removeThenMove_iff
          (removeDirectory_removal os.remove fs (locate result.name)) false
      · simp [hmount, hattribs, hkind, atomic_error]
  · simp [hmount, atomic_error]

theorem linkRename_atomic_iff :
    Atomic locate fs path result (linkRename locate os fs path result) ↔
      SafeToDelete locate os fs path result
        (result.attribs ≠ noAttribs ∧ result.fileType = .vlnk ∧ os.remove = .ok ∧
          ∃ o, fs (locate result.name) = some o ∧ o.directory = false) := by
  unfold linkRename SafeToDelete
  by_cases hattribs : result.attribs = noAttribs
  · simp [hattribs, atomic_moveFileEx]
  · by_cases hkind : result.fileType = .vlnk
    · simpa [hattribs, hkind, SafeToDelete] using atomic_removeThenMove_iff
        (deleteFile_removal os.remove fs (locate result.name)) false
    · simp [hattribs, hkind, atomic_error]

theorem fileRename_atomic_iff :
    Atomic locate fs path result (fileRename locate os fs path result) ↔
      SafeToDelete locate os fs path result
        (¬(path.lastChar = 92 ∨ result.lastChar = 92) ∧ result.attribs ≠ noAttribs ∧
          result.fileType = .vreg ∧ os.remove = .ok ∧
            ∃ o, fs (locate result.name) = some o ∧ o.directory = false) := by
  unfold fileRename SafeToDelete
  by_cases hslash : path.lastChar = 92 ∨ result.lastChar = 92
  · simp only [hslash, if_true, not_true_eq_false, false_and, false_implies, iff_true]
    exact atomic_error locate fs path result _
  · by_cases hattribs : result.attribs = noAttribs
    · simp [hslash, hattribs, atomic_moveFileEx]
    · by_cases hkind : result.fileType = .vreg
      · simpa [hslash, hattribs, hkind, SafeToDelete] using atomic_removeThenMove_iff
          (deleteFile_removal os.remove fs (locate result.name)) true
      · simp [hslash, hattribs, hkind, atomic_error]

/-- A rename of a disk object is all or nothing if and only if, whenever the
target is deleted, the source is another entry that exists and the move that
follows goes through. -/
theorem diskRename_renames_iff :
    Renames fs (diskRename locate os fs path result).2
        ((diskRename locate os fs path result).1 = .ok ())
        (locate path.name) (locate result.name) ↔
      (TargetDeleted locate os fs path result →
        locate path.name ≠ locate result.name ∧ fs (locate path.name) ≠ none ∧
          os.move = .ok) := by
  change Atomic locate fs path result _ ↔ SafeToDelete locate os fs path result _
  unfold diskRename TargetDeleted
  cases path.fileType with
  | vdir => exact dirRename_atomic_iff locate os fs path result
  | vlnk => exact linkRename_atomic_iff locate os fs path result
  | vreg => exact fileRename_atomic_iff locate os fs path result
  | vnon => simp [SafeToDelete, atomic_error]
  | vblk => simp [SafeToDelete, atomic_error]
  | vchr => simp [SafeToDelete, atomic_error]
  | vsock => simp [SafeToDelete, atomic_error]
  | vfifo => simp [SafeToDelete, atomic_error]
  | vbad => simp [SafeToDelete, atomic_error]

end

/-! ### A rename that loses its target -/

/-- What the lookup of an existing regular file gives. -/
def filePath (name : List UInt16) : WinNameidata where
  mountId := 0
  deviceId := 0
  fileType := .vreg
  fsType := .disk
  size := 0
  object := 0
  attribs := 0x20
  flags := 0
  base := 0
  last := name.length - 1
  r := name.length
  s := []
  resolved := name ++ [0]
  high := name.length + 1
  linkOutside := false

/-- Two regular files. -/
def sampleVolume : Names (List UInt16) DiskObject
  | [97] => some ⟨1, false, true⟩
  | [98] => some ⟨2, false, true⟩
  | _ => none

/-- The target is deleted, then the source turns out to be in use. -/
theorem diskRename_loses_target :
    ¬ Renames sampleVolume
      (diskRename id ⟨.ok, .fail errorSharingViolation⟩ sampleVolume
        (filePath [97]) (filePath [98])).2
      ((diskRename id ⟨.ok, .fail errorSharingViolation⟩ sampleVolume
        (filePath [97]) (filePath [98])).1 = .ok ())
      (filePath [97]).name (filePath [98]).name := by
  have hreply : (diskRename id ⟨.ok, .fail errorSharingViolation⟩ sampleVolume
      (filePath [97]) (filePath [98])).1 = .error errorSharingViolation := rfl
  refine not_renames_of_lost ?_ (by decide) (by decide)
  rw [hreply]
  simp

end MinC.Vfs
