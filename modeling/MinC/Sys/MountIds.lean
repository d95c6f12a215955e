import MinC.Sys.Namei
import MinC.Vfs.MountIds

/-!
Indexes of the paths of calls.

A path starts with the index of a descriptor, of the task or of the drive in
front of it, and a lookup goes on from there. What it ends with is the slot that
is asked about, mounted on or cleared.
-/

namespace MinC.Sys

open MinC.Lib MinC.Win MinC.Vfs

theorem mountIdOfByte_lt_iff (b : UInt8) :
    mountIdOfByte b < winMountMax ↔ b < 128 ∧ IsDrive b.toUInt16 := by
  rw [mountIdOfByte]
  split_ifs with hascii
  · rw [mountIdOf_lt_iff]
    exact (and_iff_right hascii).symm
  · refine iff_of_false (fun h => ?_) fun h => hascii h.1
    have hle : 128 ≤ b.toNat := Nat.le_of_not_lt fun hlt => hascii (UInt8.lt_iff_toNat_lt.mpr hlt)
    have hlt := b.toNat_lt
    have hindex := UInt32.lt_iff_toNat_lt.mp h
    simp only [UInt32.toNat_sub, UInt32.toNat_add, UInt8.toNat_toUInt32, UInt32.reduceToNat,
      winMountMax] at hindex
    omega

section
variable (fs : WinFs) (stale : List UInt16) (task : NameiTask) (objects : ObjectNames)
  (dirfd : Int) (path : List UInt8) (atflags : UInt32)

/-- The character that the index of a path is computed from last. -/
def pathLetter : Option UInt16 :=
  let start := prefixWin task objects WinNameidata.zero dirfd path (flagsOfAt atflags)
  lookupLetter fs start.1 (text (sourceWin stale start.1 start.2.1)) start.2.2

/-- The index that a path starts with has a slot: that of the descriptor or of the task, and
the one of a drive if it is named by a letter. -/
def StartsInTable : Prop :=
  if 0 < dirfd ∧ dirfd < openMax then
    objects.answers (task.node dirfd.toNat).handle = true →
      objects.name (task.node dirfd.toNat).handle ≠ [] →
        (task.node dirfd.toNat).mountId < winMountMax
  else if path.getD 0 0 = 47 then True
  else if path.getD 1 0 = 58 then path.getD 0 0 < 128 ∧ IsDrive (path.getD 0 0).toUInt16
  else if dirfd = atFdcwd then task.mountId < winMountMax
  else True

theorem prefixWin_mountId_lt_iff (flags : UInt32) :
    (prefixWin task objects WinNameidata.zero dirfd path flags).1.mountId < winMountMax ↔
      StartsInTable task objects dirfd path := by
  have hzero : (0 : UInt32) < winMountMax := by decide
  rw [prefixWin, StartsInTable]
  split_ifs with hasked hroot hdrive hcwd
  · rw [vfsFGetpath]
    split_ifs with htold
    · exact ⟨fun h _ _ => h, fun h => h htold.1 htold.2⟩
    · exact iff_of_true hzero fun hanswers hname => absurd ⟨hanswers, hname⟩ htold
  · rw [rootWin]
    split_ifs
    · exact iff_of_true hzero trivial
    · exact iff_of_true hzero trivial
  · exact mountIdOfByte_lt_iff _
  · exact Iff.rfl
  · exact iff_of_true hzero trivial

theorem pathatWin_mountId :
    (pathatWin fs stale task objects WinNameidata.zero dirfd path atflags).mountId =
      mountFrom (prefixWin task objects WinNameidata.zero dirfd path
        (flagsOfAt atflags)).1.mountId (pathLetter fs stale task objects dirfd path atflags) := by
  rw [pathatWin, pathLetter]
  exact vfsLookup_mountId fs _ _ _

end

/-- The index of a path is in the table exactly when the last character it was computed from, if
there is one, is a letter, the character before the letters or none; and so is that of a drive,
of a link, of a link of the shell and of a directory that is mounted on. -/
theorem mountIds_lt_iff (fs : WinFs) (stale : List UInt16) (task : NameiTask)
    (objects : ObjectNames) (dirfd : Int) (path : List UInt8) (atflags : UInt32)
    (p : WinNameidata) (flags : UInt32) (handle : Nat) :
    ((pathatWin fs stale task objects WinNameidata.zero dirfd path atflags).mountId < winMountMax ↔
        (pathLetter fs stale task objects dirfd path atflags).elim
          (StartsInTable task objects dirfd path) IsDrive) ∧
      ((driveLookup p flags).1.mountId < winMountMax ↔ IsDrive (p.resolved.getD p.base 0)) ∧
      ((diskFLookup fs handle flags p).1.mountId < winMountMax ↔
        (diskFLetter fs handle flags p.size).elim (p.mountId < winMountMax) IsDrive) ∧
      ((shellReadlink fs p).1.mountId < winMountMax ↔
        (shellLetter fs p).elim (p.mountId < winMountMax) IsDrive) ∧
      (driveMountId p < winMountMax ↔ IsDrive (p.resolved.getD p.base 0)) := by
  have hfrom : ∀ (mountId : UInt32) (letter : Option UInt16),
      mountFrom mountId letter < winMountMax ↔
        letter.elim (mountId < winMountMax) IsDrive := by
    rintro mountId (_ | ch)
    · exact Iff.rfl
    · exact mountIdOf_lt_iff ch
  refine ⟨?_, ?_, ?_, ?_, mountIdOf_lt_iff _⟩
  · rw [pathatWin_mountId, hfrom]
    cases pathLetter fs stale task objects dirfd path atflags with
    | none => exact prefixWin_mountId_lt_iff task objects dirfd path (flagsOfAt atflags)
    | some ch => exact Iff.rfl
  · rw [driveLookup_mountId]
    exact mountIdOf_lt_iff _
  · rw [diskFLookup_mountId]
    exact hfrom _ _
  · rw [shellReadlink_mountId]
    exact hfrom _ _

/-! ### A name that starts with a digit -/

theorem zero_not_mem_digitTarget (handle : Nat) (size : UInt32) :
    (0 : UInt16) ∉ (fun (_ : Nat) (_ : UInt32) => [49, 58, 92]) handle size := by
  change (0 : UInt16) ∉ [49, 58, 92]
  decide

/-- All links in files lead to `1:\`. -/
def digitLinks : WinFs :=
  { emptyFs with
    read := fun _ _ => [49, 58, 92]
    zero_not_mem_read := zero_not_mem_digitTarget }

/-- `\1`, of which the last component is the directory `1`. -/
def digitDirectory : WinNameidata := { WinNameidata.zero with resolved := [92, 49], base := 1 }

theorem zero_not_mem_unnamed (handle : Nat) : (0 : UInt16) ∉ (fun _ : Nat => []) handle :=
  List.not_mem_nil

/-- The path `1:`, a mount point `1`, a link to `1:\` and a directory `1` that is mounted on. -/
theorem digit_not_in_table :
    ((pathatWin emptyFs [] ⟨fun _ => WinVnode.zero, 3, [67, 58], by decide⟩
        ⟨fun _ => [], fun _ => true, zero_not_mem_unnamed⟩ WinNameidata.zero atFdcwd [49, 58]
        0).mountId = 0xFFFFFFD1 ∧
      (driveLookup digitDirectory 0).1.mountId = 0xFFFFFFD1 ∧
      (diskFLookup digitLinks 8 winFollow digitDirectory).1.mountId = 0xFFFFFFD1 ∧
      driveMountId digitDirectory = 0xFFFFFFD1) ∧
      ¬(0xFFFFFFD1 : UInt32) < winMountMax := by
  refine ⟨⟨by decide +kernel, by decide, by decide +kernel, by decide⟩, by decide⟩

end MinC.Sys
