import MinC.Vfs.Node
import MinC.Win.Error
import Mathlib.Tactic.SplitIfs

/-!
Locks on regions of a file.

The system keeps the locks that a descriptor holds. A lock is released by naming
the offset and the size that it was taken with. The descriptor itself remembers
of all its locks two sums: of the sizes, and of the sizes times the offsets, in
64 bits. Whoever asks for a lock first has the region released, so that a lock
can be replaced by one of the other kind. A directory is never locked; only the
sums are kept of it.
-/

namespace MinC.Vfs

open MinC.Win

def lockfileFailImmediately : UInt32 := 0x01
def lockfileExclusiveLock : UInt32 := 0x02
def lockfileShared : UInt32 := 0x00
def lockfileUnlock : UInt32 := 0x10

structure HeldLock where
  offset : UInt64
  size : UInt64
  exclusive : Bool
  deriving DecidableEq

/-- A vnode with its sums. -/
structure LockVnode extends WinVnode where
  lockRegion : UInt64
  lockSize : UInt64
  deriving DecidableEq

/-- A descriptor, with the locks that the system keeps for it. -/
structure LockState where
  node : LockVnode
  held : List HeldLock
  deriving DecidableEq

/-- A descriptor that was just opened. -/
def LockState.opened (node : WinVnode) : LockState :=
  { node := { node with lockRegion := 0, lockSize := 0 }, held := [] }

/-- What the system has against releasing a lock, other than that there is none; what it has
against granting one; and the error that was the last one before the call. -/
structure LockAnswers where
  unlockFault : Option UInt32
  lockFault : Option UInt32
  lastError : UInt32
  unlockFault_ne : ∀ error ∈ unlockFault, error ≠ errorNotLocked

/-- `UnlockFileEx`. Of two locks on one region the exclusive one goes first. -/
def unlockFileEx (os : LockAnswers) (offset size : UInt64) (held : List HeldLock) :
    Except UInt32 (List HeldLock) :=
  match os.unlockFault with
  | some error => .error error
  | none =>
      if ⟨offset, size, true⟩ ∈ held then .ok (held.erase ⟨offset, size, true⟩)
      else if ⟨offset, size, false⟩ ∈ held then .ok (held.erase ⟨offset, size, false⟩)
      else .error errorNotLocked

/-- `LockFileEx`. -/
def lockFileEx (os : LockAnswers) (flags : UInt32) (offset size : UInt64) (held : List HeldLock) :
    Except UInt32 (List HeldLock) :=
  match os.lockFault with
  | some error => .error error
  | none => .ok (⟨offset, size, flags &&& lockfileExclusiveLock ≠ 0⟩ :: held)

def LockVnode.add (node : LockVnode) (segment size : UInt64) : LockVnode :=
  { node with lockRegion := node.lockRegion + segment, lockSize := node.lockSize + size }

def LockVnode.subtract (node : LockVnode) (segment size : UInt64) : LockVnode :=
  { node with lockRegion := node.lockRegion - segment, lockSize := node.lockSize - size }

/-- What is done once the region is released, or was not locked. -/
def fileLock (os : LockAnswers) (flags : UInt32) (offset size : UInt64) (s : LockState) :
    Except UInt32 Unit × LockState :=
  if flags = lockfileUnlock then (.ok (), s)
  else
    match lockFileEx os flags offset size s.held with
    | .error error => (.error error, s)
    | .ok held => (.ok (), { node := s.node.add (size * offset) size, held := held })

def fileFSetlk (os : LockAnswers) (flags : UInt32) (offset size : UInt64) (s : LockState) :
    Except UInt32 Unit × LockState :=
  match unlockFileEx os offset size s.held with
  | .ok held =>
      fileLock os flags offset size
        { node := s.node.subtract (size * offset) size, held := held }
  | .error error =>
      if error ≠ errorNotLocked then (.error error, s) else fileLock os flags offset size s

def dirFSetlk (os : LockAnswers) (flags : UInt32) (offset size : UInt64) (s : LockState) :
    Except UInt32 Unit × LockState :=
  let segment := size * offset
  let released := if s.node.lockSize ≠ 0 then s.node.subtract segment size else s.node
  let node := if flags ≠ lockfileUnlock then released.add segment size else released
  (if s.node.lockSize ≠ 0 ∨ flags ≠ lockfileUnlock then .ok () else .error os.lastError,
    { s with node := node })

def diskFSetlk (os : LockAnswers) (flags : UInt32) (offset size : UInt64) (s : LockState) :
    Except UInt32 Unit × LockState :=
  match s.node.fileType with
  | .vreg => fileFSetlk os flags offset size s
  | .vdir => dirFSetlk os flags offset size s
  | _ => (.error errorBadFileType, s)

def vfsFSetlk (os : LockAnswers) (flags : UInt32) (offset size : UInt64) (s : LockState) :
    Except UInt32 Unit × LockState :=
  match s.node.fsType with
  | .disk => diskFSetlk os flags offset size s
  | _ => (.error errorBadFileType, s)

/-! ### Sums -/

/-- What the locks add up to, each counted as one number. -/
def lockSum (count : HeldLock → UInt64) (held : List HeldLock) : UInt64 :=
  held.foldr (fun lock sum => count lock + sum) 0

theorem lockSum_cons (count : HeldLock → UInt64) (lock : HeldLock) (held : List HeldLock) :
    lockSum count (lock :: held) = count lock + lockSum count held := rfl

theorem lockSum_erase (count : HeldLock → UInt64) {lock : HeldLock} {held : List HeldLock}
    (h : lock ∈ held) : lockSum count (held.erase lock) = lockSum count held - count lock := by
  induction held with
  | nil => exact absurd h List.not_mem_nil
  | cons first held ih =>
      by_cases hsame : first = lock
      · rw [hsame, List.erase_cons_head, lockSum_cons, UInt64.add_comm, UInt64.add_sub_cancel]
      · have hrest : lock ∈ held := List.mem_of_ne_of_mem (Ne.symm hsame) h
        rw [List.erase_cons_tail (by simpa using hsame), lockSum_cons, lockSum_cons, ih hrest,
          UInt64.sub_eq_add_neg, UInt64.sub_eq_add_neg, UInt64.add_assoc]

def HeldLock.segment (lock : HeldLock) : UInt64 := lock.size * lock.offset

/-- The vnode remembers the sums of the locks. -/
structure LocksSummed (s : LockState) : Prop where
  size : s.node.lockSize = lockSum HeldLock.size s.held
  region : s.node.lockRegion = lockSum HeldLock.segment s.held

section
variable {s : LockState} {os : LockAnswers} {flags : UInt32} {offset size : UInt64}

theorem LocksSummed.erase (h : LocksSummed s) {lock : HeldLock} (hlock : lock ∈ s.held)
    (hoffset : lock.offset = offset) (hsize : lock.size = size) :
    LocksSummed
      { node := s.node.subtract (size * offset) size, held := s.held.erase lock } := by
  subst hoffset hsize
  refine ⟨?_, ?_⟩
  · rw [lockSum_erase _ hlock, ← h.size]
    rfl
  · rw [lockSum_erase _ hlock, ← h.region]
    rfl

theorem LocksSummed.cons (h : LocksSummed s) (exclusive : Bool) :
    LocksSummed { node := s.node.add (size * offset) size,
                  held := ⟨offset, size, exclusive⟩ :: s.held } := by
  refine ⟨?_, ?_⟩
  · rw [lockSum_cons, ← h.size, UInt64.add_comm]
    rfl
  · rw [lockSum_cons, ← h.region, UInt64.add_comm]
    rfl

/-- A lock on the region is held. -/
def LockHeld (held : List HeldLock) (offset size : UInt64) : Prop :=
  ∃ lock ∈ held, lock.offset = offset ∧ lock.size = size

/-- Releasing a region takes one of the locks on it away, if there is one. -/
theorem unlockFileEx_cases (os : LockAnswers) (offset size : UInt64) (held : List HeldLock) :
    (∃ error, os.unlockFault = some error ∧ unlockFileEx os offset size held = .error error) ∨
      (os.unlockFault = none ∧ ∃ lock ∈ held, lock.offset = offset ∧ lock.size = size ∧
        unlockFileEx os offset size held = .ok (held.erase lock)) ∨
      (os.unlockFault = none ∧ ¬LockHeld held offset size ∧
        unlockFileEx os offset size held = .error errorNotLocked) := by
  rw [unlockFileEx]
  cases hfault : os.unlockFault with
  | some error => exact .inl ⟨error, rfl, rfl⟩
  | none =>
      dsimp only
      split_ifs with hexclusive hshared
      · exact .inr (.inl ⟨rfl, _, hexclusive, rfl, rfl, rfl⟩)
      · exact .inr (.inl ⟨rfl, _, hshared, rfl, rfl, rfl⟩)
      · refine .inr (.inr ⟨rfl, ?_, rfl⟩)
        rintro ⟨⟨offset', size', exclusive⟩, hlock, rfl, rfl⟩
        cases exclusive
        · exact hshared hlock
        · exact hexclusive hlock

/-- A descriptor that the system keeps locks for. -/
def LockVnode.Lockable (node : LockVnode) : Prop :=
  node.fsType = .disk ∧ node.fileType = .vreg

theorem vfsFSetlk_of_lockable (h : s.node.Lockable) :
    vfsFSetlk os flags offset size s = fileFSetlk os flags offset size s := by
  rw [vfsFSetlk, h.1]
  dsimp only
  rw [diskFSetlk, h.2]

theorem vfsFSetlk_held_of_not (h : ¬s.node.Lockable) :
    (vfsFSetlk os flags offset size s).2.held = s.held := by
  rw [vfsFSetlk]
  split
  · rename_i hdisk
    rw [diskFSetlk]
    split
    · rename_i hreg
      exact absurd ⟨hdisk, hreg⟩ h
    · rfl
    · rfl
  · rfl

theorem fileLock_node (os : LockAnswers) (flags : UInt32) (offset size : UInt64) (s : LockState) :
    (fileLock os flags offset size s).2.node.toWinVnode = s.node.toWinVnode := by
  rw [fileLock, lockFileEx]
  split_ifs
  · rfl
  · cases os.lockFault with
    | some error => rfl
    | none => rfl

theorem fileFSetlk_node (os : LockAnswers) (flags : UInt32) (offset size : UInt64)
    (s : LockState) :
    (fileFSetlk os flags offset size s).2.node.toWinVnode = s.node.toWinVnode := by
  rw [fileFSetlk]
  split
  · exact fileLock_node _ _ _ _ _
  · split_ifs
    · rfl
    · exact fileLock_node _ _ _ _ _

theorem dirFSetlk_node (os : LockAnswers) (flags : UInt32) (offset size : UInt64) (s : LockState) :
    (dirFSetlk os flags offset size s).2.node.toWinVnode = s.node.toWinVnode := by
  rw [dirFSetlk]
  split_ifs <;> rfl

theorem vfsFSetlk_node (os : LockAnswers) (flags : UInt32) (offset size : UInt64) (s : LockState) :
    (vfsFSetlk os flags offset size s).2.node.toWinVnode = s.node.toWinVnode := by
  rw [vfsFSetlk]
  split
  · rw [diskFSetlk]
    split
    · exact fileFSetlk_node _ _ _ _ _
    · exact dirFSetlk_node _ _ _ _ _
    · rfl
  · rfl

/-- The sums are right of a file, and of anything else nothing is locked. -/
structure LocksSound (s : LockState) : Prop where
  summed : s.node.Lockable → LocksSummed s
  free : ¬s.node.Lockable → s.held = []

theorem opened_sound (node : WinVnode) : LocksSound (.opened node) :=
  ⟨fun _ => ⟨rfl, rfl⟩, fun _ => rfl⟩

theorem fileLock_summed (h : LocksSummed s) :
    LocksSummed (fileLock os flags offset size s).2 := by
  rw [fileLock]
  split_ifs
  · exact h
  · rw [lockFileEx]
    cases os.lockFault with
    | some error => exact h
    | none => exact h.cons _

theorem fileFSetlk_summed (h : LocksSummed s) :
    LocksSummed (fileFSetlk os flags offset size s).2 := by
  rw [fileFSetlk]
  obtain ⟨error, -, hunlock⟩ | ⟨-, lock, hlock, hoffset, hsize, hunlock⟩ | ⟨-, -, hunlock⟩ :=
    unlockFileEx_cases os offset size s.held
  · rw [hunlock]
    dsimp only
    split_ifs
    · exact h
    · exact fileLock_summed h
  · rw [hunlock]
    exact fileLock_summed (h.erase hlock hoffset hsize)
  · rw [hunlock]
    dsimp only
    rw [if_neg fun hne => hne rfl]
    exact fileLock_summed h

theorem vfsFSetlk_sound (h : LocksSound s) :
    LocksSound (vfsFSetlk os flags offset size s).2 := by
  have hnode := vfsFSetlk_node os flags offset size s
  by_cases hlockable : s.node.Lockable
  · rw [vfsFSetlk_of_lockable hlockable] at hnode ⊢
    refine ⟨fun _ => fileFSetlk_summed (h.summed hlockable), fun hnot => absurd ?_ hnot⟩
    rw [LockVnode.Lockable, hnode]
    exact hlockable
  · refine ⟨fun hlock => absurd ?_ hlockable, fun _ => ?_⟩
    · rw [LockVnode.Lockable, hnode] at hlock
      exact hlock
    · rw [vfsFSetlk_held_of_not hlockable]
      exact h.free hlockable

/-- A lock on a file that fails leaves the locks when nothing was released for it. -/
theorem fileFSetlk_failed_iff (os : LockAnswers) (s : LockState) (hflags : flags ≠ lockfileUnlock)
    (offset size : UInt64) :
    (∀ error, (fileFSetlk os flags offset size s).1 = .error error →
        (fileFSetlk os flags offset size s).2.held = s.held) ↔
      (os.unlockFault = none → LockHeld s.held offset size → os.lockFault = none) := by
  rw [fileFSetlk]
  obtain ⟨error, hfault, hunlock⟩ | ⟨hfault, lock, hlock, hoffset, hsize, hunlock⟩ |
      ⟨hfault, hfree, hunlock⟩ := unlockFileEx_cases os offset size s.held
  · rw [hunlock, hfault]
    dsimp only
    rw [if_pos (os.unlockFault_ne error hfault)]
    exact ⟨fun _ hnone => (nomatch hnone), fun _ _ _ => rfl⟩
  · rw [hunlock, hfault]
    dsimp only
    rw [fileLock, if_neg hflags, lockFileEx]
    have hheld : LockHeld s.held offset size := ⟨lock, hlock, hoffset, hsize⟩
    cases os.lockFault with
    | none => exact ⟨fun _ _ _ => rfl, fun _ error herror => nomatch herror⟩
    | some error =>
        -- the lock that was replaced is gone
        refine ⟨fun h => ?_, fun h => nomatch h rfl hheld⟩
        have hlength := List.length_erase_of_mem hlock
        rw [show s.held.erase lock = s.held from h error rfl] at hlength
        have hpos := List.length_pos_of_mem hlock
        omega
  · rw [hunlock]
    dsimp only
    rw [if_neg fun hne => hne rfl, fileLock, if_neg hflags, lockFileEx]
    refine ⟨fun _ _ hheld => absurd hheld hfree, fun _ error herror => ?_⟩
    cases hlock : os.lockFault with
    | none => rw [hlock] at herror; nomatch herror
    | some error => rfl

/-- Releasing the region of the only lock leaves none. -/
theorem fileFSetlk_unlocked_iff {only : HeldLock} (honly : s.held = [only]) :
    ((fileFSetlk os lockfileUnlock offset size s).1 = .ok () →
        (fileFSetlk os lockfileUnlock offset size s).2.held = []) ↔
      (os.unlockFault = none → only.offset = offset ∧ only.size = size) := by
  rw [fileFSetlk]
  obtain ⟨error, hfault, hunlock⟩ | ⟨hfault, lock, hlock, hoffset, hsize, hunlock⟩ |
      ⟨hfault, hfree, hunlock⟩ := unlockFileEx_cases os offset size s.held
  · rw [hunlock, hfault]
    dsimp only
    rw [if_pos (os.unlockFault_ne error hfault)]
    exact ⟨fun _ hnone => (nomatch hnone), fun _ hok => nomatch hok⟩
  · rw [hunlock]
    rw [honly] at hlock ⊢
    cases List.mem_singleton.mp hlock
    refine ⟨fun _ _ => ⟨hoffset, hsize⟩, fun _ _ => ?_⟩
    exact List.erase_cons_head ..
  · rw [hunlock, hfault]
    dsimp only
    rw [if_neg fun hne => hne rfl, fileLock, if_pos rfl, honly]
    refine ⟨fun h => (nomatch h rfl), fun h => absurd (h rfl) fun hsame => hfree ?_⟩
    exact ⟨only, by rw [honly]; exact List.mem_singleton_self only, hsame.1, hsame.2⟩

theorem fileFSetlk_unlock_failed (error : UInt32)
    (h : (fileFSetlk os lockfileUnlock offset size s).1 = .error error) :
    (fileFSetlk os lockfileUnlock offset size s).2.held = s.held := by
  rw [fileFSetlk] at h ⊢
  obtain ⟨fault, hfault, hunlock⟩ | ⟨hfault, lock, hlock, hoffset, hsize, hunlock⟩ |
      ⟨hfault, hfree, hunlock⟩ := unlockFileEx_cases os offset size s.held
  · rw [hunlock]
    dsimp only
    rw [if_pos (os.unlockFault_ne fault hfault)]
  · rw [hunlock] at h
    nomatch h
  · rw [hunlock]
    rfl

end

end MinC.Vfs
