import MinC.Lib.Runs
import MinC.Vfs.Lock

/-!
Locking through a descriptor.

A request with a length of zero is for the region that the sums of the
descriptor stand for, if there is one. While one region is held the sums are its
size and its segment, and the offset comes back by a division, as long as the
segment does not wrap and there is a size to divide by.
-/

namespace MinC.Sys

open MinC.Lib MinC.Win MinC.Vfs

def fRdlck : Int := 1
def fUnlck : Int := 2
def fWrlck : Int := 3

structure Flock where
  lType : Int
  lStart : UInt64
  lLen : UInt64
  deriving DecidableEq

/-- The offset and the size that a request is for. -/
def requestedRegion (lock : Flock) (node : LockVnode) : UInt64 × UInt64 :=
  if lock.lLen = 0 ∧ node.lockSize ≠ 0 then (node.lockRegion / node.lockSize, node.lockSize)
  else (lock.lStart, lock.lLen)

/-- A failure is given as the error number that is returned with its sign changed. -/
def fcntlFSetlk (os : LockAnswers) (wait : Bool) (lock : Flock) (s : LockState) :
    Except Nat Unit × LockState :=
  let dwFlags := if wait then 0 else lockfileFailImmediately
  let region := requestedRegion lock s.node
  let setlk (flags : UInt32) : Except Nat Unit × LockState :=
    let (result, s') := vfsFSetlk os flags region.1 region.2 s
    (result.mapError errnoPosix, s')
  if lock.lType = fRdlck then setlk (dwFlags ||| lockfileShared)
  else if lock.lType = fUnlck then setlk lockfileUnlock
  else if lock.lType = fWrlck then setlk (dwFlags ||| lockfileExclusiveLock)
  else (.error einval, s)

def fcntlFGetlk (node : LockVnode) (lock : Flock) : Flock :=
  if node.lockSize = 0 then { lock with lType := fUnlck }
  else { lock with lStart := node.lockRegion / node.lockSize, lLen := node.lockSize }

/-! ### What a call should do -/

/-- A request that fails leaves the locks that are held; and if one is held and is to be unlocked
with a length of zero, it is not held any more. -/
structure SetlkKeeps (os : LockAnswers) (wait : Bool) (lock : Flock) (s : LockState) : Prop where
  failed : ∀ errno, (fcntlFSetlk os wait lock s).1 = .error errno →
    (fcntlFSetlk os wait lock s).2.held = s.held
  unlocked : lock.lType = fUnlck → lock.lLen = 0 → (fcntlFSetlk os wait lock s).1 = .ok () →
    ∀ only, s.held = [only] → (fcntlFSetlk os wait lock s).2.held = []

/-- The only lock that is held is told. -/
def GetlkKeeps (lock : Flock) (s : LockState) : Prop :=
  ∀ only, s.held = [only] → (fcntlFGetlk s.node lock).lStart = only.offset ∧
    (fcntlFGetlk s.node lock).lLen = only.size

/-! ### When it does -/

/-- The sums give a lock back: it has a size, and its segment does not wrap. A lock of no size has
to be named by the caller. -/
def GivenBack (only : HeldLock) (named : Prop) : Prop :=
  if only.size = 0 then named else only.size.toNat * only.offset.toNat < UInt64.size

/-- A lock that is released to be replaced is replaced; and the only lock is given back to be
unlocked. -/
structure SetlkMeets (os : LockAnswers) (lock : Flock) (s : LockState) : Prop where
  replaced : lock.lType = fRdlck ∨ lock.lType = fWrlck → os.unlockFault = none →
    LockHeld s.held (requestedRegion lock s.node).1 (requestedRegion lock s.node).2 →
      os.lockFault = none
  unlocked : lock.lType = fUnlck → lock.lLen = 0 → os.unlockFault = none →
    ∀ only, s.held = [only] → GivenBack only (lock.lStart = only.offset)

def GetlkMeets (lock : Flock) (s : LockState) : Prop :=
  ∀ only, s.held = [only] → GivenBack only (lock.lStart = only.offset ∧ lock.lLen = 0)

/-! ### The sums of one lock -/

theorem segment_div {size offset : UInt64} (hsize : size ≠ 0) :
    size * offset / size = offset ↔ size.toNat * offset.toNat < UInt64.size := by
  have hpos : 0 < size.toNat := Nat.pos_of_ne_zero fun h => hsize (UInt64.toNat_inj.mp h)
  rw [← UInt64.toNat_inj, UInt64.toNat_div, UInt64.toNat_mul]
  constructor
  · intro h
    by_contra hwraps
    have hlt : size.toNat * offset.toNat % 2 ^ 64 < offset.toNat * size.toNat := by
      have := Nat.mod_lt (size.toNat * offset.toNat) (show 0 < 2 ^ 64 by decide)
      rw [UInt64.size] at hwraps
      rw [Nat.mul_comm offset.toNat]
      omega
    exact absurd h (Nat.ne_of_lt ((Nat.div_lt_iff_lt_mul hpos).mpr hlt))
  · intro h
    rw [Nat.mod_eq_of_lt h, Nat.mul_div_cancel_left _ hpos]

section
variable {s : LockState} {only : HeldLock}

theorem locksSummed_only (h : LocksSummed s) (honly : s.held = [only]) :
    s.node.lockSize = only.size ∧ s.node.lockRegion = only.size * only.offset := by
  have hsize := h.size
  have hregion := h.region
  rw [honly, lockSum_cons] at hsize hregion
  exact ⟨hsize.trans (UInt64.add_zero _), hregion.trans (UInt64.add_zero _)⟩

theorem getlkKeeps_iff (h : LocksSummed s) (lock : Flock) :
    GetlkKeeps lock s ↔ GetlkMeets lock s := by
  refine forall₂_congr fun only honly => ?_
  obtain ⟨hsize, hregion⟩ := locksSummed_only h honly
  rw [fcntlFGetlk, GivenBack, hsize, hregion]
  split_ifs with hzero
  · rw [hzero]
  · rw [← segment_div hzero]
    exact ⟨fun hsame => hsame.1, fun hsame => ⟨hsame, rfl⟩⟩

/-- The region that an unlock without a length is for is that of the only lock. -/
theorem requestedRegion_eq_iff (h : LocksSummed s) (honly : s.held = [only]) {lock : Flock}
    (hlen : lock.lLen = 0) :
    only.offset = (requestedRegion lock s.node).1 ∧ only.size = (requestedRegion lock s.node).2 ↔
      GivenBack only (lock.lStart = only.offset) := by
  obtain ⟨hsize, hregion⟩ := locksSummed_only h honly
  rw [requestedRegion, GivenBack, hsize, hregion, hlen]
  by_cases hzero : only.size = 0
  · rw [if_neg fun hne => hne.2 hzero, if_pos hzero, hzero]
    exact ⟨fun hsame => hsame.1.symm, fun hsame => ⟨hsame.symm, rfl⟩⟩
  · rw [if_pos ⟨rfl, hzero⟩, if_neg hzero, ← segment_div hzero]
    exact ⟨fun hsame => hsame.1.symm, fun hsame => ⟨hsame.symm, rfl⟩⟩

end

/-! ### What a call does to the locks -/

section
variable {s : LockState} {os : LockAnswers} {flags : UInt32} {offset size : UInt64}

theorem mapError_eq_error {result : Except UInt32 Unit} {errno : Nat} :
    result.mapError errnoPosix = .error errno ↔
      ∃ error, result = .error error ∧ errnoPosix error = errno := by
  cases result with
  | error error => simp [Except.mapError]
  | ok value => simp [Except.mapError]

theorem mapError_eq_ok {result : Except UInt32 Unit} :
    result.mapError errnoPosix = .ok () ↔ result = .ok () := by
  cases result with
  | error error => simp [Except.mapError]
  | ok value => simp [Except.mapError]

/-- A request asks the file system for one thing, unless its type is not known. -/
inductive SetlkCase (os : LockAnswers) (wait : Bool) (lock : Flock) (s : LockState) : Prop
  | lock (flags : UInt32) (hflags : flags ≠ lockfileUnlock)
      (htype : lock.lType = fRdlck ∨ lock.lType = fWrlck)
      (heq : fcntlFSetlk os wait lock s =
        ((vfsFSetlk os flags (requestedRegion lock s.node).1 (requestedRegion lock s.node).2
            s).1.mapError errnoPosix,
          (vfsFSetlk os flags (requestedRegion lock s.node).1 (requestedRegion lock s.node).2
            s).2))
  | unlock (htype : lock.lType = fUnlck)
      (heq : fcntlFSetlk os wait lock s =
        ((vfsFSetlk os lockfileUnlock (requestedRegion lock s.node).1
            (requestedRegion lock s.node).2 s).1.mapError errnoPosix,
          (vfsFSetlk os lockfileUnlock (requestedRegion lock s.node).1
            (requestedRegion lock s.node).2 s).2))
  | unknown (htype : lock.lType ≠ fRdlck ∧ lock.lType ≠ fUnlck ∧ lock.lType ≠ fWrlck)
      (heq : fcntlFSetlk os wait lock s = (.error einval, s))

theorem setlkCase (os : LockAnswers) (wait : Bool) (lock : Flock) (s : LockState) :
    SetlkCase os wait lock s := by
  by_cases hrdlck : lock.lType = fRdlck
  · refine .lock _ ?_ (.inl hrdlck) (by rw [fcntlFSetlk, if_pos hrdlck])
    cases wait <;> decide
  · by_cases hunlck : lock.lType = fUnlck
    · exact .unlock hunlck (by rw [fcntlFSetlk, if_neg hrdlck, if_pos hunlck])
    · by_cases hwrlck : lock.lType = fWrlck
      · refine .lock _ ?_ (.inr hwrlck)
          (by rw [fcntlFSetlk, if_neg hrdlck, if_neg hunlck, if_pos hwrlck])
        cases wait <;> decide
      · exact .unknown ⟨hrdlck, hunlck, hwrlck⟩
          (by rw [fcntlFSetlk, if_neg hrdlck, if_neg hunlck, if_neg hwrlck])

theorem fcntlFSetlk_sound (h : LocksSound s) (wait : Bool) (lock : Flock) :
    LocksSound (fcntlFSetlk os wait lock s).2 := by
  cases setlkCase os wait lock s with
  | lock flags hflags htype heq => rw [heq]; exact vfsFSetlk_sound h
  | unlock htype heq => rw [heq]; exact vfsFSetlk_sound h
  | unknown htype heq => rw [heq]; exact h

theorem fcntlFSetlk_held_of_not (h : ¬s.node.Lockable) (wait : Bool) (lock : Flock) :
    (fcntlFSetlk os wait lock s).2.held = s.held := by
  cases setlkCase os wait lock s with
  | lock flags hflags htype heq => rw [heq]; exact vfsFSetlk_held_of_not h
  | unlock htype heq => rw [heq]; exact vfsFSetlk_held_of_not h
  | unknown htype heq => rw [heq]

theorem setlkKeeps_iff_of_summed (hlockable : s.node.Lockable) (h : LocksSummed s) (wait : Bool)
    (lock : Flock) : SetlkKeeps os wait lock s ↔ SetlkMeets os lock s := by
  cases setlkCase os wait lock s with
  | lock flags hflags htype heq =>
      have hnot : lock.lType ≠ fUnlck := by
        obtain hrdlck | hwrlck := htype
        · rw [hrdlck]; decide
        · rw [hwrlck]; decide
      rw [vfsFSetlk_of_lockable hlockable] at heq
      -- a lock that is set replaces the one that was held, which is lost if it fails
      have hiff := fileFSetlk_failed_iff os s hflags (requestedRegion lock s.node).1
        (requestedRegion lock s.node).2
      constructor
      · intro hkeeps
        refine ⟨fun _ => hiff.mp fun error herror => ?_, fun hunlck => absurd hunlck hnot⟩
        have hheld := hkeeps.failed (errnoPosix error) (by rw [heq, herror]; rfl)
        rw [heq] at hheld
        exact hheld
      · intro hmeets
        refine ⟨fun errno herrno => ?_, fun hunlck => absurd hunlck hnot⟩
        rw [heq] at herrno ⊢
        obtain ⟨error, herror, -⟩ := mapError_eq_error.mp herrno
        exact hiff.mpr (hmeets.replaced htype) error herror
  | unlock htype heq =>
      have hnot : ¬(lock.lType = fRdlck ∨ lock.lType = fWrlck) := by
        rw [htype]; decide
      rw [vfsFSetlk_of_lockable hlockable] at heq
      constructor
      · intro hkeeps
        refine ⟨fun hlock => absurd hlock hnot, fun _ hlen hfault only honly => ?_⟩
        -- only the region that was locked can be unlocked
        refine (requestedRegion_eq_iff h honly hlen).mp
          ((fileFSetlk_unlocked_iff honly).mp (fun hok => ?_) hfault)
        have hheld := hkeeps.unlocked htype hlen (by rw [heq, hok]; rfl) only honly
        rw [heq] at hheld
        exact hheld
      · intro hmeets
        refine ⟨fun errno herrno => ?_, fun _ hlen hok only honly => ?_⟩
        · rw [heq] at herrno ⊢
          obtain ⟨error, herror, -⟩ := mapError_eq_error.mp herrno
          exact fileFSetlk_unlock_failed error herror
        · rw [heq] at hok ⊢
          refine (fileFSetlk_unlocked_iff honly).mpr (fun hfault => ?_) (mapError_eq_ok.mp hok)
          exact (requestedRegion_eq_iff h honly hlen).mpr
            (hmeets.unlocked htype hlen hfault only honly)
  | unknown htype heq =>
      obtain ⟨hrdlck, hunlck, hwrlck⟩ := htype
      refine ⟨fun _ => ⟨fun hlock => absurd hlock (not_or.mpr ⟨hrdlck, hwrlck⟩),
          fun hlock => absurd hlock hunlck⟩,
        fun _ => ⟨fun errno _ => by rw [heq], fun hlock => absurd hlock hunlck⟩⟩

/-! ### Calls -/

theorem setlkKeeps_iff (h : LocksSound s) (wait : Bool) (lock : Flock) :
    SetlkKeeps os wait lock s ↔ SetlkMeets os lock s := by
  by_cases hlockable : s.node.Lockable
  · exact setlkKeeps_iff_of_summed hlockable (h.summed hlockable) wait lock
  · have hfree := h.free hlockable
    refine ⟨fun _ => ⟨fun _ _ hheld => ?_, fun _ _ _ only honly => ?_⟩,
      fun _ => ⟨fun _ _ => ?_, fun _ _ _ only honly => ?_⟩⟩
    · obtain ⟨held, hmem, -⟩ := hheld
      rw [hfree] at hmem
      exact absurd hmem List.not_mem_nil
    · rw [hfree] at honly
      cases honly
    · exact fcntlFSetlk_held_of_not hlockable wait lock
    · rw [hfree] at honly
      cases honly

/-- A call and what the system answers. -/
inductive LockCall
  | setlk (os : LockAnswers) (wait : Bool) (lock : Flock)
  | getlk (lock : Flock)

def stepLocks (s : LockState) : LockCall → LockState
  | .setlk os wait lock => (fcntlFSetlk os wait lock s).2
  | .getlk _ => s

def LockCall.Keeps (s : LockState) : LockCall → Prop
  | .setlk os wait lock => SetlkKeeps os wait lock s
  | .getlk lock => GetlkKeeps lock s

def LockCall.Meets (s : LockState) : LockCall → Prop
  | .setlk os _ lock => SetlkMeets os lock s
  | .getlk lock => GetlkMeets lock s

theorem stepLocks_sound (h : LocksSound s) (call : LockCall) : LocksSound (stepLocks s call) := by
  cases call with
  | setlk os wait lock => exact fcntlFSetlk_sound h wait lock
  | getlk lock => exact h

theorem LockCall.keeps_iff (h : LocksSound s) (call : LockCall) :
    call.Keeps s ↔ call.Meets s := by
  cases call with
  | setlk os wait lock => exact setlkKeeps_iff h wait lock
  | getlk lock =>
      by_cases hlockable : s.node.Lockable
      · exact getlkKeeps_iff (h.summed hlockable) lock
      · have hfree := h.free hlockable
        refine forall₂_congr fun only honly => ?_
        rw [hfree] at honly
        cases honly

end

/-- Along a run from a descriptor that was just opened, every call does what it should exactly
when every lock that is to be replaced is granted, and every only lock that is asked for without
naming it is given back by the sums. -/
theorem lockRuns_keep_iff (node : WinVnode) (calls : List LockCall) :
    Along stepLocks (fun s call => call.Keeps s) (.opened node) calls ↔
      Along stepLocks (fun s call => call.Meets s) (.opened node) calls :=
  along_congr_of_invariant (I := LocksSound) (fun _ call h => stepLocks_sound h call)
    (fun _ call h => call.keeps_iff h) (opened_sound node) calls

theorem no_unlock_fault : ∀ error ∈ (none : Option UInt32), error ≠ errorNotLocked :=
  fun _ herror => absurd herror (Option.not_mem_none _)

def granted : LockAnswers := ⟨none, none, 0, no_unlock_fault⟩

/-- Another process has a part of the region. -/
def refused : LockAnswers := ⟨none, some errorLockViolation, 0, no_unlock_fault⟩

def openedFile : LockState := .opened { WinVnode.zero with fileType := .vreg, fsType := .disk }

/-- The whole of a region is to be locked for reading that is locked for writing, and is refused:
it is not locked any more. A lock of four bytes at 2^62 is told to start at zero, and is not
released by an unlock that does not name it. -/
theorem locks_not_kept :
    ¬Along stepLocks (fun s call => call.Keeps s) openedFile
        [.setlk granted false ⟨fWrlck, 0, 10⟩, .setlk refused false ⟨fRdlck, 0, 10⟩] ∧
      ¬Along stepLocks (fun s call => call.Keeps s) openedFile
        [.setlk granted false ⟨fWrlck, 0x4000000000000000, 4⟩, .getlk ⟨fWrlck, 0, 0⟩] ∧
      ¬Along stepLocks (fun s call => call.Keeps s) openedFile
        [.setlk granted false ⟨fWrlck, 0x4000000000000000, 4⟩,
          .setlk granted false ⟨fUnlck, 0, 0⟩] := by
  refine ⟨fun h => ?_, fun h => ?_, fun h => ?_⟩
  · obtain ⟨-, hkeeps, -⟩ := h
    have hfailed := SetlkKeeps.failed hkeeps (errnoPosix errorLockViolation) (by decide +kernel)
    exact absurd hfailed (by decide +kernel)
  · obtain ⟨-, hkeeps, -⟩ := h
    have htold := hkeeps ⟨0x4000000000000000, 4, true⟩ (by decide +kernel)
    exact absurd htold.1 (by decide +kernel)
  · obtain ⟨-, hkeeps, -⟩ := h
    have hfree := SetlkKeeps.unlocked hkeeps rfl rfl (by decide +kernel)
      ⟨0x4000000000000000, 4, true⟩ (by decide +kernel)
    exact absurd hfree (by decide +kernel)

end MinC.Sys
