import MinC.Sys.Descriptors
import MinC.Vfs.Acl
import MinC.Vfs.Task

/-!
The flags of an open descriptor.

A vnode has no flags of its own: its access mode and whether it appends are read
off its rights, and whether it blocks off its attributes. Setting flags sets all
of these at once, and whether the descriptor is closed by `exec` as well. So a
caller that wants to set one flag reads the others first and hands them back.
-/

namespace MinC.Sys

open MinC.Lib MinC.Win MinC.Vfs

def oRdonly : UInt32 := 0
def oWronly : UInt32 := 1
def oRdwr : UInt32 := 2
def oAccmode : UInt32 := 3
def oNonblock : UInt32 := 4
def oAppend : UInt32 := 8
def oAsync : UInt32 := 0x40
def oSync : UInt32 := 0x80
def oCloexec : UInt32 := 0x10000
def fdCloexec : UInt32 := 1

def fileFlagOverlapped : UInt32 := 0x40000000

/-- The flags that are read. Appending is told by a right that every writer has, and so only of
what may not write otherwise. -/
def flflagsPosix (node : WinVnode) : UInt32 :=
  let result :=
    if flagSet node.access fileWriteData then
      if flagSet node.access fileReadData then oRdwr else oWronly
    else if flagSet node.access fileAppendData then oWronly ||| oAppend
    else oRdonly
  let result := if node.closeExec then result ||| oCloexec else result
  if flagSet node.attribs fileFlagOverlapped then result ||| oNonblock else result

/-- How a file is created is not set, and not looked at either. -/
def flflagsWin (flags : UInt32) : WinFlags where
  access :=
    let access :=
      if flagSet flags oRdwr then winSIread ||| winSIwrite
      else if flagSet flags oWronly then winSIwrite
      else winSIread
    if flagSet flags oAppend then access ||| fileAppendData else access
  creation := 0
  attribs :=
    if flagSet flags oNonblock then fileAttributeNormal ||| fileFlagOverlapped
    else fileAttributeNormal
  closeExec := flagSet flags oCloexec

def fdflagsPosix (node : WinVnode) : UInt32 := if node.closeExec then fdCloexec else 0

/-! ### Setting them -/

/-- What is common to the file systems. -/
def setFlags (node : WinVnode) (flags : WinFlags) : WinVnode :=
  { node with access := flags.access, attribs := flags.attribs, closeExec := flags.closeExec }

/-- `SetNamedPipeHandleState` may fail. -/
def pipeSetFlags (os : Answer) (node : WinVnode) (flags : WinFlags) :
    Except UInt32 Unit × WinVnode :=
  match os with
  | .ok => (.ok (), setFlags node flags)
  | .fail error => (.error error, node)

def pipeFSetfl (os : Answer) (node : WinVnode) (flags : WinFlags) :
    Except UInt32 Unit × WinVnode :=
  if !flagSet node.access fileWriteData then pipeSetFlags os node flags
  else (.ok (), setFlags node flags)

/-- `WSAEventSelect` may fail. -/
def ws2FSetfl (os : Answer) (node : WinVnode) (flags : WinFlags) :
    Except UInt32 Unit × WinVnode :=
  match os with
  | .ok => (.ok (), setFlags node flags)
  | .fail error => (.error error, node)

def vfsFSetfl (os : Answer) (node : WinVnode) (flags : WinFlags) :
    Except UInt32 Unit × WinVnode :=
  match node.fsType with
  | .pipe => pipeFSetfl os node flags
  | .winsock => ws2FSetfl os node flags
  | _ => (.ok (), setFlags node flags)

def fcntlFSetfl (os : Answer) (node : WinVnode) (flags : UInt32) : Int × WinVnode :=
  match vfsFSetfl os node (flflagsWin flags) with
  | (.ok (), node) => (0, node)
  | (.error error, node) => (failed error, node)

def fcntlFSetfd (node : WinVnode) (flags : UInt32) : Int × WinVnode :=
  (0, { node with closeExec := flagSet flags fdCloexec })

inductive FlCommand
  | setfd (flags : UInt32)
  | getfd
  | setfl (flags : UInt32)
  | getfl

/-- `fcntl` with a command for flags. -/
def sysFcntlFl (os : Answer) (node : Nat → WinVnode) (fd : Int) (cmd : FlCommand) :
    Int × (Nat → WinVnode) :=
  if inRange fd then
    let set (r : Int × WinVnode) := (r.1, Function.update node fd.toNat r.2)
    match cmd with
    | .setfd flags => set (fcntlFSetfd (node fd.toNat) flags)
    | .getfd => ((fdflagsPosix (node fd.toNat)).toNat, node)
    | .setfl flags => set (fcntlFSetfl os (node fd.toNat) flags)
    | .getfl => ((flflagsPosix (node fd.toNat)).toNat, node)
  else (-(ebadf : Int), node)

/-! ### What setting should do -/

/-- The access mode of a descriptor, as it is told. -/
def accessMode (node : WinVnode) : UInt32 := flflagsPosix node &&& oAccmode

structure ModeKept (before after : WinVnode) : Prop where
  mode : accessMode after = accessMode before
  closeExec : after.closeExec = before.closeExec

/-- All of the flags are told afterwards that were told before, and those that were added. -/
structure FlagsAdded (x : UInt32) (before after : WinVnode) : Prop extends
    ModeKept before after where
  reported : flflagsPosix after &&& (flflagsPosix before ||| x) = flflagsPosix before ||| x

/-- The status flags that a caller may add. -/
def settableFlags : UInt32 := oNonblock ||| oAppend ||| oAsync ||| oSync

/-! ### When it does -/

/-- The descriptor does not append, unless it may write anywhere, and is not to; and of the flags
that are added there is none that cannot be told. -/
structure Addable (x : UInt32) (node : WinVnode) : Prop where
  writes : flagSet node.access fileAppendData = true → flagSet node.access fileWriteData = true
  nonblock : x &&& (oAppend ||| oAsync ||| oSync) = 0

/-- The flags spell the mode that the descriptor has, where to append is to write, and whether it
is closed by `exec`. -/
structure Spelt (flags : UInt32) (node : WinVnode) : Prop where
  mode : accessMode node =
    if flagSet flags oRdwr then oRdwr
    else if flagSet flags oWronly || flagSet flags oAppend then oWronly else oRdonly
  closeExec : node.closeExec = flagSet flags oCloexec

/-- Windows refuses the mode of a pipe that is only read, or of a socket. -/
def SetflRefused (os : Answer) (node : WinVnode) : Prop :=
  os ≠ .ok ∧
    (node.fsType = .winsock ∨
      node.fsType = .pipe ∧ flagSet node.access fileWriteData = false)

/-! ### Words of flags -/

/-- The flags that are told of a descriptor with some of the rights and attributes. -/
def flagWord (write read append closeExec overlapped : Bool) : UInt32 :=
  let result :=
    if write then if read then oRdwr else oWronly
    else if append then oWronly ||| oAppend
    else oRdonly
  let result := if closeExec then result ||| oCloexec else result
  if overlapped then result ||| oNonblock else result

theorem flflagsPosix_eq (node : WinVnode) :
    flflagsPosix node = flagWord (flagSet node.access fileWriteData)
      (flagSet node.access fileReadData) (flagSet node.access fileAppendData) node.closeExec
      (flagSet node.attribs fileFlagOverlapped) := rfl

section
variable (flags : UInt32)

theorem flflagsWin_write : flagSet (flflagsWin flags).access fileWriteData =
    (flagSet flags oRdwr || flagSet flags oWronly) := by
  simp only [flflagsWin]
  cases flagSet flags oRdwr <;> cases flagSet flags oWronly <;> cases flagSet flags oAppend <;>
    decide

theorem flflagsWin_read : flagSet (flflagsWin flags).access fileReadData =
    (flagSet flags oRdwr || !flagSet flags oWronly) := by
  simp only [flflagsWin]
  cases flagSet flags oRdwr <;> cases flagSet flags oWronly <;> cases flagSet flags oAppend <;>
    decide

theorem flflagsWin_append : flagSet (flflagsWin flags).access fileAppendData =
    (flagSet flags oRdwr || flagSet flags oWronly || flagSet flags oAppend) := by
  simp only [flflagsWin]
  cases flagSet flags oRdwr <;> cases flagSet flags oWronly <;> cases flagSet flags oAppend <;>
    decide

theorem flflagsWin_overlapped : flagSet (flflagsWin flags).attribs fileFlagOverlapped =
    flagSet flags oNonblock := by
  simp only [flflagsWin]
  cases flagSet flags oNonblock <;> decide

/-- What is told once the flags are set. -/
theorem flflagsPosix_setFlags (node : WinVnode) :
    flflagsPosix (setFlags node (flflagsWin flags)) =
      flagWord (flagSet flags oRdwr || flagSet flags oWronly)
        (flagSet flags oRdwr || !flagSet flags oWronly)
        (flagSet flags oRdwr || flagSet flags oWronly || flagSet flags oAppend)
        (flagSet flags oCloexec) (flagSet flags oNonblock) := by
  rw [flflagsPosix_eq]
  simp only [setFlags]
  rw [flflagsWin_write, flflagsWin_read, flflagsWin_append, flflagsWin_overlapped]
  rfl

end

section
variable (write read append closeExec overlapped : Bool)

theorem flagWord_rdwr : flagSet (flagWord write read append closeExec overlapped) oRdwr =
    (write && read) := by
  revert write read append closeExec overlapped
  decide

theorem flagWord_wronly : flagSet (flagWord write read append closeExec overlapped) oWronly =
    if write then !read else append := by
  revert write read append closeExec overlapped
  decide

theorem flagWord_append : flagSet (flagWord write read append closeExec overlapped) oAppend =
    (!write && append) := by
  revert write read append closeExec overlapped
  decide

theorem flagWord_cloexec : flagSet (flagWord write read append closeExec overlapped) oCloexec =
    closeExec := by
  revert write read append closeExec overlapped
  decide

theorem flagWord_nonblock : flagSet (flagWord write read append closeExec overlapped) oNonblock =
    overlapped := by
  revert write read append closeExec overlapped
  decide

theorem flagWord_accmode : flagWord write read append closeExec overlapped &&& oAccmode =
    if write && read then oRdwr else if write || append then oWronly else oRdonly := by
  revert write read append closeExec overlapped
  decide

end

/-- Some of the flags that may be added. -/
def addedWord (nonblock append async sync : Bool) : UInt32 :=
  (if nonblock then oNonblock else 0) ||| (if append then oAppend else 0) |||
    (if async then oAsync else 0) ||| (if sync then oSync else 0)

theorem and_flag (x : UInt32) {flag : UInt32} {k : Nat} (hflag : flag.toNat = 2 ^ k) :
    x &&& flag = if flagSet x flag then flag else 0 := by
  rw [flagSet]
  obtain hzero | hflag := u32_and_bit x hflag
  · rw [hzero]
    rfl
  · rw [hflag]
    split_ifs with hne
    · rfl
    · exact not_not.mp fun h => hne (decide_eq_true h)

theorem eq_addedWord {x : UInt32} (hx : x &&& ~~~settableFlags = 0) :
    x = addedWord (flagSet x oNonblock) (flagSet x oAppend) (flagSet x oAsync)
      (flagSet x oSync) := by
  have hall : settableFlags ||| ~~~settableFlags = -1 := by decide
  calc x = x &&& (settableFlags ||| ~~~settableFlags) := by rw [hall, UInt32.and_neg_one]
    _ = x &&& settableFlags := by rw [u32_and_or_left, hx, UInt32.or_zero]
    _ = _ := by
      rw [settableFlags, u32_and_or_left, u32_and_or_left, u32_and_or_left,
        and_flag x (show oNonblock.toNat = 2 ^ 2 from rfl),
        and_flag x (show oAppend.toNat = 2 ^ 3 from rfl),
        and_flag x (show oAsync.toNat = 2 ^ 6 from rfl),
        and_flag x (show oSync.toNat = 2 ^ 7 from rfl), addedWord]

/-- Flags that are read and handed back with some that are added. -/
theorem flagWord_added_iff (write read append closeExec overlapped : Bool)
    (nonblock append' async sync : Bool) :
    let before := flagWord write read append closeExec overlapped
    let writer := if write then !read else append
    let after := flagWord (write && read || writer) (write && read || !writer)
      (write && read || writer || (!write && append || append')) closeExec (overlapped || nonblock)
    (after &&& oAccmode = before &&& oAccmode ∧
        after &&& (before ||| addedWord nonblock append' async sync) =
          before ||| addedWord nonblock append' async sync) ↔
      (append = true → write = true) ∧ append' = false ∧ async = false ∧ sync = false := by
  revert write read append closeExec overlapped nonblock append' async sync
  decide +kernel

section
variable (nonblock append async sync : Bool)

theorem addedWord_append : flagSet (addedWord nonblock append async sync) oAppend = append := by
  revert nonblock append async sync
  decide

theorem addedWord_nonblock :
    flagSet (addedWord nonblock append async sync) oNonblock = nonblock := by
  revert nonblock append async sync
  decide

theorem addedWord_cloexec : flagSet (addedWord nonblock append async sync) oCloexec = false := by
  revert nonblock append async sync
  decide

theorem addedWord_rdwr : flagSet (addedWord nonblock append async sync) oRdwr = false := by
  revert nonblock append async sync
  decide

theorem addedWord_wronly : flagSet (addedWord nonblock append async sync) oWronly = false := by
  revert nonblock append async sync
  decide

theorem addedWord_nonblock_only :
    addedWord nonblock append async sync &&& (oAppend ||| oAsync ||| oSync) = 0 ↔
      append = false ∧ async = false ∧ sync = false := by
  revert nonblock append async sync
  decide

end

/-! ### What a call sets -/

section
variable {os : Answer} {node : WinVnode}

theorem vfsFSetfl_refused (h : SetflRefused os node) (flags : WinFlags) :
    (vfsFSetfl os node flags).2 = node := by
  obtain ⟨hfail, hwhere⟩ := h
  cases os with
  | ok => exact absurd rfl hfail
  | fail error =>
      rw [vfsFSetfl]
      obtain hsocket | ⟨hpipe, hwrite⟩ := hwhere
      · rw [hsocket]
        rfl
      · rw [hpipe]
        simp only [pipeFSetfl, hwrite]
        rfl

theorem vfsFSetfl_set (h : ¬SetflRefused os node) (flags : WinFlags) :
    (vfsFSetfl os node flags).2 = setFlags node flags := by
  rw [vfsFSetfl]
  cases os with
  | ok =>
      split
      · rw [pipeFSetfl]
        split <;> rfl
      · rfl
      · rfl
  | fail error =>
      have hne : Answer.fail error ≠ .ok := nofun
      split
      · rename_i hpipe
        rw [pipeFSetfl]
        split_ifs with hread
        · refine absurd ⟨hne, .inr ⟨hpipe, ?_⟩⟩ h
          simpa using hread
        · rfl
      · rename_i hsocket
        exact absurd ⟨hne, .inl hsocket⟩ h
      · rfl

theorem fcntlFSetfl_node (os : Answer) (node : WinVnode) (flags : UInt32) :
    (fcntlFSetfl os node flags).2 = (vfsFSetfl os node (flflagsWin flags)).2 := by
  rw [fcntlFSetfl]
  obtain ⟨result, node'⟩ := vfsFSetfl os node (flflagsWin flags)
  cases result <;> rfl

theorem modeKept_setFlags_iff (node : WinVnode) (flags : UInt32) :
    ModeKept node (setFlags node (flflagsWin flags)) ↔ Spelt flags node := by
  have hmode : accessMode (setFlags node (flflagsWin flags)) =
      if flagSet flags oRdwr then oRdwr
      else if flagSet flags oWronly || flagSet flags oAppend then oWronly else oRdonly := by
    rw [accessMode, flflagsPosix_setFlags, flagWord_accmode]
    cases flagSet flags oRdwr <;> cases flagSet flags oWronly <;> cases flagSet flags oAppend <;>
      rfl
  refine ⟨fun h => ⟨?_, h.closeExec.symm⟩, fun h => ⟨?_, h.closeExec.symm⟩⟩
  · rw [← hmode, h.mode]
  · rw [hmode, h.mode]

/-- What is told once some flags were added to those that were read. -/
theorem flflagsPosix_added (node : WinVnode) (nonblock append async sync : Bool) :
    let write := flagSet node.access fileWriteData
    let read := flagSet node.access fileReadData
    let writer := if write then !read else flagSet node.access fileAppendData
    flflagsPosix (setFlags node (flflagsWin (flflagsPosix node |||
        addedWord nonblock append async sync))) =
      flagWord (write && read || writer) (write && read || !writer)
        (write && read || writer || (!write && flagSet node.access fileAppendData || append))
        node.closeExec (flagSet node.attribs fileFlagOverlapped || nonblock) := by
  dsimp only
  rw [flflagsPosix_setFlags, flagSet_or, flagSet_or, flagSet_or, flagSet_or, flagSet_or,
    addedWord_rdwr, addedWord_wronly, addedWord_append, addedWord_cloexec, addedWord_nonblock,
    flflagsPosix_eq node, flagWord_rdwr, flagWord_wronly, flagWord_append, flagWord_cloexec,
    flagWord_nonblock, Bool.or_false, Bool.or_false, Bool.or_false]

theorem flagsAdded_setFlags_iff (node : WinVnode) {x : UInt32}
    (hx : x &&& ~~~settableFlags = 0) :
    FlagsAdded x node (setFlags node (flflagsWin (flflagsPosix node ||| x))) ↔
      Addable x node := by
  have hword := eq_addedWord hx
  generalize flagSet x oNonblock = nonblock at hword
  generalize flagSet x oAppend = append at hword
  generalize flagSet x oAsync = async at hword
  generalize flagSet x oSync = sync at hword
  subst hword
  have hcloexec : (setFlags node (flflagsWin (flflagsPosix node |||
      addedWord nonblock append async sync))).closeExec = node.closeExec := by
    change flagSet _ oCloexec = _
    rw [flagSet_or, addedWord_cloexec, flflagsPosix_eq, flagWord_cloexec, Bool.or_false]
  have hafter := flflagsPosix_added node nonblock append async sync
  have hiff := flagWord_added_iff (flagSet node.access fileWriteData)
    (flagSet node.access fileReadData) (flagSet node.access fileAppendData) node.closeExec
    (flagSet node.attribs fileFlagOverlapped) nonblock append async sync
  dsimp only at hiff
  rw [← hafter, ← flflagsPosix_eq] at hiff
  rw [← addedWord_nonblock_only nonblock append async sync] at hiff
  refine ⟨fun h => ?_, fun h => ?_⟩
  · obtain ⟨hwrites, honly⟩ := hiff.mp ⟨h.mode, h.reported⟩
    exact ⟨hwrites, honly⟩
  · obtain ⟨hmode, hreported⟩ := hiff.mpr ⟨h.writes, h.nonblock⟩
    exact { mode := hmode, closeExec := hcloexec, reported := hreported }

theorem sysFcntlFl_setfl {fd : Int} (hfd : inRange fd = true) (os : Answer)
    (table : Nat → WinVnode) (flags : UInt32) :
    (sysFcntlFl os table fd (.setfl flags)).2 fd.toNat =
      (vfsFSetfl os (table fd.toNat) (flflagsWin flags)).2 := by
  rw [sysFcntlFl, if_pos hfd]
  exact (Function.update_self _ _ _).trans (fcntlFSetfl_node os _ flags)

end

/-- Flags that are added to those that were read, if Windows lets them be set, are told with the
others exactly when the descriptor is not to append, other than by the rights to write that it
has, and none of them cannot be told. Any flags leave the mode of the descriptor exactly when they
spell it, or are refused. -/
theorem setfl_keeps_iff (os : Answer) (table : Nat → WinVnode) {fd : Int}
    (hfd : inRange fd = true) :
    (∀ x, x &&& ~~~settableFlags = 0 → ¬SetflRefused os (table fd.toNat) →
        (FlagsAdded x (table fd.toNat)
            ((sysFcntlFl os table fd (.setfl (flflagsPosix (table fd.toNat) ||| x))).2 fd.toNat) ↔
          Addable x (table fd.toNat))) ∧
      ∀ flags, ModeKept (table fd.toNat) ((sysFcntlFl os table fd (.setfl flags)).2 fd.toNat) ↔
        SetflRefused os (table fd.toNat) ∨ Spelt flags (table fd.toNat) := by
  refine ⟨fun x hx hset => ?_, fun flags => ?_⟩
  · rw [sysFcntlFl_setfl hfd, vfsFSetfl_set hset]
    exact flagsAdded_setFlags_iff _ hx
  · rw [sysFcntlFl_setfl hfd]
    by_cases hrefused : SetflRefused os (table fd.toNat)
    · rw [vfsFSetfl_refused hrefused]
      exact iff_of_true ⟨rfl, rfl⟩ (.inl hrefused)
    · rw [vfsFSetfl_set hrefused, modeKept_setFlags_iff]
      exact (or_iff_right hrefused).symm

/-- A file that is open with some rights, and is closed by `exec`. -/
def fileWith (access : UInt32) : WinVnode :=
  { WinVnode.zero with fsType := .disk, fileType := .vreg, access := access, closeExec := true }

/-- A file that is read is not to block. -/
theorem setfl_keeps_iff_reader :
    FlagsAdded oNonblock (fileWith fileReadData)
        ((sysFcntlFl .ok (fun _ => fileWith fileReadData) 0
          (.setfl (flflagsPosix (fileWith fileReadData) ||| oNonblock))).2 0) ∧
      ModeKept (fileWith fileReadData)
        ((sysFcntlFl .ok (fun _ => fileWith fileReadData) 0 (.setfl oCloexec)).2 0) := by
  have hiff := setfl_keeps_iff .ok (fun _ => fileWith fileReadData) (show inRange 0 = true by rfl)
  exact ⟨(hiff.1 oNonblock (by decide) fun h => h.1 rfl).mpr ⟨by decide, by decide⟩,
    (hiff.2 oCloexec).mpr (.inr ⟨by decide, by decide⟩)⟩

/-- A file that is appended to no longer is once its flags were handed back, one that is read is
only written to once it is to append, and one that is read and written is only read, and kept open
by `exec`, once it is not to block. -/
theorem setfl_not_kept :
    ¬FlagsAdded 0 (fileWith (fileReadData ||| fileAppendData))
        ((sysFcntlFl .ok (fun _ => fileWith (fileReadData ||| fileAppendData)) 0
          (.setfl (flflagsPosix (fileWith (fileReadData ||| fileAppendData)) ||| 0))).2 0) ∧
      ¬FlagsAdded oAppend (fileWith fileReadData)
        ((sysFcntlFl .ok (fun _ => fileWith fileReadData) 0
          (.setfl (flflagsPosix (fileWith fileReadData) ||| oAppend))).2 0) ∧
      ¬ModeKept (fileWith (fileReadData ||| fileWriteData))
        ((sysFcntlFl .ok (fun _ => fileWith (fileReadData ||| fileWriteData)) 0
          (.setfl oNonblock)).2 0) := by
  refine ⟨fun h => ?_, fun h => ?_, fun h => ?_⟩
  · exact absurd h.reported (by decide)
  · exact absurd h.mode (by decide)
  · exact absurd h.mode (by decide)

end MinC.Sys
