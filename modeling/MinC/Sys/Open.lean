import MinC.Sys.DescriptorRuns
import MinC.Sys.Symlink
import MinC.Vfs.Task

/-!
Opening a path.

A path is looked up as an object, and a flag of the lookup says so. It is kept
with the path together with the flags of the caller. Not to follow a link is no
flag at all, and whether the lookup was told not to is what the path is asked
for when it is opened.
-/

namespace MinC.Sys

open MinC.Lib MinC.Win MinC.Vfs

def oNofollow : UInt32 := 0x100
def oNocross : UInt32 := 0x1000
def oNoslash : UInt32 := 0x2000
def oSymlink : UInt32 := 0x4000
def oObject : UInt32 := 0x8000
def oDirectory : UInt32 := 0x20000
def atSymlinkFollow : UInt32 := 4

/-- The flags that `path_win` asks `pathat_win` for. -/
def atflagsOfPath (flags : UInt32) : UInt32 :=
  atSymlinkFollow |||
    (if flagSet flags oNofollow then atSymlinkNofollow else 0) |||
    (if flagSet flags oNocross then atNocross else 0) |||
    (if flagSet flags oDirectory then atRemovedir else 0) |||
    (if flagSet flags oNoslash then atNoslash else 0) |||
    (if flagSet flags oSymlink then atSymlink else 0) |||
    (if flagSet flags oObject then atObject else 0)

/-- The flags that `openat` asks for. -/
def atflagsOfOpenat (flags : UInt32) : UInt32 :=
  atObject |||
    (if flagSet flags oNofollow then atSymlinkNofollow else 0) |||
    (if flagSet flags oDirectory then atRemovedir else 0)

/-- The descriptors of a task in a process. -/
def NameiTask.fds (task : NameiTask) (handles : Handles) : TaskFds := ⟨task.node, handles⟩

section
variable (fs : WinFs) (stale : List UInt16) (task : NameiTask) (objects : ObjectNames)
  (devices : UInt32 → WinDevice) (env : OpenEnv) (handles : Handles)

def pathWin (path : List UInt8) (flags : UInt32) : WinNameidata :=
  pathatWin fs stale task objects .zero atFdcwd path (atflagsOfPath flags)

def sysOpen (path : List UInt8) (flags : UInt32) : Int × TaskFds :=
  if path.getD 0 0 = 0 then (-(enoent : Int), task.fds handles)
  else
    openat devices env (task.fds handles) (pathWin fs stale task objects path (flags ||| oObject))
      flags

def sysOpenat (dirfd : Int) (path : List UInt8) (flags : UInt32) : Int × TaskFds :=
  openat devices env (task.fds handles)
    (pathatWin fs stale task objects .zero dirfd path (atflagsOfOpenat flags)) flags

end

/-- The caller is told that the path is a link, and nothing is opened. -/
structure LinkRefused (s : TaskFds) (reply : Int × TaskFds) : Prop where
  told : reply.1 = -(eloop : Int)
  nothing : reply.2 = s

/-- A link is found at the end of a path: one in a file, or one of the shell. -/
structure EndsInLink (path : WinNameidata) : Prop where
  link : path.fileType = .vlnk
  kept : path.fsType = .disk ∨ path.fsType = .shell

/-- The error that opening a file ends with is that there are too many links: from the list that
a new file is to have or from the creation of the file, or, of a file that is to be there already,
the one that was left before if it is not there, and from the opening of it if it is. -/
def TooManyLinks (env : OpenEnv) (path : WinNameidata) (flags : UInt32) : Prop :=
  if (flagsWin flags).creation = openExisting then
    if path.attribs = noAttribs then env.lastError = errorTooManyLinks
    else flagSet path.flags winRequiredir = false ∧ env.create = .fail errorTooManyLinks
  else
    env.list = .error errorTooManyLinks ∨
      env.list = .ok () ∧ env.create = .fail errorTooManyLinks

/-! ### The flags of a path -/

section
variable (fs : WinFs) (path : WinNameidata) (flags : UInt32)

theorem diskLookup_flags : (diskLookup fs path flags).1.flags = path.flags := by
  rw [diskLookup]
  cases fs.stat (flagSet flags winLockleaf) path.name with
  | none => rfl
  | some found =>
      obtain ⟨iNode, handle⟩ := found
      dsimp only
      cases iNode.fsType with
      | disk =>
          simp only [diskFLookup]
          split_ifs <;> rfl
      | pipe =>
          simp only [pipeFLookup]
          split_ifs <;> rfl
      | pdo =>
          simp only [pdoFLookup]
          split_ifs <;> rfl
      | _ => rfl

theorem driveLookup_flags : (driveLookup path flags).1.flags = path.flags := by
  rw [driveLookup]
  dsimp only
  split_ifs <;> rfl

theorem pathGlob_flags : (pathGlob fs path flags).1.flags = path.flags := by
  rw [pathGlob]
  dsimp only
  split_ifs
  · rfl
  · exact diskLookup_flags fs _ flags
  · exact driveLookup_flags _ flags
  · rfl

theorem shGlobType_flags (typeName : List UInt16) :
    (shGlobType fs typeName path).1.flags = path.flags := by
  rw [shGlobType]
  split_ifs <;> rfl

theorem shellReadlink_flags : (shellReadlink fs path).1.flags = path.flags := by
  rw [shellReadlink]
  cases winReadlink fs path.name <;> rfl

theorem shGlobLink_flags : (shGlobLink fs path flags).1.flags = path.flags := by
  have hprobed := shGlobType_flags fs path lnkType
  rw [shGlobLink]
  generalize shGlobType fs lnkType path = probe at hprobed ⊢
  obtain ⟨probed, found⟩ := probe
  cases found with
  | false => exact hprobed
  | true =>
      dsimp only at hprobed ⊢
      split_ifs
      · exact (shellReadlink_flags fs probed).trans hprobed
      · exact hprobed

theorem pathClose_flags : (pathClose fs path flags).flags = path.flags := by
  have hglobbed := pathGlob_flags fs path flags
  change (pathKind fs path flags).flags = _
  rw [pathKind]
  generalize pathGlob fs path flags = glob at hglobbed ⊢
  obtain ⟨globbed, found⟩ := glob
  cases found with
  | true =>
      dsimp only at hglobbed ⊢
      split_ifs
      · exact hglobbed
      · exact hglobbed
  | false =>
      have hprobed := shGlobType_flags fs globbed exeType
      dsimp only at hglobbed ⊢
      generalize shGlobType fs exeType globbed = probe at hprobed ⊢
      obtain ⟨probed, found⟩ := probe
      cases found with
      | true => exact hprobed.trans hglobbed
      | false =>
          have hlinked := shGlobLink_flags fs probed flags
          dsimp only at hprobed ⊢
          generalize shGlobLink fs probed flags = link at hlinked ⊢
          obtain ⟨linked, found⟩ := link
          cases found with
          | true => exact (hlinked.trans hprobed).trans hglobbed
          | false => exact (hlinked.trans hprobed).trans hglobbed

theorem pathRest_flags : (pathRest path).flags = path.flags := by
  simp only [pathRest, pathCopy, WinNameidata.wcpcpy, WinNameidata.write]

/-- The loop looks at components with flags of its own, but keeps those of the path. -/
theorem pathWalk_flags (fuel : Nat) : (pathWalk fs fuel path flags).flags = path.flags := by
  induction fuel generalizing path with
  | zero => rfl
  | succ fuel ih =>
      rw [pathWalk]
      have hread : (pathRead path flags).1.flags = path.flags := rfl
      generalize pathRead path flags = cell at hread ⊢
      obtain ⟨read, c⟩ := cell
      dsimp only at hread ⊢
      split_ifs with hlast
      · exact (pathClose_flags fs read flags).trans hread
      · have hglobbed := pathGlob_flags fs read winFollow
        generalize pathGlob fs read winFollow = glob at hglobbed ⊢
        obtain ⟨globbed, found⟩ := glob
        cases found with
        | true => exact (ih globbed).trans (hglobbed.trans hread)
        | false => exact (pathRest_flags globbed).trans (hglobbed.trans hread)

theorem vfsLookup_flags (source : List UInt16) : (vfsLookup fs path source flags).flags = flags := by
  have hopened : (pathOpen path source flags).flags = flags := rfl
  rw [vfsLookup]
  split_ifs
  · exact (pathClose_flags fs (pathCopy (pathOpen path source flags)) flags).trans hopened
  · exact (pathWalk_flags fs (pathOpen path source flags) flags (source.length + 1)).trans hopened

end

/-- A lookup of an object is marked as one. -/
theorem flagsOfAt_object {atflags : UInt32} (h : flagSet atflags atObject = true) :
    flagSet (flagsOfAt atflags) winRequireobject = true := by
  have hmark : flagSet winRequireobject winRequireobject = true := by decide
  rw [flagsOfAt, if_pos h, flagSet_or, flagSet_or, hmark, Bool.or_true, Bool.true_or]

theorem pathatWin_object (fs : WinFs) (stale : List UInt16) (task : NameiTask)
    (objects : ObjectNames) (result : WinNameidata) (dirfd : Int) (path : List UInt8)
    {atflags : UInt32} (h : flagSet atflags atObject = true) :
    (pathatWin fs stale task objects result dirfd path atflags).flags ≠ 0 := by
  have hmarked := flagsOfAt_object h
  have hkept : flagSet (prefixWin task objects result dirfd path (flagsOfAt atflags)).2.2
      winRequireobject = true := by
    rw [prefixWin]
    split_ifs
    · exact hmarked
    · exact hmarked
    · exact hmarked
    · exact hmarked
    · rw [flagSet_or, hmarked, Bool.true_or]
  rw [pathatWin]
  generalize prefixWin task objects result dirfd path (flagsOfAt atflags) = found at hkept ⊢
  obtain ⟨start, source, flags⟩ := found
  dsimp only at hkept ⊢
  rw [vfsLookup_flags]
  rintro rfl
  exact absurd hkept (by decide)

theorem atflagsOfPath_object (flags : UInt32) :
    flagSet (atflagsOfPath (flags ||| oObject)) atObject = true := by
  have hmark : flagSet oObject oObject = true := by decide
  have hat : flagSet atObject atObject = true := by decide
  have hasked : flagSet (flags ||| oObject) oObject = true := by
    rw [flagSet_or, hmark, Bool.or_true]
  rw [atflagsOfPath, if_pos hasked, flagSet_or, hat, Bool.or_true]

theorem atflagsOfOpenat_object (flags : UInt32) :
    flagSet (atflagsOfOpenat flags) atObject = true := by
  have hat : flagSet atObject atObject = true := by decide
  rw [atflagsOfOpenat, flagSet_or, flagSet_or, hat, Bool.true_or, Bool.true_or]

/-! ### What is refused -/

theorem errnoPosix_eq_eloop_iff (error : UInt32) :
    errnoPosix error = eloop ↔ error = errorTooManyLinks := by
  constructor
  · intro h
    have hrows : ∀ row ∈ errnoTable, row.2 = eloop → row.1 = [errorTooManyLinks] := by
      decide +kernel
    rw [errnoPosix] at h
    cases hfind : errnoTable.find? (fun row => row.1.contains error) with
    | none =>
        rw [hfind] at h
        exact absurd h (by decide)
    | some row =>
        rw [hfind] at h
        have hcontains := List.find?_some hfind
        rw [hrows row (List.mem_of_find?_eq_some hfind) h] at hcontains
        exact List.mem_singleton.mp (List.contains_iff_mem.mp hcontains)
  · rintro rfl
    decide +kernel

theorem failed_eq_eloop_iff (error : UInt32) :
    failed error = -(eloop : Int) ↔ error = errorTooManyLinks := by
  rw [← errnoPosix_eq_eloop_iff, failed]
  omega

section
variable {devices : UInt32 → WinDevice} {env : OpenEnv} {s : TaskFds} {path : WinNameidata}
  {flags : UInt32}

/-- What is put into a slot, or for which there is none, is no link. -/
theorem install_ok_ne {v : WinVnode} {t : Handles}
    (h : (install s (.ok (), v, t) 0).1 = -(eloop : Int)) : False := by
  change (fdPosix s.node v 0).1 = _ at h
  obtain ⟨fd, -, hput⟩ | ⟨-, hfull⟩ := fdPosix_cases s.node v 0
  · rw [hput] at h
    have heloop : eloop = 62 := rfl
    dsimp only at h
    omega
  · rw [hfull] at h
    dsimp only at h
    exact absurd h (by decide)

/-- `DiskOpenFile` is refused as a link if this is what Windows answers. -/
theorem diskOpenFile_refused_iff {flags : WinFlags} {result : WinVnode} :
    LinkRefused s (install s (diskOpenFile env s.handles path flags result) 0) ↔
      env.create = .fail errorTooManyLinks := by
  rw [diskOpenFile]
  unfold createFile
  cases env.create with
  | fail error =>
      dsimp only [install]
      refine ⟨fun h => ?_, fun h => ⟨?_, rfl⟩⟩
      · rw [(failed_eq_eloop_iff error).mp h.told]
      · exact (failed_eq_eloop_iff error).mpr (CreateAnswer.fail.inj h)
  | handle h entry =>
      refine iff_of_false (fun hrefused => ?_) fun h => CreateAnswer.noConfusion h
      have htold := hrefused.told
      dsimp only at htold
      split_ifs at htold
      · exact install_ok_ne htold
      · exact absurd ((failed_eq_eloop_iff _).mp htold) (by decide)

/-- What is refused before Windows is asked is refused with the error. -/
theorem error_refused_iff {result : WinVnode} (error : UInt32) :
    LinkRefused s (install s (.error error, result, s.handles) 0) ↔ error = errorTooManyLinks :=
  ⟨fun h => (failed_eq_eloop_iff error).mp h.told,
    fun h => ⟨(failed_eq_eloop_iff error).mpr h, rfl⟩⟩

/-- Opening a file is refused as a link if this is the error that it ends with. -/
theorem fileOpen_refused_iff {result : WinVnode} :
    LinkRefused s (install s (fileOpen env s.handles path (flagsWin flags) result) 0) ↔
      TooManyLinks env path flags := by
  rw [fileOpen, TooManyLinks]
  by_cases hcreation : (flagsWin flags).creation = openExisting
  · rw [if_neg (not_not_intro hcreation), if_pos hcreation]
    by_cases hattribs : path.attribs = noAttribs
    · rw [if_pos hattribs, if_pos hattribs]
      exact error_refused_iff env.lastError
    · rw [if_neg hattribs, if_neg hattribs]
      cases hdir : flagSet path.flags winRequiredir with
      | true =>
          rw [if_pos rfl]
          refine (error_refused_iff errorDirectory).trans (iff_of_false (by decide) ?_)
          exact fun h => Bool.noConfusion h.1
      | false =>
          rw [if_neg Bool.false_ne_true]
          exact diskOpenFile_refused_iff.trans (and_iff_right rfl).symm
  · rw [if_pos hcreation, if_neg hcreation, diskCreateFileVnode]
    cases env.list with
    | error error =>
        refine (error_refused_iff error).trans ⟨fun h => .inl (congrArg _ h), fun h => ?_⟩
        obtain hlist | ⟨hlist, -⟩ := h
        · exact Except.error.inj hlist
        · cases hlist
    | ok done =>
        refine diskOpenFile_refused_iff.trans ⟨fun h => .inr ⟨rfl, h⟩, fun h => ?_⟩
        obtain hlist | ⟨-, hcreate⟩ := h
        · cases hlist
        · exact hcreate

/-- A link at the end of a path that is marked is opened like anything else. -/
theorem linkRefused_openat_iff (hlink : EndsInLink path) (hflags : path.flags ≠ 0) :
    LinkRefused s (openat devices env s path flags) ↔
      path.fsType = .disk ∧ TooManyLinks env path flags := by
  rw [openat, if_neg fun h => hflags h.2, vfsOpen]
  obtain hdisk | hshell := hlink.kept
  · have hfile : path.fileType ≠ .vdir := by
      rw [hlink.link]
      decide
    rw [hdisk]
    dsimp only
    rw [diskOpen, if_neg hfile]
    exact fileOpen_refused_iff.trans (and_iff_right rfl).symm
  · rw [hshell]
    refine iff_of_false (fun hrefused => ?_) fun h => absurd h.1 (by decide)
    exact absurd ((failed_eq_eloop_iff _).mp hrefused.told) (by decide)

end

/-- Whether it is told not to follow links or not, opening a path that ends in a link is refused
as such exactly when the file the link is kept in is to be opened and Windows has this against
it. -/
theorem open_link_refused_iff (fs : WinFs) (stale : List UInt16) (task : NameiTask)
    (objects : ObjectNames) (devices : UInt32 → WinDevice) (env : OpenEnv) (handles : Handles)
    (dirfd : Int) (path : List UInt8) (flags : UInt32) :
    (path.getD 0 0 ≠ 0 → EndsInLink (pathWin fs stale task objects path (flags ||| oObject)) →
        (LinkRefused (task.fds handles)
            (sysOpen fs stale task objects devices env handles path flags) ↔
          (pathWin fs stale task objects path (flags ||| oObject)).fsType = .disk ∧
            TooManyLinks env (pathWin fs stale task objects path (flags ||| oObject)) flags)) ∧
      (EndsInLink (pathatWin fs stale task objects .zero dirfd path (atflagsOfOpenat flags)) →
        (LinkRefused (task.fds handles)
            (sysOpenat fs stale task objects devices env handles dirfd path flags) ↔
          (pathatWin fs stale task objects .zero dirfd path (atflagsOfOpenat flags)).fsType =
              .disk ∧
            TooManyLinks env
              (pathatWin fs stale task objects .zero dirfd path (atflagsOfOpenat flags))
              flags)) := by
  refine ⟨fun hpath hlink => ?_, fun hlink => ?_⟩
  · rw [sysOpen, if_neg hpath]
    exact linkRefused_openat_iff hlink
      (pathatWin_object fs stale task objects .zero atFdcwd path (atflagsOfPath_object flags))
  · rw [sysOpenat]
    exact linkRefused_openat_iff hlink
      (pathatWin_object fs stale task objects .zero dirfd path (atflagsOfOpenat_object flags))

def closedDevice : WinDevice := ⟨.vnon, 0, 0, .unknown, 0, 0, 0, 0, 0⟩

/-- An answer to the opening of a file, in a process without a terminal. -/
def answered (create : CreateAnswer) : OpenEnv :=
  ⟨create, .ok (), errorFileNotFound, closedDevice, closedDevice, none⟩

theorem zero_not_mem_a : 0 ∉ [(97 : UInt16)] := by decide

/-- The link `l` in the directory `c:`, to `a`. -/
def linkToA : WinFs := linkFs [99, 58, 92, 108] [97] zero_not_mem_a

/-- Windows has too many links. -/
theorem open_link_refused_iff_link :
    LinkRefused (dirTask.fds fun _ _ => none)
        (sysOpen linkToA [] dirTask dirNames (fun _ => closedDevice)
          (answered (.fail errorTooManyLinks)) (fun _ _ => none) [108] oNofollow) ∧
      LinkRefused (dirTask.fds fun _ _ => none)
        (sysOpenat linkToA [] dirTask dirNames (fun _ => closedDevice)
          (answered (.fail errorTooManyLinks)) (fun _ _ => none) atFdcwd [108] oNofollow) := by
  have hiff := open_link_refused_iff linkToA [] dirTask dirNames (fun _ => closedDevice)
    (answered (.fail errorTooManyLinks)) (fun _ _ => none) atFdcwd [108] oNofollow
  have hasked : ∀ path : WinNameidata, path.attribs ≠ noAttribs →
      flagSet path.flags winRequiredir = false →
        TooManyLinks (answered (.fail errorTooManyLinks)) path oNofollow := by
    intro path hattribs hdir
    rw [TooManyLinks, if_pos (by decide), if_neg hattribs]
    exact ⟨hdir, rfl⟩
  exact ⟨(hiff.1 (by decide) ⟨by decide, .inl (by decide)⟩).mpr
      ⟨by decide, hasked _ (by decide) (by decide)⟩,
    (hiff.2 ⟨by decide, .inl (by decide)⟩).mpr
      ⟨by decide, hasked _ (by decide) (by decide)⟩⟩

/-- The file that the link is kept in is opened. -/
theorem link_opened :
    (EndsInLink (pathWin linkToA [] dirTask dirNames [108] (oNofollow ||| oObject)) ∧
        ¬LinkRefused (dirTask.fds fun _ _ => none)
          (sysOpen linkToA [] dirTask dirNames (fun _ => closedDevice)
            (answered (.handle 8 ⟨fileEnd 1, false⟩)) (fun _ _ => none) [108] oNofollow) ∧
        (sysOpen linkToA [] dirTask dirNames (fun _ => closedDevice)
          (answered (.handle 8 ⟨fileEnd 1, false⟩)) (fun _ _ => none) [108] oNofollow).1 = 0) ∧
      EndsInLink (pathatWin linkToA [] dirTask dirNames .zero atFdcwd [108]
        (atflagsOfOpenat oNofollow)) ∧
      ¬LinkRefused (dirTask.fds fun _ _ => none)
        (sysOpenat linkToA [] dirTask dirNames (fun _ => closedDevice)
          (answered (.handle 8 ⟨fileEnd 1, false⟩)) (fun _ _ => none) atFdcwd [108] oNofollow) := by
  refine ⟨⟨⟨by decide, .inl (by decide)⟩, fun h => ?_, by decide⟩,
    ⟨by decide, .inl (by decide)⟩, fun h => ?_⟩
  · exact absurd h.told (by decide)
  · exact absurd h.told (by decide)

end MinC.Sys
