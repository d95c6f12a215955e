import MinC.Lib.Runs
import MinC.Sys.Descriptors
import MinC.Vfs.Close
import MinC.Vfs.Duplicate

/-!
What the descriptor calls keep.

A table is well formed when every slot is numbered, and empty exactly when its
access says so. A call is served when it leaves a well-formed table, leaves the
table alone if it fails, and if it succeeds has taken the lowest free slot and
made a duplicate of what it was to duplicate.

Not every call is served. `dup2` prepares the new vnode in the slot of the old
one and only then closes what was there; pseudo devices choose the handle to
duplicate by the number of the slot the duplicate is for, where the number at
hand need not be that of the source; pipes and pseudo devices are forgotten
also when they could not be closed; and Windows gives a value out again that a
slot may still hold. `FdRequest.Meets` says where none of this happens.
-/

namespace MinC.Sys

open MinC.Lib MinC.Win MinC.Vfs

/-! ### Well-formed tables -/

structure SlotWf (i : Nat) (v : WinVnode) : Prop where
  free_iff : v.access = 0 ↔ v.handle = nullHandle
  cleared : v.handle = nullHandle → v.fsType = .unknown
  numbered : v.fileId = i

def TableWf (node : Nat → WinVnode) : Prop := ∀ i, i < openMax → SlotWf i (node i)

/-- A vnode that may be put into a slot: it is empty exactly when its access
says so. -/
structure Puttable (v : WinVnode) : Prop where
  free_iff : v.access = 0 ↔ v.handle = nullHandle
  cleared : v.handle = nullHandle → v.fsType = .unknown

theorem SlotWf.puttable {i : Nat} {v : WinVnode} (h : SlotWf i v) : Puttable v :=
  ⟨h.free_iff, h.cleared⟩

theorem TableWf.put {node : Nat → WinVnode} (hwf : TableWf node) {v : WinVnode}
    (hv : Puttable v) (fd : Nat) :
    TableWf (Function.update node fd { v with fileId := fd }) := by
  intro i hi
  by_cases hfd : i = fd
  · subst hfd
    rw [Function.update_self]
    exact ⟨hv.free_iff, hv.cleared, rfl⟩
  · rw [Function.update_of_ne hfd]
    exact hwf i hi

theorem puttable_zero : Puttable .zero := ⟨by decide, fun _ => rfl⟩

/-! ### What is asked of a call -/

/-- A slot holds a duplicate of what a slot held before: it gives access to the
same end, under a handle no other slot holds. -/
structure IsDuplicate (devices : UInt32 → WinDevice) (s s' : TaskFds) (old new : Nat) : Prop where
  ends : denotes devices s'.handles .current (s'.node new) =
    denotes devices s.handles .current (s.node old)
  isOpen : denotes devices s.handles .current (s.node old) ≠ none
  distinct : ∀ i, i < openMax → i ≠ new → (s'.node i).handle ≠ (s'.node new).handle

/-- What a call that succeeded has done. -/
def FdRequest.Done (rq : FdRequest) (s s' : TaskFds) (reply : Int) : Prop :=
  match rq.call with
  | .openat _ _ => LowestFree (slotFree s.node) 0 openMax reply.toNat
  | .dup oldfd => LowestFree (slotFree s.node) 0 openMax reply.toNat ∧
      IsDuplicate rq.devices s s' oldfd.toNat reply.toNat
  | .dupfd fd _ offset => LowestFree (slotFree s.node) offset.toNat openMax reply.toNat ∧
      IsDuplicate rq.devices s s' fd.toNat reply.toNat
  | .dup2 oldfd newfd => reply = newfd ∧
      (oldfd ≠ newfd → IsDuplicate rq.devices s s' oldfd.toNat newfd.toNat)
  | .close fd => slotFree s'.node fd.toNat = true

/-- The call keeps the table well formed, and it is all or nothing. -/
structure FdRequest.Served (s : TaskFds) (rq : FdRequest) : Prop where
  wf : TableWf (rq.exec s).2.node
  failed : (rq.exec s).1 < 0 → (rq.exec s).2.node = s.node
  done : 0 ≤ (rq.exec s).1 → rq.Done s (rq.exec s).2 (rq.exec s).1

/-! ### When a call is served -/

def CreateAnswer.Reported : CreateAnswer → Prop
  | .handle _ _ => True
  | .fail e => errnoPosix e ≠ 0

/-- No error that opening a file may end with is taken for none. -/
structure OpenEnv.Reported (env : OpenEnv) : Prop where
  create : env.create.Reported
  list : ∀ e, env.list = .error e → errnoPosix e ≠ 0
  lastError : errnoPosix env.lastError ≠ 0

/-- The errors Windows answers with are reported as failures. -/
structure FdRequest.Reported (rq : FdRequest) : Prop where
  opening : rq.opening.Reported
  duplicating : rq.duplicating.Reported
  closing : rq.closing.Reported

/-- If the duplication of a slot is given a handle, then the handle that was
duplicated is to what the slot denotes, and no slot still holds the value. -/
def DupMeets (devices : UInt32 → WinDevice) (os : DupAnswers) (s : TaskFds)
    (old fileId : Nat) : Prop :=
  ∀ h, Duplicable s.handles (dupSource devices (s.node old) fileId) .current false os.handle h →
    endOf s.handles .current (dupSource devices (s.node old) fileId) =
      denotes devices s.handles .current (s.node old) ∧
    ∀ i, i < openMax → (s.node i).handle ≠ h

/-- What `dup2` needs of two different slots: the duplication goes through, and
so does the closing of what the target held; the new handle is not the event
that is closed with it. -/
structure Dup2Meets (rq : FdRequest) (s : TaskFds) (old new : Nat) : Prop where
  duplicate : DupMeets rq.devices rq.duplicating s old (s.node new).fileId
  goes : Goes s.handles .current false rq.duplicating rq.devices (s.node old) (s.node new).fileId
  closable : Closable s.handles rq.closing (s.node new)
  event : (s.node new).fsType = .winsock →
    rq.duplicating.handle ≠ .handle (s.node new).event

/-- The condition under which a call is served. -/
def FdRequest.Meets (s : TaskFds) (rq : FdRequest) : Prop :=
  rq.Reported ∧
    match rq.call with
    | .openat _ _ => ∀ process, rq.opening.process = some process →
        ∀ i, i < 3 → Puttable (process i)
    | .dup oldfd => inRange oldfd = true →
        DupMeets rq.devices rq.duplicating s oldfd.toNat (s.node oldfd.toNat).fileId
    | .dupfd fd _ offset => inRange fd = true → inRange offset = true →
        DupMeets rq.devices rq.duplicating s fd.toNat 0
    | .dup2 oldfd newfd => inRange oldfd = true → inRange newfd = true → oldfd ≠ newfd →
        (s.node oldfd.toNat).handle ≠ nullHandle → Dup2Meets rq s oldfd.toNat newfd.toNat
    | .close fd => inRange fd = true → ClearedAnyway (s.node fd.toNat) →
        Closable s.handles rq.closing (s.node fd.toNat)

/-! ### Taking a slot -/

theorem failed_neg {e : UInt32} (he : errnoPosix e ≠ 0) : failed e < 0 := by
  unfold failed
  omega

/-- Putting a prepared vnode into the table keeps it well formed, and takes the
lowest free slot or none. -/
theorem install_spec {s : TaskFds} {prepared : Except UInt32 Unit × WinVnode × Handles}
    (offset : Int) (hwf : TableWf s.node)
    (herror : ∀ e v t, prepared = (.error e, v, t) → errnoPosix e ≠ 0)
    (hok : ∀ v t, prepared = (.ok (), v, t) → Puttable v) :
    TableWf (install s prepared offset).2.node ∧
      ((install s prepared offset).1 < 0 → (install s prepared offset).2.node = s.node) ∧
      (0 ≤ (install s prepared offset).1 → ∃ v t fd, prepared = (.ok (), v, t) ∧
        LowestFree (slotFree s.node) offset.toNat openMax fd ∧
        install s prepared offset =
          ((fd : Int), ⟨Function.update s.node fd { v with fileId := fd }, t⟩)) := by
  obtain ⟨e | u, v, t⟩ := prepared
  · have hneg : failed e < 0 := failed_neg (herror e v t rfl)
    refine ⟨hwf, fun _ => rfl, fun hpos => ?_⟩
    have : (install s (.error e, v, t) offset).1 = failed e := rfl
    omega
  · have hv : Puttable v := hok v t rfl
    -- the lowest free slot is taken, or there is none and the table stays as it is
    rcases fdPosix_cases s.node v offset with ⟨fd, hlow, heq⟩ | ⟨-, heq⟩
    · have hinstall : install s (.ok u, v, t) offset =
          ((fd : Int), ⟨Function.update s.node fd { v with fileId := fd }, t⟩) := by
        simp [install, heq]
      rw [hinstall]
      refine ⟨hwf.put hv fd, fun hneg => ?_, fun _ => ⟨v, t, fd, rfl, hlow, rfl⟩⟩
      have : (0 : Int) ≤ fd := Int.natCast_nonneg fd
      omega
    · have hinstall : install s (.ok u, v, t) offset = (-(emfile : Int), ⟨s.node, t⟩) := by
        simp [install, heq]
      rw [hinstall]
      refine ⟨hwf, fun _ => rfl, fun hpos => ?_⟩
      have : -(emfile : Int) < 0 := by decide
      omega

/-! ### Duplicates -/

section
variable {devices : UInt32 → WinDevice} {os : DupAnswers} {s : TaskFds}

/-- A successful duplication of a slot of a well-formed table gives a vnode
that may be put into a slot. -/
theorem puttable_of_duplicated {t t' : Handles} {source h : Nat} {node result' : WinVnode}
    (closeExec : Bool) (fileId : Nat) (hnode : Puttable node) (hfs : node.fsType ≠ .unknown)
    (hdup : Duplicated t t' .current source h
      { node with closeExec := closeExec, fileId := fileId } result') : Puttable result' := by
  have hhandle : node.handle ≠ nullHandle := fun h0 => hfs (hnode.cleared h0)
  have haccess : node.access ≠ 0 := fun h0 => hhandle (hnode.free_iff.1 h0)
  have hnew : result'.access ≠ 0 := hdup.access haccess
  have hown : result'.handle ≠ nullHandle := by
    rw [hdup.handle]
    exact hdup.ne_null
  exact ⟨iff_of_false hnew hown, fun h0 => absurd h0 hown⟩

theorem vfsFDupfd_ok {t t' : Handles} {node result result' : WinVnode} {closeExec : Bool}
    (hdup : vfsFDupfd devices os t node closeExec result = (.ok (), result', t')) :
    node.fsType ≠ .unknown ∧ ∃ h,
      Duplicated t t' .current (dupSource devices node result.fileId) h
        { node with closeExec := closeExec, fileId := result.fileId } result' ∧
      Duplicable t (dupSource devices node result.fileId) .current false os.handle h := by
  refine ⟨?_, dupByType_ok (by simp) hdup⟩
  intro hfs
  simp [vfsFDupfd, dupByType, hfs] at hdup

/-- The slot a duplicate was put into denotes what its source denoted. -/
theorem isDuplicate_of {t' t'' : Handles} {old new source h : Nat}
    {result result' : WinVnode}
    (hdup : Duplicated s.handles t' .current source h result result')
    (hside : endOf s.handles .current source = denotes devices s.handles .current (s.node old))
    (hkept : endOf t'' .current h = endOf t' .current h)
    (hdistinct : ∀ i, i < openMax → (s.node i).handle ≠ h) :
    IsDuplicate devices s
      ⟨Function.update s.node new { result' with fileId := new }, t''⟩ old new := by
  refine ⟨?_, ?_, ?_⟩
  · have hinvalid : result'.handle ≠ invalidHandle := by
      rw [hdup.handle]
      exact hdup.ne_invalid
    have hnew : denotes devices t'' .current { result' with fileId := new } =
        endOf t'' .current result'.handle := by
      simp [denotes, hinvalid]
    simp only [Function.update_self]
    rw [hnew, hdup.handle, hkept, hdup.ends]
    exact hside
  · rw [← hside]
    exact hdup.isOpen
  · intro i hi hne
    simp only [Function.update_self, Function.update_of_ne hne, hdup.handle]
    exact hdistinct i hi

/-- What the two calls that look for a slot of their own have in common. -/
theorem install_dup {old : Nat} (closeExec : Bool) (offset : Int) (result : WinVnode)
    (hwf : TableWf s.node) (hold : old < openMax) (hrep : os.Reported)
    (hmeets : DupMeets devices os s old result.fileId) :
    let reply := install s (vfsFDupfd devices os s.handles (s.node old) closeExec result) offset
    TableWf reply.2.node ∧ (reply.1 < 0 → reply.2.node = s.node) ∧
      (0 ≤ reply.1 → LowestFree (slotFree s.node) offset.toNat openMax reply.1.toNat ∧
        IsDuplicate devices s reply.2 old reply.1.toNat) := by
  have herror : ∀ e v t, vfsFDupfd devices os s.handles (s.node old) closeExec result =
      (.error e, v, t) → errnoPosix e ≠ 0 := fun e v t h => (dupByType_error hrep h).2
  have hok : ∀ v t, vfsFDupfd devices os s.handles (s.node old) closeExec result =
      (.ok (), v, t) → Puttable v := by
    intro v t h
    obtain ⟨hfs, h, hdup, -⟩ := vfsFDupfd_ok h
    exact puttable_of_duplicated closeExec _ (hwf old hold).puttable hfs hdup
  obtain ⟨hwf', hneg, hpos⟩ := install_spec offset hwf herror hok
  refine ⟨hwf', hneg, fun h0 => ?_⟩
  obtain ⟨v, t, fd, hprepared, hlow, heq⟩ := hpos h0
  obtain ⟨-, h, hdup, hcan⟩ := vfsFDupfd_ok hprepared
  obtain ⟨hside, hdistinct⟩ := hmeets h hcan
  rw [heq]
  exact ⟨hlow, isDuplicate_of hdup hside rfl hdistinct⟩

end

/-! ### Opening -/

section
variable {devices : UInt32 → WinDevice} {env : OpenEnv} {s : TaskFds} {path : WinNameidata}
  {flags : WinFlags} {result v : WinVnode} {t t' : Handles} {e : UInt32}

theorem createFile_ok {h : Nat} (hcreate : createFile t env.create = (.ok h, t')) :
    h ≠ nullHandle := by
  unfold createFile at hcreate
  split at hcreate
  · simp at hcreate
  · split at hcreate
    · rename_i hfresh
      simp only [Prod.mk.injEq, Except.ok.injEq] at hcreate
      exact hcreate.1 ▸ hfresh.ne_null
    · simp at hcreate

theorem createFile_error (hrep : env.create.Reported)
    (hcreate : createFile t env.create = (.error e, t')) : errnoPosix e ≠ 0 := by
  unfold createFile at hcreate
  cases hanswer : env.create with
  | fail e1 =>
      simp only [hanswer, Prod.mk.injEq, Except.error.injEq] at hcreate
      rw [hanswer] at hrep
      exact hcreate.1 ▸ hrep
  | handle h entry =>
      rw [hanswer] at hcreate
      dsimp only at hcreate
      split at hcreate
      · simp at hcreate
      · simp only [Prod.mk.injEq, Except.error.injEq] at hcreate
        rw [← hcreate.1]
        decide

/-- A vnode that owns a handle and gives access may be put into a slot. -/
theorem puttable_of_ne (haccess : v.access ≠ 0) (hhandle : v.handle ≠ nullHandle) : Puttable v :=
  ⟨iff_of_false haccess hhandle, fun h0 => absurd h0 hhandle⟩

theorem diskOpenFile_ok (hopen : diskOpenFile env t path flags result = (.ok (), v, t')) :
    Puttable v := by
  unfold diskOpenFile at hopen
  rcases hcreate : createFile t env.create with ⟨e | h, t1⟩
  · simp [hcreate] at hopen
  · simp only [hcreate, Prod.mk.injEq, true_and] at hopen
    obtain ⟨rfl, rfl⟩ := hopen
    exact puttable_of_ne (winFGetfl_ne_zero _ h) (createFile_ok hcreate)

theorem diskOpenFile_error (hrep : env.create.Reported)
    (hopen : diskOpenFile env t path flags result = (.error e, v, t')) : errnoPosix e ≠ 0 := by
  unfold diskOpenFile at hopen
  rcases hcreate : createFile t env.create with ⟨e1 | h, t1⟩
  · simp only [hcreate, Prod.mk.injEq, Except.error.injEq] at hopen
    exact hopen.1 ▸ createFile_error hrep hcreate
  · simp [hcreate] at hopen

theorem diskOpen_ok (hopen : diskOpen env t path flags result = (.ok (), v, t')) :
    Puttable v := by
  obtain ⟨e, -, hrefused⟩ | ⟨flags', hasked⟩ := diskOpen_cases env t path flags result
  · rw [hrefused] at hopen
    cases hopen
  · rw [hasked] at hopen
    exact diskOpenFile_ok hopen

theorem diskOpen_error (hrep : env.Reported)
    (hopen : diskOpen env t path flags result = (.error e, v, t')) : errnoPosix e ≠ 0 := by
  obtain ⟨e', he', hrefused⟩ | ⟨flags', hasked⟩ := diskOpen_cases env t path flags result
  · rw [hrefused] at hopen
    cases hopen
    rcases he' with rfl | hlist | rfl
    · exact hrep.lastError
    · exact hrep.list _ hlist
    · decide
  · rw [hasked] at hopen
    exact diskOpenFile_error hrep.create hopen

theorem nullOpen_ok (hopen : nullOpen env t result = (.ok (), v, t')) : Puttable v := by
  unfold nullOpen at hopen
  rcases hcreate : createFile t env.create with ⟨e | h, t1⟩
  · simp [hcreate] at hopen
  · simp only [hcreate, Prod.mk.injEq, true_and] at hopen
    obtain ⟨rfl, rfl⟩ := hopen
    exact puttable_of_ne (winFGetfl_ne_zero _ h) (createFile_ok hcreate)

theorem nullOpen_error (hrep : env.create.Reported)
    (hopen : nullOpen env t result = (.error e, v, t')) : errnoPosix e ≠ 0 := by
  unfold nullOpen at hopen
  rcases hcreate : createFile t env.create with ⟨e1 | h, t1⟩
  · simp only [hcreate, Prod.mk.injEq, Except.error.injEq] at hopen
    exact hopen.1 ▸ createFile_error hrep hcreate
  · simp [hcreate] at hopen

theorem pdoOpenFile_puttable {device : WinDevice}
    (hopen : pdoOpenFile device path flags result = some v) (haccess : flags.access ≠ 0)
    (terminal : WinDevice) : Puttable v ∧ Puttable (onTerminal v terminal) := by
  unfold pdoOpenFile at hopen
  split at hopen
  · simp at hopen
  · simp only [Option.some.injEq] at hopen
    subst hopen
    have hhandle : invalidHandle ≠ nullHandle := by decide
    exact ⟨puttable_of_ne haccess hhandle, puttable_of_ne haccess hhandle⟩

/-- Opening a pseudo device gives a vnode that may be put into a slot, if the
standard streams it may be copied from can. -/
theorem pdoOpen_ok (haccess : flags.access ≠ 0)
    (hstd : ∀ i, i < 3 → Puttable (env.process.getD s.node i))
    (hopen : pdoOpen devices env s path flags result = (.ok (), v, t')) : Puttable v := by
  unfold pdoOpen at hopen
  cases hfile : pdoOpenFile (devices path.deviceId) path flags result with
  | none => simp [hfile] at hopen
  | some opened =>
      have hput := pdoOpenFile_puttable hfile haccess
      simp only [hfile] at hopen
      split_ifs at hopen
      case pos => exact (Prod.mk.inj (Prod.mk.inj hopen).2).1 ▸ (hput env.ctty).2
      case pos => exact nullOpen_ok hopen
      case pos => exact (Prod.mk.inj (Prod.mk.inj hopen).2).1 ▸ (hput env.pty).2
      case pos => exact (Prod.mk.inj (Prod.mk.inj hopen).2).1 ▸ hstd 0 (by decide)
      case pos => exact (Prod.mk.inj (Prod.mk.inj hopen).2).1 ▸ hstd 1 (by decide)
      case pos => exact (Prod.mk.inj (Prod.mk.inj hopen).2).1 ▸ hstd 2 (by decide)
      case neg => exact (Prod.mk.inj (Prod.mk.inj hopen).2).1 ▸ (hput env.pty).1

theorem pdoOpen_error (hrep : env.Reported)
    (hopen : pdoOpen devices env s path flags result = (.error e, v, t')) : errnoPosix e ≠ 0 := by
  unfold pdoOpen at hopen
  cases hfile : pdoOpenFile (devices path.deviceId) path flags result with
  | none =>
      simp only [hfile, Prod.mk.injEq, Except.error.injEq] at hopen
      rw [← hopen.1]
      decide
  | some opened =>
      simp only [hfile] at hopen
      split_ifs at hopen
      all_goals first
        | exact nullOpen_error hrep.create hopen
        | simp at hopen

theorem vfsOpen_ok (haccess : flags.access ≠ 0)
    (hstd : ∀ i, i < 3 → Puttable (env.process.getD s.node i))
    (hopen : vfsOpen devices env s path flags result = (.ok (), v, t')) : Puttable v := by
  unfold vfsOpen at hopen
  split at hopen
  · exact pdoOpen_ok haccess hstd hopen
  · exact diskOpen_ok hopen
  · simp at hopen

theorem vfsOpen_error (hrep : env.Reported)
    (hopen : vfsOpen devices env s path flags result = (.error e, v, t')) : errnoPosix e ≠ 0 := by
  unfold vfsOpen at hopen
  split at hopen
  · exact pdoOpen_error hrep hopen
  · exact diskOpen_error hrep hopen
  · simp only [Prod.mk.injEq, Except.error.injEq] at hopen
    rw [← hopen.1]
    decide

end

/-! ### The calls are served -/

section
variable {s : TaskFds} {rq : FdRequest}

theorem nat_lt_of_inRange {fd : Int} (h : inRange fd = true) : fd.toNat < openMax := by
  simp only [inRange, Bool.and_eq_true, decide_eq_true_eq] at h
  omega

/-- A reply of an error number leaves everything as it was. -/
theorem served_of_refused (hwf : TableWf s.node) {n : Nat} (hn : 0 < n)
    (hexec : rq.exec s = (-(n : Int), s)) : rq.Served s := by
  refine ⟨?_, ?_, ?_⟩ <;> rw [hexec]
  · exact hwf
  · exact fun _ => rfl
  · intro hpos
    dsimp only at hpos
    omega

theorem openat_served {path : WinNameidata} {flags : UInt32} (hwf : TableWf s.node)
    (hcall : rq.call = .openat path flags) (hmeets : rq.Meets s) : rq.Served s := by
  obtain ⟨hrep, hprocess⟩ := hmeets
  simp only [hcall] at hprocess
  have hexec : rq.exec s = openat rq.devices rq.opening s path flags := by
    simp [FdRequest.exec, hcall]
  by_cases hloop : path.fileType = .vlnk ∧ path.flags = 0
  · refine served_of_refused hwf (show 0 < eloop by decide) ?_
    rw [hexec, openat, if_pos hloop]
  · have hstd : ∀ i, i < 3 → Puttable (rq.opening.process.getD s.node i) := by
      intro i hi
      cases hp : rq.opening.process with
      | none => exact (hwf i (Nat.lt_trans hi (by decide))).puttable
      | some process => exact hprocess process hp i hi
    have haccess := flagsWin_access_ne_zero flags
    obtain ⟨hwf', hneg, hpos⟩ := install_spec 0 hwf
      (fun e v t h => vfsOpen_error hrep.opening h) (fun v t h => vfsOpen_ok haccess hstd h)
    rw [openat, if_neg hloop] at hexec
    refine ⟨?_, ?_, ?_⟩ <;> rw [hexec]
    · exact hwf'
    · exact hneg
    · intro h0
      obtain ⟨v, t, fd, -, hlow, heq⟩ := hpos h0
      simp only [FdRequest.Done, hcall, heq]
      exact hlow

theorem dup_served {oldfd : Int} (hwf : TableWf s.node) (hcall : rq.call = .dup oldfd)
    (hmeets : rq.Meets s) : rq.Served s := by
  obtain ⟨hrep, hdup⟩ := hmeets
  simp only [hcall] at hdup
  have hexec : rq.exec s = sysDup rq.devices rq.duplicating s oldfd := by
    simp [FdRequest.exec, hcall]
  by_cases hold : inRange oldfd = true
  · rw [sysDup, if_pos hold] at hexec
    obtain ⟨hwf', hneg, hpos⟩ := install_dup false 0
      { WinVnode.zero with fileId := (s.node oldfd.toNat).fileId } hwf (nat_lt_of_inRange hold)
      hrep.duplicating (hdup hold)
    refine ⟨?_, ?_, ?_⟩ <;> rw [hexec]
    · exact hwf'
    · exact hneg
    · intro h0
      simp only [FdRequest.Done, hcall]
      exact hpos h0
  · refine served_of_refused hwf (show 0 < ebadf by decide) ?_
    rw [hexec, sysDup, if_neg hold]

theorem dupfd_served {fd offset : Int} {closeExec : Bool} (hwf : TableWf s.node)
    (hcall : rq.call = .dupfd fd closeExec offset) (hmeets : rq.Meets s) : rq.Served s := by
  obtain ⟨hrep, hdup⟩ := hmeets
  simp only [hcall] at hdup
  have hexec : rq.exec s = sysFcntlDupfd rq.devices rq.duplicating s fd closeExec offset := by
    simp [FdRequest.exec, hcall]
  by_cases hfd : inRange fd = true ∧ inRange offset = true
  · rw [sysFcntlDupfd, if_pos hfd.1, fcntlFDupfd, if_pos hfd.2] at hexec
    obtain ⟨hwf', hneg, hpos⟩ := install_dup closeExec offset .zero hwf
      (nat_lt_of_inRange hfd.1) hrep.duplicating (hdup hfd.1 hfd.2)
    refine ⟨?_, ?_, ?_⟩ <;> rw [hexec]
    · exact hwf'
    · exact hneg
    · intro h0
      simp only [FdRequest.Done, hcall]
      exact hpos h0
  · refine served_of_refused hwf (show 0 < ebadf by decide) ?_
    rw [hexec]
    unfold sysFcntlDupfd fcntlFDupfd
    split_ifs with hin hoff
    · exact absurd ⟨hin, hoff⟩ hfd
    · rfl
    · rfl

/-- `dup2` between two slots, the first of which is in use. -/
theorem vfsDup2_served {old new : Nat} (hwf : TableWf s.node) (hold : old < openMax)
    (hnew : new < openMax) (hne : old ≠ new) (hused : (s.node old).handle ≠ nullHandle)
    (hmeets : Dup2Meets rq s old new) :
    ∃ s', vfsDup2 rq.devices rq.duplicating rq.closing s old new = (.ok (), s') ∧
      TableWf s'.node ∧ IsDuplicate rq.devices s s' old new := by
  obtain ⟨v, t, hprepared⟩ :
      ∃ v t, vfsFDupfd rq.devices rq.duplicating s.handles (s.node old) false (s.node new) =
        (.ok (), v, t) := dupByType_ok_iff.mpr hmeets.goes
  obtain ⟨hfs, h, hdup, hcan⟩ := vfsFDupfd_ok hprepared
  obtain ⟨hside, hdistinct⟩ := hmeets.duplicate h hcan
  have hput : Puttable v :=
    puttable_of_duplicated false _ (hwf old hold).puttable hfs hdup
  have hslot : v.fileId = new := hdup.fileId.trans (hwf new hnew).numbered
  have hgrows : Grows s.handles t .current := by
    have hall := @grows_dupByType s.handles .current false rq.duplicating (s.node old)
      { s.node old with closeExec := false, fileId := (s.node new).fileId } .current (by simp)
      rq.devices
    rwa [show dupByType s.handles .current false rq.duplicating rq.devices (s.node old)
      { s.node old with closeExec := false, fileId := (s.node new).fileId } =
        (.ok (), v, t) from hprepared] at hall
  -- The saved occupant closes as it would have before the duplication.
  obtain ⟨kept, t', hclosed⟩ := vfsClose_of_closable (hmeets.closable.mono hgrows)
  have hkept : endOf t' .current h = endOf t .current h := by
    rcases vfsClose_ok hclosed with ⟨-, -, rfl⟩ | ⟨-, hkeeps⟩
    · rfl
    · refine hkeeps h .current (Ne.symm (hdistinct new hnew)) fun hws heq => ?_
      exact hmeets.event hws (heq ▸ hcan.offered)
  have hv : { v with fileId := new } = v := by rw [← hslot]
  refine ⟨⟨Function.update s.node new v, t'⟩, ?_, ?_, ?_⟩
  · simp [vfsDup2, hused, hne, hprepared, hclosed]
  · have := hwf.put hput new
    rwa [hv] at this
  · have := @isDuplicate_of rq.devices s t t' old new _ h _ v hdup hside hkept hdistinct
    rwa [hv] at this

theorem dup2_served {oldfd newfd : Int} (hwf : TableWf s.node)
    (hcall : rq.call = .dup2 oldfd newfd) (hmeets : rq.Meets s) : rq.Served s := by
  obtain ⟨hrep, hdup⟩ := hmeets
  simp only [hcall] at hdup
  have hexec : rq.exec s =
      sysDup2 rq.devices rq.duplicating rq.closing s oldfd newfd := by
    simp [FdRequest.exec, hcall]
  by_cases hin : inRange oldfd = true ∧ inRange newfd = true
  · -- both are in range: the old one may be closed, or the same as the new one
    obtain ⟨hold, hnew⟩ := hin
    rw [sysDup2, if_pos hold, if_pos hnew] at hexec
    by_cases hused : (s.node oldfd.toNat).handle = nullHandle
    · refine served_of_refused hwf (show 0 < errnoPosix errorInvalidHandle by decide) ?_
      rw [hexec]
      simp [vfsDup2, hused, failed]
    · have hnonneg : 0 ≤ oldfd ∧ 0 ≤ newfd := by
        simp only [inRange, Bool.and_eq_true, decide_eq_true_eq] at hold hnew
        exact ⟨hold.1, hnew.1⟩
      by_cases hsame : oldfd = newfd
      · have hself : rq.exec s = (newfd, s) := by
          subst hsame
          rw [hexec]
          simp [vfsDup2, hused]
        refine ⟨?_, ?_, ?_⟩ <;> rw [hself]
        · exact hwf
        · exact fun _ => rfl
        · intro _
          simp only [FdRequest.Done, hcall]
          exact ⟨trivial, fun hne => absurd hsame hne⟩
      · have hslots : oldfd.toNat ≠ newfd.toNat := by omega
        obtain ⟨s', heq, hwf', hdone⟩ := vfsDup2_served hwf (nat_lt_of_inRange hold)
          (nat_lt_of_inRange hnew) hslots hused (hdup hold hnew hsame hused)
        rw [heq] at hexec
        refine ⟨?_, ?_, ?_⟩ <;> rw [hexec]
        · exact hwf'
        · intro hneg
          dsimp only at hneg
          omega
        · intro _
          simp only [FdRequest.Done, hcall]
          exact ⟨trivial, fun _ => hdone⟩
  · refine served_of_refused hwf (show 0 < ebadf by decide) ?_
    rw [hexec]
    unfold sysDup2
    split_ifs with hold hnew
    · exact absurd ⟨hold, hnew⟩ hin
    · rfl
    · rfl

theorem close_served {fd : Int} (hwf : TableWf s.node) (hcall : rq.call = .close fd)
    (hmeets : rq.Meets s) : rq.Served s := by
  obtain ⟨hrep, hclosable⟩ := hmeets
  simp only [hcall] at hclosable
  have hexec : rq.exec s = sysClose rq.closing s fd := by
    simp [FdRequest.exec, hcall]
  by_cases hin : inRange fd = true
  · have hlt := nat_lt_of_inRange hin
    have hslot := hwf fd.toNat hlt
    rw [sysClose, if_pos hin] at hexec
    rcases hclose : vfsClose s.handles rq.closing (s.node fd.toNat) with ⟨e | u, v, t⟩
    · -- A failure is not of those that clear the vnode anyway.
      have hkind : ¬ ClearedAnyway (s.node fd.toNat) := by
        intro hany
        obtain ⟨v', t', hok⟩ := vfsClose_of_closable (hclosable hin hany)
        rw [hclose] at hok
        simp at hok
      obtain ⟨rfl, he⟩ := vfsClose_error hkind hclose
      have hneg := failed_neg (he hrep.closing)
      simp only [hclose, Function.update_eq_self] at hexec
      refine ⟨?_, ?_, ?_⟩ <;> rw [hexec]
      · exact hwf
      · exact fun _ => rfl
      · intro hpos
        dsimp only at hpos
        omega
    · have hv : v = { WinVnode.zero with fileId := fd.toNat } ∨
          v = s.node fd.toNat ∧ (s.node fd.toNat).handle = nullHandle := by
        rcases vfsClose_ok hclose with ⟨hnull, rfl, -⟩ | ⟨rfl, -⟩
        · exact .inr ⟨rfl, hnull⟩
        · exact .inl (by rw [hslot.numbered])
      simp only [hclose] at hexec
      refine ⟨?_, ?_, ?_⟩ <;> rw [hexec]
      · rcases hv with rfl | ⟨rfl, -⟩
        · exact hwf.put puttable_zero fd.toNat
        · simpa using hwf
      · intro hneg
        dsimp only at hneg
        omega
      · intro _
        simp only [FdRequest.Done, hcall, slotFree, Function.update_self, beq_iff_eq]
        rcases hv with rfl | ⟨rfl, hnull⟩
        · rfl
        · exact hslot.free_iff.mpr hnull
  · refine served_of_refused hwf (show 0 < ebadf by decide) ?_
    rw [hexec, sysClose, if_neg hin]

/-- A call that meets the condition is served, from every well-formed table. -/
theorem served_of_meets (hwf : TableWf s.node) (hmeets : rq.Meets s) : rq.Served s := by
  cases hcall : rq.call with
  | openat path flags => exact openat_served hwf hcall hmeets
  | dup oldfd => exact dup_served hwf hcall hmeets
  | dupfd fd closeExec offset => exact dupfd_served hwf hcall hmeets
  | dup2 oldfd newfd => exact dup2_served hwf hcall hmeets
  | close fd => exact close_served hwf hcall hmeets

end

/-! ### Runs -/

/-- From a well-formed table, a run whose calls all meet the condition serves
every one of them, and ends in a well-formed table. -/
theorem descriptors_served {s : TaskFds} {rqs : List FdRequest} (hwf : TableWf s.node)
    (hmeets : Along stepFds (fun s rq => rq.Meets s) s rqs) :
    Along stepFds (fun s rq => rq.Served s) s rqs ∧ TableWf (run stepFds s rqs).node := by
  have hserved : ∀ (s : TaskFds) (rq : FdRequest), TableWf s.node → rq.Meets s → rq.Served s :=
    fun _ _ hwf hmeets => served_of_meets hwf hmeets
  exact along_of_invariant (fun s rq hwf hmeets => (hserved s rq hwf hmeets).wf) hserved hwf hmeets

section Files

def fileEnd (object : Nat) : ObjectEnd := ⟨object, genericRead, by decide⟩

def fileSlot (h i : Nat) : WinVnode :=
  { WinVnode.zero with
    fsType := .disk
    fileType := .vreg
    handle := h
    access := genericRead
    fileId := i }

/-- Slots 0 and 1 hold files that were opened one after the other. -/
def twoFiles : TaskFds where
  node := fun i =>
    if i = 0 then fileSlot 8 0 else if i = 1 then fileSlot 12 1 else { WinVnode.zero with fileId := i }
  handles := fun p h =>
    if p = .current ∧ h = 8 then some ⟨fileEnd 1, false⟩
    else if p = .current ∧ h = 12 then some ⟨fileEnd 2, false⟩
    else none

theorem twoFiles_wf : TableWf twoFiles.node := by
  intro i _
  have hfile : ∀ h i, h ≠ nullHandle → SlotWf i (fileSlot h i) := fun h i hh =>
    ⟨iff_of_false (by decide : genericRead ≠ 0) hh, fun h0 => absurd h0 hh, rfl⟩
  simp only [twoFiles]
  split_ifs with h0 h1
  · subst h0
    exact hfile 8 0 (by decide)
  · subst h1
    exact hfile 12 1 (by decide)
  · exact ⟨⟨fun _ => rfl, fun _ => rfl⟩, fun _ => rfl, rfl⟩

/-- A call on a table without pseudo devices, with the answer to the
duplication it may make. -/
def fileRequest (call : FdCall) (handle : HandleAnswer) : FdRequest where
  call := call
  devices := fun _ => ⟨.vnon, 0, 0, .unknown, 0, 0, 0, 0, 0⟩
  opening := ⟨.fail errorFileNotFound, .ok (), errorFileNotFound,
    ⟨.vnon, 0, 0, .unknown, 0, 0, 0, 0, 0⟩, ⟨.vnon, 0, 0, .unknown, 0, 0, 0, 0, 0⟩, none⟩
  duplicating := ⟨handle, .fail errorInvalidHandle⟩
  closing := ⟨.ok, .ok, .ok, .ok, .ok⟩

theorem fileRequest_reported {call : FdCall} {handle : HandleAnswer}
    (h : handle.Reported) : (fileRequest call handle).Reported := by
  have hfound : errnoPosix errorFileNotFound ≠ 0 := by decide
  have hlist : ∀ e, (fileRequest call handle).opening.list = .error e → errnoPosix e ≠ 0 := by
    intro e he
    cases he
  exact ⟨⟨hfound, hlist, hfound⟩,
    ⟨h, by change errnoPosix errorInvalidHandle ≠ 0; decide⟩,
    ⟨trivial, trivial, trivial, trivial, trivial⟩⟩

theorem descriptors_served_twoFiles :
    Along stepFds (fun s rq => rq.Served s) twoFiles
      [fileRequest (.dup 1) (.handle 16), fileRequest (.close 1) (.handle 20)] := by
  have hmeets : Along stepFds (fun s rq => rq.Meets s) twoFiles
      [fileRequest (.dup 1) (.handle 16), fileRequest (.close 1) (.handle 20)] := by
    refine ⟨⟨fileRequest_reported trivial, ?_⟩, ⟨fileRequest_reported trivial, ?_⟩, trivial⟩
    · rintro - h hdup
      have hoffered : HandleAnswer.handle 16 = .handle h := hdup.offered
      obtain rfl := HandleAnswer.handle.inj hoffered
      exact ⟨rfl, by decide⟩
    · rintro - hany
      exact absurd hany (by unfold ClearedAnyway; decide)
  exact (descriptors_served twoFiles_wf hmeets).1

/-- When the duplication fails, `dup2` fails, and the target is gone from the
table: its slot has become a second owner of the handle of the source. -/
theorem dup2_loses_target :
    TableWf twoFiles.node ∧
      ¬ Along stepFds (fun s rq => rq.Served s) twoFiles
        [fileRequest (.dup2 0 1) (.fail errorNotEnoughMemory)] := by
  refine ⟨twoFiles_wf, fun ⟨hserved, _⟩ => ?_⟩
  have hnode := hserved.failed (by decide)
  have hhandle := congrArg (fun node => (node 1).handle) hnode
  exact absurd hhandle (by decide)

end Files

end MinC.Sys
