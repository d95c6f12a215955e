import MinC.Vfs.Node

/-!
What a duplicate is.

The five members of the duplicating family agree in what they do when they
succeed: the new vnode owns a handle that Windows has just made, to the end
that the handle they chose gives access to. They differ in that choice.
`dupSource` is the choice; everything else about a duplicate is `Duplicated`.
-/

namespace MinC.Vfs

open MinC.Lib MinC.Win

/-! ### What a vnode denotes -/

/-- The end a vnode gives access to. A vnode on a pseudo device that has no
handle of its own stands for the side of the device its slot belongs to. -/
def denotes (devices : UInt32 → WinDevice) (t : Handles) (p : Proc) (node : WinVnode) :
    Option ObjectEnd :=
  if node.fsType = .pdo ∧ node.handle = invalidHandle then
    endOf t p ((devices node.deviceId).side node.fileId)
  else endOf t p node.handle

/-- The handle a duplicate is made of. -/
def dupSource (devices : UInt32 → WinDevice) (node : WinVnode) (fileId : Nat) : Nat :=
  match node.fsType with
  | .pdo => (devices node.deviceId).side fileId
  | .mailslot => (devices node.deviceId).side fileId
  | _ => node.handle

/-! ### What a duplicate is -/

/-- A vnode was made the owner of a new handle to what a source gives access to. -/
structure Duplicated (t t' : Handles) (target : Proc) (source h : Nat)
    (result result' : WinVnode) : Prop where
  handle : result'.handle = h
  ends : endOf t' target h = endOf t .current source
  isOpen : endOf t .current source ≠ none
  ne_null : h ≠ nullHandle
  ne_invalid : h ≠ invalidHandle
  fileId : result'.fileId = result.fileId
  closeExec : result'.closeExec = result.closeExec
  access : result.access ≠ 0 → result'.access ≠ 0

section
variable {t t' : Handles} {target : Proc} {closeSource : Bool} {os : DupAnswers}
  {node result result' : WinVnode} {device : WinDevice}

/-- Duplicating the event after the handle leaves the new handle as it is,
unless the source is given up to the same process. -/
theorem endOf_after_event {t1 t2 : Handles} {h hEvent event : Nat} {inherit : Bool}
    {answer : HandleAnswer} (hproc : closeSource = true → target ≠ .current)
    (hopen : endOf t1 target h ≠ none)
    (hevent : duplicateHandle t1 event target inherit closeSource answer = (.ok hEvent, t2)) :
    endOf t2 target h = endOf t1 target h := by
  have hok := duplicable_of_ok hevent
  obtain ⟨entry, -, heq⟩ := hok.eq inherit
  have ht2 : t2 = (surrender t1 closeSource event).put target hEvent
      { entry with inherit := inherit } := congrArg Prod.snd (hevent.symm.trans heq)
  have hsame : surrender t1 closeSource event target = t1 target :=
    surrender_keeps t1 event hproc
  have hne : h ≠ hEvent := by
    rintro rfl
    apply hopen
    have hunused := hok.fresh.unused
    rw [hsame] at hunused
    simp [endOf, opened, hunused]
  subst ht2
  simp [endOf, opened, HandleTables.put_of_ne _ _ _ hne, hsame]

/-- A vnode that was given the handle of a duplication, and whose slot and
access were left as they were, is a duplicate. -/
theorem duplicated_of {t1 : Handles} {source h : Nat} {inherit : Bool} {answer : HandleAnswer}
    (hhandle : duplicateHandle t source target inherit closeSource answer = (.ok h, t1))
    (hkept : endOf t' target h = endOf t1 target h) (howns : result'.handle = h)
    (hfileId : result'.fileId = result.fileId) (hexec : result'.closeExec = result.closeExec)
    (haccess : result.access ≠ 0 → result'.access ≠ 0) :
    ∃ h, Duplicated t t' target source h result result' ∧
      Duplicable t source target closeSource answer h := by
  have hok := duplicable_of_ok hhandle
  obtain ⟨hends, hopen⟩ := duplicateHandle_ends hhandle
  exact ⟨h, ⟨howns, hkept.trans hends, hopen, hok.fresh.ne_null, hok.fresh.ne_invalid,
    hfileId, hexec, haccess⟩, hok⟩

theorem adopt_ok {duplicate : Except UInt32 Nat × Handles} {own : Nat → Handles → WinVnode}
    (hdup : adopt duplicate result own = (.ok (), result', t')) :
    ∃ h, duplicate = (.ok h, t') ∧ result' = own h t' := by
  obtain ⟨e | h, t1⟩ := duplicate
  · simp [adopt] at hdup
  · simp only [adopt, Prod.mk.injEq, true_and] at hdup
    obtain ⟨rfl, rfl⟩ := hdup
    exact ⟨h, rfl, rfl⟩

theorem adopt_error {duplicate : Except UInt32 Nat × Handles} {own : Nat → Handles → WinVnode}
    {e : UInt32} (hdup : adopt duplicate result own = (.error e, result', t')) :
    result' = result ∧ duplicate = (.error e, t') := by
  obtain ⟨e1 | h, t1⟩ := duplicate
  · simp only [adopt, Prod.mk.injEq, Except.error.injEq] at hdup
    obtain ⟨rfl, rfl, rfl⟩ := hdup
    exact ⟨rfl, rfl⟩
  · simp [adopt] at hdup

/-! ### The members of the family -/

/-- Both handles of a pipe are duplicated, one after the other. -/
theorem pipeFDupfd_adopts
    (hdup : pipeFDupfd t target closeSource os node result = (.ok (), result', t')) :
    ∃ h hEvent t1,
      duplicateHandle t node.handle target node.inherits closeSource os.handle = (.ok h, t1) ∧
      duplicateHandle t1 node.event target node.inherits closeSource os.event = (.ok hEvent, t') ∧
      result' = { result with handle := h, event := hEvent } := by
  unfold pipeFDupfd at hdup
  rcases hhandle : duplicateHandle t node.handle target node.inherits closeSource os.handle with
    ⟨e | h, t1⟩
  · simp [hhandle] at hdup
  · simp only [hhandle] at hdup
    obtain ⟨hEvent, hevent, rfl⟩ := adopt_ok hdup
    exact ⟨h, hEvent, t1, rfl, hevent, rfl⟩

theorem pipeFDupfd_ok (hproc : closeSource = true → target ≠ .current)
    (hdup : pipeFDupfd t target closeSource os node result = (.ok (), result', t')) :
    ∃ h, Duplicated t t' target node.handle h result result' ∧
      Duplicable t node.handle target closeSource os.handle h := by
  obtain ⟨h, hEvent, t1, hhandle, hevent, rfl⟩ := pipeFDupfd_adopts hdup
  obtain ⟨hends, hopen⟩ := duplicateHandle_ends hhandle
  have hkept := endOf_after_event hproc (by rw [hends]; exact hopen) hevent
  exact duplicated_of hhandle hkept rfl rfl rfl id

theorem charFDupfd_ok
    (hdup : charFDupfd t target closeSource os node result = (.ok (), result', t')) :
    ∃ h, Duplicated t t' target node.handle h result result' ∧
      Duplicable t node.handle target closeSource os.handle h := by
  obtain ⟨h, hhandle, rfl⟩ := adopt_ok hdup
  exact duplicated_of hhandle rfl rfl rfl rfl id

theorem diskFDupfd_ok
    (hdup : diskFDupfd t target closeSource os node result = (.ok (), result', t')) :
    ∃ h, Duplicated t t' target node.handle h result result' ∧
      Duplicable t node.handle target closeSource os.handle h := by
  obtain ⟨h, hhandle, rfl⟩ := adopt_ok hdup
  exact duplicated_of hhandle rfl rfl rfl rfl id

theorem deviceFDupfd_ok {own : Nat → Handles → WinVnode}
    (hdup : deviceFDupfd t target closeSource os device result own = (.ok (), result', t')) :
    ∃ h, duplicateHandle t (device.side result.fileId) target true closeSource os.handle =
      (.ok h, t') ∧ result' = own h t' := by
  unfold deviceFDupfd at hdup
  by_cases hnull : device.side result.fileId = nullHandle
  · simp [hnull] at hdup
  · rw [if_neg hnull] at hdup
    exact adopt_ok hdup

theorem pdoFDupfd_ok
    (hdup : pdoFDupfd t target closeSource os device result = (.ok (), result', t')) :
    ∃ h, Duplicated t t' target (device.side result.fileId) h result result' ∧
      Duplicable t (device.side result.fileId) target closeSource os.handle h := by
  obtain ⟨h, hhandle, rfl⟩ := deviceFDupfd_ok hdup
  exact duplicated_of hhandle rfl rfl rfl rfl id

theorem mailFDupfd_ok
    (hdup : mailFDupfd t target closeSource os device result = (.ok (), result', t')) :
    ∃ h, Duplicated t t' target (device.side result.fileId) h result result' ∧
      Duplicable t (device.side result.fileId) target closeSource os.handle h := by
  obtain ⟨h, hhandle, rfl⟩ := deviceFDupfd_ok hdup
  exact duplicated_of hhandle rfl rfl rfl rfl fun _ => winFGetfl_ne_zero t' h

variable {devices : UInt32 → WinDevice}

/-- Whatever the file system, a successful duplication makes a duplicate of the
handle that was chosen. -/
theorem dupByType_ok (hproc : closeSource = true → target ≠ .current)
    (hdup : dupByType t target closeSource os devices node result = (.ok (), result', t')) :
    ∃ h, Duplicated t t' target (dupSource devices node result.fileId) h result result' ∧
      Duplicable t (dupSource devices node result.fileId) target closeSource os.handle h := by
  unfold dupByType at hdup
  unfold dupSource
  cases hfs : node.fsType <;> simp only [hfs] at hdup ⊢
  case winsock => exact pipeFDupfd_ok hproc hdup
  case pipe => exact pipeFDupfd_ok hproc hdup
  case char => exact charFDupfd_ok hdup
  case disk => exact diskFDupfd_ok hdup
  case pdo => exact pdoFDupfd_ok hdup
  case mailslot => exact mailFDupfd_ok hdup
  all_goals simp at hdup

/-! ### What stays open -/

theorem adopt_table (duplicate : Except UInt32 Nat × Handles) (result : WinVnode)
    (own : Nat → Handles → WinVnode) : (adopt duplicate result own).2.2 = duplicate.2 := by
  obtain ⟨e | h, t1⟩ := duplicate <;> rfl

section
variable {p : Proc} (hp : closeSource = true → p ≠ .current)
include hp

theorem grows_adopt (source : Nat) (inherit : Bool) (answer : HandleAnswer)
    (own : Nat → Handles → WinVnode) :
    Grows t (adopt (duplicateHandle t source target inherit closeSource answer) result own).2.2
      p := by
  rw [adopt_table]
  exact grows_duplicateHandle hp source inherit answer

theorem grows_pipeFDupfd : Grows t (pipeFDupfd t target closeSource os node result).2.2 p := by
  have hfirst : Grows t
      (duplicateHandle t node.handle target node.inherits closeSource os.handle).2 p :=
    grows_duplicateHandle hp node.handle node.inherits os.handle
  unfold pipeFDupfd
  rcases hhandle : duplicateHandle t node.handle target node.inherits closeSource os.handle with
    ⟨e | h, t1⟩
  · rw [hhandle] at hfirst
    exact hfirst
  · rw [hhandle] at hfirst
    exact hfirst.trans (grows_adopt hp node.event node.inherits os.event _)

theorem grows_deviceFDupfd (own : Nat → Handles → WinVnode) :
    Grows t (deviceFDupfd t target closeSource os device result own).2.2 p := by
  unfold deviceFDupfd
  split
  · exact Grows.refl t p
  · exact grows_adopt hp _ true os.handle own

/-- Where no source is given up, a duplication only adds to the handles of a
process, also when it fails. -/
theorem grows_dupByType (devices : UInt32 → WinDevice) :
    Grows t (dupByType t target closeSource os devices node result).2.2 p := by
  unfold dupByType
  cases node.fsType <;> simp only
  case winsock => exact grows_pipeFDupfd hp
  case pipe => exact grows_pipeFDupfd hp
  case char => exact grows_adopt hp _ _ _ _
  case disk => exact grows_adopt hp _ _ _ _
  case pdo => exact grows_deviceFDupfd hp _
  case mailslot => exact grows_deviceFDupfd hp _
  all_goals exact Grows.refl t p

end

/-! ### When a duplication goes through -/

/-- The handle of a pipe and then its event are duplicated. -/
def PairDuplicable (t : Handles) (target : Proc) (closeSource : Bool) (os : DupAnswers)
    (node : WinVnode) : Prop :=
  (∃ h, Duplicable t node.handle target closeSource os.handle h) ∧
    ∃ hEvent, Duplicable
      (duplicateHandle t node.handle target node.inherits closeSource os.handle).2
      node.event target closeSource os.event hEvent

/-- The duplication of a vnode goes through. -/
def Goes (t : Handles) (target : Proc) (closeSource : Bool) (os : DupAnswers)
    (devices : UInt32 → WinDevice) (node : WinVnode) (fileId : Nat) : Prop :=
  match node.fsType with
  | .winsock => PairDuplicable t target closeSource os node
  | .pipe => PairDuplicable t target closeSource os node
  | .char => ∃ h, Duplicable t node.handle target closeSource os.handle h
  | .disk => ∃ h, Duplicable t node.handle target closeSource os.handle h
  | .pdo => ∃ h, Duplicable t ((devices node.deviceId).side fileId) target closeSource os.handle h
  | .mailslot =>
      ∃ h, Duplicable t ((devices node.deviceId).side fileId) target closeSource os.handle h
  | _ => False

theorem adopt_ok_iff {source : Nat} {inherit : Bool} {answer : HandleAnswer}
    {own : Nat → Handles → WinVnode} :
    (∃ v t', adopt (duplicateHandle t source target inherit closeSource answer) result own =
        (.ok (), v, t')) ↔
      ∃ h, Duplicable t source target closeSource answer h := by
  constructor
  · rintro ⟨v, t', hdup⟩
    obtain ⟨h, hhandle, -⟩ := adopt_ok hdup
    exact ⟨h, duplicable_of_ok hhandle⟩
  · rintro ⟨h, hcan⟩
    obtain ⟨entry, -, heq⟩ := hcan.eq inherit
    exact ⟨_, _, by rw [heq]; rfl⟩

theorem pipeFDupfd_ok_iff :
    (∃ v t', pipeFDupfd t target closeSource os node result = (.ok (), v, t')) ↔
      PairDuplicable t target closeSource os node := by
  unfold pipeFDupfd PairDuplicable
  rcases hhandle : duplicateHandle t node.handle target node.inherits closeSource os.handle with
    ⟨e | h, t1⟩
  · refine ⟨fun ⟨v, t', h⟩ => by simp at h, fun ⟨⟨h, hcan⟩, _⟩ => ?_⟩
    obtain ⟨entry, -, heq⟩ := hcan.eq node.inherits
    simp [heq] at hhandle
  · have hfirst : ∃ h, Duplicable t node.handle target closeSource os.handle h :=
      ⟨h, duplicable_of_ok hhandle⟩
    exact adopt_ok_iff.trans (and_iff_right hfirst).symm

theorem deviceFDupfd_ok_iff {own : Nat → Handles → WinVnode} :
    (∃ v t', deviceFDupfd t target closeSource os device result own = (.ok (), v, t')) ↔
      ∃ h, Duplicable t (device.side result.fileId) target closeSource os.handle h := by
  unfold deviceFDupfd
  by_cases hnull : device.side result.fileId = nullHandle
  · rw [if_pos hnull]
    refine ⟨fun ⟨v, t', h⟩ => by simp at h, fun ⟨h, hcan⟩ => absurd ?_ hcan.isOpen⟩
    simp [opened, hnull]
  · rw [if_neg hnull]
    exact adopt_ok_iff

theorem dupByType_ok_iff :
    (∃ v t', dupByType t target closeSource os devices node result = (.ok (), v, t')) ↔
      Goes t target closeSource os devices node result.fileId := by
  unfold dupByType Goes
  cases hfs : node.fsType <;> simp only
  case winsock => exact pipeFDupfd_ok_iff
  case pipe => exact pipeFDupfd_ok_iff
  case char => exact adopt_ok_iff
  case disk => exact adopt_ok_iff
  case pdo => exact deviceFDupfd_ok_iff
  case mailslot => exact deviceFDupfd_ok_iff
  all_goals simp

/-! ### Failures -/

def DupAnswers.Reported (os : DupAnswers) : Prop := os.handle.Reported ∧ os.event.Reported

section
variable {e : UInt32} (hrep : os.Reported)
include hrep

theorem pipeFDupfd_error
    (hdup : pipeFDupfd t target closeSource os node result = (.error e, result', t')) :
    result' = result ∧ errnoPosix e ≠ 0 := by
  unfold pipeFDupfd at hdup
  rcases hhandle : duplicateHandle t node.handle target node.inherits closeSource os.handle with
    ⟨e1 | h, t1⟩
  · simp only [hhandle, Prod.mk.injEq, Except.error.injEq] at hdup
    obtain ⟨rfl, rfl, rfl⟩ := hdup
    exact ⟨rfl, duplicateHandle_error hrep.1 hhandle⟩
  · simp only [hhandle] at hdup
    obtain ⟨hsame, hevent⟩ := adopt_error hdup
    exact ⟨hsame, duplicateHandle_error hrep.2 hevent⟩

theorem deviceFDupfd_error {own : Nat → Handles → WinVnode}
    (hdup : deviceFDupfd t target closeSource os device result own = (.error e, result', t')) :
    result' = result ∧ errnoPosix e ≠ 0 := by
  unfold deviceFDupfd at hdup
  by_cases hnull : device.side result.fileId = nullHandle
  · simp only [hnull, if_true, Prod.mk.injEq, Except.error.injEq] at hdup
    obtain ⟨rfl, rfl, rfl⟩ := hdup
    exact ⟨rfl, by decide⟩
  · rw [if_neg hnull] at hdup
    obtain ⟨hsame, hhandle⟩ := adopt_error hdup
    exact ⟨hsame, duplicateHandle_error hrep.1 hhandle⟩

/-- A failed duplication leaves the vnode it was to fill, and an error that is
reported as one. -/
theorem dupByType_error
    (hdup : dupByType t target closeSource os devices node result = (.error e, result', t')) :
    result' = result ∧ errnoPosix e ≠ 0 := by
  have hadopt : ∀ own, adopt (duplicateHandle t node.handle target node.inherits closeSource
      os.handle) result own = (.error e, result', t') → result' = result ∧ errnoPosix e ≠ 0 := by
    intro own h
    obtain ⟨hsame, hhandle⟩ := adopt_error h
    exact ⟨hsame, duplicateHandle_error hrep.1 hhandle⟩
  unfold dupByType at hdup
  cases hfs : node.fsType <;> simp only [hfs] at hdup
  case winsock => exact pipeFDupfd_error hrep hdup
  case pipe => exact pipeFDupfd_error hrep hdup
  case char => exact hadopt _ hdup
  case disk => exact hadopt _ hdup
  case pdo => exact deviceFDupfd_error hrep hdup
  case mailslot => exact deviceFDupfd_error hrep hdup
  all_goals
    simp only [Prod.mk.injEq, Except.error.injEq] at hdup
    obtain ⟨rfl, rfl, rfl⟩ := hdup
    exact ⟨rfl, by decide⟩

end

end

end MinC.Vfs
