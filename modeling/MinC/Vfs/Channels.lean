import MinC.Lib.Slots
import MinC.Vfs.Close
import MinC.Vfs.Duplicate
import Mathlib.Tactic.SplitIfs

/-!
The descriptors of a new process.

A child is forked as a thread of the process it comes from, with a table of
its own: every used slot is duplicated into the slot of the same number. A new
image is a process of its own. It starts with the handles that are marked as
inheritable, under the values they have here; the other used slots are handed
down one by one or closed, and the table changes hands as it is.

Both loops ignore what becomes of a single slot. Since the new process is
already running while they do their work, what is asked of a slot is asked
from its turn on.
-/

namespace MinC.Vfs

open MinC.Lib MinC.Win

def winOpenMax : Nat := 64

/-- The table that is made ready, and the handles of the processes. -/
structure Channels where
  node : Nat → WinVnode
  handles : Handles

/-! ### The loops -/

section
variable (devices : UInt32 → WinDevice) (duplicating : Nat → DupAnswers)

/-- One turn of `ProcDupChannels`. -/
def dupChannel (nodes : Nat → WinVnode) (s : Channels) (dwIndex : Nat) : Channels :=
  let result := { s.node dwIndex with fileId := dwIndex }
  if (nodes dwIndex).access ≠ 0 then
    let (_, result, t) := vfsFDupfd devices (duplicating dwIndex) s.handles (nodes dwIndex)
      (nodes dwIndex).closeExec result
    ⟨Function.update s.node dwIndex result, t⟩
  else ⟨Function.update s.node dwIndex result, s.handles⟩

def procDupChannels (nodes : Nat → WinVnode) (s : Channels) : Channels :=
  sweep (dupChannel devices duplicating nodes) s winOpenMax

/-- What `ProcDupChannels` starts with: the table of a new task is cleared. -/
def forked (t : Handles) : Channels := ⟨fun _ => .zero, t⟩

/-- `proc_dup`, as far as it concerns descriptors. -/
def procDup (nodes : Nat → WinVnode) (t : Handles) : Channels :=
  procDupChannels devices duplicating nodes (forked t)

variable (closing : Nat → CloseAnswers)

/-- One turn of `ProcInheritChannels`. -/
def inheritChannel (s : Channels) (dwIndex : Nat) : Channels :=
  let node := s.node dwIndex
  if node.access ≠ 0 then
    if node.closeExec then
      let (_, node, t) := vfsClose s.handles (closing dwIndex) node
      ⟨Function.update s.node dwIndex node, t⟩
    else if ¬ node.inherits then
      let (_, node, t) := vfsFInherit devices (duplicating dwIndex) s.handles node
      ⟨Function.update s.node dwIndex node, t⟩
    else s
  else s

def procInheritChannels (s : Channels) : Channels :=
  sweep (inheritChannel devices duplicating closing) s winOpenMax

/-- `CreateProcess` with inheritance of handles. -/
def createProcess (t : Handles) : Handles :=
  Function.update t .created fun h => (t .current h).filter (·.inherit)

/-- What `ProcInheritChannels` starts with. -/
def executed (nodes : Nat → WinVnode) (t : Handles) : Channels := ⟨nodes, createProcess t⟩

/-- `proc_execve`, once the process was created and as far as it concerns
descriptors. -/
def procExecve (nodes : Nat → WinVnode) (t : Handles) : Channels :=
  procInheritChannels devices duplicating closing (executed nodes t)

end

/-! ### What a slot gives access to -/

/-- What is open behind a slot: the end of an object that a handle is to, a
device without a handle for the slot, or a local socket that is not bound. -/
inductive OpenObject
  | handle (e : ObjectEnd)
  | device (id : UInt32)
  | unbound
  deriving DecidableEq

/-- What is open behind the vnode in the slot of a number. -/
def openObject (devices : UInt32 → WinDevice) (t : Handles) (p : Proc) (fd : Nat)
    (node : WinVnode) : Option OpenObject :=
  if node.handle = invalidHandle then
    match node.fsType with
    | .pdo =>
        if (devices node.deviceId).side fd = nullHandle then some (.device node.deviceId)
        else (endOf t p ((devices node.deviceId).side fd)).map .handle
    | .pipe => some .unbound
    | _ => (endOf t p node.handle).map .handle
  else (endOf t p node.handle).map .handle

/-- Where a vnode has an event, it is open. -/
def EventFine (t : Handles) (p : Proc) (event : Nat) : Prop :=
  event = nullHandle ∨ opened t p event ≠ none

/-- Where a vnode has an object, it is open: a directory has the handle of a search,
which only the process that searches knows, and a node of a device the handle of the
node. The options of a socket have the same place. -/
def ObjectFine (searches : Nat → Bool) (t : Handles) (p : Proc) (node : WinVnode) : Prop :=
  node.object = 0 ∨ node.fileType = .vsock ∨
    if node.fileType = .vdir then p = .current ∧ searches node.object = true
    else opened t p node.object ≠ none

/-- No value a vnode holds is one that is not open. -/
structure NotStale (searches : Nat → Bool) (t : Handles) (p : Proc) (node : WinVnode) :
    Prop where
  handle : node.handle = nullHandle ∨ node.handle = invalidHandle ∨
    opened t p node.handle ≠ none
  event : EventFine t p node.event
  held : ObjectFine searches t p node

/-- The vnode in a slot gives an access to an open object, through handles that
are open. -/
structure GivesAccess (searches : Nat → Bool) (devices : UInt32 → WinDevice) (t : Handles)
    (p : Proc) (fd : Nat) (object : Option OpenObject) (access : UInt32) (node : WinVnode) :
    Prop where
  object : openObject devices t p fd node = object
  access : node.access = access
  event : EventFine t p node.event
  held : ObjectFine searches t p node

section
variable {searches : Nat → Bool} {devices : UInt32 → WinDevice} {t t' : Handles} {p : Proc}
  {fd : Nat} {object : Option OpenObject} {access : UInt32} {node : WinVnode}

theorem openObject_congr (h : t p = t' p) :
    openObject devices t p fd node = openObject devices t' p fd node := by
  have hend : ∀ x, endOf t p x = endOf t' p x := by
    intro x
    simp only [endOf, opened, h]
  simp only [openObject, hend]

theorem eventFine_congr (h : t p = t' p) (event : Nat) :
    EventFine t p event ↔ EventFine t' p event := by
  simp only [EventFine, opened, h]

theorem objectFine_congr (h : t p = t' p) :
    ObjectFine searches t p node ↔ ObjectFine searches t' p node := by
  simp only [ObjectFine, opened, h]

theorem givesAccess_congr (h : t p = t' p) :
    GivesAccess searches devices t p fd object access node ↔
      GivesAccess searches devices t' p fd object access node := by
  constructor
  · rintro ⟨ho, ha, he, hheld⟩
    exact ⟨(openObject_congr h).symm.trans ho, ha, (eventFine_congr h _).mp he,
      (objectFine_congr h).mp hheld⟩
  · rintro ⟨ho, ha, he, hheld⟩
    exact ⟨(openObject_congr h).trans ho, ha, (eventFine_congr h _).mpr he,
      (objectFine_congr h).mpr hheld⟩

theorem opened_ne_none_mono (hgrows : Grows t t' p) {x : Nat} (h : opened t p x ≠ none) :
    opened t' p x ≠ none := by
  obtain ⟨e, he⟩ := Option.ne_none_iff_exists'.mp h
  simp [hgrows.opened he]

theorem EventFine.mono (hgrows : Grows t t' p) {event : Nat} (h : EventFine t p event) :
    EventFine t' p event := h.imp id (opened_ne_none_mono hgrows)

theorem ObjectFine.of_opened (h : ObjectFine searches t p node)
    (hopen : opened t p node.object ≠ none → opened t' p node.object ≠ none) :
    ObjectFine searches t' p node := by
  refine h.imp id (Or.imp id fun hheld => ?_)
  split_ifs at hheld ⊢
  · exact hheld
  · exact hopen hheld

theorem ObjectFine.mono (hgrows : Grows t t' p) (h : ObjectFine searches t p node) :
    ObjectFine searches t' p node :=
  h.of_opened (opened_ne_none_mono hgrows)

theorem NotStale.mono (hgrows : Grows t t' p) (h : NotStale searches t p node) :
    NotStale searches t' p node :=
  ⟨h.handle.imp id (Or.imp id (opened_ne_none_mono hgrows)), h.event.mono hgrows,
    h.held.mono hgrows⟩

/-- What is open stays open where handles are only added. -/
theorem openObject_mono (hgrows : Grows t t' p) (hopen : openObject devices t p fd node ≠ none) :
    openObject devices t' p fd node = openObject devices t p fd node := by
  have hend : ∀ x, (endOf t p x).map OpenObject.handle ≠ none →
      (endOf t' p x).map OpenObject.handle = (endOf t p x).map OpenObject.handle := by
    intro x hx
    rw [hgrows.endOf]
    rintro hnone
    simp [hnone] at hx
  unfold openObject at hopen ⊢
  by_cases hinvalid : node.handle = invalidHandle
  · simp only [if_pos hinvalid] at hopen ⊢
    cases hfs : node.fsType <;> simp only [hfs] at hopen ⊢
    case pdo =>
      by_cases hside : (devices node.deviceId).side fd = nullHandle
      · simp only [if_pos hside]
      · simp only [if_neg hside] at hopen ⊢
        exact hend _ hopen
    all_goals exact hend _ hopen
  · simp only [if_neg hinvalid] at hopen ⊢
    exact hend _ hopen

theorem GivesAccess.mono (hgrows : Grows t t' p) (hopen : object ≠ none)
    (h : GivesAccess searches devices t p fd object access node) :
    GivesAccess searches devices t' p fd object access node := by
  refine ⟨?_, h.access, h.event.mono hgrows, h.held.mono hgrows⟩
  rw [openObject_mono hgrows (by rw [h.object]; exact hopen), h.object]

end

/-! ### What a duplication leaves in a slot -/

/-- The event that a duplicate is left with where none was made for it. -/
def eventKept (devices : UInt32 → WinDevice) (node : WinVnode) : Option Nat :=
  match node.fsType with
  | .disk => some node.event
  | .mailslot => some node.event
  | .pdo => some (devices node.deviceId).event
  | _ => none

/-- The access a duplicate is left with: mail slots ask the running process for
it, whatever process the new handle is for. -/
def accessClaimed (t : Handles) (target : Proc) (closeSource : Bool) (answer : HandleAnswer)
    (devices : UInt32 → WinDevice) (node : WinVnode) (fileId : Nat) : UInt32 :=
  match node.fsType, answer with
  | .mailslot, .handle h =>
      winFGetfl (duplicateHandle t ((devices node.deviceId).side fileId) target true closeSource
        answer).2 h
  | _, _ => node.access

/-- Two handles are duplicated of the vnode. -/
def Paired (node : WinVnode) : Prop := node.fsType = .winsock ∨ node.fsType = .pipe

/-- A handle that Windows offers for a duplicate of the vnode. -/
def Offers (os : DupAnswers) (node : WinVnode) (x : Nat) : Prop :=
  os.handle = .handle x ∨ Paired node ∧ os.event = .handle x

/-- A duplicate would be what it is to be. -/
structure GoodDuplicate (searches : Nat → Bool) (t : Handles) (target : Proc)
    (closeSource : Bool) (os : DupAnswers) (devices : UInt32 → WinDevice) (node : WinVnode)
    (fileId : Nat) (object : Option OpenObject) (access : UInt32) : Prop where
  object : (endOf t .current (dupSource devices node fileId)).map .handle = object
  access : accessClaimed t target closeSource os.handle devices node fileId = access
  event : ∀ event, eventKept devices node = some event →
    EventFine t target event ∨ os.handle = .handle event
  held : ObjectFine searches t target node ∨
    node.fileType ≠ .vdir ∧ Offers os node node.object

/-- The tables when a duplication has failed, as far as the target is concerned:
of a pair, the first handle may have been made. -/
def halfway (t : Handles) (target : Proc) (closeSource : Bool) (os : DupAnswers)
    (node : WinVnode) : Handles :=
  match node.fsType with
  | .winsock => (duplicateHandle t node.handle target node.inherits closeSource os.handle).2
  | .pipe => (duplicateHandle t node.handle target node.inherits closeSource os.handle).2
  | _ => t

section
variable {t t' : Handles} {target : Proc} {closeSource : Bool} {os : DupAnswers}
  {devices : UInt32 → WinDevice} {node result v : WinVnode}
  (hproc : closeSource = true → target ≠ .current)
include hproc

theorem opened_after {source h : Nat} {inherit : Bool} {answer : HandleAnswer}
    (hdup : duplicateHandle t source target inherit closeSource answer = (.ok h, t'))
    (x : Nat) :
    opened t' target x ≠ none ↔ opened t target x ≠ none ∨ answer = .handle x := by
  have hok := duplicable_of_ok hdup
  obtain ⟨entry, -, heq⟩ := hok.eq inherit
  have ht : t' = (surrender t closeSource source).put target h { entry with inherit := inherit } :=
    congrArg Prod.snd (hdup.symm.trans heq)
  have hsame : surrender t closeSource source target = t target := surrender_keeps t source hproc
  have hanswer : answer = .handle x ↔ x = h := by
    rw [hok.offered, HandleAnswer.handle.injEq]
    exact eq_comm
  rw [hanswer]
  by_cases hxh : x = h
  · subst hxh
    subst ht
    simp [opened, hok.fresh.ne_null]
  · subst ht
    simp [opened, hxh, hsame]

theorem eventFine_after {source h : Nat} {inherit : Bool} {answer : HandleAnswer}
    (hdup : duplicateHandle t source target inherit closeSource answer = (.ok h, t'))
    (event : Nat) :
    EventFine t' target event ↔ EventFine t target event ∨ answer = .handle event := by
  rw [EventFine, EventFine, opened_after hproc hdup, or_assoc]

theorem duplicateHandle_failed {source : Nat} {inherit : Bool} {answer : HandleAnswer} {e : UInt32}
    (hdup : duplicateHandle t source target inherit closeSource answer = (.error e, t')) :
    t' target = t target := by
  have hsame : surrender t closeSource source target = t target := surrender_keeps t source hproc
  have hsnd := congrArg Prod.snd hdup
  unfold duplicateHandle at hdup hsnd
  cases hopen : opened t .current source with
  | none => simpa [hopen] using congrArg (· target) hsnd.symm
  | some entry =>
      cases answer with
      | fail e1 =>
          simp only [hopen] at hsnd
          rw [← hsnd, hsame]
      | handle h =>
          by_cases hfresh : Fresh (surrender t closeSource source) target h
          · simp [hopen, hfresh] at hdup
          · simp only [hopen, hfresh, if_false] at hsnd
            rw [← hsnd, hsame]

/-- The event of a duplicate is open, or would be anyway. -/
theorem event_of_goes (hsame : result.event = node.event)
    (hdup : dupByType t target closeSource os devices node result = (.ok (), v, t')) :
    EventFine t' target v.event ↔ ∀ event, eventKept devices node = some event →
      EventFine t target event ∨ os.handle = .handle event := by
  -- an event that was duplicated is open, one that was copied may be anything
  have hmade : ∀ {t1 : Handles} {source h : Nat} {inherit : Bool} {answer : HandleAnswer},
      duplicateHandle t1 source target inherit closeSource answer = (.ok h, t') →
      EventFine t' target h := by
    intro t1 source h inherit answer hh
    obtain ⟨hends, hopen⟩ := duplicateHandle_ends hh
    right
    intro hnone
    rw [← hends] at hopen
    simp [endOf, hnone] at hopen
  have hleft : ∀ {source h : Nat} {inherit : Bool} (event : Nat),
      duplicateHandle t source target inherit closeSource os.handle = (.ok h, t') →
      (EventFine t' target event ↔ ∀ event', some event = some event' →
        EventFine t target event' ∨ os.handle = .handle event') := by
    intro source h inherit event hh
    simpa using eventFine_after hproc hh event
  unfold dupByType at hdup
  unfold eventKept
  cases hfs : node.fsType <;> simp only [hfs] at hdup ⊢
  case winsock =>
    obtain ⟨_, _, _, -, hevent, rfl⟩ := pipeFDupfd_adopts hdup
    exact iff_of_true (hmade hevent) (by simp)
  case pipe =>
    obtain ⟨_, _, _, -, hevent, rfl⟩ := pipeFDupfd_adopts hdup
    exact iff_of_true (hmade hevent) (by simp)
  case char =>
    obtain ⟨h, hhandle, rfl⟩ := adopt_ok hdup
    exact iff_of_true (hmade hhandle) (by simp)
  case disk =>
    obtain ⟨h, hhandle, rfl⟩ := adopt_ok hdup
    simpa only [hsame] using hleft node.event hhandle
  case pdo =>
    obtain ⟨h, hhandle, rfl⟩ := deviceFDupfd_ok hdup
    exact hleft _ hhandle
  case mailslot =>
    obtain ⟨h, hhandle, rfl⟩ := deviceFDupfd_ok hdup
    simpa only [hsame] using hleft node.event hhandle
  all_goals simp at hdup

omit hproc in
theorem access_of_goes (hsame : result.access = node.access)
    (hdup : dupByType t target closeSource os devices node result = (.ok (), v, t')) :
    v.access = accessClaimed t target closeSource os.handle devices node result.fileId := by
  unfold dupByType at hdup
  unfold accessClaimed
  cases hfs : node.fsType <;> simp only [hfs] at hdup ⊢
  case winsock =>
    obtain ⟨_, _, _, -, -, rfl⟩ := pipeFDupfd_adopts hdup
    exact hsame
  case pipe =>
    obtain ⟨_, _, _, -, -, rfl⟩ := pipeFDupfd_adopts hdup
    exact hsame
  case char =>
    obtain ⟨h, hhandle, rfl⟩ := adopt_ok hdup
    exact hsame
  case disk =>
    obtain ⟨h, hhandle, rfl⟩ := adopt_ok hdup
    exact hsame
  case pdo =>
    obtain ⟨h, hhandle, rfl⟩ := deviceFDupfd_ok hdup
    exact hsame
  case mailslot =>
    obtain ⟨h, hhandle, rfl⟩ := deviceFDupfd_ok hdup
    simp only [(duplicable_of_ok hhandle).offered] at hhandle ⊢
    rw [hhandle]
  all_goals simp at hdup

/-- More is open in the target once a duplication went through: what was offered. -/
theorem opened_of_goes
    (hdup : dupByType t target closeSource os devices node result = (.ok (), v, t')) (x : Nat) :
    opened t' target x ≠ none ↔ opened t target x ≠ none ∨ Offers os node x := by
  have hsingle : ∀ {source h : Nat} {inherit : Bool}, ¬ Paired node →
      duplicateHandle t source target inherit closeSource os.handle = (.ok h, t') →
      (opened t' target x ≠ none ↔ opened t target x ≠ none ∨ Offers os node x) := by
    intro source h inherit hnot hh
    rw [opened_after hproc hh, Offers]
    exact or_congr_right ⟨.inl, fun h => h.resolve_right fun hpair => hnot hpair.1⟩
  have hpair : Paired node →
      pipeFDupfd t target closeSource os node result = (.ok (), v, t') →
      (opened t' target x ≠ none ↔ opened t target x ≠ none ∨ Offers os node x) := by
    intro hpaired hpipe
    obtain ⟨_, _, t1, hhandle, hevent, -⟩ := pipeFDupfd_adopts hpipe
    rw [opened_after hproc hevent, opened_after hproc hhandle, Offers, or_assoc,
      and_iff_right hpaired]
  unfold dupByType at hdup
  cases hfs : node.fsType <;> simp only [hfs] at hdup
  case winsock => exact hpair (.inl hfs) hdup
  case pipe => exact hpair (.inr hfs) hdup
  case char =>
    obtain ⟨h, hhandle, -⟩ := adopt_ok hdup
    exact hsingle (by simp [Paired, hfs]) hhandle
  case disk =>
    obtain ⟨h, hhandle, -⟩ := adopt_ok hdup
    exact hsingle (by simp [Paired, hfs]) hhandle
  case pdo =>
    obtain ⟨h, hhandle, -⟩ := deviceFDupfd_ok hdup
    exact hsingle (by simp [Paired, hfs]) hhandle
  case mailslot =>
    obtain ⟨h, hhandle, -⟩ := deviceFDupfd_ok hdup
    exact hsingle (by simp [Paired, hfs]) hhandle
  all_goals simp at hdup

omit hproc in
/-- A duplicate is the same kind of file, with the same object. -/
theorem object_of_goes
    (hdup : dupByType t target closeSource os devices node result = (.ok (), v, t')) :
    v.object = result.object ∧ v.fileType = result.fileType := by
  unfold dupByType at hdup
  cases hfs : node.fsType <;> simp only [hfs] at hdup
  case winsock =>
    obtain ⟨_, _, _, -, -, rfl⟩ := pipeFDupfd_adopts hdup
    exact ⟨rfl, rfl⟩
  case pipe =>
    obtain ⟨_, _, _, -, -, rfl⟩ := pipeFDupfd_adopts hdup
    exact ⟨rfl, rfl⟩
  case char =>
    obtain ⟨_, -, rfl⟩ := adopt_ok hdup
    exact ⟨rfl, rfl⟩
  case disk =>
    obtain ⟨_, -, rfl⟩ := adopt_ok hdup
    exact ⟨rfl, rfl⟩
  case pdo =>
    obtain ⟨_, -, rfl⟩ := deviceFDupfd_ok hdup
    exact ⟨rfl, rfl⟩
  case mailslot =>
    obtain ⟨_, -, rfl⟩ := deviceFDupfd_ok hdup
    exact ⟨rfl, rfl⟩
  all_goals simp at hdup

theorem held_of_goes (searches : Nat → Bool) (hobject : result.object = node.object)
    (htype : result.fileType = node.fileType)
    (hdup : dupByType t target closeSource os devices node result = (.ok (), v, t')) :
    ObjectFine searches t' target v ↔ ObjectFine searches t target node ∨
      node.fileType ≠ .vdir ∧ Offers os node node.object := by
  obtain ⟨hv, hvtype⟩ := object_of_goes hdup
  rw [ObjectFine, ObjectFine, hv, hvtype, hobject, htype, opened_of_goes hproc hdup]
  by_cases hdir : node.fileType = .vdir
  · simp [hdir]
  · rw [if_neg hdir, if_neg hdir, and_iff_right hdir, or_assoc, or_assoc]

/-- A duplication that goes through leaves what is asked of it exactly when it
chose the right handle. -/
theorem givesAccess_of_goes {searches : Nat → Bool} (result : WinVnode) {fd : Nat}
    {object : Option OpenObject} {access : UInt32} (haccess : result.access = node.access)
    (hevent : result.event = node.event) (hobj : result.object = node.object)
    (htype : result.fileType = node.fileType)
    (hdup : dupByType t target closeSource os devices node result = (.ok (), v, t')) :
    GivesAccess searches devices t' target fd object access v ↔
      GoodDuplicate searches t target closeSource os devices node result.fileId object
        access := by
  obtain ⟨h, hmade, -⟩ := dupByType_ok hproc hdup
  have hobject : openObject devices t' target fd v =
      (endOf t .current (dupSource devices node result.fileId)).map .handle := by
    unfold openObject
    rw [hmade.handle, if_neg hmade.ne_invalid, hmade.ends]
  have hclaimed := access_of_goes haccess hdup
  have hfine := event_of_goes hproc hevent hdup
  have hheld := held_of_goes hproc searches hobj htype hdup
  constructor
  · rintro ⟨ho, ha, he, hh⟩
    exact ⟨hobject.symm.trans ho, hclaimed.symm.trans ha, hfine.mp he, hheld.mp hh⟩
  · rintro ⟨ho, ha, he, hh⟩
    exact ⟨hobject.trans ho, hclaimed.trans ha, hfine.mpr he, hheld.mpr hh⟩

/-- A duplication that does not go through leaves the vnode it was given. -/
theorem dupByType_fails (result : WinVnode)
    (hfails : ¬ Goes t target closeSource os devices node result.fileId) :
    (dupByType t target closeSource os devices node result).2.1 = result ∧
      (dupByType t target closeSource os devices node result).2.2 target =
        halfway t target closeSource os node target := by
  have hfails' := mt dupByType_ok_iff.mp hfails
  obtain ⟨e, hdup⟩ : ∃ e, (dupByType t target closeSource os devices node result).1 = .error e := by
    rcases hall : dupByType t target closeSource os devices node result with ⟨e | u, v, t'⟩
    · exact ⟨e, rfl⟩
    · exact absurd ⟨v, t', hall⟩ hfails'
  -- a handle that was not duplicated is not adopted either
  have hadopt : ∀ {t1 : Handles} {source : Nat} {inherit : Bool} {answer : HandleAnswer}
      {own : Nat → Handles → WinVnode},
      (adopt (duplicateHandle t1 source target inherit closeSource answer) result own).1 =
        .error e →
      (adopt (duplicateHandle t1 source target inherit closeSource answer) result own).2.1 =
          result ∧
        (adopt (duplicateHandle t1 source target inherit closeSource answer) result own).2.2
          target = t1 target := by
    intro t1 source inherit answer own hadopt
    rcases hh : duplicateHandle t1 source target inherit closeSource answer with ⟨e1 | h, t'⟩
    · exact ⟨rfl, duplicateHandle_failed hproc hh⟩
    · simp [hh, adopt] at hadopt
  -- of two handles the first one may be there already: that is what halfway means
  have hpair : (pipeFDupfd t target closeSource os node result).1 = .error e →
      (pipeFDupfd t target closeSource os node result).2.1 = result ∧
        (pipeFDupfd t target closeSource os node result).2.2 target =
          (duplicateHandle t node.handle target node.inherits closeSource os.handle).2 target := by
    intro hpipe
    unfold pipeFDupfd at hpipe ⊢
    rcases hh : duplicateHandle t node.handle target node.inherits closeSource os.handle with
      ⟨e1 | h, t'⟩
    · exact ⟨rfl, rfl⟩
    · simp only [hh] at hpipe ⊢
      exact hadopt hpipe
  have hdevice : ∀ {device : WinDevice} {own : Nat → Handles → WinVnode},
      (deviceFDupfd t target closeSource os device result own).1 = .error e →
      (deviceFDupfd t target closeSource os device result own).2.1 = result ∧
        (deviceFDupfd t target closeSource os device result own).2.2 target = t target := by
    intro device own hdevice
    unfold deviceFDupfd at hdevice ⊢
    split
    · exact ⟨rfl, rfl⟩
    · rename_i hnull
      rw [if_neg hnull] at hdevice
      exact hadopt hdevice
  unfold dupByType at hdup ⊢
  unfold halfway
  cases hfs : node.fsType <;> simp only [hfs] at hdup ⊢
  case winsock => exact hpair hdup
  case pipe => exact hpair hdup
  case char => exact hadopt hdup
  case disk => exact hadopt hdup
  case pdo => exact hdevice hdup
  case mailslot => exact hdevice hdup
  all_goals exact ⟨trivial, trivial⟩

end

/-! ### What is asked of the loops -/

/-- A used slot gives, in the new process, the access to the object it gives in
the parent. -/
structure Survives (searches : Nat → Bool) (devices : UInt32 → WinDevice)
    (nodes : Nat → WinVnode) (t : Handles) (p : Proc) (s : Channels) (fd : Nat) : Prop where
  isOpen : openObject devices t .current fd (nodes fd) ≠ none
  gives : GivesAccess searches devices s.handles p fd (openObject devices t .current fd (nodes fd))
    (nodes fd).access (s.node fd)

/-- A slot is free in the new process, and holds nothing there. -/
structure Empty (searches : Nat → Bool) (p : Proc) (s : Channels) (fd : Nat) : Prop where
  isFree : (s.node fd).access = 0
  notStale : NotStale searches s.handles p (s.node fd)

/-- What is asked of the slots of a child. -/
def ForkSlot (searches : Nat → Bool) (devices : UInt32 → WinDevice) (nodes : Nat → WinVnode)
    (t : Handles) (s : Channels) (fd : Nat) : Prop :=
  if (nodes fd).access = 0 then Empty searches .current s fd
  else
    Survives searches devices nodes t .current s fd ∧
      (s.node fd).closeExec = (nodes fd).closeExec

/-- What is asked of the slots of a new image. -/
def ExecSlot (searches : Nat → Bool) (devices : UInt32 → WinDevice) (nodes : Nat → WinVnode)
    (t : Handles) (s : Channels) (fd : Nat) : Prop :=
  if (nodes fd).access = 0 ∨ (nodes fd).closeExec = true then Empty searches .created s fd
  else Survives searches devices nodes t .created s fd

section
variable (searches : Nat → Bool) (devices : UInt32 → WinDevice) (duplicating : Nat → DupAnswers)
  (closing : Nat → CloseAnswers) (nodes : Nat → WinVnode) (t : Handles) (s : Channels) (fd : Nat)

/-- When a slot of a child is what is asked, before its turn: a used slot is
open, the duplicate that can be made of it is of the right handle, and if none
can be made, its event and its object are open. The copy that is left then is as good as the
original, since both are in one process. -/
def ForkMeets : Prop :=
  (nodes fd).access ≠ 0 →
    openObject devices t .current fd (nodes fd) ≠ none ∧
      (Goes s.handles .current false (duplicating fd) devices (nodes fd) fd →
        GoodDuplicate searches s.handles .current false (duplicating fd) devices (nodes fd) fd
          (openObject devices t .current fd (nodes fd)) (nodes fd).access) ∧
      (¬ Goes s.handles .current false (duplicating fd) devices (nodes fd) fd →
        EventFine (halfway s.handles .current false (duplicating fd) (nodes fd)) .current
            (nodes fd).event ∧
          ObjectFine searches (halfway s.handles .current false (duplicating fd) (nodes fd))
            .current (nodes fd))

/-- When a slot of a new image is what is asked, before its turn. A free slot
holds nothing. A slot to be closed can be closed, or is cleared anyway. A slot
that is left alone was inherited. A slot that is handed down is open, the
duplicate that can be made of it is of the right handle, and if none can be
made, the values it keeps happen to be good in the new process. -/
def ExecMeets : Prop :=
  if (nodes fd).access = 0 then NotStale searches s.handles .created (nodes fd)
  else if (nodes fd).closeExec = true then
    (nodes fd).handle ≠ nullHandle ∧
      (ClearedAnyway (nodes fd) ∨ Closable s.handles (closing fd) (nodes fd))
  else
    openObject devices t .current fd (nodes fd) ≠ none ∧
      if (nodes fd).inherits = true then
        GivesAccess searches devices s.handles .created fd
          (openObject devices t .current fd (nodes fd)) (nodes fd).access (nodes fd)
      else
        (Goes s.handles .created true (duplicating fd) devices (nodes fd) (nodes fd).fileId →
          GoodDuplicate searches s.handles .created true (duplicating fd) devices (nodes fd)
            (nodes fd).fileId (openObject devices t .current fd (nodes fd))
            (nodes fd).access) ∧
        (¬ Goes s.handles .created true (duplicating fd) devices (nodes fd) (nodes fd).fileId →
          GivesAccess searches devices (halfway s.handles .created true (duplicating fd) (nodes fd))
            .created fd (openObject devices t .current fd (nodes fd)) (nodes fd).access
            (nodes fd))

end

/-! ### Forking -/

section
variable {searches : Nat → Bool} {devices : UInt32 → WinDevice} {duplicating : Nat → DupAnswers}
  {closing : Nat → CloseAnswers} {nodes : Nat → WinVnode} {t : Handles} {s : Channels}

theorem empty_zero {p : Proc} {fd : Nat} (h : s.node fd = { WinVnode.zero with fileId := fd }) :
    Empty searches p s fd := by
  exact ⟨by rw [h]; rfl, .inl (by rw [h]; rfl), .inl (by rw [h]; rfl), .inl (by rw [h]; rfl)⟩

theorem grows_halfway {t : Handles} {target p : Proc} {closeSource : Bool} (os : DupAnswers)
    (node : WinVnode) (hp : closeSource = true → p ≠ .current) :
    Grows t (halfway t target closeSource os node) p := by
  unfold halfway
  cases node.fsType <;> simp only
  case winsock => exact grows_duplicateHandle hp _ _ _
  case pipe => exact grows_duplicateHandle hp _ _ _
  all_goals exact Grows.refl t p

theorem dupChannel_free {fd : Nat} (hfree : (nodes fd).access = 0) :
    dupChannel devices duplicating nodes s fd =
      ⟨Function.update s.node fd { s.node fd with fileId := fd }, s.handles⟩ := by
  simp [dupChannel, hfree]

theorem dupChannel_used {fd : Nat} (hused : (nodes fd).access ≠ 0) :
    dupChannel devices duplicating nodes s fd =
      let made := dupByType s.handles .current false (duplicating fd) devices (nodes fd)
        { nodes fd with fileId := fd }
      ⟨Function.update s.node fd made.2.1, made.2.2⟩ := by
  simp [dupChannel, hused, vfsFDupfd]

theorem dupChannel_other {fd i : Nat} (hne : i ≠ fd) :
    (dupChannel devices duplicating nodes s fd).node i = s.node i := by
  by_cases hfree : (nodes fd).access = 0
  · rw [dupChannel_free hfree]
    exact Function.update_of_ne hne _ _
  · rw [dupChannel_used hfree]
    exact Function.update_of_ne hne _ _

theorem dupChannel_grows (fd : Nat) :
    Grows s.handles (dupChannel devices duplicating nodes s fd).handles .current := by
  by_cases hfree : (nodes fd).access = 0
  · rw [dupChannel_free hfree]
    exact Grows.refl _ _
  · rw [dupChannel_used hfree]
    exact grows_dupByType (by simp) devices

/-- A turn of the loop does to its slot what is asked exactly when the condition
is met before it. -/
theorem dupChannel_turn {fd : Nat} (hgrows : Grows t s.handles .current)
    (hzero : s.node fd = .zero) :
    ForkSlot searches devices nodes t (dupChannel devices duplicating nodes s fd) fd ↔
      ForkMeets searches devices duplicating nodes t s fd := by
  unfold ForkSlot ForkMeets
  by_cases hfree : (nodes fd).access = 0
  · rw [if_pos hfree, dupChannel_free hfree]
    refine iff_of_true (empty_zero ?_) fun hused => absurd hfree hused
    simp only [Function.update_self, hzero]
  · rw [if_neg hfree, dupChannel_used hfree]
    simp only [ne_eq, hfree, not_false_eq_true, forall_true_left]
    have hproc : false = true → Proc.current ≠ .current := by simp
    by_cases hopen : openObject devices t .current fd (nodes fd) = none
    · exact iff_of_false (fun h => h.1.isOpen hopen) fun h => h.1 hopen
    by_cases hgoes : Goes s.handles .current false (duplicating fd) devices (nodes fd) fd
    · have hok : ∃ v t', dupByType s.handles .current false (duplicating fd) devices (nodes fd)
          { nodes fd with fileId := fd } = (.ok (), v, t') := dupByType_ok_iff.mpr hgoes
      obtain ⟨v, t', hdup⟩ := hok
      obtain ⟨h, hmade, -⟩ := dupByType_ok hproc hdup
      have hgives : ∀ object access, GivesAccess searches devices t' .current fd object access v ↔
          GoodDuplicate searches s.handles .current false (duplicating fd) devices (nodes fd) fd
            object access := fun _ _ =>
        givesAccess_of_goes hproc { nodes fd with fileId := fd } rfl rfl rfl rfl hdup
      simp only [hdup]
      constructor
      · rintro ⟨⟨-, hright⟩, -⟩
        simp only [Function.update_self] at hright
        exact ⟨hopen, fun _ => (hgives _ _).mp hright, fun hnot => absurd hgoes hnot⟩
      · rintro ⟨-, hgood, -⟩
        refine ⟨⟨hopen, ?_⟩, ?_⟩
        · simp only [Function.update_self]
          exact (hgives _ _).mpr (hgood hgoes)
        · simp only [Function.update_self]
          exact hmade.closeExec
    · -- what failed leaves the copy of the node, whose handle is that of the parent
      obtain ⟨hsame, htable⟩ := dupByType_fails hproc { nodes fd with fileId := fd } hgoes
      have hhalf : Grows t (halfway s.handles .current false (duplicating fd) (nodes fd))
          .current := hgrows.trans (grows_halfway _ _ hproc)
      have hkept : openObject devices (halfway s.handles .current false (duplicating fd) (nodes fd))
          .current fd { nodes fd with fileId := fd } =
            openObject devices t .current fd (nodes fd) := openObject_mono hhalf hopen
      constructor
      · rintro ⟨⟨-, hright⟩, -⟩
        simp only [Function.update_self, hsame] at hright
        have hkept := (givesAccess_congr htable).mp hright
        exact ⟨hopen, fun hgo => absurd hgo hgoes, fun _ => ⟨hkept.event, hkept.held⟩⟩
      · rintro ⟨-, -, hfine⟩
        refine ⟨⟨hopen, ?_⟩, ?_⟩
        · simp only [Function.update_self, hsame]
          exact (givesAccess_congr htable).mpr
            ⟨hkept, rfl, (hfine hgoes).1, (hfine hgoes).2⟩
        · simp only [Function.update_self, hsame]

theorem Survives.mono {p : Proc} {s' : Channels} {fd : Nat}
    (hgrows : Grows s.handles s'.handles p) (hslot : s'.node fd = s.node fd)
    (h : Survives searches devices nodes t p s fd) : Survives searches devices nodes t p s' fd := by
  refine ⟨h.isOpen, ?_⟩
  rw [hslot]
  exact h.gives.mono hgrows h.isOpen

theorem Empty.mono {p : Proc} {s' : Channels} {fd : Nat}
    (hgrows : Grows s.handles s'.handles p) (hslot : s'.node fd = s.node fd)
    (h : Empty searches p s fd) : Empty searches p s' fd := by
  refine ⟨?_, ?_⟩
  · rw [hslot]
    exact h.isFree
  · rw [hslot]
    exact h.notStale.mono hgrows

/-- Every slot of a child is what is asked, from its turn on, exactly when the
condition is met at every turn. -/
theorem fork_iff :
    FromTurnOn (dupChannel devices duplicating nodes) (ForkSlot searches devices nodes t) (forked t)
        winOpenMax ↔
      ∀ fd, fd < winOpenMax → ForkMeets searches devices duplicating nodes t
        (sweep (dupChannel devices duplicating nodes) (forked t) fd) fd := by
  -- The slots to come are cleared, and the handles of the parent stay open.
  let I : Nat → Channels → Prop := fun j s =>
    Grows t s.handles .current ∧ ∀ i, j ≤ i → s.node i = .zero
  refine fromTurnOn_iff I ⟨Grows.refl _ _, fun _ _ => rfl⟩ ?_ ?_ ?_ winOpenMax
  · rintro i s ⟨hgrows, hzero⟩
    refine ⟨hgrows.trans (dupChannel_grows i), fun j hj => ?_⟩
    rw [dupChannel_other (by omega)]
    exact hzero j (by omega)
  · rintro i s ⟨hgrows, hzero⟩
    exact dupChannel_turn hgrows (hzero i (Nat.le_refl i))
  · rintro i j s hij - hslot
    have hnode : (dupChannel devices duplicating nodes s j).node i = s.node i :=
      dupChannel_other (by omega)
    have hgrows := @dupChannel_grows devices duplicating nodes s j
    unfold ForkSlot at hslot ⊢
    split at hslot
    · rename_i hfree
      rw [if_pos hfree]
      exact hslot.mono hgrows hnode
    · rename_i hused
      rw [if_neg hused, hnode]
      exact ⟨hslot.1.mono hgrows hnode, hslot.2⟩

/-! ### Executing -/

theorem inheritChannel_other {fd i : Nat} (hne : i ≠ fd) :
    (inheritChannel devices duplicating closing s fd).node i = s.node i := by
  simp only [inheritChannel]
  split_ifs <;> first
    | rfl
    | exact Function.update_of_ne hne _ _

theorem inheritChannel_closes {fd : Nat} (hused : (s.node fd).access ≠ 0)
    (hexec : (s.node fd).closeExec = true) :
    inheritChannel devices duplicating closing s fd =
      let closed := vfsClose s.handles (closing fd) (s.node fd)
      ⟨Function.update s.node fd closed.2.1, closed.2.2⟩ := by
  simp [inheritChannel, hused, hexec]

theorem inheritChannel_hands {fd : Nat} (hused : (s.node fd).access ≠ 0)
    (hexec : (s.node fd).closeExec ≠ true) (hinherits : (s.node fd).inherits ≠ true) :
    inheritChannel devices duplicating closing s fd =
      let made := dupByType s.handles .created true (duplicating fd) devices (s.node fd)
        (s.node fd)
      ⟨Function.update s.node fd made.2.1, made.2.2⟩ := by
  simp [inheritChannel, hused, hexec, hinherits, vfsFInherit]

theorem inheritChannel_leaves {fd : Nat} (h : (s.node fd).access = 0 ∨
    ((s.node fd).closeExec ≠ true ∧ (s.node fd).inherits = true)) :
    inheritChannel devices duplicating closing s fd = s := by
  rcases h with hfree | ⟨hexec, hinherits⟩
  · simp [inheritChannel, hfree]
  · simp [inheritChannel, hexec, hinherits]

theorem inheritChannel_grows (fd : Nat) :
    Grows s.handles (inheritChannel devices duplicating closing s fd).handles .created := by
  by_cases hleaves : (s.node fd).access = 0 ∨
      ((s.node fd).closeExec ≠ true ∧ (s.node fd).inherits = true)
  · rw [inheritChannel_leaves hleaves]
    exact Grows.refl _ _
  · rw [not_or, not_and] at hleaves
    obtain ⟨hused, hhands⟩ := hleaves
    by_cases hexec : (s.node fd).closeExec = true
    · rw [inheritChannel_closes hused hexec]
      intro x e hx
      dsimp only
      rw [vfsClose_other _ _ _ (by decide)]
      exact hx
    · rw [inheritChannel_hands hused hexec (hhands hexec)]
      exact grows_dupByType (fun _ => by decide) devices

/-- Closing empties a slot exactly when there is something to close, and it is
closed or cleared anyway. -/
theorem closed_empty_iff {fd : Nat} (hused : (s.node fd).access ≠ 0) {os : CloseAnswers} :
    let closed := vfsClose s.handles os (s.node fd)
    Empty searches .created ⟨Function.update s.node fd closed.2.1, closed.2.2⟩ fd ↔
      (s.node fd).handle ≠ nullHandle ∧
        (ClearedAnyway (s.node fd) ∨ Closable s.handles os (s.node fd)) := by
  have hzero : ∀ v t, v = { WinVnode.zero with fileId := (s.node fd).fileId } →
      Empty searches .created ⟨Function.update s.node fd v, t⟩ fd := by
    rintro v t rfl
    refine ⟨?_, .inl ?_, .inl ?_, .inl ?_⟩ <;> simp [WinVnode.zero, nullHandle]
  have hkept : ∀ v t, v = s.node fd →
      ¬ Empty searches .created ⟨Function.update s.node fd v, t⟩ fd := by
    rintro v t rfl h
    exact hused (by simpa using h.isFree)
  by_cases hnull : (s.node fd).handle = nullHandle
  · refine iff_of_false (hkept _ _ ?_) fun h => h.1 hnull
    simp [vfsClose, hnull]
  · rcases hclose : vfsClose s.handles os (s.node fd) with ⟨e | u, v, t'⟩
    · have hnot : ¬ Closable s.handles os (s.node fd) := by
        intro hcan
        obtain ⟨v', t'', hok⟩ := vfsClose_of_closable hcan
        rw [hclose] at hok
        simp at hok
      -- a close that fails leaves the slot as it was, unless its type is cleared anyway
      by_cases hany : ClearedAnyway (s.node fd)
      · have hcleared := @vfsClose_cleared s.handles os _ hany hnull
        rw [hclose] at hcleared
        exact iff_of_true (hzero _ _ hcleared) ⟨hnull, .inl hany⟩
      · refine iff_of_false (hkept _ _ (vfsClose_error hany hclose).1) ?_
        rintro ⟨-, hany' | hcan⟩
        · exact hany hany'
        · exact hnot hcan
    · refine iff_of_true (hzero _ _ ?_) ⟨hnull, .inr (vfsClose_ok_iff.mp ⟨v, t', hclose⟩)⟩
      rcases vfsClose_ok hclose with ⟨hnull', -, -⟩ | ⟨hv, -⟩
      · exact absurd hnull' hnull
      · exact hv

/-- Handing a slot down leaves what is asked exactly when a good duplicate can
be made, or else what is kept is good in the new process. -/
theorem handed_gives_iff {fd : Nat} {object : Option OpenObject} :
    let made := dupByType s.handles .created true (duplicating fd) devices (s.node fd) (s.node fd)
    GivesAccess searches devices made.2.2 .created fd object (s.node fd).access made.2.1 ↔
      (Goes s.handles .created true (duplicating fd) devices (s.node fd) (s.node fd).fileId →
        GoodDuplicate searches s.handles .created true (duplicating fd) devices (s.node fd)
          (s.node fd).fileId object (s.node fd).access) ∧
      (¬ Goes s.handles .created true (duplicating fd) devices (s.node fd) (s.node fd).fileId →
        GivesAccess searches devices (halfway s.handles .created true (duplicating fd) (s.node fd))
          .created fd object (s.node fd).access (s.node fd)) := by
  have hproc : true = true → Proc.created ≠ .current := fun _ => by decide
  by_cases hgoes : Goes s.handles .created true (duplicating fd) devices (s.node fd)
      (s.node fd).fileId
  · have hok : ∃ v t', dupByType s.handles .created true (duplicating fd) devices (s.node fd)
        (s.node fd) = (.ok (), v, t') := dupByType_ok_iff.mpr hgoes
    obtain ⟨v, t', hdup⟩ := hok
    simp only [hdup]
    refine (givesAccess_of_goes hproc (s.node fd) rfl rfl rfl rfl hdup).trans ?_
    exact ⟨fun hgood => ⟨fun _ => hgood, fun hnot => absurd hgoes hnot⟩, fun h => h.1 hgoes⟩
  · obtain ⟨hsame, htable⟩ := dupByType_fails hproc (s.node fd) hgoes
    simp only [hsame]
    refine (givesAccess_congr htable).trans ?_
    exact ⟨fun hgives => ⟨fun hgo => absurd hgo hgoes, fun _ => hgives⟩, fun h => h.2 hgoes⟩

theorem inheritChannel_turn {fd : Nat} (hslot : s.node fd = nodes fd) :
    ExecSlot searches devices nodes t (inheritChannel devices duplicating closing s fd) fd ↔
      ExecMeets searches devices duplicating closing nodes t s fd := by
  unfold ExecSlot ExecMeets
  by_cases hfree : (nodes fd).access = 0
  · rw [if_pos (.inl hfree), if_pos hfree, inheritChannel_leaves (.inl (hslot ▸ hfree))]
    constructor
    · rintro ⟨-, hstale⟩
      rwa [hslot] at hstale
    · intro hstale
      exact ⟨by rw [hslot, hfree], by rwa [hslot]⟩
  · have hused : (s.node fd).access ≠ 0 := hslot ▸ hfree
    -- closed on the way, left to be inherited by Windows, or handed over one by one
    by_cases hexec : (nodes fd).closeExec = true
    · rw [if_pos (.inr hexec), if_neg hfree, if_pos hexec,
        inheritChannel_closes hused (hslot ▸ hexec), ← hslot]
      exact closed_empty_iff hused
    · have hneither : ¬ ((nodes fd).access = 0 ∨ (nodes fd).closeExec = true) := by
        rintro (h | h)
        · exact hfree h
        · exact hexec h
      rw [if_neg hneither, if_neg hfree, if_neg hexec]
      by_cases hinherits : (nodes fd).inherits = true
      · rw [if_pos hinherits, inheritChannel_leaves (.inr ⟨hslot ▸ hexec, hslot ▸ hinherits⟩)]
        constructor
        · rintro ⟨hopen, hgives⟩
          exact ⟨hopen, by rwa [hslot] at hgives⟩
        · rintro ⟨hopen, hgives⟩
          exact ⟨hopen, by rwa [hslot]⟩
      · rw [if_neg hinherits, inheritChannel_hands hused (hslot ▸ hexec) (hslot ▸ hinherits)]
        have hiff := @handed_gives_iff searches devices duplicating s fd
          (openObject devices t .current fd (nodes fd))
        simp only [hslot] at hiff ⊢
        constructor
        · rintro ⟨hopen, hgives⟩
          simp only [Function.update_self] at hgives
          exact ⟨hopen, hiff.mp hgives⟩
        · rintro ⟨hopen, hgives⟩
          refine ⟨hopen, ?_⟩
          simp only [Function.update_self]
          exact hiff.mpr hgives

/-- Every slot of a new image is what is asked, from its turn on, exactly when
the condition is met at every turn. -/
theorem exec_iff :
    FromTurnOn (inheritChannel devices duplicating closing) (ExecSlot searches devices nodes t)
        (executed nodes t) winOpenMax ↔
      ∀ fd, fd < winOpenMax → ExecMeets searches devices duplicating closing nodes t
        (sweep (inheritChannel devices duplicating closing) (executed nodes t) fd) fd := by
  -- The slots to come are as they were.
  let I : Nat → Channels → Prop := fun j s => ∀ i, j ≤ i → s.node i = nodes i
  refine fromTurnOn_iff I (fun _ _ => rfl) ?_ ?_ ?_ winOpenMax
  · intro i s hsame j hj
    rw [inheritChannel_other (by omega)]
    exact hsame j (by omega)
  · intro i s hsame
    exact inheritChannel_turn (hsame i (Nat.le_refl i))
  · intro i j s hij _ hslot
    have hnode : (inheritChannel devices duplicating closing s j).node i = s.node i :=
      inheritChannel_other (by omega)
    have hgrows := @inheritChannel_grows devices duplicating closing s j
    unfold ExecSlot at hslot ⊢
    split at hslot
    · rename_i hempty
      rw [if_pos hempty]
      exact hslot.mono hgrows hnode
    · rename_i hused
      rw [if_neg hused]
      exact hslot.mono hgrows hnode

end

/-! ### New processes -/

section
variable (searches : Nat → Bool) (devices : UInt32 → WinDevice) (duplicating : Nat → DupAnswers)
  (closing : Nat → CloseAnswers) (nodes : Nat → WinVnode) (t : Handles)

/-- A child has what is asked in every slot, from the turn of the slot on. -/
def ForkKeeps : Prop :=
  FromTurnOn (dupChannel devices duplicating nodes) (ForkSlot searches devices nodes t) (forked t)
    winOpenMax

/-- A new image has what is asked in every slot, from the turn of the slot on. -/
def ExecKeeps : Prop :=
  FromTurnOn (inheritChannel devices duplicating closing) (ExecSlot searches devices nodes t)
    (executed nodes t) winOpenMax

variable {searches devices duplicating closing nodes t}

theorem ForkKeeps.procDup (h : ForkKeeps searches devices duplicating nodes t) {fd : Nat}
    (hfd : fd < winOpenMax) :
    ForkSlot searches devices nodes t (procDup devices duplicating nodes t) fd :=
  h fd winOpenMax hfd (Nat.le_refl _)

theorem ExecKeeps.procExecve (h : ExecKeeps searches devices duplicating closing nodes t) {fd : Nat}
    (hfd : fd < winOpenMax) :
    ExecSlot searches devices nodes t (procExecve devices duplicating closing nodes t) fd :=
  h fd winOpenMax hfd (Nat.le_refl _)

end

end MinC.Vfs
