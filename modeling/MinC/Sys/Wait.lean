import MinC.Vfs.Wait
import MinC.Sys.Poll
import Mathlib.Data.List.Perm.Basic

/-!
The `wait4` call.

The tasks to wait for are selected once, when the call begins. Only the
selection of any child looks at the parent of a task: a task that is selected
by its number or by its group is taken for a child.
-/

namespace MinC.Sys

open MinC.Lib MinC.Win MinC.Vfs

def childMax : Nat := 80

def wnohang : UInt32 := 1
def wuntraced : UInt32 := 2

/-- An `int` that is passed as a `DWORD`. -/
def dword (n : Int) : Nat := (n % 0x100000000).toNat

/-! ### Selection -/

def taskvGrp (groupId : Nat) (tasks : Tasks) : List Nat :=
  (List.range' winPidInit (childMax - winPidInit)).filter fun i => (tasks i).groupId = groupId

def taskvAny (parentId : Nat) (tasks : Tasks) : List Nat :=
  (List.range' winPidInit (childMax - winPidInit)).filter fun i => (tasks i).parentId = parentId

def taskvPid (taskId : Nat) (tasks : Tasks) : List Nat :=
  if (tasks taskId).handle ≠ 0 then [taskId] else []

def taskvWin (parent : WinTask) (pid : Int) (tasks : Tasks) : List Nat :=
  if dword pid = parent.taskId then []
  else if pid = 0 then taskvGrp parent.groupId tasks
  else if pid = -1 then taskvAny parent.taskId tasks
  else if 0 < pid then taskvPid pid.toNat tasks
  else if pid < -1 then taskvGrp (dword (-pid)) tasks
  else []

/-- What a selection asks of a task, apart from its place in the table. -/
def SelectedTask (parent : WinTask) (pid : Int) (tasks : Tasks) (i : Nat) : Prop :=
  (pid = 0 ∧ (tasks i).groupId = parent.groupId) ∨
    (pid = -1 ∧ (tasks i).parentId = parent.taskId) ∨
    (0 < pid ∧ i = pid.toNat ∧ (tasks i).handle ≠ 0) ∨
    (pid < -1 ∧ (tasks i).groupId = dword (-pid))

instance (parent : WinTask) (pid : Int) (tasks : Tasks) (i : Nat) :
    Decidable (SelectedTask parent pid tasks i) :=
  inferInstanceAs (Decidable (_ ∨ _))

/-- The slots of tasks that have a number. -/
def IsSlot (i : Nat) : Prop := winPidInit ≤ i ∧ i < childMax

instance (i : Nat) : Decidable (IsSlot i) := inferInstanceAs (Decidable (_ ∧ _))

section
variable {parent : WinTask} {pid : Int} {tasks : Tasks} {i : Nat}

theorem mem_slots {p : Nat → Prop} [DecidablePred p] :
    i ∈ (List.range' winPidInit (childMax - winPidInit)).filter p ↔ IsSlot i ∧ p i := by
  rw [List.mem_filter, decide_eq_true_eq, List.mem_range'_1]
  exact and_congr_left' (and_congr_right fun _ => Iff.rfl)

theorem selectedTask_zero :
    SelectedTask parent 0 tasks i ↔ (tasks i).groupId = parent.groupId := by
  simp [SelectedTask]

theorem selectedTask_any :
    SelectedTask parent (-1) tasks i ↔ (tasks i).parentId = parent.taskId := by
  simp [SelectedTask]

theorem selectedTask_of_pos (h : 0 < pid) :
    SelectedTask parent pid tasks i ↔ i = pid.toNat ∧ (tasks i).handle ≠ 0 := by
  have hzero : pid ≠ 0 := by omega
  have hany : pid ≠ -1 := by omega
  have hgroup : ¬ pid < -1 := by omega
  simp only [SelectedTask, h, hzero, hany, hgroup, true_and, false_and, false_or, or_false]

theorem selectedTask_of_lt (h : pid < -1) :
    SelectedTask parent pid tasks i ↔ (tasks i).groupId = dword (-pid) := by
  have hzero : pid ≠ 0 := by omega
  have hany : pid ≠ -1 := by omega
  have hpos : ¬ 0 < pid := by omega
  simp only [SelectedTask, h, hzero, hany, hpos, true_and, false_and, false_or]

/-- Who is not the caller is selected by what the selection asks of a task. -/
theorem mem_taskvWin (hpid : pid < childMax) :
    i ∈ taskvWin parent pid tasks ↔
      dword pid ≠ parent.taskId ∧ IsSlot i ∧ SelectedTask parent pid tasks i := by
  unfold taskvWin
  by_cases hself : dword pid = parent.taskId
  · rw [if_pos hself]
    exact ⟨fun h => absurd h List.not_mem_nil, fun h => absurd hself h.1⟩
  rw [if_neg hself, and_iff_right hself]
  rcases Int.lt_trichotomy pid 0 with hneg | rfl | hpos
  · by_cases hany : pid = -1
    · subst hany
      rw [if_neg (by decide), if_pos rfl, taskvAny, mem_slots, selectedTask_any]
    · have hlow : pid < -1 := by omega
      rw [if_neg (by omega), if_neg hany, if_neg (by omega), if_pos hlow, taskvGrp, mem_slots,
        selectedTask_of_lt hlow]
  · rw [if_pos rfl, taskvGrp, mem_slots, selectedTask_zero]
  · rw [if_neg (by omega), if_neg (by omega), if_pos hpos, taskvPid, selectedTask_of_pos hpos]
    have hslot : IsSlot pid.toNat := by
      unfold IsSlot winPidInit
      omega
    split_ifs with hhandle
    · rw [List.mem_singleton]
      constructor
      · rintro rfl
        exact ⟨hslot, rfl, hhandle⟩
      · exact fun h => h.2.1
    · refine iff_of_false List.not_mem_nil ?_
      rintro ⟨-, rfl, h⟩
      exact hhandle h

/-- The slots are selected in their order. -/
theorem sorted_taskvWin (parent : WinTask) (pid : Int) (tasks : Tasks) :
    (taskvWin parent pid tasks).Pairwise (· < ·) := by
  have hrange : (List.range' winPidInit (childMax - winPidInit)).Pairwise (· < ·) :=
    List.pairwise_lt_range'
  unfold taskvWin taskvGrp taskvAny taskvPid
  split_ifs
  · exact List.Pairwise.nil
  · exact hrange.filter _
  · exact hrange.filter _
  · exact List.pairwise_singleton _ _
  · exact List.Pairwise.nil
  · exact hrange.filter _
  · exact List.Pairwise.nil

theorem nodup_taskvWin (parent : WinTask) (pid : Int) (tasks : Tasks) :
    (taskvWin parent pid tasks).Nodup := (sorted_taskvWin parent pid tasks).imp Nat.ne_of_lt

/-- No slot is selected twice. -/
theorem length_taskvWin (hpid : pid < childMax) :
    (taskvWin parent pid tasks).length =
      (List.range childMax).countP fun i =>
        dword pid ≠ parent.taskId ∧ IsSlot i ∧ SelectedTask parent pid tasks i := by
  rw [List.countP_eq_length_filter]
  apply List.Perm.length_eq
  rw [List.perm_ext_iff_of_nodup (nodup_taskvWin parent pid tasks) (List.nodup_range.filter _)]
  intro i
  rw [mem_taskvWin hpid, List.mem_filter, List.mem_range, decide_eq_true_eq]
  constructor
  · intro h
    exact ⟨h.2.1.2, h⟩
  · intro h
    exact h.2

end

/-! ### What is waited for -/

/-- The entry is one of those that are polled. -/
def polled (fds : PollFd) : Bool := inRange fds.fd && fds.events ≠ 0

theorem pollSlot_node (node : Nat → WinVnode) (p : PollFd) :
    (pollSlot node p).node = if polled p then some (node p.fd.toNat) else none := by
  unfold polled
  rcases pollSlot_cases node p with ⟨hin, hnode, -⟩ | ⟨hin, hevents, heq⟩ | ⟨hin, hevents, heq⟩
  · rw [hin, hnode]
    rfl
  · rw [heq, hin, if_pos (by simpa using hevents)]
  · rw [heq, hin, if_neg (by simpa using hevents)]

theorem length_polled (node : Nat → WinVnode) (fds : List PollFd) :
    ((fds.map (pollSlot node)).filterMap PollSlot.node).length = fds.countP polled := by
  induction fds with
  | nil => rfl
  | cons p fds ih =>
      rw [List.map_cons, List.filterMap_cons, List.countP_cons, pollSlot_node]
      by_cases hp : polled p = true
      · rw [if_pos hp, if_pos hp, List.length_cons, ih]
      · rw [if_neg hp, if_neg hp, ih, Nat.add_zero]

/-- The vectors of `poll` and of `wait4` fit exactly when there is room for the
event that interrupts the wait. -/
theorem waits_fit_iff {node : Nat → WinVnode} {fds : List PollFd} {slots : List PollSlot}
    (hslots : pollfdWin node fds = some slots) {parent : WinTask} {pid : Int} {tasks : Tasks}
    (hpid : pid < childMax) (interrupt : Nat) :
    (Waitable (pollGetObjects interrupt (slots.filterMap PollSlot.node)) ↔
      fds.countP polled < maximumWaitObjects) ∧
    (Waitable (waitGetObjects interrupt tasks (taskvWin parent pid tasks)) ↔
      (List.range childMax).countP (fun i =>
        dword pid ≠ parent.taskId ∧ IsSlot i ∧ SelectedTask parent pid tasks i) <
          maximumWaitObjects) := by
  constructor
  · have hmap : fds.map (pollSlot node) = slots := by
      unfold pollfdWin at hslots
      split_ifs at hslots
      exact Option.some.inj hslots
    rw [pollGetObjects, waitable_cons_iff, List.length_map, ← hmap, length_polled]
  · rw [waitGetObjects, waitable_cons_iff, List.length_map, length_taskvWin hpid]

theorem waits_fit_iff_file :
    (Waitable (pollGetObjects 1 [fileNode]) ↔
      ([⟨0, pollIn, 0⟩] : List PollFd).countP polled < maximumWaitObjects) ∧
    (Waitable (waitGetObjects 1 (fun _ => WinTask.zero)
        (taskvWin WinTask.zero (-1) fun _ => WinTask.zero)) ↔
      (List.range childMax).countP (fun i => dword (-1) ≠ WinTask.zero.taskId ∧ IsSlot i ∧
        SelectedTask WinTask.zero (-1) (fun _ => WinTask.zero) i) < maximumWaitObjects) :=
  waits_fit_iff (show pollfdWin (fun _ => fileNode) [⟨0, pollIn, 0⟩] =
      some [⟨⟨0, pollIn, 0⟩, some fileNode, false⟩] from rfl)
    (show (-1 : Int) < childMax by decide) 1

/-- A task whose parent is the first one, as are all others. -/
def brood : Tasks := fun i =>
  { WinTask.zero with taskId := i, parentId := if i = winPidInit then 0 else winPidInit }

/-- As many descriptors as are accepted, and a table full of children. -/
theorem no_room_for_interrupt :
    (∃ slots, pollfdWin (fun _ => fileNode)
        ((List.range wsaMaximumWaitEvents).map fun i => ⟨(i : Int), pollIn, 0⟩) = some slots ∧
      ¬ Waitable (pollGetObjects 1 (slots.filterMap PollSlot.node))) ∧
    (taskvWin (brood winPidInit) (-1) brood).length ≤ winChildMax ∧
    ¬ Waitable (waitGetObjects 1 brood (taskvWin (brood winPidInit) (-1) brood)) := by
  refine ⟨⟨_, rfl, fun h => ?_⟩, by decide, fun h => ?_⟩
  · exact absurd h.accepted.2 (by decide)
  · exact absurd h.accepted.2 (by decide)

/-! ### The call -/

/-- What `wait4` answers, and the table that each pass leaves. -/
structure Waited where
  result : Int
  usage : WinRusage
  after : List Tasks

def waitMask (options : UInt32) : UInt32 := if flagSet options wuntraced then 0xFFFF else 0

/-- `wait4`, for a number of rounds. -/
def sysWait4 (parent : WinTask) (pid : Int) (options : UInt32) (tasks : Tasks) (fuel : Nat)
    (rounds : Nat → WaitRound) : Option Waited :=
  if childMax ≤ pid then some ⟨-(einval : Int), WinRusage.zero, []⟩
  else if taskvWin parent pid tasks = [] then some ⟨-(echild : Int), WinRusage.zero, []⟩
  else match vfsWait4 (taskvWin parent pid tasks) (flagSet options wnohang) (waitMask options) fuel
      rounds with
  | none => none
  | some (.error e, after) => some ⟨-(errnoPosix e : Int), WinRusage.zero, after⟩
  | some (.ok usage, after) => some ⟨usage.taskId, usage, after⟩

/-- The task of the slot is a child. -/
def IsChild (parent : WinTask) (tasks : Tasks) (i : Nat) : Prop :=
  IsSlot i ∧ (tasks i).parentId = parent.taskId

/-- The task of the slot is one that the pid stands for. -/
def Matches (parent : WinTask) (pid : Int) (tasks : Tasks) (i : Nat) : Prop :=
  pid = -1 ∨ (0 < pid ∧ i = pid.toNat) ∨ (pid = 0 ∧ (tasks i).groupId = parent.groupId) ∨
    (pid < -1 ∧ (tasks i).groupId = dword (-pid))

/-- Who is reported by the last pass is a child that the pid stands for, nothing but children is
touched, and there is an error exactly when there is no such child. -/
structure WaitsForChildren (parent : WinTask) (pid : Int) (tasks : Tasks)
    (rounds : Nat → WaitRound) (waited : Waited) : Prop where
  reported : 0 < waited.result → ∃ r i, waited.after.length = r + 1 ∧
    waited.result = ((rounds r).tasks i).taskId ∧ IsChild parent (rounds r).tasks i ∧
    Matches parent pid tasks i
  touched : ∀ r table i, waited.after[r]? = some table → table i ≠ (rounds r).tasks i →
    IsChild parent (rounds r).tasks i
  none_iff : waited.result = -(echild : Int) ↔
    ¬ ∃ i, IsChild parent tasks i ∧ Matches parent pid tasks i

section
variable {parent : WinTask} {pid : Int} {options : UInt32} {tasks : Tasks} {fuel : Nat}
  {rounds : Nat → WaitRound} {waited : Waited}

/-- How a call ends. -/
theorem sysWait4_cases (h : sysWait4 parent pid options tasks fuel rounds = some waited) :
    (childMax ≤ pid ∧ waited = ⟨-(einval : Int), WinRusage.zero, []⟩) ∨
    (pid < childMax ∧ taskvWin parent pid tasks = [] ∧
      waited = ⟨-(echild : Int), WinRusage.zero, []⟩) ∨
    (pid < childMax ∧ taskvWin parent pid tasks ≠ [] ∧ ∃ outcome,
      vfsWait4 (taskvWin parent pid tasks) (flagSet options wnohang) (waitMask options) fuel
        rounds = some (outcome, waited.after) ∧
      ((∃ e, outcome = .error e ∧ waited.result = -(errnoPosix e : Int)) ∨
        ∃ usage, outcome = .ok usage ∧ waited.result = usage.taskId)) := by
  unfold sysWait4 at h
  by_cases hpid : childMax ≤ pid
  · rw [if_pos hpid] at h
    exact .inl ⟨hpid, (Option.some.inj h).symm⟩
  · right
    rw [if_neg hpid] at h
    by_cases hnone : taskvWin parent pid tasks = []
    · rw [if_pos hnone] at h
      exact .inl ⟨by omega, hnone, (Option.some.inj h).symm⟩
    · right
      rw [if_neg hnone] at h
      refine ⟨by omega, hnone, ?_⟩
      split at h
      · cases h
      · next e after heq =>
        cases h
        exact ⟨.error e, heq, .inl ⟨e, rfl, rfl⟩⟩
      · next usage after heq =>
        cases h
        exact ⟨.ok usage, heq, .inr ⟨usage, rfl, rfl⟩⟩

/-- A child that the pid stands for is selected, if it has a handle. -/
theorem selected_of_matches {i : Nat} (hchild : IsChild parent tasks i)
    (hhandle : 0 < pid → (tasks i).handle ≠ 0) (h : Matches parent pid tasks i) :
    SelectedTask parent pid tasks i := by
  rcases h with h | ⟨hpos, heq⟩ | h | h
  · exact .inr (.inl ⟨h, hchild.2⟩)
  · exact .inr (.inr (.inl ⟨hpos, heq, hhandle hpos⟩))
  · exact .inl h
  · exact .inr (.inr (.inr h))

/-- What a pass of the call leaves. -/
theorem sysWait4_after (h : sysWait4 parent pid options tasks fuel rounds = some waited)
    {r : Nat} {table : Tasks} (hr : waited.after[r]? = some table) :
    table = (waitNoHang (waitMask options) WinRusage.zero (taskvWin parent pid tasks)
      (rounds r).tasks).2 := by
  rcases sysWait4_cases h with ⟨-, rfl⟩ | ⟨-, -, rfl⟩ | ⟨-, -, outcome, heq, -⟩
  · cases hr
  · cases hr
  · exact (vfsWait4_rounds heq).1 r table hr

/-- A call that reports somebody has made a pass. -/
theorem sysWait4_length (h : sysWait4 parent pid options tasks fuel rounds = some waited)
    (hpos : 0 < waited.result) : ∃ r, waited.after.length = r + 1 := by
  rcases sysWait4_cases h with ⟨-, rfl⟩ | ⟨-, -, rfl⟩ | ⟨-, -, outcome, heq, -⟩
  · exact absurd hpos (by decide)
  · exact absurd hpos (by decide)
  · obtain ⟨r, hlength, -⟩ := vfsWait4_last heq
    exact ⟨r, hlength⟩

/-- The passes of a call that selects somebody. -/
theorem sysWait4_made (h : sysWait4 parent pid options tasks fuel rounds = some waited)
    (hpid : pid < childMax) (hsome : taskvWin parent pid tasks ≠ []) (r : Nat) :
    r < waited.after.length ↔ ∀ q < r, Unanswered (· ∈ taskvWin parent pid tasks)
      (flagSet options wnohang) (waitMask options) (rounds q) := by
  rcases sysWait4_cases h with ⟨hhigh, -⟩ | ⟨-, hnone, -⟩ | ⟨-, -, outcome, heq, -⟩
  · omega
  · exact absurd hnone hsome
  · exact vfsWait4_made (nodup_taskvWin parent pid tasks) heq r

/-- Who is told of, and with what, is decided by the last pass. -/
theorem sysWait4_last (h : sysWait4 parent pid options tasks fuel rounds = some waited) {r : Nat}
    (hlast : waited.after.length = r + 1) :
    (∃ i, (i ∈ taskvWin parent pid tasks ∧
        ∀ j ∈ taskvWin parent pid tasks, j < i →
          ¬ Reports (waitMask options) ((rounds r).tasks j)) ∧
      Reports (waitMask options) ((rounds r).tasks i) ∧
      waited.result = ((rounds r).tasks i).taskId ∧
      waited.usage = WinRusage.zero.report ((rounds r).tasks i)) ∨
    ((∀ i ∈ taskvWin parent pid tasks, ¬ Reports (waitMask options) ((rounds r).tasks i)) ∧
      waited.result ≤ 0) := by
  unfold sysWait4 at h
  split_ifs at h with hpid hnone
  · cases h
    cases hlast
  · cases h
    cases hlast
  split at h
  · cases h
  · next e after heq =>
    cases h
    obtain ⟨r', hlength, ⟨usage, -, hok⟩ | ⟨hpass, -⟩⟩ := vfsWait4_last heq
    · cases hok
    · obtain rfl : r' = r := by
        have hsame : r' + 1 = r + 1 := hlength.symm.trans hlast
        omega
      -- a wait that fails has passed by every child in its last round
      right
      refine ⟨?_, by dsimp only; omega⟩
      rcases waitNoHang_cases (waitMask options) WinRusage.zero (nodup_taskvWin parent pid tasks)
        (rounds r').tasks with ⟨before, i, rest, -, -, -, hfound⟩ | ⟨hnothing, -⟩
      · rw [hfound] at hpass
        cases hpass
      · exact hnothing
  · next usage after heq =>
    cases h
    obtain ⟨r', hlength, hlastpass⟩ := vfsWait4_last heq
    obtain rfl : r' = r := by
      have hsame : r' + 1 = r + 1 := hlength.symm.trans hlast
      omega
    rcases waitNoHang_sorted (waitMask options) WinRusage.zero (sorted_taskvWin parent pid tasks)
      (rounds r').tasks with ⟨i, hi, hreports, hfirst, hfound⟩ | ⟨hnothing, hfound⟩
    -- a child was found in the last round
    · left
      rcases hlastpass with ⟨usage', hpass, hok⟩ | ⟨hpass, -⟩
      · rw [hfound] at hpass
        cases hok
        cases hpass
        exact ⟨i, ⟨hi, hfirst⟩, hreports, rfl, rfl⟩
      · rw [hfound] at hpass
        cases hpass
    · right
      rcases hlastpass with ⟨usage', hpass, -⟩ | ⟨-, hzero⟩
      · rw [hfound] at hpass
        cases hpass
      · rw [hzero usage rfl]
        exact ⟨hnothing, le_refl _⟩

end

/-- That there is no child is said where nobody is selected, and nowhere else. -/
theorem sysWait4_echild_iff {parent : WinTask} {pid : Int} {options : UInt32} {tasks : Tasks}
    {fuel : Nat} {rounds : Nat → WaitRound} {waited : Waited}
    (h : sysWait4 parent pid options tasks fuel rounds = some waited)
    (hwait : ∀ r e, (rounds r).wait = .error e → errnoPosix e ≠ echild) (hpid : pid < childMax) :
    waited.result = -(echild : Int) ↔ taskvWin parent pid tasks = [] := by
  rcases sysWait4_cases h with ⟨hhigh, -⟩ | ⟨-, hnone, rfl⟩ |
    ⟨-, hsome, outcome, heq, ⟨e, rfl, hresult⟩ | ⟨usage, rfl, hresult⟩⟩
  · omega
  · exact ⟨fun _ => hnone, fun _ => rfl⟩
  · obtain ⟨-, -, herror⟩ := vfsWait4_rounds heq
    -- a failure of a round is that of a signal, or of the wait itself
    have hother : errnoPosix e ≠ echild := by
      rcases herror e rfl with rfl | ⟨r, hr⟩
      · decide
      · exact hwait r e hr
    exact ⟨fun hres => absurd hother (by omega), fun hnone => absurd hnone hsome⟩
  · have hechild : 0 < echild := by decide
    exact ⟨fun hres => by omega, fun hnone => absurd hnone hsome⟩

/-- The pid selects the task of the slot. -/
def PidSelects (parent : WinTask) (pid : Int) (tasks : Tasks) (i : Nat) : Prop :=
  dword pid ≠ parent.taskId ∧ IsSlot i ∧ SelectedTask parent pid tasks i

/-- A pass is made and comes to the slot: the rounds before it have gone on, and nothing is to be
reported of what is selected below the slot. -/
structure Comes (parent : WinTask) (pid : Int) (options : UInt32) (tasks : Tasks)
    (rounds : Nat → WaitRound) (r i : Nat) : Prop where
  selects : PidSelects parent pid tasks i
  goesOn : ∀ q < r, Unanswered (PidSelects parent pid tasks) (flagSet options wnohang)
    (waitMask options) (rounds q)
  below : ∀ j < i, PidSelects parent pid tasks j →
    ¬ Reports (waitMask options) ((rounds r).tasks j)

/-- What the call needs of the pid and of the tables. At the start a child that the pid stands for
has to be one that is selected, and where anybody is selected there has to be such a child. A task
that a pass comes to has to be a child if it has ended, and if it is to be reported its number has
to be that of a child. -/
structure SelectsChildren (parent : WinTask) (pid : Int) (options : UInt32) (tasks : Tasks)
    (rounds : Nat → WaitRound) : Prop where
  pid_lt : pid < childMax
  selected : ∀ i, IsChild parent tasks i → Matches parent pid tasks i →
    dword pid ≠ parent.taskId ∧ (0 < pid → (tasks i).handle ≠ 0)
  found : ∀ i, PidSelects parent pid tasks i →
    ∃ j, IsChild parent tasks j ∧ Matches parent pid tasks j
  ended : ∀ r i, Comes parent pid options tasks rounds r i →
    flagSet ((rounds r).tasks i).flags winPsNozombie = true ∨
      flagSet ((rounds r).tasks i).flags winPsZombie = true → IsChild parent (rounds r).tasks i
  told : ∀ r i, Comes parent pid options tasks rounds r i →
    Reports (waitMask options) ((rounds r).tasks i) → ((rounds r).tasks i).taskId ≠ 0 →
      ∃ j, ((rounds r).tasks j).taskId = ((rounds r).tasks i).taskId ∧
        IsChild parent (rounds r).tasks j ∧ Matches parent pid tasks j

section
variable {parent : WinTask} {pid : Int} {options : UInt32} {tasks : Tasks} {fuel : Nat}
  {rounds : Nat → WaitRound} {waited : Waited}

/-- A pass comes to a slot exactly when it is one of those that are made, the slot is in the vector,
and nothing is to be reported of what stands below. -/
theorem comes_iff (h : sysWait4 parent pid options tasks fuel rounds = some waited)
    (hpid : pid < childMax) {r i : Nat} :
    Comes parent pid options tasks rounds r i ↔ r < waited.after.length ∧
      i ∈ taskvWin parent pid tasks ∧ ∀ j ∈ taskvWin parent pid tasks, j < i →
        ¬ Reports (waitMask options) ((rounds r).tasks j) := by
  have hmem : ∀ j, j ∈ taskvWin parent pid tasks ↔ PidSelects parent pid tasks j := fun j =>
    mem_taskvWin hpid
  have hgoes : ∀ q, Unanswered (· ∈ taskvWin parent pid tasks) (flagSet options wnohang)
      (waitMask options) (rounds q) ↔
        Unanswered (PidSelects parent pid tasks) (flagSet options wnohang)
      (waitMask options) (rounds q) := fun q =>
    ⟨fun hq => ⟨hq.hangs, fun j hj => hq.nothing j ((hmem j).mpr hj), hq.wait, hq.signal⟩,
      fun hq => ⟨hq.hangs, fun j hj => hq.nothing j ((hmem j).mp hj), hq.wait, hq.signal⟩⟩
  constructor
  · rintro ⟨hselects, hrounds, hbelow⟩
    have hi := (hmem i).mpr hselects
    exact ⟨(sysWait4_made h hpid (List.ne_nil_of_mem hi) r).mpr fun q hq =>
      (hgoes q).mpr (hrounds q hq), hi, fun j hj hji => hbelow j hji ((hmem j).mp hj)⟩
  · rintro ⟨hr, hi, hbelow⟩
    exact ⟨(hmem i).mp hi, fun q hq =>
      (hgoes q).mp ((sysWait4_made h hpid (List.ne_nil_of_mem hi) r).mp hr q hq),
      fun j hji hj => hbelow j ((hmem j).mpr hj) hji⟩

/-- What a pass changes is what it comes to and has ended. -/
theorem touched_iff (h : sysWait4 parent pid options tasks fuel rounds = some waited)
    (hpid : pid < childMax) {r i : Nat} :
    (∃ table, waited.after[r]? = some table ∧ table i ≠ (rounds r).tasks i) ↔
      Comes parent pid options tasks rounds r i ∧
        (flagSet ((rounds r).tasks i).flags winPsNozombie = true ∨
          flagSet ((rounds r).tasks i).flags winPsZombie = true) := by
  rw [comes_iff h hpid]
  constructor
  · rintro ⟨table, hr, hne⟩
    rw [sysWait4_after h hr, waitNoHang_ne_iff (sorted_taskvWin parent pid tasks)] at hne
    exact ⟨⟨(List.getElem?_eq_some_iff.mp hr).1, hne.1, hne.2.1⟩, hne.2.2⟩
  · rintro ⟨⟨hr, hi, hbelow⟩, hended⟩
    have hafter := List.getElem?_eq_getElem hr
    refine ⟨_, hafter, ?_⟩
    rw [sysWait4_after h hafter, waitNoHang_ne_iff (sorted_taskvWin parent pid tasks)]
    exact ⟨hi, hbelow, hended⟩

/-- That there is no child is said rightly exactly when children are selected, and somebody else
only where there is a child, too. -/
theorem echild_iff (h : sysWait4 parent pid options tasks fuel rounds = some waited)
    (hwait : ∀ r e, (rounds r).wait = .error e → errnoPosix e ≠ echild) (hpid : pid < childMax) :
    (waited.result = -(echild : Int) ↔ ¬ ∃ i, IsChild parent tasks i ∧ Matches parent pid tasks i) ↔
      (∀ i, IsChild parent tasks i → Matches parent pid tasks i →
        dword pid ≠ parent.taskId ∧ (0 < pid → (tasks i).handle ≠ 0)) ∧
      ∀ i, PidSelects parent pid tasks i →
        ∃ j, IsChild parent tasks j ∧ Matches parent pid tasks j := by
  have hnone : taskvWin parent pid tasks = [] ↔ ¬ ∃ i, PidSelects parent pid tasks i := by
    rw [List.eq_nil_iff_forall_not_mem, not_exists]
    exact forall_congr' fun i => not_congr (mem_taskvWin hpid)
  rw [sysWait4_echild_iff h hwait hpid, hnone, not_iff_not]
  constructor
  · intro hsame
    refine ⟨fun i hchild hmatches => ?_, fun i hi => hsame.mp ⟨i, hi⟩⟩
    obtain ⟨j, hother, hslot, hj⟩ := hsame.mpr ⟨i, hchild, hmatches⟩
    refine ⟨hother, fun hpos => ?_⟩
    -- a number stands for one task only
    obtain ⟨hnumber, hhandle⟩ := (selectedTask_of_pos hpos).mp hj
    have hi : i = pid.toNat := by
      rcases hmatches with rfl | ⟨-, heq⟩ | ⟨rfl, -⟩ | ⟨hlow, -⟩
      · exact absurd hpos (by decide)
      · exact heq
      · exact absurd hpos (by decide)
      · omega
    rw [hi, ← hnumber]
    exact hhandle
  · rintro ⟨hselected, hfound⟩
    refine ⟨fun ⟨i, hi⟩ => hfound i hi, fun ⟨i, hchild, hmatches⟩ => ?_⟩
    obtain ⟨hother, hhandle⟩ := hselected i hchild hmatches
    exact ⟨i, hother, hchild.1, selected_of_matches hchild hhandle hmatches⟩

/-- A call waits for children exactly when the tables are such that it selects none but them: the
selection by a number or by a group does not look at the parent. -/
theorem wait4_children_iff (h : sysWait4 parent pid options tasks fuel rounds = some waited)
    (hwait : ∀ r e, (rounds r).wait = .error e → errnoPosix e ≠ echild) :
    WaitsForChildren parent pid tasks rounds waited ↔
      SelectsChildren parent pid options tasks rounds := by
  constructor
  · intro hall
    have hpid : pid < childMax := by
      by_contra hhigh
      have hno : ¬ ∃ i, IsChild parent tasks i ∧ Matches parent pid tasks i := by
        rintro ⟨i, ⟨⟨-, hlt⟩, -⟩, rfl | ⟨-, heq⟩ | ⟨rfl, -⟩ | ⟨hlow, -⟩⟩
        · exact hhigh (by decide)
        · unfold childMax at *
          omega
        · exact hhigh (by decide)
        · unfold childMax at *
          omega
      have hresult := hall.none_iff.mpr hno
      rcases sysWait4_cases h with ⟨-, rfl⟩ | ⟨hlt, -⟩ | ⟨hlt, -⟩
      · exact absurd hresult (by decide)
      · exact hhigh hlt
      · exact hhigh hlt
    obtain ⟨hselected, hfound⟩ := (echild_iff h hwait hpid).mp hall.none_iff
    refine ⟨hpid, hselected, hfound, fun r i hcomes hended => ?_, fun r i hcomes hreports hid => ?_⟩
    · obtain ⟨table, hr, hne⟩ := (touched_iff h hpid).mpr ⟨hcomes, hended⟩
      exact hall.touched r table i hr hne
    · -- the pass is the last one, and ends here
      obtain ⟨hr, hi, hbelow⟩ := (comes_iff h hpid).mp hcomes
      have hlast : waited.after.length = r + 1 := by
        refine Nat.le_antisymm (Nat.not_lt.mp fun hmore => ?_) hr
        have hgoes := (sysWait4_made h hpid (List.ne_nil_of_mem hi) (r + 1)).mp hmore r
          (Nat.lt_succ_self r)
        exact hgoes.nothing i hi hreports
      rcases sysWait4_last h hlast with ⟨k, ⟨hk, hfirst⟩, hkreports, hresult, -⟩ | ⟨hnothing, -⟩
      · have hki : k = i := by
          rcases Nat.lt_trichotomy k i with hlt | heq | hgt
          · exact absurd hkreports (hbelow k hk hlt)
          · exact heq
          · exact absurd hreports (hfirst i hi hgt)
        subst hki
        obtain ⟨r', j, hlast', htold, hchild, hmatches⟩ := hall.reported (by omega)
        obtain rfl : r' = r := by omega
        exact ⟨j, by omega, hchild, hmatches⟩
      · exact absurd hreports (hnothing i hi)
  · intro hselects
    refine ⟨fun hpos => ?_, fun r table i hr hne => ?_,
      (echild_iff h hwait hselects.pid_lt).mpr ⟨hselects.selected, hselects.found⟩⟩
    · obtain ⟨r, hlast⟩ := sysWait4_length h hpos
      rcases sysWait4_last h hlast with ⟨i, ⟨hi, hbelow⟩, hreports, hresult, -⟩ | ⟨-, hresult⟩
      · have hcomes := (comes_iff h hselects.pid_lt).mpr
          ⟨by omega, hi, fun j hj hji => hbelow j hj hji⟩
        obtain ⟨j, hsame, hchild, hmatches⟩ := hselects.told r i hcomes hreports (by omega)
        exact ⟨r, j, hlast, by omega, hchild, hmatches⟩
      · omega
    · obtain ⟨hcomes, hended⟩ := (touched_iff h hselects.pid_lt).mp ⟨table, hr, hne⟩
      exact hselects.ended r i hcomes hended

end

/-- Task 3 is a zombie and a child of the given task; task 2 is alive. -/
def family (parentId : Nat) : Tasks := fun i =>
  if i = 2 then { WinTask.zero with taskId := 2, handle := 8, flags := winPsExec }
  else if i = 3 then
    { WinTask.zero with
      taskId := 3, handle := 12, parentId := parentId, flags := winPsExiting ||| winPsZombie }
  else WinTask.zero

def standstill (tasks : Tasks) : Nat → WaitRound := fun _ => ⟨tasks, .ok (), false⟩

theorem wait4_children_iff_zombie :
    ∃ waited, sysWait4 (family 2 2) (-1) wnohang (family 2) 1 (standstill (family 2)) =
        some waited ∧ waited.result = 3 ∧
      WaitsForChildren (family 2 2) (-1) (family 2) (standstill (family 2)) waited := by
  refine ⟨⟨3, _, _⟩, rfl, rfl, ?_⟩
  have hvector : taskvWin (family 2 2) (-1) (family 2) = [3] := by decide
  have hchild : IsChild (family 2 2) (family 2) 3 := ⟨by decide, rfl⟩
  have hselects : ∀ i, PidSelects (family 2 2) (-1) (family 2) i → i = 3 := fun i hi => by
    have hmem := (mem_taskvWin (by decide)).mpr hi
    rwa [hvector, List.mem_singleton] at hmem
  refine (wait4_children_iff
    (show sysWait4 (family 2 2) (-1) wnohang (family 2) 1 (standstill (family 2)) =
      some ⟨3, _, _⟩ from rfl) (fun r e he => by cases he)).mpr
    ⟨by decide, fun i _ _ => ⟨by decide, fun hpos => absurd hpos (by decide)⟩,
      fun i _ => ⟨3, hchild, .inl rfl⟩, fun r i hcomes _ => ?_, fun r i hcomes _ _ => ?_⟩
  · rw [hselects i hcomes.selects]
    exact hchild
  · rw [hselects i hcomes.selects]
    exact ⟨3, rfl, hchild, .inl rfl⟩

/-- There is no task with the number, and no child, and another error is
answered. A task that is not a child is reported and given up. -/
theorem wait4_strangers :
    (∃ waited, sysWait4 (family 2 2) 80 0 (family 1) 1 (standstill (family 1)) = some waited ∧
      ¬ WaitsForChildren (family 2 2) 80 (family 1) (standstill (family 1)) waited) ∧
    ∃ waited, sysWait4 (family 2 2) 3 0 (family 1) 1 (standstill (family 1)) = some waited ∧
      waited.result = 3 ∧
      ¬ WaitsForChildren (family 2 2) 3 (family 1) (standstill (family 1)) waited := by
  refine ⟨⟨_, rfl, fun h => ?_⟩, ⟨_, rfl, rfl, fun h => ?_⟩⟩
  · have hno : ¬ ∃ i, IsChild (family 2 2) (family 1) i ∧ Matches (family 2 2) 80 (family 1) i := by
      rintro ⟨i, ⟨⟨-, hhigh⟩, -⟩, hany | ⟨-, heq⟩ | ⟨hzero, -⟩ | ⟨hneg, -⟩⟩
      · exact absurd hany (by decide)
      · unfold childMax at hhigh
        omega
      · exact absurd hzero (by decide)
      · exact absurd hneg (by decide)
    exact absurd (h.none_iff.mpr hno) (by decide)
  · obtain ⟨hslot, hparent⟩ := h.touched 0 _ 3 rfl (by decide)
    exact absurd hparent (by decide)

end MinC.Sys
