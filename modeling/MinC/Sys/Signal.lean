import MinC.Vfs.Signal
import MinC.Sys.Wait

/-!
The `kill` call.

Signals and control events are translated by two tables, each of which undoes
the other. Only the branch for a single task, and for the group of the caller,
knows of the signal that is none.
-/

namespace MinC.Sys

open MinC.Lib MinC.Win MinC.Vfs

def nsig : Nat := 33

def sighup : Nat := 1
def sigint : Nat := 2
def sigquit : Nat := 3
def sigill : Nat := 4
def sigtrap : Nat := 5
def sigabrt : Nat := 6
def sigemt : Nat := 7
def sigfpe : Nat := 8
def sigkill : Nat := 9
def sigbus : Nat := 10
def sigsegv : Nat := 11
def sigsys : Nat := 12
def sigpipe : Nat := 13
def sigalrm : Nat := 14
def sigterm : Nat := 15
def sigurg : Nat := 16
def sigstop : Nat := 17
def sigtstp : Nat := 18
def sigcont : Nat := 19
def sigchld : Nat := 20
def sigttin : Nat := 21
def sigttou : Nat := 22
def sigio : Nat := 23
def sigxcpu : Nat := 24
def sigxfsz : Nat := 25
def sigvtalrm : Nat := 26
def sigprof : Nat := 27
def sigwinch : Nat := 28
def siginfo : Nat := 29
def sigusr1 : Nat := 30
def sigusr2 : Nat := 31
def sigthr : Nat := 32

/-- The control event of each signal. -/
def sigWinTable : List UInt32 :=
  [0, ctrlLogoffEvent, ctrlCEvent, ctrlQuitEvent, ctrlIllegalInstructionEvent, ctrlTrapEvent,
    ctrlAbortEvent, ctrlEmulatorEvent, ctrlDivideByZeroEvent, ctrlCloseEvent, ctrlBusEvent,
    ctrlAccessViolationEvent, ctrlInvalidArgumentEvent, ctrlPipeEvent, ctrlTimerEvent,
    ctrlShutdownEvent, ctrlUrgentEvent, ctrlStopEvent, ctrlBreakEvent, ctrlContinueEvent,
    ctrlChildEvent, ctrlBackgroundReadEvent, ctrlBackgroundWriteEvent, ctrlIoEvent,
    ctrlExcedCputimeEvent, ctrlExcedFileSizeEvent, ctrlVtimerEvent, ctrlProfilingEvent,
    ctrlSizeEvent, ctrlInfoEvent, ctrlUser1Event, ctrlUser2Event, ctrlDetachEvent]

/-- The signal of each control event. -/
def sigPosixTable : List Nat :=
  [sigint, sigtstp, sigkill, sigsegv, sigill, sighup, sigterm, sigfpe, sigwinch, sigchld, sigalrm,
    sigthr, sigquit, sigpipe, sigabrt, sigvtalrm, sigurg, sigusr1, sigusr2, sigsys, sigemt, sigbus,
    siginfo, sigstop, sigcont, sigttin, sigttou, sigio, sigtrap, sigxcpu, sigxfsz, sigprof, 0]

/-- An entry of the table, unless it is outside. -/
def sigWin (sig : Int) : Option UInt32 := if sig < 0 then none else sigWinTable[sig.toNat]?

def sigPosix (event : UInt32) : Option Nat := sigPosixTable[event.toNat]?

/-- The signal that a receiver of the message handles. -/
def received (m : WinMessage) : Option Nat := sigPosix (raisedEvent m)

/-- How `kill` ends: with a result, or with a look outside the table. -/
inductive Killed
  | returned (result : Int) (sent : List WinMessage)
  | outside
  deriving DecidableEq

def pidWin (tasks : Tasks) (pid : Int) : Nat :=
  if pid < 0 ∨ childMax ≤ pid then 0 else (tasks pid.toNat).threadId

def killResult : Option Failure → Int
  | none => 0
  | some e => -(errnoPosix e : Int)

def killGrp (os : Posting) (caller : WinTask) (groupId : Nat) (sig : Int) (tasks : Tasks) :
    Killed :=
  match sigWin sig with
  | none => .outside
  | some event => .returned 0 (vfsKillGrp os groupId wmCommand event caller.taskId tasks)

def killSys (os : Posting) (caller : WinTask) (sig : Int) (tasks : Tasks) : Killed :=
  match sigWin sig with
  | none => .outside
  | some event =>
      let killed := vfsKillSys os caller.taskId wmCommand event caller.taskId tasks
      .returned (killResult killed.2) killed.1

def killPid (os : Posting) (caller : WinTask) (pid sig : Int) (tasks : Tasks) : Killed :=
  match sigWin sig with
  | none => .outside
  | some event =>
      let killed := vfsKillPid os ⟨pidWin tasks pid, wmCommand, event, caller.taskId⟩
      .returned (killResult killed.2) killed.1

def sysKill (os : Posting) (caller : WinTask) (tasks : Tasks) (pid sig : Int) : Killed :=
  if nsig ≤ sig then .returned (-(einval : Int)) []
  else if pid = -1 then killSys os caller sig tasks
  else if pid < 0 then killGrp os caller (dword (-pid)) sig tasks
  else if sig = 0 then .returned (if pidWin tasks pid = 0 then -(esrch : Int) else 0) []
  else if pid = 0 then killGrp os caller caller.groupId sig tasks
  else if childMax ≤ pid then .returned (-(einval : Int)) []
  else killPid os caller pid sig tasks

/-! ### The tables -/

/-- A signal is what its control event is translated back to. -/
theorem sigPosix_sigWin {sig : Int} (hlow : 0 < sig) (hhigh : sig < nsig) :
    ∃ event, sigWin sig = some event ∧ sigPosix event = some sig.toNat := by
  have htable : ∀ n < nsig, 0 < n →
      ∃ event, sigWinTable[n]? = some event ∧ sigPosix event = some n := by decide
  obtain ⟨event, hwin, hposix⟩ := htable sig.toNat (by omega) (by omega)
  exact ⟨event, by rw [sigWin, if_neg (by omega), hwin], hposix⟩

/-! ### Who is signalled -/

/-- The task is one that the pid stands for, as far as signals get: not to the
task that was there before `init`, and in a group not to `init`. -/
def KillSelects (caller : WinTask) (pid : Int) (tasks : Tasks) (i : Nat) : Prop :=
  (0 < pid ∧ i = pid.toNat ∧ i < childMax) ∨
    (pid = 0 ∧ (winPidInit < i ∧ i < childMax) ∧ (tasks i).groupId = caller.groupId) ∨
    (pid = -1 ∧ (winPidInit ≤ i ∧ i < childMax) ∧ otherTask caller.taskId tasks i = true) ∨
    (pid < -1 ∧ (winPidInit < i ∧ i < childMax) ∧ (tasks i).groupId = dword (-pid))

/-- Messages with the event for those selected tasks whose threads can be
reached, and one for each. -/
def SentTo (os : Posting) (caller : WinTask) (tasks : Tasks) (event : UInt32)
    (selects : Nat → Prop) (sent : List WinMessage) : Prop :=
  ∃ slots : List Nat, slots.Nodup ∧
    sent = slots.map (messageTo tasks wmCommand event caller.taskId) ∧
    ∀ i, i ∈ slots ↔ selects i ∧ os.post (tasks i).threadId = none

section
variable {caller : WinTask} {pid : Int} {tasks : Tasks} {i : Nat}

theorem killSelects_zero : KillSelects caller 0 tasks i ↔
    (winPidInit < i ∧ i < childMax) ∧ (tasks i).groupId = caller.groupId := by
  simp [KillSelects]

theorem killSelects_any : KillSelects caller (-1) tasks i ↔
    (winPidInit ≤ i ∧ i < childMax) ∧ otherTask caller.taskId tasks i = true := by
  simp [KillSelects]

theorem killSelects_of_pos (h : 0 < pid) :
    KillSelects caller pid tasks i ↔ i = pid.toNat ∧ i < childMax := by
  have hzero : pid ≠ 0 := by omega
  have hany : pid ≠ -1 := by omega
  have hgroup : ¬ pid < -1 := by omega
  simp only [KillSelects, h, hzero, hany, hgroup, true_and, false_and, or_false]

theorem killSelects_of_lt (h : pid < -1) : KillSelects caller pid tasks i ↔
    (winPidInit < i ∧ i < childMax) ∧ (tasks i).groupId = dword (-pid) := by
  have hzero : pid ≠ 0 := by omega
  have hany : pid ≠ -1 := by omega
  have hpos : ¬ 0 < pid := by omega
  simp only [KillSelects, h, hzero, hany, hpos, true_and, false_and, false_or]

end

section
variable {os : Posting} {caller : WinTask} {tasks : Tasks} {event : UInt32}

theorem sentTo_congr {selects selects' : Nat → Prop} {sent : List WinMessage}
    (h : ∀ i, selects i ↔ selects' i) (hsent : SentTo os caller tasks event selects sent) :
    SentTo os caller tasks event selects' sent := by
  obtain ⟨slots, hnodup, heq, hmem⟩ := hsent
  exact ⟨slots, hnodup, heq, fun i => (hmem i).trans (and_congr_left' (h i))⟩

theorem sentTo_nil (os : Posting) (caller : WinTask) (tasks : Tasks) (event : UInt32) :
    SentTo os caller tasks event (fun _ => False) [] :=
  ⟨[], List.nodup_nil, rfl, fun _ => ⟨fun h => absurd h List.not_mem_nil, fun h => h.1.elim⟩⟩

theorem sentTo_each {low : Nat} (hlow : low ≤ winChildMax) (asked : Nat → Bool) :
    SentTo os caller tasks event (fun i => (low ≤ i ∧ i < winChildMax) ∧ asked i = true)
      (killEach os asked (messageTo tasks wmCommand event caller.taskId) (slotsDown low)) := by
  refine ⟨_, (nodup_slotsDown low).filter _, killEach_eq os asked _ _, fun i => ?_⟩
  rw [List.mem_filter, mem_slotsDown hlow, Bool.and_eq_true, Option.isNone_iff_eq_none]
  exact and_assoc.symm

theorem sentTo_pid (os : Posting) (caller : WinTask) (tasks : Tasks) (event : UInt32) (i : Nat) :
    SentTo os caller tasks event (fun j => j = i)
      (vfsKillPid os (messageTo tasks wmCommand event caller.taskId i)).1 := by
  unfold vfsKillPid
  cases hpost : os.post (messageTo tasks wmCommand event caller.taskId i).threadId with
  | some e =>
      refine ⟨[], List.nodup_nil, rfl, fun j => ⟨fun h => absurd h List.not_mem_nil, ?_⟩⟩
      rintro ⟨rfl, hnone⟩
      exact absurd (hpost.symm.trans hnone) (Option.some_ne_none e)
  | none =>
      refine ⟨[i], List.nodup_singleton i, rfl, fun j => ?_⟩
      rw [List.mem_singleton]
      constructor
      · rintro rfl
        exact ⟨rfl, hpost⟩
      · exact fun h => h.1

/-- Who is signalled by a signal that there is. -/
theorem sysKill_sent (os : Posting) (caller : WinTask) (tasks : Tasks) {pid sig : Int}
    (hlow : 0 < sig) (hhigh : sig < nsig) (hevent : sigWin sig = some event)
    (hadmin : pid = -1 → os.admin = true) :
    ∃ result sent, sysKill os caller tasks pid sig = .returned result sent ∧
      SentTo os caller tasks event (KillSelects caller pid tasks) sent := by
  have hsig : ¬ (nsig : Int) ≤ sig := by omega
  unfold sysKill
  rw [if_neg hsig]
  -- the cases are those of the call, in its order
  by_cases hall : pid = -1
  · subst hall
    rw [if_pos rfl, killSys, hevent]
    refine ⟨_, _, rfl, ?_⟩
    rw [vfsKillSys, if_pos (hadmin rfl)]
    exact sentTo_congr (fun i => killSelects_any.symm)
      (sentTo_each (show winPidInit ≤ winChildMax by decide) (otherTask caller.taskId tasks))
  rw [if_neg hall]
  by_cases hgroup : pid < 0
  · have hlt : pid < -1 := by omega
    rw [if_pos hgroup, killGrp, hevent]
    refine ⟨_, _, rfl, ?_⟩
    rw [vfsKillGrp]
    refine sentTo_congr (fun i => ?_) (sentTo_each (show winPidInit + 1 ≤ winChildMax by decide) _)
    rw [beq_iff_eq, killSelects_of_lt hlt]
    rfl
  rw [if_neg hgroup, if_neg (by omega)]
  by_cases hown : pid = 0
  · subst hown
    rw [if_pos rfl, killGrp, hevent]
    refine ⟨_, _, rfl, ?_⟩
    rw [vfsKillGrp]
    refine sentTo_congr (fun i => ?_) (sentTo_each (show winPidInit + 1 ≤ winChildMax by decide) _)
    rw [beq_iff_eq, killSelects_zero]
    rfl
  have hpos : 0 < pid := by omega
  rw [if_neg hown]
  by_cases hrange : childMax ≤ pid
  · rw [if_pos hrange]
    refine ⟨_, _, rfl, sentTo_congr (fun i => ?_) (sentTo_nil os caller tasks event)⟩
    rw [killSelects_of_pos hpos]
    refine iff_of_false id ?_
    rintro ⟨rfl, hmax⟩
    omega
  · rw [if_neg hrange, killPid, hevent]
    refine ⟨_, _, rfl, ?_⟩
    rw [pidWin, if_neg (by omega)]
    refine sentTo_congr (fun i => ?_) (sentTo_pid os caller tasks event pid.toNat)
    rw [killSelects_of_pos hpos]
    have hmax : pid.toNat < childMax := by omega
    constructor
    · rintro rfl
      exact ⟨rfl, hmax⟩
    · exact fun h => h.1

theorem received_of_sentTo {selects : Nat → Prop} {sent : List WinMessage} {sig : Nat}
    (hposix : sigPosix event = some sig) (h : SentTo os caller tasks event selects sent) :
    ∀ m ∈ sent, received m = some sig := by
  obtain ⟨slots, -, rfl, -⟩ := h
  intro m hm
  obtain ⟨i, -, rfl⟩ := List.mem_map.mp hm
  exact hposix

end

/-- No signal is sent for the signal that is none if the pid is not negative. A
signal that there is gets to those tasks that the pid selects, and to all tasks
only if an administrator sends it. Signals beyond the table are refused. -/
theorem sysKill_signals (os : Posting) (caller : WinTask) (tasks : Tasks) (pid sig : Int) :
    (sig = 0 → 0 ≤ pid → ∃ result, sysKill os caller tasks pid sig = .returned result []) ∧
    (0 < sig → sig < nsig → (pid = -1 → os.admin = true) → ∃ result sent event,
      sysKill os caller tasks pid sig = .returned result sent ∧
      SentTo os caller tasks event (KillSelects caller pid tasks) sent ∧
      ∀ m ∈ sent, received m = some sig.toNat) ∧
    (0 < sig → sig < nsig → pid = -1 → os.admin = false →
      sysKill os caller tasks pid sig = .returned (-(eperm : Int)) []) ∧
    (nsig ≤ sig → sysKill os caller tasks pid sig = .returned (-(einval : Int)) []) := by
  refine ⟨fun hsig hpid => ?_, fun hlow hhigh hadmin => ?_, fun hlow hhigh hpid hadmin => ?_,
    fun hsig => ?_⟩
  · subst hsig
    rw [sysKill, if_neg (by decide), if_neg (by omega), if_neg (by omega), if_pos rfl]
    exact ⟨_, rfl⟩
  · obtain ⟨event, hwin, hposix⟩ := sigPosix_sigWin hlow hhigh
    obtain ⟨result, sent, hkill, hsent⟩ := sysKill_sent os caller tasks hlow hhigh hwin hadmin
    exact ⟨result, sent, event, hkill, hsent, received_of_sentTo hposix hsent⟩
  · obtain ⟨event, hwin, -⟩ := sigPosix_sigWin hlow hhigh
    rw [sysKill, if_neg (by omega), if_pos hpid, killSys, hwin]
    simp only [vfsKillSys, hadmin]
    rfl
  · exact if_pos hsig

/-- The tasks that a pid stands for, whoever asks and wherever they are in the
table. -/
def PidNames (caller : WinTask) (pid : Int) (tasks : Tasks) (i : Nat) : Prop :=
  i < childMax ∧ ((0 < pid ∧ i = pid.toNat) ∨
    (pid = 0 ∧ i ≠ winPidInit ∧ (tasks i).groupId = caller.groupId) ∨
    (pid = -1 ∧ otherTask caller.taskId tasks i = true) ∨
    (pid < -1 ∧ i ≠ winPidInit ∧ (tasks i).groupId = dword (-pid)))

/-- Nothing is sent for the signal that is none, a signal that there is gets to
the tasks that the pid stands for, and any other is refused. -/
structure Kills (os : Posting) (caller : WinTask) (tasks : Tasks) (pid sig : Int) : Prop where
  none : sig = 0 → ∃ result, sysKill os caller tasks pid sig = .returned result []
  signal : 0 < sig → sig < nsig → ∃ result sent event,
    sysKill os caller tasks pid sig = .returned result sent ∧
    SentTo os caller tasks event (PidNames caller pid tasks) sent ∧
    ∀ m ∈ sent, received m = some sig.toNat
  other : sig < 0 ∨ nsig ≤ sig → ∃ error : Nat, 0 < error ∧
    sysKill os caller tasks pid sig = .returned (-(error : Int)) []

/-- Every thread can be reached. -/
def reachable (admin : Bool) : Posting := ⟨fun _ => none, none, admin⟩

/-- Tasks 2 and 3, which are in use, each with its own thread. -/
def twoTasks : Tasks := fun i =>
  if i = 2 ∨ i = 3 then
    { WinTask.zero with taskId := i, threadId := 100 + i, groupId := 2, flags := winPsExec }
  else WinTask.zero

/-- Who is no administrator signals nobody. A signal that is none is sent to all
tasks, and one below the table is looked up. -/
theorem not_kills :
    ¬ Kills (reachable false) (twoTasks 2) twoTasks (-1) 15 ∧
    ¬ Kills (reachable true) (twoTasks 2) twoTasks (-1) 0 ∧
    ¬ Kills (reachable true) (twoTasks 2) twoTasks 3 (-1) := by
  refine ⟨fun h => ?_, fun h => ?_, fun h => ?_⟩
  · obtain ⟨result, sent, event, hkill, ⟨slots, -, hslots, hmem⟩, -⟩ :=
      h.signal (by decide) (by decide)
    have hnone : sysKill (reachable false) (twoTasks 2) twoTasks (-1) 15 =
        .returned (-(eperm : Int)) [] := by decide
    have hthree : 3 ∈ slots := (hmem 3).mpr
      ⟨⟨by decide, .inr (.inr (.inl ⟨rfl, by decide⟩))⟩, rfl⟩
    rw [hnone] at hkill
    have hsent : sent = [] := (Killed.returned.inj hkill).2.symm
    rw [hsent] at hslots
    rw [List.map_eq_nil_iff.mp hslots.symm] at hthree
    exact absurd hthree List.not_mem_nil
  · obtain ⟨result, hkill⟩ := h.none rfl
    have hsent : sysKill (reachable true) (twoTasks 2) twoTasks (-1) 0 =
        .returned 0 [⟨103, wmCommand, ctrlCEvent, 2⟩] := by decide
    rw [hsent] at hkill
    exact absurd (Killed.returned.inj hkill).2 (List.cons_ne_nil _ _)
  · obtain ⟨error, -, hkill⟩ := h.other (.inl (by decide))
    have houtside : sysKill (reachable true) (twoTasks 2) twoTasks 3 (-1) = .outside := by decide
    rw [houtside] at hkill
    cases hkill

end MinC.Sys
