import MinC.Vfs.Poll
import MinC.Vfs.Process

/-!
Signals.

A signal is a message to the thread of a task, with the number of a control
event. The senders go down the table of tasks from its end. What becomes of the
message to a single task is told to the caller, but not if it is one of many:
only a signal to all tasks fails, when none of them could be reached.
-/

namespace MinC.Vfs

open MinC.Lib MinC.Win

def wmSize : UInt32 := 0x0005
def wmClose : UInt32 := 0x0010
def wmQuit : UInt32 := 18
def wmCommand : UInt32 := 0x0111
def wmTimer : UInt32 := 0x0113
def wmUser : UInt32 := 0x0400

def ctrlCEvent : UInt32 := 0
def ctrlBreakEvent : UInt32 := 1
def ctrlCloseEvent : UInt32 := 2
def ctrlAccessViolationEvent : UInt32 := 3
def ctrlIllegalInstructionEvent : UInt32 := 4
def ctrlLogoffEvent : UInt32 := 5
def ctrlShutdownEvent : UInt32 := 6
def ctrlDivideByZeroEvent : UInt32 := 7
def ctrlSizeEvent : UInt32 := 8
def ctrlChildEvent : UInt32 := 9
def ctrlTimerEvent : UInt32 := 10
def ctrlDetachEvent : UInt32 := 11
def ctrlQuitEvent : UInt32 := 12
def ctrlPipeEvent : UInt32 := 13
def ctrlAbortEvent : UInt32 := 14
def ctrlVtimerEvent : UInt32 := 15
def ctrlUrgentEvent : UInt32 := 16
def ctrlUser1Event : UInt32 := 17
def ctrlUser2Event : UInt32 := 18
def ctrlInvalidArgumentEvent : UInt32 := 19
def ctrlEmulatorEvent : UInt32 := 20
def ctrlBusEvent : UInt32 := 21
def ctrlInfoEvent : UInt32 := 22
def ctrlStopEvent : UInt32 := 23
def ctrlContinueEvent : UInt32 := 24
def ctrlBackgroundReadEvent : UInt32 := 25
def ctrlBackgroundWriteEvent : UInt32 := 26
def ctrlIoEvent : UInt32 := 27
def ctrlTrapEvent : UInt32 := 28
def ctrlExcedCputimeEvent : UInt32 := 29
def ctrlExcedFileSizeEvent : UInt32 := 30
def ctrlProfilingEvent : UInt32 := 31

/-! ### Sending -/

structure WinMessage where
  threadId : Nat
  message : UInt32
  wParam : UInt32
  lParam : Nat
  deriving DecidableEq

/-- What Windows answers to a sender: whether a thread can be reached, whether
the event that interrupts waits can be set, and whether the sender is one of the
administrators. -/
structure Posting where
  post : Nat → Option Failure
  interrupt : Option Failure
  admin : Bool

/-- The message is sent if the thread can be reached. -/
def vfsKillPid (os : Posting) (m : WinMessage) : List WinMessage × Option Failure :=
  match os.post m.threadId with
  | some e => ([], some e)
  | none => ([m], os.interrupt)

/-- The slots of the table from its end down to the given one. -/
def slotsDown (low : Nat) : List Nat := (List.range' low (winChildMax - low)).reverse

/-- A message for the task of a slot. -/
def messageTo (tasks : Tasks) (message wParam : UInt32) (lParam i : Nat) : WinMessage where
  threadId := (tasks i).threadId
  message := message
  wParam := wParam
  lParam := lParam

/-- Messages to those tasks of some slots that are asked for. -/
def killEach (os : Posting) (asked : Nat → Bool) (letter : Nat → WinMessage) :
    List Nat → List WinMessage
  | [] => []
  | i :: slots =>
      (if asked i then (vfsKillPid os (letter i)).1 else []) ++ killEach os asked letter slots

def vfsKillGrp (os : Posting) (groupId : Nat) (message wParam : UInt32) (lParam : Nat)
    (tasks : Tasks) : List WinMessage :=
  killEach os (fun i => (tasks i).groupId == groupId) (messageTo tasks message wParam lParam)
    (slotsDown (winPidInit + 1))

def failPrivilegeNotHeld : Failure := ⟨errorPrivilegeNotHeld, by decide⟩
def failInvalidThreadId : Failure := ⟨errorInvalidThreadId, by decide⟩

/-- The task is in use, and is not the caller. -/
def otherTask (callerId : Nat) (tasks : Tasks) (i : Nat) : Bool :=
  (tasks i).flags != 0 && (tasks i).taskId != callerId

def vfsKillSys (os : Posting) (callerId : Nat) (message wParam : UInt32) (lParam : Nat)
    (tasks : Tasks) : List WinMessage × Option Failure :=
  if os.admin then
    (killEach os (otherTask callerId tasks) (messageTo tasks message wParam lParam)
        (slotsDown winPidInit),
      if (slotsDown winPidInit).any fun i => otherTask callerId tasks i &&
          (vfsKillPid os (messageTo tasks message wParam lParam i)).2.isNone then none
      else some failInvalidThreadId)
  else ([], some failPrivilegeNotHeld)

/-- Each task that is asked for and can be reached gets its message. -/
theorem killEach_eq (os : Posting) (asked : Nat → Bool) (letter : Nat → WinMessage)
    (slots : List Nat) :
    killEach os asked letter slots =
      (slots.filter fun i => asked i && (os.post (letter i).threadId).isNone).map letter := by
  induction slots with
  | nil => rfl
  | cons i slots ih =>
      rw [killEach, ih, List.filter_cons]
      cases asked i with
      | false => rfl
      | true =>
          cases hpost : os.post (letter i).threadId with
          | some e => simp [vfsKillPid, hpost]
          | none => simp [vfsKillPid, hpost]

theorem mem_slotsDown {low i : Nat} (hlow : low ≤ winChildMax) :
    i ∈ slotsDown low ↔ low ≤ i ∧ i < winChildMax := by
  rw [slotsDown, List.mem_reverse, List.mem_range'_1, Nat.add_sub_cancel' hlow]

theorem nodup_slotsDown (low : Nat) : (slotsDown low).Nodup :=
  List.nodup_reverse.mpr List.nodup_range'

/-! ### Receiving -/

/-- The control event of a message, as `vfs_raise` takes it. -/
def raisedEvent (m : WinMessage) : UInt32 :=
  if m.message = wmSize then ctrlSizeEvent
  else if m.message = wmClose then ctrlCloseEvent
  else if m.message = wmQuit then ctrlQuitEvent
  else if m.message = wmCommand then m.wParam
  else if m.message = wmTimer then ctrlTimerEvent
  else if m.message = wmUser then ctrlDetachEvent
  else ctrlInfoEvent

end MinC.Vfs
