import MinC.Vfs.Task

/-!
Tasks that are made, and tasks that end.

A fork takes a slot for the child and copies what the child inherits from the
slot of its parent. The link to the parent is the number of its slot. It is
given up when the parent has waited for the child, and goes to `init` when the
parent cannot be told that the child has ended.
-/

namespace MinC.Vfs

open MinC.Lib

/-- How the making of a child ends: with the slot of the child, with the end of
the thread by the abort that is raised for want of a slot, or with an access
through a null pointer. -/
inductive Forked
  | child (i : Nat)
  | ended
  | fault
  deriving DecidableEq

/-- The thread that a fork makes: its parent waits for it if it is a `vfork`. -/
def WinThread.forked (thread : WinThread) (vfork : Bool) : WinThread :=
  { thread with flags := if vfork then winPsPpwait else 0 }

/-- What a child gets from its parent. -/
def inherit (thread : WinThread) (parent child : WinTask) : WinTask :=
  { child with
    flags := child.flags ||| thread.flags |||
      if flagSet parent.tracePoints winKtrfacInherit then winPsTraced else 0
    tracePoints :=
      if flagSet parent.tracePoints winKtrfacInherit then parent.tracePoints else child.tracePoints
    handle := thread.handle
    parentId := parent.taskId
    groupId := parent.groupId
    sessionId := parent.sessionId
    kernelTime := 0
    userTime := 0 }

/-- `proc_dup`, as far as it concerns tasks: fill a slot for a child of the task
in a slot. A program that catches the abort goes on with the slot it did not
get. -/
def procDupTask (aborts : Bool) (thread : WinThread) (parent : Nat) (tasks : Tasks) : Forked × Tasks :=
  match procCreateTask thread (tasks parent).groupId tasks with
  | (some i, tasks) =>
      (.child i, Function.update tasks i (inherit thread (tasks parent) (tasks i)))
  | (none, tasks) => (if aborts then .ended else .fault, tasks)

/-- Give up a task that was waited for. What `CloseHandle` answers is not looked
at. -/
def procClose (task : WinTask) : WinTask :=
  { task with parentId := 0, flags := task.flags ||| winPsNozombie }

/-- Leave a task to `init`. Its handle is forgotten if it could be closed. -/
def procOrphanize (closes : Bool) (task : WinTask) : WinTask :=
  { task with
    parentId := winPidInit
    handle := if closes then 0 else task.handle }

/-- `proc_execve`, as far as it concerns tasks: the process of another program
goes on as the same task. -/
def procExecveTask (thread : WinThread) (task : WinTask) : WinTask :=
  { task with
    flags := task.flags ||| winPsExec
    threadId := thread.threadId
    handle := thread.handle }

/-- The first task of a program that was not started by another task. -/
def procStart (thread : WinThread) (tasks : Tasks) : Option Nat × Tasks :=
  match procCreateTask thread 0 tasks with
  | (some i, tasks) =>
      (some i, Function.update tasks i { tasks i with flags := (tasks i).flags ||| winPsSystem })
  | (none, tasks) => (none, tasks)

/-- The first two steps of an exit. -/
def exitStatus (status : Int) (task : WinTask) : WinTask :=
  { task with status := UInt32.ofInt (status * 0x100) }

def exitBegin (task : WinTask) : WinTask := { task with flags := task.flags ||| winPsExiting }

/-- The first step of a thread that detaches. -/
def detach (task : WinTask) : WinTask :=
  if flagSet task.flags winPsExiting then { task with flags := task.flags ||| winPsZombie }
  else task

/-- Its last step: the parent is told, or the task is left to `init`. -/
def detachNotify (posted closes : Bool) (task : WinTask) : WinTask :=
  if posted then task else procOrphanize closes task

/-! ### Sessions -/

/-- A task that does not lead a group leads a new session. -/
def vfsSetsid (task : WinTask) : Bool × WinTask :=
  if task.taskId = task.groupId then (false, task)
  else (true, { task with groupId := task.taskId, sessionId := task.taskId })

/-! ### Signals -/

def wstopped : UInt32 := 0x7F

/-- A task stops, and waits for a signal. -/
def sigStop (task : WinTask) : WinTask := { task with status := wstopped }

/-- A signal ends a task. The status is that of the signal until the task exits. -/
def sigTerminate (signum : Int) (task : WinTask) : WinTask :=
  { task with status := UInt32.ofInt signum }

end MinC.Vfs
