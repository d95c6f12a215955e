import MinC.Lib.Layout
import MinC.Sys.Descriptors
import MinC.Sys.Wait
import MinC.Win.Sid

/-!
The tables of the system: its tasks, and the files they have open.

A table is dumped by a loop over all slots. Without a buffer the sizes of the
records are added up, with one the records are put into it, however large it
is.
-/

namespace MinC.Sys

open MinC.Lib MinC.Win MinC.Vfs

def winSzomb : UInt32 := 5

/-- A slot of the task table, with the user and the descriptors of the task. -/
structure KernTask extends WinTask where
  state : UInt32
  userSid : SID8
  node : Nat → WinVnode

/-- The sizes of `struct kinfo_proc` and `struct kinfo_file`. -/
structure KinfoSizes where
  proc : Nat
  file : Nat

/-- A record of an open file, and what it is filled in from. -/
structure KinfoFile where
  task : KernTask
  node : WinVnode

/-- The slots that the loops go over. -/
def kernSlots : List Nat := List.range' winPidInit (childMax - winPidInit)

section
variable (sizes : KinfoSizes) (tasks : Nat → KernTask)

/-! ### Tasks -/

/-- What a task is put for, if it is one of those that are asked for. The record is filled in from
the task. -/
def procDump (asked : Bool) (task : KernTask) (dump : Dump KernTask) : Dump KernTask :=
  if asked then dump.put (fun _ => sizes.proc) task else dump

def procKernProcAll (task : KernTask) : Dump KernTask → Dump KernTask :=
  procDump sizes (task.flags ≠ 0) task

def procKernProcPgrp (pgid : Int) (task : KernTask) : Dump KernTask → Dump KernTask :=
  procDump sizes (task.groupId = dword pgid) task

def procKernProcUid (machine : SID8) (uid : UInt32) (task : KernTask) :
    Dump KernTask → Dump KernTask :=
  let rid := ridPosix machine task.userSid
  procDump sizes (rid = if uid = 0 then rootUid else uid) task

def kernKernProc (dump : Dump KernTask) : Int × Dump KernTask :=
  (0, kernSlots.foldl
    (fun dump pid =>
      if (tasks pid).flags ≠ 0 then dump.put (fun _ => sizes.proc) (tasks pid) else dump)
    dump)

/-- What tasks are asked for, with the argument. -/
inductive KernProcOp
  | kthread
  | all
  | pgrp (pgid : Int)
  | uid (uid : UInt32)
  | other

/-- The loop returns from its first turn if it does not know what is asked for. -/
def kernKernProcNew (machine : SID8) (op : KernProcOp) (dump : Dump KernTask) :
    Int × Dump KernTask :=
  match op with
  | .kthread | .all =>
      (0, kernSlots.foldl (fun dump pid => procKernProcAll sizes (tasks pid) dump) dump)
  | .pgrp pgid =>
      (0, kernSlots.foldl (fun dump pid => procKernProcPgrp sizes pgid (tasks pid) dump) dump)
  | .uid uid =>
      (0, kernSlots.foldl (fun dump pid => procKernProcUid sizes machine uid (tasks pid) dump)
        dump)
  | .other => (-(einval : Int), dump)

/-! ### Open files -/

/-- The descriptors of a task. Unlike a task, a file is counted when it is put as well. -/
def fileKernFileBypid (task : KernTask) (dump : Dump KinfoFile) : Dump KinfoFile :=
  (List.range openMax).foldl
    (fun dump fd =>
      if (task.node fd).access ≠ 0 then
        dump.putCounted (fun _ => sizes.file) ⟨task, task.node fd⟩
      else dump)
    dump

def fileKernFile (dump : Dump KinfoFile) : Int × Dump KinfoFile :=
  (0, kernSlots.foldl
    (fun dump pid =>
      if (tasks pid).flags ≠ 0 ∧ (tasks pid).state ≠ winSzomb then
        fileKernFileBypid sizes (tasks pid) dump
      else dump)
    { dump with size := 0 })

/-! ### What is dumped -/

/-- The tasks that an operation asks for. -/
def KernProcOp.Asks (machine : SID8) (task : KernTask) : KernProcOp → Bool
  | .kthread | .all => task.flags ≠ 0
  | .pgrp pgid => task.groupId = dword pgid
  | .uid user => ridPosix machine task.userSid = if user = 0 then rootUid else user
  | .other => false

def usedTasks : List KernTask := (kernSlots.map tasks).filter fun task => task.flags ≠ 0

def askedTasks (machine : SID8) (op : KernProcOp) : List KernTask :=
  (kernSlots.map tasks).filter fun task => op.Asks machine task

def openNodes (task : KernTask) : List KinfoFile :=
  (((List.range openMax).map task.node).filter fun node => node.access ≠ 0).map fun node =>
    ⟨task, node⟩

def openFiles : List KinfoFile :=
  ((kernSlots.map tasks).filter fun task => task.flags ≠ 0 ∧ task.state ≠ winSzomb).flatMap
    openNodes

end

end MinC.Sys
