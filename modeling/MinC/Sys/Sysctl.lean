import MinC.Net.IfList
import MinC.Sys.Kernel

/-!
Dumps of tables into the buffer of a caller.

No dump looks at the size of the buffer. It puts all of its records, and they
are in the buffer exactly when there is room for them. The size that is told is
their room if it was zero, or is set to zero, before they are counted.
-/

namespace MinC.Sys

open MinC.Lib MinC.Win MinC.Vfs MinC.Net

/-- A dump puts nothing behind the end of the buffer, and fills one of the size that it tells
when it is asked for it. The one size is that of the buffer, the other one what is found in its
place when the size is asked for. -/
structure DumpKept {α : Type*} (size : α → Nat) (dump : Dump α → Int × Dump α)
    (asked length : Nat) : Prop where
  inside : Inside size length (dump (.fill length)).2.placed
  filled : Tiles size 0 (dump (.probe asked)).2.size
    (dump (.fill (dump (.probe asked)).2.size)).2.placed

section
variable {α : Type*} {size : α → Nat} {dump : Dump α → Int × Dump α}

/-- Whatever is put one behind the other from the start. -/
theorem dumpKept_iff {records : List α}
    (hfill : ∀ n, (dump (.fill n)).2.placed = layOut size 0 records) (asked length : Nat) :
    DumpKept size dump asked length ↔
      room size records ≤ length ∧ (dump (.probe asked)).2.size = room size records := by
  constructor
  · rintro ⟨hinside, hfilled⟩
    rw [hfill, inside_layOut_iff] at hinside
    rw [hfill, tiles_layOut_iff, Nat.zero_add] at hfilled
    exact ⟨hinside, hfilled.symm⟩
  · rintro ⟨hroom, hsize⟩
    refine ⟨?_, ?_⟩
    · rw [hfill, inside_layOut_iff]
      exact hroom
    · rw [hfill, tiles_layOut_iff, Nat.zero_add]
      exact hsize.symm

end

section
variable (sizes : KinfoSizes) (tasks : Nat → KernTask) (machine : SID8)

/-! ### What the loops put -/

theorem kernKernProc_eq (dump : Dump KernTask) :
    kernKernProc sizes tasks dump =
      (0, (usedTasks tasks).foldl (Dump.put fun _ => sizes.proc) dump) := by
  rw [kernKernProc, usedTasks, List.foldl_filter, List.foldl_map]
  simp only [decide_eq_true_eq]

theorem foldl_procDump (asked : KernTask → Bool) (dump : Dump KernTask) :
    kernSlots.foldl (fun dump pid => procDump sizes (asked (tasks pid)) (tasks pid) dump) dump =
      ((kernSlots.map tasks).filter asked).foldl (Dump.put fun _ => sizes.proc) dump := by
  rw [List.foldl_filter, List.foldl_map]
  rfl

theorem kernKernProcNew_eq (op : KernProcOp) (dump : Dump KernTask) :
    (kernKernProcNew sizes tasks machine op dump).2 =
      (askedTasks tasks machine op).foldl (Dump.put fun _ => sizes.proc) dump := by
  cases op with
  | kthread => exact foldl_procDump sizes tasks (fun task => task.flags ≠ 0) dump
  | all => exact foldl_procDump sizes tasks (fun task => task.flags ≠ 0) dump
  | pgrp pgid => exact foldl_procDump sizes tasks (fun task => task.groupId = dword pgid) dump
  | uid uid =>
      exact foldl_procDump sizes tasks
        (fun task => ridPosix machine task.userSid = if uid = 0 then rootUid else uid) dump
  | other =>
      have hnone : askedTasks tasks machine .other = [] :=
        List.filter_eq_nil_iff.mpr fun _ _ => Bool.false_ne_true
      rw [hnone]
      rfl

theorem fileKernFileBypid_eq (task : KernTask) (dump : Dump KinfoFile) :
    fileKernFileBypid sizes task dump =
      (openNodes task).foldl (Dump.putCounted fun _ => sizes.file) dump := by
  rw [fileKernFileBypid, openNodes, List.foldl_map, List.foldl_filter, List.foldl_map]
  simp only [decide_eq_true_eq]

theorem fileKernFile_eq (dump : Dump KinfoFile) :
    fileKernFile sizes tasks dump =
      (0, (openFiles tasks).foldl (Dump.putCounted fun _ => sizes.file)
        { dump with size := 0 }) := by
  rw [fileKernFile, openFiles, List.foldl_flatMap, List.foldl_filter, List.foldl_map]
  simp only [decide_eq_true_eq, fileKernFileBypid_eq]

/-! ### What is kept -/

theorem kernKernProc_kept_iff (asked length : Nat) :
    DumpKept (fun _ => sizes.proc) (kernKernProc sizes tasks) asked length ↔
      room (fun _ => sizes.proc) (usedTasks tasks) ≤ length ∧ asked = 0 := by
  have hfill : ∀ n, (kernKernProc sizes tasks (.fill n)).2.placed =
      layOut (fun _ => sizes.proc) 0 (usedTasks tasks) := by
    intro n
    rw [kernKernProc_eq, Dump.foldl_put_fill]
  rw [dumpKept_iff hfill, kernKernProc_eq, Dump.foldl_put_probe]
  exact and_congr_right fun _ => Nat.add_eq_right

theorem kernKernProcNew_kept_iff (op : KernProcOp) (asked length : Nat) :
    DumpKept (fun _ => sizes.proc) (kernKernProcNew sizes tasks machine op) asked length ↔
      room (fun _ => sizes.proc) (askedTasks tasks machine op) ≤ length ∧ asked = 0 := by
  have hfill : ∀ n, (kernKernProcNew sizes tasks machine op (.fill n)).2.placed =
      layOut (fun _ => sizes.proc) 0 (askedTasks tasks machine op) := by
    intro n
    rw [kernKernProcNew_eq, Dump.foldl_put_fill]
  rw [dumpKept_iff hfill, kernKernProcNew_eq, Dump.foldl_put_probe]
  exact and_congr_right fun _ => Nat.add_eq_right

theorem fileKernFile_kept_iff (asked length : Nat) :
    DumpKept (fun _ => sizes.file) (fileKernFile sizes tasks) asked length ↔
      room (fun _ => sizes.file) (openFiles tasks) ≤ length := by
  have hfill : ∀ n, (fileKernFile sizes tasks (.fill n)).2.placed =
      layOut (fun _ => sizes.file) 0 (openFiles tasks) := by
    intro n
    rw [fileKernFile_eq, Dump.fill, Dump.foldl_putCounted_some, List.nil_append]
  have hprobe : (fileKernFile sizes tasks (.probe asked)).2.size =
      room (fun _ => sizes.file) (openFiles tasks) := by
    rw [fileKernFile_eq]
    refine (congrArg Dump.size (Dump.foldl_putCounted_probe _ _ 0)).trans ?_
    exact Nat.zero_add _
  rw [dumpKept_iff hfill, hprobe]
  exact and_iff_left rfl

end

/-- The messages about the adapters that Windows lists. -/
def listedMessages {sizes : IfSizes} (adapters : Except UInt32 (List (WinIfent sizes))) :
    List IfItem :=
  match adapters with
  | .error _ => []
  | .ok adapters => flatten (allMessages adapters)

theorem routeNetRtIflist_kept_iff (sizes : IfSizes)
    (adapters : Except UInt32 (List (WinIfent sizes))) (asked length : Nat) :
    DumpKept (IfItem.size sizes) (routeNetRtIflist sizes adapters) asked length ↔
      room (IfItem.size sizes) (listedMessages adapters) ≤ length := by
  have hfill : ∀ n, (routeNetRtIflist sizes adapters (.fill n)).2.placed =
      layOut (IfItem.size sizes) 0 (listedMessages adapters) := by
    intro n
    cases adapters with
    | error error => rfl
    | ok adapters => rw [routeNetRtIflist_fill, listedMessages]
  have hprobe : (routeNetRtIflist sizes adapters (.probe asked)).2.size =
      room (IfItem.size sizes) (listedMessages adapters) := by
    cases adapters with
    | error error => rfl
    | ok adapters =>
        rw [routeNetRtIflist_probe, listedMessages]
        rfl
  rw [dumpKept_iff hfill, hprobe]
  exact and_iff_left rfl

/-- The dumps of the tasks, of the open files and of the interfaces keep to a buffer exactly when
there is room in it for all of their records; and those of the tasks only if the size that was
passed in to ask for theirs was zero. -/
theorem dumps_kept_iff (kinfo : KinfoSizes) (tasks : Nat → KernTask) (machine : SID8)
    (op : KernProcOp) (sizes : IfSizes) (adapters : Except UInt32 (List (WinIfent sizes)))
    (asked length : Nat) :
    (DumpKept (fun _ => kinfo.proc) (kernKernProc kinfo tasks) asked length ↔
        room (fun _ => kinfo.proc) (usedTasks tasks) ≤ length ∧ asked = 0) ∧
      (DumpKept (fun _ => kinfo.proc) (kernKernProcNew kinfo tasks machine op) asked length ↔
        room (fun _ => kinfo.proc) (askedTasks tasks machine op) ≤ length ∧ asked = 0) ∧
      (DumpKept (fun _ => kinfo.file) (fileKernFile kinfo tasks) asked length ↔
        room (fun _ => kinfo.file) (openFiles tasks) ≤ length) ∧
      (DumpKept (IfItem.size sizes) (routeNetRtIflist sizes adapters) asked length ↔
        room (IfItem.size sizes) (listedMessages adapters) ≤ length) :=
  ⟨kernKernProc_kept_iff kinfo tasks asked length,
    kernKernProcNew_kept_iff kinfo tasks machine op asked length,
    fileKernFile_kept_iff kinfo tasks asked length,
    routeNetRtIflist_kept_iff sizes adapters asked length⟩

def eightKinfo : KinfoSizes := ⟨8, 8⟩

/-- A table with one task, which has one file open. -/
def oneTask : Nat → KernTask := fun pid =>
  { WinTask.zero with
    flags := if pid = 1 then 1 else 0
    state := 0
    userSid := sidTrustedInstaller
    node := fun fd => { WinVnode.zero with access := if fd = 0 then 1 else 0 } }

/-- A task, its file and an adapter do not fit seven bytes, and the size that a task takes is told
too large to whom asks with another one. -/
theorem dumps_not_kept :
    ¬DumpKept (fun _ => eightKinfo.proc) (kernKernProc eightKinfo oneTask) 0 7 ∧
      ¬DumpKept (fun _ => eightKinfo.proc) (kernKernProc eightKinfo oneTask) 5 100 ∧
      ¬DumpKept (fun _ => eightKinfo.file) (fileKernFile eightKinfo oneTask) 0 7 ∧
      ¬DumpKept (IfItem.size eightSizes) (routeNetRtIflist eightSizes (.ok [loopback []])) 0 7 := by
  rw [kernKernProc_kept_iff, kernKernProc_kept_iff, fileKernFile_kept_iff,
    routeNetRtIflist_kept_iff]
  decide +kernel

end MinC.Sys
