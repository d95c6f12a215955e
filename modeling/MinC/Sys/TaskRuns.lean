import MinC.Lib.Runs
import MinC.Sys.Wait

/-!
Runs of the table of tasks.

Tasks fork, replace their programs, change their groups, exit and wait, in any
order. A slot is filled again and again; to tell its tasks from each other, the
table is accompanied by how often each slot was filled, and by who forked the
task that is in it now. The last step of an exit may come when the slot holds
another task already.

A fork takes the lowest unused slot from its group on. The slots that it clears
on the way are not taken, and when there is no slot left, it does not get to
tell its caller.
-/

namespace MinC.Sys

open MinC.Lib MinC.Win MinC.Vfs

/-! ### The steps -/

structure World where
  tasks : Tasks
  born : Nat → Nat
  forker : Nat → Option (Nat × Nat)
  leaving : List Nat

/-- The slots that a wait selected when it began. -/
structure WaitVector where
  slots : List Nat
  nodup : slots.Nodup

inductive TaskStep
  | start (thread : WinThread)
  | fork (aborts vfork : Bool) (thread : WinThread) (parent : Nat)
  | execve (thread : WinThread) (i : Nat)
  | exitStatus (status : Int) (i : Nat)
  | exitBegin (i : Nat)
  | detach (i : Nat)
  | notify (posted closes : Bool) (i : Nat)
  | wait (caller : Nat) (children : WaitVector) (options : UInt32)
  | setsid (i : Nat)
  | setpgid (i : Nat) (pid pgid : Int)

/-- The task of a slot executes its program. -/
def executes (task : WinTask) : Bool := task.flags != 0 && !flagSet task.flags winPsZombie

def sysSetpgid (caller : WinTask) (pid pgid : Int) (tasks : Tasks) : Int × Tasks :=
  if pid < 0 ∨ childMax ≤ pid then (-(einval : Int), tasks)
  else
    let i := if pid = 0 then caller.taskId else pid.toNat
    (0, Function.update tasks i
      { tasks i with groupId := if pgid = 0 then (tasks i).taskId else dword pgid })

namespace World

/-- Nothing has been started. -/
def empty : World := ⟨fun _ => WinTask.zero, fun _ => 0, fun _ => none, []⟩

def modify (w : World) (i : Nat) (f : WinTask → WinTask) : World :=
  { w with tasks := Function.update w.tasks i (f (w.tasks i)) }

/-- The task of the slot changes itself. -/
def act (w : World) (i : Nat) (f : WinTask → WinTask) : World :=
  if executes (w.tasks i) then w.modify i f else w

/-- There is a new task in a slot. -/
def fill (w : World) (i : Nat) (forker : Option (Nat × Nat)) (tasks : Tasks) : World where
  tasks := tasks
  born := Function.update w.born i (w.born i + 1)
  forker := Function.update w.forker i forker
  leaving := w.leaving

def start (w : World) (thread : WinThread) : World :=
  match procStart thread w.tasks with
  | (some i, tasks) => w.fill i none tasks
  | (none, tasks) => { w with tasks := tasks }

def fork (w : World) (aborts : Bool) (thread : WinThread) (parent : Nat) : World :=
  match procDupTask aborts thread parent w.tasks with
  | (.child i, tasks) => w.fill i (some (parent, w.born parent)) tasks
  | (_, tasks) => { w with tasks := tasks }

end World

def taskStep (w : World) : TaskStep → World
  | .start thread => w.start thread
  | .fork aborts vfork thread parent =>
      if executes (w.tasks parent) then w.fork aborts (thread.forked vfork) parent else w
  | .execve thread i => w.act i (procExecveTask thread)
  | .exitStatus status i => w.act i (exitStatus status)
  | .exitBegin i => w.act i exitBegin
  | .detach i =>
      if executes (w.tasks i) ∧ flagSet (w.tasks i).flags winPsExiting then
        { w.modify i detach with leaving := i :: w.leaving }
      else w
  | .notify posted closes i =>
      if i ∈ w.leaving then
        { w.modify i (detachNotify posted closes) with leaving := w.leaving.erase i }
      else w
  | .wait _ children options =>
      { w with
        tasks := (waitNoHang (waitMask options) WinRusage.zero children.slots w.tasks).2 }
  | .setsid i => w.act i fun task => (vfsSetsid task).2
  | .setpgid i pid pgid =>
      if executes (w.tasks i) then
        { w with tasks := (sysSetpgid (w.tasks i) pid pgid w.tasks).2 }
      else w

/-! ### Forks -/

/-- A fork stays inside the table, gets no child only if no slot from its group
on is unused or reclaimable, and then neither ends the program nor goes on
without a task. -/
structure ForkServed (aborts : Bool) (thread : WinThread) (parent : Nat) (tasks : Tasks) :
    Prop where
  inside : (∀ i, winChildMax ≤ i → (procDupTask aborts thread parent tasks).2 i = tasks i) ∧
    ∀ i, (procDupTask aborts thread parent tasks).1 = .child i → i < winChildMax
  full : (∀ i, (procDupTask aborts thread parent tasks).1 ≠ .child i) →
    ∀ i, (tasks parent).groupId ≤ i → i < winChildMax →
      unused tasks i = false ∧ reclaimable tasks i = false
  told : (procDupTask aborts thread parent tasks).1 ≠ .ended ∧
    (procDupTask aborts thread parent tasks).1 ≠ .fault

/-- A slot from the offset on is unused. -/
def HasRoom (tasks : Tasks) (offset : Nat) : Prop :=
  ∃ i, offset ≤ i ∧ i < winChildMax ∧ unused tasks i = true

section
variable {aborts : Bool} {thread : WinThread} {parent : Nat} {tasks : Tasks}

/-- How a fork ends. -/
theorem procDupTask_cases (aborts : Bool) (thread : WinThread) (parent : Nat) (tasks : Tasks) :
    (∃ i, LowestFree (unused tasks) (tasks parent).groupId winChildMax i ∧
      procDupTask aborts thread parent tasks = (.child i,
        Function.update (swept tasks (tasks parent).groupId i) i
          (inherit thread
            (Function.update (swept tasks (tasks parent).groupId i) i (embryo thread i (tasks i))
              parent)
            (embryo thread i (tasks i))))) ∨
    ((∀ i, (tasks parent).groupId ≤ i → i < winChildMax → unused tasks i = false) ∧
      procDupTask aborts thread parent tasks = (if aborts then .ended else .fault,
        swept tasks (tasks parent).groupId winChildMax)) := by
  unfold procDupTask
  rcases procCreateTask_cases thread (tasks parent).groupId tasks with
    ⟨i, hlow, heq⟩ | ⟨hnone, heq⟩
  · left
    refine ⟨i, hlow, ?_⟩
    rw [heq]
    dsimp only
    rw [Function.update_idem, Function.update_self]
  · right
    refine ⟨hnone, ?_⟩
    rw [heq]

/-- A fork is served exactly when there is an unused slot for the child. -/
theorem forkServed_iff :
    ForkServed aborts thread parent tasks ↔ HasRoom tasks (tasks parent).groupId := by
  constructor
  · intro h
    rcases procDupTask_cases aborts thread parent tasks with ⟨i, hlow, -⟩ | ⟨-, heq⟩
    · exact ⟨i, hlow.low_le, hlow.lt_high, hlow.isFree⟩
    · have htold := h.told
      rw [heq] at htold
      cases aborts with
      | false => exact absurd rfl htold.2
      | true => exact absurd rfl htold.1
  · rintro ⟨k, hk, hmax, hfree⟩
    rcases procDupTask_cases aborts thread parent tasks with ⟨i, hlow, heq⟩ | ⟨hnone, -⟩
    · have hi := hlow.lt_high
      refine ⟨⟨fun j hj => ?_, fun j hj => ?_⟩, fun hno => ?_, ?_, ?_⟩
      · rw [heq]
        dsimp only
        rw [Function.update_of_ne (by omega), swept_outside (.inr (by omega))]
      · rw [heq] at hj
        cases hj
        exact hi
      · exact absurd (congrArg Prod.fst heq) (hno i)
      · rw [heq]
        exact Forked.noConfusion
      · rw [heq]
        exact Forked.noConfusion
    · rw [hnone k hk hmax] at hfree
      cases hfree

end

/-- What is asked of the steps of a run. -/
def Served (w : World) : TaskStep → Prop
  | .fork aborts vfork thread parent =>
      executes (w.tasks parent) = true → ForkServed aborts (thread.forked vfork) parent w.tasks
  | _ => True

/-- Forks find an unused slot. -/
def Spacious (w : World) : TaskStep → Prop
  | .fork _ _ _ parent =>
      executes (w.tasks parent) = true → HasRoom w.tasks (w.tasks parent).groupId
  | _ => True

/-- All forks of a run are served exactly when there is an unused slot for each
of them. -/
theorem forks_served_iff (w : World) (steps : List TaskStep) :
    Along taskStep Served w steps ↔ Along taskStep Spacious w steps := by
  refine along_congr (fun w a => ?_) w steps
  cases a with
  | fork aborts vfork thread parent => exact forall_congr' fun _ => forkServed_iff
  | _ => exact Iff.rfl

def anyThread : WinThread := ⟨100, 200, 300, 0⟩

/-- A task of a group at the end of the table, whose last child was waited for.
The slot of that child could be reclaimed, but is not found. -/
def lastSlot : List TaskStep :=
  [.start anyThread, .fork false false anyThread 0, .setpgid 1 0 79,
    .fork false false anyThread 1, .exitBegin 79, .detach 79, .notify true true 79,
    .wait 1 ⟨[79], by decide⟩ 0]

theorem fork_not_served :
    (∀ i, (procDupTask false anyThread 1 (run taskStep World.empty lastSlot).tasks).1 ≠ .child i) ∧
    reclaimable (run taskStep World.empty lastSlot).tasks 79 = true ∧
    ¬ Along taskStep Served World.empty (lastSlot ++ [.fork true false anyThread 1]) := by
  have hended : (procDupTask true (anyThread.forked false) 1
      (run taskStep World.empty lastSlot).tasks).1 = .ended := by decide
  have hfault : (procDupTask false anyThread 1 (run taskStep World.empty lastSlot).tasks).1 =
      .fault := by decide
  refine ⟨fun i h => ?_, by decide, fun h => ?_⟩
  · rw [hfault] at h
    cases h
  · have hserved := along_iff_split.mp h lastSlot _ [] rfl (by decide)
    exact hserved.told.1 hended

end MinC.Sys
