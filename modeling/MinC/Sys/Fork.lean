import MinC.Lib.Runs
import MinC.Sys.Signal
import MinC.Sys.TaskRuns
import Mathlib.Data.Finset.Card

/-!
Threads that fork.

A fork makes a thread in the process of its parent, which fills a slot of the
table for itself and then tells the parent which one; the parent waits for that
message. After a `vfork` the message is sent when the thread of the child ends:
because the child exits, or because the process of another program goes on in
its slot. A process counts its threads, and is ended by the last of them.

A message is sent to the thread that the parent's slot names, and nothing in it
tells which fork it answers. Threads are numbered in the order in which they are
made, and a process has the number of its first thread. What a fork made, and
which slot was filled for it, is written down beside the state, and read by no
step. That Windows makes no thread for a fork is left out: the process has then
counted a thread that there is none for, and its parent waits for good.
-/

namespace MinC.Sys

open MinC.Lib MinC.Win MinC.Vfs

/-! ### Threads -/

/-- What a thread does. A thread that was made by a fork begins in `_fork_leave`, where it
has the thread, the slot and the kind of the fork in its `WIN_THREAD_STRUCT`. -/
inductive Phase
  | running
  | waiting (vfork : Bool)
  | starting (parent task : Nat) (vfork : Bool)
  | copied (parent : Nat) (vfork : Bool) (result : Nat)
  | leaving
  deriving DecidableEq

/-- A thread with its process and the slot in its local storage. -/
structure Thread where
  process : Nat
  slot : Nat
  phase : Phase
  deriving DecidableEq

structure ForkWorld where
  tasks : Tasks
  threads : Nat → Option Thread
  queue : Nat → List Nat
  threadCount : Nat → Nat
  next : Nat
  forked : Nat → Option Nat
  took : Nat → Option Nat

inductive ForkStep
  | start (handle : Nat)
  | fork (vfork : Bool) (t : Nat)
  | copy (handle t : Nat)
  | leave (t : Nat)
  | receive (t : Nat)
  | poll (t : Nat)
  | execve (handle t : Nat)
  | exit (status : Int) (posted closes : Bool) (t : Nat)
  | detach (posted closes : Bool) (t : Nat)
  | wait (i : Nat)

/-- `posix_PROCESS_DETACH` and the part of `posix_THREAD_DETACH` that is the same. -/
def endTask (posted closes : Bool) (task : WinTask) : WinTask :=
  if flagSet task.flags winPsExiting then detachNotify posted closes (detach task) else task

namespace ForkWorld

/-- Nothing has been started. -/
def empty : ForkWorld where
  tasks := fun _ => WinTask.zero
  threads := fun _ => none
  queue := fun _ => []
  threadCount := fun _ => 0
  next := 0
  forked := fun _ => none
  took := fun _ => none

/-- `PostThreadMessage` with `WM_USER`. -/
def post (w : ForkWorld) (t slot : Nat) : ForkWorld :=
  if (w.threads t).isSome then
    { w with queue := Function.update w.queue t (w.queue t ++ [slot]) }
  else w

/-- A program is started from outside. -/
def start (w : ForkWorld) (handle : Nat) : ForkWorld :=
  match procStart ⟨w.next, w.next, handle, 0⟩ w.tasks with
  | (some i, tasks) =>
      { w with
        tasks
        threads := Function.update w.threads w.next (some ⟨w.next, i, .running⟩)
        threadCount := Function.update w.threadCount w.next 0
        next := w.next + 1 }
  | (none, _) => w

/-- `proc_fork`, up to its wait. The thread is made, which is not asked for. -/
def fork (w : ForkWorld) (vfork : Bool) (t : Nat) : ForkWorld :=
  match w.threads t with
  | some ⟨process, slot, .running⟩ =>
      { w with
        threads := Function.update
          (Function.update w.threads t (some ⟨process, slot, .waiting vfork⟩))
          w.next (some ⟨process, 0, .starting t slot vfork⟩)
        threadCount := Function.update w.threadCount process (w.threadCount process + 1)
        next := w.next + 1
        forked := Function.update w.forked t (some w.next) }
  | _ => w

/-- `copy_thread`. A fork that finds no slot does not get further. -/
def copy (w : ForkWorld) (handle t : Nat) : ForkWorld :=
  match w.threads t with
  | some ⟨process, _, .starting parent task vfork⟩ =>
      match procDupTask false ((⟨t, process, handle, 0⟩ : WinThread).forked vfork) task w.tasks with
      | (.child slot, tasks) =>
          { w with
            tasks
            threads := Function.update w.threads t (some ⟨process, slot, .copied parent vfork slot⟩)
            took := Function.update w.took t (some slot) }
      | _ => w
  | _ => w

/-- `proc_fork_leave`. -/
def leave (w : ForkWorld) (t : Nat) : ForkWorld :=
  match w.threads t with
  | some ⟨process, slot, .copied parent vfork result⟩ =>
      let w := { w with threads := Function.update w.threads t (some ⟨process, slot, .running⟩) }
      if vfork then w else w.post parent result
  | _ => w

/-- The end of the wait in `proc_fork`. -/
def receive (w : ForkWorld) (t : Nat) : ForkWorld :=
  match w.threads t, w.queue t with
  | some ⟨process, slot, .waiting _⟩, _ :: rest =>
      { w with
        threads := Function.update w.threads t (some ⟨process, slot, .running⟩)
        queue := Function.update w.queue t rest }
  | _, _ => w

/-- `proc_poll` takes a message, and raises it as a signal. -/
def poll (w : ForkWorld) (t : Nat) : ForkWorld :=
  match w.threads t, w.queue t with
  | some ⟨_, _, .running⟩, _ :: rest => { w with queue := Function.update w.queue t rest }
  | _, _ => w

/-- `proc_exit`: the thread ends, or the process does with all its threads. -/
def procExit (w : ForkWorld) (posted closes : Bool) (t process slot : Nat) : ForkWorld :=
  if w.threadCount process ≠ 0 then
    { w with
      threads := Function.update w.threads t (some ⟨process, slot, .leaving⟩)
      threadCount := Function.update w.threadCount process (w.threadCount process - 1) }
  else
    { w with
      tasks := Function.update w.tasks slot (endTask posted closes (w.tasks slot))
      threads := fun u => (w.threads u).filter fun thread => thread.process ≠ process }

/-- `sys_execve`, when the process of another program was made. -/
def execve (w : ForkWorld) (handle t : Nat) : ForkWorld :=
  match w.threads t with
  | some ⟨process, slot, .running⟩ =>
      { w with
        tasks := Function.update w.tasks slot
          (procExecveTask ⟨w.next, w.next, handle, 0⟩ (w.tasks slot))
        threads := Function.update w.threads w.next (some ⟨w.next, slot, .running⟩)
        threadCount := Function.update w.threadCount w.next 0
        next := w.next + 1 }.procExit true true t process slot
  | _ => w

/-- `__exit`. -/
def exit (w : ForkWorld) (status : Int) (posted closes : Bool) (t : Nat) : ForkWorld :=
  match w.threads t with
  | some ⟨process, slot, .running⟩ =>
      { w with
        tasks := Function.update w.tasks slot (exitBegin (exitStatus status (w.tasks slot)))
        }.procExit posted closes t process slot
  | _ => w

/-- The message that a `vfork` is answered with. -/
def tellParent (w : ForkWorld) (slot : Nat) : ForkWorld :=
  if flagSet (w.tasks slot).flags winPsPpwait then
    w.post (pidWin w.tasks (w.tasks slot).parentId) (w.tasks slot).taskId
  else w

/-- `posix_THREAD_DETACH`. -/
def detach (w : ForkWorld) (posted closes : Bool) (t : Nat) : ForkWorld :=
  match w.threads t with
  | some ⟨_, slot, .leaving⟩ =>
      { w.tellParent slot with
        tasks := Function.update w.tasks slot (endTask posted closes (w.tasks slot))
        threads := Function.update w.threads t none }
  | _ => w

/-- A task that has ended is waited for. -/
def wait (w : ForkWorld) (i : Nat) : ForkWorld :=
  if flagSet (w.tasks i).flags winPsZombie then
    { w with tasks := Function.update w.tasks i (procClose (w.tasks i)) }
  else w

end ForkWorld

def forkStep (w : ForkWorld) : ForkStep → ForkWorld
  | .start handle => w.start handle
  | .fork vfork t => w.fork vfork t
  | .copy handle t => w.copy handle t
  | .leave t => w.leave t
  | .receive t => w.receive t
  | .poll t => w.poll t
  | .execve handle t => w.execve handle t
  | .exit status posted closes t => w.exit status posted closes t
  | .detach posted closes t => w.detach posted closes t
  | .wait i => w.wait i

/-! ### Threads that are looked up -/

/-- What is found in a table of threads that was changed in one place. -/
theorem update_cases {threads : Nat → Option Thread} {t u : Nat} {v : Option Thread}
    {thread : Thread} (h : Function.update threads t v u = some thread) :
    (u = t ∧ v = some thread) ∨ (u ≠ t ∧ threads u = some thread) := by
  by_cases hut : u = t
  · subst hut
    rw [Function.update_self] at h
    exact .inl ⟨rfl, h⟩
  · rw [Function.update_of_ne hut] at h
    exact .inr ⟨hut, h⟩

/-- A thread that is looked up after one was changed. -/
theorem threads_cases {w w' : ForkWorld} {t u : Nat} {new thread : Thread}
    (hthreads : w'.threads = Function.update w.threads t (some new))
    (hu : w'.threads u = some thread) :
    (u = t ∧ thread = new) ∨ (u ≠ t ∧ w.threads u = some thread) := by
  rw [hthreads] at hu
  rcases update_cases hu with ⟨rfl, heq⟩ | hu
  · cases heq
    exact .inl ⟨rfl, rfl⟩
  · exact .inr hu

/-- A thread that waits is not the one that was changed, if that one did not wait. -/
theorem threads_waiting {w w' : ForkWorld} {t u process slot q s : Nat} {phase : Phase}
    {vfork : Bool} {v : Option Thread} (hthreads : w'.threads = Function.update w.threads t v)
    (ht : w.threads t = some ⟨process, slot, phase⟩) (hphase : ∀ b, phase ≠ .waiting b)
    (hu : w.threads u = some ⟨q, s, .waiting vfork⟩) :
    w'.threads u = some ⟨q, s, .waiting vfork⟩ := by
  have hut : u ≠ t := by
    rintro rfl
    rw [ht] at hu
    cases hu
    exact hphase vfork rfl
  rw [hthreads, Function.update_of_ne hut, hu]

/-! ### What a step does -/

namespace ForkWorld

variable {w : ForkWorld}

theorem start_cases (w : ForkWorld) (handle : Nat) :
    w.start handle = w ∨ ∃ i tasks,
      procStart ⟨w.next, w.next, handle, 0⟩ w.tasks = (some i, tasks) ∧
      w.start handle =
        { w with
          tasks
          threads := Function.update w.threads w.next (some ⟨w.next, i, .running⟩)
          threadCount := Function.update w.threadCount w.next 0
          next := w.next + 1 } := by
  rw [start]
  split
  case h_1 i tasks h => exact .inr ⟨i, tasks, h, rfl⟩
  case h_2 => exact .inl rfl

theorem fork_cases (w : ForkWorld) (vfork : Bool) (t : Nat) :
    w.fork vfork t = w ∨ ∃ process slot, w.threads t = some ⟨process, slot, .running⟩ ∧
      w.fork vfork t =
        { w with
          threads := Function.update
            (Function.update w.threads t (some ⟨process, slot, .waiting vfork⟩))
            w.next (some ⟨process, 0, .starting t slot vfork⟩)
          threadCount := Function.update w.threadCount process (w.threadCount process + 1)
          next := w.next + 1
          forked := Function.update w.forked t (some w.next) } := by
  rw [fork]
  split
  case h_1 process slot h => exact .inr ⟨process, slot, h, rfl⟩
  case h_2 => exact .inl rfl

theorem copy_cases (w : ForkWorld) (handle t : Nat) :
    w.copy handle t = w ∨ ∃ process s parent task vfork slot tasks,
      w.threads t = some ⟨process, s, .starting parent task vfork⟩ ∧
      procDupTask false ((⟨t, process, handle, 0⟩ : WinThread).forked vfork) task w.tasks =
        (.child slot, tasks) ∧
      w.copy handle t =
        { w with
          tasks
          threads := Function.update w.threads t (some ⟨process, slot, .copied parent vfork slot⟩)
          took := Function.update w.took t (some slot) } := by
  rw [copy]
  split
  case h_1 process s parent task vfork h =>
    split
    case h_1 slot tasks hdup =>
      exact .inr ⟨process, s, parent, task, vfork, slot, tasks, h, hdup, rfl⟩
    case h_2 => exact .inl rfl
  case h_2 => exact .inl rfl

theorem leave_cases (w : ForkWorld) (t : Nat) :
    w.leave t = w ∨ ∃ process slot parent vfork result,
      w.threads t = some ⟨process, slot, .copied parent vfork result⟩ ∧
      w.leave t =
        if vfork then
          { w with threads := Function.update w.threads t (some ⟨process, slot, .running⟩) }
        else
          { w with
            threads := Function.update w.threads t (some ⟨process, slot, .running⟩) }.post
              parent result := by
  rw [leave]
  split
  case h_1 process slot parent vfork result h =>
    exact .inr ⟨process, slot, parent, vfork, result, h, rfl⟩
  case h_2 => exact .inl rfl

theorem receive_cases (w : ForkWorld) (t : Nat) :
    w.receive t = w ∨ ∃ process slot vfork m rest,
      w.threads t = some ⟨process, slot, .waiting vfork⟩ ∧ w.queue t = m :: rest ∧
      w.receive t =
        { w with
          threads := Function.update w.threads t (some ⟨process, slot, .running⟩)
          queue := Function.update w.queue t rest } := by
  rw [receive]
  split
  case h_1 process slot vfork m rest h hqueue =>
    exact .inr ⟨process, slot, vfork, m, rest, h, hqueue, rfl⟩
  case h_2 => exact .inl rfl

theorem poll_cases (w : ForkWorld) (t : Nat) :
    w.poll t = w ∨ ∃ process slot m rest,
      w.threads t = some ⟨process, slot, .running⟩ ∧ w.queue t = m :: rest ∧
      w.poll t = { w with queue := Function.update w.queue t rest } := by
  rw [poll]
  split
  case h_1 process slot m rest h hqueue => exact .inr ⟨process, slot, m, rest, h, hqueue, rfl⟩
  case h_2 => exact .inl rfl

theorem execve_cases (w : ForkWorld) (handle t : Nat) :
    w.execve handle t = w ∨ ∃ process slot,
      w.threads t = some ⟨process, slot, .running⟩ ∧
      w.execve handle t =
        { w with
          tasks := Function.update w.tasks slot
            (procExecveTask ⟨w.next, w.next, handle, 0⟩ (w.tasks slot))
          threads := Function.update w.threads w.next (some ⟨w.next, slot, .running⟩)
          threadCount := Function.update w.threadCount w.next 0
          next := w.next + 1 }.procExit true true t process slot := by
  rw [execve]
  split
  case h_1 process slot h => exact .inr ⟨process, slot, h, rfl⟩
  case h_2 => exact .inl rfl

theorem exit_cases (w : ForkWorld) (status : Int) (posted closes : Bool) (t : Nat) :
    w.exit status posted closes t = w ∨ ∃ process slot,
      w.threads t = some ⟨process, slot, .running⟩ ∧
      w.exit status posted closes t =
        { w with
          tasks := Function.update w.tasks slot (exitBegin (exitStatus status (w.tasks slot)))
          }.procExit posted closes t process slot := by
  rw [exit]
  split
  case h_1 process slot h => exact .inr ⟨process, slot, h, rfl⟩
  case h_2 => exact .inl rfl

theorem wait_cases (w : ForkWorld) (i : Nat) :
    w.wait i = w ∨ flagSet (w.tasks i).flags winPsZombie = true ∧
      w.wait i = { w with tasks := Function.update w.tasks i (procClose (w.tasks i)) } := by
  rw [wait]
  split_ifs with h
  · exact .inr ⟨h, rfl⟩
  · exact .inl rfl

/-- A message changes the queue of the thread it is sent to, and nothing else. -/
theorem post_eq (w : ForkWorld) (t slot : Nat) :
    w.post t slot = { w with queue := (w.post t slot).queue } := by
  rw [post]
  split_ifs <;> rfl

theorem tellParent_eq (w : ForkWorld) (slot : Nat) :
    w.tellParent slot = { w with queue := (w.tellParent slot).queue } := by
  rw [tellParent]
  split_ifs
  · exact post_eq w _ _
  · rfl

theorem detach_cases (w : ForkWorld) (posted closes : Bool) (t : Nat) :
    w.detach posted closes t = w ∨ ∃ process slot,
      w.threads t = some ⟨process, slot, .leaving⟩ ∧
      w.detach posted closes t =
        { w with
          tasks := Function.update w.tasks slot (endTask posted closes (w.tasks slot))
          threads := Function.update w.threads t none
          queue := (w.tellParent slot).queue } := by
  rw [detach]
  split
  case h_1 process slot h =>
    refine .inr ⟨process, slot, h, ?_⟩
    rw [tellParent_eq]
  case h_2 => exact .inl rfl

/-! ### Threads of a process -/

/-- A thread of the process that has not begun to end. -/
def Active (w : ForkWorld) (process t : Nat) : Prop :=
  ∃ slot phase, w.threads t = some ⟨process, slot, phase⟩ ∧ phase ≠ .leaving

/-- Only threads that were made are there, and the active threads of a process are one more
than it has counted. -/
structure Counted (w : ForkWorld) : Prop where
  made : ∀ t thread, w.threads t = some thread → t < w.next ∧ thread.process < w.next
  count : ∀ process, (∃ t, w.Active process t) → ∃ active : Finset Nat,
    (∀ t, t ∈ active ↔ w.Active process t) ∧ active.card = w.threadCount process + 1

/-- Steps that leave it as it is which threads are active keep the count. -/
theorem Counted.of_active {w' : ForkWorld} (h : w.Counted) (hnext : w'.next = w.next)
    (hcount : w'.threadCount = w.threadCount)
    (hmade : ∀ t thread, w'.threads t = some thread → t < w.next ∧ thread.process < w.next)
    (hactive : ∀ process t, w'.Active process t ↔ w.Active process t) : w'.Counted := by
  refine ⟨fun t thread ht => ?_, fun process hsome => ?_⟩
  · rw [hnext]
    exact hmade t thread ht
  · obtain ⟨t, ht⟩ := hsome
    obtain ⟨active, hmem, hcard⟩ := h.count process ⟨t, (hactive process t).mp ht⟩
    refine ⟨active, fun u => (hmem u).trans (hactive process u).symm, ?_⟩
    rw [hcount]
    exact hcard

/-- A thread that goes on is active as before. -/
theorem active_update {w' : ForkWorld} {t process slot slot' : Nat} {phase phase' : Phase}
    (ht : w.threads t = some ⟨process, slot, phase⟩)
    (hthreads : w'.threads = Function.update w.threads t (some ⟨process, slot', phase'⟩))
    (h : phase ≠ .leaving) (h' : phase' ≠ .leaving) (p u : Nat) : w'.Active p u ↔ w.Active p u := by
  rw [Active, Active, hthreads]
  by_cases hu : u = t
  · subst hu
    rw [Function.update_self, ht]
    constructor
    · rintro ⟨s, q, heq, -⟩
      cases heq
      exact ⟨slot, phase, rfl, h⟩
    · rintro ⟨s, q, heq, -⟩
      cases heq
      exact ⟨slot', phase', rfl, h'⟩
  · rw [Function.update_of_ne hu]

theorem Active.process_eq {t p q : Nat} (h : w.Active p t) (h' : w.Active q t) : p = q := by
  obtain ⟨s, ph, hs, -⟩ := h
  obtain ⟨s', ph', hs', -⟩ := h'
  rw [hs] at hs'
  cases hs'
  rfl

/-- The thread is the first one of a process. -/
theorem Counted.first (h : w.Counted) {w' : ForkWorld} {slot : Nat}
    (hnext : w'.next = w.next + 1)
    (hthreads : w'.threads = Function.update w.threads w.next (some ⟨w.next, slot, .running⟩))
    (hcount : w'.threadCount = Function.update w.threadCount w.next 0) : w'.Counted := by
  have hold : ∀ {t thread}, w.threads t = some thread → t ≠ w.next ∧ thread.process ≠ w.next :=
    fun ht => ⟨Nat.ne_of_lt (h.made _ _ ht).1, Nat.ne_of_lt (h.made _ _ ht).2⟩
  have hactive : ∀ p u, w'.Active p u ↔ w.Active p u ∨ p = w.next ∧ u = w.next := by
    intro p u
    rw [Active, Active, hthreads]
    by_cases hu : u = w.next
    · subst hu
      rw [Function.update_self]
      constructor
      · rintro ⟨s, ph, heq, -⟩
        cases heq
        exact .inr ⟨rfl, rfl⟩
      · rintro (⟨s, ph, hs, -⟩ | ⟨rfl, -⟩)
        · exact absurd rfl (hold hs).1
        · exact ⟨slot, .running, rfl, Phase.noConfusion⟩
    · rw [Function.update_of_ne hu]
      exact ⟨.inl, fun hor => hor.elim id fun ⟨_, hu'⟩ => absurd hu' hu⟩
  constructor
  · intro t thread ht
    rw [hthreads] at ht
    rw [hnext]
    by_cases hu : t = w.next
    · subst hu
      rw [Function.update_self] at ht
      cases ht
      exact ⟨Nat.lt_succ_self _, Nat.lt_succ_self _⟩
    · rw [Function.update_of_ne hu] at ht
      obtain ⟨hlt, hlt'⟩ := h.made t thread ht
      exact ⟨Nat.lt_succ_of_lt hlt, Nat.lt_succ_of_lt hlt'⟩
  · rintro process ⟨t, ht⟩
    rw [hcount]
    by_cases hprocess : process = w.next
    · subst hprocess
      refine ⟨{w.next}, fun u => ?_, by rw [Function.update_self]; rfl⟩
      rw [Finset.mem_singleton, hactive]
      constructor
      · rintro rfl
        exact .inr ⟨rfl, rfl⟩
      · rintro (⟨s, ph, hs, -⟩ | ⟨-, hu⟩)
        · exact absurd rfl (hold hs).2
        · exact hu
    · have hiff : ∀ u, w'.Active process u ↔ w.Active process u := by
        intro u
        rw [hactive]
        exact ⟨fun hor => hor.elim id fun ⟨hp, _⟩ => absurd hp hprocess, .inl⟩
      obtain ⟨active, hmem, hcard⟩ := h.count process ⟨t, (hiff t).mp ht⟩
      refine ⟨active, fun u => (hmem u).trans (hiff u).symm, ?_⟩
      rw [Function.update_of_ne hprocess]
      exact hcard

/-- A thread that makes another one of its process. -/
theorem Counted.forks (h : w.Counted) {t process slot : Nat} {vfork : Bool} {w' : ForkWorld}
    (ht : w.threads t = some ⟨process, slot, .running⟩) (hnext : w'.next = w.next + 1)
    (hthreads : w'.threads = Function.update
      (Function.update w.threads t (some ⟨process, slot, .waiting vfork⟩))
      w.next (some ⟨process, 0, .starting t slot vfork⟩))
    (hcount : w'.threadCount =
      Function.update w.threadCount process (w.threadCount process + 1)) : w'.Counted := by
  obtain ⟨hlt, hplt⟩ := h.made t _ ht
  have hnone : ∀ p, ¬w.Active p w.next := by
    rintro p ⟨s, ph, hs, -⟩
    exact absurd (h.made _ _ hs).1 (Nat.lt_irrefl _)
  have hactive : ∀ p u, w'.Active p u ↔ w.Active p u ∨ p = process ∧ u = w.next := by
    intro p u
    by_cases hu : u = w.next
    · subst hu
      rw [Active, hthreads, Function.update_self]
      constructor
      · rintro ⟨s, ph, heq, -⟩
        cases heq
        exact .inr ⟨rfl, rfl⟩
      · rintro (hold | ⟨rfl, -⟩)
        · exact absurd hold (hnone p)
        · exact ⟨0, _, rfl, Phase.noConfusion⟩
    · have hwaits : w'.Active p u ↔ w.Active p u := by
        have hsame : w'.threads u = Function.update w.threads t
            (some ⟨process, slot, .waiting vfork⟩) u := by
          rw [hthreads, Function.update_of_ne hu]
        have hiff : Active { w with
            threads := Function.update w.threads t (some ⟨process, slot, .waiting vfork⟩) } p u ↔
            w.Active p u := active_update ht rfl Phase.noConfusion Phase.noConfusion p u
        rw [← hiff, Active, Active, hsame]
      rw [hwaits]
      exact ⟨.inl, fun hor => hor.elim id fun ⟨_, hu'⟩ => absurd hu' hu⟩
  constructor
  · intro u thread hu
    rw [hthreads] at hu
    rw [hnext]
    by_cases hun : u = w.next
    · subst hun
      rw [Function.update_self] at hu
      cases hu
      exact ⟨Nat.lt_succ_self _, Nat.lt_succ_of_lt hplt⟩
    · rw [Function.update_of_ne hun] at hu
      by_cases hut : u = t
      · subst hut
        rw [Function.update_self] at hu
        cases hu
        exact ⟨Nat.lt_succ_of_lt hlt, Nat.lt_succ_of_lt hplt⟩
      · rw [Function.update_of_ne hut] at hu
        obtain ⟨hule, hup⟩ := h.made u thread hu
        exact ⟨Nat.lt_succ_of_lt hule, Nat.lt_succ_of_lt hup⟩
  · rintro p ⟨u, hu⟩
    rw [hcount]
    by_cases hp : p = process
    · subst hp
      obtain ⟨active, hmem, hcard⟩ := h.count p ⟨t, slot, .running, ht, Phase.noConfusion⟩
      refine ⟨insert w.next active, fun v => ?_, ?_⟩
      · rw [Finset.mem_insert, hactive, hmem]
        tauto
      · have hnew : w.next ∉ active := fun hin => hnone p ((hmem _).mp hin)
        rw [Finset.card_insert_of_notMem hnew, hcard, Function.update_self]
    · have hiff : ∀ v, w'.Active p v ↔ w.Active p v := by
        intro v
        rw [hactive]
        exact ⟨fun hor => hor.elim id fun ⟨hp', _⟩ => absurd hp' hp, .inl⟩
      obtain ⟨active, hmem, hcard⟩ := h.count p ⟨u, (hiff u).mp hu⟩
      refine ⟨active, fun v => (hmem v).trans (hiff v).symm, ?_⟩
      rw [Function.update_of_ne hp]
      exact hcard

/-- A process goes on while it has another active thread. -/
theorem Counted.count_ne_zero_iff (h : w.Counted) {t process slot : Nat}
    (ht : w.threads t = some ⟨process, slot, .running⟩) :
    w.threadCount process ≠ 0 ↔ ∃ u, u ≠ t ∧ w.Active process u := by
  have hself : w.Active process t := ⟨slot, .running, ht, Phase.noConfusion⟩
  obtain ⟨active, hmem, hcard⟩ := h.count process ⟨t, hself⟩
  have hone : w.threadCount process ≠ 0 ↔ 1 < active.card := by omega
  rw [hone, Finset.one_lt_card_iff]
  constructor
  · rintro ⟨a, b, ha, hb, hne⟩
    by_cases hat : a = t
    · exact ⟨b, fun hbt => hne (hat.trans hbt.symm), (hmem b).mp hb⟩
    · exact ⟨a, hat, (hmem a).mp ha⟩
  · rintro ⟨u, hne, hu⟩
    exact ⟨u, t, (hmem u).mpr hu, (hmem t).mpr hself, hne⟩

/-- A thread that ends, and takes its process with it if it is the last one. -/
theorem Counted.procExit (h : w.Counted) {t process slot : Nat} (posted closes : Bool)
    (ht : w.threads t = some ⟨process, slot, .running⟩) :
    (w.procExit posted closes t process slot).Counted := by
  obtain ⟨hlt, hplt⟩ := h.made t _ ht
  have hself : w.Active process t := ⟨slot, .running, ht, Phase.noConfusion⟩
  rw [ForkWorld.procExit]
  split_ifs with hcount
  · have hactive : ∀ p u, Active { w with
        threads := Function.update w.threads t (some ⟨process, slot, .leaving⟩)
        threadCount := Function.update w.threadCount process (w.threadCount process - 1) } p u ↔
        w.Active p u ∧ u ≠ t := by
      intro p u
      rw [Active, Active]
      by_cases hu : u = t
      · subst hu
        simp only [Function.update_self]
        constructor
        · rintro ⟨s, ph, heq, hne⟩
          cases heq
          exact absurd rfl hne
        · rintro ⟨-, hne⟩
          exact absurd rfl hne
      · simp only [Function.update_of_ne hu]
        exact ⟨fun hu' => ⟨hu', hu⟩, And.left⟩
    constructor
    · intro u thread hu
      by_cases hut : u = t
      · subst hut
        simp only [Function.update_self] at hu
        cases hu
        exact ⟨hlt, hplt⟩
      · simp only [Function.update_of_ne hut] at hu
        exact h.made u thread hu
    · rintro p ⟨u, hu⟩
      obtain ⟨hu, hut⟩ := (hactive p u).mp hu
      obtain ⟨active, hmem, hcard⟩ := h.count p ⟨u, hu⟩
      refine ⟨active.erase t, fun v => ?_, ?_⟩
      · rw [Finset.mem_erase, hactive, hmem]
        exact and_comm
      · by_cases hp : p = process
        · subst hp
          rw [Finset.card_erase_of_mem ((hmem t).mpr hself), hcard]
          show w.threadCount p + 1 - 1 =
            Function.update w.threadCount p (w.threadCount p - 1) p + 1
          rw [Function.update_self]
          omega
        · have hnot : t ∉ active := fun hin => hp (((hmem t).mp hin).process_eq hself)
          rw [Finset.erase_eq_of_notMem hnot, hcard]
          show w.threadCount p + 1 =
            Function.update w.threadCount process (w.threadCount process - 1) p + 1
          rw [Function.update_of_ne hp]
  · have hactive : ∀ p u, Active { w with
        tasks := Function.update w.tasks slot (endTask posted closes (w.tasks slot))
        threads := fun u => (w.threads u).filter fun thread => thread.process ≠ process } p u ↔
        w.Active p u ∧ p ≠ process := by
      intro p u
      rw [Active, Active]
      constructor
      · rintro ⟨s, ph, heq, hne⟩
        obtain ⟨hu, hp⟩ := Option.filter_eq_some_iff.mp heq
        exact ⟨⟨s, ph, hu, hne⟩, by simpa using hp⟩
      · rintro ⟨⟨s, ph, hu, hne⟩, hp⟩
        exact ⟨s, ph, Option.filter_eq_some_iff.mpr ⟨hu, by simpa using hp⟩, hne⟩
    constructor
    · intro u thread hu
      exact h.made u thread (Option.filter_eq_some_iff.mp hu).1
    · rintro p ⟨u, hu⟩
      obtain ⟨hu, hp⟩ := (hactive p u).mp hu
      obtain ⟨active, hmem, hcard⟩ := h.count p ⟨u, hu⟩
      refine ⟨active, fun v => ?_, hcard⟩
      rw [hmem, hactive]
      exact (and_iff_left hp).symm

theorem Active.of_threads {w' : ForkWorld} (h : w'.threads = w.threads) (p u : Nat) :
    w'.Active p u ↔ w.Active p u := by rw [Active, Active, h]

/-- A thread that goes on to another phase, in its process. -/
theorem Counted.continues (h : w.Counted) {w' : ForkWorld} {t process slot slot' : Nat}
    {phase phase' : Phase} (ht : w.threads t = some ⟨process, slot, phase⟩)
    (hthreads : w'.threads = Function.update w.threads t (some ⟨process, slot', phase'⟩))
    (hphase : phase ≠ .leaving) (hphase' : phase' ≠ .leaving) (hnext : w'.next = w.next)
    (hcount : w'.threadCount = w.threadCount) : w'.Counted := by
  refine h.of_active hnext hcount (fun u thread hu => ?_)
    (active_update ht hthreads hphase hphase')
  rw [hthreads] at hu
  by_cases hut : u = t
  · subst hut
    rw [Function.update_self] at hu
    cases hu
    exact ⟨(h.made u _ ht).1, (h.made u _ ht).2⟩
  · rw [Function.update_of_ne hut] at hu
    exact h.made u thread hu

/-- What only the table and the messages are changed by. -/
theorem Counted.of_threads (h : w.Counted) {w' : ForkWorld} (hthreads : w'.threads = w.threads)
    (hnext : w'.next = w.next) (hcount : w'.threadCount = w.threadCount) : w'.Counted := by
  refine h.of_active hnext hcount (fun u thread hu => ?_) (Active.of_threads hthreads)
  rw [hthreads] at hu
  exact h.made u thread hu

/-- A thread that was ended is counted no more when it goes. -/
theorem Counted.vanishes (h : w.Counted) {w' : ForkWorld} {t process slot : Nat}
    (ht : w.threads t = some ⟨process, slot, .leaving⟩)
    (hthreads : w'.threads = Function.update w.threads t none) (hnext : w'.next = w.next)
    (hcount : w'.threadCount = w.threadCount) : w'.Counted := by
  refine h.of_active hnext hcount (fun u thread hu => ?_) (fun p u => ?_)
  · rw [hthreads] at hu
    by_cases hut : u = t
    · subst hut
      rw [Function.update_self] at hu
      cases hu
    · rw [Function.update_of_ne hut] at hu
      exact h.made u thread hu
  · rw [Active, Active, hthreads]
    by_cases hut : u = t
    · subst hut
      rw [Function.update_self, ht]
      constructor
      · rintro ⟨s, ph, heq, -⟩
        cases heq
      · rintro ⟨s, ph, heq, hne⟩
        cases heq
        exact absurd rfl hne
    · rw [Function.update_of_ne hut]

theorem Counted.step (h : w.Counted) (a : ForkStep) : (forkStep w a).Counted := by
  cases a with
  | start handle =>
      rcases w.start_cases handle with heq | ⟨i, tasks, -, heq⟩
      · rw [forkStep, heq]
        exact h
      · rw [forkStep, heq]
        exact h.first rfl rfl rfl
  | fork vfork t =>
      rcases w.fork_cases vfork t with heq | ⟨process, slot, ht, heq⟩
      · rw [forkStep, heq]
        exact h
      · rw [forkStep, heq]
        exact h.forks ht rfl rfl rfl
  | copy handle t =>
      rcases w.copy_cases handle t with
        heq | ⟨process, s, parent, task, vfork, slot, tasks, ht, -, heq⟩
      · rw [forkStep, heq]
        exact h
      · rw [forkStep, heq]
        exact h.continues ht rfl Phase.noConfusion Phase.noConfusion rfl rfl
  | leave t =>
      rcases w.leave_cases t with heq | ⟨process, slot, parent, vfork, result, ht, heq⟩
      · rw [forkStep, heq]
        exact h
      · have hgoes : Counted { w with
            threads := Function.update w.threads t (some ⟨process, slot, .running⟩) } :=
          h.continues ht rfl Phase.noConfusion Phase.noConfusion rfl rfl
        rw [forkStep, heq]
        split_ifs
        · exact hgoes
        · rw [post_eq]
          exact hgoes.of_threads rfl rfl rfl
  | receive t =>
      rcases w.receive_cases t with heq | ⟨process, slot, vfork, m, rest, ht, -, heq⟩
      · rw [forkStep, heq]
        exact h
      · rw [forkStep, heq]
        exact h.continues ht rfl Phase.noConfusion Phase.noConfusion rfl rfl
  | poll t =>
      rcases w.poll_cases t with heq | ⟨process, slot, m, rest, -, -, heq⟩
      · rw [forkStep, heq]
        exact h
      · rw [forkStep, heq]
        exact h.of_threads rfl rfl rfl
  | execve handle t =>
      rcases w.execve_cases handle t with heq | ⟨process, slot, ht, heq⟩
      · rw [forkStep, heq]
        exact h
      · rw [forkStep, heq]
        refine Counted.procExit (h.first rfl rfl rfl) true true ?_
        exact (Function.update_of_ne (Nat.ne_of_lt (h.made t _ ht).1) _ _).trans ht
  | exit status posted closes t =>
      rcases w.exit_cases status posted closes t with heq | ⟨process, slot, ht, heq⟩
      · rw [forkStep, heq]
        exact h
      · rw [forkStep, heq]
        have hbegun : Counted { w with
            tasks := Function.update w.tasks slot
              (exitBegin (exitStatus status (w.tasks slot))) } :=
          h.of_threads rfl rfl rfl
        exact hbegun.procExit posted closes ht
  | detach posted closes t =>
      rcases w.detach_cases posted closes t with heq | ⟨process, slot, ht, heq⟩
      · rw [forkStep, heq]
        exact h
      · rw [forkStep, heq]
        exact h.vanishes ht rfl rfl rfl
  | wait i =>
      rcases w.wait_cases i with heq | ⟨-, heq⟩
      · rw [forkStep, heq]
        exact h
      · rw [forkStep, heq]
        exact h.of_threads rfl rfl rfl

end ForkWorld

namespace ForkWorld

variable {w : ForkWorld}

theorem procExit_leaves {process : Nat} (h : w.threadCount process ≠ 0) (posted closes : Bool)
    (t slot : Nat) :
    w.procExit posted closes t process slot =
      { w with
        threads := Function.update w.threads t (some ⟨process, slot, .leaving⟩)
        threadCount := Function.update w.threadCount process (w.threadCount process - 1) } :=
  if_pos h

theorem procExit_last {process : Nat} (h : w.threadCount process = 0) (posted closes : Bool)
    (t slot : Nat) :
    w.procExit posted closes t process slot =
      { w with
        tasks := Function.update w.tasks slot (endTask posted closes (w.tasks slot))
        threads := fun u => (w.threads u).filter fun thread => thread.process ≠ process } :=
  if_neg (not_not_intro h)

end ForkWorld

end MinC.Sys
