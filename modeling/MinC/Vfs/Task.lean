import MinC.Lib.Bits
import MinC.Lib.Slots
import MinC.Vfs.Namei
import Mathlib.Tactic.SplitIfs

/-!
The table of tasks.

All processes share one table, and a task is known by the number of its slot. A
slot is unused when it has no flags at all. Whoever looks for an unused slot
clears, in passing, the slots of tasks that were waited for, but takes none of
them.
-/

namespace MinC.Vfs

open MinC.Lib

/-! ### Tasks -/

structure WinTask where
  handle : Nat
  threadId : Nat
  processId : Nat
  status : UInt32
  taskId : Nat
  parentId : Nat
  groupId : Nat
  sessionId : Nat
  flags : UInt32
  tracePoints : UInt32
  kernelTime : UInt64
  userTime : UInt64
  deriving DecidableEq

/-- A cleared slot. -/
def WinTask.zero : WinTask where
  handle := 0
  threadId := 0
  processId := 0
  status := 0
  taskId := 0
  parentId := 0
  groupId := 0
  sessionId := 0
  flags := 0
  tracePoints := 0
  kernelTime := 0
  userTime := 0

abbrev Tasks := Nat → WinTask

def winChildMax : Nat := 80
def winPidInit : Nat := 1

def winPsExec : UInt32 := 0x00000002
def winPsExiting : UInt32 := 0x00000008
def winPsPpwait : UInt32 := 0x00000040
def winPsTraced : UInt32 := 0x00000200
def winPsNozombie : UInt32 := 0x00004000
def winPsSystem : UInt32 := 0x00010000
def winPsEmbryo : UInt32 := 0x00020000
def winPsZombie : UInt32 := 0x00040000

def winKtrfacInherit : UInt32 := 0x40000000

theorem flagSet_or (flags other flag : UInt32) :
    flagSet (flags ||| other) flag = (flagSet flags flag || flagSet other flag) := by
  unfold flagSet
  rw [u32_and_or_right, Bool.eq_iff_iff, Bool.or_eq_true, decide_eq_true_eq, decide_eq_true_eq,
    decide_eq_true_eq, Ne, UInt32.or_eq_zero_iff, not_and_or]

/-- A flag that is put in is in. -/
theorem flagSet_or_self {flag : UInt32} (h : flag ≠ 0) (flags : UInt32) :
    flagSet (flags ||| flag) flag = true := by
  have hself : flagSet flag flag = true := by
    unfold flagSet
    rw [UInt32.and_self]
    exact decide_eq_true h
  rw [flagSet_or, hself, Bool.or_true]

/-! ### Slots -/

/-- The thread a slot is filled for. -/
structure WinThread where
  threadId : Nat
  processId : Nat
  handle : Nat
  flags : UInt32

def unused (tasks : Tasks) (i : Nat) : Bool := (tasks i).flags == 0

/-- The task of the slot was waited for. -/
def reclaimable (tasks : Tasks) (i : Nat) : Bool := flagSet (tasks i).flags winPsNozombie

def embryo (thread : WinThread) (i : Nat) (task : WinTask) : WinTask :=
  { task with
    flags := winPsEmbryo
    taskId := i
    threadId := thread.threadId
    processId := thread.processId }

/-- The loop of `ProcCreateTask`, for the number of slots that are left. -/
def procCreateFrom (thread : WinThread) : Nat → Nat → Tasks → Option Nat × Tasks
  | 0, _, tasks => (none, tasks)
  | n + 1, offset, tasks =>
      if unused tasks offset then
        (some offset, Function.update tasks offset (embryo thread offset (tasks offset)))
      else if reclaimable tasks offset then
        procCreateFrom thread n (offset + 1) (Function.update tasks offset WinTask.zero)
      else procCreateFrom thread n (offset + 1) tasks

/-- Take an unused slot from the offset on. -/
def procCreateTask (thread : WinThread) (offset : Nat) (tasks : Tasks) : Option Nat × Tasks :=
  procCreateFrom thread (winChildMax - offset) offset tasks

/-- The table when the reclaimable slots of a range are cleared. -/
def swept (tasks : Tasks) (low high : Nat) : Tasks := fun i =>
  if low ≤ i ∧ i < high ∧ reclaimable tasks i = true then WinTask.zero else tasks i

theorem swept_self (tasks : Tasks) (low : Nat) : swept tasks low low = tasks := by
  funext i
  exact if_neg (by omega)

theorem swept_outside {tasks : Tasks} {low high i : Nat} (h : i < low ∨ high ≤ i) :
    swept tasks low high i = tasks i := if_neg (by omega)

/-- A slot in use is swept or it is not. -/
theorem swept_step {tasks tasks' : Tasks} {low high : Nat} (hlow : low < high)
    (hslot : tasks' low = if reclaimable tasks low then WinTask.zero else tasks low)
    (hrest : ∀ i, i ≠ low → tasks' i = tasks i) :
    swept tasks' (low + 1) high = swept tasks low high := by
  funext i
  by_cases hi : i = low
  · subst hi
    rw [swept_outside (.inl (Nat.lt_succ_self i)), hslot, swept]
    exact if_congr ⟨fun h => ⟨Nat.le_refl i, hlow, h⟩, fun h => h.2.2⟩ rfl rfl
  · rw [swept, swept, reclaimable, reclaimable, hrest i hi]
    exact if_congr ⟨fun h => ⟨by omega, h.2⟩, fun h => ⟨by omega, h.2⟩⟩ rfl rfl

theorem procCreateFrom_cases (thread : WinThread) (n offset : Nat) (tasks : Tasks) :
    (∃ i, LowestFree (unused tasks) offset (offset + n) i ∧
      procCreateFrom thread n offset tasks = (some i, Function.update (swept tasks offset i) i
        (embryo thread i (tasks i)))) ∨
    ((∀ i, offset ≤ i → i < offset + n → unused tasks i = false) ∧
      procCreateFrom thread n offset tasks = (none, swept tasks offset (offset + n))) := by
  induction n generalizing offset tasks with
  | zero => exact .inr ⟨fun i hlow hhigh => by omega, by rw [Nat.add_zero, swept_self]; rfl⟩
  | succ n ih =>
      rw [procCreateFrom]
      by_cases hfree : unused tasks offset = true
      · left
        refine ⟨offset, ⟨Nat.le_refl _, by omega, hfree, fun i h h' => by omega⟩, ?_⟩
        rw [if_pos hfree, swept_self]
      · -- A slot in use may be cleared, and is behind the search then.
        have hused : unused tasks offset = false := by simpa using hfree
        obtain ⟨tasks', hgoes, hslot, hrest⟩ : ∃ tasks' : Tasks,
            (if reclaimable tasks offset = true then
              procCreateFrom thread n (offset + 1) (Function.update tasks offset WinTask.zero)
            else procCreateFrom thread n (offset + 1) tasks) =
              procCreateFrom thread n (offset + 1) tasks' ∧
            tasks' offset = (if reclaimable tasks offset then WinTask.zero else tasks offset) ∧
            ∀ i, i ≠ offset → tasks' i = tasks i := by
          by_cases hreclaim : reclaimable tasks offset = true
          · rw [if_pos hreclaim, if_pos hreclaim]
            exact ⟨_, rfl, Function.update_self _ _ _, fun i hi => Function.update_of_ne hi _ _⟩
          · rw [if_neg hreclaim, if_neg hreclaim]
            exact ⟨tasks, rfl, rfl, fun _ _ => rfl⟩
        have hsweep : ∀ high, offset < high →
            swept tasks' (offset + 1) high = swept tasks offset high :=
          fun high hhigh => swept_step hhigh hslot hrest
        have hunused : ∀ i, offset + 1 ≤ i → unused tasks' i = unused tasks i := fun i hi => by
          rw [unused, unused, hrest i (by omega)]
        rw [if_neg hfree, hgoes]
        rcases ih (offset + 1) tasks' with ⟨i, hlow, heq⟩ | ⟨hfull, heq⟩
        · left
          have hi := hlow.low_le
          refine ⟨i, ⟨by omega, ?_, ?_, fun j hj hji => ?_⟩, ?_⟩
          · have hhigh := hlow.lt_high
            omega
          · rw [← hunused i hi]
            exact hlow.isFree
          · rcases Nat.eq_or_lt_of_le hj with rfl | hlt
            · exact hused
            · rw [← hunused j hlt]
              exact hlow.least j hlt hji
          · rw [heq, hsweep i (by omega), hrest i (by omega)]
        · right
          refine ⟨fun i hi hhigh => ?_, ?_⟩
          · rcases Nat.eq_or_lt_of_le hi with rfl | hlt
            · exact hused
            · rw [← hunused i hlt]
              exact hfull i hlt (by omega)
          · rw [heq, hsweep _ (by omega), Nat.add_assoc, Nat.add_comm 1 n]

/-- Either the lowest unused slot is taken, or there is none from the offset on.
What is passed on the way is swept. -/
theorem procCreateTask_cases (thread : WinThread) (offset : Nat) (tasks : Tasks) :
    (∃ i, LowestFree (unused tasks) offset winChildMax i ∧
      procCreateTask thread offset tasks = (some i, Function.update (swept tasks offset i) i
        (embryo thread i (tasks i)))) ∨
    ((∀ i, offset ≤ i → i < winChildMax → unused tasks i = false) ∧
      procCreateTask thread offset tasks = (none, swept tasks offset winChildMax)) := by
  by_cases hoffset : offset ≤ winChildMax
  · have hcases := procCreateFrom_cases thread (winChildMax - offset) offset tasks
    rwa [Nat.add_sub_cancel' hoffset] at hcases
  · right
    refine ⟨fun i hlow hhigh => by omega, ?_⟩
    have hnone : swept tasks offset winChildMax = tasks := by
      funext i
      exact if_neg (by omega)
    rw [procCreateTask, Nat.sub_eq_zero_of_le (by omega), hnone]
    rfl

end MinC.Vfs
