import MinC.Lib.Bits
import MinC.Win.Error
import Mathlib.Order.Bounds.Basic

/-!
Sleeping, and the interval timer of a task.

Time is in nanoseconds of the monotonic clock, which is read when a system call
is entered and, by a sleep, once more at its end. What is left of a sleep is a
difference of words without a sign, so it is only right for one that ended
before its time or at its very end.

The interval timer is a timer of the system, beside which the task records when
it is due and its interval.
-/

namespace MinC.Vfs

open MinC.Lib MinC.Win

/-! ### Sleeping -/

/-- How the wait for the timer of a sleep ends. -/
inductive SleepWait
  | failed
  | signaled
  /-- `WAIT_IO_COMPLETION`, and what `proc_poll` says then. -/
  | ioCompletion (interrupted : Bool)
  deriving DecidableEq

/-- The result and `Remain`. The clock is read after the wait, whatever came of
it; if it cannot be, no time has passed. -/
def vfsNanosleep (clockTime timeOut : UInt64) (set : Bool) (wait : SleepWait)
    (clock : Option UInt64) : Bool × UInt64 :=
  let result := set && match wait with
    | .failed => false
    | .signaled => true
    | .ioCompletion interrupted => !interrupted
  let elapsed := match clock with
    | some now => now - clockTime
    | none => 0
  (result, timeOut - elapsed)

/-- What the system makes of a sleep. -/
structure Sleep where
  set : Bool
  wait : SleepWait
  /-- The time that passed since the call was entered. -/
  elapsed : Nat
  /-- The clock can be read. -/
  readable : Bool
  deriving DecidableEq

namespace Sleep

variable (s : Sleep)

def clock (clockTime : UInt64) : Option UInt64 :=
  if s.readable then some (clockTime + UInt64.ofNat s.elapsed) else none

/-- `Remain`, of a call that was entered at `clockTime`. -/
def remain (clockTime timeOut : UInt64) : UInt64 :=
  (vfsNanosleep clockTime timeOut s.set s.wait (s.clock clockTime)).2

/-- The sleep ends before its time is up or, by the clock, when it is. A clock
that cannot be read suits a sleep of no time. -/
def EndsInTime (timeOut : UInt64) : Prop :=
  s.elapsed < timeOut.toNat ∨
    if s.readable then s.elapsed % UInt64.size = timeOut.toNat else timeOut = 0

end Sleep

/-- What is left of a time is not more than it, and nothing once it has
passed. -/
structure Remains (timeOut : UInt64) (elapsed : Nat) (remain : UInt64) : Prop where
  le : remain ≤ timeOut
  passed : timeOut.toNat ≤ elapsed → remain = 0

/-! ### What is left of a sleep -/

section
variable {s : Sleep} {clockTime timeOut : UInt64}

theorem Sleep.remain_of_readable (h : s.readable = true) :
    s.remain clockTime timeOut = timeOut - UInt64.ofNat s.elapsed := by
  have hclock : s.clock clockTime = some (clockTime + UInt64.ofNat s.elapsed) := if_pos h
  have hsub : clockTime + UInt64.ofNat s.elapsed - clockTime = UInt64.ofNat s.elapsed := by
    rw [UInt64.add_comm, UInt64.add_sub_cancel]
  rw [remain, hclock]
  exact congrArg (timeOut - ·) hsub

theorem Sleep.remain_of_not_readable (h : s.readable = false) :
    s.remain clockTime timeOut = timeOut := by
  have hclock : s.clock clockTime = none := if_neg (by simp [h])
  rw [remain, hclock]
  exact UInt64.sub_zero timeOut

/-- What is left is right if what passed, by the clock, is no more than was
asked for, and all of that if it is no less. -/
theorem remains_sub_iff {elapsed : Nat} :
    Remains timeOut elapsed (timeOut - UInt64.ofNat elapsed) ↔
      elapsed < timeOut.toNat ∨ elapsed % UInt64.size = timeOut.toNat := by
  have htimeOut := timeOut.toNat_lt
  have hword : (UInt64.ofNat elapsed).toNat = elapsed % UInt64.size := UInt64.toNat_ofNat'
  have hle : timeOut - UInt64.ofNat elapsed ≤ timeOut ↔ elapsed % UInt64.size ≤ timeOut.toNat := by
    rw [u64_sub_le_iff, UInt64.le_iff_toNat_le, hword]
  have hzero : timeOut - UInt64.ofNat elapsed = 0 ↔ elapsed % UInt64.size = timeOut.toNat := by
    rw [UInt64.sub_eq_iff_eq_add, UInt64.zero_add, eq_comm, ← UInt64.toNat_inj, hword]
  have hsize : UInt64.size = 0x10000000000000000 := rfl
  rw [hsize] at hle hzero ⊢
  constructor
  · intro h
    rcases Nat.lt_or_ge elapsed timeOut.toNat with hlt | hge
    · exact .inl hlt
    · exact .inr (hzero.mp (h.passed hge))
  · rintro (hlt | heq)
    · exact ⟨hle.mpr (by omega), fun hge => absurd hge (by omega)⟩
    · exact ⟨hle.mpr (by omega), fun _ => hzero.mpr heq⟩

/-- Nothing is taken off if no time is seen to pass. -/
theorem remains_self_iff {elapsed : Nat} :
    Remains timeOut elapsed timeOut ↔ elapsed < timeOut.toNat ∨ timeOut = 0 := by
  constructor
  · intro h
    rcases Nat.lt_or_ge elapsed timeOut.toNat with hlt | hge
    · exact .inl hlt
    · exact .inr (h.passed hge)
  · rintro (hlt | rfl)
    · exact ⟨UInt64.le_refl _, fun hge => absurd hge (by omega)⟩
    · exact ⟨UInt64.le_refl _, fun _ => rfl⟩

/-- What a sleep reports to be left is right exactly if it ends in time, however
its wait ended. -/
theorem remains_remain_iff (clockTime timeOut : UInt64) (s : Sleep) :
    Remains timeOut s.elapsed (s.remain clockTime timeOut) ↔ s.EndsInTime timeOut := by
  unfold Sleep.EndsInTime
  cases hreadable : s.readable with
  | true =>
      rw [Sleep.remain_of_readable hreadable, remains_sub_iff]
      simp only [if_true]
  | false =>
      rw [Sleep.remain_of_not_readable hreadable, remains_self_iff]
      simp only [Bool.false_eq_true, if_false]

/-- A second, that the timer ended a millisecond late. -/
theorem remain_of_late_sleep :
    ¬ Remains 1000000000 1001000000
      (Sleep.remain ⟨true, .signaled, 1001000000, true⟩ 5000000000 1000000000) := by
  intro h
  exact absurd h.le (by decide)

end

/-! ### The interval timer -/

/-- A time to wait and, in milliseconds, an interval. -/
structure Itimer where
  interval : Int32
  timeOut : UInt64
  deriving DecidableEq

/-- What a waitable timer is set to: a time, a period in milliseconds, and
whether `TimeProc` is called when it is due. -/
structure WaitableTimer where
  due : Nat
  period : Int32
  routine : Bool
  deriving DecidableEq

/-- A timer that was not set. -/
def WaitableTimer.idle : WaitableTimer := ⟨0, 0, false⟩

/-- The fields of a `WIN_TASK` that are about its timer. -/
structure TimerTask where
  timer : Option WaitableTimer
  timerTicks : UInt64
  interval : Int32
  deriving DecidableEq

/-- The task with a timer, which is created if there is none. -/
def vfsGetitimer (created : Answer) (task : TimerTask) : Except UInt32 TimerTask :=
  match task.timer, created with
  | some _, _ => .ok task
  | none, .ok => .ok { task with timer := some .idle }
  | none, .fail error => .error error

/-- The timer of a task, as if it had one. -/
def TimerTask.alarm (task : TimerTask) : WaitableTimer := task.timer.getD .idle

/-- The time from one reading of the clock to a later one; none if the
difference, with its sign, is not positive. -/
def ticksLeft (later earlier : UInt64) : UInt64 :=
  let remain := later - earlier
  if 0 < remain.toInt64 then remain else 0

/-- The error, what is left in the caller's variables, and the task. The call
happens at the time its clock was read; the due time, which the source turns
into tenths of microseconds in floating point, is the one that was asked for. -/
def vfsSetitimer (created set : Answer) (now : Nat) (value : Itimer) (task : TimerTask) :
    Option UInt32 × Itimer × TimerTask :=
  let ticks := UInt64.ofNat now
  match vfsGetitimer created task with
  | .error error => (some error, value, task)
  | .ok task =>
      let (error, timer) := match set with
        | .ok => (none, some ⟨now + value.timeOut.toNat, value.interval, value.timeOut ≠ 0⟩)
        | .fail error => (some error, task.timer)
      (error, ⟨task.interval, ticksLeft task.timerTicks ticks⟩,
        ⟨timer, ticks + value.timeOut, value.interval⟩)

section
variable {created : Answer} {now : Nat} {value : Itimer} {task : TimerTask}

theorem vfsGetitimer_ok (h : task.timer = none → created = .ok) :
    vfsGetitimer created task = .ok { task with timer := some task.alarm } := by
  rcases task with ⟨timer, ticks, interval⟩
  cases timer with
  | some t => rfl
  | none =>
      cases h rfl
      rfl

/-- A task that gets no timer stays as it is. -/
theorem vfsSetitimer_of_no_timer (set : Answer) (h : task.timer = none) (error : UInt32) :
    vfsSetitimer (.fail error) set now value task = (some error, value, task) := by
  have hget : vfsGetitimer (.fail error) task = .error error := by
    simp [vfsGetitimer, h]
  rw [vfsSetitimer, hget]

theorem vfsSetitimer_granted (h : task.timer = none → created = .ok) :
    vfsSetitimer created .ok now value task =
      (none, ⟨task.interval, ticksLeft task.timerTicks (UInt64.ofNat now)⟩,
        ⟨some ⟨now + value.timeOut.toNat, value.interval, value.timeOut ≠ 0⟩,
          UInt64.ofNat now + value.timeOut, value.interval⟩) := by
  rw [vfsSetitimer, vfsGetitimer_ok h]

/-- A timer that cannot be set is left as it was, but not so the record of it. -/
theorem vfsSetitimer_refused (h : task.timer = none → created = .ok) (error : UInt32) :
    vfsSetitimer created (.fail error) now value task =
      (some error, ⟨task.interval, ticksLeft task.timerTicks (UInt64.ofNat now)⟩,
        ⟨some task.alarm, UInt64.ofNat now + value.timeOut, value.interval⟩) := by
  rw [vfsSetitimer, vfsGetitimer_ok h]

end

/-! ### When a timer is due -/

namespace WaitableTimer

variable (t : WaitableTimer)

/-- The period in nanoseconds. -/
def cycle : Nat := t.period.toInt.toNat * 1000000

/-- The times at which the routine is called. -/
def expiries : Set Nat := {e | t.routine = true ∧ ∃ k, e = t.due + k * t.cycle}

/-- The next of them. -/
def next (now : Nat) : Option Nat :=
  if t.routine = false then none
  else if now < t.due then some t.due
  else if t.cycle = 0 then none
  else some (t.due + ((now - t.due) / t.cycle + 1) * t.cycle)

/-- The time that is left until it; no time if there is none. -/
def timeLeft (now : Nat) : Nat :=
  match t.next now with
  | some e => e - now
  | none => 0

variable {t} {now e : Nat}

theorem next_of_lt (h : t.routine = true) (hlt : now < t.due) : t.next now = some t.due := by
  rw [next, if_neg (by simp [h]), if_pos hlt]

theorem next_of_periodic (h : t.routine = true) (hge : t.due ≤ now) (hcycle : 0 < t.cycle) :
    t.next now = some (t.due + ((now - t.due) / t.cycle + 1) * t.cycle) := by
  rw [next, if_neg (by simp [h]), if_neg (Nat.not_lt.mpr hge), if_neg (Nat.pos_iff_ne_zero.mp hcycle)]

/-- There is no next time after that of a timer that goes off once, nor for one
that is not armed. -/
theorem next_eq_none_iff :
    t.next now = none ↔ t.routine = false ∨ t.due ≤ now ∧ t.cycle = 0 := by
  unfold next
  split_ifs with hroutine hlt hcycle
  · exact iff_of_true rfl (.inl hroutine)
  · refine iff_of_false id ?_
    rintro (h | ⟨h, -⟩)
    · exact hroutine h
    · exact absurd h (Nat.not_le.mpr hlt)
  · exact iff_of_true rfl (.inr ⟨Nat.not_lt.mp hlt, hcycle⟩)
  · refine iff_of_false id ?_
    rintro (h | ⟨-, h⟩)
    · exact hroutine h
    · exact hcycle h

theorem timeLeft_of_none (h : t.next now = none) : t.timeLeft now = 0 := by
  rw [timeLeft, h]

theorem timeLeft_of_next (h : t.next now = some e) : t.timeLeft now = e - now := by
  rw [timeLeft, h]

/-- The end of the cycle that a time is in is after it, by no more than a cycle. -/
theorem end_of_cycle (hge : t.due ≤ now) (hcycle : 0 < t.cycle) :
    now < t.due + ((now - t.due) / t.cycle + 1) * t.cycle ∧
      t.due + ((now - t.due) / t.cycle + 1) * t.cycle ≤ now + t.cycle := by
  have hlt := Nat.lt_div_mul_add (a := now - t.due) hcycle
  have hle := Nat.div_mul_le_self (now - t.due) t.cycle
  rw [Nat.succ_mul]
  omega

/-- A next time is one of the expiries, and the first that is still to come. -/
theorem isLeast_of_next (h : t.next now = some e) : IsLeast {e ∈ t.expiries | now < e} e := by
  have hroutine : t.routine = true := by
    by_contra hne
    rw [next_eq_none_iff.mpr (.inl (by simpa using hne))] at h
    cases h
  rcases Nat.lt_or_ge now t.due with hlt | hge
  · cases (next_of_lt hroutine hlt).symm.trans h
    refine ⟨⟨⟨hroutine, 0, by simp⟩, hlt⟩, ?_⟩
    rintro e' ⟨⟨-, k, rfl⟩, -⟩
    exact Nat.le_add_right _ _
  · have hcycle : 0 < t.cycle := by
      refine Nat.pos_of_ne_zero fun hzero => ?_
      rw [next_eq_none_iff.mpr (.inr ⟨hge, hzero⟩)] at h
      cases h
    cases (next_of_periodic hroutine hge hcycle).symm.trans h
    refine ⟨⟨⟨hroutine, _, rfl⟩, (end_of_cycle hge hcycle).1⟩, ?_⟩
    -- an expiry after `now` is in a later cycle than `now` is
    rintro e' ⟨⟨-, k, rfl⟩, hafter⟩
    have hlater : (now - t.due) / t.cycle < k := by
      rw [Nat.div_lt_iff_lt_mul hcycle]
      omega
    exact Nat.add_le_add_left (Nat.mul_le_mul_right _ hlater) _

/-- The time that is left can be told from the time that the timer was set to:
this names the next expiry, and that is near enough for a positive number of 64
bits; and if there is none, it is not seen to be still to come. -/
structure Told (t : WaitableTimer) (now : Nat) : Prop where
  next : ∀ e, t.next now = some e →
    (e - t.due) % UInt64.size = 0 ∧ e - now < 0x8000000000000000
  ended : t.next now = none → (now - t.due) % UInt64.size ≤ 0x8000000000000000

/-- What is left of the recorded time, by the distance of the times. -/
theorem toNat_ticksLeft (later earlier : Nat) :
    ((ticksLeft (UInt64.ofNat later) (UInt64.ofNat earlier)).toNat : Int) =
      if ((later : Int) - earlier) % 0x10000000000000000 < 0x8000000000000000 then
        ((later : Int) - earlier) % 0x10000000000000000 else 0 := by
  have hremain : ((UInt64.ofNat later - UInt64.ofNat earlier).toNat : Int) =
      ((later : Int) - earlier) % 0x10000000000000000 := by
    rw [UInt64.toNat_sub, UInt64.toNat_ofNat', UInt64.toNat_ofNat']
    omega
  have hpos := u64_toInt64_pos_iff (UInt64.ofNat later - UInt64.ofNat earlier)
  rw [← hremain]
  simp only [ticksLeft, hpos]
  split_ifs <;> simp <;> omega

/-- The recorded time tells what is left of the timer's. -/
theorem ticksLeft_eq_timeLeft_iff (hpast : t.routine = false → t.due ≤ now) :
    (ticksLeft (UInt64.ofNat t.due) (UInt64.ofNat now)).toNat = t.timeLeft now ↔ t.Told now := by
  have hleft := toNat_ticksLeft t.due now
  have hsize : UInt64.size = 0x10000000000000000 := rfl
  cases h : t.next now with
  | none =>
      have hover : t.due ≤ now := by
        rcases next_eq_none_iff.mp h with hnot | ⟨hle, -⟩
        · exact hpast hnot
        · exact hle
      have htold : t.Told now ↔ (now - t.due) % UInt64.size ≤ 0x8000000000000000 :=
        ⟨fun ht => ht.ended h, fun hle => ⟨fun e he => absurd (h.symm.trans he) nofun, fun _ => hle⟩⟩
      rw [htold, hsize, timeLeft_of_none h]
      split_ifs at hleft <;> omega
  | some e =>
      obtain ⟨⟨⟨-, k, hk⟩, hafter⟩, -⟩ := isLeast_of_next h
      have hdue : t.due ≤ e := hk ▸ Nat.le_add_right _ _
      have htold : t.Told now ↔
          (e - t.due) % UInt64.size = 0 ∧ e - now < 0x8000000000000000 := by
        refine ⟨fun ht => ht.next e h, fun hnear => ⟨fun e' he' => ?_, fun hnone => ?_⟩⟩
        · cases h.symm.trans he'
          exact hnear
        · cases h.symm.trans hnone
      change now < e at hafter
      rw [htold, hsize, timeLeft_of_next h]
      split_ifs at hleft <;> omega

end WaitableTimer

end MinC.Vfs
