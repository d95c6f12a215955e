import MinC.Lib.Runs
import MinC.Vfs.Time

/-!
Sleeping and the interval timer, as system calls.

A task records when its timer is due when it sets it, and what is left until
then is the old value of the next call. The record is made whether or not the
system has set the timer, and it is not moved when the timer comes due and
starts over.
-/

namespace MinC.Sys

open MinC.Lib MinC.Win MinC.Vfs

/-! ### Sleeping -/

/-- The time that is asked for. -/
def nanoseconds (sec : UInt64) (nsec : Int32) : UInt64 :=
  sec * 1000000000 + nsec.toInt64.toUInt64

/-- What is returned, and the nanoseconds that `rem` is made of. -/
def sysNanosleep (clockTime : UInt64) (req : Option (UInt64 × Int32)) (s : Sleep)
    (lastError : UInt32) : Int × Option UInt64 :=
  match req with
  | none => (-(efault : Int), none)
  | some (sec, nsec) =>
      if nsec < 0 ∨ 1000000000 < nsec then (-(einval : Int), none)
      else
        let (result, remain) :=
          vfsNanosleep clockTime (nanoseconds sec nsec) s.set s.wait (s.clock clockTime)
        (if result then 0 else -(errnoPosix lastError : Int), some remain)

/-- What the caller gets back is what the sleep reports to be left. -/
theorem sysNanosleep_stored {clockTime sec : UInt64} {nsec : Int32} {s : Sleep}
    {lastError : UInt32} (h : 0 ≤ nsec ∧ nsec ≤ 1000000000) :
    (sysNanosleep clockTime (some (sec, nsec)) s lastError).2 =
      some (s.remain clockTime (nanoseconds sec nsec)) := by
  have hvalid : ¬ (nsec < 0 ∨ 1000000000 < nsec) := by
    rintro (hneg | hlarge)
    · exact Int32.not_lt.mpr h.1 hneg
    · exact Int32.not_lt.mpr h.2 hlarge
  simp only [sysNanosleep, hvalid, if_false, Sleep.remain]

/-- What a sleep reports to be left is right exactly if it ends in time, and is what
the caller of `nanosleep` gets back. -/
theorem vfsNanosleep_remains_iff (clockTime timeOut : UInt64) (s : Sleep) :
    (Remains timeOut s.elapsed (s.remain clockTime timeOut) ↔ s.EndsInTime timeOut) ∧
      ∀ (sec : UInt64) (nsec : Int32) (lastError : UInt32), 0 ≤ nsec ∧ nsec ≤ 1000000000 →
        nanoseconds sec nsec = timeOut →
          (sysNanosleep clockTime (some (sec, nsec)) s lastError).2 =
            some (s.remain clockTime timeOut) := by
  refine ⟨remains_remain_iff clockTime timeOut s, fun sec nsec lastError hvalid htime => ?_⟩
  rw [← htime]
  exact sysNanosleep_stored hvalid

/-! ### The interval timer -/

/-- Which timer a call is about: `ITIMER_REAL`, `ITIMER_VIRTUAL`, `ITIMER_PROF`
or a number that names none. -/
inductive Which
  | real
  | virtual
  | prof
  | other
  deriving DecidableEq

def setitimerReal (created set : Answer) (now : Nat) (value : Itimer) (task : TimerTask) :
    Int × Itimer × TimerTask :=
  let (error, old, task) := vfsSetitimer created set now value task
  (error.elim 0 fun error => -(errnoPosix error : Int), old, task)

/-- What is returned, what `ovalue` is made of, and the task. Without a `value`
the timer is disarmed. -/
def sysSetitimer (created set : Answer) (now : Nat) (which : Which) (value : Option Itimer)
    (task : TimerTask) : Int × Option Itimer × TimerTask :=
  match which with
  | .real =>
      let (result, old, task) := setitimerReal created set now (value.getD ⟨0, 0⟩) task
      (result, some old, task)
  | .virtual => (-(eopnotsupp : Int), none, task)
  | .prof => (-(eopnotsupp : Int), none, task)
  | .other => (-(einval : Int), none, task)

/-- A call, the time that passed since the one before, and the answers of the
system, which does not refuse without a reason. -/
structure SetitimerCall where
  later : Nat
  which : Which
  value : Option Itimer
  created : Answer
  set : Answer
  reported : created.Reported ∧ set.Reported

/-- A task, and the time of its last call. -/
structure TimedTask where
  now : Nat
  task : TimerTask

/-- A task that has no timer. -/
def TimedTask.fresh (now : Nat) : TimedTask := ⟨now, ⟨none, 0, 0⟩⟩

namespace SetitimerCall

variable (c : SetitimerCall) (p : TimedTask)

def reply : Int × Option Itimer × TimerTask :=
  sysSetitimer c.created c.set (p.now + c.later) c.which c.value p.task

/-- The call gets as far as to set the timer. -/
def Sets : Prop := c.which = .real ∧ (p.task.timer = none → c.created = .ok)

end SetitimerCall

def setitimerStep (p : TimedTask) (c : SetitimerCall) : TimedTask :=
  ⟨p.now + c.later, (c.reply p).2.2⟩

/-- A call that succeeds returns the time that is left until the timer's next
expiry, and the period it is set to; one that fails changes nothing. -/
structure Truthful (p : TimedTask) (c : SetitimerCall) : Prop where
  old : (c.reply p).1 = 0 → ∃ old, (c.reply p).2.1 = some old ∧
    old.timeOut.toNat = p.task.alarm.timeLeft (p.now + c.later) ∧
      old.interval = p.task.alarm.period
  unchanged : (c.reply p).1 ≠ 0 → (setitimerStep p c).task = p.task

/-- When a timer is set, what is left of it can be told from the time it was set
to, and when it cannot be set there is one already, of which the same is
recorded as was asked for. -/
structure Suits (p : TimedTask) (c : SetitimerCall) : Prop where
  granted : c.Sets p → c.set = .ok → p.task.alarm.Told (p.now + c.later)
  refused : c.Sets p → c.set ≠ .ok → p.task.timer ≠ none ∧
    c.value.getD ⟨0, 0⟩ =
      ⟨p.task.interval, p.task.timerTicks - UInt64.ofNat (p.now + c.later)⟩

/-- What is recorded of the timer is what it is set to. -/
structure Recorded (p : TimedTask) : Prop where
  ticks : p.task.timerTicks = UInt64.ofNat p.task.alarm.due
  interval : p.task.interval = p.task.alarm.period
  past : p.task.alarm.routine = false → p.task.alarm.due ≤ p.now

theorem TimedTask.fresh_recorded (now : Nat) : Recorded (.fresh now) :=
  ⟨rfl, rfl, fun _ => Nat.zero_le _⟩

/-! ### One call -/

section
variable {p : TimedTask} {c : SetitimerCall}

/-- A call that does not get as far as to set the timer fails, and nothing
happens. -/
theorem reply_of_not_sets (h : ¬ c.Sets p) : (c.reply p).1 ≠ 0 ∧ (c.reply p).2.2 = p.task := by
  obtain ⟨later, which, value, created, set, hreported⟩ := c
  cases which with
  | real =>
      have hnone : p.task.timer = none ∧ created ≠ .ok := by
        simpa [SetitimerCall.Sets] using h
      cases created with
      | ok => exact absurd rfl hnone.2
      | fail error =>
          have hcode : errnoPosix error ≠ 0 := hreported.1
          simp only [SetitimerCall.reply, sysSetitimer, setitimerReal,
            vfsSetitimer_of_no_timer set hnone.1 error, Option.elim]
          exact ⟨by omega, trivial⟩
  | virtual => exact ⟨(by decide : -(eopnotsupp : Int) ≠ 0), rfl⟩
  | prof => exact ⟨(by decide : -(eopnotsupp : Int) ≠ 0), rfl⟩
  | other => exact ⟨(by decide : -(einval : Int) ≠ 0), rfl⟩

theorem reply_granted (h : c.Sets p) (hset : c.set = .ok) :
    c.reply p = (0,
      some ⟨p.task.interval, ticksLeft p.task.timerTicks (UInt64.ofNat (p.now + c.later))⟩,
      ⟨some ⟨p.now + c.later + (c.value.getD ⟨0, 0⟩).timeOut.toNat, (c.value.getD ⟨0, 0⟩).interval,
          (c.value.getD ⟨0, 0⟩).timeOut ≠ 0⟩,
        UInt64.ofNat (p.now + c.later) + (c.value.getD ⟨0, 0⟩).timeOut,
        (c.value.getD ⟨0, 0⟩).interval⟩) := by
  obtain ⟨later, which, value, created, set, hreported⟩ := c
  obtain ⟨rfl, htimer⟩ := h
  cases hset
  simp only [SetitimerCall.reply, sysSetitimer, setitimerReal, vfsSetitimer_granted htimer,
    Option.elim]

theorem reply_refused (h : c.Sets p) (hset : c.set ≠ .ok) :
    (c.reply p).1 ≠ 0 ∧ (c.reply p).2.2 =
      ⟨some p.task.alarm, UInt64.ofNat (p.now + c.later) + (c.value.getD ⟨0, 0⟩).timeOut,
        (c.value.getD ⟨0, 0⟩).interval⟩ := by
  obtain ⟨later, which, value, created, set, hreported⟩ := c
  obtain ⟨rfl, htimer⟩ := h
  cases set with
  | ok => exact absurd rfl hset
  | fail error =>
      have hcode : errnoPosix error ≠ 0 := hreported.2
      simp only [SetitimerCall.reply, sysSetitimer, setitimerReal,
        vfsSetitimer_refused htimer error, Option.elim]
      exact ⟨by omega, trivial⟩

/-- Where the record is right, a call is truthful exactly if it suits it. -/
theorem truthful_iff (hp : Recorded p) : Truthful p c ↔ Suits p c := by
  by_cases hsets : c.Sets p
  · by_cases hset : c.set = .ok
    · have hreply := reply_granted hsets hset
      have hpast : p.task.alarm.routine = false → p.task.alarm.due ≤ p.now + c.later :=
        fun hroutine => Nat.le_add_right_of_le (hp.past hroutine)
      have htold := WaitableTimer.ticksLeft_eq_timeLeft_iff hpast
      rw [← hp.ticks] at htold
      constructor
      · intro h
        obtain ⟨old, hold, hleft, -⟩ := h.old (by rw [hreply])
        rw [hreply] at hold
        cases hold
        exact ⟨fun _ _ => htold.mp hleft, fun _ hne => absurd hset hne⟩
      · intro h
        refine ⟨fun _ => ⟨_, by rw [hreply], htold.mpr (h.granted hsets hset), hp.interval⟩, ?_⟩
        intro hfails
        exact absurd (by rw [hreply]) hfails
    · obtain ⟨hfails, htask⟩ := reply_refused hsets hset
      -- the record is made anew, and is the same as before only if the request is what it says
      have hsame : (setitimerStep p c).task = p.task ↔ p.task.timer ≠ none ∧
          c.value.getD ⟨0, 0⟩ =
            ⟨p.task.interval, p.task.timerTicks - UInt64.ofNat (p.now + c.later)⟩ := by
        rw [setitimerStep, htask]
        generalize c.value.getD ⟨0, 0⟩ = value
        obtain ⟨now, timer, ticks, interval⟩ := p
        obtain ⟨newInterval, timeOut⟩ := value
        rw [TimerTask.mk.injEq, Itimer.mk.injEq, eq_comm (a := timeOut),
          UInt64.sub_eq_iff_eq_add, UInt64.add_comm timeOut, eq_comm (a := ticks)]
        cases timer with
        | none => simp
        | some t => simp [TimerTask.alarm, and_comm]
      constructor
      · intro h
        exact ⟨fun _ hok => absurd hok hset, fun _ _ => hsame.mp (h.unchanged hfails)⟩
      · intro h
        exact ⟨fun hzero => absurd hzero hfails, fun _ => hsame.mpr (h.refused hsets hset)⟩
  · obtain ⟨hfails, htask⟩ := reply_of_not_sets hsets
    refine iff_of_true ⟨fun hzero => absurd hzero hfails, fun _ => htask⟩ ?_
    exact ⟨fun h => absurd h hsets, fun h => absurd h hsets⟩

/-- Such a call leaves a record that is right. -/
theorem recorded_step (hp : Recorded p) (h : Suits p c) : Recorded (setitimerStep p c) := by
  by_cases hgranted : c.Sets p ∧ c.set = .ok
  · have hreply := reply_granted hgranted.1 hgranted.2
    have hstep : (setitimerStep p c).task = (c.reply p).2.2 := rfl
    rw [hreply] at hstep
    refine ⟨?_, ?_, ?_⟩
    · rw [hstep]
      change _ = UInt64.ofNat (p.now + c.later + UInt64.toNat _)
      rw [UInt64.ofNat_add (p.now + c.later), UInt64.ofNat_toNat]
    · rw [hstep]
      rfl
    · rw [hstep]
      intro hroutine
      -- a timer that is disarmed has no time to go
      have hzero : (c.value.getD ⟨0, 0⟩).timeOut = 0 := by
        simpa [TimerTask.alarm] using hroutine
      show _ + UInt64.toNat _ ≤ _
      rw [hzero]
      exact Nat.le_refl _
  · have hfails : (c.reply p).1 ≠ 0 := by
      by_cases hsets : c.Sets p
      · exact (reply_refused hsets fun hok => hgranted ⟨hsets, hok⟩).1
      · exact (reply_of_not_sets hsets).1
    have hsame := ((truthful_iff hp).mpr h).unchanged hfails
    refine ⟨?_, ?_, ?_⟩
    · rw [hsame]
      exact hp.ticks
    · rw [hsame]
      exact hp.interval
    · rw [hsame]
      exact fun hroutine => Nat.le_add_right_of_le (hp.past hroutine)

end

/-! ### Runs -/

/-- All calls of a task are truthful exactly if each suits the record that the
calls before it left. -/
theorem setitimer_truthful_iff (now : Nat) (calls : List SetitimerCall) :
    Along setitimerStep Truthful (.fresh now) calls ↔
      Along setitimerStep Suits (.fresh now) calls :=
  along_congr_of_kept (I := Recorded) (fun _ _ => recorded_step) (fun _ _ => truthful_iff)
    (TimedTask.fresh_recorded now) calls

theorem errorInvalidParameter_reported : (Answer.fail errorInvalidParameter).Reported :=
  (by decide : errnoPosix errorInvalidParameter ≠ 0)

/-- A call, `later` than the one before, for a timer that goes off every
second. -/
def everySecond (later : Nat) : SetitimerCall :=
  ⟨later, .real, some ⟨1000, 1000000000⟩, .ok, .ok, trivial, trivial⟩

/-- The same, of which the system does not set the timer. -/
def notSet (later : Nat) : SetitimerCall :=
  ⟨later, .real, some ⟨1000, 1000000000⟩, .ok, .fail errorInvalidParameter, trivial,
    errorInvalidParameter_reported⟩

/-- Half a second after the timer has gone off, half a second is left, but none
is told; and a call that fails moves the recorded time. -/
theorem setitimer_not_truthful :
    ¬ Along setitimerStep Truthful (.fresh 0) [everySecond 0, everySecond 1500000000] ∧
      ¬ Along setitimerStep Truthful (.fresh 0) [everySecond 0, notSet 500000000] := by
  constructor
  · rintro ⟨-, htruthful, -⟩
    obtain ⟨old, hold, hleft, -⟩ := htruthful.old (by decide)
    have hreply : ((everySecond 1500000000).reply
        (setitimerStep (.fresh 0) (everySecond 0))).2.1 = some ⟨1000, 0⟩ := by decide
    cases hreply.symm.trans hold
    exact absurd hleft (by decide)
  · rintro ⟨-, htruthful, -⟩
    exact absurd (htruthful.unchanged (by decide)) (by decide)

end MinC.Sys
