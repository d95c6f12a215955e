import MinC.Sys.Exit
import MinC.Sys.WaitRuns

/-!
What a parent is told of the end of a child.

The stores of a child that ends come in the order of its program, and the passes
of the waits of its parent come in between them in any order. A signal that ends
the child stores its number, but goes on to the exit, which stores the status of
an exit over it.
-/

namespace MinC.Sys

open MinC.Lib MinC.Win MinC.Vfs

/-! ### Deaths -/

/-- What ends a task: a call of `exit`, or a signal that is not handled. -/
inductive Death
  | exit (status : Int)
  | signal (signum : Nat) (terminates : Terminates signum)

def Death.IsExit : Death → Prop
  | .exit _ => True
  | .signal _ _ => False

/-- The status word says what ended the task, and nothing else. -/
def Death.SeenIn : Death → UInt32 → Prop
  | .exit n, word => wifexited word = true ∧ wexitstatus word = UInt32.ofInt n &&& 0xFF
  | .signal signum _, word =>
      wifsignaled word = true ∧ wtermsig word = UInt32.ofNat signum ∧ wifexited word = false

/-- What the code leaves of the task where its thread ends. -/
def Death.after : Death → WinTask → WinTask
  | .exit n, task => sysExit n task
  | .signal signum _, task => (sigprocDefault signum task).2

/-- The status that the exit is called with. -/
def Death.exitStatus : Death → Int
  | .exit n => n
  | .signal _ _ => 127

/-- The stores of an exit, and those of the thread that detaches. -/
def exitSteps (status : Int) (posted closes : Bool) : List ChildStep :=
  [.exitStatus status, .exitBegin, .detach, .notify posted closes]

/-- What the child does, in its order. -/
def Death.steps (posted closes : Bool) : Death → List ChildStep
  | .exit n => exitSteps n posted closes
  | .signal signum _ => .terminate signum :: exitSteps 127 posted closes

/-- The steps do what the code does. -/
theorem Death.steps_after (death : Death) (posted closes : Bool) {s : ChildState}
    (halive : s.phase.alive = true) :
    ∃ stores, death.steps posted closes = stores ++ [.detach, .notify posted closes] ∧
      (run childStep s stores).task = death.after s.task := by
  cases death with
  | exit n =>
      refine ⟨[.exitStatus n, .exitBegin], rfl, ?_⟩
      rw [run_cons, run_cons, run_nil, childStep, if_pos (.inl halive), childStep, if_pos (.inr rfl)]
      rfl
  | signal signum h =>
      refine ⟨[.terminate signum, .exitStatus 127, .exitBegin], rfl, ?_⟩
      rw [run_cons, run_cons, run_cons, run_nil, childStep, if_pos halive, childStep,
        if_pos (.inr rfl), childStep, if_pos (.inr rfl), Death.after, sigprocDefault_terminates h]
      rfl

/-- The steps are those of the code, and a signal that ends a task does so where the
control event that stands for it arrives. -/
structure Death.Coded (death : Death) (posted closes : Bool) (s : ChildState) : Prop where
  stores : ∃ stores, death.steps posted closes = stores ++ [.detach, .notify posted closes] ∧
    (run childStep s stores).task = death.after s.task
  arrives : ∀ signum h, death = .signal signum h → ∀ (handler : Nat → SigHandler)
    (restart : Nat → Bool) (error : UInt32), handler signum = .dfl → ∃ event,
      sigWin signum = some event ∧
        sigprocWin handler restart error event s.task = some (.exited, death.after s.task)

theorem Death.coded (death : Death) (posted closes : Bool) {s : ChildState}
    (halive : s.phase.alive = true) : death.Coded posted closes s where
  stores := death.steps_after posted closes halive
  arrives := by
    rintro signum h rfl handler restart error hhandler
    obtain ⟨event, hwin, harrives⟩ := sigprocWin_terminates h hhandler restart error s.task
    refine ⟨event, hwin, ?_⟩
    rw [harrives, Death.after, sigprocDefault_terminates h]

/-! ### The run of a death -/

/-- The states that a child comes through, with what it has still to do, when
its parent may look at it at any time. -/
inductive Dying (start : ChildState) (steps : List ChildStep) : List ChildStep → ChildState → Prop
  | start : Dying start steps steps start
  | own {a : ChildStep} {rest : List ChildStep} {s : ChildState} :
      Dying start steps (a :: rest) s → Dying start steps rest (childStep s a)
  | look {rest : List ChildStep} {s : ChildState} (options : UInt32) :
      Dying start steps rest s → Dying start steps rest (childStep s (.look options))
  | weigh {rest : List ChildStep} {s : ChildState} :
      Dying start steps rest s → Dying start steps rest (childStep s .weigh)

/-- The child has stored the status of its exit. -/
def Stored (rest : List ChildStep) : Prop := rest.length ≤ 3

instance (rest : List ChildStep) : Decidable (Stored rest) := inferInstanceAs (Decidable (_ ≤ _))

/-- The status word of an exit is in the slot, unless the slot was cleared. -/
def WordKept (status : Int) (s : ChildState) : Prop :=
  s.task.status = exitWord status ∨ (s.task.status = 0 ∧ s.task.flags = 0)

/-- How far a child has come when it has still some steps of an exit to do. -/
inductive Stage (status : Int) (posted closes : Bool) : List ChildStep → ChildState → Prop
  | signalled {s : ChildState} (signum : Int) (halive : s.phase.alive = true) :
      Stage status posted closes (.terminate signum :: exitSteps status posted closes) s
  | called {s : ChildState} (hphase : s.phase.alive = true ∨ s.phase = .stored) :
      Stage status posted closes (exitSteps status posted closes) s
  | stored {s : ChildState} (hphase : s.phase = .stored) (htold : s.task.status = exitWord status) :
      Stage status posted closes [.exitBegin, .detach, .notify posted closes] s
  | exiting {s : ChildState} (hphase : s.phase = .exiting)
      (htold : s.task.status = exitWord status) :
      Stage status posted closes [.detach, .notify posted closes] s
  | zombie {s : ChildState} (hphase : s.phase = .zombie) (htold : WordKept status s) :
      Stage status posted closes [.notify posted closes] s
  | ended {s : ChildState} (hphase : s.phase = .ended) (htold : WordKept status s) :
      Stage status posted closes [] s

section
variable {status : Int} {posted closes : Bool} {s : ChildState} {rest : List ChildStep}

theorem Stage.told (h : Stage status posted closes rest s) (hstored : Stored rest) :
    WordKept status s := by
  cases h with
  | signalled signum halive => exact absurd hstored (Nat.not_succ_le_self 3 ∘ Nat.le_of_succ_le)
  | called hphase => exact absurd hstored (Nat.not_succ_le_self 3)
  | stored hphase htold => exact .inl htold
  | exiting hphase htold => exact .inl htold
  | zombie hphase htold => exact htold
  | ended hphase htold => exact htold

/-- A step of the child brings it to its next stage. -/
theorem Stage.own {a : ChildStep} (h : Stage status posted closes (a :: rest) s)
    (hsound : ChildSound s) : Stage status posted closes rest (childStep s a) := by
  cases h with
  | signalled signum halive =>
      apply Stage.called
      rw [childStep, if_pos halive]
      exact .inr rfl
  | called hphase =>
      rw [childStep, if_pos hphase]
      exact .stored rfl rfl
  | stored hphase htold =>
      rw [childStep, if_pos (.inr hphase)]
      exact .exiting rfl htold
  | exiting hphase htold =>
      rw [childStep, if_pos hphase, Vfs.detach, if_pos (hsound.exiting hphase)]
      exact .zombie rfl (.inl htold)
  | zombie hphase htold =>
      rw [childStep, if_pos hphase]
      apply Stage.ended rfl
      -- neither the message nor the want of one changes what the slot says
      cases posted with
      | true => exact htold
      | false => exact htold

/-- A pass of the parent leaves the child at its stage. -/
theorem Stage.look (h : Stage status posted closes rest s) (hsound : ChildSound s)
    (options : UInt32) : Stage status posted closes rest (lookStep options s) := by
  have hphase : (lookStep options s).phase = s.phase := by
    unfold lookStep
    split_ifs
    · rfl
    · rfl
    · rfl
  -- before the end of the child a look finds no flag to go by
  have hearly : s.phase.ending = false → (lookStep options s).task = s.task := by
    intro hending
    obtain ⟨-, hreclaim, hzombie⟩ := hsound.early hending
    rw [lookStep_none hreclaim hzombie]
  have htold : WordKept status s → WordKept status (lookStep options s) := by
    intro htold
    unfold lookStep
    split_ifs
    · exact .inr ⟨rfl, rfl⟩
    · rcases htold with hword | ⟨hstatus, hflags⟩
      · exact .inl hword
      · exact absurd ‹flagSet s.task.flags winPsZombie = true› (by rw [hflags]; decide)
    · exact htold
  cases h with
  | signalled signum halive => exact .signalled signum (by rw [hphase]; exact halive)
  | called hcalled => exact .called (by rw [hphase]; exact hcalled)
  | stored hstored hword =>
      refine .stored (hphase.trans hstored) ?_
      rw [hearly (by rw [hstored]; rfl)]
      exact hword
  | exiting hexiting hword =>
      refine .exiting (hphase.trans hexiting) ?_
      rw [hearly (by rw [hexiting]; rfl)]
      exact hword
  | zombie hzombie hword => exact .zombie (hphase.trans hzombie) (htold hword)
  | ended hended hword => exact .ended (hphase.trans hended) (htold hword)

/-- Weighing the status changes nothing that the stage is about. -/
theorem Stage.weigh (h : Stage status posted closes rest s) :
    Stage status posted closes rest (childStep s .weigh) := by
  cases h with
  | signalled signum halive => exact .signalled signum halive
  | called hphase => exact .called hphase
  | stored hphase htold => exact .stored hphase htold
  | exiting hphase htold => exact .exiting hphase htold
  | zombie hphase htold => exact .zombie hphase htold
  | ended hphase htold => exact .ended hphase htold

end

section
variable {death : Death} {posted closes : Bool} {start s : ChildState} {rest : List ChildStep}

theorem Death.stage (posted closes : Bool) (halive : start.phase.alive = true) :
    Stage death.exitStatus posted closes (death.steps posted closes) start := by
  cases death with
  | exit n => exact .called (.inl halive)
  | signal signum h => exact .signalled signum halive

theorem Dying.sound {steps : List ChildStep} (h : Dying start steps rest s)
    (hstart : ChildSound start) : ChildSound s := by
  induction h with
  | start => exact hstart
  | own h ih => exact ih.step _
  | look options h ih => exact ih.step _
  | weigh h ih => exact ih.step _

/-- Whatever the parent does in between, the child goes through its stages. -/
theorem Dying.stage (h : Dying start (death.steps posted closes) rest s)
    (hstart : ChildSound start) (halive : start.phase.alive = true) :
    Stage death.exitStatus posted closes rest s := by
  induction h with
  | start => exact Death.stage posted closes halive
  | own h ih => exact ih.own (h.sound hstart)
  | look options h ih =>
      rw [childStep]
      split_ifs
      · exact ih.look (h.sound hstart) options
      · exact ih
  | weigh h ih => exact ih.weigh

/-- Whoever is told of the child when the status of the exit is stored is told
this status. -/
theorem Dying.reported (h : Dying start (death.steps posted closes) rest s)
    (hstart : ChildSound start) (halive : start.phase.alive = true) (hstored : Stored rest)
    {mask : UInt32} (hreports : Reports mask s.task) :
    s.task.status = exitWord death.exitStatus := by
  rcases (h.stage hstart halive).told hstored with hword | ⟨hstatus, hflags⟩
  · exact hword
  · -- a slot that was cleared has nothing to report
    obtain ⟨-, hzombie | hmasked⟩ := hreports
    · rw [hflags] at hzombie
      exact absurd hzombie (by decide)
    · rw [hstatus, UInt32.zero_and] at hmasked
      exact absurd rfl hmasked

/-- What an exit stores says what ended the task exactly if that was an exit. -/
theorem Death.seenIn_exitWord (death : Death) :
    death.SeenIn (exitWord death.exitStatus) ↔ death.IsExit := by
  cases death with
  | exit n => exact iff_of_true ⟨wifexited_exitWord n, wexitstatus_exitWord n⟩ trivial
  | signal signum h =>
      refine iff_of_false (fun h => ?_) id
      rw [SeenIn, wifsignaled_exitWord] at h
      exact Bool.false_ne_true h.1

/-- A step that reports nothing of the end leaves the number of the child. -/
theorem childStep_taskId (hsound : ChildSound s) (a : ChildStep)
    (hnone : (childStep s a).terminations = 0) :
    s.terminations = 0 ∧ (childStep s a).task.taskId = s.task.taskId := by
  cases a with
  | look options =>
      rw [childStep] at hnone ⊢
      split_ifs at hnone ⊢ with hvisit
      · unfold lookStep at hnone ⊢
        split_ifs at hnone ⊢ with hreclaim hzombie
        · -- only a child that was told of is cleared
          cases hending : s.phase.ending with
          | false =>
              rw [(hsound.early hending).2.1] at hreclaim
              cases hreclaim
          | true =>
              rcases hsound.late hending with ⟨-, hnot, -⟩ | ⟨hone, -⟩
              · rw [hreclaim] at hnot
                cases hnot
              · exact absurd (hone.symm.trans hnone) Nat.one_ne_zero
        · exact ⟨hnone, rfl⟩
      · exact ⟨hnone, rfl⟩
  | weigh => exact ⟨hnone, rfl⟩
  | detach =>
      rw [childStep] at hnone ⊢
      split_ifs at hnone ⊢
      · refine ⟨hnone, ?_⟩
        dsimp only
        unfold Vfs.detach
        split_ifs
        · rfl
        · rfl
      · exact ⟨hnone, rfl⟩
  | notify posted closes =>
      rw [childStep] at hnone ⊢
      split_ifs at hnone ⊢
      · refine ⟨hnone, ?_⟩
        cases posted with
        | true => rfl
        | false => rfl
      · exact ⟨hnone, rfl⟩
  | _ =>
      rw [childStep] at hnone ⊢
      split_ifs at hnone ⊢
      · exact ⟨hnone, rfl⟩
      · exact ⟨hnone, rfl⟩

theorem Dying.taskId {steps : List ChildStep} (h : Dying start steps rest s)
    (hstart : ChildSound start) (hnone : s.terminations = 0) :
    s.task.taskId = start.task.taskId := by
  induction h with
  | start => rfl
  | own h ih =>
      obtain ⟨hbefore, hsame⟩ := childStep_taskId (h.sound hstart) _ hnone
      exact hsame.trans (ih hbefore)
  | look options h ih =>
      obtain ⟨hbefore, hsame⟩ := childStep_taskId (h.sound hstart) _ hnone
      exact hsame.trans (ih hbefore)
  | weigh h ih => exact ih hnone

end

/-- A child that nobody looks at gets to its end. -/
theorem Dying.run {start s : ChildState} {steps rest : List ChildStep}
    (h : Dying start steps rest s) : Dying start steps [] (run childStep s rest) := by
  induction rest generalizing s with
  | nil => exact h
  | cons a rest ih => exact ih h.own

/-- The last pass of a wait meets a child that ends, in its slot. Nobody else
has the number of the slot. -/
structure MeetsDying (death : Death) (posted closes : Bool) (start s : ChildState)
    (rest : List ChildStep) (i : Nat) (table : Tasks) : Prop where
  sound : ChildSound start
  alive : start.phase.alive = true
  dying : Dying start (death.steps posted closes) rest s
  number : start.task.taskId = i
  slot : table i = s.task
  others : ∀ j, j ≠ i → (table j).taskId ≠ i

/-- A wait that meets a child which has ended, and was not told of it, is told,
if nobody else has something to tell. What it is told of a child that has stored
its exit says what ended the child exactly if that was an exit. The child does what
the code does. -/
theorem deaths_seen_iff {death : Death} {posted closes : Bool} {start s : ChildState}
    {rest : List ChildStep} {parent : WinTask} {pid : Int} {options : UInt32} {tasks : Tasks}
    {fuel : Nat} {rounds : Nat → WaitRound} {waited : Waited}
    (h : sysWait4 parent pid options tasks fuel rounds = some waited) {r : Nat}
    (hlast : waited.after.length = r + 1) {i : Nat} (hi : 0 < i)
    (hmeets : MeetsDying death posted closes start s rest i (rounds r).tasks) :
    (i ∈ taskvWin parent pid tasks → s.phase.ending = true → s.terminations = 0 →
      (∀ j, j ≠ i → ¬ Reports (waitMask options) ((rounds r).tasks j)) → waited.result = i) ∧
    (waited.result = i → Stored rest →
      (death.SeenIn waited.usage.status ↔ death.IsExit)) ∧
    death.Coded posted closes start := by
  refine ⟨?_, ?_, death.coded posted closes hmeets.alive⟩
  · intro hselected hending hnone hsilent
    have hreports : Reports (waitMask options) ((rounds r).tasks i) := by
      rw [hmeets.slot]
      rcases (hmeets.dying.sound hmeets.sound).late hending with
        ⟨-, hreclaim, hzombie⟩ | ⟨hone, -⟩
      · exact ⟨hreclaim, .inl hzombie⟩
      · exact absurd (hone.symm.trans hnone) Nat.one_ne_zero
    rcases sysWait4_last h hlast with ⟨j, -, hj, hresult, -⟩ | ⟨hnothing, -⟩
    · have hji : j = i := by
        by_contra hne
        exact hsilent j hne hj
      rw [hresult, hji, hmeets.slot, hmeets.dying.taskId hmeets.sound hnone, hmeets.number]
    · exact absurd hreports (hnothing i hselected)
  · intro hresult hstored
    rcases sysWait4_last h hlast with ⟨j, -, hj, htold, husage⟩ | ⟨-, hnothing⟩
    · -- the number that is told is that of the slot
      have hji : j = i := by
        by_contra hne
        apply hmeets.others j hne
        exact_mod_cast htold.symm.trans hresult
      subst hji
      rw [hmeets.slot] at hj husage
      rw [husage]
      show death.SeenIn s.task.status ↔ death.IsExit
      rw [hmeets.dying.reported hmeets.sound hmeets.alive hstored hj]
      exact death.seenIn_exitWord
    · omega

/-- What a death makes of a child that runs. -/
def dead (death : Death) : ChildState := run childStep newborn (death.steps true true)

/-- The child has ended, and is the only one of its parent. -/
def mourned (death : Death) : Tasks := fun i =>
  if i = 3 then (dead death).task else { WinTask.zero with taskId := 2, handle := 8 }

theorem meetsDying_mourned (death : Death) :
    MeetsDying death true true newborn (dead death) [] 3 (mourned death) where
  sound := newborn_newborn.sound
  alive := rfl
  dying := Dying.start.run
  number := rfl
  slot := rfl
  others j hj := by
    rw [mourned, if_neg hj]
    decide

theorem sigterm_terminates : Terminates sigterm := (terminates_iff sigterm).mpr (by decide)

def sigtermDeath : Death := .signal sigterm sigterm_terminates

theorem deaths_seen_iff_exit :
    ∃ waited, sysWait4 (mourned (.exit 263) 2) 3 0 (mourned (.exit 263)) 1
        (standstill (mourned (.exit 263))) = some waited ∧ waited.result = 3 ∧
      (Death.exit 263).SeenIn waited.usage.status ∧ wexitstatus waited.usage.status = 7 := by
  refine ⟨_, rfl, rfl, ?_, by decide⟩
  exact ((deaths_seen_iff
    (show sysWait4 (mourned (.exit 263) 2) 3 0 (mourned (.exit 263)) 1
      (standstill (mourned (.exit 263))) = some ⟨3, _, _⟩ from rfl)
    (show _ = 0 + 1 from rfl) (show 0 < 3 by decide)
    (meetsDying_mourned (.exit 263))).2.1 rfl (by decide)).mpr trivial

/-- A task that is ended by a signal is told to have exited. -/
theorem signal_not_seen :
    ∃ waited, sysWait4 (mourned sigtermDeath 2) 3 0 (mourned sigtermDeath) 1
        (standstill (mourned sigtermDeath)) = some waited ∧ waited.result = 3 ∧
      waited.usage.status = 0x7F00 ∧ ¬ sigtermDeath.SeenIn waited.usage.status := by
  refine ⟨_, rfl, rfl, rfl, fun h => ?_⟩
  exact absurd h.2.2 (by decide)

end MinC.Sys
