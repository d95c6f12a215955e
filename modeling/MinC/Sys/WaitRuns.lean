import MinC.Lib.Runs
import MinC.Sys.Wait

/-!
A child and the waits of its parent.

The child stores its exit status, says that it is exiting, becomes a zombie and
tells its parent, one after the other, and may have been stopped before. A pass
of the parent looks at the flags of the child first. If these say nothing, it
goes on to weigh the status against the mask, which by then may have changed.
Both what the child does and what the parent does come in any order.
-/

namespace MinC.Sys

open MinC.Lib MinC.Win MinC.Vfs

/-! ### The steps -/

/-- How far a child has come. -/
inductive ChildPhase
  | running | stopped | stored | exiting | zombie | ended
  deriving DecidableEq

/-- A child, the options of the call that is about to weigh its status, whether
the status was weighed for a caller that asks for stops since the child stopped
last, and what was reported: this stop, and how often its termination. -/
structure ChildState where
  task : WinTask
  phase : ChildPhase
  visit : Option UInt32
  weighed : Bool
  told : Bool
  terminations : Nat

inductive ChildStep
  | stop
  | resume
  | terminate (signum : Int)
  | exitStatus (status : Int)
  | exitBegin
  | detach
  | notify (posted closes : Bool)
  | look (options : UInt32)
  | weigh

/-- The child executes code of its own, or waits for a signal. -/
def ChildPhase.alive : ChildPhase → Bool
  | running => true
  | stopped => true
  | _ => false

def ChildPhase.ending : ChildPhase → Bool
  | zombie => true
  | ended => true
  | _ => false

/-- The status of the child makes a pass report it. -/
def weighs (s : ChildState) : Bool :=
  match s.visit with
  | none => false
  | some options => s.task.status &&& waitMask options ≠ 0

/-- A pass looks at the flags of the child. -/
def lookStep (options : UInt32) (s : ChildState) : ChildState :=
  if flagSet s.task.flags winPsNozombie then { s with task := WinTask.zero }
  else if flagSet s.task.flags winPsZombie then
    { s with task := procClose s.task, terminations := s.terminations + 1 }
  else { s with visit := some options }

def childStep (s : ChildState) : ChildStep → ChildState
  | .stop =>
      if s.phase.alive then
        { s with task := sigStop s.task, phase := .stopped, weighed := false, told := false }
      else s
  | .resume => if s.phase = .stopped then { s with phase := .running } else s
  | .terminate signum =>
      if s.phase.alive then { s with task := sigTerminate signum s.task, phase := .stored } else s
  | .exitStatus status =>
      if s.phase.alive ∨ s.phase = .stored then
        { s with task := Vfs.exitStatus status s.task, phase := .stored }
      else s
  | .exitBegin =>
      if s.phase.alive ∨ s.phase = .stored then
        { s with task := Vfs.exitBegin s.task, phase := .exiting }
      else s
  | .detach =>
      if s.phase = .exiting then { s with task := Vfs.detach s.task, phase := .zombie } else s
  | .notify posted closes =>
      if s.phase = .zombie then
        { s with task := detachNotify posted closes s.task, phase := .ended }
      else s
  | .look options => if s.visit = none then lookStep options s else s
  | .weigh =>
      { s with
        visit := none
        weighed := s.weighed || (s.visit.map fun options => flagSet options wuntraced).getD false
        told := s.told || weighs s }

section
variable {s : ChildState} {options : UInt32}

theorem lookStep_reclaim (h : flagSet s.task.flags winPsNozombie = true) :
    lookStep options s = { s with task := WinTask.zero } := if_pos h

theorem lookStep_zombie (h : flagSet s.task.flags winPsNozombie = false)
    (hzombie : flagSet s.task.flags winPsZombie = true) :
    lookStep options s =
      { s with task := procClose s.task, terminations := s.terminations + 1 } := by
  rw [lookStep, if_neg (by rw [h]; decide), if_pos hzombie]

theorem lookStep_none (h : flagSet s.task.flags winPsNozombie = false)
    (hzombie : flagSet s.task.flags winPsZombie = false) :
    lookStep options s = { s with visit := some options } := by
  rw [lookStep, if_neg (by rw [h]; decide), if_neg (by rw [hzombie]; decide)]

/-- A pass over a vector that comes to the child looks at it and weighs it if that
said nothing. -/
def VisitedBy (options : UInt32) (s : ChildState) : Prop :=
  ∀ (usage : WinRusage) (i : Nat) (children : List Nat) (tasks : Tasks), s.task = tasks i →
    waitNoHang (waitMask options) usage (i :: children) tasks =
      if (lookStep options s).terminations ≠ s.terminations ∨ weighs (lookStep options s) then
        (some (usage.report (tasks i)), Function.update tasks i (lookStep options s).task)
      else
        waitNoHang (waitMask options) usage children
          (Function.update tasks i (lookStep options s).task)

theorem waitNoHang_visit (hvisit : s.visit = none) : VisitedBy options s := by
  intro usage i children tasks hs
  rw [waitNoHang, ← hs]
  cases hreclaim : flagSet s.task.flags winPsNozombie with
  | true =>
      rw [lookStep_reclaim hreclaim, if_pos rfl, if_neg]
      simp [weighs, hvisit]
  | false =>
      rw [if_neg Bool.false_ne_true]
      cases hzombie : flagSet s.task.flags winPsZombie with
      | true => rw [lookStep_zombie hreclaim hzombie, if_pos rfl, if_pos (.inl (Nat.succ_ne_self _))]
      | false =>
          rw [lookStep_none hreclaim hzombie, if_neg Bool.false_ne_true]
          dsimp only
          rw [hs, Function.update_eq_self]
          refine if_congr ?_ rfl rfl
          simp [weighs]

end

/-! ### What is asked of a step -/

/-- A pass finds the child to be a zombie. -/
def ReportsEnd (s : ChildState) : ChildStep → Prop
  | .look _ => s.visit = none ∧ flagSet s.task.flags winPsNozombie = false ∧
      flagSet s.task.flags winPsZombie = true
  | _ => False

/-- A pass reports the status of a child that it did not find to be a zombie. -/
def ReportsStatus (s : ChildState) : ChildStep → Prop
  | .weigh => weighs s = true
  | _ => False

def Looks (s : ChildState) : ChildStep → Prop
  | .look _ => s.visit = none
  | _ => False

/-- A termination is reported once, of a zombie, which is given up then. It is
reported by the first pass that meets the zombie. Otherwise a child is reported
for a stop that goes on, and once. -/
structure Accurate (s : ChildState) (a : ChildStep) : Prop where
  once : (childStep s a).terminations ≤ 1
  reaped : ReportsEnd s a → s.phase.ending = true ∧ s.terminations = 0 ∧
    flagSet (childStep s a).task.flags winPsNozombie = true ∧ (childStep s a).task.parentId = 0
  met : Looks s a → s.phase.ending = true → (childStep s a).terminations = 1
  stop : ReportsStatus s a → s.phase = .stopped ∧ s.told = false

/-- The status is weighed only when there is nothing in it that was asked for,
or for the first time in a stop that goes on. -/
def Opportune (s : ChildState) : ChildStep → Prop
  | .weigh => ∀ options, s.visit = some options → s.task.status &&& waitMask options = 0 ∨
      (s.phase = .stopped ∧ s.weighed = false)
  | _ => True

/-- A child that nothing has happened to. -/
structure Newborn (s : ChildState) : Prop where
  running : s.phase = .running
  unflagged : flagSet s.task.flags winPsNozombie = false ∧ flagSet s.task.flags winPsZombie = false
  unseen : s.visit = none ∧ s.weighed = false ∧ s.told = false ∧ s.terminations = 0

/-- What the flags of a child say of it. -/
structure ChildSound (s : ChildState) : Prop where
  early : s.phase.ending = false → s.terminations = 0 ∧
    flagSet s.task.flags winPsNozombie = false ∧ flagSet s.task.flags winPsZombie = false
  exiting : s.phase = .exiting → flagSet s.task.flags winPsExiting = true
  late : s.phase.ending = true →
    (s.terminations = 0 ∧ flagSet s.task.flags winPsNozombie = false ∧
      flagSet s.task.flags winPsZombie = true) ∨
    (s.terminations = 1 ∧ (flagSet s.task.flags winPsNozombie = true ∨
      (flagSet s.task.flags winPsNozombie = false ∧ flagSet s.task.flags winPsZombie = false)))
  stopped : s.phase = .stopped → s.told = s.weighed ∧ s.task.status = wstopped

theorem Newborn.sound {s : ChildState} (h : Newborn s) : ChildSound s where
  early _ := ⟨h.unseen.2.2.2, h.unflagged⟩
  exiting heq := by
    rw [h.running] at heq
    cases heq
  late hending := by
    rw [h.running] at hending
    cases hending
  stopped heq := by
    rw [h.running] at heq
    cases heq

section
variable {s : ChildState}

theorem ending_of_alive {phase : ChildPhase} (h : phase.alive = true) : phase.ending = false := by
  cases phase <;> first | rfl | cases h

theorem ending_of_alive_or_stored {phase : ChildPhase} (h : phase.alive = true ∨ phase = .stored) :
    phase.ending = false := by
  rcases h with h | rfl
  · exact ending_of_alive h
  · rfl

/-- The mask of a caller that asks for stops has the bits of a stop. -/
theorem wstopped_and_waitMask (options : UInt32) :
    wstopped &&& waitMask options ≠ 0 ↔ flagSet options wuntraced = true := by
  unfold waitMask
  by_cases hflag : flagSet options wuntraced = true
  · rw [if_pos hflag, iff_true_right hflag]
    decide
  · rw [if_neg hflag, iff_false_right hflag]
    decide

/-- What the flags say of a child that goes on, or is about to exit. -/
def EarlyFlags (s : ChildState) : Prop :=
  s.terminations = 0 ∧ flagSet s.task.flags winPsNozombie = false ∧
    flagSet s.task.flags winPsZombie = false

def LateFlags (s : ChildState) : Prop :=
  (s.terminations = 0 ∧ flagSet s.task.flags winPsNozombie = false ∧
    flagSet s.task.flags winPsZombie = true) ∨
  (s.terminations = 1 ∧ (flagSet s.task.flags winPsNozombie = true ∨
    (flagSet s.task.flags winPsNozombie = false ∧ flagSet s.task.flags winPsZombie = false)))

theorem EarlyFlags.sound (hflags : EarlyFlags s) (hphase : s.phase = .running ∨ s.phase = .stored) :
    ChildSound s := by
  constructor
  case early => exact fun _ => hflags
  all_goals
    intro heq
    rcases hphase with hphase | hphase <;> rw [hphase] at heq <;> cases heq

theorem LateFlags.sound (hflags : LateFlags s) (hphase : s.phase.ending = true) :
    ChildSound s := by
  constructor
  case early => exact fun hearly => absurd (hphase.symm.trans hearly) (by decide)
  case late => exact fun _ => hflags
  all_goals
    intro heq
    rw [heq] at hphase
    cases hphase

/-- A look leaves what the flags say. -/
theorem ChildSound.look (h : ChildSound s) (options : UInt32) :
    ChildSound (lookStep options s) := by
  cases hending : s.phase.ending with
  | false =>
      obtain ⟨-, hreclaim, hzombie⟩ := h.early hending
      rw [lookStep_none hreclaim hzombie]
      exact ⟨h.early, h.exiting, h.late, h.stopped⟩
  | true =>
      rcases h.late hending with ⟨hnone, hreclaim, hzombie⟩ | ⟨honce, hreclaim | ⟨hreclaim, hzombie⟩⟩
      · rw [lookStep_zombie hreclaim hzombie]
        refine LateFlags.sound (.inr ⟨by rw [hnone], .inl ?_⟩) hending
        exact flagSet_or_self (by decide) s.task.flags
      · rw [lookStep_reclaim hreclaim]
        refine LateFlags.sound (.inr ⟨honce, .inr ⟨?_, ?_⟩⟩) hending
        · show flagSet WinTask.zero.flags winPsNozombie = false
          decide
        · show flagSet WinTask.zero.flags winPsZombie = false
          decide
      · rw [lookStep_none hreclaim hzombie]
        exact LateFlags.sound (.inr ⟨honce, .inr ⟨hreclaim, hzombie⟩⟩) hending

/-- The flag of leaving is none of the two that an end is told by. -/
theorem EarlyFlags.leaving (hflags : EarlyFlags s) :
    ChildSound { s with
      phase := .exiting, task := { s.task with flags := s.task.flags ||| winPsExiting } } := by
  obtain ⟨hnone, hreclaim, hzombie⟩ := hflags
  constructor
  case early =>
    refine fun _ => ⟨hnone, ?_, ?_⟩
    · show flagSet (s.task.flags ||| winPsExiting) winPsNozombie = false
      rw [flagSet_or, hreclaim]
      decide
    · show flagSet (s.task.flags ||| winPsExiting) winPsZombie = false
      rw [flagSet_or, hzombie]
      decide
  case exiting => exact fun _ => flagSet_or_self (by decide) s.task.flags
  all_goals
    intro heq
    cases heq

/-- Who was leaving is a zombie once it is detached, and nothing was reported of
it. -/
theorem ChildSound.detached (h : ChildSound s) (hexiting : s.phase = .exiting) :
    ChildSound { s with phase := .zombie, task := Vfs.detach s.task } := by
  obtain ⟨hnone, hreclaim, -⟩ := h.early (by rw [hexiting]; rfl)
  rw [Vfs.detach, if_pos (h.exiting hexiting)]
  refine LateFlags.sound (.inl ⟨hnone, ?_, ?_⟩) rfl
  · show flagSet (s.task.flags ||| winPsZombie) winPsNozombie = false
    rw [flagSet_or, hreclaim]
    decide
  · exact flagSet_or_self (by decide) s.task.flags

/-- The status of a stop is reported to those who ask for stops. -/
theorem weighs_eq_of_stopped (hstatus : s.task.status = wstopped) :
    weighs s = (s.visit.map fun options => flagSet options wuntraced).getD false := by
  unfold weighs
  cases s.visit with
  | none => rfl
  | some options =>
      have hmask := wstopped_and_waitMask options
      rw [← hstatus] at hmask
      exact Bool.eq_iff_iff.mpr (decide_eq_true_iff.trans hmask)

theorem ChildSound.step (h : ChildSound s) (a : ChildStep) : ChildSound (childStep s a) := by
  cases a with
  | stop =>
      refine guarded (I := ChildSound) h fun halive => ?_
      have hearly := h.early (ending_of_alive halive)
      constructor
      case early => exact fun _ => hearly
      case stopped => exact fun _ => ⟨rfl, rfl⟩
      all_goals
        intro heq
        cases heq
  | resume =>
      refine guarded (I := ChildSound) h fun hstopped => ?_
      have hearly := h.early (by rw [hstopped]; rfl)
      exact EarlyFlags.sound hearly (.inl rfl)
  | terminate signum =>
      refine guarded (I := ChildSound) h fun halive => ?_
      have hearly := h.early (ending_of_alive halive)
      exact EarlyFlags.sound hearly (.inr rfl)
  | exitStatus status =>
      refine guarded (I := ChildSound) h fun halive => ?_
      have hearly := h.early (ending_of_alive_or_stored halive)
      exact EarlyFlags.sound hearly (.inr rfl)
  | exitBegin =>
      refine guarded (I := ChildSound) h fun halive => ?_
      have hearly := h.early (ending_of_alive_or_stored halive)
      exact EarlyFlags.leaving hearly
  | detach =>
      refine guarded (I := ChildSound) h fun hexiting => ?_
      exact h.detached hexiting
  | notify posted closes =>
      refine guarded (I := ChildSound) h fun hzombie => ?_
      -- neither the message nor what is done without one touches the flags
      have hlate := h.late (by rw [hzombie]; rfl)
      have hflags : (detachNotify posted closes s.task).flags = s.task.flags := by
        cases posted <;> rfl
      refine LateFlags.sound ?_ rfl
      unfold LateFlags
      dsimp only
      rw [hflags]
      exact hlate
  | look options =>
      refine guarded (I := ChildSound) h fun _ => ?_
      exact h.look options
  | weigh =>
      refine ⟨h.early, h.exiting, h.late, fun hstopped => ?_⟩
      obtain ⟨htold, hstatus⟩ := h.stopped hstopped
      refine ⟨?_, hstatus⟩
      show (s.told || weighs s) = (s.weighed || _)
      rw [htold, weighs_eq_of_stopped hstatus]

theorem ChildSound.terminations_le_one (h : ChildSound s) : s.terminations ≤ 1 := by
  cases hending : s.phase.ending with
  | false =>
      rw [(h.early hending).1]
      exact Nat.zero_le 1
  | true =>
      rcases h.late hending with ⟨hnone, -⟩ | ⟨hone, -⟩
      · rw [hnone]
        exact Nat.zero_le 1
      · exact hone.le

/-- An end that is reported is that of a zombie, which was not reported before. -/
theorem ChildSound.reaped (h : ChildSound s) {a : ChildStep} (hreports : ReportsEnd s a) :
    s.phase.ending = true ∧ s.terminations = 0 ∧
      flagSet (childStep s a).task.flags winPsNozombie = true ∧
      (childStep s a).task.parentId = 0 := by
  cases a with
  | look options =>
      obtain ⟨hvisit, hreclaim, hzombie⟩ := hreports
      have hending : s.phase.ending = true := by
        cases hphase : s.phase.ending with
        | true => rfl
        | false =>
            rw [(h.early hphase).2.2] at hzombie
            cases hzombie
      have hstep : childStep s (.look options) =
          { s with task := procClose s.task, terminations := s.terminations + 1 } := by
        rw [childStep, if_pos hvisit, lookStep_zombie hreclaim hzombie]
      rw [hstep]
      refine ⟨hending, ?_, flagSet_or_self (by decide) s.task.flags, rfl⟩
      rcases h.late hending with ⟨hnone, -⟩ | ⟨-, hnot | ⟨-, hnot⟩⟩
      · exact hnone
      · rw [hreclaim] at hnot
        cases hnot
      · rw [hzombie] at hnot
        cases hnot
  | _ => exact hreports.elim

/-- Who looks at a child that has ended has counted it, now or before. -/
theorem ChildSound.met (h : ChildSound s) {a : ChildStep} (hlooks : Looks s a)
    (hending : s.phase.ending = true) : (childStep s a).terminations = 1 := by
  cases a with
  | look options =>
      have hvisit : s.visit = none := hlooks
      rw [childStep, if_pos hvisit]
      rcases h.late hending with ⟨hnone, hreclaim, hzombie⟩ | ⟨hone, hreclaim | ⟨hreclaim, hzombie⟩⟩
      · rw [lookStep_zombie hreclaim hzombie]
        dsimp only
        rw [hnone]
      · rw [lookStep_reclaim hreclaim]
        exact hone
      · rw [lookStep_none hreclaim hzombie]
        exact hone
  | _ => exact hlooks.elim

/-- A status is reported if it is one that the caller who visits asked for. -/
theorem weighs_iff :
    weighs s = true ↔ ∃ options, s.visit = some options ∧ s.task.status &&& waitMask options ≠ 0 := by
  unfold weighs
  cases s.visit with
  | none => simp
  | some options => simp

/-- A step reports what it should exactly when the status is not weighed at the
wrong time. -/
theorem ChildSound.accurate_iff (h : ChildSound s) (a : ChildStep) :
    Accurate s a ↔ Opportune s a := by
  constructor
  · -- only what is weighed can be told wrongly, and then it is no stop that was not told yet
    intro haccurate
    cases a with
    | weigh =>
        intro options hvisit
        by_cases hnothing : s.task.status &&& waitMask options = 0
        · exact .inl hnothing
        · obtain ⟨hstopped, htold⟩ := haccurate.stop (weighs_iff.mpr ⟨options, hvisit, hnothing⟩)
          refine .inr ⟨hstopped, ?_⟩
          rw [← (h.stopped hstopped).1]
          exact htold
    | _ => trivial
  · intro hopportune
    refine ⟨(h.step a).terminations_le_one, h.reaped, h.met, fun hreports => ?_⟩
    cases a with
    | weigh =>
        obtain ⟨options, hvisit, hsome⟩ := weighs_iff.mp hreports
        obtain ⟨hstopped, hweighed⟩ := (hopportune options hvisit).resolve_left hsome
        refine ⟨hstopped, ?_⟩
        rw [(h.stopped hstopped).1]
        exact hweighed
    | _ => exact hreports.elim

end

/-- In a run of a child and the waits of its parent every step reports what it
should exactly when no status is weighed at the wrong time. The steps of a wait are
those of the loop, wherever it comes to the child. -/
theorem reports_accurate_iff {s : ChildState} (h : Newborn s) (steps : List ChildStep) :
    (Along childStep Accurate s steps ↔ Along childStep Opportune s steps) ∧
      ((run childStep s steps).visit = none → ∀ options,
        VisitedBy options (run childStep s steps)) := by
  have hstep : ∀ s a, ChildSound s → ChildSound (childStep s a) := fun _ a hs => hs.step a
  have hiff : ∀ s a, ChildSound s → (Accurate s a ↔ Opportune s a) := fun _ a hs =>
    hs.accurate_iff a
  exact ⟨along_congr_of_invariant hstep hiff h.sound steps,
    fun hvisit _ => waitNoHang_visit hvisit⟩

/-- A child that runs. -/
def newborn : ChildState where
  task := { WinTask.zero with taskId := 3, parentId := 2, handle := 12, flags := winPsExec }
  phase := .running
  visit := none
  weighed := false
  told := false
  terminations := 0

theorem newborn_newborn : Newborn newborn :=
  ⟨rfl, ⟨by decide, by decide⟩, rfl, rfl, rfl, rfl⟩

theorem reports_accurate_iff_exit :
    (Along childStep Accurate newborn [.exitStatus 1, .exitBegin, .detach, .look 0] ↔
      Along childStep Opportune newborn [.exitStatus 1, .exitBegin, .detach, .look 0]) ∧
      ∀ options, VisitedBy options
        (run childStep newborn [.exitStatus 1, .exitBegin, .detach, .look 0]) :=
  ⟨(reports_accurate_iff newborn_newborn _).1,
    (reports_accurate_iff newborn_newborn _).2 (by decide)⟩

/-- The exit status is taken for a stop before the child is a zombie, and a stop
that was reported is reported again. -/
theorem reports_not_accurate :
    ¬ Along childStep Accurate newborn [.exitStatus 1, .look wuntraced, .weigh] ∧
    ¬ Along childStep Accurate newborn
      [.stop, .look wuntraced, .weigh, .look wuntraced, .weigh] := by
  constructor
  · rintro ⟨-, -, hweigh, -⟩
    exact absurd (hweigh.stop (show weighs _ = true by decide)).1 (by decide)
  · rintro ⟨-, -, -, -, hweigh, -⟩
    exact absurd (hweigh.stop (show weighs _ = true by decide)).2 (by decide)

end MinC.Sys
