import MinC.Sys.Fork

/-!
The slots of threads that fork.

A thread that has a slot and has not ended is the one that the slot names. After
another program was started in a slot, the thread that started it is still there
until it detaches, so a slot can have several threads; but a thread that exits
has to be the only one of its slot, as its last step is to make the task a
zombie.
-/

namespace MinC.Sys

open MinC.Lib MinC.Win MinC.Vfs

namespace Phase

/-- The thread has a slot. -/
def seated : Phase → Bool
  | .starting _ _ _ => false
  | _ => true

/-- The thread has a slot, and has not ended. -/
def holds : Phase → Bool
  | .starting _ _ _ => false
  | .leaving => false
  | _ => true

theorem seated_of_holds {phase : Phase} (h : phase.holds = true) : phase.seated = true := by
  cases phase with
  | starting parent task vfork => cases h
  | _ => rfl

end Phase

/-- A slot that a thread can be in. -/
structure Seat (tasks : Tasks) (slot : Nat) : Prop where
  inside : slot < winChildMax
  named : (tasks slot).taskId = slot
  used : (tasks slot).flags ≠ 0
  kept : flagSet (tasks slot).flags winPsNozombie = false
  lives : flagSet (tasks slot).flags winPsZombie = false

structure Seats (w : ForkWorld) : Prop where
  seat : ∀ t process slot phase, w.threads t = some ⟨process, slot, phase⟩ →
    phase.seated = true → Seat w.tasks slot
  holder : ∀ t process slot phase, w.threads t = some ⟨process, slot, phase⟩ →
    phase.holds = true →
      (w.tasks slot).threadId = t ∧ flagSet (w.tasks slot).flags winPsExiting = false
  alone : ∀ t process slot, w.threads t = some ⟨process, slot, .leaving⟩ →
    flagSet (w.tasks slot).flags winPsExiting = true →
      ∀ u q phase, w.threads u = some ⟨q, slot, phase⟩ → phase.seated = true → u = t

theorem Seat.congr {tasks tasks' : Tasks} {slot : Nat} (h : Seat tasks slot)
    (heq : tasks' slot = tasks slot) : Seat tasks' slot := by
  constructor
  · exact h.inside
  · rw [heq]
    exact h.named
  · rw [heq]
    exact h.used
  · rw [heq]
    exact h.kept
  · rw [heq]
    exact h.lives

/-- A slot that gets a flag is still one. -/
theorem Seat.flag {tasks tasks' : Tasks} {slot : Nat} {flag : UInt32} (h : Seat tasks slot)
    (hflags : (tasks' slot).flags = (tasks slot).flags ||| flag)
    (hname : (tasks' slot).taskId = (tasks slot).taskId)
    (hkept : flagSet flag winPsNozombie = false) (hlives : flagSet flag winPsZombie = false) :
    Seat tasks' slot := by
  refine ⟨h.inside, hname.trans h.named, fun hzero => ?_, ?_, ?_⟩
  · rw [hflags, UInt32.or_eq_zero_iff] at hzero
    exact h.used hzero.1
  · rw [hflags, flagSet_or, h.kept, hkept]
    rfl
  · rw [hflags, flagSet_or, h.lives, hlives]
    rfl

theorem Seat.not_unused {tasks : Tasks} {slot : Nat} (h : Seat tasks slot) :
    unused tasks slot = false := beq_eq_false_iff_ne.mpr h.used

theorem Seat.swept {tasks : Tasks} {slot : Nat} (h : Seat tasks slot) (low high : Nat) :
    swept tasks low high slot = tasks slot := by
  refine if_neg fun hswept => ?_
  have hkept := h.kept
  rw [show flagSet (tasks slot).flags winPsNozombie = true from hswept.2.2] at hkept
  cases hkept

/-! ### Slots that are filled -/

/-- A table in which a slot was filled for a thread. -/
structure SlotFilled (tasks tasks' : Tasks) (i t : Nat) : Prop where
  unused : unused tasks i = true
  seat : Seat tasks' i
  holder : (tasks' i).threadId = t
  enters : flagSet (tasks' i).flags winPsExiting = false
  others : ∀ s, Seat tasks s → tasks' s = tasks s

theorem Seat.ne_of_unused {tasks : Tasks} {s i : Nat} (h : Seat tasks s)
    (hi : Vfs.unused tasks i = true) : s ≠ i := by
  rintro rfl
  rw [h.not_unused] at hi
  cases hi

theorem procStart_fills {t i handle : Nat} {tasks tasks' : Tasks}
    (h : procStart ⟨t, t, handle, 0⟩ tasks = (some i, tasks')) :
    SlotFilled tasks tasks' i t ∧ flagSet (tasks' i).flags winPsPpwait = false := by
  rw [procStart] at h
  rcases procCreateTask_cases ⟨t, t, handle, 0⟩ 0 tasks with ⟨j, hlow, heq⟩ | ⟨-, heq⟩
  · rw [heq] at h
    dsimp only at h
    rw [Function.update_idem, Function.update_self] at h
    cases h
    have hflags : (Function.update (swept tasks 0 i) i
        { embryo ⟨t, t, handle, 0⟩ i (tasks i) with
          flags := (embryo ⟨t, t, handle, 0⟩ i (tasks i)).flags ||| winPsSystem } i).flags =
        winPsEmbryo ||| winPsSystem := by
      rw [Function.update_self]
      rfl
    refine ⟨⟨hlow.isFree, ⟨hlow.lt_high, ?_, ?_, ?_, ?_⟩, ?_, ?_, fun s hs => ?_⟩, ?_⟩
    · rw [Function.update_self]
      rfl
    · rw [hflags]
      decide
    · rw [hflags]
      decide
    · rw [hflags]
      decide
    · rw [Function.update_self]
      rfl
    · rw [hflags]
      decide
    · rw [Function.update_of_ne (hs.ne_of_unused hlow.isFree), hs.swept]
    · rw [hflags]
      decide
  · rw [heq] at h
    cases h

/-- The child of a task in a slot. -/
structure Inherits (tasks' : Tasks) (i parent : Nat) (vfork : Bool) : Prop where
  link : (tasks' i).parentId = parent
  waits : flagSet (tasks' i).flags winPsPpwait = vfork

theorem procDupTask_fills {t process i parent handle : Nat} {vfork : Bool} {tasks tasks' : Tasks}
    (hparent : Seat tasks parent)
    (h : procDupTask false ((⟨t, process, handle, 0⟩ : WinThread).forked vfork) parent tasks =
      (.child i, tasks')) :
    SlotFilled tasks tasks' i t ∧ Inherits tasks' i parent vfork := by
  rcases procDupTask_cases false ((⟨t, process, handle, 0⟩ : WinThread).forked vfork) parent tasks
    with ⟨j, hlow, heq⟩ | ⟨-, heq⟩
  · rw [heq] at h
    cases h
    have hne := hparent.ne_of_unused hlow.isFree
    have hflags : ∃ traced, (traced = winPsTraced ∨ traced = 0) ∧
        ∀ task : WinTask, (inherit ((⟨t, process, handle, 0⟩ : WinThread).forked vfork)
          (tasks parent)
          (embryo ((⟨t, process, handle, 0⟩ : WinThread).forked vfork) i task)).flags =
          winPsEmbryo ||| (if vfork then winPsPpwait else 0) ||| traced := by
      refine ⟨if flagSet (tasks parent).tracePoints winKtrfacInherit then winPsTraced else 0, ?_,
        fun _ => rfl⟩
      split_ifs
      · exact .inl rfl
      · exact .inr rfl
    obtain ⟨traced, htraced, hflags⟩ := hflags
    rw [Function.update_of_ne hne, hparent.swept]
    refine ⟨⟨hlow.isFree, ⟨hlow.lt_high, ?_, ?_, ?_, ?_⟩, ?_, ?_, fun s hs => ?_⟩, ?_, ?_⟩
    · rw [Function.update_self]
      rfl
    · rw [Function.update_self, hflags]
      rcases htraced with rfl | rfl <;> cases vfork <;> decide
    · rw [Function.update_self, hflags]
      rcases htraced with rfl | rfl <;> cases vfork <;> decide
    · rw [Function.update_self, hflags]
      rcases htraced with rfl | rfl <;> cases vfork <;> decide
    · rw [Function.update_self]
      rfl
    · rw [Function.update_self, hflags]
      rcases htraced with rfl | rfl <;> cases vfork <;> decide
    · rw [Function.update_of_ne (hs.ne_of_unused hlow.isFree), hs.swept]
    · rw [Function.update_self]
      exact hparent.named
    · rw [Function.update_self, hflags]
      rcases htraced with rfl | rfl <;> cases vfork <;> decide
  · rw [heq] at h
    cases h

/-! ### Threads in their slots -/

namespace Seats

variable {w w' : ForkWorld}

/-- Threads that had their slots before, which are as they were. -/
theorem goes (h : Seats w)
    (hgoes : ∀ u process slot phase', w'.threads u = some ⟨process, slot, phase'⟩ →
      phase'.seated = true → w'.tasks slot = w.tasks slot ∧
        ∃ q phase, w.threads u = some ⟨q, slot, phase⟩ ∧ phase.seated = true ∧
          (phase'.holds = true → phase.holds = true) ∧ (phase' = .leaving → phase = .leaving)) :
    Seats w' := by
  constructor
  · intro t process slot phase' ht hseated
    obtain ⟨htasks, q, phase, hold, hseat, -, -⟩ := hgoes t process slot phase' ht hseated
    exact (h.seat t q slot phase hold hseat).congr htasks
  · intro t process slot phase' ht hholds
    obtain ⟨htasks, q, phase, hold, -, hold', -⟩ :=
      hgoes t process slot phase' ht (Phase.seated_of_holds hholds)
    rw [htasks]
    exact h.holder t q slot phase hold (hold' hholds)
  · intro t process slot ht hexit u q phase' hu hseated
    obtain ⟨htasks, p, phase, hold, -, -, hleaving⟩ := hgoes t process slot .leaving ht rfl
    obtain ⟨-, p', phase'', hold', hseated', -, -⟩ := hgoes u q slot phase' hu hseated
    rw [hleaving rfl] at hold
    rw [htasks] at hexit
    exact h.alone t p slot hold hexit u p' phase'' hold' hseated'

/-- The table changes, but not where threads are. -/
theorem of_tasks (h : Seats w) (hthreads : w'.threads = w.threads)
    (htasks : ∀ slot, Seat w.tasks slot → w'.tasks slot = w.tasks slot) : Seats w' := by
  refine h.goes fun u process slot phase hu hseated => ?_
  rw [hthreads] at hu
  exact ⟨htasks slot (h.seat u process slot phase hu hseated), process, phase, hu, hseated, id, id⟩

/-- A thread goes on in its slot. -/
theorem turns (h : Seats w) {t process slot : Nat} {phase phase' : Phase}
    (ht : w.threads t = some ⟨process, slot, phase⟩)
    (hthreads : w'.threads = Function.update w.threads t (some ⟨process, slot, phase'⟩))
    (htasks : w'.tasks = w.tasks) (hseated : phase.seated = true)
    (hholds : phase'.holds = true → phase.holds = true)
    (hleaving : phase' = .leaving → phase = .leaving) : Seats w' := by
  refine h.goes fun u q s ph hu hs => ⟨congrFun htasks s, ?_⟩
  rcases threads_cases hthreads hu with ⟨rfl, heq⟩ | ⟨-, hu⟩
  · cases heq
    exact ⟨process, phase, ht, hseated, hholds, hleaving⟩
  · exact ⟨q, ph, hu, hs, id, id⟩

/-- The thread that a fork makes has no slot yet. -/
theorem forks (h : Seats w) {t n process slot : Nat} {vfork : Bool}
    (ht : w.threads t = some ⟨process, slot, .running⟩)
    (hthreads : w'.threads = Function.update
      (Function.update w.threads t (some ⟨process, slot, .waiting vfork⟩))
      n (some ⟨process, 0, .starting t slot vfork⟩)) (htasks : w'.tasks = w.tasks) : Seats w' := by
  refine h.goes fun u q s ph hu hseated => ⟨congrFun htasks s, ?_⟩
  rw [hthreads] at hu
  rcases update_cases hu with ⟨-, heq⟩ | ⟨-, hu⟩
  · cases heq
    cases hseated
  · rcases update_cases hu with ⟨rfl, heq⟩ | ⟨-, hu⟩
    · cases heq
      exact ⟨process, .running, ht, rfl, fun _ => rfl, Phase.noConfusion⟩
    · exact ⟨q, ph, hu, hseated, id, id⟩

/-- A thread takes a slot that no thread had. -/
theorem sits (h : Seats w) {t process slot : Nat} {phase : Phase}
    (hthreads : w'.threads = Function.update w.threads t (some ⟨process, slot, phase⟩))
    (hfills : SlotFilled w.tasks w'.tasks slot t) : Seats w' := by
  have hother : ∀ {u q s ph}, w.threads u = some ⟨q, s, ph⟩ → ph.seated = true →
      Seat w.tasks s ∧ s ≠ slot := by
    intro u q s ph hu hseated
    have hs := h.seat u q s ph hu hseated
    exact ⟨hs, hs.ne_of_unused hfills.unused⟩
  constructor
  · intro u q s ph hu hseated
    rcases threads_cases hthreads hu with ⟨rfl, heq⟩ | ⟨-, hold⟩
    · cases heq
      exact hfills.seat
    · obtain ⟨hs, -⟩ := hother hold hseated
      exact hs.congr (hfills.others s hs)
  · intro u q s ph hu hholds
    rcases threads_cases hthreads hu with ⟨rfl, heq⟩ | ⟨-, hold⟩
    · cases heq
      exact ⟨hfills.holder, hfills.enters⟩
    · obtain ⟨hs, -⟩ := hother hold (Phase.seated_of_holds hholds)
      rw [hfills.others s hs]
      exact h.holder u q s ph hold hholds
  · intro u q s hu hexiting v q' ph hv hseated
    rcases threads_cases hthreads hu with ⟨rfl, heq⟩ | ⟨-, hold⟩
    · cases heq
      rw [hfills.enters] at hexiting
      cases hexiting
    · obtain ⟨hs, hne⟩ := hother hold rfl
      rw [hfills.others s hs] at hexiting
      rcases threads_cases hthreads hv with ⟨rfl, heq⟩ | ⟨-, hold'⟩
      · cases heq
        exact absurd rfl hne
      · exact h.alone u q s hold hexiting v q' ph hold' hseated

/-- Two threads that have not ended are in different slots. -/
theorem apart (h : Seats w) {t u p q s s' : Nat} {phase phase' : Phase}
    (ht : w.threads t = some ⟨p, s, phase⟩) (hholds : phase.holds = true)
    (hu : w.threads u = some ⟨q, s', phase'⟩) (hholds' : phase'.holds = true) (hne : u ≠ t) :
    s' ≠ s := by
  rintro rfl
  exact hne ((h.holder u q s' phase' hu hholds').1.symm.trans (h.holder t p s' phase ht hholds).1)

/-- A thread is followed in its slot by the thread of another program. -/
theorem execs (h : Seats w) {t n process slot handle : Nat} (htn : t ≠ n)
    (ht : w.threads t = some ⟨process, slot, .running⟩)
    (hthreads : w'.threads = Function.update
      (Function.update w.threads n (some ⟨n, slot, .running⟩))
      t (some ⟨process, slot, .leaving⟩))
    (htasks : w'.tasks = Function.update w.tasks slot
      (procExecveTask ⟨n, n, handle, 0⟩ (w.tasks slot))) : Seats w' := by
  have hself : w'.tasks slot = procExecveTask ⟨n, n, handle, 0⟩ (w.tasks slot) := by
    rw [htasks, Function.update_self]
  have hrest : ∀ {s}, s ≠ slot → w'.tasks s = w.tasks s := fun hs => by
    rw [htasks, Function.update_of_ne hs]
  have hseat : ∀ {s}, Seat w.tasks s → Seat w'.tasks s := by
    intro s hs
    by_cases heq : s = slot
    · subst heq
      exact hs.flag (by rw [hself]; rfl) (by rw [hself]; rfl) (by decide) (by decide)
    · exact hs.congr (hrest heq)
  have hexit : flagSet (w'.tasks slot).flags winPsExiting = false := by
    rw [hself]
    show flagSet ((w.tasks slot).flags ||| winPsExec) winPsExiting = false
    rw [flagSet_or, (h.holder t process slot .running ht rfl).2]
    decide
  have hcases : ∀ {u q s ph}, w'.threads u = some ⟨q, s, ph⟩ →
      (u = t ∧ s = slot ∧ ph = .leaving) ∨ (u = n ∧ s = slot ∧ ph = .running) ∨
        u ≠ t ∧ w.threads u = some ⟨q, s, ph⟩ := by
    intro u q s ph hu
    rw [hthreads] at hu
    rcases update_cases hu with ⟨rfl, heq⟩ | ⟨hut, hu⟩
    · cases heq
      exact .inl ⟨rfl, rfl, rfl⟩
    · rcases update_cases hu with ⟨rfl, heq⟩ | ⟨-, hu⟩
      · cases heq
        exact .inr (.inl ⟨rfl, rfl, rfl⟩)
      · exact .inr (.inr ⟨hut, hu⟩)
  have hslot : Seat w.tasks slot := h.seat t process slot .running ht rfl
  constructor
  · intro u q s ph hu hseated
    rcases hcases hu with ⟨-, rfl, -⟩ | ⟨-, rfl, -⟩ | ⟨-, hold⟩
    · exact hseat hslot
    · exact hseat hslot
    · exact hseat (h.seat u q s ph hold hseated)
  · intro u q s ph hu hholds
    rcases hcases hu with ⟨-, -, rfl⟩ | ⟨rfl, rfl, rfl⟩ | ⟨hut, hold⟩
    · cases hholds
    · refine ⟨?_, hexit⟩
      rw [hself]
      rfl
    · rw [hrest (h.apart ht rfl hold hholds hut)]
      exact h.holder u q s ph hold hholds
  · intro u q s hu hexiting v q' ph hv hseated
    have hs : s ≠ slot := by
      rintro rfl
      rw [hexit] at hexiting
      cases hexiting
    rw [hrest hs] at hexiting
    rcases hcases hu with ⟨-, rfl, -⟩ | ⟨-, rfl, -⟩ | ⟨-, hold⟩
    · exact absurd rfl hs
    · exact absurd rfl hs
    · rcases hcases hv with ⟨-, rfl, -⟩ | ⟨-, rfl, -⟩ | ⟨-, hold'⟩
      · exact absurd rfl hs
      · exact absurd rfl hs
      · exact h.alone u q s hold hexiting v q' ph hold' hseated

/-- A thread exits that is the only one of its slot. -/
theorem exits (h : Seats w) {t process slot : Nat} {status : Int}
    (ht : w.threads t = some ⟨process, slot, .running⟩)
    (hdetached : ∀ u q, w.threads u ≠ some ⟨q, slot, .leaving⟩)
    (hthreads : w'.threads = Function.update w.threads t (some ⟨process, slot, .leaving⟩))
    (htasks : w'.tasks = Function.update w.tasks slot
      (exitBegin (exitStatus status (w.tasks slot)))) : Seats w' := by
  have hself : w'.tasks slot = exitBegin (exitStatus status (w.tasks slot)) := by
    rw [htasks, Function.update_self]
  have hrest : ∀ {s}, s ≠ slot → w'.tasks s = w.tasks s := fun hs => by
    rw [htasks, Function.update_of_ne hs]
  have hseat : ∀ {s}, Seat w.tasks s → Seat w'.tasks s := by
    intro s hs
    by_cases heq : s = slot
    · subst heq
      exact hs.flag (by rw [hself]; rfl) (by rw [hself]; rfl) (by decide) (by decide)
    · exact hs.congr (hrest heq)
  constructor
  · intro u q s ph hu hseated
    rcases threads_cases hthreads hu with ⟨rfl, heq⟩ | ⟨-, hold⟩
    · cases heq
      exact hseat (h.seat u process slot .running ht rfl)
    · exact hseat (h.seat u q s ph hold hseated)
  · intro u q s ph hu hholds
    rcases threads_cases hthreads hu with ⟨rfl, heq⟩ | ⟨hut, hold⟩
    · cases heq
      cases hholds
    · rw [hrest (h.apart ht rfl hold hholds hut)]
      exact h.holder u q s ph hold hholds
  · intro u q s hu hexiting v q' ph hv hseated
    rcases threads_cases hthreads hu with ⟨rfl, heq⟩ | ⟨-, hold⟩
    · cases heq
      rcases threads_cases hthreads hv with ⟨rfl, -⟩ | ⟨hvt, hold'⟩
      · rfl
      · -- whoever else is in the slot has not ended, and is the one that the slot names
        have hholds : ph.holds = true := by
          cases ph with
          | starting parent task vfork => cases hseated
          | leaving => exact absurd hold' (hdetached v q')
          | _ => rfl
        exact absurd rfl (h.apart ht rfl hold' hholds hvt)
    · have hs : s ≠ slot := by
        rintro rfl
        exact hdetached u q hold
      rw [hrest hs] at hexiting
      rcases threads_cases hthreads hv with ⟨rfl, heq⟩ | ⟨-, hold'⟩
      · cases heq
        exact absurd rfl hs
      · exact h.alone u q s hold hexiting v q' ph hold' hseated

end Seats

theorem endTask_of_not_exiting {posted closes : Bool} {task : WinTask}
    (h : flagSet task.flags winPsExiting = false) : endTask posted closes task = task := by
  rw [endTask, h]
  rfl

namespace Seats

variable {w : ForkWorld}

/-- The end of a thread keeps what holds when the thread leaves. -/
theorem procExit {t process slot : Nat} (posted closes : Bool)
    (ht : w.threads t = some ⟨process, slot, .running⟩)
    (h : Seats { w with
      threads := Function.update w.threads t (some ⟨process, slot, .leaving⟩) }) :
    Seats (w.procExit posted closes t process slot) := by
  by_cases hcount : w.threadCount process = 0
  · rw [ForkWorld.procExit_last hcount]
    refine h.goes fun u q s ph hu hseated => ?_
    obtain ⟨hold, hq⟩ := Option.filter_eq_some_iff.mp hu
    have hut : u ≠ t := by
      rintro rfl
      rw [ht] at hold
      cases hold
      simp at hq
    have hsame : Function.update w.threads t (some ⟨process, slot, .leaving⟩) u =
        some ⟨q, s, ph⟩ := (Function.update_of_ne hut _ _).trans hold
    refine ⟨?_, q, ph, hsame, hseated, id, id⟩
    by_cases hs : s = slot
    · subst hs
      dsimp only
      rw [Function.update_self]
      refine endTask_of_not_exiting ?_
      -- the thread that exits would be the only one here
      by_contra hexit
      have halone := h.alone t process s (Function.update_self _ _ _)
        (Bool.eq_true_of_not_eq_false hexit) u q ph hsame hseated
      exact hut halone
    · exact Function.update_of_ne hs _ _
  · rw [ForkWorld.procExit_leaves hcount]
    exact h.of_tasks rfl fun _ _ => rfl

/-- The last step of a thread. -/
theorem detaches (h : Seats w) {w' : ForkWorld} {posted closes : Bool} {t process slot : Nat}
    (ht : w.threads t = some ⟨process, slot, .leaving⟩)
    (hthreads : w'.threads = Function.update w.threads t none)
    (htasks : w'.tasks = Function.update w.tasks slot
      (endTask posted closes (w.tasks slot))) : Seats w' := by
  refine h.goes fun u q s ph hu hseated => ?_
  rw [hthreads] at hu
  have hut : u ≠ t := by
    rintro rfl
    rw [Function.update_self] at hu
    cases hu
  rw [Function.update_of_ne hut] at hu
  refine ⟨?_, q, ph, hu, hseated, id, id⟩
  rw [htasks]
  by_cases hs : s = slot
  · subst hs
    rw [Function.update_self]
    refine endTask_of_not_exiting ?_
    by_contra hexit
    exact hut (h.alone t process s ht (Bool.eq_true_of_not_eq_false hexit) u q ph hu hseated)
  · exact Function.update_of_ne hs _ _

end Seats

end MinC.Sys
