import MinC.Sys.Signal
import MinC.Sys.TaskRuns

/-!
Parents of tasks.

A task names its parent by the number of a slot. What the number stands for is
the task that is in the slot, so it has to be the one that forked; or it is the
number of `init`, once that one has ended. The number is not changed when the
parent ends. If nothing else happens before the slot of the parent is filled
again, the children are those of a stranger. And a wait for a number or for a
group does not look at the parent at all.
-/

namespace MinC.Sys

open MinC.Lib MinC.Win MinC.Vfs

/-! ### What a parent is -/

namespace World

/-- A task that once was in a slot has ended: it is a zombie, its slot was
cleared, or another task is there. -/
def Ended (w : World) (p k : Nat) : Prop :=
  k < w.born p ∨ (k = w.born p ∧
    ((w.tasks p).flags = 0 ∨ flagSet (w.tasks p).flags winPsZombie = true))

/-- The parent that a task names is the task that forked it, or `init` if that
one has ended. -/
def NamesForker (w : World) (i : Nat) : Prop :=
  ∃ p k, w.forker i = some (p, k) ∧ (((w.tasks i).parentId = p ∧ w.born p = k) ∨
    ((w.tasks i).parentId = winPidInit ∧ w.Ended p k))

end World

/-- The slot that a search from the offset on takes is not named as a parent,
unless it is that of `init`. -/
def TakesUnnamed (tasks : Tasks) (offset : Nat) : Prop :=
  ∀ i, LowestFree (unused tasks) offset winChildMax i → i ≠ 0 → i ≠ winPidInit →
    ∀ j, (tasks j).parentId ≠ i

/-- Of the tasks that were selected the first one that has something to report has the caller for
its parent. -/
def OwnFirst (tasks : Tasks) (caller : Nat) (children : WaitVector) (options : UInt32) : Prop :=
  ∀ before i after, children.slots = before ++ i :: after →
    (∀ j ∈ before, ¬ Reports (waitMask options) (tasks j)) →
      Reports (waitMask options) (tasks i) → (tasks i).parentId = caller

/-- A task takes no slot that is still named as a parent, a task that could not tell its parent of
its end has not been cleared, and was forked by one that has ended or by `init`, and what a wait
finds to report is a child of its caller. -/
def Orderly (w : World) : TaskStep → Prop
  | .start _ => TakesUnnamed w.tasks 0
  | .fork _ _ _ parent =>
      executes (w.tasks parent) = true → TakesUnnamed w.tasks (w.tasks parent).groupId
  | .notify posted _ i => posted = false → i ∈ w.leaving →
      (w.tasks i).flags ≠ 0 ∧ ∃ p k, w.forker i = some (p, k) ∧
        (w.Ended p k ∨ (p = winPidInit ∧ w.born p = k))
  | .wait caller children options => OwnFirst w.tasks caller children options
  | _ => True

/-! ### What a step keeps -/

structure WorldSound (w : World) : Prop where
  taskId : ∀ i, (w.tasks i).flags ≠ 0 → (w.tasks i).taskId = i
  unlinked : ∀ i, (w.tasks i).flags = 0 → (w.tasks i).parentId = 0
  reclaim : ∀ i, flagSet (w.tasks i).flags winPsNozombie = true →
    flagSet (w.tasks i).flags winPsZombie = true
  past : ∀ i p k, w.forker i = some (p, k) → k ≤ w.born p
  named : ∀ i, (w.tasks i).parentId ≠ 0 → w.NamesForker i

/-- A task is the same task as before, and may have lost its parent. -/
structure Continues (old new : WinTask) : Prop where
  used : new.flags = 0 ↔ old.flags = 0
  zombie : flagSet old.flags winPsZombie = true → flagSet new.flags winPsZombie = true
  reclaim : flagSet new.flags winPsNozombie = true →
    flagSet old.flags winPsNozombie = true ∨ flagSet new.flags winPsZombie = true
  taskId : new.taskId = old.taskId
  parentId : new.parentId = old.parentId ∨ new.parentId = 0

/-- Every slot has its task, or was cleared. -/
def Fades (tasks tasks' : Tasks) : Prop :=
  ∀ i, tasks' i = WinTask.zero ∨ Continues (tasks i) (tasks' i)

theorem Continues.refl (task : WinTask) : Continues task task :=
  ⟨Iff.rfl, id, .inl, rfl, .inl rfl⟩

theorem fades_update {tasks : Tasks} {i : Nat} {task : WinTask} (h : Continues (tasks i) task) :
    Fades tasks (Function.update tasks i task) := by
  intro j
  by_cases hj : j = i
  · subst hj
    rw [Function.update_self]
    exact .inr h
  · rw [Function.update_of_ne hj]
    exact .inr (Continues.refl _)

theorem fades_swept (tasks : Tasks) (low high : Nat) : Fades tasks (swept tasks low high) := by
  intro i
  unfold swept
  split_ifs
  · exact .inl rfl
  · exact .inr (Continues.refl _)

section
variable {w : World}

/-- A task that has ended has ended for good. -/
theorem ended_of_fades {tasks : Tasks} (h : Fades w.tasks tasks) {p k : Nat}
    (hended : w.Ended p k) : World.Ended { w with tasks := tasks } p k := by
  rcases hended with hlt | ⟨heq, hflags⟩
  · exact .inl hlt
  · refine .inr ⟨heq, ?_⟩
    rcases h p with hzero | hcontinues
    · left
      dsimp only
      rw [hzero]
      rfl
    · exact hflags.imp hcontinues.used.mpr hcontinues.zombie

theorem WorldSound.fades (h : WorldSound w) {tasks : Tasks} (hfades : Fades w.tasks tasks) :
    WorldSound { w with tasks := tasks } where
  -- a slot is cleared or goes on with the same task
  taskId i hflags := by
    rcases hfades i with hzero | hcontinues
    · dsimp only at hflags
      rw [hzero] at hflags
      exact absurd rfl hflags
    · exact hcontinues.taskId.trans (h.taskId i fun hunused => hflags (hcontinues.used.mpr hunused))
  unlinked i hflags := by
    rcases hfades i with hzero | hcontinues
    · dsimp only
      rw [hzero]
      rfl
    · rcases hcontinues.parentId with hparent | hparent
      · exact hparent.trans (h.unlinked i (hcontinues.used.mp hflags))
      · exact hparent
  reclaim i hflag := by
    rcases hfades i with hzero | hcontinues
    · dsimp only at hflag
      rw [hzero] at hflag
      exact absurd hflag (by decide)
    · rcases hcontinues.reclaim hflag with hold | hzombie
      · exact hcontinues.zombie (h.reclaim i hold)
      · exact hzombie
  past := h.past
  named i hparent := by
    rcases hfades i with hzero | hcontinues
    · dsimp only at hparent
      rw [hzero] at hparent
      exact absurd rfl hparent
    · have hsame : (tasks i).parentId = (w.tasks i).parentId :=
        hcontinues.parentId.resolve_right hparent
      obtain ⟨p, k, hforker, hp⟩ := h.named i (by rw [← hsame]; exact hparent)
      refine ⟨p, k, hforker, ?_⟩
      dsimp only
      rw [hsame]
      exact hp.imp id fun ⟨hinit, hended⟩ => ⟨hinit, ended_of_fades hfades hended⟩

/-! ### A slot that is filled -/

section
variable {i p k : Nat} {forker : Option (Nat × Nat)} {tasks : Tasks}

theorem fill_born_self : (w.fill i forker tasks).born i = w.born i + 1 :=
  Function.update_self _ _ _

theorem fill_born_of_ne (hp : p ≠ i) : (w.fill i forker tasks).born p = w.born p :=
  Function.update_of_ne hp _ _

theorem fill_forker_self : (w.fill i forker tasks).forker i = forker :=
  Function.update_self _ _ _

theorem fill_forker_of_ne (hp : p ≠ i) : (w.fill i forker tasks).forker p = w.forker p :=
  Function.update_of_ne hp _ _

theorem born_le_fill (p : Nat) : w.born p ≤ (w.fill i forker tasks).born p := by
  by_cases hp : p = i
  · subst hp
    rw [fill_born_self]
    exact Nat.le_succ _
  · rw [fill_born_of_ne hp]

/-- Whoever was in the slot has ended now. -/
theorem ended_fill (htasks : ∀ j, j ≠ i → tasks j = w.tasks j) (hk : k ≤ w.born p)
    (h : w.Ended p k) : (w.fill i forker tasks).Ended p k := by
  by_cases hp : p = i
  · subst hp
    left
    rw [fill_born_self]
    exact Nat.lt_succ_of_le hk
  · rcases h with hlt | ⟨heq, hflags⟩
    · left
      rw [fill_born_of_ne hp]
      exact hlt
    · right
      rw [fill_born_of_ne hp]
      refine ⟨heq, ?_⟩
      change (tasks p).flags = 0 ∨ flagSet (tasks p).flags winPsZombie = true
      rw [htasks p hp]
      exact hflags

end

/-- A task in another slot goes on naming its parent rightly: only `init` is named
when its slot is taken, and the one before has ended then. -/
theorem WorldSound.named_fill (h : WorldSound w) {i j : Nat} {forker : Option (Nat × Nat)}
    {tasks : Tasks} (htasks : ∀ j, j ≠ i → tasks j = w.tasks j)
    (hfree : i ≠ 0 → i ≠ winPidInit → ∀ j, (w.tasks j).parentId ≠ i) (hji : j ≠ i)
    (hj : (w.tasks j).parentId ≠ 0) : (w.fill i forker tasks).NamesForker j := by
  obtain ⟨p, k, hfork, hnamed⟩ := h.named j hj
  refine ⟨p, k, (fill_forker_of_ne hji).trans hfork, ?_⟩
  change ((tasks j).parentId = p ∧ _) ∨ ((tasks j).parentId = winPidInit ∧ _)
  rw [htasks j hji]
  rcases hnamed with ⟨hparent, hk⟩ | ⟨hinit, hp⟩
  · by_cases hpi : p = i
    · subst hpi
      have hinit : p = winPidInit := by
        by_contra hnot
        exact hfree (by rw [← hparent]; exact hj) hnot j hparent
      refine .inr ⟨hparent.trans hinit, .inl ?_⟩
      rw [fill_born_self]
      omega
    · exact .inl ⟨hparent, (fill_born_of_ne hpi).trans hk⟩
  · exact .inr ⟨hinit, ended_fill htasks (h.past j p k hfork) hp⟩

/-- A new task in an unused slot that nothing names but links to `init`. -/
theorem WorldSound.fill (h : WorldSound w) {i : Nat} {forker : Option (Nat × Nat)}
    {task : WinTask} (hunused : (w.tasks i).flags = 0) (hused : task.flags ≠ 0)
    (hid : task.taskId = i) (hreclaim : flagSet task.flags winPsNozombie = false)
    (hfree : i ≠ 0 → i ≠ winPidInit → ∀ j, (w.tasks j).parentId ≠ i)
    (hforker : forker = none ∧ task.parentId = 0 ∨
      ∃ p, p ≠ i ∧ forker = some (p, w.born p) ∧ task.parentId = p) :
    WorldSound (w.fill i forker (Function.update w.tasks i task)) := by
  obtain ⟨tasks, htask, htasks, heq⟩ : ∃ tasks : Tasks, tasks i = task ∧
      (∀ j, j ≠ i → tasks j = w.tasks j) ∧ Function.update w.tasks i task = tasks :=
    ⟨_, Function.update_self _ _ _, fun j hj => Function.update_of_ne hj _ _, rfl⟩
  rw [heq]
  -- each field at the slot that is taken, and at the others, which are as they were
  constructor
  case taskId =>
    intro j hj
    change (tasks j).flags ≠ 0 at hj
    change (tasks j).taskId = j
    by_cases hji : j = i
    · subst hji
      rw [htask]
      exact hid
    · rw [htasks j hji] at hj ⊢
      exact h.taskId j hj
  case unlinked =>
    intro j hj
    change (tasks j).flags = 0 at hj
    change (tasks j).parentId = 0
    by_cases hji : j = i
    · subst hji
      rw [htask] at hj
      exact absurd hj hused
    · rw [htasks j hji] at hj ⊢
      exact h.unlinked j hj
  case reclaim =>
    intro j hj
    change flagSet (tasks j).flags winPsNozombie = true at hj
    change flagSet (tasks j).flags winPsZombie = true
    by_cases hji : j = i
    · subst hji
      rw [htask, hreclaim] at hj
      cases hj
    · rw [htasks j hji] at hj ⊢
      exact h.reclaim j hj
  case past =>
    intro j p k hj
    by_cases hji : j = i
    · subst hji
      rw [fill_forker_self] at hj
      rcases hforker with ⟨rfl, -⟩ | ⟨p', -, rfl, -⟩
      · cases hj
      · cases hj
        exact born_le_fill _
    · rw [fill_forker_of_ne hji] at hj
      exact (h.past j p k hj).trans (born_le_fill p)
  case named =>
    intro j hj
    change (tasks j).parentId ≠ 0 at hj
    by_cases hji : j = i
    · subst hji
      rw [htask] at hj
      rcases hforker with ⟨-, hzero⟩ | ⟨p, hp, rfl, hparent⟩
      · exact absurd hzero hj
      · exact ⟨p, w.born p, fill_forker_self,
          .inl ⟨(congrArg WinTask.parentId htask).trans hparent, fill_born_of_ne hp⟩⟩
    · rw [htasks j hji] at hj
      exact h.named_fill htasks hfree hji hj

/-- A field that a change of one task leaves, it leaves in all of them. -/
theorem modify_field {β : Type} {i : Nat} {f : WinTask → WinTask} (field : WinTask → β)
    (h : field (f (w.tasks i)) = field (w.tasks i)) (j : Nat) :
    field ((w.modify i f).tasks j) = field (w.tasks j) := by
  by_cases hj : j = i
  · subst hj
    exact (congrArg field (Function.update_self _ _ _)).trans h
  · exact congrArg field (Function.update_of_ne hj _ _)

/-- A task that could not tell its parent is left to `init`. -/
theorem WorldSound.orphan (h : WorldSound w) {i : Nat} (closes : Bool)
    (hused : (w.tasks i).flags ≠ 0) {p k : Nat} (hforker : w.forker i = some (p, k))
    (hended : w.Ended p k ∨ (p = winPidInit ∧ w.born p = k)) :
    WorldSound (w.modify i (procOrphanize closes)) := by
  have htask : (w.modify i (procOrphanize closes)).tasks i = procOrphanize closes (w.tasks i) :=
    Function.update_self _ _ _
  have htasks : ∀ j, j ≠ i → (w.modify i (procOrphanize closes)).tasks j = w.tasks j := fun j hj =>
    Function.update_of_ne hj _ _
  have hflags : ∀ j, ((w.modify i (procOrphanize closes)).tasks j).flags = (w.tasks j).flags :=
    modify_field WinTask.flags rfl
  have hids : ∀ j, ((w.modify i (procOrphanize closes)).tasks j).taskId = (w.tasks j).taskId :=
    modify_field WinTask.taskId rfl
  have hends : ∀ p k, w.Ended p k → (w.modify i (procOrphanize closes)).Ended p k := by
    intro p k
    unfold World.Ended
    rw [hflags]
    exact id
  -- only the task itself has another parent now, and nothing else of it is changed
  constructor
  case taskId =>
    intro j hj
    rw [hflags] at hj
    rw [hids]
    exact h.taskId j hj
  case unlinked =>
    intro j hj
    rw [hflags] at hj
    have hji : j ≠ i := by
      rintro rfl
      exact hused hj
    rw [htasks j hji]
    exact h.unlinked j hj
  case reclaim =>
    intro j hj
    rw [hflags] at hj ⊢
    exact h.reclaim j hj
  case past => exact h.past
  case named =>
    intro j hj
    by_cases hji : j = i
    · subst hji
      refine ⟨p, k, hforker, ?_⟩
      rw [htask]
      rcases hended with hended | ⟨hinit, hk⟩
      · exact .inr ⟨rfl, hends p k hended⟩
      · exact .inl ⟨hinit.symm, hk⟩
    · rw [htasks j hji] at hj
      obtain ⟨p', k', hfork, hnamed⟩ := h.named j hj
      refine ⟨p', k', hfork, ?_⟩
      rw [htasks j hji]
      exact hnamed.imp id fun ⟨hinit, hp⟩ => ⟨hinit, hends p' k' hp⟩

end

/-! ### The steps -/

/-- The task sets a flag that does not make it one that was waited for. -/
theorem continues_flag {task : WinTask} {flag : UInt32} (hused : task.flags ≠ 0)
    (hflag : flagSet flag winPsNozombie = false) :
    Continues task { task with flags := task.flags ||| flag } where
  used := by
    refine iff_of_false ?_ hused
    intro hzero
    exact hused (UInt32.or_eq_zero_iff.mp hzero).1
  zombie hzombie := by
    dsimp only
    rw [flagSet_or, hzombie, Bool.true_or]
  reclaim hreclaim := by
    dsimp only at hreclaim
    rw [flagSet_or, hflag, Bool.or_false] at hreclaim
    exact .inl hreclaim
  taskId := rfl
  parentId := .inl rfl

/-- A change of other fields. -/
theorem continues_of_eq {old new : WinTask} (hflags : new.flags = old.flags)
    (hid : new.taskId = old.taskId) (hparent : new.parentId = old.parentId) :
    Continues old new :=
  ⟨by rw [hflags], by rw [hflags]; exact id, by rw [hflags]; exact .inl, hid, .inl hparent⟩

theorem continues_procClose {task : WinTask} (hzombie : flagSet task.flags winPsZombie = true) :
    Continues task (procClose task) where
  used := by
    have hused : task.flags ≠ 0 := by
      intro hzero
      rw [hzero] at hzombie
      exact absurd hzombie (by decide)
    refine iff_of_false ?_ hused
    intro hzero
    exact hused (UInt32.or_eq_zero_iff.mp hzero).1
  zombie h := by
    show flagSet (task.flags ||| winPsNozombie) winPsZombie = true
    rw [flagSet_or, h, Bool.true_or]
  reclaim _ := by
    right
    show flagSet (task.flags ||| winPsNozombie) winPsZombie = true
    rw [flagSet_or, hzombie, Bool.true_or]
  taskId := rfl
  parentId := .inr rfl

theorem executes_used {task : WinTask} (h : executes task = true) : task.flags ≠ 0 := by
  unfold executes at h
  rw [Bool.and_eq_true, bne_iff_ne] at h
  exact h.1

theorem executes_not_zombie {task : WinTask} (h : executes task = true) :
    flagSet task.flags winPsZombie = false := by
  unfold executes at h
  rw [Bool.and_eq_true, Bool.not_eq_true'] at h
  exact h.2

section
variable {w : World}

theorem WorldSound.act (h : WorldSound w) {i : Nat} {f : WinTask → WinTask}
    (hf : executes (w.tasks i) = true → Continues (w.tasks i) (f (w.tasks i))) :
    WorldSound (w.act i f) := by
  refine guarded (I := WorldSound) h fun hexec => ?_
  exact h.fades (fades_update (hf hexec))

theorem fades_waitNoHang (options : UInt32) (children : WaitVector) (tasks : Tasks) :
    Fades tasks (waitNoHang (waitMask options) WinRusage.zero children.slots tasks).2 := by
  intro i
  by_cases hsame :
      (waitNoHang (waitMask options) WinRusage.zero children.slots tasks).2 i = tasks i
  · rw [hsame]
    exact .inr (Continues.refl _)
  · obtain ⟨-, ⟨-, hzero⟩ | ⟨-, hzombie, hclosed⟩⟩ := waitNoHang_changes children.nodup hsame
    · exact .inl hzero
    · rw [hclosed]
      exact .inr (continues_procClose hzombie)

theorem flags_of_unused {tasks : Tasks} {i : Nat} (h : unused tasks i = true) :
    (tasks i).flags = 0 := beq_iff_eq.mp h

/-- The search for a slot leaves what has the flags of a task, but not of one
that was waited for. -/
theorem swept_of_executes (h : WorldSound w) {parent : Nat}
    (hexec : executes (w.tasks parent) = true) (low high : Nat) :
    swept w.tasks low high parent = w.tasks parent := by
  refine if_neg fun hswept => ?_
  have hzombie := h.reclaim parent hswept.2.2
  rw [executes_not_zombie hexec] at hzombie
  cases hzombie

/-- The slot that a search takes is not named by what the search leaves. -/
theorem TakesUnnamed.swept {tasks : Tasks} {low i : Nat} (hfree : TakesUnnamed tasks low)
    (hlow : LowestFree (unused tasks) low winChildMax i) (hzero : i ≠ 0) (hinit : i ≠ winPidInit)
    (j : Nat) : (swept tasks low i j).parentId ≠ i := by
  unfold Vfs.swept
  split_ifs
  · exact hzero.symm
  · exact hfree i hlow hzero hinit j

theorem WorldSound.start (h : WorldSound w) (thread : WinThread)
    (hfree : TakesUnnamed w.tasks 0) : WorldSound (w.start thread) := by
  unfold World.start procStart
  rcases procCreateTask_cases thread 0 w.tasks with ⟨i, hlow, heq⟩ | ⟨-, heq⟩
  · rw [heq]
    dsimp only
    rw [Function.update_idem, Function.update_self]
    have hsound := h.fades (fades_swept w.tasks 0 i)
    have hslot : swept w.tasks 0 i i = w.tasks i := swept_outside (.inr (Nat.le_refl i))
    have hunused := flags_of_unused hlow.isFree
    refine hsound.fill (by dsimp only; rw [hslot]; exact hunused) ?_ rfl ?_ (hfree.swept hlow)
      (.inl ⟨rfl, ?_⟩)
    · show winPsEmbryo ||| winPsSystem ≠ 0
      decide
    · show flagSet (winPsEmbryo ||| winPsSystem) winPsNozombie = false
      decide
    · exact h.unlinked i hunused
  · rw [heq]
    exact h.fades (fades_swept w.tasks 0 winChildMax)

theorem WorldSound.fork (h : WorldSound w) (aborts : Bool) (thread : WinThread) {parent : Nat}
    (hexec : executes (w.tasks parent) = true)
    (hthread : flagSet thread.flags winPsNozombie = false)
    (hfree : TakesUnnamed w.tasks (w.tasks parent).groupId) :
    WorldSound (w.fork aborts thread parent) := by
  unfold World.fork
  rcases procDupTask_cases aborts thread parent w.tasks with ⟨i, hlow, heq⟩ | ⟨-, heq⟩
  · -- a slot was found: the tasks before it were swept, and the new one fills it
    have hsound := h.fades (fades_swept w.tasks (w.tasks parent).groupId i)
    have hslot : swept w.tasks (w.tasks parent).groupId i i = w.tasks i :=
      swept_outside (.inr (Nat.le_refl i))
    have hunused := flags_of_unused hlow.isFree
    have hne : parent ≠ i := by
      rintro rfl
      exact executes_used hexec hunused
    rw [heq]
    dsimp only
    rw [Function.update_of_ne hne, swept_of_executes h hexec]
    refine hsound.fill (by dsimp only; rw [hslot]; exact hunused) ?_ rfl ?_ (hfree.swept hlow)
      (.inr ⟨parent, hne, rfl, h.taskId parent (executes_used hexec)⟩)
    · intro hzero
      have hembryo : winPsEmbryo = 0 :=
        (UInt32.or_eq_zero_iff.mp (UInt32.or_eq_zero_iff.mp hzero).1).1
      exact absurd hembryo (by decide)
    · show flagSet (winPsEmbryo ||| thread.flags ||| _) winPsNozombie = false
      rw [flagSet_or, flagSet_or, hthread, Bool.or_false, Bool.or_eq_false_iff]
      refine ⟨by decide, ?_⟩
      split_ifs <;> decide
  · rw [heq]
    cases aborts with
    | false => exact h.fades (fades_swept w.tasks _ winChildMax)
    | true => exact h.fades (fades_swept w.tasks _ winChildMax)

end

/-- A step of a run that keeps order. -/
theorem WorldSound.step {w : World} (h : WorldSound w) (a : TaskStep) (horderly : Orderly w a) :
    WorldSound (taskStep w a) := by
  cases a with
  | start thread => exact h.start thread horderly
  | fork aborts vfork thread parent =>
      refine guarded (I := WorldSound) h fun hexec => ?_
      have hflags : flagSet (thread.forked vfork).flags winPsNozombie = false := by
        show flagSet (if vfork then winPsPpwait else 0) winPsNozombie = false
        cases vfork <;> decide
      exact h.fork aborts _ hexec hflags (horderly hexec)
  | execve thread i =>
      have hflag : flagSet winPsExec winPsNozombie = false := by decide
      refine h.act fun hexec => ?_
      obtain ⟨hused, hzombie, hreclaim, -, -⟩ := continues_flag (executes_used hexec) hflag
      exact ⟨hused, hzombie, hreclaim, rfl, .inl rfl⟩
  | exitStatus status i => exact h.act fun _ => continues_of_eq rfl rfl rfl
  | exitBegin i =>
      have hflag : flagSet winPsExiting winPsNozombie = false := by decide
      exact h.act fun hexec => continues_flag (executes_used hexec) hflag
  | detach i =>
      refine guarded (I := WorldSound) h fun hexec => ?_
      have hflag : flagSet winPsZombie winPsNozombie = false := by decide
      -- a zombie is not reclaimed yet
      have hcontinues : Continues (w.tasks i) (Vfs.detach (w.tasks i)) := by
        rw [Vfs.detach, if_pos hexec.2]
        exact continues_flag (executes_used hexec.1) hflag
      have hsound := h.fades (fades_update hcontinues)
      exact ⟨hsound.taskId, hsound.unlinked, hsound.reclaim, hsound.past, hsound.named⟩
  | notify posted closes i =>
      refine guarded (I := WorldSound) h fun hleaving => ?_
      have hsound : WorldSound (w.modify i (detachNotify posted closes)) := by
        cases posted with
        | true =>
            exact h.fades (fades_update (Continues.refl _))
        | false =>
            obtain ⟨hused, p, k, hforker, hended⟩ := horderly rfl hleaving
            exact h.orphan closes hused hforker hended
      exact ⟨hsound.taskId, hsound.unlinked, hsound.reclaim, hsound.past, hsound.named⟩
  | wait caller children options => exact h.fades (fades_waitNoHang options children w.tasks)
  | setsid i =>
      refine h.act fun _ => ?_
      unfold vfsSetsid
      split_ifs
      · exact Continues.refl _
      · exact continues_of_eq rfl rfl rfl
  | setpgid i pid pgid =>
      refine guarded (I := WorldSound) h fun _ => ?_
      refine h.fades ?_
      unfold sysSetpgid
      split_ifs
      · exact fun j => .inr (Continues.refl _)
      all_goals exact fades_update (continues_of_eq rfl rfl rfl)

/-- Task 2 forks task 3 and ends; task 3 ends and is left to `init`, which has forked another
task 2 by then. -/
def left : List TaskStep :=
  [.start anyThread, .fork false false anyThread 0, .fork false false anyThread 1,
    .fork false false anyThread 2, .exitBegin 2, .detach 2, .notify true true 2,
    .wait 1 ⟨[2], by decide⟩ 0, .exitBegin 3, .detach 3, .notify false true 3,
    .fork false false anyThread 1, .fork false false anyThread 1]

end MinC.Sys
