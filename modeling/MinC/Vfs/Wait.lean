import MinC.Vfs.Process
import MinC.Vfs.Poll

/-!
Waiting for tasks.

A wait is given a vector of tasks, which it goes through as often as something
has happened. A pass clears the tasks it finds that were waited for before, and
ends with the first one that has something to report: a zombie, which is given
up, or, if the caller asked for it, a task with something in its status.
-/

namespace MinC.Vfs

open MinC.Lib MinC.Win

structure WinRusage where
  taskId : Nat
  status : UInt32
  userTime : UInt64
  kernelTime : UInt64
  deriving DecidableEq

def WinRusage.zero : WinRusage := ⟨0, 0, 0, 0⟩

/-- Report a task. -/
def WinRusage.report (usage : WinRusage) (task : WinTask) : WinRusage where
  taskId := task.taskId
  status := task.status
  userTime := usage.userTime + task.userTime
  kernelTime := usage.kernelTime + task.kernelTime

/-- One pass over the vector. -/
def waitNoHang (mask : UInt32) (usage : WinRusage) : List Nat → Tasks → Option WinRusage × Tasks
  | [], tasks => (none, tasks)
  | i :: children, tasks =>
      if flagSet (tasks i).flags winPsNozombie then
        waitNoHang mask usage children (Function.update tasks i WinTask.zero)
      else if flagSet (tasks i).flags winPsZombie then
        (some (usage.report (tasks i)), Function.update tasks i (procClose (tasks i)))
      else if (tasks i).status &&& mask ≠ 0 then (some (usage.report (tasks i)), tasks)
      else waitNoHang mask usage children tasks

/-- What is waited for between two passes. -/
def waitGetObjects (interrupt : Nat) (tasks : Tasks) (children : List Nat) : List Nat :=
  interrupt :: children.map fun i => (tasks i).handle

/-- What a pass meets: the table, what the wait after it answers, and whether a
signal was pending then. -/
structure WaitRound where
  tasks : Tasks
  wait : Except Failure Unit
  signal : Bool

/-- The loop of `vfs_wait4`, for a number of rounds, with the table that each of
its passes leaves. -/
def vfsWait4 (children : List Nat) (noHang : Bool) (mask : UInt32) :
    Nat → (Nat → WaitRound) → Option (Except Failure WinRusage × List Tasks)
  | 0, _ => none
  | fuel + 1, rounds =>
      match waitNoHang mask WinRusage.zero children (rounds 0).tasks with
      | (some usage, after) => some (.ok usage, [after])
      | (none, after) =>
          if noHang then some (.ok WinRusage.zero, [after])
          else match (rounds 0).wait with
          | .error e => some (.error e, [after])
          | .ok () =>
              if (rounds 0).signal then some (.error failSignalPending, [after])
              else (vfsWait4 children noHang mask fuel fun r => rounds (r + 1)).map fun found =>
                (found.1, after :: found.2)

/-! ### The times of the children -/

/-- A pass reports the task. -/
def Reports (mask : UInt32) (task : WinTask) : Prop :=
  flagSet task.flags winPsNozombie = false ∧
    (flagSet task.flags winPsZombie = true ∨ task.status &&& mask ≠ 0)

/-- What a pass leaves of a task that it goes by. -/
def passed (task : WinTask) : WinTask :=
  if flagSet task.flags winPsNozombie then WinTask.zero else task

/-- What a pass leaves of a task that it reports. -/
def reaped (task : WinTask) : WinTask :=
  if flagSet task.flags winPsZombie then procClose task else task

/-- The table when a pass has gone by some tasks. -/
def passedBy (before : List Nat) (tasks : Tasks) : Tasks := fun i =>
  if i ∈ before then passed (tasks i) else tasks i

theorem passedBy_nil (tasks : Tasks) : passedBy [] tasks = tasks := rfl

theorem passedBy_cons {i : Nat} {before : List Nat} (hi : i ∉ before) (tasks : Tasks) :
    passedBy before (Function.update tasks i (passed (tasks i))) =
      passedBy (i :: before) tasks := by
  funext j
  unfold passedBy
  by_cases hj : j = i
  · subst hj
    rw [if_neg hi, if_pos List.mem_cons_self, Function.update_self]
  · rw [Function.update_of_ne hj]
    exact if_congr (by simp [hj]) rfl rfl

/-- A pass goes by the tasks before the first one that it reports. -/
theorem waitNoHang_cases (mask : UInt32) (usage : WinRusage) {children : List Nat}
    (hnodup : children.Nodup) (tasks : Tasks) :
    (∃ before i rest, children = before ++ i :: rest ∧ (∀ j ∈ before, ¬ Reports mask (tasks j)) ∧
      Reports mask (tasks i) ∧
      waitNoHang mask usage children tasks = (some (usage.report (tasks i)),
        Function.update (passedBy before tasks) i (reaped (tasks i)))) ∨
    ((∀ j ∈ children, ¬ Reports mask (tasks j)) ∧
      waitNoHang mask usage children tasks = (none, passedBy children tasks)) := by
  induction children generalizing tasks with
  | nil => exact .inr ⟨fun j hj => absurd hj List.not_mem_nil, rfl⟩
  | cons i children ih =>
      obtain ⟨hi, hrest⟩ := List.nodup_cons.mp hnodup
      by_cases hreports : Reports mask (tasks i)
      · left
        refine ⟨[], i, children, rfl, fun j hj => absurd hj List.not_mem_nil, hreports, ?_⟩
        obtain ⟨hkept, hsomething⟩ := hreports
        rw [waitNoHang, if_neg (by rw [hkept]; exact Bool.false_ne_true), passedBy_nil, reaped]
        by_cases hzombie : flagSet (tasks i).flags winPsZombie = true
        · rw [if_pos hzombie, if_pos hzombie]
        · rw [if_neg hzombie, if_neg hzombie, if_pos (hsomething.resolve_left hzombie),
            Function.update_eq_self]
      · -- The pass goes by the task, which it may have cleared.
        have hgoes : waitNoHang mask usage (i :: children) tasks =
            waitNoHang mask usage children (Function.update tasks i (passed (tasks i))) := by
          rw [waitNoHang, passed]
          by_cases hcleared : flagSet (tasks i).flags winPsNozombie = true
          · rw [if_pos hcleared, if_pos hcleared]
          · have hnothing : ¬ (flagSet (tasks i).flags winPsZombie = true ∨
                (tasks i).status &&& mask ≠ 0) := fun h => hreports ⟨by simpa using hcleared, h⟩
            rw [if_neg hcleared, if_neg hcleared, if_neg (not_or.mp hnothing).1,
              if_neg (not_or.mp hnothing).2, Function.update_eq_self]
        have hsame : ∀ j ∈ children, Function.update tasks i (passed (tasks i)) j = tasks j :=
          fun j hj => Function.update_of_ne (show j ≠ i from by rintro rfl; exact hi hj) _ _
        rw [hgoes]
        rcases ih hrest (Function.update tasks i (passed (tasks i))) with
          ⟨before, k, rest, rfl, hbefore, hk, heq⟩ | ⟨hnone, heq⟩
        · left
          have hmem : ∀ j ∈ before, j ∈ before ++ k :: rest := fun j hj => List.mem_append_left _ hj
          have hkmem : k ∈ before ++ k :: rest := List.mem_append_right _ List.mem_cons_self
          have hnot : i ∉ before := fun h => hi (hmem i h)
          rw [hsame k hkmem] at hk heq
          refine ⟨i :: before, k, rest, rfl, ?_, hk, ?_⟩
          · intro j hj
            rcases List.mem_cons.mp hj with rfl | hj
            · exact hreports
            · have hother := hbefore j hj
              rwa [hsame j (hmem j hj)] at hother
          · rw [heq, passedBy_cons hnot]
        · right
          refine ⟨fun j hj => ?_, by rw [heq, passedBy_cons hi]⟩
          rcases List.mem_cons.mp hj with rfl | hj
          · exact hreports
          · have hother := hnone j hj
            rwa [hsame j hj] at hother

/-- A pass clears tasks that were waited for, gives up one that is reported as a
zombie, and changes nothing else. -/
theorem waitNoHang_changes {mask : UInt32} {usage : WinRusage} {children : List Nat}
    (hnodup : children.Nodup) {tasks : Tasks} {i : Nat}
    (h : (waitNoHang mask usage children tasks).2 i ≠ tasks i) :
    i ∈ children ∧
      ((flagSet (tasks i).flags winPsNozombie = true ∧
          (waitNoHang mask usage children tasks).2 i = WinTask.zero) ∨
        (Reports mask (tasks i) ∧ flagSet (tasks i).flags winPsZombie = true ∧
          (waitNoHang mask usage children tasks).2 i = procClose (tasks i))) := by
  have hpassed {before : List Nat} (hne : passedBy before tasks i ≠ tasks i) :
      i ∈ before ∧ flagSet (tasks i).flags winPsNozombie = true ∧
        passedBy before tasks i = WinTask.zero := by
    unfold passedBy passed at hne ⊢
    split_ifs at hne ⊢ with hmem hflag
    · exact ⟨hmem, hflag, rfl⟩
    · exact absurd rfl hne
    · exact absurd rfl hne
  rcases waitNoHang_cases mask usage hnodup tasks with
    ⟨before, k, rest, rfl, -, hk, heq⟩ | ⟨-, heq⟩
  · rw [heq] at h ⊢
    dsimp only at h ⊢
    -- the child that is reported was not passed by
    by_cases hik : i = k
    · subst hik
      rw [Function.update_self, reaped] at h ⊢
      refine ⟨List.mem_append_right _ List.mem_cons_self, .inr ⟨hk, ?_⟩⟩
      split_ifs at h ⊢ with hzombie
      · exact ⟨hzombie, rfl⟩
      · exact absurd rfl h
    · rw [Function.update_of_ne hik] at h ⊢
      obtain ⟨hmem, hcleared⟩ := hpassed h
      exact ⟨List.mem_append_left _ hmem, .inl hcleared⟩
  · rw [heq] at h ⊢
    obtain ⟨hmem, hcleared⟩ := hpassed h
    exact ⟨hmem, .inl hcleared⟩

/-- A pass over slots in their order ends at the lowest one that it reports. -/
theorem waitNoHang_sorted (mask : UInt32) (usage : WinRusage) {children : List Nat}
    (hsorted : children.Pairwise (· < ·)) (tasks : Tasks) :
    (∃ i ∈ children, Reports mask (tasks i) ∧
      (∀ j ∈ children, j < i → ¬ Reports mask (tasks j)) ∧
      waitNoHang mask usage children tasks = (some (usage.report (tasks i)),
        Function.update (fun j => if j ∈ children ∧ j < i then passed (tasks j) else tasks j) i
          (reaped (tasks i)))) ∨
    ((∀ j ∈ children, ¬ Reports mask (tasks j)) ∧
      waitNoHang mask usage children tasks = (none, passedBy children tasks)) := by
  rcases waitNoHang_cases mask usage (hsorted.imp Nat.ne_of_lt) tasks with
    ⟨before, i, rest, rfl, hbefore, hi, heq⟩ | hnone
  · left
    obtain ⟨-, hrest, hlow⟩ := List.pairwise_append.mp hsorted
    obtain ⟨hhigh, -⟩ := List.pairwise_cons.mp hrest
    -- what is below the slot stands before it
    have hmem : ∀ j, j ∈ before ↔ j ∈ before ++ i :: rest ∧ j < i := by
      intro j
      rw [List.mem_append, List.mem_cons]
      constructor
      · exact fun hj => ⟨.inl hj, hlow j hj i List.mem_cons_self⟩
      · rintro ⟨hj | rfl | hj, hlt⟩
        · exact hj
        · exact absurd hlt (Nat.lt_irrefl j)
        · exact absurd hlt (Nat.lt_asymm (hhigh j hj))
    refine ⟨i, List.mem_append_right _ List.mem_cons_self, hi, fun j hj hlt =>
      hbefore j ((hmem j).mpr ⟨hj, hlt⟩), ?_⟩
    have hpassed : passedBy before tasks = fun j =>
        if j ∈ before ++ i :: rest ∧ j < i then passed (tasks j) else tasks j :=
      funext fun j => if_congr (hmem j) rfl rfl
    rw [heq, hpassed]
  · exact .inr hnone

theorem passed_ne_iff {task : WinTask} :
    passed task ≠ task ↔ flagSet task.flags winPsNozombie = true := by
  unfold passed
  split_ifs with hflag
  · refine iff_of_true (fun heq => ?_) hflag
    rw [← heq] at hflag
    exact absurd hflag (by decide)
  · exact iff_of_false (fun h => h rfl) hflag

theorem reaped_ne_iff {task : WinTask} (hkept : flagSet task.flags winPsNozombie = false) :
    reaped task ≠ task ↔ flagSet task.flags winPsZombie = true := by
  unfold reaped
  split_ifs with hflag
  · refine iff_of_true (fun heq => ?_) hflag
    have hset : flagSet (procClose task).flags winPsNozombie = true := by
      show flagSet (task.flags ||| winPsNozombie) winPsNozombie = true
      rw [flagSet_or, (by decide : flagSet winPsNozombie winPsNozombie = true), Bool.or_true]
    rw [heq, hkept] at hset
    cases hset
  · exact iff_of_false (fun h => h rfl) hflag

/-- A pass changes the tasks it comes to that have ended, whether they were waited for or not. -/
theorem waitNoHang_ne_iff {mask : UInt32} {usage : WinRusage} {children : List Nat}
    (hsorted : children.Pairwise (· < ·)) {tasks : Tasks} {i : Nat} :
    (waitNoHang mask usage children tasks).2 i ≠ tasks i ↔
      i ∈ children ∧ (∀ j ∈ children, j < i → ¬ Reports mask (tasks j)) ∧
        (flagSet (tasks i).flags winPsNozombie = true ∨
          flagSet (tasks i).flags winPsZombie = true) := by
  -- what has nothing to report and is a zombie was waited for
  have hquiet : ¬ Reports mask (tasks i) → (passed (tasks i) ≠ tasks i ↔
      flagSet (tasks i).flags winPsNozombie = true ∨
        flagSet (tasks i).flags winPsZombie = true) := by
    intro hnot
    rw [passed_ne_iff]
    refine ⟨.inl, fun h => by_contra fun hkept => hnot ⟨by simpa using hkept, ?_⟩⟩
    exact .inl (h.resolve_left hkept)
  rcases waitNoHang_sorted mask usage hsorted tasks with
    ⟨k, hk, hreports, hfirst, heq⟩ | ⟨hnothing, heq⟩
  · rw [heq]
    dsimp only
    by_cases hik : i = k
    · subst hik
      rw [Function.update_self, reaped_ne_iff hreports.1, hreports.1]
      exact ⟨fun h => ⟨hk, hfirst, .inr h⟩, fun h => h.2.2.resolve_left Bool.false_ne_true⟩
    · rw [Function.update_of_ne hik]
      by_cases hbelow : i ∈ children ∧ i < k
      · rw [if_pos hbelow, hquiet (hfirst i hbelow.1 hbelow.2)]
        exact ⟨fun h => ⟨hbelow.1, fun j hj hji => hfirst j hj (hji.trans hbelow.2), h⟩,
          fun h => h.2.2⟩
      · rw [if_neg hbelow]
        refine iff_of_false (fun h => h rfl) fun h => ?_
        have hki : k < i := by
          rcases Nat.lt_trichotomy i k with hlt | heq | hgt
          · exact absurd ⟨h.1, hlt⟩ hbelow
          · exact absurd heq hik
          · exact hgt
        exact h.2.1 k hk hki hreports
  · rw [heq]
    dsimp only
    rw [passedBy]
    split_ifs with hi
    · rw [hquiet (hnothing i hi)]
      exact ⟨fun h => ⟨hi, fun j hj _ => hnothing j hj, h⟩, fun h => h.2.2⟩
    · exact iff_of_false (fun h => h rfl) fun h => hi h.1

/-! ### What the rounds do -/

/-- How the call goes: it ends with its first pass, or goes on as a shorter one. -/
theorem vfsWait4_cases {children : List Nat} {noHang : Bool} {mask : UInt32} {fuel : Nat}
    {rounds : Nat → WaitRound} {outcome : Except Failure WinRusage} {after : List Tasks}
    (h : vfsWait4 children noHang mask (fuel + 1) rounds = some (outcome, after)) :
    (after = [(waitNoHang mask WinRusage.zero children (rounds 0).tasks).2] ∧
      ((∃ usage, (waitNoHang mask WinRusage.zero children (rounds 0).tasks).1 = some usage ∧
          outcome = .ok usage) ∨
        ((waitNoHang mask WinRusage.zero children (rounds 0).tasks).1 = none ∧
          (outcome = .ok WinRusage.zero ∨ outcome = .error failSignalPending ∨
            ∃ e, (rounds 0).wait = .error e ∧ outcome = .error e)))) ∨
    ∃ more, (noHang = false ∧
        (waitNoHang mask WinRusage.zero children (rounds 0).tasks).1 = none ∧
        (rounds 0).wait = .ok () ∧ (rounds 0).signal = false) ∧
      after = (waitNoHang mask WinRusage.zero children (rounds 0).tasks).2 :: more ∧
      vfsWait4 children noHang mask fuel (fun r => rounds (r + 1)) = some (outcome, more) := by
  rw [vfsWait4] at h
  generalize waitNoHang mask WinRusage.zero children (rounds 0).tasks = pass at h ⊢
  obtain ⟨found, left⟩ := pass
  cases found with
  | some usage =>
      cases h
      exact .inl ⟨rfl, .inl ⟨usage, rfl, rfl⟩⟩
  | none =>
      dsimp only at h
      by_cases hnohang : noHang = true
      · rw [if_pos hnohang] at h
        cases h
        exact .inl ⟨rfl, .inr ⟨rfl, .inl rfl⟩⟩
      · rw [if_neg hnohang] at h
        cases hwait : (rounds 0).wait with
        | error e =>
            rw [hwait] at h
            cases h
            exact .inl ⟨rfl, .inr ⟨rfl, .inr (.inr ⟨e, rfl, rfl⟩)⟩⟩
        | ok =>
            rw [hwait] at h
            dsimp only at h
            by_cases hsignal : (rounds 0).signal = true
            · rw [if_pos hsignal] at h
              cases h
              exact .inl ⟨rfl, .inr ⟨rfl, .inr (.inl rfl)⟩⟩
            · -- the rounds that are left are those of a shorter call
              rw [if_neg hsignal] at h
              obtain ⟨⟨outcome', more⟩, hrest, heq⟩ := Option.map_eq_some_iff.mp h
              cases heq
              exact .inr ⟨more, ⟨by simpa using hnohang, rfl, rfl, by simpa using hsignal⟩, rfl,
                    hrest⟩

/-- Each pass leaves its own table, and what the call answers was found by a
pass or was left behind by a wait. -/
theorem vfsWait4_rounds {children : List Nat} {noHang : Bool} {mask : UInt32} {fuel : Nat}
    {rounds : Nat → WaitRound} {outcome : Except Failure WinRusage} {after : List Tasks}
    (h : vfsWait4 children noHang mask fuel rounds = some (outcome, after)) :
    (∀ r table, after[r]? = some table →
      table = (waitNoHang mask WinRusage.zero children (rounds r).tasks).2) ∧
    (∀ usage, outcome = .ok usage → usage = WinRusage.zero ∨
      ∃ r, (waitNoHang mask WinRusage.zero children (rounds r).tasks).1 = some usage) ∧
    ∀ e, outcome = .error e → e = failSignalPending ∨ ∃ r, (rounds r).wait = .error e := by
  induction fuel generalizing rounds after with
  | zero => cases h
  | succ fuel ih =>
      rcases vfsWait4_cases h with ⟨rfl, hend⟩ | ⟨more, -, rfl, hmore⟩
      · refine ⟨fun r table hr => ?_, ?_⟩
        · cases r with
          | zero => exact (Option.some.inj hr).symm
          | succ r => cases hr
        · rcases hend with ⟨usage, hfound, rfl⟩ | ⟨-, rfl | rfl | ⟨e, hwait, rfl⟩⟩
          · exact ⟨fun usage' heq => .inr ⟨0, Except.ok.inj heq ▸ hfound⟩,
                fun e heq => by cases heq⟩
          · exact ⟨fun usage heq => .inl (Except.ok.inj heq).symm, fun e heq => by cases heq⟩
          · exact ⟨fun usage heq => (by cases heq), fun e heq => .inl (Except.error.inj heq).symm⟩
          · exact ⟨fun usage heq => (by cases heq),
              fun e' heq => .inr ⟨0, Except.error.inj heq ▸ hwait⟩⟩
      · obtain ⟨htables, hok, herror⟩ := ih hmore
        refine ⟨fun r table hr => ?_, fun usage heq => ?_, fun e heq => ?_⟩
        · cases r with
          | zero => exact (Option.some.inj hr).symm
          | succ r => exact htables r table hr
        · exact (hok usage heq).imp_right fun ⟨r, hr⟩ => ⟨r + 1, hr⟩
        · exact (herror e heq).imp_right fun ⟨r, hr⟩ => ⟨r + 1, hr⟩

/-- A round that another one follows: nothing is reported of what is selected, and the wait ends
well and without a signal. -/
structure Unanswered (selected : Nat → Prop) (noHang : Bool) (mask : UInt32) (round : WaitRound) :
    Prop where
  hangs : noHang = false
  nothing : ∀ i, selected i → ¬ Reports mask (round.tasks i)
  wait : round.wait = .ok ()
  signal : round.signal = false

/-- The passes that are made are those that come after rounds that went on. -/
theorem vfsWait4_made {children : List Nat} (hnodup : children.Nodup) {noHang : Bool}
    {mask : UInt32} {fuel : Nat} {rounds : Nat → WaitRound} {outcome : Except Failure WinRusage}
    {after : List Tasks}
    (h : vfsWait4 children noHang mask fuel rounds = some (outcome, after)) (r : Nat) :
    r < after.length ↔ ∀ q < r, Unanswered (· ∈ children) noHang mask (rounds q) := by
  induction fuel generalizing rounds after r with
  | zero => cases h
  | succ fuel ih =>
      by_cases hgoes : Unanswered (· ∈ children) noHang mask (rounds 0)
      · obtain ⟨more, rfl, hmore⟩ : ∃ more,
            after = (waitNoHang mask WinRusage.zero children (rounds 0).tasks).2 :: more ∧
              vfsWait4 children noHang mask fuel (fun r => rounds (r + 1)) =
                some (outcome, more) := by
          rcases waitNoHang_cases mask WinRusage.zero hnodup (rounds 0).tasks with
            ⟨before, i, rest, rfl, -, hi, -⟩ | ⟨-, heq⟩
          · exact absurd hi (hgoes.nothing i (List.mem_append_right _ List.mem_cons_self))
          · rw [vfsWait4, heq] at h
            dsimp only at h
            rw [hgoes.hangs, hgoes.wait] at h
            dsimp only at h
            rw [hgoes.signal] at h
            obtain ⟨⟨outcome', more⟩, hrest, hpair⟩ := Option.map_eq_some_iff.mp h
            cases hpair
            refine ⟨more, by rw [heq], ?_⟩
            rw [hgoes.hangs]
            exact hrest
        cases r with
        | zero => exact iff_of_true (Nat.zero_lt_succ _) fun q hq => absurd hq (Nat.not_lt_zero q)
        | succ r =>
            rw [List.length_cons, Nat.succ_lt_succ_iff, ih hmore r]
            constructor
            · intro hrest q hq
              cases q with
              | zero => exact hgoes
              | succ q => exact hrest q (Nat.lt_of_succ_lt_succ hq)
            · exact fun hall q hq => hall (q + 1) (Nat.succ_lt_succ hq)
      · have hlength : after.length = 1 := by
          rcases vfsWait4_cases h with ⟨rfl, -⟩ | ⟨more, ⟨hhangs, hnone, hwait, hsignal⟩, -, -⟩
          · rfl
          · refine absurd ⟨hhangs, ?_, hwait, hsignal⟩ hgoes
            rcases waitNoHang_cases mask WinRusage.zero hnodup (rounds 0).tasks with
              ⟨before, i, rest, rfl, -, -, heq⟩ | ⟨hnothing, -⟩
            · rw [heq] at hnone
              cases hnone
            · exact hnothing
        rw [hlength]
        cases r with
        | zero => exact iff_of_true Nat.zero_lt_one fun q hq => absurd hq (Nat.not_lt_zero q)
        | succ r =>
            exact iff_of_false (by omega) fun hall => hgoes (hall 0 (Nat.zero_lt_succ r))

/-- What the call answers is what its last pass found. -/
theorem vfsWait4_last {children : List Nat} {noHang : Bool} {mask : UInt32} {fuel : Nat}
    {rounds : Nat → WaitRound} {outcome : Except Failure WinRusage} {after : List Tasks}
    (h : vfsWait4 children noHang mask fuel rounds = some (outcome, after)) :
    ∃ r, after.length = r + 1 ∧
      ((∃ usage, (waitNoHang mask WinRusage.zero children (rounds r).tasks).1 = some usage ∧
        outcome = .ok usage) ∨
      ((waitNoHang mask WinRusage.zero children (rounds r).tasks).1 = none ∧
        ∀ usage, outcome = .ok usage → usage = WinRusage.zero)) := by
  induction fuel generalizing rounds after with
  | zero => cases h
  | succ fuel ih =>
      rcases vfsWait4_cases h with
        ⟨rfl, ⟨usage, hfound, rfl⟩ | ⟨hnone, hend⟩⟩ | ⟨more, -, rfl, hmore⟩
      · exact ⟨0, rfl, .inl ⟨usage, hfound, rfl⟩⟩
      · refine ⟨0, rfl, .inr ⟨hnone, fun usage heq => ?_⟩⟩
        rcases hend with rfl | rfl | ⟨e, -, rfl⟩
        · exact (Except.ok.inj heq).symm
        · cases heq
        · cases heq
      · obtain ⟨r, hlength, hfound⟩ := ih hmore
        exact ⟨r + 1, by rw [List.length_cons, hlength], hfound⟩

end MinC.Vfs
