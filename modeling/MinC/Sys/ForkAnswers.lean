import MinC.Sys.ForkSeats

/-!
What a thread that forked is told.

A thread waits for the one message that answers its fork. The thread it made
sends it, after a `fork` when it has its slot, and after a `vfork` when it ends.
Nothing marks the message, so it has to be the only one that there is: a program
that was started by a child of `vfork` still has the flag that makes a thread
tell its parent, and must not use it.
-/

namespace MinC.Sys

open MinC.Lib MinC.Win MinC.Vfs

/-- The thread has its slot, and has told its parent if it was made by `fork`. -/
def Phase.begun : Phase → Bool
  | .starting _ _ _ => false
  | .copied _ _ _ => false
  | _ => true

theorem Phase.seated_of_begun {phase : Phase} (h : phase.begun = true) : phase.seated = true := by
  cases phase with
  | starting parent task vfork => cases h
  | _ => rfl

/-- How it stands with the answer of a fork: the thread that was made has no slot yet, it
owes the answer, or the answer is there. -/
inductive Pending (w : ForkWorld) (t process slot : Nat) (vfork : Bool) (c : Nat) : Prop
  | starting (s : Nat) (hthread : w.threads c = some ⟨process, s, .starting t slot vfork⟩)
      (hqueue : w.queue t = [])
  | owing (m : Nat) (phase : Phase) (hthread : w.threads c = some ⟨process, m, phase⟩)
      (hphase : phase = .copied t vfork m ∨ vfork = true ∧ phase.begun = true)
      (htook : w.took c = some m) (hqueue : w.queue t = [])
      (hlink : vfork = true →
        flagSet (w.tasks m).flags winPsPpwait = true ∧ (w.tasks m).parentId = slot)
  | told (m : Nat) (htook : w.took c = some m) (hqueue : w.queue t = [m])
      (htold : ∀ thread, w.threads c = some thread → vfork = false ∧ thread.phase.begun = true)

/-- Threads that wait are answered. A thread with the flag of a `vfork` has a parent that
waits for it, or is the first thread of another program. -/
structure ForkAnswers (w : ForkWorld) : Prop where
  made : ∀ t c, w.forked t = some c → t < c ∧ c < w.next
  once : ∀ t u c, w.forked t = some c → w.forked u = some c → t = u
  silent : ∀ t, w.next ≤ t → w.queue t = []
  idle : ∀ t process slot phase, w.threads t = some ⟨process, slot, phase⟩ →
    (∀ vfork, phase ≠ .waiting vfork) → w.queue t = []
  waits : ∀ t process slot vfork, w.threads t = some ⟨process, slot, .waiting vfork⟩ →
    ∃ c, w.forked t = some c ∧ Pending w t process slot vfork c
  starts : ∀ c process s t slot vfork,
    w.threads c = some ⟨process, s, .starting t slot vfork⟩ →
      w.threads t = some ⟨process, slot, .waiting vfork⟩ ∧ w.forked t = some c
  copies : ∀ c process s t vfork result,
    w.threads c = some ⟨process, s, .copied t vfork result⟩ →
      ∃ slot, w.threads t = some ⟨process, slot, .waiting vfork⟩ ∧ w.forked t = some c
  owes : ∀ c process slot phase, w.threads c = some ⟨process, slot, phase⟩ →
    phase.seated = true → flagSet (w.tasks slot).flags winPsPpwait = true →
      (c = process ∧ flagSet (w.tasks slot).flags winPsExec = true ∧ phase ≠ .leaving) ∨
      ∃ t s, w.threads t = some ⟨process, s, .waiting true⟩ ∧ w.forked t = some c

/-- A task keeps its parent, and the flag that makes it tell the parent. -/
structure Linked (task task' : WinTask) : Prop where
  parent : task'.parentId = task.parentId
  waits : flagSet task'.flags winPsPpwait = flagSet task.flags winPsPpwait
  execs : flagSet task.flags winPsExec = true → flagSet task'.flags winPsExec = true

theorem Linked.of_eq {task task' : WinTask} (h : task' = task) : Linked task task' :=
  ⟨by rw [h], by rw [h], fun hexec => by rwa [h]⟩

/-- A task that gets a flag. -/
theorem Linked.flag {task task' : WinTask} {flag : UInt32}
    (hparent : task'.parentId = task.parentId) (hflags : task'.flags = task.flags ||| flag)
    (h : flagSet flag winPsPpwait = false) : Linked task task' := by
  refine ⟨hparent, ?_, fun hexec => ?_⟩
  · rw [hflags, flagSet_or, h, Bool.or_false]
  · rw [hflags, flagSet_or, hexec, Bool.true_or]

section
variable {w w' : ForkWorld}

/-- A thread that stays, or goes on after it has begun. -/
def Proceeds (thread thread' : Option Thread) : Prop :=
  thread' = thread ∨ ∃ process slot phase phase', thread = some ⟨process, slot, phase⟩ ∧
    thread' = some ⟨process, slot, phase'⟩ ∧ phase.begun = true ∧ phase'.begun = true

/-- What is pending stays so while the thread that owes it goes on. -/
theorem Pending.proceeds {t process slot c : Nat} {vfork : Bool}
    (h : Pending w t process slot vfork c) (hthread : Proceeds (w.threads c) (w'.threads c))
    (htook : w'.took c = w.took c) (hqueue : w'.queue t = w.queue t)
    (htasks : ∀ q m phase, w.threads c = some ⟨q, m, phase⟩ → phase.seated = true →
      Linked (w.tasks m) (w'.tasks m)) : Pending w' t process slot vfork c := by
  cases h with
  | starting s hc hq =>
      rcases hthread with heq | ⟨q, m, phase, phase', hold, -, hbegun, -⟩
      · exact .starting s (heq.trans hc) (hqueue.trans hq)
      · rw [hc] at hold
        cases hold
        cases hbegun
  | owing m phase hc hphase ht hq hlink =>
      have hseated : phase.seated = true := by
        rcases hphase with rfl | ⟨-, hbegun⟩
        · rfl
        · exact Phase.seated_of_begun hbegun
      have hkept := htasks process m phase hc hseated
      have hlink' : vfork = true →
          flagSet (w'.tasks m).flags winPsPpwait = true ∧ (w'.tasks m).parentId = slot :=
        fun hv => ⟨hkept.waits.trans (hlink hv).1, hkept.parent.trans (hlink hv).2⟩
      rcases hthread with heq | ⟨q, m', phase₀, phase', hold, hnew, hbegun, hbegun'⟩
      · exact .owing m phase (heq.trans hc) hphase (htook.trans ht) (hqueue.trans hq) hlink'
      · rw [hc] at hold
        cases hold
        rcases hphase with rfl | ⟨hv, -⟩
        · cases hbegun
        · exact .owing m phase' hnew (.inr ⟨hv, hbegun'⟩) (htook.trans ht) (hqueue.trans hq) hlink'
  | told m ht hq htold =>
      refine .told m (htook.trans ht) (hqueue.trans hq) fun thread hthread' => ?_
      rcases hthread with heq | ⟨q, m', phase, phase', hold, hnew, hbegun, hbegun'⟩
      · exact htold thread (heq.symm.trans hthread')
      · rw [hnew] at hthread'
        cases hthread'
        exact ⟨(htold _ hold).1, hbegun'⟩

end

namespace ForkAnswers

variable {w w' : ForkWorld}

/-- Tasks change, but are linked as before. -/
theorem of_tasks (h : ForkAnswers w) (hthreads : w'.threads = w.threads)
    (hqueue : w'.queue = w.queue) (hnext : w'.next = w.next) (hforked : w'.forked = w.forked)
    (htook : w'.took = w.took)
    (htasks : ∀ c q m phase, w.threads c = some ⟨q, m, phase⟩ → phase.seated = true →
      Linked (w.tasks m) (w'.tasks m)) : ForkAnswers w' := by
  constructor
  · rw [hforked, hnext]
    exact h.made
  · rw [hforked]
    exact h.once
  · rw [hnext, hqueue]
    exact h.silent
  · rw [hthreads, hqueue]
    exact h.idle
  · intro t process slot vfork ht
    rw [hthreads] at ht
    obtain ⟨c, hc, hpending⟩ := h.waits t process slot vfork ht
    rw [hforked]
    exact ⟨c, hc, hpending.proceeds (.inl (congrFun hthreads c)) (congrFun htook c)
      (congrFun hqueue t) (htasks c)⟩
  · rw [hthreads, hforked]
    exact h.starts
  · rw [hthreads, hforked]
    exact h.copies
  · intro c process slot phase hc hseated hwaits
    rw [hthreads] at hc
    have hlinked := htasks c process slot phase hc hseated
    rw [hlinked.waits] at hwaits
    rw [hthreads, hforked]
    rcases h.owes c process slot phase hc hseated hwaits with ⟨hself, hexec, hphase⟩ | hparent
    · exact .inl ⟨hself, hlinked.execs hexec, hphase⟩
    · exact .inr hparent

/-- The first thread of a process, in a slot that has no parent to tell or another
program's. -/
theorem first (h : ForkAnswers w) (hcounted : w.Counted) {slot : Nat}
    (hthreads : w'.threads = Function.update w.threads w.next (some ⟨w.next, slot, .running⟩))
    (hqueue : w'.queue = w.queue) (hnext : w'.next = w.next + 1) (hforked : w'.forked = w.forked)
    (htook : w'.took = w.took)
    (htasks : ∀ c q m phase, w.threads c = some ⟨q, m, phase⟩ → phase.seated = true →
      Linked (w.tasks m) (w'.tasks m))
    (hnew : flagSet (w'.tasks slot).flags winPsPpwait = true →
      flagSet (w'.tasks slot).flags winPsExec = true) : ForkAnswers w' := by
  have hold : ∀ {u}, u < w.next → w'.threads u = w.threads u := fun hu => by
    rw [hthreads, Function.update_of_ne (Nat.ne_of_lt hu)]
  have hcases : ∀ {u q s ph}, w'.threads u = some ⟨q, s, ph⟩ →
      (u = w.next ∧ q = w.next ∧ s = slot ∧ ph = .running) ∨ w.threads u = some ⟨q, s, ph⟩ := by
    intro u q s ph hu
    rw [hthreads] at hu
    rcases update_cases hu with ⟨rfl, heq⟩ | ⟨-, hu⟩
    · cases heq
      exact .inl ⟨rfl, rfl, rfl, rfl⟩
    · exact .inr hu
  have hkept : ∀ {u thread}, w.threads u = some thread → w'.threads u = some thread :=
    fun hu => (hold (hcounted.made _ _ hu).1).trans hu
  constructor
  · intro t c hc
    rw [hforked] at hc
    obtain ⟨htc, hcn⟩ := h.made t c hc
    rw [hnext]
    exact ⟨htc, Nat.lt_succ_of_lt hcn⟩
  · rw [hforked]
    exact h.once
  · intro t ht
    rw [hnext] at ht
    rw [hqueue]
    exact h.silent t (Nat.le_of_succ_le ht)
  · intro t process s phase ht hphase
    rw [hqueue]
    rcases hcases ht with ⟨rfl, -⟩ | ht
    · exact h.silent w.next (Nat.le_refl _)
    · exact h.idle t process s phase ht hphase
  · intro t process s vfork ht
    rcases hcases ht with ⟨-, -, -, heq⟩ | ht
    · cases heq
    · obtain ⟨c, hc, hpending⟩ := h.waits t process s vfork ht
      rw [hforked]
      exact ⟨c, hc, hpending.proceeds (.inl (hold (h.made t c hc).2)) (congrFun htook c)
        (congrFun hqueue t) (htasks c)⟩
  · intro c process s t s' vfork hc
    rcases hcases hc with ⟨-, -, -, heq⟩ | hc
    · cases heq
    · obtain ⟨ht, hforks⟩ := h.starts c process s t s' vfork hc
      rw [hforked]
      exact ⟨hkept ht, hforks⟩
  · intro c process s t vfork result hc
    rcases hcases hc with ⟨-, -, -, heq⟩ | hc
    · cases heq
    · obtain ⟨s', ht, hforks⟩ := h.copies c process s t vfork result hc
      rw [hforked]
      exact ⟨s', hkept ht, hforks⟩
  · intro c process s phase hc hseated hwaits
    rcases hcases hc with ⟨rfl, rfl, rfl, rfl⟩ | hc
    · exact .inl ⟨rfl, hnew hwaits, Phase.noConfusion⟩
    · have hlinked := htasks c process s phase hc hseated
      rw [hlinked.waits] at hwaits
      rcases h.owes c process s phase hc hseated hwaits with ⟨hself, hexec, hphase⟩ | hparent
      · exact .inl ⟨hself, hlinked.execs hexec, hphase⟩
      · obtain ⟨t, s', ht, hforks⟩ := hparent
        rw [hforked]
        exact .inr ⟨t, s', hkept ht, hforks⟩

/-- A fork makes a thread, and waits for its answer. -/
theorem forks (h : ForkAnswers w) (hcounted : w.Counted) {t process slot : Nat} {vfork : Bool}
    (ht : w.threads t = some ⟨process, slot, .running⟩)
    (hthreads : w'.threads = Function.update
      (Function.update w.threads t (some ⟨process, slot, .waiting vfork⟩))
      w.next (some ⟨process, 0, .starting t slot vfork⟩))
    (hqueue : w'.queue = w.queue) (hnext : w'.next = w.next + 1)
    (hforked : w'.forked = Function.update w.forked t (some w.next))
    (htook : w'.took = w.took) (htasks : w'.tasks = w.tasks) : ForkAnswers w' := by
  have htn : t < w.next := (hcounted.made t _ ht).1
  have hself : w'.threads t = some ⟨process, slot, .waiting vfork⟩ := by
    rw [hthreads, Function.update_of_ne (Nat.ne_of_lt htn), Function.update_self]
  have hchild : w'.threads w.next = some ⟨process, 0, .starting t slot vfork⟩ := by
    rw [hthreads, Function.update_self]
  have hold : ∀ {u}, u < w.next → u ≠ t → w'.threads u = w.threads u := fun hu hut => by
    rw [hthreads, Function.update_of_ne (Nat.ne_of_lt hu), Function.update_of_ne hut]
  have hsaid : ∀ {u}, u ≠ t → w'.forked u = w.forked u := fun hut => by
    rw [hforked, Function.update_of_ne hut]
  have hcases : ∀ {u thread}, w'.threads u = some thread →
      (u = w.next ∧ thread = ⟨process, 0, .starting t slot vfork⟩) ∨
      (u = t ∧ thread = ⟨process, slot, .waiting vfork⟩) ∨
      (u ≠ t ∧ w.threads u = some thread) := by
    intro u thread hu
    rw [hthreads] at hu
    rcases update_cases hu with ⟨rfl, heq⟩ | ⟨-, hu⟩
    · cases heq
      exact .inl ⟨rfl, rfl⟩
    · rcases update_cases hu with ⟨rfl, heq⟩ | ⟨hut, hu⟩
      · cases heq
        exact .inr (.inl ⟨rfl, rfl⟩)
      · exact .inr (.inr ⟨hut, hu⟩)
  -- a thread that waits already is another one
  have hwaiting : ∀ {u q s v}, w.threads u = some ⟨q, s, .waiting v⟩ →
      u ≠ t ∧ w'.threads u = some ⟨q, s, .waiting v⟩ := by
    intro u q s v hu
    have hut : u ≠ t := by
      rintro rfl
      rw [ht] at hu
      cases hu
    exact ⟨hut, (hold (hcounted.made u _ hu).1 hut).trans hu⟩
  constructor
  · intro u c hc
    rw [hforked] at hc
    rw [hnext]
    by_cases hut : u = t
    · subst hut
      rw [Function.update_self] at hc
      cases hc
      exact ⟨htn, Nat.lt_succ_self _⟩
    · rw [Function.update_of_ne hut] at hc
      obtain ⟨huc, hcn⟩ := h.made u c hc
      exact ⟨huc, Nat.lt_succ_of_lt hcn⟩
  · have hnew : ∀ {u c}, u ≠ t → w'.forked u = some c → c ≠ w.next := fun hut hc =>
      Nat.ne_of_lt (h.made _ _ ((hsaid hut).symm.trans hc)).2
    have hfirst : w'.forked t = some w.next := by
      rw [hforked, Function.update_self]
    intro u v c hu hv
    by_cases hut : u = t
    · by_cases hvt : v = t
      · exact hut.trans hvt.symm
      · subst hut
        rw [hfirst] at hu
        cases hu
        exact absurd rfl (hnew hvt hv)
    · by_cases hvt : v = t
      · subst hvt
        rw [hfirst] at hv
        cases hv
        exact absurd rfl (hnew hut hu)
      · rw [hsaid hut] at hu
        rw [hsaid hvt] at hv
        exact h.once u v c hu hv
  · intro u hu
    rw [hnext] at hu
    rw [hqueue]
    exact h.silent u (Nat.le_of_succ_le hu)
  · intro u q s phase hu hphase
    rw [hqueue]
    rcases hcases hu with ⟨rfl, -⟩ | ⟨rfl, heq⟩ | ⟨-, hu⟩
    · exact h.silent w.next (Nat.le_refl _)
    · cases heq
      exact absurd rfl (hphase vfork)
    · exact h.idle u q s phase hu hphase
  · intro u q s v hu
    rcases hcases hu with ⟨-, heq⟩ | ⟨rfl, heq⟩ | ⟨hut, hu⟩
    · cases heq
    · cases heq
      refine ⟨w.next, by rw [hforked, Function.update_self], .starting 0 hchild ?_⟩
      rw [hqueue]
      exact h.idle u process slot .running ht fun _ => Phase.noConfusion
    · obtain ⟨c, hc, hpending⟩ := h.waits u q s v hu
      refine ⟨c, (hsaid hut).trans hc, hpending.proceeds ?_ (congrFun htook c) (congrFun hqueue u)
        fun _ m _ _ _ => .of_eq (congrFun htasks m)⟩
      by_cases hct : c = t
      · subst hct
        exact .inr ⟨process, slot, .running, .waiting vfork, ht, hself, rfl, rfl⟩
      · exact .inl (hold (h.made u c hc).2 hct)
  · intro c q s u s' v hc
    rcases hcases hc with ⟨rfl, heq⟩ | ⟨-, heq⟩ | ⟨-, hc⟩
    · cases heq
      exact ⟨hself, by rw [hforked, Function.update_self]⟩
    · cases heq
    · obtain ⟨hu, hforks⟩ := h.starts c q s u s' v hc
      obtain ⟨hut, hu⟩ := hwaiting hu
      exact ⟨hu, (hsaid hut).trans hforks⟩
  · intro c q s u v result hc
    rcases hcases hc with ⟨-, heq⟩ | ⟨-, heq⟩ | ⟨-, hc⟩
    · cases heq
    · cases heq
    · obtain ⟨s', hu, hforks⟩ := h.copies c q s u v result hc
      obtain ⟨hut, hu⟩ := hwaiting hu
      exact ⟨s', hu, (hsaid hut).trans hforks⟩
  · -- the thread that waits now owes what it did
    have howes : ∀ {c q s phase}, w.threads c = some ⟨q, s, phase⟩ → phase.seated = true →
        flagSet (w'.tasks s).flags winPsPpwait = true →
        (c = q ∧ flagSet (w'.tasks s).flags winPsExec = true ∧ phase ≠ .leaving) ∨
        ∃ u s', w'.threads u = some ⟨q, s', .waiting true⟩ ∧ w'.forked u = some c := by
      intro c q s phase hc hseated hwaits
      rw [htasks] at hwaits
      rcases h.owes c q s phase hc hseated hwaits with hexec | ⟨u, s', hu, hforks⟩
      · rw [htasks]
        exact .inl hexec
      · obtain ⟨hut, hu⟩ := hwaiting hu
        exact .inr ⟨u, s', hu, (hsaid hut).trans hforks⟩
    intro c q s phase hc hseated hwaits
    rcases hcases hc with ⟨-, heq⟩ | ⟨rfl, heq⟩ | ⟨-, hc⟩
    · cases heq
      cases hseated
    · cases heq
      rcases howes ht rfl hwaits with ⟨hcq, hexec, -⟩ | hparent
      · exact .inl ⟨hcq, hexec, Phase.noConfusion⟩
      · exact .inr hparent
    · exact howes hc hseated hwaits

/-- A thread that was made gets its slot. -/
theorem sits (h : ForkAnswers w) (hseats : Seats w) {c process s t slot i : Nat} {vfork : Bool}
    (hc : w.threads c = some ⟨process, s, .starting t slot vfork⟩)
    (hfills : SlotFilled w.tasks w'.tasks i c) (hchild : Inherits w'.tasks i slot vfork)
    (hthreads : w'.threads = Function.update w.threads c (some ⟨process, i, .copied t vfork i⟩))
    (hqueue : w'.queue = w.queue) (hnext : w'.next = w.next) (hforked : w'.forked = w.forked)
    (htook : w'.took = Function.update w.took c (some i)) : ForkAnswers w' := by
  obtain ⟨ht, hforks⟩ := h.starts c process s t slot vfork hc
  have hself : w'.threads c = some ⟨process, i, .copied t vfork i⟩ := by
    rw [hthreads, Function.update_self]
  have hold : ∀ {u}, u ≠ c → w'.threads u = w.threads u := fun huc => by
    rw [hthreads, Function.update_of_ne huc]
  have hwaiting : ∀ {u q s v}, w.threads u = some ⟨q, s, .waiting v⟩ →
      w'.threads u = some ⟨q, s, .waiting v⟩ := fun hu =>
    threads_waiting hthreads hc (fun _ => Phase.noConfusion) hu
  have htasks : ∀ {u q m phase}, w.threads u = some ⟨q, m, phase⟩ → phase.seated = true →
      w'.tasks m = w.tasks m := fun hu hseated =>
    hfills.others _ (hseats.seat _ _ _ _ hu hseated)
  constructor
  · rw [hforked, hnext]
    exact h.made
  · rw [hforked]
    exact h.once
  · rw [hnext, hqueue]
    exact h.silent
  · intro u q s phase hu hphase
    rw [hqueue]
    rcases threads_cases hthreads hu with ⟨rfl, -⟩ | ⟨-, hu⟩
    · exact h.idle u process _ _ hc fun _ => Phase.noConfusion
    · exact h.idle u q s phase hu hphase
  · intro u q s v hu
    rcases threads_cases hthreads hu with ⟨-, heq⟩ | ⟨huc, hu⟩
    · cases heq
    · obtain ⟨d, hd, hpending⟩ := h.waits u q s v hu
      rw [hforked]
      refine ⟨d, hd, ?_⟩
      by_cases hdc : d = c
      · -- it had no slot before, and owes the answer now
        subst hdc
        obtain rfl := h.once u t d hd hforks
        rw [ht] at hu
        cases hu
        cases hpending with
        | starting s' hthread hq =>
            refine .owing i _ hself (.inl rfl) ?_ ((congrFun hqueue u).trans hq) fun hv => ?_
            · rw [htook, Function.update_self]
            · rw [← hv]
              exact ⟨hchild.waits, hchild.link⟩
        | owing m phase hthread hphase htook' hq hlink =>
            rw [hc] at hthread
            cases hthread
            rcases hphase with heq | ⟨-, hbegun⟩
            · cases heq
            · cases hbegun
        | told m htook' hq htold => cases (htold _ hc).2
      · refine hpending.proceeds (.inl (hold hdc)) ?_ (congrFun hqueue u)
          fun q' m phase hthread hseated => .of_eq (htasks hthread hseated)
        rw [htook, Function.update_of_ne hdc]
  · intro d q s' u slot' v hd
    rw [hforked]
    rcases threads_cases hthreads hd with ⟨-, heq⟩ | ⟨-, hd⟩
    · cases heq
    · obtain ⟨hu, hforks'⟩ := h.starts d q s' u slot' v hd
      exact ⟨hwaiting hu, hforks'⟩
  · intro d q s' u v result hd
    rw [hforked]
    rcases threads_cases hthreads hd with ⟨rfl, heq⟩ | ⟨-, hd⟩
    · cases heq
      exact ⟨slot, hwaiting ht, hforks⟩
    · obtain ⟨slot', hu, hforks'⟩ := h.copies d q s' u v result hd
      exact ⟨slot', hwaiting hu, hforks'⟩
  · intro d q m phase hd hseated hwaits
    rw [hforked]
    rcases threads_cases hthreads hd with ⟨rfl, heq⟩ | ⟨-, hd⟩
    · cases heq
      have hv : vfork = true := hchild.waits.symm.trans hwaits
      subst hv
      exact .inr ⟨t, slot, hwaiting ht, hforks⟩
    · rw [htasks hd hseated] at hwaits ⊢
      rcases h.owes d q m phase hd hseated hwaits with hexec | ⟨u, s', hu, hforks'⟩
      · exact .inl hexec
      · exact .inr ⟨u, s', hwaiting hu, hforks'⟩

/-- A thread that has its slot goes on, and tells its parent first if it was made by
`fork`. -/
theorem leaves (h : ForkAnswers w) {c process slot t result : Nat} {vfork : Bool}
    (hc : w.threads c = some ⟨process, slot, .copied t vfork result⟩)
    (hthreads : w'.threads = Function.update w.threads c (some ⟨process, slot, .running⟩))
    (hqueue : w'.queue = if vfork then w.queue else
      Function.update w.queue t (w.queue t ++ [result]))
    (hnext : w'.next = w.next) (hforked : w'.forked = w.forked) (htook : w'.took = w.took)
    (htasks : w'.tasks = w.tasks) : ForkAnswers w' := by
  obtain ⟨slot', ht, hforks⟩ := h.copies c process slot t vfork result hc
  have hself : w'.threads c = some ⟨process, slot, .running⟩ := by
    rw [hthreads, Function.update_self]
  have hold : ∀ {u}, u ≠ c → w'.threads u = w.threads u := fun huc => by
    rw [hthreads, Function.update_of_ne huc]
  have hwaiting : ∀ {u q s v}, w.threads u = some ⟨q, s, .waiting v⟩ →
      w'.threads u = some ⟨q, s, .waiting v⟩ := fun hu =>
    threads_waiting hthreads hc (fun _ => Phase.noConfusion) hu
  have hother : ∀ {u}, u ≠ t → w'.queue u = w.queue u := by
    intro u hut
    rw [hqueue]
    split_ifs
    · rfl
    · exact Function.update_of_ne hut _ _
  constructor
  · rw [hforked, hnext]
    exact h.made
  · rw [hforked]
    exact h.once
  · intro u hu
    rw [hnext] at hu
    have hut : u ≠ t := by
      have htn := h.made t c hforks
      omega
    rw [hother hut]
    exact h.silent u hu
  · intro u q s phase hu hphase
    have hut : u ≠ t := by
      rintro rfl
      rw [hwaiting ht] at hu
      cases hu
      exact hphase vfork rfl
    rw [hother hut]
    rcases threads_cases hthreads hu with ⟨rfl, -⟩ | ⟨-, hu⟩
    · exact h.idle u process _ _ hc fun _ => Phase.noConfusion
    · exact h.idle u q s phase hu hphase
  · intro u q s v hu
    rcases threads_cases hthreads hu with ⟨-, heq⟩ | ⟨huc, hu⟩
    · cases heq
    · obtain ⟨d, hd, hpending⟩ := h.waits u q s v hu
      rw [hforked]
      refine ⟨d, hd, ?_⟩
      by_cases hut : u = t
      · subst hut
        rw [hforks] at hd
        cases hd
        rw [ht] at hu
        cases hu
        cases hpending with
        | starting s' hthread hq =>
            rw [hc] at hthread
            cases hthread
        | owing m phase hthread hphase htook' hq hlink =>
            rw [hc] at hthread
            cases hthread
            rcases hphase with heq | ⟨-, hbegun⟩
            · cases heq
              cases vfork with
              | true =>
                  refine .owing slot .running hself (.inr ⟨rfl, rfl⟩)
                    ((congrFun htook c).trans htook') ?_ fun _ => ?_
                  · rw [hqueue]
                    exact hq
                  · rw [htasks]
                    exact hlink rfl
              | false =>
                  refine .told slot ((congrFun htook c).trans htook') ?_ fun thread hthread => ?_
                  · rw [hqueue, if_neg Bool.false_ne_true, Function.update_self, hq]
                    rfl
                  · rw [hself] at hthread
                    cases hthread
                    exact ⟨rfl, rfl⟩
            · cases hbegun
        | told m htook' hq htold => cases (htold _ hc).2
      · have hdc : d ≠ c := by
          rintro rfl
          exact hut (h.once u t d hd hforks)
        exact hpending.proceeds (.inl (hold hdc)) (congrFun htook d) (hother hut)
          fun _ m _ _ _ => .of_eq (congrFun htasks m)
  · intro d q s' u slot' v hd
    rw [hforked]
    rcases threads_cases hthreads hd with ⟨-, heq⟩ | ⟨-, hd⟩
    · cases heq
    · obtain ⟨hu, hforks'⟩ := h.starts d q s' u slot' v hd
      exact ⟨hwaiting hu, hforks'⟩
  · intro d q s' u v result' hd
    rw [hforked]
    rcases threads_cases hthreads hd with ⟨-, heq⟩ | ⟨-, hd⟩
    · cases heq
    · obtain ⟨slot', hu, hforks'⟩ := h.copies d q s' u v result' hd
      exact ⟨slot', hwaiting hu, hforks'⟩
  · intro d q m phase hd hseated hwaits
    rw [htasks] at hwaits ⊢
    rw [hforked]
    rcases threads_cases hthreads hd with ⟨rfl, heq⟩ | ⟨-, hd⟩
    · cases heq
      rcases h.owes d process slot _ hc rfl hwaits with ⟨hdq, hexec, -⟩ | ⟨u, s', hu, hforks'⟩
      · exact .inl ⟨hdq, hexec, Phase.noConfusion⟩
      · exact .inr ⟨u, s', hwaiting hu, hforks'⟩
    · rcases h.owes d q m phase hd hseated hwaits with hexec | ⟨u, s', hu, hforks'⟩
      · exact .inl hexec
      · exact .inr ⟨u, s', hwaiting hu, hforks'⟩

/-- What a thread that waits receives is the answer. -/
theorem answered (h : ForkAnswers w) {t process slot m : Nat} {vfork : Bool} {rest : List Nat}
    (ht : w.threads t = some ⟨process, slot, .waiting vfork⟩) (hqueue : w.queue t = m :: rest) :
    rest = [] ∧ ∃ c, w.forked t = some c ∧ w.took c = some m ∧
      ∀ thread, w.threads c = some thread → vfork = false ∧ thread.phase.begun = true := by
  obtain ⟨c, hc, hpending⟩ := h.waits t process slot vfork ht
  cases hpending with
  | starting s hthread hq =>
      rw [hq] at hqueue
      cases hqueue
  | owing m' phase hthread hphase htook hq hlink =>
      rw [hq] at hqueue
      cases hqueue
  | told m' htook hq htold =>
      rw [hq] at hqueue
      cases hqueue
      exact ⟨rfl, c, hc, htook, htold⟩

/-- A thread that waited goes on. -/
theorem receives (h : ForkAnswers w) {t process slot m : Nat} {vfork : Bool} {rest : List Nat}
    (ht : w.threads t = some ⟨process, slot, .waiting vfork⟩) (hreceived : w.queue t = m :: rest)
    (hthreads : w'.threads = Function.update w.threads t (some ⟨process, slot, .running⟩))
    (hqueue : w'.queue = Function.update w.queue t rest)
    (hnext : w'.next = w.next) (hforked : w'.forked = w.forked) (htook : w'.took = w.took)
    (htasks : w'.tasks = w.tasks) : ForkAnswers w' := by
  obtain ⟨rfl, c, hforks, -, htold⟩ := h.answered ht hreceived
  have hself : w'.threads t = some ⟨process, slot, .running⟩ := by
    rw [hthreads, Function.update_self]
  have hold : ∀ {u}, u ≠ t → w'.threads u = w.threads u := fun hut => by
    rw [hthreads, Function.update_of_ne hut]
  have hother : ∀ {u}, u ≠ t → w'.queue u = w.queue u := fun hut => by
    rw [hqueue, Function.update_of_ne hut]
  -- the thread that was made has told: whoever is not done yet has another parent
  have hwaiting : ∀ {u d q s v}, w.threads u = some ⟨q, s, .waiting v⟩ → w.forked u = some d →
      ∀ {thread}, w.threads d = some thread → v = true ∨ thread.phase.begun = false →
      w'.threads u = some ⟨q, s, .waiting v⟩ := by
    intro u d q s v hu hd thread hthread howing
    have hut : u ≠ t := by
      rintro rfl
      rw [hforks] at hd
      cases hd
      rw [ht] at hu
      cases hu
      obtain ⟨rfl, hbegun⟩ := htold thread hthread
      rcases howing with hv | hnot
      · cases hv
      · rw [hnot] at hbegun
        cases hbegun
    exact (hold hut).trans hu
  constructor
  · rw [hforked, hnext]
    exact h.made
  · rw [hforked]
    exact h.once
  · intro u hu
    rw [hnext] at hu
    have hut : u ≠ t := by
      have htn := h.made t c hforks
      omega
    rw [hother hut]
    exact h.silent u hu
  · intro u q s phase hu hphase
    rcases threads_cases hthreads hu with ⟨rfl, -⟩ | ⟨hut, hu⟩
    · rw [hqueue, Function.update_self]
    · rw [hother hut]
      exact h.idle u q s phase hu hphase
  · intro u q s v hu
    rcases threads_cases hthreads hu with ⟨-, heq⟩ | ⟨hut, hu⟩
    · cases heq
    · obtain ⟨d, hd, hpending⟩ := h.waits u q s v hu
      rw [hforked]
      refine ⟨d, hd, hpending.proceeds ?_ (congrFun htook d) (hother hut)
        fun _ m _ _ _ => .of_eq (congrFun htasks m)⟩
      by_cases hdt : d = t
      · subst hdt
        exact .inr ⟨process, slot, .waiting vfork, .running, ht, hself, rfl, rfl⟩
      · exact .inl (hold hdt)
  · intro d q s' u slot' v hd
    rw [hforked]
    rcases threads_cases hthreads hd with ⟨-, heq⟩ | ⟨-, hd⟩
    · cases heq
    · obtain ⟨hu, hforks'⟩ := h.starts d q s' u slot' v hd
      exact ⟨hwaiting hu hforks' hd (.inr rfl), hforks'⟩
  · intro d q s' u v result hd
    rw [hforked]
    rcases threads_cases hthreads hd with ⟨-, heq⟩ | ⟨-, hd⟩
    · cases heq
    · obtain ⟨slot', hu, hforks'⟩ := h.copies d q s' u v result hd
      exact ⟨slot', hwaiting hu hforks' hd (.inr rfl), hforks'⟩
  · have howes : ∀ {d q s phase}, w.threads d = some ⟨q, s, phase⟩ → phase.seated = true →
        flagSet (w'.tasks s).flags winPsPpwait = true →
        (d = q ∧ flagSet (w'.tasks s).flags winPsExec = true ∧ phase ≠ .leaving) ∨
        ∃ u s', w'.threads u = some ⟨q, s', .waiting true⟩ ∧ w'.forked u = some d := by
      intro d q s phase hd hseated hwaits
      rw [htasks] at hwaits
      rw [htasks, hforked]
      rcases h.owes d q s phase hd hseated hwaits with hexec | ⟨u, s', hu, hforks'⟩
      · exact .inl hexec
      · exact .inr ⟨u, s', hwaiting hu hforks' hd (.inl rfl), hforks'⟩
    intro d q s phase hd hseated hwaits
    rcases threads_cases hthreads hd with ⟨rfl, heq⟩ | ⟨-, hd⟩
    · cases heq
      rcases howes ht rfl hwaits with ⟨hdq, hexec, -⟩ | hparent
      · exact .inl ⟨hdq, hexec, Phase.noConfusion⟩
      · exact .inr hparent
    · exact howes hd hseated hwaits

/-- A thread ends, and its process goes on. -/
theorem ends (h : ForkAnswers w) {t process slot : Nat}
    (ht : w.threads t = some ⟨process, slot, .running⟩)
    (howes : flagSet (w.tasks slot).flags winPsPpwait = true →
      ∃ u s, w.threads u = some ⟨process, s, .waiting true⟩ ∧ w.forked u = some t)
    (hthreads : w'.threads = Function.update w.threads t (some ⟨process, slot, .leaving⟩))
    (hqueue : w'.queue = w.queue) (hnext : w'.next = w.next) (hforked : w'.forked = w.forked)
    (htook : w'.took = w.took) (htasks : w'.tasks = w.tasks) : ForkAnswers w' := by
  have hself : w'.threads t = some ⟨process, slot, .leaving⟩ := by
    rw [hthreads, Function.update_self]
  have hold : ∀ {u}, u ≠ t → w'.threads u = w.threads u := fun hut => by
    rw [hthreads, Function.update_of_ne hut]
  have hwaiting : ∀ {u q s v}, w.threads u = some ⟨q, s, .waiting v⟩ →
      w'.threads u = some ⟨q, s, .waiting v⟩ := fun hu =>
    threads_waiting hthreads ht (fun _ => Phase.noConfusion) hu
  constructor
  · rw [hforked, hnext]
    exact h.made
  · rw [hforked]
    exact h.once
  · rw [hnext, hqueue]
    exact h.silent
  · intro u q s phase hu hphase
    rw [hqueue]
    rcases threads_cases hthreads hu with ⟨rfl, -⟩ | ⟨-, hu⟩
    · exact h.idle u process slot .running ht fun _ => Phase.noConfusion
    · exact h.idle u q s phase hu hphase
  · intro u q s v hu
    rcases threads_cases hthreads hu with ⟨-, heq⟩ | ⟨-, hu⟩
    · cases heq
    · obtain ⟨d, hd, hpending⟩ := h.waits u q s v hu
      rw [hforked]
      refine ⟨d, hd, hpending.proceeds ?_ (congrFun htook d) (congrFun hqueue u)
        fun _ m _ _ _ => .of_eq (congrFun htasks m)⟩
      by_cases hdt : d = t
      · subst hdt
        exact .inr ⟨process, slot, .running, .leaving, ht, hself, rfl, rfl⟩
      · exact .inl (hold hdt)
  · intro d q s' u slot' v hd
    rw [hforked]
    rcases threads_cases hthreads hd with ⟨-, heq⟩ | ⟨-, hd⟩
    · cases heq
    · obtain ⟨hu, hforks⟩ := h.starts d q s' u slot' v hd
      exact ⟨hwaiting hu, hforks⟩
  · intro d q s' u v result hd
    rw [hforked]
    rcases threads_cases hthreads hd with ⟨-, heq⟩ | ⟨-, hd⟩
    · cases heq
    · obtain ⟨slot', hu, hforks⟩ := h.copies d q s' u v result hd
      exact ⟨slot', hwaiting hu, hforks⟩
  · intro d q s phase hd hseated hwaits
    rw [htasks] at hwaits ⊢
    rw [hforked]
    rcases threads_cases hthreads hd with ⟨rfl, heq⟩ | ⟨-, hd⟩
    · cases heq
      obtain ⟨u, s', hu, hforks⟩ := howes hwaits
      exact .inr ⟨u, s', hwaiting hu, hforks⟩
    · rcases h.owes d q s phase hd hseated hwaits with hexec | ⟨u, s', hu, hforks⟩
      · exact .inl hexec
      · exact .inr ⟨u, s', hwaiting hu, hforks⟩

/-- A process ends. Who waits for whom is in one process. -/
theorem dies (h : ForkAnswers w) {process : Nat}
    (hthreads : w'.threads = fun u => (w.threads u).filter fun thread => thread.process ≠ process)
    (hqueue : w'.queue = w.queue) (hnext : w'.next = w.next) (hforked : w'.forked = w.forked)
    (htook : w'.took = w.took)
    (htasks : ∀ c q m phase, w.threads c = some ⟨q, m, phase⟩ → q ≠ process →
      phase.seated = true → Linked (w.tasks m) (w'.tasks m)) : ForkAnswers w' := by
  have hcases : ∀ {u q s ph}, w'.threads u = some ⟨q, s, ph⟩ →
      q ≠ process ∧ w.threads u = some ⟨q, s, ph⟩ := by
    intro u q s ph hu
    rw [hthreads] at hu
    obtain ⟨hold, hq⟩ := Option.filter_eq_some_iff.mp hu
    exact ⟨by simpa using hq, hold⟩
  have hkept : ∀ {u q s ph}, q ≠ process → w.threads u = some ⟨q, s, ph⟩ →
      w'.threads u = some ⟨q, s, ph⟩ := by
    intro u q s ph hq hu
    rw [hthreads]
    exact Option.filter_eq_some_iff.mpr ⟨hu, by simpa using hq⟩
  constructor
  · rw [hforked, hnext]
    exact h.made
  · rw [hforked]
    exact h.once
  · rw [hnext, hqueue]
    exact h.silent
  · intro u q s phase hu hphase
    rw [hqueue]
    exact h.idle u q s phase (hcases hu).2 hphase
  · intro u q s v hu
    obtain ⟨hq, hu⟩ := hcases hu
    obtain ⟨d, hd, hpending⟩ := h.waits u q s v hu
    rw [hforked]
    refine ⟨d, hd, ?_⟩
    cases hpending with
    | starting s' hthread hsilent =>
        exact .starting s' (hkept hq hthread) ((congrFun hqueue u).trans hsilent)
    | owing m phase hthread hphase htook' hsilent hlink =>
        have hseated : phase.seated = true := by
          rcases hphase with rfl | ⟨-, hbegun⟩
          · rfl
          · exact Phase.seated_of_begun hbegun
        have hlinked := htasks d q m phase hthread hq hseated
        exact .owing m phase (hkept hq hthread) hphase ((congrFun htook d).trans htook')
          ((congrFun hqueue u).trans hsilent) fun hv =>
            ⟨hlinked.waits.trans (hlink hv).1, hlinked.parent.trans (hlink hv).2⟩
    | told m htook' hsilent htold =>
        refine .told m ((congrFun htook d).trans htook') ((congrFun hqueue u).trans hsilent)
          fun thread hthread => htold thread ?_
        exact (hcases hthread).2
  · intro d q s' u slot' v hd
    obtain ⟨hq, hd⟩ := hcases hd
    obtain ⟨hu, hforks⟩ := h.starts d q s' u slot' v hd
    rw [hforked]
    exact ⟨hkept hq hu, hforks⟩
  · intro d q s' u v result hd
    obtain ⟨hq, hd⟩ := hcases hd
    obtain ⟨slot', hu, hforks⟩ := h.copies d q s' u v result hd
    rw [hforked]
    exact ⟨slot', hkept hq hu, hforks⟩
  · intro d q s phase hd hseated hwaits
    obtain ⟨hq, hd⟩ := hcases hd
    have hlinked := htasks d q s phase hd hq hseated
    rw [hlinked.waits] at hwaits
    rw [hforked]
    rcases h.owes d q s phase hd hseated hwaits with ⟨hself, hexec, hphase⟩ | ⟨u, s', hu, hforks⟩
    · exact .inl ⟨hself, hlinked.execs hexec, hphase⟩
    · exact .inr ⟨u, s', hkept hq hu, hforks⟩

/-- The parent of a child of `vfork` that ends is told, and nobody else is told anything. -/
theorem tellParent_queue (h : ForkAnswers w) (hseats : Seats w) {t process slot : Nat}
    (ht : w.threads t = some ⟨process, slot, .leaving⟩) :
    (flagSet (w.tasks slot).flags winPsPpwait = false ∧ (w.tellParent slot).queue = w.queue) ∨
    ∃ u s, w.threads u = some ⟨process, s, .waiting true⟩ ∧ w.forked u = some t ∧
      w.took t = some slot ∧ (w.tellParent slot).queue = Function.update w.queue u [slot] := by
  rw [ForkWorld.tellParent]
  cases hwaits : flagSet (w.tasks slot).flags winPsPpwait with
  | false => exact .inl ⟨rfl, rfl⟩
  | true =>
      right
      rcases h.owes t process slot .leaving ht rfl hwaits with ⟨-, -, hne⟩ | ⟨u, s, hu, hforks⟩
      · exact absurd rfl hne
      · refine ⟨u, s, hu, hforks, ?_⟩
        obtain ⟨c, hc, hpending⟩ := h.waits u process s true hu
        rw [hforks] at hc
        cases hc
        cases hpending with
        | starting s' hthread hq =>
            rw [ht] at hthread
            cases hthread
        | owing m phase hthread hphase htook hq hlink =>
            rw [ht] at hthread
            cases hthread
            have hseat := hseats.seat u process s _ hu rfl
            have hwin : pidWin w.tasks (w.tasks slot).parentId = u := by
              have hinside : ¬((s : Int) < 0 ∨ childMax ≤ (s : Int)) := by
                have hmax : s < 80 := hseat.inside
                rw [childMax]
                omega
              rw [(hlink rfl).2, pidWin, if_neg hinside]
              exact (hseats.holder u process s _ hu rfl).1
            have hname := (hseats.seat t process slot _ ht rfl).named
            refine ⟨htook, ?_⟩
            rw [if_pos rfl, hwin, hname, ForkWorld.post, hu]
            show Function.update w.queue u (w.queue u ++ [slot]) = Function.update w.queue u [slot]
            rw [hq]
            rfl
        | told m htook hq htold => cases (htold _ ht).1

/-- A thread that has ended tells its parent, and is gone. -/
theorem detaches (h : ForkAnswers w) (hseats : Seats w) {posted closes : Bool}
    {t process slot : Nat} (ht : w.threads t = some ⟨process, slot, .leaving⟩)
    (hthreads : w'.threads = Function.update w.threads t none)
    (hqueue : w'.queue = (w.tellParent slot).queue) (hnext : w'.next = w.next)
    (hforked : w'.forked = w.forked) (htook : w'.took = w.took)
    (htasks : w'.tasks = Function.update w.tasks slot (endTask posted closes (w.tasks slot))) :
    ForkAnswers w' := by
  have hgone : w'.threads t = none := by
    rw [hthreads, Function.update_self]
  have hold : ∀ {u}, u ≠ t → w'.threads u = w.threads u := fun hut => by
    rw [hthreads, Function.update_of_ne hut]
  have hcases : ∀ {u thread}, w'.threads u = some thread →
      u ≠ t ∧ w.threads u = some thread := by
    intro u thread hu
    rw [hthreads] at hu
    rcases update_cases hu with ⟨-, heq⟩ | hu
    · cases heq
    · exact hu
  have hwaiting : ∀ {u q s v}, w.threads u = some ⟨q, s, .waiting v⟩ →
      w'.threads u = some ⟨q, s, .waiting v⟩ := fun hu =>
    threads_waiting hthreads ht (fun _ => Phase.noConfusion) hu
  -- the task is not one that another thread has, if it becomes a zombie
  have hkept : ∀ {u q m phase}, u ≠ t → w.threads u = some ⟨q, m, phase⟩ → phase.seated = true →
      w'.tasks m = w.tasks m := by
    intro u q m phase hut hu hseated
    rw [htasks]
    by_cases hm : m = slot
    · subst hm
      rw [Function.update_self]
      refine endTask_of_not_exiting ?_
      by_contra hexit
      exact hut (hseats.alone t process m ht (Bool.eq_true_of_not_eq_false hexit) u q phase hu
        hseated)
    · exact Function.update_of_ne hm _ _
  have hother : ∀ {u}, w.forked u ≠ some t → w'.queue u = w.queue u := by
    intro u hut
    rw [hqueue]
    rcases h.tellParent_queue hseats ht with ⟨-, heq⟩ | ⟨v, s, hv, hforks, -, heq⟩
    · rw [heq]
    · rw [heq]
      refine Function.update_of_ne ?_ _ _
      rintro rfl
      exact hut hforks
  constructor
  · rw [hforked, hnext]
    exact h.made
  · rw [hforked]
    exact h.once
  · intro u hu
    rw [hnext] at hu
    have hut : w.forked u ≠ some t := by
      intro hut
      have htn := h.made u t hut
      omega
    rw [hother hut]
    exact h.silent u hu
  · intro u q s phase hu hphase
    obtain ⟨hut, hu⟩ := hcases hu
    have hsilent := h.idle u q s phase hu hphase
    rw [hqueue]
    rcases h.tellParent_queue hseats ht with ⟨-, heq⟩ | ⟨v, s', hv, -, -, heq⟩
    · rw [heq]
      exact hsilent
    · have huv : u ≠ v := by
        rintro rfl
        rw [hv] at hu
        cases hu
        exact hphase true rfl
      rw [heq, Function.update_of_ne huv]
      exact hsilent
  · intro u q s v hu
    obtain ⟨hut, hu⟩ := hcases hu
    obtain ⟨d, hd, hpending⟩ := h.waits u q s v hu
    rw [hforked]
    refine ⟨d, hd, ?_⟩
    by_cases hdt : d = t
    · subst hdt
      rcases h.tellParent_queue hseats ht with ⟨hflag, heq⟩ | ⟨x, -, -, hx, htook', heq⟩
      · cases hpending with
        | starting s' hthread hq =>
            rw [ht] at hthread
            cases hthread
        | owing m phase hthread hphase htook' hq hlink =>
            rw [ht] at hthread
            cases hthread
            rcases hphase with heq' | ⟨hv, -⟩
            · cases heq'
            · rw [(hlink hv).1] at hflag
              cases hflag
        | told m htook' hq htold =>
            refine .told m ((congrFun htook d).trans htook') ?_ fun thread hthread => ?_
            · rw [hqueue, heq]
              exact hq
            · rw [hgone] at hthread
              cases hthread
      · obtain rfl := h.once u x d hd hx
        refine .told slot ((congrFun htook d).trans htook') ?_ fun thread hthread => ?_
        · rw [hqueue, heq, Function.update_self]
        · rw [hgone] at hthread
          cases hthread
    · have hud : w.forked u ≠ some t := by
        rw [hd]
        intro heq
        cases heq
        exact hdt rfl
      exact hpending.proceeds (.inl (hold hdt)) (congrFun htook d) (hother hud)
        fun q' m phase hthread hseated => .of_eq (hkept hdt hthread hseated)
  · intro d q s' u slot' v hd
    rw [hforked]
    obtain ⟨-, hd⟩ := hcases hd
    obtain ⟨hu, hforks⟩ := h.starts d q s' u slot' v hd
    exact ⟨hwaiting hu, hforks⟩
  · intro d q s' u v result hd
    rw [hforked]
    obtain ⟨-, hd⟩ := hcases hd
    obtain ⟨slot', hu, hforks⟩ := h.copies d q s' u v result hd
    exact ⟨slot', hwaiting hu, hforks⟩
  · intro d q m phase hd hseated hwaits
    obtain ⟨hdt, hd⟩ := hcases hd
    rw [hkept hdt hd hseated] at hwaits ⊢
    rw [hforked]
    rcases h.owes d q m phase hd hseated hwaits with hexec | ⟨u, s', hu, hforks⟩
    · exact .inl hexec
    · exact .inr ⟨u, s', hwaiting hu, hforks⟩

theorem procExit (h : ForkAnswers w) {posted closes : Bool} {t process slot : Nat}
    (ht : w.threads t = some ⟨process, slot, .running⟩)
    (howes : w.threadCount process ≠ 0 → flagSet (w.tasks slot).flags winPsPpwait = true →
      ∃ u s, w.threads u = some ⟨process, s, .waiting true⟩ ∧ w.forked u = some t)
    (htasks : ∀ c q m phase, w.threads c = some ⟨q, m, phase⟩ → q ≠ process →
      phase.seated = true → Linked (w.tasks m)
        (Function.update w.tasks slot (endTask posted closes (w.tasks slot)) m)) :
    ForkAnswers (w.procExit posted closes t process slot) := by
  by_cases hcount : w.threadCount process = 0
  · rw [ForkWorld.procExit_last hcount]
    exact h.dies rfl rfl rfl rfl rfl htasks
  · rw [ForkWorld.procExit_leaves hcount]
    exact h.ends ht (howes hcount) rfl rfl rfl rfl rfl rfl

end ForkAnswers

/-! ### Runs -/

/-- The process of another program has no other thread, if it could still tell a parent of
the program before. -/
def ForkWorld.EndsAlone (w : ForkWorld) (process slot : Nat) : Prop :=
  flagSet (w.tasks slot).flags winPsPpwait = true →
    flagSet (w.tasks slot).flags winPsExec = true → w.threadCount process = 0

/-- What is asked of the steps of a run: a fork finds a slot, a thread exits after the one
that it followed in its slot has detached, and a program that a child of `vfork` goes on
as ends with no other thread in its process. -/
def ForkSettled (w : ForkWorld) : ForkStep → Prop
  | .copy _ t => ∀ process s parent task vfork,
      w.threads t = some ⟨process, s, .starting parent task vfork⟩ →
        HasRoom w.tasks (w.tasks task).groupId
  | .execve _ t => ∀ process slot, w.threads t = some ⟨process, slot, .running⟩ →
      w.EndsAlone process slot
  | .exit _ _ _ t => ∀ process slot, w.threads t = some ⟨process, slot, .running⟩ →
      (∀ u q, w.threads u ≠ some ⟨q, slot, .leaving⟩) ∧ w.EndsAlone process slot
  | _ => True

/-- A thread that waits receives one message, with the slot of the thread it made, and
after a `vfork` that thread is gone. A thread that polls finds no such message. -/
def ForkAnswered (w : ForkWorld) : ForkStep → Prop
  | .receive t => ∀ process slot vfork m rest,
      w.threads t = some ⟨process, slot, .waiting vfork⟩ → w.queue t = m :: rest →
        rest = [] ∧ ∃ c, w.forked t = some c ∧ w.took c = some m ∧
          (vfork = true → w.threads c = none)
  | .poll t => ∀ process slot, w.threads t = some ⟨process, slot, .running⟩ → w.queue t = []
  | _ => True

structure ForkSound (w : ForkWorld) : Prop where
  counted : w.Counted
  seats : Seats w
  answers : ForkAnswers w

namespace ForkSound

variable {w : ForkWorld}

/-- What a thread that ends owes, if its process goes on. -/
theorem owes_of_endsAlone (h : ForkSound w) {t process slot : Nat}
    (ht : w.threads t = some ⟨process, slot, .running⟩) (hends : w.EndsAlone process slot)
    (hcount : w.threadCount process ≠ 0)
    (hwaits : flagSet (w.tasks slot).flags winPsPpwait = true) :
    ∃ u s, w.threads u = some ⟨process, s, .waiting true⟩ ∧ w.forked u = some t := by
  rcases h.answers.owes t process slot .running ht rfl hwaits with ⟨-, hexec, -⟩ | hparent
  · exact absurd (hends hwaits hexec) hcount
  · exact hparent

theorem execve (h : ForkSound w) {t process slot handle : Nat}
    (ht : w.threads t = some ⟨process, slot, .running⟩) (hends : w.EndsAlone process slot) :
    Seats (w.execve handle t) ∧ ForkAnswers (w.execve handle t) := by
  obtain ⟨htn, hpn⟩ := h.counted.made t _ ht
  have hself : ∀ {u thread}, w.threads u = some thread →
      Function.update w.threads w.next (some ⟨w.next, slot, .running⟩) u = some thread :=
    fun hu => (Function.update_of_ne (Nat.ne_of_lt (h.counted.made _ _ hu).1) _ _).trans hu
  have htask : Function.update w.tasks slot
      (procExecveTask ⟨w.next, w.next, handle, 0⟩ (w.tasks slot)) slot =
        procExecveTask ⟨w.next, w.next, handle, 0⟩ (w.tasks slot) := Function.update_self _ _ _
  have hlinked : ∀ m, Linked (w.tasks m) (Function.update w.tasks slot
      (procExecveTask ⟨w.next, w.next, handle, 0⟩ (w.tasks slot)) m) := by
    intro m
    by_cases hm : m = slot
    · subst hm
      rw [htask]
      exact .flag rfl rfl (by decide)
    · exact .of_eq (Function.update_of_ne hm _ _)
  have hstart : ForkAnswers { w with
      tasks := Function.update w.tasks slot
        (procExecveTask ⟨w.next, w.next, handle, 0⟩ (w.tasks slot))
      threads := Function.update w.threads w.next (some ⟨w.next, slot, .running⟩)
      threadCount := Function.update w.threadCount w.next 0
      next := w.next + 1 } := by
    refine h.answers.first h.counted rfl rfl rfl rfl rfl (fun _ _ m _ _ _ => hlinked m) fun _ => ?_
    dsimp only
    rw [htask]
    exact flagSet_or_self (by decide) _
  have hexit : flagSet (procExecveTask ⟨w.next, w.next, handle, 0⟩ (w.tasks slot)).flags
      winPsExiting = false := by
    show flagSet ((w.tasks slot).flags ||| winPsExec) winPsExiting = false
    rw [flagSet_or, (h.seats.holder t process slot .running ht rfl).2]
    decide
  rw [ForkWorld.execve, ht]
  dsimp only
  constructor
  · exact Seats.procExit true true (hself ht) (h.seats.execs (Nat.ne_of_lt htn) ht rfl rfl)
  · refine hstart.procExit (hself ht) (fun hcount hwaits => ?_) fun c q m phase hc hq hseated => ?_
    · -- the flags that count are those from before
      have hcount' : w.threadCount process ≠ 0 := by
        dsimp only at hcount
        rwa [Function.update_of_ne (Nat.ne_of_lt hpn)] at hcount
      dsimp only at hwaits
      rw [(hlinked slot).waits] at hwaits
      obtain ⟨u, s, hu, hforks⟩ := h.owes_of_endsAlone ht hends hcount' hwaits
      exact ⟨u, s, hself hu, hforks⟩
    · refine .of_eq ?_
      dsimp only
      rw [htask, endTask_of_not_exiting hexit, Function.update_idem]

theorem exit (h : ForkSound w) {t process slot : Nat} {status : Int} {posted closes : Bool}
    (ht : w.threads t = some ⟨process, slot, .running⟩) (hends : w.EndsAlone process slot)
    (hdetached : ∀ u q, w.threads u ≠ some ⟨q, slot, .leaving⟩) :
    Seats (w.exit status posted closes t) ∧ ForkAnswers (w.exit status posted closes t) := by
  have htask : Function.update w.tasks slot (exitBegin (exitStatus status (w.tasks slot))) slot =
      exitBegin (exitStatus status (w.tasks slot)) := Function.update_self _ _ _
  have hlinked : ∀ m, Linked (w.tasks m)
      (Function.update w.tasks slot (exitBegin (exitStatus status (w.tasks slot))) m) := by
    intro m
    by_cases hm : m = slot
    · subst hm
      rw [htask]
      exact .flag rfl rfl (by decide)
    · exact .of_eq (Function.update_of_ne hm _ _)
  have hbegun : ForkAnswers { w with
      tasks := Function.update w.tasks slot (exitBegin (exitStatus status (w.tasks slot))) } :=
    h.answers.of_tasks rfl rfl rfl rfl rfl fun _ _ m _ _ _ => hlinked m
  rw [ForkWorld.exit, ht]
  dsimp only
  constructor
  · exact Seats.procExit posted closes ht (h.seats.exits ht hdetached rfl rfl)
  · refine hbegun.procExit ht (fun hcount hwaits => ?_) fun c q m phase hc hq hseated => ?_
    · dsimp only at hwaits
      rw [(hlinked slot).waits] at hwaits
      exact h.owes_of_endsAlone ht hends hcount hwaits
    · -- no other thread is in the slot
      have hm : m ≠ slot := by
        rintro rfl
        cases phase with
        | starting parent task vfork => cases hseated
        | leaving => exact hdetached c q hc
        | _ =>
            have hct : c ≠ t := by
              rintro rfl
              exact hq (congrArg Thread.process (Option.some.inj (hc.symm.trans ht)))
            exact absurd rfl (h.seats.apart ht rfl hc rfl hct)
      exact .of_eq (Function.update_of_ne hm _ _)

theorem step (h : ForkSound w) (a : ForkStep) (hsettled : ForkSettled w a) :
    ForkSound (forkStep w a) := by
  suffices hboth : Seats (forkStep w a) ∧ ForkAnswers (forkStep w a) from
    ⟨h.counted.step a, hboth.1, hboth.2⟩
  have hidle : Seats w ∧ ForkAnswers w := ⟨h.seats, h.answers⟩
  cases a with
  | start handle =>
      rcases w.start_cases handle with heq | ⟨i, tasks, hstart, heq⟩
      · rw [forkStep, heq]
        exact hidle
      · obtain ⟨hfills, hflag⟩ := procStart_fills hstart
        rw [forkStep, heq]
        refine ⟨h.seats.sits rfl hfills, h.answers.first h.counted rfl rfl rfl rfl rfl
          (fun c q m phase hc hseated => ?_) fun hwaits => ?_⟩
        · exact .of_eq (hfills.others m (h.seats.seat c q m phase hc hseated))
        · rw [show flagSet (tasks i).flags winPsPpwait = true from hwaits] at hflag
          cases hflag
  | fork vfork t =>
      rcases w.fork_cases vfork t with heq | ⟨process, slot, ht, heq⟩
      · rw [forkStep, heq]
        exact hidle
      · rw [forkStep, heq]
        exact ⟨h.seats.forks ht rfl rfl, h.answers.forks h.counted ht rfl rfl rfl rfl rfl rfl⟩
  | copy handle t =>
      rcases w.copy_cases handle t with
        heq | ⟨process, s, parent, task, vfork, slot, tasks, ht, hdup, heq⟩
      · rw [forkStep, heq]
        exact hidle
      · obtain ⟨hparent, -⟩ := h.answers.starts t process s parent task vfork ht
        obtain ⟨hfills, hchild⟩ :=
          procDupTask_fills (h.seats.seat parent process task _ hparent rfl) hdup
        rw [forkStep, heq]
        exact ⟨h.seats.sits rfl hfills,
          h.answers.sits h.seats ht hfills hchild rfl rfl rfl rfl rfl⟩
  | leave t =>
      rcases w.leave_cases t with heq | ⟨process, slot, parent, vfork, result, ht, heq⟩
      · rw [forkStep, heq]
        exact hidle
      · obtain ⟨s, hparent, -⟩ := h.answers.copies t process slot parent vfork result ht
        have hsome : (Function.update w.threads t (some ⟨process, slot, .running⟩)
            parent).isSome = true := by
          by_cases hpt : parent = t
          · subst hpt
            rw [Function.update_self]
            rfl
          · rw [Function.update_of_ne hpt, hparent]
            rfl
        rw [forkStep, heq]
        cases vfork with
        | true =>
            exact ⟨h.seats.turns ht rfl rfl rfl id Phase.noConfusion,
              h.answers.leaves ht rfl rfl rfl rfl rfl rfl⟩
        | false =>
            rw [if_neg Bool.false_ne_true, ForkWorld.post, if_pos hsome]
            exact ⟨h.seats.turns ht rfl rfl rfl (fun _ => rfl) Phase.noConfusion,
              h.answers.leaves ht rfl rfl rfl rfl rfl rfl⟩
  | receive t =>
      rcases w.receive_cases t with heq | ⟨process, slot, vfork, m, rest, ht, hqueue, heq⟩
      · rw [forkStep, heq]
        exact hidle
      · rw [forkStep, heq]
        exact ⟨h.seats.turns ht rfl rfl rfl id Phase.noConfusion,
          h.answers.receives ht hqueue rfl rfl rfl rfl rfl rfl⟩
  | poll t =>
      rcases w.poll_cases t with heq | ⟨process, slot, m, rest, ht, hqueue, -⟩
      · rw [forkStep, heq]
        exact hidle
      · rw [h.answers.idle t process slot .running ht fun _ => Phase.noConfusion] at hqueue
        cases hqueue
  | execve handle t =>
      rcases w.execve_cases handle t with heq | ⟨process, slot, ht, -⟩
      · rw [forkStep, heq]
        exact hidle
      · exact h.execve ht (hsettled process slot ht)
  | exit status posted closes t =>
      rcases w.exit_cases status posted closes t with heq | ⟨process, slot, ht, -⟩
      · rw [forkStep, heq]
        exact hidle
      · obtain ⟨hdetached, hends⟩ := hsettled process slot ht
        exact h.exit ht hends hdetached
  | detach posted closes t =>
      rcases w.detach_cases posted closes t with heq | ⟨process, slot, ht, heq⟩
      · rw [forkStep, heq]
        exact hidle
      · rw [forkStep, heq]
        exact ⟨h.seats.detaches ht rfl rfl, h.answers.detaches h.seats ht rfl rfl rfl rfl rfl rfl⟩
  | wait i =>
      rcases w.wait_cases i with heq | ⟨hzombie, heq⟩
      · rw [forkStep, heq]
        exact hidle
      · have hkept : ∀ s, Seat w.tasks s →
            Function.update w.tasks i (procClose (w.tasks i)) s = w.tasks s := by
          intro s hs
          refine Function.update_of_ne ?_ _ _
          rintro rfl
          rw [hs.lives] at hzombie
          cases hzombie
        rw [forkStep, heq]
        exact ⟨h.seats.of_tasks rfl hkept, h.answers.of_tasks rfl rfl rfl rfl rfl
          fun c q m phase hc hseated => .of_eq (hkept m (h.seats.seat c q m phase hc hseated))⟩

end ForkSound

/-- A shell starts a program, and is told when the thread that did so has gone. -/
def shellStarts : List ForkStep :=
  [.start 5, .fork true 0, .copy 7 1, .leave 1, .execve 9 1, .detach true true 1, .receive 0]

/-- The program forks, and exits while its child goes on. The shell is told once more, and
takes that for the answer of its next fork. -/
def programForks : List ForkStep :=
  shellStarts ++ [.fork false 2, .copy 8 3, .leave 3, .receive 2, .exit 0 true true 2,
    .detach true true 2, .fork false 0, .receive 0]

theorem programForks_misled : ¬Along forkStep ForkAnswered ForkWorld.empty programForks := by
  intro h
  have hreceive := along_iff_split.mp h (programForks.take 14) (.receive 0) [] rfl
  have hwaits : (run forkStep ForkWorld.empty (programForks.take 14)).threads 0 =
      some ⟨0, 0, .waiting false⟩ := by decide
  obtain ⟨-, c, hc, htook, -⟩ := hreceive 0 0 false 1 [] hwaits (by decide)
  have hfour : (run forkStep ForkWorld.empty (programForks.take 14)).forked 0 = some 4 := by decide
  have hnone : (run forkStep ForkWorld.empty (programForks.take 14)).took 4 = none := by decide
  rw [hfour] at hc
  cases hc
  rw [hnone] at htook
  cases htook

end MinC.Sys
