import MinC.Vfs.Poll

/-!
Rounds of polling.

A call polls all nodes of its vector, in their order and until one fails, and
does so again each time a wait ends before the time is up, until a round has
counted something. The vector points into the array of the caller, whose other
entries the rounds leave alone.
-/

namespace MinC.Vfs

open MinC.Win

/-- An entry of the array, the node of the vector that belongs to it, if there
is one, and whether a result has been stored into it. -/
structure PollSlot where
  entry : PollFd
  node : Option WinVnode
  stored : Bool

def PollSlot.settled (slot : PollSlot) (p : Polled) : PollSlot :=
  { slot with entry := p.entry, stored := slot.stored || p.stored }

/-- What a round of polling meets: what each routine finds, how long the wait
that follows takes, and whether a signal was pending after it. -/
structure PollRound where
  poll : Nat → PollAnswers
  wait : Except Failure Int
  signal : Bool

section
variable (devices : UInt32 → WinDevice)

def pollNoWait : (Nat → PollAnswers) → Nat → List PollSlot → Except Failure Nat × List PollSlot
  | _, total, [] => (.ok total, [])
  | os, total, slot :: slots =>
      match slot.node with
      | none =>
          let rest := pollNoWait (fun i => os (i + 1)) total slots
          (rest.1, slot :: rest.2)
      | some node =>
          let p := pollNode devices (os 0) node slot.entry
          match p.error with
          | some e => (.error e, slot.settled p :: slots)
          | none =>
              let rest := pollNoWait (fun i => os (i + 1)) (total + p.count) slots
              (rest.1, slot.settled p :: rest.2)

def infinite : UInt32 := 0xFFFFFFFF

/-- The time that is left of a time-out after a wait. -/
def pollWait (timeOut : UInt32) (elapsed : Int) : UInt32 :=
  let time : Int := (if timeOut ≠ infinite then timeOut.toNat else 0) - elapsed
  if 0 < time then UInt32.ofInt time
  else if timeOut ≠ infinite then 0
  else timeOut

/-- The loop of `vfs_poll`, for a number of rounds. -/
def vfsPoll : Nat → (Nat → PollRound) → UInt32 → List PollSlot →
    Option (Except Failure (Nat × UInt32) × List PollSlot)
  | 0, _, _, _ => none
  | fuel + 1, rounds, timeOut, slots =>
      match pollNoWait devices (rounds 0).poll 0 slots with
      | (.error e, slots) => some (.error e, slots)
      | (.ok count, slots) =>
          if count ≠ 0 ∨ timeOut = 0 then some (.ok (count, timeOut), slots)
          else match (rounds 0).wait with
          | .error e => some (.error e, slots)
          | .ok elapsed =>
              if (rounds 0).signal then some (.error failSignalPending, slots)
              else vfsPoll fuel (fun r => rounds (r + 1)) (pollWait timeOut elapsed) slots

/-! ### What a round does -/

namespace PollSlot

/-- There is a routine for the node of the slot. -/
def Pollable (slot : PollSlot) : Prop :=
  ∃ node kind, slot.node = some node ∧ pollKind devices node = some kind

def Fails (os : PollAnswers) (slot : PollSlot) : Prop :=
  ∃ node, slot.node = some node ∧ PollFails devices os node

def Ready (os : PollAnswers) (slot : PollSlot) : Prop :=
  ∃ node kind, slot.node = some node ∧ pollKind devices node = some kind ∧
    kind.Ready os slot.entry

/-- The node is a console whose input has something the caller is told of. -/
def inputReady (os : PollAnswers) (slot : PollSlot) : Bool :=
  match slot.node.bind (pollKind devices) with
  | none => false
  | some kind => kind.InputReady os slot.entry

def after (os : PollAnswers) (slot : PollSlot) : PollSlot :=
  match slot.node with
  | none => slot
  | some node => slot.settled (pollNode devices os node slot.entry)

def count (os : PollAnswers) (slot : PollSlot) : Nat :=
  match slot.node with
  | none => 0
  | some node => (pollNode devices os node slot.entry).count

/-- A slot after a round that had nothing for it. -/
def cleared (slot : PollSlot) : PollSlot :=
  match slot.node with
  | none => slot
  | some _ => { slot with entry := { slot.entry with revents := 0 }, stored := true }

end PollSlot

end

namespace PollSlot

variable {devices : UInt32 → WinDevice} {os : PollAnswers} {slot : PollSlot}

/-- A slot that does not fail has a routine, which does not fail. -/
theorem routine_of_not_fails {node : WinVnode} (hnode : slot.node = some node)
    (h : ¬ slot.Fails devices os) :
    ∃ kind, pollKind devices node = some kind ∧ (kind.status os).1 = none ∧
      pollNode devices os node slot.entry = kind.poll os slot.entry := by
  have hnot : ¬ PollFails devices os node := fun hf => h ⟨node, hnode, hf⟩
  unfold PollFails at hnot
  cases hkind : pollKind devices node with
  | none => exact absurd trivial (by rwa [hkind] at hnot)
  | some kind =>
      rw [hkind] at hnot
      exact ⟨kind, rfl, not_not.mp hnot, pollNode_of_some hkind os slot.entry⟩

theorem error_eq_none_iff {node : WinVnode} (hnode : slot.node = some node) :
    (pollNode devices os node slot.entry).error = none ↔ ¬ slot.Fails devices os := by
  constructor
  · rintro h ⟨node', hnode', hf⟩
    obtain rfl : node = node' := by
      rw [hnode] at hnode'
      exact Option.some.inj hnode'
    unfold PollFails at hf
    cases hkind : pollKind devices node with
    | none =>
        obtain ⟨e, he⟩ := pollNode_of_none hkind os slot.entry
        rw [he] at h
        cases h
    | some kind =>
        rw [hkind] at hf
        rw [pollNode_of_some hkind, PollKind.poll_error] at h
        exact hf h
  · intro h
    obtain ⟨kind, -, hstatus, hpoll⟩ := routine_of_not_fails hnode h
    rw [hpoll, PollKind.poll_error, hstatus]

/-- A routine stores a result even if it fails; the dispatch does not. -/
theorem stored_eq_true_iff {node : WinVnode} (hnode : slot.node = some node) :
    (pollNode devices os node slot.entry).stored = true ↔ slot.Pollable devices := by
  constructor
  · intro h
    cases hkind : pollKind devices node with
    | none =>
        obtain ⟨e, he⟩ := pollNode_of_none hkind os slot.entry
        rw [he] at h
        cases h
    | some kind => exact ⟨node, kind, hnode, hkind⟩
  · rintro ⟨node', kind, hnode', hkind⟩
    obtain rfl : node = node' := by
      rw [hnode] at hnode'
      exact Option.some.inj hnode'
    rw [pollNode_of_some hkind, PollKind.poll_stored]

@[simp] theorem after_node : (slot.after devices os).node = slot.node := by
  unfold after
  split <;> rfl

theorem after_stored :
    (slot.after devices os).stored = true ↔ slot.stored = true ∨ slot.Pollable devices := by
  unfold after
  cases hnode : slot.node with
  | none =>
      refine ⟨.inl, ?_⟩
      rintro (h | ⟨node, kind, h, -⟩)
      · exact h
      · rw [hnode] at h
        cases h
  | some node =>
      show (slot.stored || (pollNode devices os node slot.entry).stored) = true ↔ _
      rw [Bool.or_eq_true, stored_eq_true_iff hnode]

/-- A slot that had something was counted once for its entry and once for the
input of a console. -/
theorem count_add (h : ¬ slot.Fails devices os) :
    slot.count devices os + (if slot.node = none ∧ slot.entry.revents ≠ 0 then 1 else 0) =
      (if (slot.after devices os).entry.revents ≠ 0 then 1 else 0) +
        (slot.inputReady devices os).toNat := by
  unfold count after inputReady
  cases hnode : slot.node with
  | none => simp
  | some node =>
      obtain ⟨kind, hkind, hstatus, hpoll⟩ := routine_of_not_fails hnode h
      simp only [hpoll, PollKind.poll_count hstatus, settled, Option.bind_some, hkind]
      by_cases hin : kind.InputReady os slot.entry <;> simp [hin]

theorem count_ne_zero_iff (h : ¬ slot.Fails devices os) :
    slot.count devices os ≠ 0 ↔ slot.Ready devices os := by
  unfold count
  cases hnode : slot.node with
  | none =>
      refine ⟨fun hne => absurd rfl hne, ?_⟩
      rintro ⟨node, kind, hnode', -⟩
      rw [hnode] at hnode'
      cases hnode'
  | some node =>
      obtain ⟨kind, hkind, hstatus, hpoll⟩ := routine_of_not_fails hnode h
      simp only [hpoll]
      rw [PollKind.poll_count_ne_zero_iff hstatus]
      constructor
      · exact fun hr => ⟨node, kind, hnode, hkind, hr⟩
      · rintro ⟨node', kind', hnode', hkind', hr⟩
        rw [hnode] at hnode'
        obtain rfl := Option.some.inj hnode'
        rw [hkind] at hkind'
        obtain rfl := Option.some.inj hkind'
        exact hr

/-- A round that has nothing for a slot leaves it cleared. -/
theorem after_eq_cleared (h : ¬ slot.Fails devices os) (hready : ¬ slot.Ready devices os) :
    slot.after devices os = slot.cleared := by
  have hcount : slot.count devices os = 0 := not_not.mp fun hne =>
    hready ((count_ne_zero_iff h).mp hne)
  unfold count at hcount
  unfold after cleared
  cases hnode : slot.node with
  | none => rfl
  | some node =>
      obtain ⟨kind, hkind, hstatus, hpoll⟩ := routine_of_not_fails hnode h
      simp only [hnode, hpoll, PollKind.poll_count hstatus] at hcount
      have hrev : (kind.poll os slot.entry).entry.revents = 0 := by
        by_contra hne
        rw [if_pos hne] at hcount
        omega
      simp only [settled, hpoll, PollKind.poll_stored, Bool.or_true]
      rw [PollKind.poll_entry, hrev, hnode]

end PollSlot

/-! ### What a round does to the array -/

section
variable {devices : UInt32 → WinDevice}

/-- No slot of the round fails. -/
def Passes (devices : UInt32 → WinDevice) (os : Nat → PollAnswers) (slots : List PollSlot) :
    Prop :=
  ∀ (i : Nat) (slot : PollSlot), slots[i]? = some slot → ¬ slot.Fails devices (os i)

/-- Only the last slot of the vector may fail. -/
def Reached (devices : UInt32 → WinDevice) (os : Nat → PollAnswers) (slots : List PollSlot) :
    Prop :=
  ∀ (i j : Nat) (slot later : PollSlot), i < j → slots[i]? = some slot → slots[j]? = some later →
    later.stored = false → ¬ slot.Fails devices (os i)

/-- What holds of all slots by their places, holds of the first and of those
behind it. -/
theorem forall_slots_cons {P : Nat → PollSlot → Prop} {slot : PollSlot} {slots : List PollSlot} :
    (∀ (i : Nat) (s : PollSlot), (slot :: slots)[i]? = some s → P i s) ↔
      P 0 slot ∧ ∀ (i : Nat) (s : PollSlot), slots[i]? = some s → P (i + 1) s := by
  constructor
  · exact fun h => ⟨h 0 slot rfl, fun i s hs => h (i + 1) s hs⟩
  · rintro ⟨hslot, hslots⟩ i s hs
    cases i with
    | zero =>
        obtain rfl := Option.some.inj hs
        exact hslot
    | succ i => exact hslots i s hs

theorem passes_cons {os : Nat → PollAnswers} {slot : PollSlot} {slots : List PollSlot} :
    Passes devices os (slot :: slots) ↔
      ¬ slot.Fails devices (os 0) ∧ Passes devices (fun i => os (i + 1)) slots :=
  forall_slots_cons

theorem reached_cons {os : Nat → PollAnswers} {slot : PollSlot} {slots : List PollSlot} :
    Reached devices os (slot :: slots) ↔
      (slot.Fails devices (os 0) → ∀ s ∈ slots, s.stored = true) ∧
        Reached devices (fun i => os (i + 1)) slots := by
  constructor
  · intro h
    refine ⟨fun hf s hs => ?_, fun i j s t hij hs ht => h (i + 1) (j + 1) s t (by omega) hs ht⟩
    obtain ⟨j, hj⟩ := List.mem_iff_getElem?.mp hs
    by_contra hstored
    exact h 0 (j + 1) slot s (by omega) rfl hj (by simpa using hstored) hf
  · rintro ⟨hslot, hslots⟩ i j s t hij hs ht hstored
    cases j with
    | zero => omega
    | succ j =>
        cases i with
        | zero =>
            obtain rfl := Option.some.inj hs
            intro hf
            rw [hslot hf t (List.mem_iff_getElem?.mpr ⟨j, ht⟩)] at hstored
            cases hstored
        | succ i => exact hslots i j s t (by omega) hs ht hstored

/-- What a round counts, if it passes. -/
def counted (devices : UInt32 → WinDevice) (os : Nat → PollAnswers) (slots : List PollSlot) :
    Nat :=
  (slots.mapIdx fun i slot => slot.count devices (os i)).sum

/-- The array after a round that passes. -/
def afterRound (devices : UInt32 → WinDevice) (os : Nat → PollAnswers)
    (slots : List PollSlot) : List PollSlot :=
  slots.mapIdx fun i slot => slot.after devices (os i)

@[simp] theorem afterRound_cons (os : Nat → PollAnswers) (slot : PollSlot)
    (slots : List PollSlot) :
    afterRound devices os (slot :: slots) =
      slot.after devices (os 0) :: afterRound devices (fun i => os (i + 1)) slots := by
  simp [afterRound, List.mapIdx_cons]

@[simp] theorem counted_cons (os : Nat → PollAnswers) (slot : PollSlot)
    (slots : List PollSlot) :
    counted devices os (slot :: slots) =
      slot.count devices (os 0) + counted devices (fun i => os (i + 1)) slots := by
  simp [counted, List.mapIdx_cons]

theorem pollNoWait_of_passes {os : Nat → PollAnswers} {slots : List PollSlot}
    (h : Passes devices os slots) (total : Nat) :
    pollNoWait devices os total slots =
      (.ok (total + counted devices os slots), afterRound devices os slots) := by
  induction slots generalizing os total with
  | nil => rfl
  | cons slot slots ih =>
      obtain ⟨hslot, hslots⟩ := passes_cons.mp h
      rw [afterRound_cons, counted_cons, pollNoWait]
      unfold PollSlot.after PollSlot.count
      cases hnode : slot.node with
      | none =>
          simp only [ih hslots]
          rw [Nat.zero_add]
      | some node =>
          simp only [(PollSlot.error_eq_none_iff hnode).mpr hslot, ih hslots]
          rw [Nat.add_assoc]

theorem pollNoWait_of_not_passes {os : Nat → PollAnswers} {slots : List PollSlot}
    (h : ¬ Passes devices os slots) (total : Nat) :
    ∃ e, (pollNoWait devices os total slots).1 = .error e := by
  induction slots generalizing os total with
  | nil => exact absurd (fun i slot hs => by simp at hs) h
  | cons slot slots ih =>
      rw [pollNoWait]
      cases hnode : slot.node with
      | none =>
          refine ih (fun hslots => h (passes_cons.mpr ⟨?_, hslots⟩)) total
          rintro ⟨node, hnode', -⟩
          rw [hnode] at hnode'
          cases hnode'
      | some node =>
          cases herr : (pollNode devices (os 0) node slot.entry).error with
          | some e => exact ⟨e, by simp only [herr]⟩
          | none =>
              simp only [herr]
              exact ih (fun hslots => h (passes_cons.mpr
                ⟨(PollSlot.error_eq_none_iff hnode).mp herr, hslots⟩)) _

/-- After a round there is a result in every slot exactly when each had one or
could be polled, and the round got to it. -/
theorem pollNoWait_stored_iff (os : Nat → PollAnswers) (total : Nat) (slots : List PollSlot) :
    (∀ slot ∈ (pollNoWait devices os total slots).2, slot.stored = true) ↔
      (∀ slot ∈ slots, slot.stored = true ∨ slot.Pollable devices) ∧
        Reached devices os slots := by
  induction slots generalizing os total with
  | nil => simp [pollNoWait, Reached]
  | cons slot slots ih =>
      have hafter : slot.stored = true ∨ slot.Pollable devices ↔
          (slot.after devices (os 0)).stored = true := PollSlot.after_stored.symm
      rw [reached_cons, List.forall_mem_cons, hafter, pollNoWait]
      unfold PollSlot.after
      cases hnode : slot.node with
      | none =>
          have hnot : ¬ slot.Fails devices (os 0) := by
            rintro ⟨node, hnode', -⟩
            rw [hnode] at hnode'
            cases hnode'
          simp only [List.forall_mem_cons, ih, hnot, false_implies, true_and, and_assoc]
      | some node =>
          cases herr : (pollNode devices (os 0) node slot.entry).error with
          | none =>
              have hnot := (PollSlot.error_eq_none_iff hnode).mp herr
              simp only [herr, List.forall_mem_cons, ih, hnot, false_implies, true_and, and_assoc]
          | some e =>
              have hfails : slot.Fails devices (os 0) := by
                by_contra hnot
                rw [(PollSlot.error_eq_none_iff hnode).mpr hnot] at herr
                cases herr
              -- a slot that fails ends the round: those behind it are as they were
              simp only [herr, List.forall_mem_cons, hfails, true_implies]
              constructor
              · rintro ⟨hslot, hslots⟩
                refine ⟨⟨hslot, fun s hs => .inl (hslots s hs)⟩, hslots, ?_⟩
                intro i j s t hij hs ht hstored
                rw [hslots t (List.mem_iff_getElem?.mpr ⟨j, ht⟩)] at hstored
                cases hstored
              · rintro ⟨⟨hslot, -⟩, hslots, -⟩
                exact ⟨hslot, hslots⟩

/-- A round that has nothing for any slot. -/
def Quiet (devices : UInt32 → WinDevice) (os : Nat → PollAnswers) (slots : List PollSlot) :
    Prop :=
  ∀ (i : Nat) (slot : PollSlot), slots[i]? = some slot → ¬ slot.Ready devices (os i)

theorem quiet_cons {os : Nat → PollAnswers} {slot : PollSlot} {slots : List PollSlot} :
    Quiet devices os (slot :: slots) ↔
      ¬ slot.Ready devices (os 0) ∧ Quiet devices (fun i => os (i + 1)) slots :=
  forall_slots_cons

theorem counted_eq_zero_iff {os : Nat → PollAnswers} {slots : List PollSlot}
    (h : Passes devices os slots) : counted devices os slots = 0 ↔ Quiet devices os slots := by
  induction slots generalizing os with
  | nil => simp [counted, Quiet]
  | cons slot slots ih =>
      obtain ⟨hslot, hslots⟩ := passes_cons.mp h
      rw [counted_cons, Nat.add_eq_zero_iff, quiet_cons, ih hslots,
        ← PollSlot.count_ne_zero_iff hslot, not_not]

theorem afterRound_of_quiet {os : Nat → PollAnswers} {slots : List PollSlot}
    (h : Passes devices os slots) (hquiet : Quiet devices os slots) :
    afterRound devices os slots = slots.map PollSlot.cleared := by
  induction slots generalizing os with
  | nil => rfl
  | cons slot slots ih =>
      obtain ⟨hslot, hslots⟩ := passes_cons.mp h
      obtain ⟨hready, hrest⟩ := quiet_cons.mp hquiet
      rw [afterRound_cons, List.map_cons, ih hslots hrest,
        PollSlot.after_eq_cleared hslot hready]

/-- The consoles of the vector whose input has something. -/
def inputsReady (devices : UInt32 → WinDevice) (os : Nat → PollAnswers)
    (slots : List PollSlot) : Nat :=
  (slots.mapIdx fun i slot => (slot.inputReady devices (os i)).toNat).sum

/-- Entries with a result that are not the vector's. -/
def PollSlot.answered (slot : PollSlot) : Bool := slot.node = none ∧ slot.entry.revents ≠ 0

def PollSlot.hasResult (slot : PollSlot) : Bool := slot.entry.revents ≠ 0

/-- What is counted is what the vector's entries hold, but for the inputs of
consoles, which are counted beside them. -/
theorem counted_add {os : Nat → PollAnswers} {slots : List PollSlot}
    (h : Passes devices os slots) :
    counted devices os slots + slots.countP PollSlot.answered =
      (afterRound devices os slots).countP PollSlot.hasResult + inputsReady devices os slots := by
  induction slots generalizing os with
  | nil => rfl
  | cons slot slots ih =>
      obtain ⟨hslot, hslots⟩ := passes_cons.mp h
      have hone := PollSlot.count_add hslot
      have hrest := ih hslots
      simp only [counted_cons, afterRound_cons, List.countP_cons, inputsReady, List.mapIdx_cons,
        List.sum_cons, PollSlot.answered, PollSlot.hasResult, decide_eq_true_eq] at hone hrest ⊢
      omega

end

/-! ### What the rounds do -/

namespace PollSlot

variable {devices : UInt32 → WinDevice} {os : PollAnswers} {slot : PollSlot}

theorem cleared_node : slot.cleared.node = slot.node := by
  unfold cleared
  split <;> rfl

theorem cleared_answered : slot.cleared.answered = slot.answered := by
  unfold cleared
  cases hnode : slot.node with
  | none => rfl
  | some node => simp [answered, hnode]

theorem cleared_inputReady : slot.cleared.inputReady devices os = slot.inputReady devices os := by
  unfold cleared
  cases hnode : slot.node with
  | none => rfl
  | some node =>
      unfold inputReady
      simp only [hnode, Option.bind_some]
      rfl

theorem cleared_stored (h : ¬ slot.Fails devices os) :
    slot.cleared.stored = true ↔ slot.stored = true ∨ slot.Pollable devices := by
  unfold cleared
  cases hnode : slot.node with
  | none =>
      refine ⟨.inl, ?_⟩
      rintro (hs | ⟨node, kind, hnode', -⟩)
      · exact hs
      · rw [hnode] at hnode'
        cases hnode'
  | some node =>
      obtain ⟨kind, hkind, -⟩ := routine_of_not_fails hnode h
      exact ⟨fun _ => .inr ⟨node, kind, hnode, hkind⟩, fun _ => rfl⟩

theorem cleared_pollable (h : slot.cleared.Pollable devices) : slot.cleared.stored = true := by
  obtain ⟨node, kind, hnode, -⟩ := h
  rw [cleared_node] at hnode
  unfold cleared
  rw [hnode]

end PollSlot

section
variable {devices : UInt32 → WinDevice}

theorem inputsReady_cleared (os : Nat → PollAnswers) (slots : List PollSlot) :
    inputsReady devices os (slots.map PollSlot.cleared) = inputsReady devices os slots := by
  induction slots generalizing os with
  | nil => rfl
  | cons slot slots ih =>
      have hrest := ih fun i => os (i + 1)
      unfold inputsReady at hrest ⊢
      rw [List.map_cons, List.mapIdx_cons, List.mapIdx_cons, List.sum_cons, List.sum_cons, hrest,
        PollSlot.cleared_inputReady]

theorem answered_cleared (slots : List PollSlot) :
    (slots.map PollSlot.cleared).countP PollSlot.answered =
      slots.countP PollSlot.answered := by
  rw [List.countP_map]
  refine List.countP_congr fun slot _ => ?_
  rw [Function.comp_apply, PollSlot.cleared_answered]

/-- The call ends with what this round counts: all rounds before it had nothing
for it, the time was not up after any of them, and no signal came. -/
def Ends (devices : UInt32 → WinDevice) :
    Nat → (Nat → PollRound) → UInt32 → List PollSlot → Prop
  | 0, rounds, timeOut, slots =>
      Passes devices (rounds 0).poll slots ∧
        (¬ Quiet devices (rounds 0).poll slots ∨ timeOut = 0)
  | r + 1, rounds, timeOut, slots =>
      Passes devices (rounds 0).poll slots ∧ Quiet devices (rounds 0).poll slots ∧
        timeOut ≠ 0 ∧ (rounds 0).signal = false ∧
        ∃ elapsed, (rounds 0).wait = .ok elapsed ∧
          Ends devices r (fun r => rounds (r + 1)) (pollWait timeOut elapsed)
            (slots.map PollSlot.cleared)

/-- What a call does after its first round: it fails, it ends with a count, it
gives up waiting, or it goes on. -/
theorem vfsPoll_cases {fuel : Nat} {rounds : Nat → PollRound} {timeOut : UInt32}
    {slots slots' : List PollSlot} {result : Except Failure (Nat × UInt32)}
    (h : vfsPoll devices fuel rounds timeOut slots = some (result, slots')) :
    (¬ Passes devices (rounds 0).poll slots ∧ (∃ e, result = .error e) ∧
        slots' = (pollNoWait devices (rounds 0).poll 0 slots).2) ∨
      (Passes devices (rounds 0).poll slots ∧
        (¬ Quiet devices (rounds 0).poll slots ∨ timeOut = 0) ∧
        result = .ok (counted devices (rounds 0).poll slots, timeOut) ∧
        slots' = afterRound devices (rounds 0).poll slots) ∨
      (Passes devices (rounds 0).poll slots ∧ Quiet devices (rounds 0).poll slots ∧
        timeOut ≠ 0 ∧
        (((∃ e, (rounds 0).wait = .error e) ∨ (rounds 0).signal = true) ∧
            (∃ e, result = .error e) ∧ slots' = slots.map PollSlot.cleared ∨
          ∃ n elapsed, fuel = n + 1 ∧ (rounds 0).wait = .ok elapsed ∧
            (rounds 0).signal = false ∧
            vfsPoll devices n (fun r => rounds (r + 1)) (pollWait timeOut elapsed)
              (slots.map PollSlot.cleared) = some (result, slots'))) := by
  cases fuel with
  | zero => cases h
  | succ fuel =>
      rw [vfsPoll] at h
      -- the first round ends the call, or it is quiet and another one follows
      by_cases hpass : Passes devices (rounds 0).poll slots
      · right
        rw [pollNoWait_of_passes hpass, Nat.zero_add] at h
        have hquiet := counted_eq_zero_iff hpass
        by_cases hend : counted devices (rounds 0).poll slots ≠ 0 ∨ timeOut = 0
        · left
          simp only [if_pos hend] at h
          cases h
          exact ⟨hpass, hend.imp_left (mt hquiet.mpr), rfl, rfl⟩
        · right
          simp only [if_neg hend] at h
          obtain ⟨hzero, htime⟩ := not_or.mp hend
          have hq := hquiet.mp (not_not.mp hzero)
          rw [afterRound_of_quiet hpass hq] at h
          refine ⟨hpass, hq, htime, ?_⟩
          cases hwait : (rounds 0).wait with
          | error e =>
              rw [hwait] at h
              cases h
              exact .inl ⟨.inl ⟨e, rfl⟩, ⟨e, rfl⟩, rfl⟩
          | ok elapsed =>
              rw [hwait] at h
              cases hsignal : (rounds 0).signal with
              | true =>
                  simp only [hsignal, if_true] at h
                  cases h
                  exact .inl ⟨.inr rfl, ⟨_, rfl⟩, rfl⟩
              | false =>
                  simp only [hsignal] at h
                  exact .inr ⟨fuel, elapsed, rfl, rfl, rfl, h⟩
      · left
        obtain ⟨e, he⟩ := pollNoWait_of_not_passes hpass 0
        rw [← Prod.eta (pollNoWait devices (rounds 0).poll 0 slots), he] at h
        cases h
        exact ⟨hpass, ⟨e, rfl⟩, rfl⟩

theorem ends_of_ended {rounds : Nat → PollRound} {timeOut : UInt32} {slots : List PollSlot}
    (hpass : Passes devices (rounds 0).poll slots)
    (hend : ¬ Quiet devices (rounds 0).poll slots ∨ timeOut = 0) (r : Nat) :
    Ends devices r rounds timeOut slots ↔ r = 0 := by
  cases r with
  | zero => exact ⟨fun _ => rfl, fun _ => ⟨hpass, hend⟩⟩
  | succ r =>
      constructor
      · rintro ⟨-, hquiet, htime, -⟩
        exact absurd hend (not_or.mpr ⟨not_not.mpr hquiet, htime⟩)
      · intro hr
        cases hr

theorem ends_of_quiet {rounds : Nat → PollRound} {timeOut : UInt32} {slots : List PollSlot}
    {elapsed : Int} (hpass : Passes devices (rounds 0).poll slots)
    (hquiet : Quiet devices (rounds 0).poll slots) (htime : timeOut ≠ 0)
    (hwait : (rounds 0).wait = .ok elapsed) (hsignal : (rounds 0).signal = false) (r : Nat) :
    Ends devices r rounds timeOut slots ↔
      ∃ r', r = r' + 1 ∧ Ends devices r' (fun r => rounds (r + 1)) (pollWait timeOut elapsed)
        (slots.map PollSlot.cleared) := by
  cases r with
  | zero =>
      constructor
      · rintro ⟨-, hend⟩
        exact absurd hend (not_or.mpr ⟨not_not.mpr hquiet, htime⟩)
      · rintro ⟨r', hr, -⟩
        cases hr
  | succ r =>
      constructor
      · rintro ⟨-, -, -, -, elapsed', hwait', hends⟩
        rw [hwait] at hwait'
        cases hwait'
        exact ⟨r, rfl, hends⟩
      · rintro ⟨r', hr, hends⟩
        cases hr
        exact ⟨hpass, hquiet, htime, hsignal, elapsed, hwait, hends⟩

/-- The round after the only one, counted from the round before. -/
theorem exists_succ_iff {ends : Nat → Prop} {r : Nat} (h : ∀ r', ends r' ↔ r' = r) (n : Nat) :
    (∃ r', n = r' + 1 ∧ ends r') ↔ n = r + 1 := by
  constructor
  · rintro ⟨r', rfl, hr⟩
    rw [(h r').mp hr]
  · rintro rfl
    exact ⟨r, rfl, (h r).mpr rfl⟩

/-- A call that ends with a count does so at a round that ends it. -/
theorem vfsPoll_ok {fuel : Nat} {rounds : Nat → PollRound} {timeOut left : UInt32} {n : Nat}
    {slots slots' : List PollSlot}
    (h : vfsPoll devices fuel rounds timeOut slots = some (.ok (n, left), slots')) :
    (n = 0 → left = 0) ∧
      ∃ r, (∀ r', Ends devices r' rounds timeOut slots ↔ r' = r) ∧
        n + slots.countP PollSlot.answered =
          slots'.countP PollSlot.hasResult + inputsReady devices (rounds r).poll slots := by
  induction fuel generalizing rounds timeOut slots with
  | zero => cases h
  | succ fuel ih =>
      rcases vfsPoll_cases h with ⟨-, ⟨e, he⟩, -⟩ | ⟨hpass, hend, heq, rfl⟩ |
        ⟨hpass, hquiet, htime, ⟨-, ⟨e, he⟩, -⟩ | ⟨fuel', elapsed, hfuel, hwait, hsignal, hrest⟩⟩
      · cases he
      · cases heq
        refine ⟨fun hzero => ?_, 0, ends_of_ended hpass hend, counted_add hpass⟩
        exact hend.resolve_left (not_not.mpr ((counted_eq_zero_iff hpass).mp hzero))
      · cases he
      · cases hfuel
        obtain ⟨hleft, r, hends, hcount⟩ := ih hrest
        refine ⟨hleft, r + 1, fun r' => ?_, ?_⟩
        · rw [ends_of_quiet hpass hquiet htime hwait hsignal]
          exact exists_succ_iff hends r'
        · rwa [answered_cleared, inputsReady_cleared] at hcount

/-- A call that fails has no round that ends it. -/
theorem vfsPoll_error {fuel : Nat} {rounds : Nat → PollRound} {timeOut : UInt32}
    {slots slots' : List PollSlot} {e : Failure}
    (h : vfsPoll devices fuel rounds timeOut slots = some (.error e, slots')) (r : Nat) :
    ¬ Ends devices r rounds timeOut slots := by
  induction fuel generalizing rounds timeOut slots r with
  | zero => cases h
  | succ fuel ih =>
      rcases vfsPoll_cases h with ⟨hpass, -, -⟩ | ⟨-, -, heq, -⟩ |
        ⟨hpass, hquiet, htime, ⟨hstop, -, -⟩ | ⟨fuel', elapsed, hfuel, hwait, hsignal, hrest⟩⟩
      · intro hends
        cases r with
        | zero => exact hpass hends.1
        | succ r => exact hpass hends.1
      · cases heq
      · intro hends
        cases r with
        | zero => exact absurd hends.2 (not_or.mpr ⟨not_not.mpr hquiet, htime⟩)
        | succ r =>
            obtain ⟨-, -, -, hsignal, elapsed, hwait, -⟩ := hends
            rcases hstop with ⟨e', he'⟩ | hs
            · rw [hwait] at he'
              cases he'
            · rw [hsignal] at hs
              cases hs
      · cases hfuel
        rw [ends_of_quiet hpass hquiet htime hwait hsignal]
        rintro ⟨r', -, hends⟩
        exact ih hrest r' hends

theorem reached_of_passes {os : Nat → PollAnswers} {slots : List PollSlot}
    (h : Passes devices os slots) : Reached devices os slots :=
  fun i _ slot _ _ hs _ _ => h i slot hs

theorem cleared_stored_iff {os : Nat → PollAnswers} {slots : List PollSlot}
    (h : Passes devices os slots) :
    (∀ slot ∈ slots.map PollSlot.cleared, slot.stored = true) ↔
      ∀ slot ∈ slots, slot.stored = true ∨ slot.Pollable devices := by
  rw [List.forall_mem_map]
  constructor
  all_goals
    intro hall slot hslot
    obtain ⟨i, hi⟩ := List.mem_iff_getElem?.mp hslot
  · exact (PollSlot.cleared_stored (h i slot hi)).mp (hall slot hslot)
  · exact (PollSlot.cleared_stored (h i slot hi)).mpr (hall slot hslot)

/-- The first round decides whether there is a result in every slot. -/
theorem vfsPoll_stored_iff {fuel : Nat} {rounds : Nat → PollRound} {timeOut : UInt32}
    {slots slots' : List PollSlot} {result : Except Failure (Nat × UInt32)}
    (h : vfsPoll devices fuel rounds timeOut slots = some (result, slots')) :
    (∀ slot ∈ slots', slot.stored = true) ↔
      (∀ slot ∈ slots, slot.stored = true ∨ slot.Pollable devices) ∧
        Reached devices (rounds 0).poll slots := by
  induction fuel generalizing rounds timeOut slots with
  | zero => cases h
  | succ fuel ih =>
      rcases vfsPoll_cases h with ⟨-, -, rfl⟩ | ⟨hpass, -, -, rfl⟩ |
        ⟨hpass, hquiet, htime, ⟨-, -, rfl⟩ | ⟨fuel', elapsed, hfuel, hwait, hsignal, hrest⟩⟩
      · exact pollNoWait_stored_iff _ 0 slots
      · rw [← pollNoWait_stored_iff _ 0 slots, pollNoWait_of_passes hpass]
      · rw [cleared_stored_iff hpass, and_iff_left (reached_of_passes hpass)]
      · cases hfuel
        rw [ih hrest, ← cleared_stored_iff hpass, and_iff_left (reached_of_passes hpass)]
        constructor
        · rintro ⟨hall, -⟩ slot hslot
          obtain ⟨s, -, rfl⟩ := List.mem_map.mp hslot
          exact (hall _ hslot).elim id PollSlot.cleared_pollable
        · intro hall
          refine ⟨fun slot hslot => .inl (hall slot hslot), ?_⟩
          intro i j slot later hij hi hj hstored
          rw [hall later (List.mem_iff_getElem?.mpr ⟨j, hj⟩)] at hstored
          cases hstored

theorem pollNoWait_length (os : Nat → PollAnswers) (total : Nat) (slots : List PollSlot) :
    (pollNoWait devices os total slots).2.length = slots.length := by
  induction slots generalizing os total with
  | nil => rfl
  | cons slot slots ih =>
      rw [pollNoWait]
      cases slot.node with
      | none => simp [ih]
      | some node => cases herr : (pollNode devices (os 0) node slot.entry).error <;> simp [herr, ih]

theorem vfsPoll_length {fuel : Nat} {rounds : Nat → PollRound} {timeOut : UInt32}
    {slots slots' : List PollSlot} {result : Except Failure (Nat × UInt32)}
    (h : vfsPoll devices fuel rounds timeOut slots = some (result, slots')) :
    slots'.length = slots.length := by
  induction fuel generalizing rounds timeOut slots with
  | zero => cases h
  | succ fuel ih =>
      rcases vfsPoll_cases h with ⟨-, -, rfl⟩ | ⟨-, -, -, rfl⟩ |
        ⟨-, -, -, ⟨-, -, rfl⟩ | ⟨fuel', elapsed, hfuel, -, -, hrest⟩⟩
      · exact pollNoWait_length _ 0 slots
      · exact List.length_mapIdx
      · exact List.length_map _
      · cases hfuel
        rw [ih hrest, List.length_map]

/-- What the round that ends a call leaves in a slot, whatever earlier rounds
have stored there. -/
def EndsAs (devices : UInt32 → WinDevice) (os : PollAnswers) (slot slot' : PollSlot) : Prop :=
  match slot.node with
  | none => slot' = slot
  | some node =>
      ∃ kind stored, pollKind devices node = some kind ∧ (kind.status os).1 = none ∧
        slot'.entry = (kind.poll os { slot.entry with revents := stored }).entry

theorem endsAs_after {os : PollAnswers} {slot : PollSlot} (h : ¬ slot.Fails devices os) :
    EndsAs devices os slot (slot.after devices os) := by
  unfold EndsAs PollSlot.after
  cases hnode : slot.node with
  | none => rfl
  | some node =>
      obtain ⟨kind, hkind, hstatus, hpoll⟩ := PollSlot.routine_of_not_fails hnode h
      exact ⟨kind, slot.entry.revents, hkind, hstatus, congrArg Polled.entry hpoll⟩

theorem endsAs_of_cleared {os : PollAnswers} {slot slot' : PollSlot}
    (h : EndsAs devices os slot.cleared slot') : EndsAs devices os slot slot' := by
  unfold EndsAs at h ⊢
  rw [PollSlot.cleared_node] at h
  cases hnode : slot.node with
  | none =>
      have hsame : slot.cleared = slot := by
        unfold PollSlot.cleared
        rw [hnode]
      rw [hnode, hsame] at h
      exact h
  | some node =>
      have hentry : slot.cleared.entry = { slot.entry with revents := 0 } := by
        unfold PollSlot.cleared
        rw [hnode]
      rw [hnode, hentry] at h
      exact h

/-- A call that ends with a count leaves in every slot what the round that ends
it found. -/
theorem vfsPoll_endsAs {fuel : Nat} {rounds : Nat → PollRound} {timeOut left : UInt32} {n : Nat}
    {slots slots' : List PollSlot}
    (h : vfsPoll devices fuel rounds timeOut slots = some (.ok (n, left), slots')) :
    ∃ r, (∀ r', Ends devices r' rounds timeOut slots ↔ r' = r) ∧
      ∀ (i : Nat) (slot : PollSlot), slots[i]? = some slot →
        ∃ slot', slots'[i]? = some slot' ∧ EndsAs devices ((rounds r).poll i) slot slot' := by
  induction fuel generalizing rounds timeOut slots with
  | zero => cases h
  | succ fuel ih =>
      rcases vfsPoll_cases h with ⟨-, ⟨e, he⟩, -⟩ | ⟨hpass, hend, heq, rfl⟩ |
        ⟨hpass, hquiet, htime, ⟨-, ⟨e, he⟩, -⟩ | ⟨fuel', elapsed, hfuel, hwait, hsignal, hrest⟩⟩
      · cases he
      · refine ⟨0, ends_of_ended hpass hend, fun i slot hslot => ?_⟩
        refine ⟨slot.after devices ((rounds 0).poll i), ?_, endsAs_after (hpass i slot hslot)⟩
        rw [afterRound, List.getElem?_mapIdx, hslot]
        rfl
      · cases he
      · cases hfuel
        obtain ⟨r, hends, hslots⟩ := ih hrest
        refine ⟨r + 1, fun r' => ?_, fun i slot hslot => ?_⟩
        · rw [ends_of_quiet hpass hquiet htime hwait hsignal]
          exact exists_succ_iff hends r'
        · obtain ⟨slot', hslot', hends'⟩ := hslots i slot.cleared (by
            rw [List.getElem?_map, hslot]
            rfl)
          exact ⟨slot', hslot', endsAs_of_cleared hends'⟩

end

end MinC.Vfs
