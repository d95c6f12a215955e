import MinC.Vfs.PollRounds
import MinC.Sys.Descriptors

/-!
The `poll` call.

The array of the caller is gone through once to make the vector of the nodes
that are polled. An entry that is not polled is answered on the way, unless it
asks for nothing. The value returned is what the rounds of polling have
counted. It is the number of entries with a result if as many inputs of
consoles were counted beside their entries as there are descriptors beyond the
table, which have a result and are not counted.
-/

namespace MinC.Sys

open MinC.Win MinC.Vfs

def wsaMaximumWaitEvents : Nat := 64

/-- The place of an entry in the vector, if it has one. -/
def pollSlot (node : Nat → WinVnode) (fds : PollFd) : PollSlot :=
  if fds.fd < 0 then ⟨{ fds with revents := 0 }, none, true⟩
  else if openMax ≤ fds.fd then ⟨{ fds with revents := pollNval }, none, true⟩
  else if fds.events ≠ 0 then ⟨fds, some (node fds.fd.toNat), false⟩
  else ⟨fds, none, false⟩

def pollfdWin (node : Nat → WinVnode) (fds : List PollFd) : Option (List PollSlot) :=
  if wsaMaximumWaitEvents < fds.length then none else some (fds.map (pollSlot node))

/-- `poll` on an array, for a number of rounds. A null pointer is no array. -/
def poll (devices : UInt32 → WinDevice) (node : Nat → WinVnode) (fuel : Nat)
    (rounds : Nat → PollRound) (fds : Option (List PollFd)) (timeOut : UInt32) :
    Option (Int × List PollSlot) :=
  match fds, fds.bind (pollfdWin node) with
  | none, _ => some (-(efault : Int), [])
  | some fds, none => some (-(einval : Int), fds.map fun p => ⟨p, none, false⟩)
  | some _, some slots =>
      match vfsPoll devices fuel rounds timeOut slots with
      | none => none
      | some (.error e, slots) => some (-(errnoPosix e : Int), slots)
      | some (.ok (count, left), slots) =>
          if count ≠ 0 then some (count, slots)
          else if left ≠ 0 then some (-(eintr : Int), slots)
          else some (0, slots)

def pollTimeOut (timeout : Int) : UInt32 :=
  if timeout < 0 then infinite else UInt32.ofInt timeout

def sysPoll (devices : UInt32 → WinDevice) (node : Nat → WinVnode) (fuel : Nat)
    (rounds : Nat → PollRound) (fds : Option (List PollFd)) (timeout : Int) :
    Option (Int × List PollSlot) :=
  poll devices node fuel rounds fds (pollTimeOut timeout)

/-- A value that is not an error is the number of entries with a result, and
there is a result in every entry. -/
def Accounted (nfds : Nat) (result : Int) (slots : List PollSlot) : Prop :=
  (0 ≤ result → result = slots.countP PollSlot.hasResult ∧ result ≤ nfds) ∧
    ∀ slot ∈ slots, slot.stored = true

/-- The entry is beyond the table. -/
def beyond (fds : PollFd) : Bool := openMax ≤ fds.fd

/-- Every entry of a descriptor of the table asks for something that can be
polled, the first round gets to the last of them, and when the call ends there
are as many descriptors beyond the table as consoles with input. -/
structure Accountable (devices : UInt32 → WinDevice) (node : Nat → WinVnode)
    (rounds : Nat → PollRound) (fds : List PollFd) (timeOut : UInt32) : Prop where
  asks : ∀ p ∈ fds, inRange p.fd → p.events ≠ 0
  pollable : ∀ p ∈ fds, inRange p.fd → pollKind devices (node p.fd.toNat) ≠ none
  reached : ∀ (i j : Nat) (p q : PollFd), i < j → fds[i]? = some p → fds[j]? = some q →
    inRange p.fd → inRange q.fd → ¬ PollFails devices ((rounds 0).poll i) (node p.fd.toNat)
  balanced : ∀ r, Ends devices r rounds timeOut (fds.map (pollSlot node)) →
    fds.countP beyond = inputsReady devices (rounds r).poll (fds.map (pollSlot node))

section
variable {devices : UInt32 → WinDevice} {node : Nat → WinVnode}

/-- What the first pass does with an entry. -/
theorem pollSlot_cases (node : Nat → WinVnode) (p : PollFd) :
    (inRange p.fd = false ∧ (pollSlot node p).node = none ∧ (pollSlot node p).stored = true ∧
        (pollSlot node p).answered = beyond p) ∨
      (inRange p.fd = true ∧ p.events ≠ 0 ∧
        pollSlot node p = ⟨p, some (node p.fd.toNat), false⟩) ∨
      (inRange p.fd = true ∧ p.events = 0 ∧ pollSlot node p = ⟨p, none, false⟩) := by
  unfold pollSlot inRange
  by_cases hneg : p.fd < 0
  · left
    have hbeyond : beyond p = false := decide_eq_false (by omega)
    have hlow : decide (0 ≤ p.fd) = false := decide_eq_false (by omega)
    rw [if_pos hneg, hbeyond, hlow, Bool.false_and]
    exact ⟨rfl, rfl, rfl, rfl⟩
  · rw [if_neg hneg]
    by_cases hhigh : (openMax : Int) ≤ p.fd
    · left
      rw [if_pos hhigh, show beyond p = true from decide_eq_true hhigh]
      exact ⟨by simp [hhigh], rfl, rfl, rfl⟩
    · right
      have hin : (decide (0 ≤ p.fd) && decide (p.fd < (openMax : Int))) = true := by
        simp only [Bool.and_eq_true, decide_eq_true_eq]
        omega
      rw [if_neg hhigh, hin]
      by_cases hevents : p.events = 0
      · exact .inr ⟨rfl, hevents, if_neg (not_not.mpr hevents)⟩
      · exact .inl ⟨rfl, hevents, if_pos hevents⟩

theorem pollSlot_stored_iff (p : PollFd) :
    ((pollSlot node p).stored = true ∨ (pollSlot node p).Pollable devices) ↔
      (inRange p.fd = true → p.events ≠ 0 ∧ pollKind devices (node p.fd.toNat) ≠ none) := by
  rcases pollSlot_cases node p with ⟨hin, -, hstored, -⟩ | ⟨hin, hevents, heq⟩ |
    ⟨hin, hevents, heq⟩
  · exact ⟨fun _ h => absurd h (by rw [hin]; decide), fun _ => .inl hstored⟩
  · rw [heq]
    constructor
    · rintro (h | ⟨_, kind, hnode, hkind⟩) -
      · cases h
      · cases hnode
        exact ⟨hevents, by rw [hkind]; exact Option.some_ne_none kind⟩
    · intro h
      obtain ⟨kind, hkind⟩ := Option.ne_none_iff_exists'.mp (h hin).2
      exact .inr ⟨_, kind, rfl, hkind⟩
  · rw [heq]
    constructor
    · rintro (h | ⟨_, kind, hnode, -⟩)
      · cases h
      · cases hnode
    · intro h
      exact absurd hevents (h hin).1

theorem pollSlots_stored_iff (fds : List PollFd) :
    (∀ slot ∈ fds.map (pollSlot node), slot.stored = true ∨ slot.Pollable devices) ↔
      (∀ p ∈ fds, inRange p.fd → p.events ≠ 0) ∧
        ∀ p ∈ fds, inRange p.fd → pollKind devices (node p.fd.toNat) ≠ none := by
  rw [List.forall_mem_map]
  constructor
  · intro h
    exact ⟨fun p hp hin => ((pollSlot_stored_iff p).mp (h p hp) hin).1,
      fun p hp hin => ((pollSlot_stored_iff p).mp (h p hp) hin).2⟩
  · rintro ⟨hevents, hpoll⟩ p hp
    exact (pollSlot_stored_iff p).mpr fun hin => ⟨hevents p hp hin, hpoll p hp hin⟩

theorem pollSlot_answered {p : PollFd} (h : inRange p.fd → p.events ≠ 0) :
    (pollSlot node p).answered = beyond p := by
  rcases pollSlot_cases node p with ⟨-, -, -, hans⟩ | ⟨hin, -, heq⟩ | ⟨hin, hevents, -⟩
  · exact hans
  · have hlow : beyond p = false := by
      simp only [inRange, Bool.and_eq_true, decide_eq_true_eq] at hin
      exact decide_eq_false (by omega)
    rw [heq, hlow]
    rfl
  · exact absurd hevents (h hin)

/-- If a descriptor of the table asks for something, its entry is polled. -/
theorem pollSlot_stored {p : PollFd} (h : inRange p.fd → p.events ≠ 0) :
    (pollSlot node p).stored = false ↔ inRange p.fd = true := by
  rcases pollSlot_cases node p with ⟨hin, -, hstored, -⟩ | ⟨hin, -, heq⟩ | ⟨hin, hevents, -⟩
  · rw [hin, hstored]
    decide
  · rw [heq, hin]
    exact ⟨fun _ => rfl, fun _ => rfl⟩
  · exact absurd hevents (h hin)

theorem pollSlot_fails {p : PollFd} (h : inRange p.fd → p.events ≠ 0) (os : PollAnswers) :
    (pollSlot node p).Fails devices os ↔
      inRange p.fd = true ∧ PollFails devices os (node p.fd.toNat) := by
  rcases pollSlot_cases node p with ⟨hin, hnode, -⟩ | ⟨hin, -, heq⟩ | ⟨hin, hevents, -⟩
  · constructor
    · rintro ⟨n, hn, -⟩
      rw [hnode] at hn
      cases hn
    · rintro ⟨h', -⟩
      rw [hin] at h'
      cases h'
  · rw [heq]
    constructor
    · rintro ⟨n, hn, hf⟩
      cases hn
      exact ⟨hin, hf⟩
    · rintro ⟨-, hf⟩
      exact ⟨_, rfl, hf⟩
  · exact absurd hevents (h hin)

theorem reached_pollSlots_iff {fds : List PollFd} (h : ∀ p ∈ fds, inRange p.fd → p.events ≠ 0)
    (os : Nat → PollAnswers) :
    Reached devices os (fds.map (pollSlot node)) ↔
      ∀ (i j : Nat) (p q : PollFd), i < j → fds[i]? = some p → fds[j]? = some q →
        inRange p.fd → inRange q.fd → ¬ PollFails devices (os i) (node p.fd.toNat) := by
  constructor
  · intro hreached i j p q hij hp hq hpin hqin hfails
    have hslot (k : Nat) (r : PollFd) (hr : fds[k]? = some r) :
        (fds.map (pollSlot node))[k]? = some (pollSlot node r) := by
      rw [List.getElem?_map, hr]
      rfl
    have hasks (k : Nat) (r : PollFd) (hr : fds[k]? = some r) : inRange r.fd → r.events ≠ 0 :=
      h r (List.mem_iff_getElem?.mpr ⟨k, hr⟩)
    exact hreached i j _ _ hij (hslot i p hp) (hslot j q hq)
      ((pollSlot_stored (hasks j q hq)).mpr hqin)
      ((pollSlot_fails (hasks i p hp) (os i)).mpr ⟨hpin, hfails⟩)
  · intro hfds i j slot later hij hi hj hstored hfails
    rw [List.getElem?_map] at hi hj
    obtain ⟨p, hp, rfl⟩ := Option.map_eq_some_iff.mp hi
    obtain ⟨q, hq, rfl⟩ := Option.map_eq_some_iff.mp hj
    have hasks (k : Nat) (r : PollFd) (hr : fds[k]? = some r) : inRange r.fd → r.events ≠ 0 :=
      h r (List.mem_iff_getElem?.mpr ⟨k, hr⟩)
    obtain ⟨hpin, hf⟩ := (pollSlot_fails (hasks i p hp) (os i)).mp hfails
    exact hfds i j p q hij hp hq hpin ((pollSlot_stored (hasks j q hq)).mp hstored) hf

variable (node) in
theorem answered_pollSlots {fds : List PollFd} (h : ∀ p ∈ fds, inRange p.fd → p.events ≠ 0) :
    (fds.map (pollSlot node)).countP PollSlot.answered = fds.countP beyond := by
  rw [List.countP_map]
  refine List.countP_congr fun p hp => ?_
  rw [Function.comp_apply, pollSlot_answered (h p hp)]

/-- The slots that `poll` hands to the rounds. -/
theorem poll_some {fuel : Nat} {rounds : Nat → PollRound} {fds : List PollFd}
    {timeOut : UInt32} {result : Int} {slots : List PollSlot}
    (hfds : fds.length ≤ wsaMaximumWaitEvents)
    (h : poll devices node fuel rounds (some fds) timeOut = some (result, slots)) :
    (∃ e, vfsPoll devices fuel rounds timeOut (fds.map (pollSlot node)) =
        some (.error e, slots) ∧ result < 0) ∨
      ∃ count left, vfsPoll devices fuel rounds timeOut (fds.map (pollSlot node)) =
        some (.ok (count, left), slots) ∧ result = count := by
  have hwin : pollfdWin node fds = some (fds.map (pollSlot node)) :=
    if_neg (Nat.not_lt.mpr hfds)
  simp only [poll, Option.bind_some, hwin] at h
  cases hvfs : vfsPoll devices fuel rounds timeOut (fds.map (pollSlot node)) with
  | none =>
      rw [hvfs] at h
      cases h
  | some outcome =>
      obtain ⟨outcome, slots'⟩ := outcome
      rw [hvfs] at h
      cases outcome with
      | error e =>
          cases h
          have := e.2
          exact .inl ⟨e, rfl, by omega⟩
      | ok pair =>
          obtain ⟨count, left⟩ := pair
          right
          -- if none is ready nothing is left of the time
          by_cases hcount : count = 0
          · subst hcount
            have hleft : left = 0 := (vfsPoll_ok hvfs).1 rfl
            subst hleft
            cases h
            exact ⟨0, 0, rfl, rfl⟩
          · simp only [ne_eq, hcount, not_false_eq_true, if_true] at h
            cases h
            exact ⟨count, left, rfl, rfl⟩

theorem accounted_iff {fuel : Nat} {rounds : Nat → PollRound} {fds : List PollFd}
    {timeout : Int} {result : Int} {slots : List PollSlot}
    (hfds : fds.length ≤ wsaMaximumWaitEvents)
    (h : sysPoll devices node fuel rounds (some fds) timeout = some (result, slots)) :
    Accounted fds.length result slots ↔
      Accountable devices node rounds fds (pollTimeOut timeout) := by
  have hstored {outcome : Except Failure (Nat × UInt32)}
      (hvfs : vfsPoll devices fuel rounds (pollTimeOut timeout) (fds.map (pollSlot node)) =
        some (outcome, slots)) :
      (∀ slot ∈ slots, slot.stored = true) ↔
        ((∀ p ∈ fds, inRange p.fd → p.events ≠ 0) ∧
          ∀ p ∈ fds, inRange p.fd → pollKind devices (node p.fd.toNat) ≠ none) ∧
          Reached devices (rounds 0).poll (fds.map (pollSlot node)) := by
    rw [vfsPoll_stored_iff hvfs, pollSlots_stored_iff]
  rcases poll_some hfds h with ⟨e, hvfs, hneg⟩ | ⟨count, left, hvfs, rfl⟩
  · -- a failing call returns no number, and no round ends it
    constructor
    · rintro ⟨-, hall⟩
      obtain ⟨⟨hasks, hpollable⟩, hreached⟩ := (hstored hvfs).mp hall
      exact ⟨hasks, hpollable, (reached_pollSlots_iff hasks _).mp hreached,
        fun r hends => absurd hends (vfsPoll_error hvfs r)⟩
    · rintro ⟨hasks, hpollable, hreached, -⟩
      exact ⟨fun hpos => absurd hpos (by omega),
        (hstored hvfs).mpr ⟨⟨hasks, hpollable⟩, (reached_pollSlots_iff hasks _).mpr hreached⟩⟩
  · obtain ⟨-, r, hends, hcount⟩ := vfsPoll_ok hvfs
    constructor
    · rintro ⟨hresult, hall⟩
      obtain ⟨⟨hasks, hpollable⟩, hreached⟩ := (hstored hvfs).mp hall
      refine ⟨hasks, hpollable, (reached_pollSlots_iff hasks _).mp hreached, fun r' hr' => ?_⟩
      have heq := (hresult (by omega)).1
      have hans := answered_pollSlots node hasks
      rw [(hends r').mp hr']
      omega
    · rintro ⟨hasks, hpollable, hreached, hbalanced⟩
      refine ⟨fun _ => ?_,
        (hstored hvfs).mpr ⟨⟨hasks, hpollable⟩, (reached_pollSlots_iff hasks _).mpr hreached⟩⟩
      have hbal := hbalanced r ((hends r).mpr rfl)
      rw [answered_pollSlots node hasks] at hcount
      have hle : slots.countP PollSlot.hasResult ≤ slots.length := List.countP_le_length
      rw [vfsPoll_length hvfs, List.length_map] at hle
      constructor <;> omega

end

/-! ### A file, and a descriptor beyond the table -/

def fileNode : WinVnode := { WinVnode.zero with fsType := .disk, fileType := .vreg }

def noDevice : WinDevice where
  fileType := .vnon
  deviceType := 0
  deviceId := 0
  fsType := .unknown
  event := 0
  input := nullHandle
  output := nullHandle
  flags := 0
  index := 0

def idle : PollAnswers where
  input := false
  clipboard := false
  peekInput := .ok none
  sizeRaised := false
  readInput := .ok ()
  mailslot := .ok mailslotNoMessage
  peekPipe := .ok (0, 0)
  overlapped := true
  pending := 0
  eventSelect := .ok
  networkEvents := .ok 0
  available := .ok 0

def idleRound : PollRound where
  poll := fun _ => idle
  wait := .ok 0
  signal := false

theorem accounted_iff_file :
    Accounted 1 1 [⟨⟨0, pollIn, pollIn⟩, some fileNode, true⟩] ↔
      Accountable (fun _ => noDevice) (fun _ => fileNode) (fun _ => idleRound)
        [⟨0, pollIn, 0⟩] (pollTimeOut 0) :=
  accounted_iff (show [(⟨0, pollIn, 0⟩ : PollFd)].length ≤ wsaMaximumWaitEvents by decide)
    (show sysPoll (fun _ => noDevice) (fun _ => fileNode) 1 (fun _ => idleRound)
      (some [⟨0, pollIn, 0⟩]) 0 = some (1, [⟨⟨0, pollIn, pollIn⟩, some fileNode, true⟩]) from rfl)

/-- The descriptor has a result, and is not counted. -/
theorem beyond_not_counted :
    sysPoll (fun _ => noDevice) (fun _ => fileNode) 1 (fun _ => idleRound)
        (some [⟨openMax, pollIn, 0⟩]) 0 =
      some (0, [⟨⟨openMax, pollIn, pollNval⟩, none, true⟩]) ∧
      ¬ Accounted 1 0 [⟨⟨openMax, pollIn, pollNval⟩, none, true⟩] := by
  refine ⟨rfl, fun h => ?_⟩
  have hcount := (h.1 (by decide)).1
  exact absurd hcount (by decide)

end MinC.Sys
