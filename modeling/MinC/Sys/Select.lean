import MinC.Sys.Poll
import Mathlib.Data.Nat.Count

/-!
The `select` call.

The three sets of the caller become one array of entries, one for each
descriptor below the number `poll` takes, which is polled. Afterwards each set
is gone through again: a descriptor with a result the set stands for is
counted, any other one is taken out. What a device tells without being asked is
found in every set that stands for it, whether the descriptor is in it or not.
-/

namespace MinC.Sys

open MinC.Lib MinC.Win MinC.Vfs

/-! ### The sets -/

inductive FdKind
  | read | write | error
  deriving DecidableEq

namespace FdKind

/-- The events a set stands for. -/
def flags : FdKind → UInt16
  | read => pollIn ||| pollHup ||| pollRdband
  | write => pollOut ||| pollWrband
  | error => pollErr ||| pollNval

end FdKind

/-- The sets of the caller, each of which may be a null pointer. -/
abbrev FdSets := FdKind → Option (Finset Nat)

def FdSets.asks (sets : FdSets) (kind : FdKind) (fd : Nat) : Bool :=
  match sets kind with
  | none => false
  | some set => fd ∈ set

def fdsetPoll (fds : List PollFd) (set : Finset Nat) (flags : UInt16) : List PollFd :=
  fds.mapIdx fun fd p => if fd ∈ set then { p with fd := fd, events := p.events ||| flags } else p

/-- The descriptors from `fd` on. -/
def fdsetSelect (flags : UInt16) : Nat → List PollFd → Finset Nat → Nat × Finset Nat
  | _, [], set => (0, set)
  | fd, p :: fds, set =>
      if p.revents &&& flags ≠ 0 then
        let rest := fdsetSelect flags (fd + 1) fds set
        (rest.1 + 1, rest.2)
      else fdsetSelect flags (fd + 1) fds (set.erase fd)

/-! ### The call -/

/-- Ask for the events of a set, unless it is a null pointer. -/
def FdSets.poll (sets : FdSets) (fds : List PollFd) (kind : FdKind) : List PollFd :=
  match sets kind with
  | none => fds
  | some set => fdsetPoll fds set kind.flags

/-- What is counted in a set, and what is left of it. -/
def FdSets.select (sets : FdSets) (fds : List PollFd) (kind : FdKind) : Nat × Option (Finset Nat) :=
  match sets kind with
  | none => (0, none)
  | some set => ((fdsetSelect kind.flags 0 fds set).1, some (fdsetSelect kind.flags 0 fds set).2)

def FdSets.pollfds (sets : FdSets) : List PollFd :=
  [FdKind.read, .write, .error].foldl sets.poll (List.replicate wsaMaximumWaitEvents ⟨0, 0, 0⟩)

/-- What the call leaves: its result, the sets, the array, and the milliseconds
that are left. -/
structure Selected where
  result : Int
  sets : FdSets
  fds : List PollFd
  timeOut : UInt32

/-- The number of descriptors that are polled. A negative one is too large. -/
def selectCount (nfds : Int) : Option Nat :=
  if (wsaMaximumWaitEvents : Int) < nfds then some wsaMaximumWaitEvents
  else if nfds < 0 then none
  else some nfds.toNat

/-- `select` for a time-out in milliseconds, for a number of rounds. -/
def select (devices : UInt32 → WinDevice) (node : Nat → WinVnode) (fuel : Nat)
    (rounds : Nat → PollRound) (nfds : Int) (sets : FdSets) (timeOut : UInt32) : Option Selected :=
  let fds := sets.pollfds
  match (selectCount nfds).bind fun n => pollfdWin node (fds.take n) with
  | none => some ⟨-(einval : Int), sets, fds, timeOut⟩
  | some slots =>
      match vfsPoll devices fuel rounds timeOut slots with
      | none => none
      | some (.error e, polled) =>
          some ⟨-(errnoPosix e : Int), sets, polled.map PollSlot.entry ++ fds.drop slots.length,
            timeOut⟩
      | some (.ok (_, left), polled) =>
          let fds := polled.map PollSlot.entry ++ fds.drop slots.length
          some ⟨(sets.select fds .error).1 + (sets.select fds .write).1 + (sets.select fds .read).1,
            fun kind => (sets.select fds kind).2, fds, left⟩

/-! ### What a caller may expect -/

/-- The number of bits of a set. -/
def FdSets.bits (sets : FdSets) (kind : FdKind) : Nat := ((sets kind).getD ∅).card

/-- The result of a descriptor is one that the set stands for. -/
def Hit (fds : List PollFd) (kind : FdKind) (fd : Nat) : Prop :=
  ∃ p, fds[fd]? = some p ∧ p.revents &&& kind.flags ≠ 0

/-- The result is the number of bits of the sets, which are parts of the sets
that were passed in, and nothing is counted in a set that was not asked for. -/
structure Selects (given : FdSets) (out : Selected) : Prop where
  total : out.result = out.sets.bits .error + out.sets.bits .write + out.sets.bits .read
  subset : ∀ kind set, out.sets kind = some set → ∃ asked, given kind = some asked ∧ set ⊆ asked
  own : ∀ kind set, given kind = some set → ∀ fd, Hit out.fds kind fd → fd ∈ set

/-- What the device of a descriptor tells without being asked. -/
def raises (devices : UInt32 → WinDevice) (os : PollAnswers) (node : WinVnode) : UInt16 :=
  match pollKind devices node with
  | none => 0
  | some kind => kind.raised os

/-- All descriptors can be polled, and when the call ends no device of a
descriptor that is polled tells what only another set stands for. -/
structure Selectable (devices : UInt32 → WinDevice) (node : Nat → WinVnode)
    (rounds : Nat → PollRound) (nfds : Int) (sets : FdSets) (timeOut : UInt32) : Prop where
  low : ∀ kind set, sets kind = some set → ∀ fd ∈ set, fd < wsaMaximumWaitEvents
  asked : ∀ n r, selectCount nfds = some n →
    Ends devices r rounds timeOut ((sets.pollfds.take n).map (pollSlot node)) →
      ∀ fd < n, (∃ kind, sets.asks kind fd = true) → ∀ kind set, sets kind = some set → fd ∉ set →
        raises devices ((rounds r).poll fd) (node fd) &&& kind.flags = 0

/-! ### The array -/

/-- The entry of a descriptor, by the sets that ask for it. -/
def askedFd (asked : FdKind → Bool) (fd : Nat) : PollFd where
  fd := if asked .read || asked .write || asked .error then fd else 0
  events := (((0 ||| if asked .read then FdKind.read.flags else 0) |||
    if asked .write then FdKind.write.flags else 0) |||
      if asked .error then FdKind.error.flags else 0)
  revents := 0

theorem poll_getElem? (sets : FdSets) (fds : List PollFd) (kind : FdKind) (fd : Nat) :
    (sets.poll fds kind)[fd]? = fds[fd]?.map fun p =>
      if sets.asks kind fd then { p with fd := fd, events := p.events ||| kind.flags } else p := by
  unfold FdSets.poll FdSets.asks
  cases sets kind with
  | none => simp
  | some set =>
      change (fdsetPoll fds set kind.flags)[fd]? = _
      rw [fdsetPoll, List.getElem?_mapIdx]
      simp only [decide_eq_true_eq]

theorem pollfds_getElem? (sets : FdSets) {fd : Nat} (h : fd < wsaMaximumWaitEvents) :
    sets.pollfds[fd]? = some (askedFd (sets.asks · fd) fd) := by
  have hzero : (List.replicate wsaMaximumWaitEvents (⟨0, 0, 0⟩ : PollFd))[fd]? =
      some ⟨0, 0, 0⟩ := List.getElem?_replicate_of_lt h
  change (sets.poll (sets.poll (sets.poll _ .read) .write) .error)[fd]? = _
  rw [poll_getElem?, poll_getElem?, poll_getElem?, hzero]
  unfold askedFd
  cases hr : sets.asks .read fd <;> cases hw : sets.asks .write fd <;>
    cases he : sets.asks .error fd <;> simp [hr, hw, he]

theorem poll_length (sets : FdSets) (fds : List PollFd) (kind : FdKind) :
    (sets.poll fds kind).length = fds.length := by
  unfold FdSets.poll
  cases sets kind with
  | none => rfl
  | some set => exact List.length_mapIdx

@[simp] theorem pollfds_length (sets : FdSets) : sets.pollfds.length = wsaMaximumWaitEvents := by
  change (sets.poll (sets.poll (sets.poll _ .read) .write) .error).length = _
  rw [poll_length, poll_length, poll_length, List.length_replicate]

section
variable {asked : FdKind → Bool} {fd : Nat}

theorem askedFd_events (h : ∃ kind, asked kind = true) : (askedFd asked fd).events ≠ 0 := by
  unfold askedFd
  cases hr : asked .read <;> cases hw : asked .write <;> cases he : asked .error
  case false.false.false =>
    obtain ⟨kind, hkind⟩ := h
    cases kind <;> simp_all
  all_goals exact nofun

theorem askedFd_fd (h : ∃ kind, asked kind = true) : (askedFd asked fd).fd = fd := by
  refine if_pos ?_
  obtain ⟨kind, hkind⟩ := h
  cases kind <;> simp [hkind]

theorem askedFd_none (h : ∀ kind, asked kind = false) : askedFd asked fd = ⟨0, 0, 0⟩ := by
  unfold askedFd
  rw [h .read, h .write, h .error]
  rfl

/-- The sets stand for different events. -/
theorem askedFd_unasked {kind : FdKind} (h : asked kind = false) :
    (askedFd asked fd).events &&& kind.flags = 0 := by
  unfold askedFd
  cases kind
  all_goals
    dsimp only
    rw [h]
    cases asked .read <;> cases asked .write <;> cases asked .error <;> decide

/-- A descriptor is polled if a set asks for it. -/
theorem pollSlot_asked (node : Nat → WinVnode) (h : ∃ kind, asked kind = true)
    (hfd : fd < wsaMaximumWaitEvents) :
    pollSlot node (askedFd asked fd) = ⟨askedFd asked fd, some (node fd), false⟩ := by
  have hlow : ¬ (fd : Int) < 0 := by omega
  have hhigh : ¬ (openMax : Int) ≤ fd := by
    change ¬ ((64 : Nat) : Int) ≤ fd
    change fd < 64 at hfd
    omega
  rw [pollSlot, askedFd_fd h, if_neg hlow, if_neg hhigh, if_pos (askedFd_events h)]
  rfl

end

/-! ### The sets after the call -/

/-- The descriptors that are counted in a set. -/
def hits (fds : List PollFd) (kind : FdKind) : Finset Nat :=
  (Finset.range fds.length).filter fun fd =>
    ((fds[fd]?.map PollFd.revents).getD 0) &&& kind.flags ≠ 0

theorem mem_hits {fds : List PollFd} {kind : FdKind} {fd : Nat} :
    fd ∈ hits fds kind ↔ Hit fds kind fd := by
  rw [hits, Finset.mem_filter, Finset.mem_range]
  constructor
  · rintro ⟨hlt, hrev⟩
    rw [List.getElem?_eq_getElem hlt] at hrev
    exact ⟨fds[fd], List.getElem?_eq_getElem hlt, hrev⟩
  · rintro ⟨p, hp, hrev⟩
    obtain ⟨hlt, -⟩ := List.getElem?_eq_some_iff.mp hp
    rw [hp]
    exact ⟨hlt, hrev⟩

theorem hit_cons_succ {p : PollFd} {fds : List PollFd} {kind : FdKind} {fd : Nat} :
    Hit (p :: fds) kind (fd + 1) ↔ Hit fds kind fd := Iff.rfl

theorem hit_cons_zero {p : PollFd} {fds : List PollFd} {kind : FdKind} :
    Hit (p :: fds) kind 0 ↔ p.revents &&& kind.flags ≠ 0 :=
  ⟨fun ⟨_, hq, hrev⟩ => Option.some.inj hq ▸ hrev, fun h => ⟨p, rfl, h⟩⟩

/-- A set keeps the descriptors that are counted, and those beyond the array. -/
theorem mem_fdsetSelect (kind : FdKind) (fds : List PollFd) (start fd : Nat) (set : Finset Nat) :
    fd ∈ (fdsetSelect kind.flags start fds set).2 ↔
      fd ∈ set ∧ (fd < start ∨ start + fds.length ≤ fd ∨ Hit fds kind (fd - start)) := by
  induction fds generalizing start set with
  | nil =>
      refine ⟨fun h => ⟨h, ?_⟩, fun h => h.1⟩
      rw [List.length_nil]
      omega
  | cons p fds ih =>
      have hnext : ∀ {P : Prop}, start < fd → ((fd < start + 1 ∨ start + 1 + fds.length ≤ fd ∨ P) ↔
          (fd < start ∨ start + (fds.length + 1) ≤ fd ∨ P)) := by
        intro P hlt
        constructor <;> rintro (h | h | h) <;> first | exact .inr (.inr h) | omega
      have hhit : start < fd →
          (Hit fds kind (fd - (start + 1)) ↔ Hit (p :: fds) kind (fd - start)) := by
        intro hlt
        rw [show fd - start = fd - (start + 1) + 1 by omega, hit_cons_succ]
      rw [fdsetSelect, List.length_cons]
      -- a descriptor is before the entry at hand, is its own, or comes later
      rcases Nat.lt_trichotomy fd start with hlt | rfl | hlt
      · split_ifs
        · rw [ih]
          exact and_congr_right fun _ => ⟨fun _ => .inl hlt, fun _ => .inl (by omega)⟩
        · rw [ih, Finset.mem_erase]
          constructor
          · rintro ⟨⟨-, hmem⟩, -⟩
            exact ⟨hmem, .inl hlt⟩
          · rintro ⟨hmem, -⟩
            exact ⟨⟨by omega, hmem⟩, .inl (by omega)⟩
      · rw [Nat.sub_self, hit_cons_zero]
        split_ifs with hrev
        · rw [ih]
          exact and_congr_right fun _ => ⟨fun _ => .inr (.inr hrev), fun _ => .inl (by omega)⟩
        · rw [ih, Finset.mem_erase]
          constructor
          · rintro ⟨⟨hne, -⟩, -⟩
            exact absurd rfl hne
          · rintro ⟨-, h | h | h⟩
            · omega
            · omega
            · exact absurd h hrev
      · split_ifs
        · rw [ih, hnext hlt, hhit hlt]
        · rw [ih, hnext hlt, hhit hlt, Finset.mem_erase]
          exact and_congr_left fun _ => and_iff_right (by omega)

theorem fdsetSelect_count (kind : FdKind) (fds : List PollFd) (start : Nat) (set : Finset Nat) :
    (fdsetSelect kind.flags start fds set).1 =
      fds.countP fun p => p.revents &&& kind.flags ≠ 0 := by
  induction fds generalizing start set with
  | nil => rfl
  | cons p fds ih =>
      rw [fdsetSelect, List.countP_cons]
      by_cases hrev : p.revents &&& kind.flags ≠ 0
      · rw [if_pos hrev, if_pos (decide_eq_true hrev)]
        exact congrArg (· + 1) (ih _ _)
      · rw [if_neg hrev, if_neg (by simpa using hrev), Nat.add_zero]
        exact ih _ _

theorem card_hits (fds : List PollFd) (kind : FdKind) :
    (hits fds kind).card = fds.countP fun p => p.revents &&& kind.flags ≠ 0 := by
  induction fds with
  | nil => rfl
  | cons p fds ih =>
      have hcount := Nat.count_succ'
        (fun fd => (((p :: fds)[fd]?.map PollFd.revents).getD 0) &&& kind.flags ≠ 0) fds.length
      rw [hits, ← Nat.count_eq_card_filter_range] at ih ⊢
      rw [List.length_cons, hcount, List.countP_cons, ← ih]
      exact congrArg₂ (· + ·) rfl (if_congr (by simp) rfl rfl)

/-- If a set is only counted in where it asks, it keeps what was counted and
what is beyond the array. -/
theorem card_fdsetSelect {kind : FdKind} {fds : List PollFd} {set : Finset Nat}
    (hown : ∀ fd, Hit fds kind fd → fd ∈ set) :
    (fdsetSelect kind.flags 0 fds set).2.card =
      (fdsetSelect kind.flags 0 fds set).1 + (set.filter (fds.length ≤ ·)).card := by
  have hset : (fdsetSelect kind.flags 0 fds set).2 =
      hits fds kind ∪ set.filter (fds.length ≤ ·) := by
    ext fd
    rw [mem_fdsetSelect, Finset.mem_union, mem_hits, Finset.mem_filter, Nat.sub_zero, Nat.zero_add]
    constructor
    · rintro ⟨hmem, h | h | h⟩
      · omega
      · exact .inr ⟨hmem, h⟩
      · exact .inl h
    · rintro (h | ⟨hmem, h⟩)
      · exact ⟨hown fd h, .inr (.inr h)⟩
      · exact ⟨hmem, .inr (.inl h)⟩
  have hdisjoint : Disjoint (hits fds kind) (set.filter (fds.length ≤ ·)) := by
    rw [Finset.disjoint_left]
    intro fd hhit hhigh
    have hlt := Finset.mem_range.mp (Finset.mem_filter.mp hhit).1
    have hle := (Finset.mem_filter.mp hhigh).2
    omega
  rw [hset, Finset.card_union_of_disjoint hdisjoint, card_hits, fdsetSelect_count]

theorem select_subset {sets : FdSets} {fds : List PollFd} {kind : FdKind} {set' : Finset Nat}
    (h : (sets.select fds kind).2 = some set') :
    ∃ asked, sets kind = some asked ∧ set' ⊆ asked := by
  unfold FdSets.select at h
  cases hset : sets kind with
  | none =>
      rw [hset] at h
      cases h
  | some set =>
      rw [hset] at h
      refine ⟨set, rfl, fun fd hfd => ?_⟩
      obtain rfl := Option.some.inj h
      exact ((mem_fdsetSelect kind fds 0 fd set).mp hfd).1

/-- The descriptors of a set that are beyond the array. -/
def FdSets.above (sets : FdSets) (n : Nat) (kind : FdKind) : Nat :=
  (((sets kind).getD ∅).filter (n ≤ ·)).card

theorem bits_select {sets : FdSets} {fds : List PollFd} {kind : FdKind}
    (hown : ∀ set, sets kind = some set → ∀ fd, Hit fds kind fd → fd ∈ set) :
    ((sets.select fds kind).2.getD ∅).card =
      (sets.select fds kind).1 + sets.above fds.length kind := by
  unfold FdSets.select FdSets.above
  cases hset : sets kind with
  | none => rfl
  | some set => exact card_fdsetSelect (hown set hset)

theorem above_eq_zero_iff (sets : FdSets) (n : Nat) (kind : FdKind) :
    sets.above n kind = 0 ↔ ∀ set, sets kind = some set → ∀ fd ∈ set, fd < n := by
  unfold FdSets.above
  rw [Finset.card_eq_zero, Finset.filter_eq_empty_iff]
  cases hset : sets kind with
  | none => simp
  | some set => simp

/-! ### What the array holds after the call -/

section
variable {devices : UInt32 → WinDevice} {node : Nat → WinVnode} {fuel : Nat}
  {rounds : Nat → PollRound} {nfds : Int} {sets : FdSets} {timeOut : UInt32} {out : Selected}

theorem selectCount_le {n : Nat} (h : selectCount nfds = some n) : n ≤ wsaMaximumWaitEvents := by
  rw [selectCount] at h
  split_ifs at h <;> cases h <;> omega

/-- What a call that succeeds returns, by what the rounds of polling leave. -/
theorem select_some (h : select devices node fuel rounds nfds sets timeOut = some out)
    (hok : 0 ≤ out.result) :
    ∃ n count left polled, selectCount nfds = some n ∧
      vfsPoll devices fuel rounds timeOut ((sets.pollfds.take n).map (pollSlot node)) =
        some (.ok (count, left), polled) ∧
      out.fds = polled.map PollSlot.entry ++ sets.pollfds.drop n ∧
      out.result = (sets.select out.fds .error).1 + (sets.select out.fds .write).1 +
        (sets.select out.fds .read).1 ∧
      out.sets = fun kind => (sets.select out.fds kind).2 := by
  unfold select at h
  cases hcount : selectCount nfds with
  | none =>
      rw [hcount] at h
      cases h
      exact absurd hok (show ¬ (0 : Int) ≤ -(einval : Int) by decide)
  | some n =>
      have hle := selectCount_le hcount
      have hlen : (sets.pollfds.take n).length = n := by
        rw [List.length_take, pollfds_length]
        omega
      -- no more than the sets have bits are asked for, and these all have a slot
      have hwin : pollfdWin node (sets.pollfds.take n) =
          some ((sets.pollfds.take n).map (pollSlot node)) :=
        if_neg (by omega)
      simp only [hcount, Option.bind_some, hwin, List.length_map, hlen] at h
      refine ⟨n, ?_⟩
      cases hvfs : vfsPoll devices fuel rounds timeOut
          ((sets.pollfds.take n).map (pollSlot node)) with
      | none =>
          rw [hvfs] at h
          cases h
      | some found =>
          obtain ⟨result, polled⟩ := found
          rw [hvfs] at h
          cases result with
          | error e =>
              cases h
              have he := e.2
              change 0 ≤ -(errnoPosix e.1 : Int) at hok
              omega
          | ok pair =>
              obtain ⟨count, left⟩ := pair
              cases h
              exact ⟨count, left, polled, rfl, rfl, rfl, rfl, rfl⟩

/-- A result that a set did not ask for is one that the device tells anyway. -/
theorem hit_unasked {n count : Nat} {left : UInt32} {polled : List PollSlot} {fds : List PollFd}
    (hn : n ≤ wsaMaximumWaitEvents)
    (hvfs : vfsPoll devices fuel rounds timeOut ((sets.pollfds.take n).map (pollSlot node)) =
      some (.ok (count, left), polled))
    (hfds : fds = polled.map PollSlot.entry ++ sets.pollfds.drop n) :
    ∃ r, (∀ r', Ends devices r' rounds timeOut ((sets.pollfds.take n).map (pollSlot node)) ↔
        r' = r) ∧
      ∀ kind fd, sets.asks kind fd = false → (Hit fds kind fd ↔
        fd < n ∧ (∃ kind', sets.asks kind' fd = true) ∧
          raises devices ((rounds r).poll fd) (node fd) &&& kind.flags ≠ 0) := by
  obtain ⟨r, hends, hslots⟩ := vfsPoll_endsAs hvfs
  have hlen : (polled.map PollSlot.entry).length = n := by
    rw [List.length_map, vfsPoll_length hvfs, List.length_map, List.length_take, pollfds_length]
    omega
  refine ⟨r, hends, fun kind fd hasks => ?_⟩
  by_cases hlt : fd < n
  · have hentry : ((sets.pollfds.take n).map (pollSlot node))[fd]? =
        some (pollSlot node (askedFd (sets.asks · fd) fd)) := by
      rw [List.getElem?_map, List.getElem?_take_of_lt hlt, pollfds_getElem? sets (by omega)]
      rfl
    obtain ⟨slot, hslot, hends'⟩ := hslots fd _ hentry
    have hfd : fds[fd]? = some slot.entry := by
      rw [hfds, List.getElem?_append_left (by omega), List.getElem?_map, hslot]
      rfl
    have hhit : Hit fds kind fd ↔ slot.entry.revents &&& kind.flags ≠ 0 :=
      ⟨fun ⟨p, hp, hrev⟩ => by
        rw [hfd] at hp
        exact Option.some.inj hp ▸ hrev, fun hrev => ⟨_, hfd, hrev⟩⟩
    rw [hhit, and_iff_right hlt]
    by_cases hany : ∃ kind', sets.asks kind' fd = true
    · rw [pollSlot_asked node hany (by omega)] at hends'
      obtain ⟨found, stored, hkind, hstatus, hrev⟩ := hends'
      let info : PollFd := { askedFd (sets.asks · fd) fd with revents := stored }
      have hflags : (askedFd (sets.asks · fd) fd).events &&& kind.flags = 0 := askedFd_unasked hasks
      have hinfo : info.events &&& kind.flags = 0 := hflags
      rw [hrev, PollKind.poll_unasked hstatus hinfo, and_iff_right hany, raises, hkind]
    · have hnone : ∀ kind', sets.asks kind' fd = false := fun kind' => by
        simpa using not_exists.mp hany kind'
      rw [askedFd_none hnone] at hends'
      obtain rfl : slot = ⟨⟨0, 0, 0⟩, none, false⟩ := hends'
      exact ⟨fun h => absurd (UInt16.zero_and) h, fun h => absurd h.1 hany⟩
  · -- The descriptor is not polled: its entry is as it was made.
    refine ⟨?_, fun h => absurd h.1 hlt⟩
    rintro ⟨p, hp, hrev⟩
    rw [hfds, List.getElem?_append_right (by omega), hlen, List.getElem?_drop,
      show n + (fd - n) = fd by omega] at hp
    obtain ⟨hhigh, -⟩ := List.getElem?_eq_some_iff.mp hp
    rw [pollfds_length] at hhigh
    rw [pollfds_getElem? sets hhigh] at hp
    cases hp
    exact absurd UInt16.zero_and hrev

/-- The call does what a caller may expect exactly when it can. -/
theorem selects_iff (h : select devices node fuel rounds nfds sets timeOut = some out)
    (hok : 0 ≤ out.result) :
    Selects sets out ↔ Selectable devices node rounds nfds sets timeOut := by
  obtain ⟨n, count, left, polled, hcount, hvfs, hfds, hresult, hsets⟩ := select_some h hok
  have hn := selectCount_le hcount
  obtain ⟨r, hends, hhit⟩ := hit_unasked hn hvfs hfds
  have hlen : out.fds.length = wsaMaximumWaitEvents := by
    rw [hfds, List.length_append, List.length_map, vfsPoll_length hvfs, List.length_map,
      List.length_take, List.length_drop, pollfds_length]
    omega
  have hasks : ∀ {kind set fd}, sets kind = some set → (sets.asks kind fd = false ↔ fd ∉ set) := by
    intro kind set fd hset
    rw [FdSets.asks, hset]
    exact decide_eq_false_iff_not
  -- as long as no foreign bit is raised, the result counts what is left in the sets
  have hbits : (∀ kind set, sets kind = some set → ∀ fd, Hit out.fds kind fd → fd ∈ set) →
      ∀ kind, out.sets.bits kind =
        (sets.select out.fds kind).1 + sets.above wsaMaximumWaitEvents kind := by
    intro hown kind
    rw [FdSets.bits, hsets, ← hlen]
    exact bits_select (hown kind)
  constructor
  · rintro ⟨htotal, -, hown⟩
    have habove : ∀ kind, sets.above wsaMaximumWaitEvents kind = 0 := by
      rw [hbits hown, hbits hown, hbits hown, hresult] at htotal
      intro kind
      cases kind <;> omega
    refine ⟨fun kind => (above_eq_zero_iff sets _ kind).mp (habove kind), ?_⟩
    intro n' r' hcount' hends' fd hfd hany kind set hset hnot
    obtain rfl : n = n' := Option.some.inj (hcount.symm.trans hcount')
    obtain rfl := (hends r').mp hends'
    by_contra hraised
    exact hnot (hown kind set hset fd ((hhit kind fd ((hasks hset).mpr hnot)).mpr
      ⟨hfd, hany, hraised⟩))
  · rintro ⟨hlow, hasked⟩
    have hown : ∀ kind set, sets kind = some set → ∀ fd, Hit out.fds kind fd → fd ∈ set := by
      intro kind set hset fd hfd
      by_contra hnot
      obtain ⟨hlt, hany, hraised⟩ := (hhit kind fd ((hasks hset).mpr hnot)).mp hfd
      exact hraised (hasked n r hcount ((hends r).mpr rfl) fd hlt hany kind set hset hnot)
    have habove : ∀ kind, sets.above wsaMaximumWaitEvents kind = 0 :=
      fun kind => (above_eq_zero_iff sets _ kind).mpr (hlow kind)
    refine ⟨?_, ?_, hown⟩
    · rw [hbits hown, hbits hown, hbits hown, habove, habove, habove, hresult]
      simp
    · intro kind set' hset'
      rw [hsets] at hset'
      exact select_subset hset'

end

/-! ### A pipe without a reader -/

def fifoNode : WinVnode := { WinVnode.zero with fsType := .pipe, fileType := .vfifo }

/-- The other end of the pipe is closed. -/
def brokenRound : PollRound :=
  { idleRound with poll := fun _ => { idle with peekPipe := .error errorBrokenPipe } }

/-- Descriptor 0 asks to be written to, and no descriptor to be read from. -/
def writeOnly : FdSets
  | .read => some ∅
  | .write => some {0}
  | .error => none

/-- Descriptor 0 asks to be read from, and nothing else is asked. -/
def readOnly : FdSets
  | .read => some {0}
  | .write => none
  | .error => none

theorem selects_iff_file :
    ∃ out, select (fun _ => noDevice) (fun _ => fileNode) 1 (fun _ => idleRound) 1 readOnly 0 =
      some out ∧ (Selects readOnly out ↔
        Selectable (fun _ => noDevice) (fun _ => fileNode) (fun _ => idleRound) 1 readOnly 0) := by
  obtain ⟨out, hout, hok⟩ : ∃ out, select (fun _ => noDevice) (fun _ => fileNode) 1
      (fun _ => idleRound) 1 readOnly 0 = some out ∧ 0 ≤ out.result := ⟨_, rfl, by decide⟩
  exact ⟨out, hout, selects_iff hout hok⟩

/-- The hang-up is counted in the set of those that are read from, and the
descriptor is in no set. -/
theorem hangup_counted_elsewhere :
    ∃ out, select (fun _ => noDevice) (fun _ => fifoNode) 1 (fun _ => brokenRound) 1 writeOnly 0 =
      some out ∧ out.result = 1 ∧ out.sets.bits .error = 0 ∧ out.sets.bits .write = 0 ∧
        out.sets.bits .read = 0 ∧ ¬ Selects writeOnly out := by
  refine ⟨_, rfl, by decide, by decide, by decide, by decide, fun h => ?_⟩
  have htotal := h.total
  revert htotal
  decide

end MinC.Sys
