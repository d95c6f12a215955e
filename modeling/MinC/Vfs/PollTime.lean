import MinC.Lib.Bits
import MinC.Lib.Runs
import MinC.Vfs.PollRounds

/-!
The time that is left of a time-out.

A wait is measured by two readings of a counter of 32 bits, which are widened
before they are subtracted. When the counter wraps in between, the difference
is too small by all its range: the time-out is then left as it should be only if
it was not used up, and an endless one becomes the time since the wrap.
-/

namespace MinC.Vfs

open MinC.Lib

/-! ### Readings -/

/-- `GetTickCount` before and after a wait. -/
structure Ticks where
  before : UInt32
  after : UInt32
  deriving DecidableEq

namespace Ticks

variable (t : Ticks)

/-- The difference of the readings as `LONGLONG`s. -/
def between : Int := (t.after.toNat : Int) - t.before.toNat

/-- The time that passed, which is less than the counter's range. -/
def elapsed : Nat := (t.after - t.before).toNat

/-- The counter came back to zero. -/
def Wraps : Prop := t.after < t.before

instance : Decidable t.Wraps := inferInstanceAs (Decidable (_ < _))

/-- What is stored as the rest of a time-out. -/
def left (timeOut : UInt32) : UInt32 := pollWait timeOut t.between

end Ticks

/-- The rest is the time that has not passed, and there is no end to an endless
wait. -/
structure KeepsTime (timeOut : UInt32) (t : Ticks) : Prop where
  le : t.left timeOut ≤ timeOut
  rest : timeOut ≠ infinite → (t.left timeOut).toNat = timeOut.toNat - t.elapsed
  endless : timeOut = infinite → t.left timeOut = infinite

/-- If the counter wraps, the time-out is not used up; an endless one lasts one
tick. -/
def InTime (timeOut : UInt32) (t : Ticks) : Prop :=
  t.Wraps → if timeOut = infinite then t.elapsed = 1 else t.elapsed ≤ timeOut.toNat

/-! ### One wait -/

section
variable {timeOut : UInt32} {t : Ticks}

theorem Ticks.elapsed_of_not_wraps (h : ¬ t.Wraps) : (t.elapsed : Int) = t.between := by
  have hle : t.before ≤ t.after := UInt32.not_lt.mp h
  have hnat := UInt32.le_iff_toNat_le.mp hle
  rw [elapsed, UInt32.toNat_sub_of_le _ _ hle, between]
  omega

theorem Ticks.elapsed_of_wraps (h : t.Wraps) : (t.elapsed : Int) = t.between + 0x100000000 := by
  have hlt := UInt32.lt_iff_toNat_lt.mp h
  have hbefore := t.before.toNat_lt
  rw [elapsed, UInt32.toNat_sub, between]
  omega

theorem Ticks.between_neg_iff : t.between < 0 ↔ t.Wraps := by
  rw [Wraps, UInt32.lt_iff_toNat_lt, between]
  omega

theorem Ticks.elapsed_lt : t.elapsed < 0x100000000 := UInt32.toNat_lt _

/-- What is stored of a time-out that ends. -/
theorem Ticks.toNat_left (h : timeOut ≠ infinite) :
    ((t.left timeOut).toNat : Int) =
      if t.between < timeOut.toNat then (timeOut.toNat - t.between) % 0x100000000 else 0 := by
  unfold left pollWait
  simp only [h, ne_eq, not_false_iff, if_true, Int.sub_pos]
  split_ifs
  · exact u32_toNat_ofInt _
  · rfl

theorem Ticks.left_infinite :
    t.left infinite = if t.Wraps then UInt32.ofInt (-t.between) else infinite := by
  have hpos : 0 < -t.between ↔ t.Wraps := by
    rw [← between_neg_iff]
    omega
  have hsub : (0 : Int) - t.between = -t.between := Int.zero_sub _
  unfold left pollWait
  simp only [ne_eq, not_true_eq_false, if_false, Int.cast_ofNat_Int, hsub, hpos]

/-- An endless wait stays so unless the counter wraps, which turns it into the
time since then. -/
theorem keepsTime_infinite_iff : KeepsTime infinite t ↔ InTime infinite t := by
  have hendless : KeepsTime infinite t ↔ t.left infinite = infinite :=
    ⟨fun h => h.endless rfl,
      fun h => ⟨by rw [h]; exact UInt32.le_refl _, fun hne => absurd rfl hne, fun _ => h⟩⟩
  rw [hendless, Ticks.left_infinite, InTime, if_pos rfl]
  by_cases hwraps : t.Wraps
  · have helapsed := Ticks.elapsed_of_wraps hwraps
    have hneg := Ticks.between_neg_iff.mpr hwraps
    have hrange := Ticks.elapsed_lt (t := t)
    have hleft := u32_toNat_ofInt (-t.between)
    have hmost : infinite.toNat = 0xFFFFFFFF := rfl
    rw [if_pos hwraps, ← UInt32.toNat_inj, hmost]
    simp only [hwraps, forall_const]
    omega
  · rw [if_neg hwraps]
    exact iff_of_true rfl fun h => absurd h hwraps

/-- Where the counter wraps, what is stored is the time that is left, if there
is any, and otherwise larger by the counter's range. -/
theorem keepsTime_iff_of_ne (h : timeOut ≠ infinite) :
    KeepsTime timeOut t ↔ InTime timeOut t := by
  have hrest : KeepsTime timeOut t ↔ (t.left timeOut).toNat = timeOut.toNat - t.elapsed := by
    refine ⟨fun hkeeps => hkeeps.rest h, fun hrest => ⟨?_, fun _ => hrest, fun hinf => absurd hinf h⟩⟩
    rw [UInt32.le_iff_toNat_le, hrest]
    exact Nat.sub_le _ _
  have hleft := Ticks.toNat_left (t := t) h
  have hlt := timeOut.toNat_lt
  rw [hrest, InTime, if_neg h]
  by_cases hwraps : t.Wraps
  · have helapsed := Ticks.elapsed_of_wraps hwraps
    have hneg := Ticks.between_neg_iff.mpr hwraps
    rw [if_pos (by omega)] at hleft
    simp only [hwraps, forall_const]
    omega
  · have helapsed := Ticks.elapsed_of_not_wraps hwraps
    refine iff_of_true ?_ fun hw => absurd hw hwraps
    split_ifs at hleft <;> omega

/-- A wait keeps the time exactly if the counter does not wrap, or comes back
before the time is used up. -/
theorem keepsTime_iff (timeOut : UInt32) (t : Ticks) : KeepsTime timeOut t ↔ InTime timeOut t := by
  by_cases h : timeOut = infinite
  · subst h
    exact keepsTime_infinite_iff
  · exact keepsTime_iff_of_ne h

end

/-! ### All waits of a call -/

/-- One wait, as a step on the time that is left. -/
def waitStep (timeOut : UInt32) (t : Ticks) : UInt32 := t.left timeOut

/-- The time that passed in the waits. -/
def spent : List Ticks → Nat
  | [] => 0
  | t :: waits => t.elapsed + spent waits

/-- Every wait keeps the time, so that what was spent and what may be spent yet
is never more than the caller asked for. -/
structure NeverLonger (timeOut : UInt32) (waits : List Ticks) : Prop where
  each : Along waitStep KeepsTime timeOut waits
  whole : timeOut ≠ infinite → ∀ before, before <+: waits → run waitStep timeOut before ≠ 0 →
    spent before + (run waitStep timeOut before).toNat = timeOut.toNat

/-- A time-out that was used up stays so. -/
theorem run_waitStep_zero {waits : List Ticks} (h : Along waitStep KeepsTime 0 waits) :
    run waitStep 0 waits = 0 := by
  refine (along_of_invariant (I := (· = 0)) (P := fun _ _ => True) (fun timeOut t hzero hkeeps => ?_)
    (fun _ _ _ _ => trivial) rfl h).2
  subst hzero
  have hrest := hkeeps.rest (by decide)
  rw [show (0 : UInt32).toNat = 0 from rfl, Nat.zero_sub] at hrest
  exact UInt32.toNat_inj.mp hrest

theorem spent_add_left {timeOut : UInt32} (h : timeOut ≠ infinite) {waits : List Ticks}
    (hkeeps : Along waitStep KeepsTime timeOut waits) (hleft : run waitStep timeOut waits ≠ 0) :
    spent waits + (run waitStep timeOut waits).toNat = timeOut.toNat := by
  induction waits generalizing timeOut with
  | nil => exact Nat.zero_add _
  | cons t waits ih =>
      obtain ⟨hone, hrest⟩ := hkeeps
      rw [run_cons] at hleft ⊢
      have hrests : (waitStep timeOut t).toNat = timeOut.toNat - t.elapsed := hone.rest h
      have hnonzero : waitStep timeOut t ≠ 0 := by
        intro hzero
        rw [hzero] at hrest hleft
        exact hleft (run_waitStep_zero hrest)
      have hpos : (waitStep timeOut t).toNat ≠ 0 := fun hzero =>
        hnonzero (UInt32.toNat_inj.mp hzero)
      have hends : waitStep timeOut t ≠ infinite := by
        intro hinf
        have hle := UInt32.le_iff_toNat_le.mp hone.le
        have hlt := timeOut.toNat_lt
        have hmost : (waitStep timeOut t).toNat = 0xFFFFFFFF := congrArg UInt32.toNat hinf
        change (waitStep timeOut t).toNat ≤ _ at hle
        exact h (UInt32.toNat_inj.mp (show timeOut.toNat = 0xFFFFFFFF by omega))
      have hall := ih hends hrest hleft
      rw [spent]
      omega

theorem neverLonger_iff_each {timeOut : UInt32} {waits : List Ticks} :
    NeverLonger timeOut waits ↔ Along waitStep KeepsTime timeOut waits := by
  refine ⟨fun h => h.each, fun h => ⟨h, fun hends before hbefore hleft => ?_⟩⟩
  obtain ⟨after, rfl⟩ := hbefore
  exact spent_add_left hends (along_append.mp h).1 hleft

/-- What a call of `vfsPoll` leaves is what its waits left. -/
theorem vfsPoll_left {devices : UInt32 → WinDevice} {fuel : Nat} {rounds : Nat → PollRound}
    {ticks : Nat → Ticks}
    (hticks : ∀ r elapsed, (rounds r).wait = .ok elapsed → elapsed = (ticks r).between)
    {timeOut left : UInt32} {n : Nat} {slots slots' : List PollSlot}
    (h : vfsPoll devices fuel rounds timeOut slots = some (.ok (n, left), slots')) :
    ∃ r, Ends devices r rounds timeOut slots ∧
      left = run waitStep timeOut ((List.range r).map ticks) := by
  induction fuel generalizing rounds ticks timeOut slots with
  | zero => cases h
  | succ fuel ih =>
      rcases vfsPoll_cases h with ⟨-, ⟨e, he⟩, -⟩ | ⟨hpass, hend, heq, -⟩ |
        ⟨hpass, hquiet, htime, ⟨-, ⟨e, he⟩, -⟩ | ⟨fuel', elapsed, hfuel, hwait, hsignal, hrest⟩⟩
      · cases he
      · cases heq
        exact ⟨0, ⟨hpass, hend⟩, rfl⟩
      · cases he
      · cases hfuel
        obtain ⟨r, hends, hleft⟩ := ih (fun r => hticks (r + 1)) hrest
        refine ⟨r + 1, ⟨hpass, hquiet, htime, hsignal, elapsed, hwait, hends⟩, ?_⟩
        have hstep : pollWait timeOut elapsed = waitStep timeOut (ticks 0) := by
          rw [hticks 0 elapsed hwait]
          rfl
        rw [hleft, hstep, List.range_succ_eq_map, List.map_cons, List.map_map]
        rfl

/-- The loop of `vfsPoll`, whose waits are measured by these readings, leaves what
the waits before its last round left. -/
def LeftByWaits (timeOut : UInt32) (ticks : Nat → Ticks) : Prop :=
  ∀ (devices : UInt32 → WinDevice) (fuel : Nat) (rounds : Nat → PollRound) (n : Nat)
    (left : UInt32) (slots slots' : List PollSlot),
    (∀ r elapsed, (rounds r).wait = .ok elapsed → elapsed = (ticks r).between) →
    vfsPoll devices fuel rounds timeOut slots = some (.ok (n, left), slots') →
      ∃ r, Ends devices r rounds timeOut slots ∧
        left = run waitStep timeOut ((List.range r).map ticks)

/-- A call never waits longer than it was asked to exactly if all its waits are
in time; and these are the waits of the loop. -/
theorem neverLonger_iff (timeOut : UInt32) :
    (∀ waits : List Ticks,
      NeverLonger timeOut waits ↔ Along waitStep InTime timeOut waits) ∧
      ∀ ticks : Nat → Ticks, LeftByWaits timeOut ticks := by
  constructor
  · intro waits
    rw [neverLonger_iff_each, along_congr keepsTime_iff]
  · intro ticks devices fuel rounds n left slots slots' hticks h
    exact vfsPoll_left hticks h

/-- The counter wraps one tick before the end of a wait of 16 ticks that comes
back late, and during an endless one. -/
theorem waits_longer :
    ¬ NeverLonger 16 [⟨0xFFFFFFF0, 1⟩] ∧ ¬ NeverLonger infinite [⟨0xFFFFFFF0, 1⟩] := by
  constructor
  · intro h
    exact absurd h.each.1.le (by decide)
  · intro h
    exact absurd (h.each.1.endless rfl) (by decide)

end MinC.Vfs
