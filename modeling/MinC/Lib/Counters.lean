import Mathlib.Order.Bounds.Basic
import Mathlib.Tactic.SplitIfs

/-!
Counters that wrap.

A counter goes up in steps until a bound is reached, and wraps at a modulus that
is a multiple of the step. It stays on the multiples of the step, of which the
last one before the modulus is a step away from it. A bound behind that is never
reached, and any other is reached at the least multiple that is not below it.
-/

namespace MinC.Lib

variable {modulus step bound count : Nat}

/-- Count up to a bound. There is no result if it was not reached in so many turns. -/
def countUp (modulus step bound : Nat) : Nat → Nat → Option Nat
  | 0, _ => none
  | n + 1, count =>
      if count < bound then countUp modulus step bound n ((count + step) % modulus) else some count

/-- The multiples of the step that are not below the bound, nor below where the
counter is. -/
def Reached (step bound count : Nat) : Set Nat := {m | count ≤ m ∧ bound ≤ m ∧ step ∣ m}

theorem add_step_le (hmodulus : step ∣ modulus) (hcount : step ∣ count) (hlt : count < modulus) :
    count + step ≤ modulus := by
  obtain ⟨k, rfl⟩ := hmodulus
  obtain ⟨m, rfl⟩ := hcount
  rw [← Nat.mul_succ]
  exact Nat.mul_le_mul_left _ (Nat.lt_of_mul_lt_mul_left hlt)

/-- The multiples that are not below a counter under the bound are those that are not
below the next one. -/
theorem reached_add_step (hcount : step ∣ count) (hlt : count < bound) :
    Reached step bound (count + step) = Reached step bound count := by
  ext m
  refine ⟨fun h => ⟨Nat.le_trans (Nat.le_add_right _ _) h.1, h.2⟩, fun h => ⟨?_, h.2⟩⟩
  exact add_step_le h.2.2 hcount (Nat.lt_of_lt_of_le hlt h.2.1)

/-- A bound that is a step away from the modulus is reached. -/
theorem countUp_ends (hpos : 0 < step) (hcount : step ∣ count)
    (hbound : bound + step ≤ modulus) {n : Nat} (hn : bound ≤ count + n) :
    ∃ r, countUp modulus step bound (n + 1) count = some r ∧
      IsLeast (Reached step bound count) r := by
  induction n generalizing count with
  | zero =>
      refine ⟨count, ?_, ⟨Nat.le_refl _, hn, hcount⟩, fun m h => h.1⟩
      rw [countUp, if_neg (by omega)]
  | succ n ih =>
      rw [countUp]
      split_ifs with hlt
      · have hnext : (count + step) % modulus = count + step := Nat.mod_eq_of_lt (by omega)
        rw [hnext, ← reached_add_step hcount hlt]
        exact ih (Nat.dvd_add_self_right.mpr hcount) (by omega)
      · exact ⟨count, rfl, ⟨Nat.le_refl _, Nat.le_of_not_lt hlt, hcount⟩, fun m h => h.1⟩

/-- A bound that is less than a step away from the modulus is never reached. -/
theorem countUp_never (hmodulus : step ∣ modulus) (hcount : step ∣ count) (hlt : count < modulus)
    (hbound : modulus < bound + step) (n : Nat) : countUp modulus step bound n count = none := by
  induction n generalizing count with
  | zero => rfl
  | succ n ih =>
      have hbelow : count < bound := by
        have hle := add_step_le hmodulus hcount hlt
        omega
      rw [countUp, if_pos hbelow]
      -- behind the last multiple the counter begins again at zero
      refine ih ?_ (Nat.mod_lt _ (Nat.lt_of_le_of_lt (Nat.zero_le _) hlt))
      exact (Nat.dvd_mod_iff hmodulus).mpr (Nat.dvd_add_self_right.mpr hcount)

end MinC.Lib
