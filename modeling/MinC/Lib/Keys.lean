import Mathlib.Logic.Function.Basic

/-!
Tables that know their slots by keys.

A slot has a key or none. No two slots should have one key, so that two keys
are one exactly when their slots are; and a slot that has a key should keep it,
so that what was once said of a slot stays true.
-/

namespace MinC.Lib

variable {ι κ : Type*}

/-- No key belongs to two slots. -/
def OneSlotEach (key : ι → Option κ) : Prop :=
  ∀ i j k, key i = some k → key j = some k → i = j

/-- Every slot that had a key has it still. -/
def KeepsKeys (key key' : ι → Option κ) : Prop :=
  ∀ i k, key i = some k → key' i = some k

variable {key key' key'' : ι → Option κ}

theorem KeepsKeys.refl (key : ι → Option κ) : KeepsKeys key key := fun _ _ h => h

theorem KeepsKeys.trans (h : KeepsKeys key key') (h' : KeepsKeys key' key'') :
    KeepsKeys key key'' := fun i k hi => h' i k (h i k hi)

/-- Two slots are one exactly when their keys are. -/
theorem OneSlotEach.eq_iff (h : OneSlotEach key) {i j : ι} {a b : κ} (hi : key i = some a)
    (hj : key j = some b) : a = b ↔ i = j := by
  constructor
  · intro heq
    rw [heq] at hi
    exact h i j b hi hj
  · intro heq
    rw [heq, hj] at hi
    exact (Option.some.inj hi).symm

section
variable [DecidableEq ι]

/-- A slot may be given a key that no other slot has, or none. -/
theorem OneSlotEach.update (h : OneSlotEach key) {i : ι} {o : Option κ}
    (hnew : ∀ k, o = some k → ∀ j, j ≠ i → key j ≠ some k) :
    OneSlotEach (Function.update key i o) := by
  intro a b k ha hb
  by_cases hai : a = i
  · by_cases hbi : b = i
    · rw [hai, hbi]
    · rw [hai, Function.update_self] at ha
      rw [Function.update_of_ne hbi] at hb
      exact absurd hb (hnew k ha b hbi)
  · rw [Function.update_of_ne hai] at ha
    by_cases hbi : b = i
    · rw [hbi, Function.update_self] at hb
      exact absurd ha (hnew k hb a hai)
    · rw [Function.update_of_ne hbi] at hb
      exact h a b k ha hb

/-- No key is lost if the slot keeps the one that it had. -/
theorem KeepsKeys.update {i : ι} {o : Option κ} (h : ∀ k, key i = some k → o = some k) :
    KeepsKeys key (Function.update key i o) := by
  intro j k hj
  by_cases hji : j = i
  · rw [hji, Function.update_self]
    rw [hji] at hj
    exact h k hj
  · rw [Function.update_of_ne hji]
    exact hj

end

end MinC.Lib
