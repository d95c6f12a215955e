import Mathlib.Logic.Function.Basic

/-!
Tables of numbered slots, the search for a free one, and loops over all of them.

The search goes up from a start and gives up after a number of slots. What it
finds is described by `LowestFree`, which does not mention the search: two
tables with the same free slots have the same lowest free one.

A sweep visits the slots once, in their order. What it does to a slot is decided
at the turn of that slot, and later turns leave it. A property that a slot has
after its turn exactly when a condition is met before it, and that later turns
keep, is therefore had by every slot, from its turn on, exactly when the
condition is met at every turn.
-/

namespace MinC.Lib

/-- The first free slot among the `n` slots from the given one on. -/
def firstFree (free : Nat → Bool) : Nat → Nat → Option Nat
  | 0, _ => none
  | n + 1, i => if free i then some i else firstFree free n (i + 1)

/-- A slot is the lowest free one in a range. -/
structure LowestFree (free : Nat → Bool) (low high slot : Nat) : Prop where
  low_le : low ≤ slot
  lt_high : slot < high
  isFree : free slot = true
  least : ∀ i, low ≤ i → i < slot → free i = false

theorem firstFree_some {free : Nat → Bool} {n i slot : Nat}
    (h : firstFree free n i = some slot) : LowestFree free i (i + n) slot := by
  induction n generalizing i with
  | zero => simp [firstFree] at h
  | succ n ih =>
      by_cases hfree : free i = true
      · have hslot : i = slot := by simpa [firstFree, hfree] using h
        subst hslot
        exact ⟨Nat.le_refl i, by omega, hfree, fun j hij hji => by omega⟩
      · have hnext := ih (by simpa [firstFree, hfree] using h)
        refine ⟨by have := hnext.low_le; omega, by have := hnext.lt_high; omega,
          hnext.isFree, ?_⟩
        intro j hij hj
        rcases Nat.eq_or_lt_of_le hij with heq | hlt
        · subst heq
          simpa using hfree
        · exact hnext.least j hlt hj

theorem firstFree_none {free : Nat → Bool} {n i : Nat} (h : firstFree free n i = none) :
    ∀ j, i ≤ j → j < i + n → free j = false := by
  induction n generalizing i with
  | zero =>
      intro j hij hj
      omega
  | succ n ih =>
      by_cases hfree : free i = true
      · simp [firstFree, hfree] at h
      · have hrest := ih (by simpa [firstFree, hfree] using h)
        intro j hij hj
        rcases Nat.eq_or_lt_of_le hij with heq | hlt
        · subst heq
          simpa using hfree
        · exact hrest j hlt (by omega)

/-- The search stops at the lowest free slot. -/
theorem firstFree_of_lowest {free : Nat → Bool} {n i slot : Nat}
    (h : LowestFree free i (i + n) slot) : firstFree free n i = some slot := by
  cases hsearch : firstFree free n i with
  | none =>
      have hbusy := firstFree_none hsearch slot h.low_le h.lt_high
      rw [h.isFree] at hbusy
      cases hbusy
  | some slot' =>
      have h' := firstFree_some hsearch
      rcases Nat.lt_trichotomy slot slot' with hlt | heq | hgt
      · have hbusy := h'.least slot h.low_le hlt
        rw [h.isFree] at hbusy
        cases hbusy
      · rw [heq]
      · have hbusy := h.least slot' h'.low_le hgt
        rw [h'.isFree] at hbusy
        cases hbusy

/-! ### Sweeps -/

section
variable {σ : Type*}

/-- The state before the turn of a slot, if the sweep starts at slot zero. -/
def sweep (turn : σ → Nat → σ) (s : σ) : Nat → σ
  | 0 => s
  | n + 1 => turn (sweep turn s n) n

@[simp] theorem sweep_zero (turn : σ → Nat → σ) (s : σ) : sweep turn s 0 = s := rfl

@[simp] theorem sweep_succ (turn : σ → Nat → σ) (s : σ) (n : Nat) :
    sweep turn s (n + 1) = turn (sweep turn s n) n := rfl

theorem sweep_invariant {turn : σ → Nat → σ} (I : Nat → σ → Prop)
    (hturn : ∀ i s, I i s → I (i + 1) (turn s i)) {s : σ} (hs : I 0 s) (n : Nat) :
    I n (sweep turn s n) := by
  induction n with
  | zero => exact hs
  | succ n ih => exact hturn n _ ih

/-- Every slot has the property from its turn on. -/
def FromTurnOn (turn : σ → Nat → σ) (Q : σ → Nat → Prop) (s : σ) (n : Nat) : Prop :=
  ∀ i k, i < k → k ≤ n → Q (sweep turn s k) i

theorem fromTurnOn_iff {turn : σ → Nat → σ} (I : Nat → σ → Prop) {Q C : σ → Nat → Prop}
    {s : σ} (hs : I 0 s) (hinv : ∀ i s, I i s → I (i + 1) (turn s i))
    (hturn : ∀ i s, I i s → (Q (turn s i) i ↔ C s i))
    (hkeep : ∀ i j s, i < j → I j s → Q s i → Q (turn s j) i) (n : Nat) :
    FromTurnOn turn Q s n ↔ ∀ i, i < n → C (sweep turn s i) i := by
  have hI : ∀ i, I i (sweep turn s i) := fun i => sweep_invariant I hinv hs i
  constructor
  · intro h i hi
    exact (hturn i _ (hI i)).mp (h i (i + 1) (Nat.lt_succ_self i) hi)
  · intro h i k hik hkn
    induction k with
    | zero => exact absurd hik (Nat.not_lt_zero i)
    | succ k ih =>
        rcases Nat.lt_succ_iff_lt_or_eq.mp hik with hlt | heq
        · exact hkeep i k _ hlt (hI k) (ih hlt (Nat.le_of_lt hkn))
        · subst heq
          exact (hturn i _ (hI i)).mpr (h i hkn)

end

end MinC.Lib
