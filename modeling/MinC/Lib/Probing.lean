import Mathlib.Data.Finset.Card
import Mathlib.Data.Finset.Range
import Mathlib.Data.Nat.Find
import Mathlib.Logic.Function.Basic
import Mathlib.Tactic.SplitIfs

/-!
Tables that are searched downwards.

An item of a table has a key, and the key tells from which slot it is looked for:
from there downwards, and from the first slot on to the last, until it is found or
a slot is empty. Nothing is ever taken out, so that no slot between the one where a
search begins and the item is empty. As long as one slot is, every search ends, and
it ends at the item with the key or at a place where the item can be put.
-/

namespace MinC.Lib

/-- The slot that is looked at next. -/
def back (size i : Nat) : Nat := if i = 0 then size - 1 else i - 1

/-- The slot that is looked at after so many others. -/
def backs (size i : Nat) : Nat → Nat
  | 0 => i
  | k + 1 => back size (backs size i k)

/-- Search from a slot on for an empty one or for one whose item is wanted, in at most so
many slots. -/
def probe {ι : Type*} (slot : Nat → Option ι) (wanted : ι → Bool) (size : Nat) :
    Nat → Nat → Option Nat
  | 0, _ => none
  | turns + 1, i =>
      match slot i with
      | none => some i
      | some item => if wanted item then some i else probe slot wanted size turns (back size i)

/-! ### The order of a search -/

theorem back_lt {size i : Nat} (h : i < size) : back size i < size := by
  rw [back]
  split_ifs <;> omega

theorem backs_lt {size i : Nat} (h : i < size) (k : Nat) : backs size i k < size := by
  induction k with
  | zero => exact h
  | succ k ih => exact back_lt ih

theorem backs_back (size i k : Nat) : backs size (back size i) k = backs size i (k + 1) := by
  induction k with
  | zero => rfl
  | succ k ih =>
      rw [backs, ih]
      rfl

/-- Downwards as far as the first slot, and then from the last one. -/
theorem backs_eq {size i : Nat} (h : i < size) :
    ∀ k, k < size → backs size i k = if k ≤ i then i - k else i + size - k := by
  intro k
  induction k with
  | zero => intro _; rw [backs, if_pos (Nat.zero_le i), Nat.sub_zero]
  | succ k ih =>
      intro hk
      rw [backs, ih (by omega), back]
      split_ifs <;> omega

/-- A search comes to every slot. -/
theorem exists_backs {size i j : Nat} (hi : i < size) (hj : j < size) :
    ∃ k < size, backs size i k = j := by
  by_cases hle : j ≤ i
  · exact ⟨i - j, by omega, by rw [backs_eq hi _ (by omega), if_pos (by omega)]; omega⟩
  · exact ⟨i + size - j, by omega, by rw [backs_eq hi _ (by omega), if_neg (by omega)]; omega⟩

/-- What a search finds. -/
theorem probe_eq_some {ι : Type*} {slot : Nat → Option ι} {wanted : ι → Bool} {size turns i k : Nat}
    (hk : k < turns)
    (hstops : ∀ item, slot (backs size i k) = some item → wanted item = true)
    (hpasses : ∀ m < k, ∃ item, slot (backs size i m) = some item ∧ wanted item = false) :
    probe slot wanted size turns i = some (backs size i k) := by
  induction turns generalizing i k with
  | zero => omega
  | succ turns ih =>
      rw [probe]
      cases k with
      | zero =>
          cases hslot : slot i with
          | none => rfl
          | some item => exact if_pos (hstops item hslot)
      | succ k =>
          obtain ⟨item, hslot, hunwanted⟩ := hpasses 0 (Nat.succ_pos k)
          have hslot' : slot i = some item := hslot
          rw [hslot']
          dsimp only
          rw [hunwanted, if_neg Bool.false_ne_true, ← backs_back]
          refine ih (by omega) (fun item h => hstops item ?_) fun m hm => ?_
          · rw [← backs_back]
            exact h
          · rw [backs_back]
            exact hpasses (m + 1) (by omega)

/-! ### Tables -/

section
variable {ι κ : Type*} {slot : Nat → Option ι} {key : ι → κ} {home : κ → Nat} {size : Nat}

/-- The way from where a key is looked for to a slot has no empty slots. -/
def Reaches (slot : Nat → Option ι) (size start j : Nat) : Prop :=
  ∃ k < size, backs size start k = j ∧ ∀ m < k, (slot (backs size start m)).isSome = true

/-- Every item can be reached from where its key is looked for, and no two have one key. -/
structure Searchable (slot : Nat → Option ι) (key : ι → κ) (home : κ → Nat) (size : Nat) :
    Prop where
  reached : ∀ j < size, ∀ item, slot j = some item → Reaches slot size (home (key item)) j
  single : ∀ i < size, ∀ j < size, ∀ a b, slot i = some a → slot j = some b → key a = key b →
    i = j

theorem searchable_empty (key : ι → κ) (home : κ → Nat) (size : Nat) :
    Searchable (fun _ => none) key home size := by
  constructor <;> simp

/-- A search comes to the first slot of its way that is empty or has a wanted item. -/
theorem exists_probe (wanted : ι → Bool) {start : Nat} (hstart : start < size)
    (hroom : ∃ j < size, slot j = none) :
    ∃ j < size, probe slot wanted size size start = some j ∧ Reaches slot size start j ∧
      (∀ item, slot j = some item → wanted item = true) ∧
      (slot j = none → ∀ i < size, ∀ item, slot i = some item → Reaches slot size start i →
        wanted item = false) := by
  classical
  have hstops : ∃ k, k < size ∧ ∀ item, slot (backs size start k) = some item →
      wanted item = true := by
    obtain ⟨j, hj, hnone⟩ := hroom
    obtain ⟨k, hk, rfl⟩ := exists_backs hstart hj
    exact ⟨k, hk, fun item h => by cases hnone.symm.trans h⟩
  obtain ⟨hk, hstop⟩ := Nat.find_spec hstops
  have hbefore : ∀ m < Nat.find hstops, ∃ item, slot (backs size start m) = some item ∧
      wanted item = false := by
    intro m hm
    have hnot := Nat.find_min hstops hm
    push Not at hnot
    obtain ⟨item, hitem, hunwanted⟩ := hnot (hm.trans hk)
    exact ⟨item, hitem, Bool.eq_false_iff.mpr hunwanted⟩
  refine ⟨_, backs_lt hstart _, probe_eq_some hk hstop hbefore,
    ⟨_, hk, rfl, fun m hm => ?_⟩, hstop, ?_⟩
  · obtain ⟨item, hitem, _⟩ := hbefore m hm
    rw [hitem]
    rfl
  · rintro hnone i hi item hitem ⟨k', _, rfl, hpath⟩
    -- the way to the item ends before the empty slot
    have hlt : k' < Nat.find hstops := by
      rcases Nat.lt_trichotomy k' (Nat.find hstops) with hlt | heq | hgt
      · exact hlt
      · cases (heq ▸ hnone).symm.trans hitem
      · have hsome := hpath _ hgt
        rw [hnone] at hsome
        cases hsome
    obtain ⟨item', hitem', hunwanted⟩ := hbefore k' hlt
    cases hitem.symm.trans hitem'
    exact hunwanted

/-- A search for a key finds its item, if that is wanted. -/
theorem Searchable.probe (h : Searchable slot key home size) (hhome : ∀ x, home x < size)
    (hroom : ∃ j < size, slot j = none) (x : κ) {wanted : ι → Bool}
    (hwanted : ∀ item, wanted item = true → key item = x) :
    ∃ j < size, MinC.Lib.probe slot wanted size size (home x) = some j ∧
      Reaches slot size (home x) j ∧
      ((∃ item, slot j = some item ∧ key item = x ∧ wanted item = true) ∨
        slot j = none ∧ ∀ i < size, ∀ item, slot i = some item → key item = x →
          wanted item = false) := by
  obtain ⟨j, hj, hprobe, hreaches, hstop, hnone⟩ := exists_probe wanted (hhome x) hroom
  refine ⟨j, hj, hprobe, hreaches, ?_⟩
  cases hslot : slot j with
  | some item =>
      have hitem := hstop item hslot
      exact .inl ⟨item, rfl, hwanted item hitem, hitem⟩
  | none =>
      refine .inr ⟨rfl, fun i hi item hitem hkey => hnone hslot i hi item hitem ?_⟩
      rw [← hkey]
      exact h.reached i hi item hitem

theorem Reaches.update {start i j : Nat} (h : Reaches slot size start i) (item : ι) :
    Reaches (Function.update slot j (some item)) size start i := by
  obtain ⟨k, hk, hi, hpath⟩ := h
  refine ⟨k, hk, hi, fun m hm => ?_⟩
  rw [Function.update_apply]
  split_ifs
  · rfl
  · exact hpath m hm

/-- An item is put where the search for its key has ended. -/
theorem Searchable.put (h : Searchable slot key home size) {j : Nat} (hj : j < size) {item : ι}
    (hreaches : Reaches slot size (home (key item)) j)
    (hnew : ∀ i < size, ∀ other, slot i = some other → key other ≠ key item) :
    Searchable (Function.update slot j (some item)) key home size := by
  have hcases : ∀ {i other}, Function.update slot j (some item) i = some other →
      (i = j ∧ other = item) ∨ (i ≠ j ∧ slot i = some other) := by
    intro i other hi
    by_cases heq : i = j
    · rw [heq, Function.update_self] at hi
      exact .inl ⟨heq, (Option.some.inj hi).symm⟩
    · rw [Function.update_of_ne heq] at hi
      exact .inr ⟨heq, hi⟩
  constructor
  · intro i hi other hother
    rcases hcases hother with ⟨rfl, rfl⟩ | ⟨_, hold⟩
    · exact hreaches.update _
    · exact (h.reached i hi other hold).update _
  · intro i hi i' hi' a b ha hb hkey
    rcases hcases ha with ⟨rfl, rfl⟩ | ⟨_, hold⟩
    · rcases hcases hb with ⟨rfl, _⟩ | ⟨_, hold'⟩
      · rfl
      · exact absurd hkey.symm (hnew i' hi' b hold')
    · rcases hcases hb with ⟨rfl, rfl⟩ | ⟨_, hold'⟩
      · exact absurd hkey (hnew i hi a hold)
      · exact h.single i hi i' hi' a b hold hold' hkey

/-! ### Room -/

/-- How many slots are not empty. -/
def occupied (slot : Nat → Option ι) (size : Nat) : Nat :=
  ((Finset.range size).filter fun i => (slot i).isSome = true).card

theorem occupied_empty (size : Nat) : occupied (fun _ => (none : Option ι)) size = 0 := by
  simp [occupied]

theorem occupied_succ (slot : Nat → Option ι) (size : Nat) :
    occupied slot (size + 1) = occupied slot size + if (slot size).isSome = true then 1 else 0 := by
  rw [occupied, Finset.range_add_one, Finset.filter_insert]
  split_ifs
  · rw [Finset.card_insert_of_notMem (by simp), occupied]
  · rfl

theorem occupied_le {size size' : Nat} (h : size ≤ size') (slot : Nat → Option ι) :
    occupied slot size ≤ occupied slot size' :=
  Finset.card_le_card (Finset.filter_subset_filter _ (Finset.range_subset_range.mpr h))

theorem occupied_update {j : Nat} (hj : j < size) (hnone : slot j = none) (item : ι) :
    occupied (Function.update slot j (some item)) size = occupied slot size + 1 := by
  have hset : ((Finset.range size).filter fun i =>
      (Function.update slot j (some item) i).isSome = true) =
        insert j ((Finset.range size).filter fun i => (slot i).isSome = true) := by
    ext i
    rw [Finset.mem_filter, Finset.mem_insert, Finset.mem_filter, Function.update_apply]
    by_cases hi : i = j
    · simp [hi, hj]
    · simp [hi]
  rw [occupied, hset, Finset.card_insert_of_notMem, occupied]
  rw [Finset.mem_filter, hnone]
  exact fun h => Bool.false_ne_true h.2

theorem exists_empty (h : occupied slot size < size) : ∃ j < size, slot j = none := by
  by_contra hall
  push Not at hall
  have hfull : ((Finset.range size).filter fun i => (slot i).isSome = true) =
      Finset.range size := by
    rw [Finset.filter_eq_self]
    intro i hi
    exact Option.isSome_iff_ne_none.mpr (hall i (Finset.mem_range.mp hi))
  rw [occupied, hfull, Finset.card_range] at h
  exact Nat.lt_irrefl _ h

end

end MinC.Lib
