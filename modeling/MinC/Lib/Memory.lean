import MinC.Lib.Records
import Mathlib.Data.List.GetD

/-!
A memory of bytes with words of four bytes in it, the lowest byte first.

A byte is read from what was stored last over it. A copy leaves alone what is
outside of the place it goes to, and a word is read wherever its bytes were put.
-/

namespace MinC.Lib

abbrev Memory := Nat → UInt8

/-- How many words there are. -/
def wordSpan : Nat := 4294967296

/-- What is left of a difference in a word. -/
def subWord (a b : Nat) : Nat := (a + (wordSpan - b % wordSpan)) % wordSpan

def addWord (a b : Nat) : Nat := (a + b) % wordSpan

def loadWord (mem : Memory) (a : Nat) : Nat := leNat [mem a, mem (a + 1), mem (a + 2), mem (a + 3)]

def storeWord (mem : Memory) (a n : Nat) : Memory := fun b =>
  if a ≤ b ∧ b < a + 4 then (leBytes 4 n).getD (b - a) 0 else mem b

def copyBytes (mem : Memory) (dest src n : Nat) : Memory := fun b =>
  if dest ≤ b ∧ b < dest + n then mem (src + (b - dest)) else mem b

theorem subWord_of_le {a b : Nat} (h : b ≤ a) (ha : a < wordSpan) : subWord a b = a - b := by
  have hb : b % wordSpan = b := Nat.mod_eq_of_lt (Nat.lt_of_le_of_lt h ha)
  rw [subWord, hb]
  simp only [wordSpan] at ha ⊢
  omega

theorem addWord_of_lt {a b : Nat} (h : a + b < wordSpan) : addWord a b = a + b :=
  Nat.mod_eq_of_lt h

theorem leNat_leBytes_four {n : Nat} (h : n < wordSpan) : leNat (leBytes 4 n) = n := by
  have hbyte (m : Nat) : (UInt8.ofNat (m % 256)).toNat = m % 256 :=
    UInt8.toNat_ofNat_of_lt' (Nat.mod_lt m (by decide))
  simp only [leBytes, leNat, hbyte]
  simp only [wordSpan] at h
  omega

/-- A word is what its four bytes are. -/
theorem loadWord_congr {mem mem' : Memory} {a b : Nat}
    (h : ∀ i, i < 4 → mem (a + i) = mem' (b + i)) : loadWord mem a = loadWord mem' b := by
  have h0 := h 0 (by omega)
  simp only [Nat.add_zero] at h0
  rw [loadWord, loadWord, h0, h 1 (by omega), h 2 (by omega), h 3 (by omega)]

/-- A word whose bytes are in a place is read there. -/
theorem loadWord_of_bytes {mem : Memory} {a n : Nat} (hn : n < wordSpan)
    (h : ∀ i, i < 4 → mem (a + i) = (leBytes 4 n).getD i 0) : loadWord mem a = n := by
  have h0 := h 0 (by omega)
  rw [Nat.add_zero] at h0
  rw [loadWord, h0, h 1 (by omega), h 2 (by omega), h 3 (by omega)]
  exact leNat_leBytes_four hn

/-- The bytes of words that lie one behind the other. -/
theorem getD_flatMap_leBytes (words : List UInt32) {k i : Nat} (hk : k < words.length)
    (hi : i < 4) :
    (words.flatMap fun word => leBytes 4 word.toNat).getD (4 * k + i) 0 =
      (leBytes 4 (words.get ⟨k, hk⟩).toNat).getD i 0 := by
  induction words generalizing k with
  | nil => exact absurd hk (Nat.not_lt_zero k)
  | cons word words ih =>
      rw [List.flatMap_cons]
      cases k with
      | zero =>
          rw [Nat.mul_zero, Nat.zero_add,
            List.getD_append _ _ _ _ (by rw [length_leBytes]; exact hi)]
          rfl
      | succ k =>
          have hbehind : 4 * (k + 1) + i - 4 = 4 * k + i := by omega
          rw [List.getD_append_right _ _ _ _ (by rw [length_leBytes]; omega), length_leBytes,
            hbehind]
          exact ih (Nat.lt_of_succ_lt_succ hk)

theorem loadWord_lt (mem : Memory) (a : Nat) : loadWord mem a < wordSpan := by
  have h0 := (mem a).toNat_lt
  have h1 := (mem (a + 1)).toNat_lt
  have h2 := (mem (a + 2)).toNat_lt
  have h3 := (mem (a + 3)).toNat_lt
  simp only [loadWord, leNat, wordSpan]
  omega

/-- The bytes of a word are known from the word. -/
theorem eq_of_loadWord_eq {mem mem' : Memory} {a : Nat} (h : loadWord mem a = loadWord mem' a)
    {i : Nat} (hi : i < 4) : mem (a + i) = mem' (a + i) := by
  have hbyte : ∀ m : Memory, ∀ j, (m j).toNat < 256 := fun m j => (m j).toNat_lt
  have h0 := hbyte mem a
  have h0' := hbyte mem' a
  have h1 := hbyte mem (a + 1)
  have h1' := hbyte mem' (a + 1)
  have h2 := hbyte mem (a + 2)
  have h2' := hbyte mem' (a + 2)
  simp only [loadWord, leNat] at h
  apply UInt8.toNat_inj.mp
  obtain rfl | rfl | rfl | rfl : i = 0 ∨ i = 1 ∨ i = 2 ∨ i = 3 := by omega
  · rw [Nat.add_zero]
    omega
  · omega
  · omega
  · omega

/-! ### Stores -/

theorem storeWord_outside (mem : Memory) {a b : Nat} (n : Nat) (h : b < a ∨ a + 4 ≤ b) :
    storeWord mem a n b = mem b := if_neg (by omega)

theorem storeWord_inside (mem : Memory) (a n : Nat) {i : Nat} (h : i < 4) :
    storeWord mem a n (a + i) = (leBytes 4 n).getD i 0 := by
  rw [storeWord, if_pos ⟨Nat.le_add_right a i, Nat.add_lt_add_left h a⟩, Nat.add_sub_cancel_left]

theorem loadWord_storeWord (mem : Memory) (a : Nat) {n : Nat} (h : n < wordSpan) :
    loadWord (storeWord mem a n) a = n := by
  exact loadWord_of_bytes h fun i hi => storeWord_inside mem a n hi

theorem loadWord_storeWord_of_disjoint (mem : Memory) {a b : Nat} (n : Nat)
    (h : b + 4 ≤ a ∨ a + 4 ≤ b) : loadWord (storeWord mem a n) b = loadWord mem b := by
  apply loadWord_congr
  intro i hi
  exact storeWord_outside mem n (by omega)

/-! ### Copies -/

theorem copyBytes_inside (mem : Memory) (dest src : Nat) {n i : Nat} (h : i < n) :
    copyBytes mem dest src n (dest + i) = mem (src + i) := by
  rw [copyBytes, if_pos ⟨Nat.le_add_right dest i, Nat.add_lt_add_left h dest⟩,
    Nat.add_sub_cancel_left]

theorem copyBytes_outside (mem : Memory) {dest n b : Nat} (src : Nat)
    (h : b < dest ∨ dest + n ≤ b) : copyBytes mem dest src n b = mem b := if_neg (by omega)

end MinC.Lib
