import Mathlib.Data.Nat.Bitwise
import Mathlib.Data.UInt

/-!
Flag words.

A word of flags is masked with the flags that are asked about. Masks are
distributed over the flags that were put together.
-/

namespace MinC.Lib

theorem u16_and_or_left (a b c : UInt16) : a &&& (b ||| c) = (a &&& b) ||| (a &&& c) :=
  UInt16.toBitVec_inj.mp BitVec.and_or_distrib_left

theorem u16_and_or_right (a b c : UInt16) : (a ||| b) &&& c = (a &&& c) ||| (b &&& c) :=
  UInt16.toBitVec_inj.mp BitVec.and_or_distrib_right

theorem u32_and_or_left (a b c : UInt32) : a &&& (b ||| c) = (a &&& b) ||| (a &&& c) :=
  UInt32.toBitVec_inj.mp BitVec.and_or_distrib_left

theorem u32_and_or_right (a b c : UInt32) : (a ||| b) &&& c = (a &&& c) ||| (b &&& c) :=
  UInt32.toBitVec_inj.mp BitVec.and_or_distrib_right

/-- A single flag is in a word or it is not. -/
theorem u32_and_bit (a : UInt32) {b : UInt32} {k : Nat} (hb : b.toNat = 2 ^ k) :
    a &&& b = 0 ∨ a &&& b = b := by
  have hand : (a &&& b).toNat = (a.toNat.testBit k).toNat * 2 ^ k := by
    rw [UInt32.toNat_and, hb, Nat.and_two_pow]
  rw [← UInt32.toNat_inj, ← UInt32.toNat_inj, hand, hb]
  cases a.toNat.testBit k with
  | false => exact .inl (Nat.zero_mul _)
  | true => exact .inr (Nat.one_mul _)

/-- A mask of ones keeps what is left by a division. -/
theorem u32_and_ones (x : UInt32) {m : UInt32} {k : Nat} (hm : m.toNat = 2 ^ k - 1) :
    (x &&& m).toNat = x.toNat % 2 ^ k := by
  rw [UInt32.toNat_and, hm, Nat.and_two_pow_sub_one_eq_mod]

/-- An integer, cut down to a word. -/
theorem u32_toNat_ofInt (n : Int) : ((UInt32.ofInt n).toNat : Int) = n % 0x100000000 := by
  show ((UInt32.ofNat (n % 2 ^ 32).toNat).toNat : Int) = _
  rw [UInt32.toNat_ofNat']
  omega

/-- A difference is not more than what is taken from exactly if there is so much
to take. -/
theorem u64_sub_le_iff (a b : UInt64) : a - b ≤ a ↔ b ≤ a := by
  have ha := a.toNat_lt
  have hb := b.toNat_lt
  rw [UInt64.le_iff_toNat_le, UInt64.le_iff_toNat_le, UInt64.toNat_sub]
  omega

/-- A word with a sign is positive if it is in the lower half. -/
theorem u64_toInt64_pos_iff (x : UInt64) :
    0 < x.toInt64 ↔ 0 < x.toNat ∧ x.toNat < 0x8000000000000000 := by
  have hlt := x.toNat_lt
  have hint : x.toInt64.toInt = if 2 * x.toNat < 2 ^ 64 then (x.toNat : Int) else x.toNat - 2 ^ 64 :=
    BitVec.toInt_eq_toNat_cond x.toBitVec
  rw [Int64.lt_iff_toInt_lt, hint]
  split_ifs <;> simp <;> omega

theorem u8_and_or_right (a b c : UInt8) : (a ||| b) &&& c = (a &&& c) ||| (b &&& c) :=
  UInt8.toBitVec_inj.mp BitVec.and_or_distrib_right

theorem u8_add_eq_or {a b : UInt8} (h : a &&& b = 0) : a + b = a ||| b :=
  UInt8.toBitVec_inj.mp (BitVec.add_eq_or_of_and_eq_zero _ _ (congrArg UInt8.toBitVec h))

/-- Flags of which none is in both words are put together by an addition. -/
theorem u32_add_eq_or {a b : UInt32} (h : a &&& b = 0) : a + b = a ||| b :=
  UInt32.toBitVec_inj.mp (BitVec.add_eq_or_of_and_eq_zero _ _ (congrArg UInt32.toBitVec h))

/-- The mask takes the three lowest bits off. -/
theorem u32_and_multiple_eight (x : UInt32) : (x &&& 0xFFFFFFF8).toNat = x.toNat / 8 * 8 := by
  have hmask : (0xFFFFFFF8 : UInt32).toNat = (2 ^ 29 - 1) <<< 3 := rfl
  have hshift : x.toNat / 8 * 8 = x.toNat >>> 3 <<< 3 := by
    rw [Nat.shiftRight_eq_div_pow, Nat.shiftLeft_eq]
  rw [UInt32.toNat_and, hmask, hshift]
  refine Nat.eq_of_testBit_eq fun i => ?_
  rw [Nat.testBit_and, Nat.testBit_shiftLeft, Nat.testBit_shiftLeft, Nat.testBit_shiftRight,
    Nat.testBit_two_pow_sub_one]
  by_cases hi : 3 ≤ i
  · have hback : 3 + (i - 3) = i := by omega
    rw [hback]
    by_cases hlow : i - 3 < 29
    · simp [hi, hlow]
    · have hhigh : x.toNat.testBit i = false :=
        Nat.testBit_lt_two_pow (Nat.lt_of_lt_of_le x.toNat_lt
          (Nat.pow_le_pow_right (by decide) (by omega)))
      simp [hhigh]
  · simp [hi]

/-- The mask takes all but the second byte off. -/
theorem u32_and_second_byte (x : UInt32) : (x &&& 0xFF00).toNat = x.toNat / 256 % 256 * 256 := by
  have hmask : (0xFF00 : UInt32).toNat = (2 ^ 8 - 1) <<< 8 := rfl
  have hshift : x.toNat / 256 % 256 * 256 = (x.toNat >>> 8 &&& (2 ^ 8 - 1)) <<< 8 := by
    rw [Nat.and_two_pow_sub_one_eq_mod, Nat.shiftRight_eq_div_pow, Nat.shiftLeft_eq]
  rw [UInt32.toNat_and, hmask, hshift]
  refine Nat.eq_of_testBit_eq fun i => ?_
  rw [Nat.testBit_and, Nat.testBit_shiftLeft, Nat.testBit_shiftLeft, Nat.testBit_and,
    Nat.testBit_shiftRight]
  by_cases hi : 8 ≤ i
  · have hback : 8 + (i - 8) = i := by omega
    simp [hi, hback]
  · simp [hi]

end MinC.Lib
