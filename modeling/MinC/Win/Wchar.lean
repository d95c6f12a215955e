import MinC.Lib.Cells
import MinC.Lib.Unicode

/-!
Wide strings.

A conversion fills the destination, its terminating zero included, or fails
and leaves it. Strings are lists without their terminating zero.
-/

namespace MinC.Win

open MinC.Lib

def wide (source : List UInt8) : List UInt16 := encodeUtf16 (decodeUtf8 source)
def narrow (source : List UInt16) : List UInt8 := encodeUtf8 (decodeUtf16 source)

/-- The text a destination of `size` cells is filled with. -/
def winMbstowcs (source : List UInt8) (size : Int) : Option (List UInt16) :=
  if (wide source).length + 1 ≤ size then some (wide source) else none

/-- The text a destination of `size` bytes is filled with. -/
def winWcstombs (source : List UInt16) (size : Int) : Option (List UInt8) :=
  if (narrow source).length + 1 ≤ size then some (narrow source) else none

/-- `tolower` in the C locale. -/
def tolower (ch : UInt16) : UInt16 := if 65 ≤ ch ∧ ch ≤ 90 then ch + 32 else ch

/-- The drive of a path. -/
def winDrivename (fileName : List UInt16) : List UInt16 :=
  (if fileName = [] then [82, 79, 79, 84] else fileName).takeWhile (· ≠ 58) ++ [58]

theorem winMbstowcs_eq_none_iff {source : List UInt8} {size : Int} :
    winMbstowcs source size = none ↔ size < (wide source).length + 1 := by
  unfold winMbstowcs
  split_ifs with h
  · simpa using h
  · simpa using h

/-- An ASCII character is one cell of the wide form. -/
theorem wide_cons {b : UInt8} (h : b < 128) (source : List UInt8) :
    wide (b :: source) = b.toUInt16 :: wide source := by
  have hb : b.toNat < 128 := h
  have hnat : (Char.ofNat b.toNat).toNat = b.toNat := toNat_ofNat_char (.inl (by omega))
  have hc : IsAscii (Char.ofNat b.toNat) := by
    rw [IsAscii, hnat]
    exact hb
  have hdecode := decodeUtf8_cons_ascii hc source
  rw [hnat, UInt8.ofNat_toNat] at hdecode
  have hunit : UInt16.ofNat b.toNat = b.toUInt16 := by simp
  rw [wide, hdecode, encodeUtf16_cons, encodeUnit_of_ascii hc, hnat, hunit]
  rfl

/-- A text without zeros has none in its wide form. -/
theorem zero_not_mem_wide {source : List UInt8} (h : 0 ∉ source) : 0 ∉ wide source := by
  have hzero : IsAscii (Char.ofNat 0) := by decide
  intro hmem
  exact h (mem_of_mem_decodeUtf8 hzero ((mem_encodeUtf16_iff hzero).mp hmem))

theorem zero_not_mem_narrow {source : List UInt16} (h : 0 ∉ source) : 0 ∉ narrow source := by
  have hzero : IsAscii (Char.ofNat 0) := by decide
  intro hmem
  exact h (mem_of_mem_decodeUtf16 hzero _ ((mem_encodeUtf8_iff hzero).mp hmem))

theorem length_le_narrow (source : List UInt16) : source.length ≤ (narrow source).length :=
  length_le_encodeUtf8_decodeUtf16 source

end MinC.Win
