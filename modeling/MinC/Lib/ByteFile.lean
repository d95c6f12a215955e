import Mathlib.Data.List.Basic
import Mathlib.Tactic.SplitIfs

/-!
Files of bytes.

A file is a list of bytes. What is written behind its end is reached over zeros,
and so is what a file grows by when its size is set. Beside the list stands the
image of the file, which tells for each position the byte that is there; writing
and setting the size are described on it position by position, and in the order
in which they were done it remembers the last write of each byte.
-/

namespace MinC.Lib

/-! ### Lists -/

/-- At most so many bytes from an offset on. -/
def sliceAt (contents : List UInt8) (offset n : Nat) : List UInt8 :=
  (contents.drop offset).take n

/-- Set the size of a file. -/
def resized (contents : List UInt8) (n : Nat) : List UInt8 :=
  contents.take n ++ List.replicate (n - contents.length) 0

/-- Write over what is there from an offset on. -/
def overwritten (contents bytes : List UInt8) (offset : Nat) : List UInt8 :=
  if bytes = [] then contents
  else resized contents offset ++ bytes ++ contents.drop (offset + bytes.length)

@[simp] theorem length_resized (contents : List UInt8) (n : Nat) :
    (resized contents n).length = n := by
  simp only [resized, List.length_append, List.length_take, List.length_replicate]
  omega

theorem getElem?_resized (contents : List UInt8) (n i : Nat) :
    (resized contents n)[i]? = if i < n then some ((contents[i]?).getD 0) else none := by
  rw [resized, List.getElem?_append, List.length_take]
  split_ifs with htake hn hn
  · have hi : i < contents.length := by omega
    rw [List.getElem?_take_of_lt hn, List.getElem?_eq_getElem hi]
    rfl
  · omega
  · have hi : contents.length ≤ i := by omega
    rw [List.getElem?_replicate, if_pos (by omega), List.getElem?_eq_none hi]
    rfl
  · rw [List.getElem?_replicate, if_neg (by omega)]

/-! ### Images -/

/-- The byte at each position, up to the end. -/
abbrev Image := Nat → Option UInt8

namespace Image

/-- The image of a list. -/
def of (contents : List UInt8) : Image := fun i => contents[i]?

/-- Bytes from an offset on, until the end. -/
def read (m : Image) : Nat → Nat → List UInt8
  | _, 0 => []
  | offset, n + 1 =>
      match m offset with
      | some byte => byte :: m.read (offset + 1) n
      | none => []

/-- The position where a file ends. -/
def EndsAt (m : Image) (n : Nat) : Prop := ∀ i, (m i).isSome = true ↔ i < n

def resize (m : Image) (n : Nat) : Image := fun i => if i < n then some ((m i).getD 0) else none

/-- A write of no bytes does not reach its offset. -/
def write (m : Image) (bytes : List UInt8) (offset : Nat) : Image := fun i =>
  if bytes = [] then m i
  else if i < offset then some ((m i).getD 0)
  else if i < offset + bytes.length then bytes[i - offset]?
  else m i

theorem endsAt_of (contents : List UInt8) : (of contents).EndsAt contents.length := by
  intro i
  simp [of]

theorem of_resized (contents : List UInt8) (n : Nat) :
    of (resized contents n) = (of contents).resize n :=
  funext fun i => getElem?_resized contents n i

theorem of_overwritten (contents bytes : List UInt8) (offset : Nat) :
    of (overwritten contents bytes offset) = (of contents).write bytes offset := by
  funext i
  rw [of, overwritten, write]
  by_cases hbytes : bytes = []
  · rw [if_pos hbytes, if_pos hbytes]
    rfl
  · rw [if_neg hbytes, if_neg hbytes, List.append_assoc, List.getElem?_append, length_resized]
    by_cases hlow : i < offset
    · rw [if_pos hlow, if_pos hlow, getElem?_resized, if_pos hlow]
      rfl
    · rw [if_neg hlow, if_neg hlow, List.getElem?_append]
      by_cases hhigh : i < offset + bytes.length
      · rw [if_pos (by omega), if_pos hhigh]
      · have hi : offset + bytes.length + (i - offset - bytes.length) = i := by omega
        rw [if_neg (by omega), if_neg hhigh, List.getElem?_drop, hi]
        rfl

theorem read_of (contents : List UInt8) (offset n : Nat) :
    (of contents).read offset n = sliceAt contents offset n := by
  induction n generalizing offset with
  | zero => simp [read, sliceAt]
  | succ n ih =>
      rw [read]
      by_cases hoffset : offset < contents.length
      · have hbyte : of contents offset = some (contents[offset]) :=
          List.getElem?_eq_getElem hoffset
        rw [hbyte, ih, sliceAt, sliceAt, List.drop_eq_getElem_cons hoffset, List.take_succ_cons]
      · have hnone : of contents offset = none := List.getElem?_eq_none (by omega)
        have hend : contents.drop offset = [] := List.drop_eq_nil_of_le (by omega)
        rw [hnone, sliceAt, hend]
        rfl

end Image

end MinC.Lib
