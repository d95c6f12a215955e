import MinC.Sys.Namei

/-!
Names for the caller.

A Windows name is turned back into a path byte by byte. What it is relative to
is guessed from its first two bytes, and the extension of a link is taken off
where the last dot of all the name stands.
-/

namespace MinC.Sys

open MinC.Lib MinC.Win MinC.Vfs

/-! ### The extension of a link -/

/-- `TypeNameLink`, the four bytes of `.lnk`. -/
def typeNameLink : List UInt8 := [46, 108, 110, 107]

/-- Where the last dot stands. -/
def lastDot : List UInt8 → Option Nat
  | [] => none
  | c :: b =>
      match lastDot b with
      | some i => some (i + 1)
      | none => if c = 46 then some 0 else none

/-- End the string at its last dot if `.lnk` is found there. -/
def chopType (cells : List UInt8) (type : Option Nat) : List UInt8 :=
  match type with
  | some i => if (cells.drop i).take 4 = typeNameLink then poke cells i [0] else cells
  | none => cells

/-! ### Paths from names -/

/-- `/mnt/` and `/proc`. -/
def mntPrefix : List UInt8 := [47, 109, 110, 116, 47]
def procPrefix : List UInt8 := [47, 112, 114, 111, 99]

/-- The bytes of a string as the caller gets them, as long as the size lasts. -/
def copyPosix : Int → List UInt8 → List UInt8
  | _, [] => []
  | size, c :: src =>
      if c = 0 then []
      else if size - 1 < 1 then []
      else if c = 58 then copyPosix (size - 1) src
      else replace 92 47 c :: copyPosix (size - 1) src

/-- The bytes in front of what is copied, what is copied, and the size that is
left for it. -/
def guessPosix (src : List UInt8) (size : Int) : List UInt8 × List UInt8 × Int :=
  if src.getD 1 0 = 58 then (mntPrefix, src, size - 5)
  else if src.getD 0 0 = 92 then (procPrefix, src, size - 5)
  else if src.getD 1 0 = 92 then ([], src.drop 1, size)
  else ([], src, size)

/-- The bytes of a buffer that a name was converted into. A name that does not
fit leaves what was in it. -/
def narrowed (junk : List UInt8) (source : List UInt16) (size : Int) : List UInt8 :=
  match winWcstombs source size with
  | some bytes => bytes ++ 0 :: junk
  | none => junk

/-- The string that is written to `dest`, before its extension is looked at. -/
def outPosix (junk : List UInt8) (source : List UInt16) (size : Int) : List UInt8 :=
  let source := if source.take 14 = globalRoot then source.drop 14 else source
  let g := guessPosix (narrowed junk source size) size
  g.1 ++ copyPosix g.2.2 g.2.1

/-- The cells of `dest`, and how far behind its start the copying ended. -/
def pathnpPosix (junk dest : List UInt8) (source : List UInt16) (size : Int) :
    List UInt8 × Nat :=
  let out := outPosix junk source size
  (chopType (poke dest 0 (out ++ [0])) (lastDot out), out.length)

/-- The cells of `dest`, which has `PATH_MAX` of them. -/
def pathPosix (pathMax : Nat) (junk dest : List UInt8) (source : List UInt16) : List UInt8 :=
  (pathnpPosix junk dest source pathMax).1

/-! ### The string in the cells -/

/-- What is left of a string. -/
def chopLink (out : List UInt8) : List UInt8 :=
  match lastDot out with
  | some i => if (out.drop i).take 4 = typeNameLink then out.take i else out
  | none => out

theorem lastDot_lt {b : List UInt8} {i : Nat} (h : lastDot b = some i) : i < b.length := by
  induction b generalizing i with
  | nil => cases h
  | cons c b ih =>
      rw [lastDot] at h
      split at h
      · rename_i j hj
        cases h
        exact Nat.succ_lt_succ (ih hj)
      · split_ifs at h
        cases h
        exact Nat.succ_pos _

/-- Four bytes that are not zero are found in a string or not at all. -/
theorem take_four_append_zero (b c : List UInt8) :
    (b ++ 0 :: c).take 4 = typeNameLink ↔ b.take 4 = typeNameLink := by
  by_cases hlen : 4 ≤ b.length
  · rw [List.take_append_of_le_length hlen]
  · have hshort : b.take 4 ≠ typeNameLink := by
      intro h
      have hfour := congrArg List.length h
      rw [List.length_take] at hfour
      change min 4 b.length = 4 at hfour
      omega
    refine iff_of_false (fun h => ?_) hshort
    have hzero : (0 : UInt8) ∈ (b ++ 0 :: c).take 4 := by
      refine List.mem_take_iff_getElem.mpr ⟨b.length, ?_, ?_⟩
      · rw [List.length_append, List.length_cons]
        omega
      · simp
    rw [h] at hzero
    exact absurd hzero (by decide)

/-- Whether the extension is that of a link does not depend on what is behind the string. -/
theorem isLink_poke_iff (dest : List UInt8) {out : List UInt8} {i : Nat} (hi : i ≤ out.length) :
    ((poke dest 0 (out ++ [0])).drop i).take 4 = typeNameLink ↔
      (out.drop i).take 4 = typeNameLink := by
  rw [poke_zero, List.append_assoc, List.singleton_append, List.drop_append_of_le_length hi]
  exact take_four_append_zero _ _

theorem text_chopType {dest out : List UInt8} (hout : 0 ∉ out) :
    text (chopType (poke dest 0 (out ++ [0])) (lastDot out)) = chopLink out := by
  have hcells : poke dest 0 (out ++ [0]) = out ++ 0 :: dest.drop (out.length + 1) := by
    simp [poke, front]
  have htext : text (poke dest 0 (out ++ [0])) = out := by
    rw [hcells]
    exact text_append_zero hout _
  unfold chopType chopLink
  cases hdot : lastDot out with
  | none => exact htext
  | some i =>
      have hlt := lastDot_lt hdot
      have htype := isLink_poke_iff dest (Nat.le_of_lt hlt)
      dsimp only
      by_cases hlnk : (out.drop i).take 4 = typeNameLink
      · rw [if_pos (htype.mpr hlnk), if_pos hlnk]
        have hle : i ≤ (text (poke dest 0 (out ++ [0]))).length := by
          rw [htext]
          exact Nat.le_of_lt hlt
        have hpoke := text_poke (l := []) hle List.not_mem_nil
        rwa [htext, List.append_nil] at hpoke
      · rw [if_neg (fun h => hlnk (htype.mp h)), if_neg hlnk]
        exact htext

/-! ### What is copied -/

theorem zero_not_mem_copyPosix (size : Int) (src : List UInt8) : 0 ∉ copyPosix size src := by
  fun_induction copyPosix size src with
  | case1 => exact List.not_mem_nil
  | case2 => exact List.not_mem_nil
  | case3 => exact List.not_mem_nil
  | case4 size src hzero hsize ih => exact ih
  | case5 size c src hzero hsize hcolon ih =>
      rw [List.mem_cons, not_or]
      refine ⟨fun h => ?_, ih⟩
      rw [replace] at h
      split_ifs at h
      · exact absurd h (by decide)
      · exact hzero h.symm

theorem zero_not_mem_guessPosix (src : List UInt8) (size : Int) :
    0 ∉ (guessPosix src size).1 := by
  unfold guessPosix
  split_ifs
  · exact show (0 : UInt8) ∉ mntPrefix by decide
  · exact show (0 : UInt8) ∉ procPrefix by decide
  · exact List.not_mem_nil
  · exact List.not_mem_nil

theorem zero_not_mem_outPosix (junk : List UInt8) (source : List UInt16) (size : Int) :
    0 ∉ outPosix junk source size := by
  unfold outPosix
  dsimp only
  rw [List.mem_append, not_or]
  exact ⟨zero_not_mem_guessPosix _ _, zero_not_mem_copyPosix _ _⟩

/-- Bytes as the caller sees them. -/
def spell (b : List UInt8) : List UInt8 := (b.filter (· ≠ 58)).map (replace 92 47)

@[simp] theorem spell_nil : spell [] = [] := rfl

theorem spell_cons (c : UInt8) (b : List UInt8) :
    spell (c :: b) = if c = 58 then spell b else replace 92 47 c :: spell b := by
  unfold spell
  split_ifs with h
  · rw [List.filter_cons_of_neg (by simpa using h)]
  · rw [List.filter_cons_of_pos (by simpa using h), List.map_cons]

theorem spell_append (b c : List UInt8) : spell (b ++ c) = spell b ++ spell c := by
  rw [spell, List.filter_append, List.map_append]
  rfl

/-- A colon is counted, but it is not spelled. -/
theorem length_spell (b : List UInt8) : (spell b).length + b.count 58 = b.length := by
  induction b with
  | nil => rfl
  | cons c b ih =>
      rw [spell_cons, List.count_cons, List.length_cons, ← ih]
      by_cases hc : c = 58
      · rw [if_pos hc, if_pos (by simpa using hc)]
        omega
      · rw [if_neg hc, if_neg (by simpa using hc), List.length_cons]
        omega

/-- A size of `n + 1` is enough to look at `n` bytes. -/
theorem copyPosix_eq_spell {b : List UInt8} (hzero : 0 ∉ b) (size : Int) (junk : List UInt8) :
    copyPosix size (b ++ 0 :: junk) = spell (b.take (size - 1).toNat) := by
  induction b generalizing size with
  | nil =>
      rw [List.take_nil]
      rfl
  | cons c b ih =>
      have hc : c ≠ 0 := fun h => hzero (h ▸ List.mem_cons_self)
      rw [List.cons_append, copyPosix, if_neg hc]
      by_cases hsize : size - 1 < 1
      · have hnone : (size - 1).toNat = 0 := by omega
        rw [if_pos hsize, hnone]
        rfl
      · have hone : (size - 1).toNat = (size - 1 - 1).toNat + 1 := by omega
        rw [if_neg hsize, hone, List.take_succ_cons, spell_cons,
          ih (fun h => hzero (List.mem_cons_of_mem _ h))]

/-- A string without a colon that has room is copied as it is, but for its
separators. -/
theorem copyPosix_eq {size : Int} {b : List UInt8} (hzero : 0 ∉ b) (hcolon : 58 ∉ b)
    (hsize : (b.length : Int) < size) (junk : List UInt8) :
    copyPosix size (b ++ 0 :: junk) = b.map (replace 92 47) := by
  have hall : b.filter (· ≠ 58) = b := by
    refine List.filter_eq_self.mpr fun c hc => ?_
    exact decide_eq_true fun h => hcolon (h ▸ hc)
  rw [copyPosix_eq_spell hzero, List.take_of_length_le (by omega), spell, hall]

/-! ### What is converted -/

/-- A name without the root of all object names. -/
def stripRoot (source : List UInt16) : List UInt16 :=
  if source.take 14 = globalRoot then source.drop 14 else source

theorem outPosix_eq (junk : List UInt8) (source : List UInt16) (size : Int) :
    outPosix junk source size =
      (guessPosix (narrowed junk (stripRoot source) size) size).1 ++
        copyPosix (guessPosix (narrowed junk (stripRoot source) size) size).2.2
          (guessPosix (narrowed junk (stripRoot source) size) size).2.1 := rfl

theorem zero_not_mem_stripRoot {source : List UInt16} (h : 0 ∉ source) : 0 ∉ stripRoot source := by
  rw [stripRoot]
  split_ifs
  · exact fun hmem => h (List.mem_of_mem_drop hmem)
  · exact h

theorem getD_append_zero (b junk : List UInt8) (hb : b ≠ []) :
    (b ++ 0 :: junk).getD 1 0 = b.getD 1 0 := by
  match b, hb with
  | [_], _ => rfl
  | _ :: _ :: _, _ => rfl

theorem text_pathnpPosix (junk dest : List UInt8) (source : List UInt16) (size : Int) :
    text (pathnpPosix junk dest source size).1 = chopLink (outPosix junk source size) :=
  text_chopType (zero_not_mem_outPosix junk source size)

end MinC.Sys
