import Mathlib.Data.List.Basic

/-!
Records of different sizes, one behind the other.

A reader takes the record at the front of some cells and tells its size. What is
put together from records that the reader takes, whatever is behind them, is
read as these records, in their order.
-/

namespace MinC.Lib

/-! ### Numbers in bytes -/

/-- The low bytes of a number, the lowest first. -/
def leBytes : Nat → Nat → List UInt8
  | 0, _ => []
  | k + 1, n => UInt8.ofNat (n % 256) :: leBytes k (n / 256)

def leNat : List UInt8 → Nat
  | [] => 0
  | b :: bytes => b.toNat + 256 * leNat bytes

@[simp] theorem length_leBytes (k n : Nat) : (leBytes k n).length = k := by
  induction k generalizing n with
  | zero => rfl
  | succ k ih => rw [leBytes, List.length_cons, ih]

theorem leNat_leBytes_two {n : Nat} (h : n < 65536) : leNat (leBytes 2 n) = n := by
  have hlow : (UInt8.ofNat (n % 256)).toNat = n % 256 :=
    UInt8.toNat_ofNat_of_lt' (Nat.mod_lt n (by decide))
  have hhigh : (UInt8.ofNat (n / 256 % 256)).toNat = n / 256 % 256 :=
    UInt8.toNat_ofNat_of_lt' (Nat.mod_lt _ (by decide))
  simp only [leBytes, leNat, hlow, hhigh]
  omega

/-! ### Records -/

section
variable {α β : Type*} (read : List α → Option (β × Nat))

/-- Read records until the cells are used up. Every record has a cell, so that as many
turns as there are cells are enough. -/
def readAll : Nat → List α → Option (List β)
  | _, [] => some []
  | 0, _ :: _ => none
  | fuel + 1, a :: l => (read (a :: l)).bind fun found =>
      (readAll fuel (l.drop (found.2 - 1))).map (found.1 :: ·)

def records (l : List α) : Option (List β) := readAll read l.length l

/-- The reader takes these cells as a record, whatever is behind them. -/
structure IsRecord (r : List α) (b : β) : Prop where
  ne_nil : r ≠ []
  taken : ∀ l, read (r ++ l) = some (b, r.length)

/-- Cells that are put together from records. -/
inductive Records : List α → List β → Prop
  | nil : Records [] []
  | cons {r l : List α} {b : β} {bs : List β} : IsRecord read r b → Records l bs →
      Records (r ++ l) (b :: bs)

variable {read}

theorem Records.append {l l' : List α} {bs bs' : List β} (h : Records read l bs)
    (h' : Records read l' bs') : Records read (l ++ l') (bs ++ bs') := by
  induction h with
  | nil => exact h'
  | cons hr _ ih =>
      rw [List.append_assoc]
      exact .cons hr ih

theorem Records.eq_nil {bs : List β} (h : Records read [] bs) : bs = [] := by
  generalize hl : ([] : List α) = l at h
  cases h with
  | nil => rfl
  | cons hr _ => exact absurd (List.append_eq_nil_iff.mp hl.symm).1 hr.ne_nil

theorem readAll_of_records {l : List α} {bs : List β} (h : Records read l bs) {fuel : Nat}
    (hfuel : l.length ≤ fuel) : readAll read fuel l = some bs := by
  induction h generalizing fuel with
  | nil => cases fuel <;> rfl
  | @cons r l b bs hr _ ih =>
      obtain ⟨a, r, rfl⟩ := List.exists_cons_of_ne_nil hr.ne_nil
      rw [List.length_append, List.length_cons] at hfuel
      obtain ⟨fuel, rfl⟩ : ∃ k, fuel = k + 1 := ⟨fuel - 1, by omega⟩
      have htaken := hr.taken l
      rw [List.cons_append] at htaken
      rw [List.cons_append, readAll, htaken, Option.bind_some, List.length_cons,
        Nat.add_sub_cancel, List.drop_left' rfl, ih (by omega), Option.map_some]

/-- What is put together from records is read as these. -/
theorem records_of_records {l : List α} {bs : List β} (h : Records read l bs) :
    records read l = some bs :=
  readAll_of_records h (Nat.le_refl _)

end

end MinC.Lib
