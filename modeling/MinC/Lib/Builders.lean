import Mathlib.Data.List.Basic

/-!
Lists that are built one element at a time.

A builder takes the elements of a list from the last to the first. It puts each
in front of what it has, or refuses it. It has the whole list in the end if it
took each element when it had all that are behind.

A loop that keeps the last key and acts where the key changes acts on the
elements whose key is not that of the element before, and on no others. If what
it does is to put a piece at the end of a list, the list is that of the pieces
for these elements.
-/

namespace MinC.Lib

section
variable {α σ : Type*} {add : α → σ → σ} {items : σ → List α}

/-- An element is put in front, or it is refused. -/
def Builds (add : α → σ → σ) (items : σ → List α) : Prop :=
  ∀ a s, items (add a s) = a :: items s ∨ items (add a s) = items s

theorem Builds.length_le (h : Builds add items) {start : σ} (hstart : items start = [])
    (l : List α) : (items (l.foldr add start)).length ≤ l.length := by
  induction l with
  | nil => exact Nat.le_of_eq (congrArg List.length hstart)
  | cons a l ih =>
      rw [List.foldr_cons, List.length_cons]
      rcases h a (l.foldr add start) with htaken | hrefused
      · rw [htaken, List.length_cons]
        omega
      · rw [hrefused]
        omega

/-- What has as many elements as the list is the list. -/
theorem Builds.eq_of_length (h : Builds add items) {start : σ} (hstart : items start = [])
    {l : List α} (hlength : (items (l.foldr add start)).length = l.length) :
    items (l.foldr add start) = l := by
  induction l with
  | nil => exact hstart
  | cons a l ih =>
      rw [List.foldr_cons, List.length_cons] at hlength
      have hle := h.length_le hstart l
      have htaken : items (add a (l.foldr add start)) = a :: items (l.foldr add start) := by
        refine (h a _).resolve_right fun hrefused => ?_
        rw [hrefused] at hlength
        omega
      rw [htaken, List.length_cons] at hlength
      rw [List.foldr_cons, htaken, ih (by omega)]

/-- Everything is there if it was before the last element, and that was taken. -/
theorem Builds.cons_iff (h : Builds add items) {start : σ} (hstart : items start = []) (a : α)
    (l : List α) :
    items ((a :: l).foldr add start) = a :: l ↔
      items (l.foldr add start) = l ∧
        items (add a (l.foldr add start)) = a :: items (l.foldr add start) := by
  rw [List.foldr_cons]
  constructor
  · intro hall
    have htaken : items (add a (l.foldr add start)) = a :: items (l.foldr add start) := by
      refine (h a _).resolve_right fun hrefused => ?_
      -- what is there is too short for the whole list
      have hlength := congrArg List.length (hrefused.symm.trans hall)
      have hle := h.length_le hstart l
      rw [List.length_cons] at hlength
      omega
    exact ⟨(List.cons.inj (htaken.symm.trans hall)).2, htaken⟩
  · rintro ⟨hrest, htaken⟩
    rw [htaken, hrest]

end

/-! ### Changes of a key -/

section
variable {α β κ : Type*} [DecidableEq κ]

/-- The elements whose key is not that of the element before, of which the first comes after a given
key. -/
def changes (key : α → κ) : κ → List α → List α
  | _, [] => []
  | last, a :: l => if key a ≠ last then a :: changes key (key a) l else changes key (key a) l

theorem changes_sublist (key : α → κ) (last : κ) (l : List α) :
    (changes key last l).Sublist l := by
  induction l generalizing last with
  | nil => exact List.Sublist.refl []
  | cons a l ih =>
      rw [changes]
      split_ifs
      · exact (ih (key a)).cons_cons a
      · exact (ih (key a)).cons a

/-- A loop that acts where the key changes. -/
def onChanges (key : α → κ) (act : β → α → β) : κ → List α → β → β
  | _, [], b => b
  | last, a :: l, b => onChanges key act (key a) l (if key a ≠ last then act b a else b)

theorem onChanges_eq_foldl (key : α → κ) (act : β → α → β) (last : κ) (l : List α) (b : β) :
    onChanges key act last l b = (changes key last l).foldl act b := by
  induction l generalizing last b with
  | nil => rfl
  | cons a l ih =>
      rw [onChanges, ih, changes]
      split_ifs <;> rfl

/-- Putting a piece at the end for each element. -/
theorem foldl_append_eq (piece : α → List β) (l : List α) (b : List β) :
    l.foldl (fun b a => b ++ piece a) b = b ++ l.flatMap piece := by
  induction l generalizing b with
  | nil => simp
  | cons a l ih => simp [ih]

end

end MinC.Lib
