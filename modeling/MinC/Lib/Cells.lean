import Mathlib.Data.List.TakeWhile

/-!
Buffers of cells, and the text in them.

A buffer is a list of cells that grows where it is written to; cells that were
never written are zero. Its text is what is before the first zero. A writer
that appends to a text and ends with a zero gets the text it means, whatever
was in the buffer behind it.
-/

namespace MinC.Lib

instance (priority := high) zeroUInt8 : Zero UInt8 := ⟨0⟩
instance (priority := high) zeroUInt16 : Zero UInt16 := ⟨0⟩

variable {α : Type*} [Zero α] [DecidableEq α]

/-- The text of a buffer, up to its first zero. -/
def text (b : List α) : List α := b.takeWhile (· ≠ 0)

/-- The cells before an offset. -/
def front (b : List α) (i : Nat) : List α := b.take i ++ List.replicate (i - b.length) 0

/-- Write cells at an offset. -/
def poke (b : List α) (i : Nat) (l : List α) : List α :=
  front b i ++ l ++ b.drop (i + l.length)

theorem text_append_zero {l : List α} (hl : 0 ∉ l) (b : List α) : text (l ++ 0 :: b) = l := by
  have hall : ∀ x ∈ l, decide (x ≠ 0) = true := by
    intro x hx
    simp only [ne_eq, decide_eq_true_eq]
    rintro rfl
    exact hl hx
  rw [text, List.takeWhile_append_of_pos hall]
  simp

/-- A text ends at a zero. -/
theorem text_append_zero_eq (l b : List α) : text (l ++ 0 :: b) = text l := by
  induction l with
  | nil => simp [text]
  | cons x l ih =>
      rw [text] at ih
      rw [text, List.cons_append, List.takeWhile_cons, ih, text, text, List.takeWhile_cons]

/-- A text goes on where there is no zero. -/
theorem text_append_of_not_mem {l : List α} (hl : 0 ∉ l) (b : List α) :
    text (l ++ b) = l ++ text b := by
  refine List.takeWhile_append_of_pos fun x hx => ?_
  simp only [ne_eq, decide_eq_true_eq]
  rintro rfl
  exact hl hx

theorem zero_not_mem_text (b : List α) : 0 ∉ text b := by
  intro h
  simpa using List.mem_takeWhile_imp h

theorem text_of_not_mem {l : List α} (hl : 0 ∉ l) : text l = l := by
  refine List.takeWhile_eq_self_iff.mpr fun x hx => ?_
  simp only [ne_eq, decide_eq_true_eq]
  rintro rfl
  exact hl hx

/-- A text that has ended does not see what is behind it. -/
theorem text_append_of_lt {b : List α} (hb : (text b).length < b.length) (c : List α) :
    text (b ++ c) = text b := by
  have hne : ¬ (b.takeWhile (· ≠ 0)).length = b.length := Nat.ne_of_lt hb
  rw [text, List.takeWhile_append, if_neg hne, text]

theorem length_text_le (b : List α) : (text b).length ≤ b.length :=
  (List.takeWhile_prefix _).length_le

theorem take_text {b : List α} {i : Nat} (hi : i ≤ (text b).length) :
    b.take i = (text b).take i := by
  obtain ⟨rest, hrest⟩ := (List.takeWhile_prefix _ : text b <+: b)
  calc b.take i = (text b ++ rest).take i := by rw [text, hrest]
    _ = (text b).take i := List.take_append_of_le_length hi

/-- What is in a buffer after cells were written into its text, or right behind
it. -/
theorem poke_eq {b l : List α} {i : Nat} (hi : i ≤ (text b).length) :
    poke b i l = ((text b).take i ++ l) ++ b.drop (i + l.length) := by
  have hlen : i ≤ b.length := Nat.le_trans hi (length_text_le b)
  rw [poke, front, take_text hi, Nat.sub_eq_zero_of_le hlen]
  simp

theorem zero_not_mem_front {b l : List α} (hl : 0 ∉ l) (i : Nat) :
    0 ∉ (text b).take i ++ l := by
  intro hmem
  rcases List.mem_append.mp hmem with h | h
  · exact zero_not_mem_text b (List.mem_of_mem_take h)
  · exact hl h

/-- A text that is written with its zero follows the cells before it. -/
theorem text_poke {b l : List α} {i : Nat} (hi : i ≤ (text b).length) (hl : 0 ∉ l) :
    text (poke b i (l ++ [0])) = (text b).take i ++ l := by
  rw [poke_eq hi, ← List.append_assoc, List.append_assoc _ [0]]
  exact text_append_zero (zero_not_mem_front hl i) _

omit [DecidableEq α] in
@[simp] theorem length_front (b : List α) (i : Nat) : (front b i).length = i := by
  rw [front, List.length_append, List.length_take, List.length_replicate]
  omega

omit [DecidableEq α] in
theorem length_poke {b l : List α} {i : Nat} (h : i + l.length ≤ b.length) :
    (poke b i l).length = b.length := by
  rw [poke, List.length_append, List.length_append, length_front, List.length_drop]
  omega

theorem text_front_append (b : List α) {i : Nat} (hi : (text b).length < i) (l : List α) :
    text (front b i ++ l) = text b := by
  induction b generalizing i with
  | nil =>
      obtain ⟨i, rfl⟩ := Nat.exists_eq_add_of_lt hi
      simp [front, text, List.replicate_succ]
  | cons x b ih =>
      obtain ⟨j, rfl⟩ : ∃ j, i = j + 1 := ⟨i - 1, by omega⟩
      have hcons : front (x :: b) (j + 1) = x :: front b j := by
        simp [front, Nat.add_sub_add_right]
      by_cases hx : x = 0
      · rw [hcons]
        simp [hx, text]
      · have htext : ∀ c : List α, text (x :: c) = x :: text c := by
          intro c
          rw [text, List.takeWhile_cons_of_pos (by simpa using hx)]
          rfl
        rw [htext, List.length_cons] at hi
        rw [hcons, List.cons_append, htext, htext, ih (Nat.lt_of_succ_lt_succ hi)]

/-- A text that ends before an offset does not see what is written there. -/
theorem text_poke_of_lt {b : List α} {i : Nat} (hi : (text b).length < i) (l : List α) :
    text (poke b i l) = text b := by
  rw [poke, List.append_assoc]
  exact text_front_append b hi _

omit [DecidableEq α] in
theorem poke_zero (b l : List α) : poke b 0 l = l ++ b.drop l.length := by
  simp [poke, front]

omit [DecidableEq α] in
/-- What is written is found at its offset. -/
theorem drop_poke (b : List α) (i : Nat) (l : List α) :
    (poke b i l).drop i = l ++ b.drop (i + l.length) := by
  rw [poke, List.append_assoc]
  exact List.drop_left' (length_front b i)

omit [DecidableEq α] in
theorem drop_front_add (b : List α) (i j : Nat) : (front b (i + j)).drop i = front (b.drop i) j := by
  have hzeros : i + j - b.length - (i - min (i + j) b.length) = j - (b.length - i) := by omega
  rw [front, List.drop_append, List.drop_take, List.length_take, List.drop_replicate,
    Nat.add_sub_cancel_left, hzeros, front, List.length_drop]

omit [DecidableEq α] in
/-- The cells from an offset on, when something was written behind it. -/
theorem drop_poke_add (b : List α) (i j : Nat) (l : List α) :
    (poke b (i + j) l).drop i = poke (b.drop i) j l := by
  have hle : i ≤ (front b (i + j)).length := by
    rw [length_front]
    exact Nat.le_add_right _ _
  rw [poke, List.append_assoc, List.drop_append_of_le_length hle, drop_front_add, poke,
    List.append_assoc, List.drop_drop, Nat.add_assoc i]

omit [DecidableEq α] in
/-- Writing on where the last write ended. -/
theorem poke_poke (b : List α) (i : Nat) (l l' : List α) :
    poke (poke b i l) (i + l.length) l' = poke b i (l ++ l') := by
  have hlen : (front b i ++ l).length = i + l.length := by simp
  have hfront : front (poke b i l) (i + l.length) = front b i ++ l := by
    have hle : i + l.length ≤ (poke b i l).length := by
      rw [poke, List.length_append, hlen]
      exact Nat.le_add_right _ _
    rw [front, Nat.sub_eq_zero_of_le hle, poke, List.take_left' hlen, List.replicate_zero,
      List.append_nil]
  have hdrop : (poke b i l).drop (i + l.length + l'.length) = b.drop (i + (l ++ l').length) := by
    rw [poke, ← List.drop_drop, List.drop_left' hlen, List.drop_drop, List.length_append]
    congr 1
    omega
  rw [poke, hfront, hdrop, poke, List.append_assoc (front b i)]

omit [DecidableEq α] in
/-- Writing right behind what is there. -/
theorem poke_append (a b l : List α) : poke (a ++ b) a.length l = a ++ (l ++ b.drop l.length) := by
  have hfront : front (a ++ b) a.length = a := by
    rw [front, List.take_left' rfl, List.length_append, Nat.sub_eq_zero_of_le (Nat.le_add_right _ _),
      List.replicate_zero, List.append_nil]
  rw [poke, hfront, ← List.drop_drop, List.drop_left' rfl, List.append_assoc]

omit [DecidableEq α] in
/-- Writing behind the front of what is there leaves the front. -/
theorem poke_append_add (a b l : List α) (i : Nat) :
    poke (a ++ b) (a.length + i) l = a ++ poke b i l := by
  have hfront : front (a ++ b) (a.length + i) = a ++ front b i := by
    rw [front, front, List.take_length_add_append, List.length_append, Nat.add_sub_add_left,
      List.append_assoc]
  rw [poke, poke, hfront, Nat.add_assoc, List.drop_length_add_append, List.append_assoc,
    List.append_assoc, List.append_assoc]

omit [DecidableEq α] in
/-- Writing inside of the front of what is there leaves what is behind it. -/
theorem poke_append_of_le {a l : List α} {i : Nat} (hi : i + l.length ≤ a.length) (b : List α) :
    poke (a ++ b) i l = poke a i l ++ b := by
  have hle : i ≤ a.length := Nat.le_trans (Nat.le_add_right _ _) hi
  have hzeros : i - (a ++ b).length = i - a.length := by
    rw [List.length_append]
    omega
  rw [poke, poke, front, front, hzeros, List.take_append_of_le_length hle,
    List.drop_append_of_le_length hi, List.append_assoc (_ ++ l)]

/-! ### Lists of texts -/

/-- The texts of a buffer, each with its zero, up to an empty one that ends
them. -/
def texts : List α → List α → Option (List (List α))
  | _, [] => none
  | w, c :: b =>
      if c = 0 then if w = [] then some [] else (texts [] b).map (w :: ·)
      else texts (w ++ [c]) b

/-- Texts with their zeros. -/
def withZeros (l : List (List α)) : List α := l.flatMap (· ++ [0])

omit [DecidableEq α] in
theorem withZeros_cons (w : List α) (l : List (List α)) :
    withZeros (w :: l) = w ++ 0 :: withZeros l := by
  rw [withZeros, List.flatMap_cons, List.append_assoc]
  rfl

omit [DecidableEq α] in
theorem withZeros_append (l l' : List (List α)) :
    withZeros (l ++ l') = withZeros l ++ withZeros l' := List.flatMap_append

theorem texts_append (w l b : List α) (hl : 0 ∉ l) (hne : w ++ l ≠ []) :
    texts w (l ++ 0 :: b) = (texts [] b).map ((w ++ l) :: ·) := by
  induction l generalizing w with
  | nil =>
      rw [List.append_nil] at hne ⊢
      rw [List.nil_append, texts, if_pos rfl, if_neg hne]
  | cons c l ih =>
      have hc : c ≠ 0 := fun hzero => hl (hzero ▸ List.mem_cons_self)
      have hrest : 0 ∉ l := fun hmem => hl (List.mem_cons_of_mem _ hmem)
      have hword : w ++ [c] ++ l = w ++ c :: l := by simp
      rw [List.cons_append, texts, if_neg hc, ih (w ++ [c]) hrest (by simp), hword]

/-- Texts that are written with their zeros are read back. -/
theorem texts_withZeros {l : List (List α)} (hl : ∀ w ∈ l, w ≠ [] ∧ 0 ∉ w) (b : List α) :
    texts [] (withZeros l ++ b) = (texts [] b).map (l ++ ·) := by
  induction l with
  | nil =>
      cases htexts : texts [] b with
      | none => exact htexts
      | some read => exact htexts
  | cons w l ih =>
      obtain ⟨hne, hzero⟩ := hl w List.mem_cons_self
      rw [withZeros_cons, List.append_assoc, List.cons_append,
        texts_append [] w _ hzero hne, ih fun v hv => hl v (List.mem_cons_of_mem _ hv),
        Option.map_map]
      rfl

theorem texts_zero (b : List α) : texts [] (0 :: b) = some [] := by
  rw [texts, if_pos rfl, if_pos rfl]

/-- A buffer without a zero has no end. -/
theorem texts_of_not_mem {b : List α} (hb : 0 ∉ b) (w : List α) : texts w b = none := by
  induction b generalizing w with
  | nil => rfl
  | cons c b ih =>
      have hc : c ≠ 0 := fun hzero => hb (hzero ▸ List.mem_cons_self)
      rw [texts, if_neg hc]
      exact ih (fun hmem => hb (List.mem_cons_of_mem _ hmem)) _

end MinC.Lib
