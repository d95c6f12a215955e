import MinC.Lib.Cells
import MinC.Lib.Layout
import Mathlib.Data.List.Basic
import Mathlib.Tactic.SplitIfs

/-!
Lines of fields.

A line is fields with a separator between them, and is split into these fields
again if none of them has the separator. A writer puts a line together from
strings, each at the place where the one before it ended, over its zero. What it
stores goes as far as the zero of what was written last, so that a line is within
a limit exactly when its last zero is.

A reader ends a field where it stands: it writes a zero over the separator, and
goes on behind it. What it has gone over are the fields, each with its zero, so
that a place that a field began at is a string later.
-/

namespace MinC.Lib

/-! ### Fields -/

section
variable {α : Type*} [DecidableEq α] {sep : α}

theorem not_mem_of_mem_splitOn {l field : List α} (h : field ∈ l.splitOn sep) : sep ∉ field := by
  induction l generalizing field with
  | nil =>
      rw [List.mem_singleton.mp h]
      exact List.not_mem_nil
  | cons x l ih =>
      rw [List.splitOn_cons_eq_if_modifyHead] at h
      split_ifs at h with hx
      · rcases List.mem_cons.mp h with rfl | h
        · exact List.not_mem_nil
        · exact ih h
      · obtain ⟨first, more, hsplit⟩ := List.exists_cons_of_ne_nil (List.splitOn_ne_nil sep l)
        rw [hsplit] at h ih
        rw [List.modifyHead_cons] at h
        rcases List.mem_cons.mp h with rfl | h
        · rw [List.mem_cons, not_or]
          exact ⟨fun heq => hx (beq_iff_eq.mpr heq.symm), ih List.mem_cons_self⟩
        · exact ih (List.mem_cons_of_mem _ h)

omit [DecidableEq α] in
/-- The last two fields of a line are behind the fields in front of them, each with its
separator. -/
theorem intercalate_append_pair (front : List (List α)) (field last : List α) :
    [sep].intercalate (front ++ [field, last]) =
      front.flatMap (· ++ [sep]) ++ (field ++ sep :: last) := by
  induction front with
  | nil => simp [List.intercalate_cons_cons]
  | cons first front ih =>
      have hne : front ++ [field, last] ≠ [] := List.append_ne_nil_of_right_ne_nil _ (by simp)
      rw [List.cons_append, List.intercalate_cons_of_ne_nil hne, ih, List.flatMap_cons]
      simp only [List.append_assoc]

/-- A line is split into fields exactly if it is put together from them and none of them
has the separator. -/
theorem splitOn_eq_iff {l : List α} {fields : List (List α)} (hne : fields ≠ []) :
    l.splitOn sep = fields ↔
      l = [sep].intercalate fields ∧ ∀ field ∈ fields, sep ∉ field := by
  constructor
  · rintro rfl
    exact ⟨(List.intercalate_splitOn sep).symm, fun _ => not_mem_of_mem_splitOn⟩
  · rintro ⟨rfl, h⟩
    exact List.splitOn_intercalate sep h hne

end

/-! ### Writers -/

/-- The cells of some memory, what was stored in them, and the place at which the next
string begins. -/
structure LineWriter (α : Type*) where
  cells : List α
  stores : List (Placed (List α))
  place : Nat

namespace LineWriter

variable {α : Type*} [Zero α]

def put (w : LineWriter α) (offset : Nat) (l : List α) : LineWriter α :=
  { w with cells := poke w.cells offset l, stores := w.stores ++ [⟨offset, l⟩] }

/-- Write a string with its zero, which the next one is written over. -/
def string (w : LineWriter α) (s : List α) : LineWriter α :=
  { w.put w.place (s ++ [0]) with place := w.place + s.length }

/-- What was written from a place on, which is all that was stored. -/
structure Wrote (start : Nat) (w : LineWriter α) (t : List α) : Prop where
  place : w.place = start + t.length
  cells : ∃ before rest, before.length = start ∧ w.cells = before ++ t ++ rest
  inside : ∀ store ∈ w.stores,
    start ≤ store.offset ∧ store.offset + store.item.length ≤ w.place + 1

/-- The writer has written a string last, which ends in a zero. -/
structure Ended (start : Nat) (w : LineWriter α) (t : List α) : Prop extends Wrote start w t where
  zero : ∃ before rest, before.length = start ∧ w.cells = before ++ t ++ 0 :: rest
  last : ∃ store ∈ w.stores, store.offset + store.item.length = w.place + 1

variable {start : Nat} {w : LineWriter α} {t : List α}

omit [Zero α] in
theorem wrote_start {cells : List α} (h : start ≤ cells.length) :
    Wrote start ⟨cells, [], start⟩ [] := by
  refine ⟨rfl, ⟨cells.take start, cells.drop start, List.length_take_of_le h, ?_⟩,
    fun _ h => absurd h List.not_mem_nil⟩
  rw [List.append_nil, List.take_append_drop]

/-- A string is written behind what was written. -/
theorem Wrote.string (h : Wrote start w t) (s : List α) : Ended start (w.string s) (t ++ s) := by
  obtain ⟨before, rest, hbefore, hcells⟩ := h.cells
  have hplace : w.place = (before ++ t).length := by
    rw [h.place, List.length_append, hbefore]
  have hzero : (w.string s).cells = before ++ (t ++ s) ++ 0 :: rest.drop (s.length + 1) := by
    show poke w.cells w.place (s ++ [0]) = _
    rw [hplace, hcells, poke_append, List.length_append, List.length_singleton]
    simp only [List.append_assoc, List.singleton_append]
  refine ⟨⟨?_, ⟨before, _, hbefore, hzero⟩, ?_⟩, ⟨before, _, hbefore, hzero⟩, ?_⟩
  · show w.place + s.length = _
    rw [h.place, List.length_append, Nat.add_assoc]
  · intro store hstore
    have hend : (w.string s).place = w.place + s.length := rfl
    rw [hend]
    rcases List.mem_append.mp hstore with hold | hnew
    · have hinside := h.inside store hold
      omega
    · have hstart := h.place
      rw [List.mem_singleton.mp hnew]
      simp only [List.length_append, List.length_singleton]
      omega
  · refine ⟨⟨w.place, s ++ [0]⟩, List.mem_append_right _ (List.mem_singleton_self _), ?_⟩
    show w.place + (s ++ [0]).length = w.place + s.length + 1
    rw [List.length_append, List.length_singleton, Nat.add_assoc]

/-- What is put into what was written leaves the rest as it is. -/
theorem Wrote.put (h : Wrote start w t) {i : Nat} {l : List α} (hi : i + l.length ≤ t.length) :
    Wrote start (w.put (start + i) l) (poke t i l) := by
  obtain ⟨before, rest, hbefore, hcells⟩ := h.cells
  have hplace := h.place
  refine ⟨?_, ⟨before, rest, hbefore, ?_⟩, ?_⟩
  · rw [length_poke hi]
    exact hplace
  · show poke w.cells (start + i) l = _
    rw [hcells, ← hbefore, List.append_assoc, poke_append_add, poke_append_of_le hi,
      List.append_assoc]
  · intro store hstore
    have hend : (w.put (start + i) l).place = w.place := rfl
    rw [hend]
    rcases List.mem_append.mp hstore with hold | hnew
    · exact h.inside store hold
    · rw [List.mem_singleton.mp hnew]
      dsimp only
      omega

/-- What was stored is within a limit exactly when the last zero is. -/
theorem Ended.within_iff (h : Ended start w t) (limit : Nat) :
    (∀ store ∈ w.stores, start ≤ store.offset ∧
      store.offset + store.item.length ≤ start + limit) ↔ t.length + 1 ≤ limit := by
  obtain ⟨last, hlast, hend⟩ := h.last
  have hplace := h.place
  constructor
  · intro hinside
    have hle := (hinside last hlast).2
    omega
  · intro hle store hstore
    have hinside := h.inside store hstore
    omega

/-- The string that is found where the writer began. -/
theorem Ended.text [DecidableEq α] (h : Ended start w t) :
    text (w.cells.drop start) = MinC.Lib.text t := by
  obtain ⟨before, rest, hbefore, hcells⟩ := h.zero
  rw [hcells, List.append_assoc, List.drop_left' hbefore]
  exact text_append_zero_eq t rest

end LineWriter

/-! ### Reading fields in place -/

section
variable {α : Type*} [Zero α] [DecidableEq α] {sep : α}

/-- A field goes on over this cell. -/
def goesOn (sep c : α) : Bool := decide (c ≠ 0) && decide (c ≠ sep)

/-- The cells after the field from a place on was ended, and the place behind it. -/
def skipField (sep : α) (cells : List α) (place : Nat) : List α × Nat :=
  let fin := place + ((cells.drop place).takeWhile (goesOn sep)).length
  (poke cells fin [0], fin + 1)

theorem takeWhile_field {field rest : List α} {c : α} (hzero : 0 ∉ field) (hsep : sep ∉ field)
    (hc : c = 0 ∨ c = sep) : (field ++ c :: rest).takeWhile (goesOn sep) = field := by
  have hall : ∀ x ∈ field, goesOn sep x = true := by
    intro x hx
    rw [goesOn, Bool.and_eq_true, decide_eq_true_eq, decide_eq_true_eq]
    constructor
    · rintro rfl
      exact hzero hx
    · rintro rfl
      exact hsep hx
  have hend : ¬goesOn sep c = true := by
    rw [goesOn, Bool.and_eq_true, decide_eq_true_eq, decide_eq_true_eq]
    rintro ⟨hne, hne'⟩
    exact hc.elim hne hne'
  rw [List.takeWhile_append_of_pos hall, List.takeWhile_cons_of_neg hend, List.append_nil]

/-- A field is ended where its separator or its zero stands. -/
theorem skipField_eq {before field rest : List α} {c : α} (hzero : 0 ∉ field) (hsep : sep ∉ field)
    (hc : c = 0 ∨ c = sep) :
    skipField sep (before ++ (field ++ c :: rest)) before.length =
      (before ++ (field ++ [0]) ++ rest, (before ++ (field ++ [0])).length) := by
  rw [skipField, List.drop_left' rfl, takeWhile_field hzero hsep hc, ← List.append_assoc,
    ← List.length_append, poke_append]
  simp [Nat.add_assoc]

/-- A field that was ended is the string at its place. -/
theorem text_drop_field {field : List α} (hzero : 0 ∉ field) (before rest : List α) :
    text ((before ++ (field ++ 0 :: rest)).drop before.length) = field := by
  rw [List.drop_left' rfl]
  exact text_append_zero hzero rest

end

end MinC.Lib
