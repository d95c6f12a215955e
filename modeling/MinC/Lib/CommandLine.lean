import Mathlib.Data.List.Basic

/-!
Words of a command line.

The rules of Windows: blanks end a word outside of quotes, backslashes are
characters unless a quote follows them, before a quote two of them are one, and
an odd one makes the quote a character. In the first word, the program, a
backslash is always a character. The words are read off byte by byte; what is
owed to a quote that may follow is the number of backslashes.
-/

namespace MinC.Lib

/-- A line that is read: the words that are done, the one at hand, if there is
one, whether it is inside of quotes, and the backslashes that are not settled
yet. -/
structure Words where
  done : List (List UInt8)
  word : Option (List UInt8)
  quoted : Bool
  slashes : Nat

namespace Words

/-- Nothing was read of the program. -/
def start : Words := ⟨[], some [], false, 0⟩

def backslashes (n : Nat) : List UInt8 := List.replicate n 92

/-- Put characters into the word. -/
def put (σ : Words) (cs : List UInt8) : Words :=
  { σ with word := some (σ.word.getD [] ++ cs), slashes := 0 }

/-- Backslashes that no quote follows are characters. -/
def settle (σ : Words) : Words :=
  if σ.slashes = 0 then σ else σ.put (backslashes σ.slashes)

/-- The words if the line ends here, or a blank. -/
def close (σ : Words) : List (List UInt8) := σ.done ++ σ.settle.word.toList

def read (σ : Words) (b : UInt8) : Words :=
  if b = 92 ∧ σ.done ≠ [] then { σ with slashes := σ.slashes + 1 }
  else if b = 34 then
    if σ.slashes % 2 = 1 then σ.put (backslashes (σ.slashes / 2) ++ [34])
    else { σ.put (backslashes (σ.slashes / 2)) with quoted := !σ.quoted }
  else if (b = 32 ∨ b = 9) ∧ σ.quoted = false then ⟨σ.close, none, false, 0⟩
  else σ.settle.put [b]

def readAll (σ : Words) (line : List UInt8) : Words := line.foldl read σ

end Words

/-- The words of a line, the program first. -/
def splitLine (line : List UInt8) : List (List UInt8) := (Words.start.readAll line).close

namespace Words

variable (σ : Words)

@[simp] theorem readAll_nil : σ.readAll [] = σ := rfl

@[simp] theorem readAll_cons (b : UInt8) (line : List UInt8) :
    σ.readAll (b :: line) = (σ.read b).readAll line := rfl

theorem readAll_append (l l' : List UInt8) : σ.readAll (l ++ l') = (σ.readAll l).readAll l' :=
  List.foldl_append

/-! ### Inside of quotes -/

/-- A word inside of quotes that is not the program. -/
def inside (done : List (List UInt8)) (w : List UInt8) (k : Nat) : Words := ⟨done, some w, true, k⟩

section
variable {done : List (List UInt8)} (w : List UInt8) (k : Nat)

theorem read_backslash (hdone : done ≠ []) : (inside done w k).read 92 = inside done w (k + 1) := by
  rw [read, if_pos ⟨rfl, hdone⟩]
  rfl

theorem readAll_backslashes (hdone : done ≠ []) (n : Nat) :
    (inside done w k).readAll (backslashes n) = inside done w (k + n) := by
  induction n generalizing k with
  | zero => rfl
  | succ n ih =>
      rw [backslashes, List.replicate_succ, readAll_cons, read_backslash w k hdone]
      rw [show k + (n + 1) = k + 1 + n by omega]
      exact ih (k + 1)

theorem settle_inside : (inside done w k).settle = inside done (w ++ backslashes k) 0 := by
  rw [settle]
  split_ifs with hk
  · have hk' : k = 0 := hk
    rw [hk', backslashes, List.replicate_zero, List.append_nil]
  · rfl

theorem read_char {b : UInt8} (hslash : b ≠ 92) (hquote : b ≠ 34) :
    (inside done w k).read b = inside done (w ++ backslashes k ++ [b]) 0 := by
  have hblank : ¬ ((b = 32 ∨ b = 9) ∧ (inside done w k).quoted = false) := by
    rintro ⟨_, h⟩
    exact Bool.noConfusion h
  rw [read, if_neg (fun h => hslash h.1), if_neg hquote, if_neg hblank, settle_inside]
  rfl

theorem read_quote_odd (n : Nat) :
    (inside done w (2 * n + 1)).read 34 = inside done (w ++ backslashes n ++ [34]) 0 := by
  have hodd : (inside done w (2 * n + 1)).slashes % 2 = 1 := by
    change (2 * n + 1) % 2 = 1
    omega
  have hhalf : (inside done w (2 * n + 1)).slashes / 2 = n := by
    change (2 * n + 1) / 2 = n
    omega
  rw [read, if_neg (by simp), if_pos rfl, if_pos hodd, hhalf, List.append_assoc]
  rfl

/-- A quote that ends the quotes. -/
theorem read_quote_even (n : Nat) :
    (inside done w (2 * n)).read 34 = ⟨done, some (w ++ backslashes n), false, 0⟩ := by
  have heven : ¬ (inside done w (2 * n)).slashes % 2 = 1 := by
    change ¬ (2 * n) % 2 = 1
    omega
  have hhalf : (inside done w (2 * n)).slashes / 2 = n := by
    change (2 * n) / 2 = n
    omega
  rw [read, if_neg (by simp), if_pos rfl, if_neg heven, hhalf]
  rfl

end

/-! ### What is read stays -/

section
variable (σ : Words) (b : UInt8) (line : List UInt8)

theorem settle_done : σ.settle.done = σ.done := by
  rw [settle]
  split_ifs
  · rfl
  · rfl

variable {σ} in
theorem settle_word {w : List UInt8} (h : σ.word = some w) :
    ∃ x, σ.settle.word = some (w ++ x) := by
  rw [settle]
  split_ifs
  · exact ⟨[], by rw [h, List.append_nil]⟩
  · exact ⟨backslashes σ.slashes, by rw [put, h]; rfl⟩

/-- A byte goes on with the word at hand, or ends it. -/
theorem read_word {w : List UInt8} (h : σ.word = some w) :
    (∃ x, (σ.read b).word = some (w ++ x) ∧ (σ.read b).done = σ.done) ∨
      ∃ x, (σ.read b).done = σ.done ++ [w ++ x] := by
  obtain ⟨x, hx⟩ := settle_word h
  rw [read]
  split_ifs with hslash hquote hodd hblank
  · exact .inl ⟨[], by rw [List.append_nil]; exact h, rfl⟩
  · exact .inl ⟨_, by rw [put, h]; rfl, rfl⟩
  · exact .inl ⟨_, by rw [put, h]; rfl, rfl⟩
  · exact .inr ⟨x, by rw [close, hx]; rfl⟩
  · exact .inl ⟨x ++ [b], by rw [put, hx, ← List.append_assoc]; rfl, settle_done σ⟩

theorem read_done : ∃ more, (σ.read b).done = σ.done ++ more := by
  rw [read]
  split_ifs
  · exact ⟨[], (List.append_nil _).symm⟩
  · exact ⟨[], (List.append_nil _).symm⟩
  · exact ⟨[], (List.append_nil _).symm⟩
  · exact ⟨σ.settle.word.toList, rfl⟩
  · exact ⟨[], by rw [List.append_nil]; exact settle_done σ⟩

theorem close_done : ∃ more, (σ.readAll line).close = σ.done ++ more := by
  induction line generalizing σ with
  | nil => exact ⟨σ.settle.word.toList, rfl⟩
  | cons b line ih =>
      obtain ⟨more, hmore⟩ := read_done σ b
      obtain ⟨rest, hrest⟩ := ih (σ.read b)
      exact ⟨more ++ rest, by rw [readAll_cons, hrest, hmore, List.append_assoc]⟩

/-- The words that are done stay, and the one at hand only grows. -/
theorem close_word {w : List UInt8} (h : σ.word = some w) :
    ∃ x more, (σ.readAll line).close = σ.done ++ (w ++ x) :: more := by
  induction line generalizing σ w with
  | nil =>
      obtain ⟨x, hx⟩ := settle_word h
      exact ⟨x, [], by rw [readAll_nil, close, hx]; rfl⟩
  | cons b line ih =>
      rcases read_word σ b h with ⟨x, hword, hsame⟩ | ⟨x, hended⟩
      · obtain ⟨y, more, hmore⟩ := ih (σ.read b) hword
        exact ⟨x ++ y, more, by rw [readAll_cons, hmore, hsame, List.append_assoc]⟩
      · obtain ⟨more, hmore⟩ := close_done (σ.read b) line
        exact ⟨x, more, by rw [readAll_cons, hmore, hended, List.append_assoc]; rfl⟩

/-- There is a word before the first blank, and inside of quotes. -/
structure Started : Prop where
  close_ne : σ.close ≠ []
  word_of_quoted : σ.quoted = true → ∃ w, σ.word = some w

theorem start_started : start.Started := ⟨by decide, fun h => Bool.noConfusion h⟩

theorem close_put (cs : List UInt8) : (σ.put cs).close ≠ [] := by
  rw [close]
  exact List.append_ne_nil_of_right_ne_nil _ (List.cons_ne_nil _ _)

variable {σ} in
theorem Started.read (h : σ.Started) : (σ.read b).Started := by
  rw [Words.read]
  split_ifs with hslash hquote hodd hblank
  · refine ⟨?_, h.word_of_quoted⟩
    rw [close]
    exact List.append_ne_nil_of_left_ne_nil hslash.2 _
  · exact ⟨close_put σ _, fun _ => ⟨_, rfl⟩⟩
  · exact ⟨close_put σ _, fun _ => ⟨_, rfl⟩⟩
  · exact ⟨List.append_ne_nil_of_left_ne_nil h.close_ne _, fun hquoted => Bool.noConfusion hquoted⟩
  · exact ⟨close_put σ.settle _, fun _ => ⟨_, rfl⟩⟩

variable {σ} in
theorem Started.readAll (h : σ.Started) : (σ.readAll line).Started := by
  induction line generalizing σ with
  | nil => exact h
  | cons b line ih => exact ih (h.read b)

end

end Words

end MinC.Lib
