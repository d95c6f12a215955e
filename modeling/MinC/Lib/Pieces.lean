import Mathlib.Data.List.Basic
import Mathlib.Data.List.DropRight

/-!
The words of a text.

A text is cut at a separator, and its words are the pieces that are not empty.
A reader that goes through a text from its front has some words behind it, and
is in a word that may go on. It may prune the words, to what follows the last
mark in each, and may have room for some words only. Then it reads the words of
a text exactly if the text has no marks, has not too many words, and ends in one
of them.
-/

namespace MinC.Lib

variable {α : Type*}

/-- The words of a text. -/
def words [DecidableEq α] (sep : α) (l : List α) : List (List α) := (l.splitOn sep).filter (· ≠ [])

section
variable [DecidableEq α] {sep : α}

@[simp] theorem words_nil : words sep ([] : List α) = [] := rfl

/-- Words end at a separator. -/
theorem words_append_sep (l l' : List α) :
    words sep (l ++ sep :: l') = words sep l ++ words sep l' := by
  rw [words, List.splitOn_append_cons_self, List.filter_append, words, words]

theorem words_of_not_mem {w : List α} (hw : sep ∉ w) (hne : w ≠ []) : words sep w = [w] := by
  rw [words, List.splitOn_eq_singleton hw]
  exact List.filter_cons_of_pos (decide_eq_true hne)

theorem ne_nil_of_mem_words {w l : List α} (h : w ∈ words sep l) : w ≠ [] :=
  of_decide_eq_true (List.mem_filter.mp h).2

/-- The characters of a word are those of the text. -/
theorem mem_of_mem_word {w l : List α} {c : α} (hw : w ∈ words sep l) (hc : c ∈ w) : c ∈ l := by
  replace hw := (List.mem_filter.mp hw).1
  induction l generalizing w with
  | nil =>
      rw [List.mem_singleton.mp hw] at hc
      exact absurd hc List.not_mem_nil
  | cons x l ih =>
      rw [List.splitOn_cons_eq_if_modifyHead] at hw
      split_ifs at hw with hx
      · rcases List.mem_cons.mp hw with rfl | hw
        · exact absurd hc List.not_mem_nil
        · exact List.mem_cons_of_mem _ (ih hc hw)
      · obtain ⟨p, ps, hps⟩ := List.exists_cons_of_ne_nil (List.splitOn_ne_nil sep l)
        rw [hps, List.modifyHead_cons] at hw
        rcases List.mem_cons.mp hw with rfl | hw
        · rcases List.mem_cons.mp hc with rfl | hc
          · exact List.mem_cons_self
          · exact List.mem_cons_of_mem _ (ih hc (by rw [hps]; exact List.mem_cons_self))
        · exact List.mem_cons_of_mem _ (ih hc (by rw [hps]; exact List.mem_cons_of_mem _ hw))

/-- What is not a separator is in a word. -/
theorem exists_word {c : α} {l : List α} (hc : c ∈ l) (hsep : c ≠ sep) :
    ∃ w ∈ words sep l, c ∈ w := by
  obtain ⟨w, hw, hcw⟩ : ∃ w ∈ l.splitOn sep, c ∈ w := by
    induction l with
    | nil => exact absurd hc List.not_mem_nil
    | cons x l ih =>
        rw [List.splitOn_cons_eq_if_modifyHead]
        split_ifs with hx
        · have hne : c ≠ x := fun heq => hsep (heq.trans (eq_of_beq hx))
          obtain ⟨w, hw, hcw⟩ := ih ((List.mem_cons.mp hc).resolve_left hne)
          exact ⟨w, List.mem_cons_of_mem _ hw, hcw⟩
        · obtain ⟨p, ps, hps⟩ := List.exists_cons_of_ne_nil (List.splitOn_ne_nil sep l)
          rw [hps, List.modifyHead_cons]
          rcases List.mem_cons.mp hc with rfl | hc
          · exact ⟨c :: p, List.mem_cons_self, List.mem_cons_self⟩
          · obtain ⟨w, hw, hcw⟩ := ih hc
            rw [hps] at hw
            rcases List.mem_cons.mp hw with rfl | hw
            · exact ⟨x :: w, List.mem_cons_self, List.mem_cons_of_mem _ hcw⟩
            · exact ⟨w, List.mem_cons_of_mem _ hw, hcw⟩
  exact ⟨w, List.mem_filter.mpr ⟨hw, decide_eq_true (List.ne_nil_of_mem hcw)⟩, hcw⟩

end

/-! ### Pruned words -/

/-- What follows the last mark. -/
def pruned (isMark : α → Bool) (w : List α) : List α := w.rtakeWhile fun c => ! isMark c

/-- What is left of some words. -/
def prunedWords (isMark : α → Bool) (ws : List (List α)) : List (List α) :=
  (ws.map (pruned isMark)).filter (· ≠ [])

section
variable {isMark : α → Bool} {w : List α}

theorem not_mark_of_mem_pruned {c : α} (h : c ∈ pruned isMark w) : isMark c = false := by
  simpa using List.mem_rtakeWhile_imp h

theorem pruned_of_plain (h : ∀ c ∈ w, isMark c = false) : pruned isMark w = w := by
  apply List.rtakeWhile_eq_self_iff.mpr
  intro c hc
  rw [h c hc]
  rfl

theorem prunedWords_append (ws ws' : List (List α)) :
    prunedWords isMark (ws ++ ws') = prunedWords isMark ws ++ prunedWords isMark ws' := by
  rw [prunedWords, List.map_append, List.filter_append, prunedWords, prunedWords]

theorem prunedWords_of_plain {ws : List (List α)} (hne : ∀ w ∈ ws, w ≠ [])
    (h : ∀ w ∈ ws, ∀ c ∈ w, isMark c = false) : prunedWords isMark ws = ws := by
  have hsame : ws.map (pruned isMark) = ws := by
    calc ws.map (pruned isMark) = ws.map id :=
          List.map_congr_left fun w hw => pruned_of_plain (h w hw)
      _ = ws := List.map_id ws
  rw [prunedWords, hsame]
  apply List.filter_eq_self.mpr
  intro w hw
  exact decide_eq_true (hne w hw)

theorem not_mark_of_mem_prunedWords {ws : List (List α)} (hw : w ∈ prunedWords isMark ws) {c : α}
    (hc : c ∈ w) : isMark c = false := by
  obtain ⟨w', -, rfl⟩ := List.mem_map.mp (List.mem_filter.mp hw).1
  exact not_mark_of_mem_pruned hc

/-- Words without marks are all read. -/
theorem length_prunedWords_ge {ws : List (List α)} {n : Nat} (hn : n ≤ ws.length)
    (hne : ∀ w ∈ ws, w ≠ []) (h : ∀ w ∈ ws.take n, ∀ c ∈ w, isMark c = false) :
    n ≤ (prunedWords isMark ws).length :=
  calc n = (ws.take n).length := (List.length_take_of_le hn).symm
    _ = (prunedWords isMark (ws.take n)).length := by
        rw [prunedWords_of_plain (fun w hw => hne w (List.mem_of_mem_take hw)) h]
    _ ≤ (prunedWords isMark ws).length := by
        rw [← List.take_append_drop n ws, prunedWords_append, List.take_append_drop,
          List.length_append]
        exact Nat.le_add_right _ _

theorem length_prunedWords_le (ws : List (List α)) :
    (prunedWords isMark ws).length ≤ ws.length := by
  calc (prunedWords isMark ws).length ≤ (ws.map (pruned isMark)).length := List.length_filter_le _ _
    _ = ws.length := List.length_map _

end

/-! ### Reading words -/

/-- The text ends with the word, before which there is nothing or a separator. -/
def EndsIn (sep : α) (text before last : List α) : Prop :=
  sep ∉ last ∧ ((before = [] ∧ text = last) ∨ text = before ++ sep :: last)

/-- What a reader has of a text: the words that have ended, and the one it is in. -/
structure Reads [DecidableEq α] (sep : α) (isMark : α → Bool) (text : List α) (ended : List (List α))
    (word : List α) : Prop where
  split : ∃ before last, EndsIn sep text before last ∧
    ended = prunedWords isMark (words sep before) ∧ word = pruned isMark last

section
variable {sep : α} {isMark : α → Bool} {text before last word : List α} {ended : List (List α)}
  {c : α}

theorem EndsIn.words_eq [DecidableEq α] (h : EndsIn sep text before last) :
    words sep text = words sep before ++ words sep last := by
  obtain ⟨-, ⟨rfl, rfl⟩ | rfl⟩ := h
  · rfl
  · exact words_append_sep before last

theorem EndsIn.words_last [DecidableEq α] (h : EndsIn sep text before last) (hne : last ≠ []) :
    words sep text = words sep before ++ [last] := by
  rw [h.words_eq, words_of_not_mem h.1 hne]

theorem EndsIn.concat (h : EndsIn sep text before last) (hc : c ≠ sep) :
    EndsIn sep (text ++ [c]) before (last ++ [c]) := by
  obtain ⟨hlast, htext⟩ := h
  refine ⟨?_, ?_⟩
  · intro hmem
    rcases List.mem_append.mp hmem with hmem | hmem
    · exact hlast hmem
    · exact hc (List.mem_singleton.mp hmem).symm
  · rcases htext with ⟨rfl, rfl⟩ | rfl
    · exact .inl ⟨rfl, rfl⟩
    · right
      rw [List.append_assoc, List.cons_append]

theorem EndsIn.getLast? (h : EndsIn sep text before last) :
    last ≠ [] ↔ ∃ c, text.getLast? = some c ∧ c ≠ sep := by
  obtain ⟨hlast, htext⟩ := h
  rcases List.eq_nil_or_concat last with rfl | ⟨l, c, rfl⟩
  · refine iff_of_false (fun h => h rfl) ?_
    rintro ⟨c, hc, hne⟩
    rcases htext with ⟨-, rfl⟩ | rfl
    · cases hc
    · rw [List.getLast?_concat] at hc
      exact hne (Option.some.inj hc).symm
  · have hc : text.getLast? = some c := by
      rcases htext with ⟨-, rfl⟩ | rfl
      · rw [List.concat_eq_append, List.getLast?_concat]
      · rw [List.concat_eq_append, ← List.cons_append, ← List.append_assoc, List.getLast?_concat]
    refine iff_of_true (by rw [List.concat_eq_append]; exact List.concat_ne_nil _ _) ⟨c, hc, ?_⟩
    rintro rfl
    exact hlast (by rw [List.concat_eq_append]; exact List.mem_append_right _ List.mem_cons_self)

variable [DecidableEq α]

theorem Reads.start : Reads sep isMark [] [] [] :=
  ⟨[], [], ⟨List.not_mem_nil, .inl ⟨rfl, rfl⟩⟩, rfl, rfl⟩

theorem words_eq_last (h : sep ∉ last) : words sep last = if last = [] then [] else [last] := by
  split_ifs with hne
  · subst hne
    rfl
  · exact words_of_not_mem h hne

theorem prunedWords_last (h : sep ∉ last) :
    prunedWords isMark (words sep last) =
      if pruned isMark last = [] then [] else [pruned isMark last] := by
  rw [words_eq_last h]
  by_cases hne : last = []
  · subst hne
    rfl
  · rw [if_neg hne, prunedWords, List.map_singleton]
    by_cases hpruned : pruned isMark last = []
    · rw [if_pos hpruned, hpruned]
      rfl
    · rw [if_neg hpruned]
      exact List.filter_cons_of_pos (decide_eq_true hpruned)

/-- A mark ends what was read of a word. -/
theorem Reads.mark (h : Reads sep isMark text ended word) (hc : isMark c = true) (hsep : c ≠ sep) :
    Reads sep isMark (text ++ [c]) ended [] := by
  obtain ⟨before, last, hends, hended, -⟩ := h
  refine ⟨before, last ++ [c], hends.concat hsep, hended, ?_⟩
  exact (List.rtakeWhile_concat_neg _ _ _ (by simp [hc])).symm

/-- Any other character goes on with the word. -/
theorem Reads.put (h : Reads sep isMark text ended word) (hc : isMark c = false) (hsep : c ≠ sep) :
    Reads sep isMark (text ++ [c]) ended (word ++ [c]) := by
  obtain ⟨before, last, hends, hended, rfl⟩ := h
  refine ⟨before, last ++ [c], hends.concat hsep, hended, ?_⟩
  exact (List.rtakeWhile_concat_pos _ _ _ (by simp [hc])).symm

/-- A word that is not empty ends at a separator. -/
theorem Reads.separator (h : Reads sep isMark text ended word) :
    Reads sep isMark (text ++ [sep]) (if word = [] then ended else ended ++ [word]) [] := by
  obtain ⟨before, last, hends, rfl, rfl⟩ := h
  refine ⟨text, [], ⟨List.not_mem_nil, .inr rfl⟩, ?_, rfl⟩
  rw [hends.words_eq, prunedWords_append, prunedWords_last hends.1]
  split_ifs
  · rw [List.append_nil]
  · rfl

/-- A text that a reader with room for some words reads as it is. -/
structure Tidy [DecidableEq α] (sep : α) (isMark : α → Bool) (room : Nat) (text : List α) : Prop where
  plain : ∀ c ∈ text, isMark c = false
  ended : ∃ c, text.getLast? = some c ∧ c ≠ sep
  few : (words sep text).length ≤ room

/-- Where a word of a tidy text ends, and more follows, there is room for it. -/
theorem Reads.room (h : Reads sep isMark text ended word) {room : Nat} {more : List α}
    (htidy : Tidy sep isMark room (text ++ sep :: more)) : ended.length < room := by
  obtain ⟨before, last, hends, rfl, rfl⟩ := h
  obtain ⟨-, ⟨c, hc, hne⟩, hfew⟩ := htidy
  rw [words_append_sep, hends.words_eq, List.length_append, List.length_append] at hfew
  -- the text ends in a word that is not read yet
  have hlast : 0 < (words sep more).length := by
    rw [List.getLast?_append_cons, List.getLast?_cons] at hc
    cases hmore : more.getLast? with
    | none =>
        rw [hmore] at hc
        exact absurd (Option.some.inj hc).symm hne
    | some c' =>
        rw [hmore] at hc
        obtain rfl : c' = c := Option.some.inj hc
        obtain ⟨w, hw, -⟩ := exists_word (List.mem_of_getLast? hmore) hne
        exact List.length_pos_of_mem hw
  have hread : (prunedWords isMark (words sep before)).length ≤ (words sep before).length :=
    length_prunedWords_le _
  omega

/-- The reader has read the words, as many as there is room for, exactly if the
text is tidy. -/
theorem Reads.exact_iff (h : Reads sep isMark text ended word) (hsep : isMark sep = false)
    {room : Nat} :
    (ended ++ [word] = (words sep text).take room ∧ ended.length < room) ↔
      Tidy sep isMark room text := by
  obtain ⟨before, last, hends, rfl, rfl⟩ := h
  constructor
  · rintro ⟨hexact, hroom⟩
    have hmem : pruned isMark last ∈ (words sep text).take room := by
      rw [← hexact]
      exact List.mem_append_right _ List.mem_cons_self
    have hne : last ≠ [] := by
      rintro rfl
      exact ne_nil_of_mem_words (List.mem_of_mem_take hmem) rfl
    -- nothing that was read has a mark in it
    have hplain : ∀ w ∈ (words sep text).take room, ∀ c ∈ w, isMark c = false := by
      intro w hw c hc
      rw [← hexact] at hw
      rcases List.mem_append.mp hw with hw | hw
      · exact not_mark_of_mem_prunedWords hw hc
      · rw [List.mem_singleton.mp hw] at hc
        exact not_mark_of_mem_pruned hc
    have hwords := hends.words_last hne
    have hfew : (words sep before).length < room := by
      by_contra hmany
      have hle : room ≤ (words sep before).length := Nat.le_of_not_lt hmany
      rw [hwords, List.take_append_of_le_length hle] at hplain
      -- then there is no room for one more
      have hread := length_prunedWords_ge hle (fun w hw => ne_nil_of_mem_words hw) hplain
      omega
    have hlength : (words sep text).length ≤ room := by
      rw [hwords, List.length_append, List.length_singleton]
      exact hfew
    rw [List.take_of_length_le hlength] at hplain
    refine ⟨fun c hc => ?_, hends.getLast?.mp hne, hlength⟩
    by_cases heq : c = sep
    · rw [heq]
      exact hsep
    · obtain ⟨w, hw, hcw⟩ := exists_word hc heq
      exact hplain w hw c hcw
  · rintro ⟨hplain, hended, hfew⟩
    have hne : last ≠ [] := hends.getLast?.mpr hended
    have hwords := hends.words_last hne
    have hall : ∀ w ∈ words sep text, ∀ c ∈ w, isMark c = false :=
      fun w hw c hc => hplain c (mem_of_mem_word hw hc)
    rw [hwords] at hall hfew ⊢
    rw [List.length_append, List.length_singleton] at hfew
    have hbefore : prunedWords isMark (words sep before) = words sep before :=
      prunedWords_of_plain (fun w hw => ne_nil_of_mem_words hw)
        (fun w hw => hall w (List.mem_append_left _ hw))
    rw [hbefore, pruned_of_plain (hall last (List.mem_append_right _ List.mem_cons_self)),
      List.take_of_length_le (by rw [List.length_append, List.length_singleton]; exact hfew)]
    exact ⟨rfl, hfew⟩

end

end MinC.Lib
