import MinC.Lib.Cells
import MinC.Lib.Pieces
import MinC.Vfs.Types
import MinC.Win.Error

/-!
The first line of a script.

What a script is to be run with is in its first line, behind two characters that
say that it is a script. The line is read to an array, and cut in place: where
its words start is stored in a vector. Each of the two characters starts a word
afresh, wherever it is. What is stored in the array and in the vector is told
apart from what fits there: all indices that are written to are recorded.
-/

namespace MinC.Sys

open MinC.Lib MinC.Win MinC.Vfs

def maxline : Nat := 80
def maxdepth : Nat := 16

/-- `argv_posix` under way. Of the bytes from the start of the line on, those
behind the array belong to something else. -/
structure Argv where
  line : List UInt8
  buf : Nat
  argv : Nat → Option Nat
  top : Nat
  count : Nat
  lineWrites : List Nat
  argvWrites : List Nat

def endsLine (c : UInt8) : Bool := c == 0 || c == 13 || c == 10

/-- One of `#!`. -/
def isMark (c : UInt8) : Bool := c == 35 || c == 33

namespace Argv

/-- `*buf` -/
def char (s : Argv) : UInt8 := s.line.getD s.buf 0

/-- `*argv[0]` -/
def wordChar (s : Argv) : UInt8 := ((s.argv s.top).map fun start => s.line.getD start 0).getD 0

/-- `buf++` -/
def next (s : Argv) : Argv := { s with buf := s.buf + 1 }

/-- `*buf = 0` -/
def setChar (s : Argv) : Argv :=
  { s with line := s.line.set s.buf 0, lineWrites := s.lineWrites ++ [s.buf] }

/-- `*argv = ...` -/
def setWord (s : Argv) (start : Option Nat) : Argv :=
  { s with argv := Function.update s.argv s.top start, argvWrites := s.argvWrites ++ [s.top] }

/-- `*argv = buf` -/
def startWord (s : Argv) : Argv := s.setWord (some s.buf)

/-- `argv++` and `count++` -/
def advance (s : Argv) : Argv := { s with top := s.top + 1, count := s.count + 1 }

/-- The end of a word. An empty one is skipped. -/
def endWord (s : Argv) : Argv :=
  let s := s.setChar.next
  (if s.wordChar ≠ 0 then s.advance else s).startWord

/-- The words that were found. -/
def words (s : Argv) : List (List UInt8) :=
  (List.range s.count).filterMap fun i => (s.argv i).map fun start => text (s.line.drop start)

end Argv

def argvStart (line : List UInt8) : Argv :=
  Argv.startWord ⟨line, 0, fun _ => none, 0, 0, [], []⟩

/-- The loop. Behind the last character that there is room for it stops as it
does at the end of the line. -/
def argvPosixLoop : Nat → Argv → Argv
  | 0, s => s
  | size + 1, s =>
      if endsLine s.char then s
      else if isMark s.char then argvPosixLoop size s.next.startWord
      else if s.char ≠ 32 then argvPosixLoop size s.next
      else if maxdepth ≤ s.count then s
      else argvPosixLoop size s.endWord

def argvPosix (line : List UInt8) (size : Nat) : Argv :=
  (argvPosixLoop size (argvStart line)).setChar.advance.setWord none

/-- The array when some bytes were read to it. -/
def lineOf (bytes stale : List UInt8) : List UInt8 :=
  bytes.take maxline ++ stale.drop (bytes.take maxline).length

inductive Shebang
  | failed (error : UInt32)
  | image
  | script (argv : Argv)

/-- `shebang_win`, up to the words of the line. The read answers the bytes of
the file. -/
def shebangWin (fileType : WinVtype) (fsType : WinFsType) (read : Except UInt32 (List UInt8))
    (stale behind : List UInt8) : Shebang :=
  if fileType = .vdir then .failed errorPathBusy
  else if fsType ≠ .disk then .failed errorAccessDenied
  else match read with
  | .error e => .failed e
  | .ok bytes =>
      let line := lineOf bytes stale ++ behind
      if line.getD 0 0 = 77 ∧ line.getD 1 0 = 90 then .image
      else if line.getD 0 0 ≠ 35 ∨ line.getD 1 0 ≠ 33 then .failed errorBadExeFormat
      else .script (argvPosix line maxline)

/-! ### What the loop does -/

/-- The words that were cut off are in the bytes that the loop has gone over. -/
structure Cut (s : Argv) (before rest : List UInt8) (ended : List (List UInt8)) : Prop where
  line : s.line = before ++ rest
  buf : s.buf = before.length
  top : s.top = ended.length
  count : s.count = ended.length
  words : ∀ i w, ended[i]? = some w → 0 ∉ w ∧
    ∃ pre post, s.argv i = some pre.length ∧ before = pre ++ (w ++ 0 :: post)
  lineWrites : ∀ i ∈ s.lineWrites, i < before.length
  argvWrites : ∀ i ∈ s.argvWrites, i ≤ ended.length

/-- The loop is in a word, behind those that were cut off. -/
structure Splitting (s : Argv) (before rest : List UInt8) (ended : List (List UInt8))
    (word : List UInt8) : Prop extends Cut s before rest ended where
  word : 0 ∉ word ∧ ∃ pre, s.argv ended.length = some pre.length ∧ before = pre ++ word

section
variable {s : Argv} {before rest word : List UInt8} {ended : List (List UInt8)} {c : UInt8}

theorem Cut.char (h : Cut s before (c :: rest) ended) : s.char = c := by
  rw [Argv.char, h.line, h.buf, List.getD_eq_getElem?_getD, List.getElem?_append_right (le_refl _),
    Nat.sub_self]
  rfl

/-- Going on by a character, with another in its place or the same. -/
theorem Cut.go (h : Cut s before (c :: rest) ended) {t : Argv} {c' : UInt8}
    (hline : t.line = before ++ c' :: rest) (hbuf : t.buf = before.length + 1)
    (htop : t.top = s.top) (hcount : t.count = s.count) (hargv : t.argv = s.argv)
    (hlineWrites : ∀ i ∈ t.lineWrites, i ∈ s.lineWrites ∨ i = before.length)
    (hargvWrites : t.argvWrites = s.argvWrites) : Cut t (before ++ [c']) rest ended := by
  have hlength : (before ++ [c']).length = before.length + 1 := by
    rw [List.length_append, List.length_singleton]
  constructor
  case line => rw [hline, List.append_assoc, List.singleton_append]
  case buf => exact hbuf.trans hlength.symm
  case top => exact htop.trans h.top
  case count => exact hcount.trans h.count
  case words =>
    intro i w hw
    obtain ⟨hzero, pre, post, hstart, heq⟩ := h.words i w hw
    refine ⟨hzero, pre, post ++ [c'], by rw [hargv]; exact hstart, ?_⟩
    rw [heq, List.append_assoc, List.append_assoc, List.cons_append]
  case lineWrites =>
    intro i hi
    rw [hlength]
    rcases hlineWrites i hi with hold | rfl
    · exact Nat.lt_succ_of_lt (h.lineWrites i hold)
    · exact Nat.lt_succ_self _
  case argvWrites =>
    rw [hargvWrites]
    exact h.argvWrites

theorem Cut.next (h : Cut s before (c :: rest) ended) : Cut s.next (before ++ [c]) rest ended :=
  h.go h.line (congrArg (· + 1) h.buf) rfl rfl rfl (fun _ => .inl) rfl

/-- A zero is written in the place of a character. -/
theorem Cut.setChar (h : Cut s before (c :: rest) ended) :
    Cut s.setChar.next (before ++ [0]) rest ended := by
  refine h.go ?_ (congrArg (· + 1) h.buf) rfl rfl rfl ?_ rfl
  · show s.line.set s.buf 0 = before ++ 0 :: rest
    rw [h.line, h.buf, List.set_append_right _ _ (le_refl _), Nat.sub_self, List.set_cons_zero]
  · intro i hi
    rcases List.mem_append.mp hi with hold | hnew
    · exact .inl hold
    · exact .inr ((List.mem_singleton.mp hnew).trans h.buf)

/-- The word that ends with a zero is one of those that were cut off. -/
theorem Cut.advance (h : Cut s before rest ended) (hzero : 0 ∉ word) {pre post : List UInt8}
    (hstart : s.argv ended.length = some pre.length) (heq : before = pre ++ (word ++ 0 :: post)) :
    Cut s.advance before rest (ended ++ [word]) := by
  have hlength : (ended ++ [word]).length = ended.length + 1 := by
    rw [List.length_append, List.length_singleton]
  constructor
  case line => exact h.line
  case buf => exact h.buf
  case top => exact (congrArg (· + 1) h.top).trans hlength.symm
  case count => exact (congrArg (· + 1) h.count).trans hlength.symm
  case words =>
    intro i w hw
    rcases Nat.lt_or_ge i ended.length with hlt | hge
    · rw [List.getElem?_append_left hlt] at hw
      exact h.words i w hw
    · obtain ⟨rfl, rfl⟩ : i = ended.length ∧ w = word := by
        have hbound : i < (ended ++ [word]).length := (List.getElem?_eq_some_iff.mp hw).1
        have hi : i = ended.length := by omega
        rw [hi, List.getElem?_concat_length] at hw
        exact ⟨hi, (Option.some.inj hw).symm⟩
      exact ⟨hzero, pre, post, hstart, heq⟩
  case lineWrites => exact h.lineWrites
  case argvWrites =>
    intro i hi
    rw [hlength]
    exact Nat.le_succ_of_le (h.argvWrites i hi)

/-- A word is started where the loop is. -/
theorem Cut.startWord (h : Cut s before rest ended) :
    Splitting s.startWord before rest ended [] := by
  constructor
  case toCut =>
    refine ⟨h.line, h.buf, h.top, h.count, ?_, h.lineWrites, ?_⟩
    · intro i w hw
      have hne : i ≠ s.top := by
        rw [h.top]
        exact Nat.ne_of_lt (List.getElem?_eq_some_iff.mp hw).1
      obtain ⟨hzero, pre, post, hstart, heq⟩ := h.words i w hw
      exact ⟨hzero, pre, post, (Function.update_of_ne hne _ _).trans hstart, heq⟩
    · intro i hi
      rcases List.mem_append.mp hi with hold | hnew
      · exact h.argvWrites i hold
      · exact ((List.mem_singleton.mp hnew).trans h.top).le
  case word =>
    refine ⟨List.not_mem_nil, before, ?_, (List.append_nil _).symm⟩
    show Function.update s.argv s.top (some s.buf) ended.length = some before.length
    rw [h.top, Function.update_self, h.buf]

/-- The loop goes on with a word. -/
theorem Splitting.put (h : Splitting s before (c :: rest) ended word) (hc : c ≠ 0) :
    Splitting s.next (before ++ [c]) rest ended (word ++ [c]) := by
  obtain ⟨hzero, pre, hstart, heq⟩ := h.word
  refine ⟨h.toCut.next, ?_, pre, hstart, by rw [heq, List.append_assoc]⟩
  intro hmem
  rcases List.mem_append.mp hmem with hmem | hmem
  · exact hzero hmem
  · exact hc (List.mem_singleton.mp hmem).symm

/-- The word ends, and is kept if it is not empty. -/
theorem Splitting.endWord (h : Splitting s before (c :: rest) ended word) :
    Splitting s.endWord (before ++ [0]) rest (if word = [] then ended else ended ++ [word]) [] := by
  obtain ⟨hzero, pre, hstart, heq⟩ := h.word
  have hcut := h.toCut.setChar
  have hchar : s.setChar.next.wordChar = (word ++ [0]).headD 0 := by
    show (((s.argv s.top).map fun start => s.setChar.next.line.getD start 0).getD 0) = _
    rw [h.top, hstart, Option.map_some, Option.getD_some, hcut.line, heq, List.append_assoc,
      List.append_assoc, List.getD_eq_getElem?_getD, List.getElem?_append_right (le_refl _),
      Nat.sub_self]
    cases word with
    | nil => rfl
    | cons x word => rfl
  rw [Argv.endWord, hchar]
  cases word with
  | nil =>
      rw [if_neg (fun h => h rfl), if_pos rfl]
      exact hcut.startWord
  | cons x word =>
      have hx : x ≠ 0 := by
        rintro rfl
        exact hzero List.mem_cons_self
      have hhead : ((x :: word) ++ [0]).headD 0 ≠ 0 := hx
      rw [if_pos hhead, if_neg (List.cons_ne_nil x word)]
      have hended : before ++ [0] = pre ++ (x :: word ++ 0 :: []) := by rw [heq, List.append_assoc]
      exact (hcut.advance hzero hstart hended).startWord

end

/-- The characters of the line that there is room for. -/
def seen (size : Nat) (rest : List UInt8) : List UInt8 :=
  (rest.take size).takeWhile fun c => ! endsLine c

/-- The loop has come to the end of the line, or has found more words than there
is room for. -/
def SplitSoFar (start : Nat) (text line : List UInt8) (s : Argv) : Prop :=
  ∃ before rest done ended word, Splitting s before rest ended word ∧ rest ≠ [] ∧
    before.length = start + done.length ∧ Reads 32 isMark (text ++ done) ended word ∧
    (done = line ∨ (maxdepth ≤ ended.length ∧ ∃ more, line = done ++ 32 :: more))

theorem SplitSoFar.cons {start : Nat} {text line : List UInt8} {c : UInt8} {s : Argv}
    (h : SplitSoFar (start + 1) (text ++ [c]) line s) : SplitSoFar start text (c :: line) s := by
  obtain ⟨before, rest, done, ended, word, hsplit, hrest, hlength, hreads, hend⟩ := h
  refine ⟨before, rest, c :: done, ended, word, hsplit, hrest, ?_, ?_, ?_⟩
  · rw [hlength, List.length_cons]
    omega
  · rwa [List.append_assoc, List.singleton_append] at hreads
  · rcases hend with rfl | ⟨hfull, more, rfl⟩
    · exact .inl rfl
    · exact .inr ⟨hfull, more, rfl⟩

theorem Splitting.stops {s : Argv} {before rest : List UInt8} {ended : List (List UInt8)}
    {word text line : List UInt8} (h : Splitting s before rest ended word)
    (hreads : Reads 32 isMark text ended word) (hrest : rest ≠ [])
    (hend : line = [] ∨ (maxdepth ≤ ended.length ∧ ∃ more, line = 32 :: more)) :
    SplitSoFar before.length text line s := by
  refine ⟨before, rest, [], ended, word, h, hrest, rfl, ?_, ?_⟩
  · rwa [List.append_nil]
  · exact hend.imp (fun hnil => hnil.symm) id

theorem argvPosixLoop_splits {s : Argv} {before rest : List UInt8} {ended : List (List UInt8)}
    {word text : List UInt8} {size : Nat} (h : Splitting s before rest ended word)
    (hreads : Reads 32 isMark text ended word) (hsize : size < rest.length) :
    SplitSoFar before.length text (seen size rest) (argvPosixLoop size s) := by
  induction size generalizing s before rest ended word text with
  | zero => exact h.stops hreads (List.ne_nil_of_length_pos hsize) (.inl rfl)
  | succ size ih =>
      have hrest : rest ≠ [] := List.ne_nil_of_length_pos (Nat.zero_lt_of_lt hsize)
      obtain ⟨c, rest, rfl⟩ := List.exists_cons_of_ne_nil hrest
      rw [List.length_cons] at hsize
      have hlength : ∀ x : UInt8, (before ++ [x]).length = before.length + 1 := fun x => by
        rw [List.length_append, List.length_singleton]
      rw [argvPosixLoop, h.char]
      by_cases hend : endsLine c = true
      · rw [if_pos hend]
        refine h.stops hreads hrest (.inl ?_)
        rw [seen, List.take_succ_cons, List.takeWhile_cons_of_neg (by rw [hend]; decide)]
      · have hseen : seen (size + 1) (c :: rest) = c :: seen size rest := by
          rw [seen, List.take_succ_cons, List.takeWhile_cons_of_pos (by simpa using hend), seen]
        have hzero : c ≠ 0 := by
          rintro rfl
          exact hend rfl
        -- where the loop goes on, the rest of the line is that of a shorter run
        have hgo : ∀ {t : Argv} {x : UInt8} {ended' : List (List UInt8)} {word' : List UInt8},
            Splitting t (before ++ [x]) rest ended' word' →
            Reads 32 isMark (text ++ [c]) ended' word' →
            SplitSoFar before.length text (c :: seen size rest) (argvPosixLoop size t) := by
          intro t x ended' word' ht hreads'
          have hshort := ih ht hreads' (by omega)
          rw [hlength] at hshort
          exact hshort.cons
        rw [if_neg hend]
        by_cases hmark : isMark c = true
        · have hsep : c ≠ 32 := by
            rintro rfl
            cases hmark
          rw [if_pos hmark, hseen]
          exact hgo h.toCut.next.startWord (hreads.mark hmark hsep)
        · have hplain : isMark c = false := by simpa using hmark
          rw [if_neg hmark]
          by_cases hsep : c ≠ 32
          · rw [if_pos hsep, hseen]
            exact hgo (h.put hzero) (hreads.put hplain hsep)
          · obtain rfl : c = 32 := not_not.mp hsep
            rw [if_neg hsep, h.count]
            by_cases hfull : maxdepth ≤ ended.length
            · rw [if_pos hfull]
              exact h.stops hreads hrest (.inr ⟨hfull, _, hseen⟩)
            · rw [if_neg hfull, hseen]
              exact hgo h.endWord hreads.separator

/-! ### What is found -/

/-- The vector holds the words of the line, in their order and as many as fit,
and nothing was written outside of the line and the vector. -/
structure SplitsLine (out : Argv) (line : List UInt8) : Prop where
  words : out.words = (words 32 line).take maxdepth
  ended : out.argv out.count = none
  inLine : ∀ i ∈ out.lineWrites, i < maxline
  inArgv : ∀ i ∈ out.argvWrites, i < maxdepth + 1

theorem Argv.words_eq {t : Argv} {all : List (List UInt8)} (hcount : t.count = all.length)
    (hwords : ∀ i w, all[i]? = some w →
      (t.argv i).map (fun start => text (t.line.drop start)) = some w) : t.words = all := by
  have hmap : ((List.range t.count).map fun i =>
      (t.argv i).map fun start => text (t.line.drop start)) = all.map some := by
    rw [hcount]
    apply List.ext_getElem?
    intro i
    rw [List.getElem?_map, List.getElem?_map]
    rcases Nat.lt_or_ge i all.length with hlt | hge
    · rw [List.getElem?_range hlt, List.getElem?_eq_getElem hlt, Option.map_some, Option.map_some,
        hwords i all[i] (List.getElem?_eq_getElem hlt)]
    · rw [List.getElem?_eq_none (by rwa [List.length_range]), List.getElem?_eq_none hge]
      rfl
  calc t.words = ((List.range t.count).map fun i =>
        (t.argv i).map fun start => text (t.line.drop start)).filterMap id := by
        rw [List.filterMap_map]
        rfl
    _ = all := by rw [hmap, List.filterMap_map, Function.id_comp, List.filterMap_some]

/-- If the last place that is written to is the highest, it is the one that counts. -/
theorem forall_lt_concat_iff {l : List Nat} {n m : Nat} (hl : ∀ i ∈ l, i ≤ n) :
    (∀ i ∈ l ++ [n], i < m) ↔ n < m := by
  constructor
  · intro hall
    exact hall n (List.mem_append_right _ List.mem_cons_self)
  · intro hlt i hi
    rcases List.mem_append.mp hi with hold | hnew
    · exact Nat.lt_of_le_of_lt (hl i hold) hlt
    · rwa [List.mem_singleton.mp hnew]

/-- What is found, and where it was written, when the loop has ended. -/
theorem Splitting.finish {s : Argv} {before rest word : List UInt8} {ended : List (List UInt8)}
    (h : Splitting s before rest ended word) (hrest : rest ≠ []) (line : List UInt8) :
    SplitsLine (s.setChar.advance.setWord none) line ↔
      ended ++ [word] = (words 32 line).take maxdepth ∧ before.length < maxline ∧
        ended.length < maxdepth := by
  obtain ⟨c, rest, rfl⟩ := List.exists_cons_of_ne_nil hrest
  obtain ⟨hzero, pre, hstart, heq⟩ := h.word
  have hlast : before ++ [0] = pre ++ (word ++ 0 :: []) := by rw [heq, List.append_assoc]
  have hcut := h.toCut.setChar.advance hzero hstart hlast
  have hwords : (s.setChar.advance.setWord none).words = ended ++ [word] := by
    apply Argv.words_eq
    · exact hcut.count
    · intro i w hw
      obtain ⟨hw0, pre', post, hstart', hbefore⟩ := hcut.words i w hw
      have hne : i ≠ s.top + 1 := by
        have hbound : i < (ended ++ [word]).length := (List.getElem?_eq_some_iff.mp hw).1
        rw [List.length_append, List.length_singleton] at hbound
        rw [h.top]
        exact Nat.ne_of_lt hbound
      show (Function.update s.argv (s.top + 1) none i).map _ = some w
      rw [Function.update_of_ne hne, show s.argv i = some pre'.length from hstart', Option.map_some]
      show some (text (s.setChar.next.advance.line.drop pre'.length)) = some w
      rw [hcut.line, hbefore, List.append_assoc, List.drop_left, List.append_assoc,
        List.cons_append, text_append_zero hw0]
  have hended : (s.setChar.advance.setWord none).argv (s.setChar.advance.setWord none).count =
      none := by
    show Function.update s.argv (s.top + 1) none (s.count + 1) = none
    rw [h.top, h.count, Function.update_self]
  -- of the bytes and the entries that were written to, the last is the highest
  have hline : (∀ i ∈ (s.setChar.advance.setWord none).lineWrites, i < maxline) ↔
      before.length < maxline := by
    show (∀ i ∈ s.lineWrites ++ [s.buf], i < maxline) ↔ _
    rw [h.buf]
    exact forall_lt_concat_iff fun i hi => (h.lineWrites i hi).le
  have hargv : (∀ i ∈ (s.setChar.advance.setWord none).argvWrites, i < maxdepth + 1) ↔
      ended.length < maxdepth := by
    show (∀ i ∈ s.argvWrites ++ [s.top + 1], i < maxdepth + 1) ↔ _
    rw [h.top, forall_lt_concat_iff fun i hi => (h.argvWrites i hi).trans (Nat.le_succ _)]
    exact Nat.succ_lt_succ_iff
  constructor
  · rintro ⟨hall, -, hinLine, hinArgv⟩
    exact ⟨hwords.symm.trans hall, hline.mp hinLine, hargv.mp hinArgv⟩
  · rintro ⟨hall, hinLine, hinArgv⟩
    exact ⟨hwords.trans hall, hended, hline.mpr hinLine, hargv.mpr hinArgv⟩

theorem argvPosixLoop_mark {s : Argv} {before rest : List UInt8} {ended : List (List UInt8)}
    {c : UInt8} (h : Cut s before (c :: rest) ended) (hc : isMark c = true) (size : Nat) :
    argvPosixLoop (size + 1) s = argvPosixLoop size s.next.startWord := by
  have hgoes : endsLine c = false := by
    rcases Bool.or_eq_true_iff.mp hc with heq | heq
    · rw [eq_of_beq heq]
      rfl
    · rw [eq_of_beq heq]
      rfl
  rw [argvPosixLoop, h.char, hgoes, if_neg Bool.false_ne_true, if_pos hc]

theorem cut_start (line : List UInt8) : Cut ⟨line, 0, fun _ => none, 0, 0, [], []⟩ [] line [] where
  line := rfl
  buf := rfl
  top := rfl
  count := rfl
  words i w hw := by cases hw
  lineWrites i hi := absurd hi List.not_mem_nil
  argvWrites i hi := absurd hi List.not_mem_nil

/-- How far a line is split that starts as that of a script does. -/
theorem argvPosix_cases {rest : List UInt8} (hrest : maxline - 2 < rest.length) :
    ∃ done ended word, Reads 32 isMark done ended word ∧
      (done = seen (maxline - 2) rest ∨
        (maxdepth ≤ ended.length ∧ ∃ more, seen (maxline - 2) rest = done ++ 32 :: more)) ∧
      ∀ line, SplitsLine (argvPosix (35 :: 33 :: rest) maxline) line ↔
        ended ++ [word] = (words 32 line).take maxdepth ∧ done.length + 2 < maxline ∧
          ended.length < maxdepth := by
  have hfirst := (cut_start (35 :: 33 :: rest)).startWord
  have hsecond := hfirst.toCut.next.startWord
  have hloop : argvPosixLoop maxline (argvStart (35 :: 33 :: rest)) =
      argvPosixLoop (maxline - 2) (argvStart (35 :: 33 :: rest)).next.startWord.next.startWord :=
    (argvPosixLoop_mark hfirst.toCut rfl 79).trans (argvPosixLoop_mark hsecond.toCut rfl 78)
  obtain ⟨before, rest', done, ended, word, hsplit, hrest', hlength, hreads, hend⟩ :=
    argvPosixLoop_splits hsecond.toCut.next.startWord Reads.start hrest
  refine ⟨done, ended, word, hreads, hend, fun line => ?_⟩
  rw [argvPosix, hloop]
  apply (hsplit.finish hrest' line).trans
  rw [hlength, Nat.add_comm done.length]
  rfl

/-! ### First lines -/

/-- The first line of a file, up to where it ends. -/
def firstLine (script : List UInt8) : List UInt8 := script.takeWhile fun c => ! endsLine c

/-- The end of the line is among the bytes that are read. Behind its first two
characters it has none of these again, at most as many words as there is room
for, and no blank at its end. -/
structure TidyLine (script : List UInt8) : Prop where
  ends : (firstLine script).length < min script.length maxline
  tidy : Tidy 32 isMark maxdepth ((firstLine script).drop 2)

theorem seen_of_ends {size : Nat} {line rest : List UInt8} {c : UInt8}
    (hline : ∀ x ∈ line, endsLine x = false) (hc : endsLine c = true) (hsize : line.length < size) :
    seen size (line ++ c :: rest) = line := by
  have hall : ∀ x ∈ line, (fun c => ! endsLine c) x = true := by
    intro x hx
    show (! endsLine x) = true
    rw [hline x hx]
    rfl
  rw [seen, List.take_append, List.take_of_length_le hsize.le, List.takeWhile_append_of_pos hall]
  obtain ⟨n, hn⟩ := Nat.exists_eq_succ_of_ne_zero (Nat.sub_ne_zero_of_lt hsize)
  rw [hn, List.take_succ_cons, List.takeWhile_cons_of_neg (by rw [hc]; decide), List.append_nil]

theorem seen_of_goes {size : Nat} {line rest : List UInt8} (hline : ∀ x ∈ line, endsLine x = false)
    (hsize : line.length = size) : seen size (line ++ rest) = line := by
  rw [seen, ← hsize, List.take_left]
  apply List.takeWhile_eq_self_iff.mpr
  intro x hx
  rw [hline x hx]
  rfl

/-- What is in the array behind the first two characters of a script. -/
def lineRest (rest stale : List UInt8) : List UInt8 :=
  rest.take (maxline - 2) ++ stale.drop ((rest.take (maxline - 2)).length + 2)

theorem length_lineRest {rest stale : List UInt8} (hstale : stale.length = maxline) :
    (lineRest rest stale).length = maxline - 2 := by
  rw [lineRest, List.length_append, List.length_drop, hstale]
  have hle : (rest.take (maxline - 2)).length ≤ maxline - 2 := List.length_take_le _ _
  omega

theorem not_ends_firstLine {script : List UInt8} {c : UInt8} (h : c ∈ firstLine script) :
    endsLine c = false := by
  simpa using List.mem_takeWhile_imp h

/-- A line that ends among the bytes that are read is seen as it is. -/
theorem seen_lineRest {rest : List UInt8}
    (h : (firstLine rest).length < min rest.length (maxline - 2)) (stale behind : List UInt8) :
    seen (maxline - 2) (lineRest rest stale ++ behind) = firstLine rest := by
  obtain ⟨hlength, hsize⟩ := Nat.lt_min.mp h
  have hsplit : firstLine rest ++ rest.dropWhile (fun c => ! endsLine c) = rest :=
    List.takeWhile_append_dropWhile
  obtain ⟨c, more, hmore⟩ : ∃ c more, rest.dropWhile (fun c => ! endsLine c) = c :: more := by
    apply List.exists_cons_of_ne_nil
    intro hnil
    rw [hnil, List.append_nil] at hsplit
    rw [hsplit] at hlength
    exact Nat.lt_irrefl _ hlength
  have hc : endsLine c = true := by
    have hhead := List.head?_dropWhile_not (fun c => ! endsLine c) rest
    rw [hmore] at hhead
    simpa using hhead
  obtain ⟨n, hn⟩ := Nat.exists_eq_succ_of_ne_zero (Nat.sub_ne_zero_of_lt hsize)
  have htake : rest.take (maxline - 2) = firstLine rest ++ c :: more.take n := by
    rw [hmore] at hsplit
    calc rest.take (maxline - 2) = (firstLine rest ++ c :: more).take (maxline - 2) :=
          congrArg (List.take _) hsplit.symm
      _ = firstLine rest ++ c :: more.take n := by
          rw [List.take_append, List.take_of_length_le hsize.le, hn, List.take_succ_cons]
  rw [lineRest, htake, List.append_assoc, List.append_assoc, List.cons_append]
  exact seen_of_ends (fun x hx => not_ends_firstLine hx) hc hsize

/-- A line that does not end there may go on to the end of the array. -/
theorem seen_lineRest_goes {rest : List UInt8}
    (h : ¬ (firstLine rest).length < min rest.length (maxline - 2)) (behind : List UInt8) :
    (seen (maxline - 2) (lineRest rest (List.replicate maxline 120) ++ behind)).length =
      maxline - 2 := by
  have hgoes : ∀ x ∈ lineRest rest (List.replicate maxline 120), endsLine x = false := by
    intro x hx
    rcases List.mem_append.mp hx with hx | hx
    · have hbegins : firstLine rest <+: rest := List.takeWhile_prefix _
      have htake : rest.take (maxline - 2) = (firstLine rest).take (maxline - 2) := by
        rcases Nat.lt_or_ge (firstLine rest).length (maxline - 2) with hshort | hlong
        · have hall : rest.length ≤ (firstLine rest).length := by
            by_contra hlt
            exact h (Nat.lt_min.mpr ⟨Nat.lt_of_not_le hlt, hshort⟩)
          rw [hbegins.eq_of_length (Nat.le_antisymm hbegins.length_le hall)]
        · obtain ⟨more, hmore⟩ := hbegins
          calc rest.take (maxline - 2) = (firstLine rest ++ more).take (maxline - 2) :=
                congrArg (List.take _) hmore.symm
            _ = (firstLine rest).take (maxline - 2) := List.take_append_of_le_length hlong
      rw [htake] at hx
      exact not_ends_firstLine (List.mem_of_mem_take hx)
    · rw [List.eq_of_mem_replicate (List.mem_of_mem_drop hx)]
      rfl
  have hlength : (lineRest rest (List.replicate maxline 120)).length = maxline - 2 :=
    length_lineRest List.length_replicate
  rw [seen_of_goes hgoes hlength, hlength]

/-- A file on a disk that starts as a script does is taken for one. -/
theorem shebangWin_script {fileType : WinVtype} (hfile : fileType ≠ .vdir)
    (rest stale behind : List UInt8) :
    shebangWin fileType .disk (.ok (35 :: 33 :: rest)) stale behind =
      .script (argvPosix (lineOf (35 :: 33 :: rest) stale ++ behind) maxline) := by
  rw [shebangWin, if_neg hfile, if_neg (not_not_intro rfl)]
  rfl

/-- Whatever was in the array before, and whatever is behind it, the words of the
first line of a script are found, and nothing is written outside, exactly if the
line is a tidy one. -/
theorem shebang_splits_iff (rest : List UInt8) :
    (∀ (fileType : WinVtype) (stale behind : List UInt8), fileType ≠ .vdir →
      stale.length = maxline → behind ≠ [] → ∃ argv,
        shebangWin fileType .disk (.ok (35 :: 33 :: rest)) stale behind = .script argv ∧
          SplitsLine argv ((firstLine (35 :: 33 :: rest)).drop 2)) ↔
    TidyLine (35 :: 33 :: rest) := by
  have hfirst : (firstLine (35 :: 33 :: rest)).drop 2 = firstLine rest := rfl
  have hfirstLength : (firstLine (35 :: 33 :: rest)).length = (firstLine rest).length + 2 := rfl
  have hends : (firstLine (35 :: 33 :: rest)).length < min (35 :: 33 :: rest).length maxline ↔
      (firstLine rest).length < min rest.length (maxline - 2) := by
    rw [hfirstLength, Nat.lt_min, Nat.lt_min, List.length_cons, List.length_cons]
    omega
  have hroom : ∀ stale behind : List UInt8, stale.length = maxline → behind ≠ [] →
      maxline - 2 < (lineRest rest stale ++ behind).length := by
    intro stale behind hstale hbehind
    rw [List.length_append, length_lineRest hstale]
    exact Nat.lt_add_of_pos_right (List.length_pos_of_ne_nil hbehind)
  rw [hfirst]
  constructor
  · intro hall
    -- an array that is full of letters
    obtain ⟨argv, hargv, hbad⟩ := hall .vreg (List.replicate maxline 120) [0] (by decide)
      List.length_replicate (List.cons_ne_nil _ _)
    rw [shebangWin_script (by decide)] at hargv
    obtain rfl := Shebang.script.inj hargv
    obtain ⟨done, ended, word, hreads, hend, hiff⟩ :=
      argvPosix_cases (hroom (List.replicate maxline 120) [0] List.length_replicate
        (List.cons_ne_nil _ _))
    obtain ⟨hwords, hlength, hfew⟩ := (hiff (firstLine rest)).mp hbad
    have hdone := hend.resolve_right fun hfull => Nat.not_lt_of_le hfull.1 hfew
    have hread : (firstLine rest).length < min rest.length (maxline - 2) := by
      by_contra hnot
      rw [hdone, seen_lineRest_goes hnot] at hlength
      exact absurd hlength (by decide)
    rw [seen_lineRest hread] at hdone
    subst hdone
    exact ⟨hends.mpr hread, (hreads.exact_iff rfl).mp ⟨hwords, hfew⟩⟩
  · rintro ⟨hread, htidy⟩ fileType stale behind hfile hstale hbehind
    refine ⟨_, shebangWin_script hfile rest stale behind, ?_⟩
    rw [hfirst] at htidy
    rw [hends] at hread
    obtain ⟨done, ended, word, hreads, hend, hiff⟩ :=
      argvPosix_cases (hroom stale behind hstale hbehind)
    rw [seen_lineRest hread] at hend
    rcases hend with rfl | ⟨hfull, more, heq⟩
    · obtain ⟨hwords, hfew⟩ := (hreads.exact_iff rfl).mpr htidy
      refine (hiff _).mpr ⟨hwords, ?_, hfew⟩
      have hsize := (Nat.lt_min.mp hread).2
      omega
    · rw [heq] at htidy
      exact absurd (hreads.room htidy) (Nat.not_lt_of_le hfull)

/-- A line that ends in a blank, a word with one of the first characters in it,
a line that fills the array, and more words than there is room for. -/
theorem lines_not_split :
    ¬ SplitsLine (argvPosix (lineOf [35, 33, 97, 32, 10] (List.replicate maxline 0) ++ [0]) maxline)
      [97, 32] ∧
    ¬ SplitsLine (argvPosix (lineOf [35, 33, 97, 35, 98, 10] (List.replicate maxline 0) ++ [0])
      maxline) [97, 35, 98] ∧
    ¬ SplitsLine (argvPosix (lineOf (35 :: 33 :: List.replicate 90 97) [] ++ [97]) maxline)
      (List.replicate 90 97) ∧
    ¬ SplitsLine (argvPosix (lineOf (35 :: 33 :: ((List.replicate 17 [97, 32]).flatten ++ [10]))
      (List.replicate maxline 0) ++ [0]) maxline) (List.replicate 17 [97, 32]).flatten := by
  refine ⟨fun h => ?_, fun h => ?_, fun h => ?_, fun h => ?_⟩
  · exact absurd h.words (by decide)
  · exact absurd h.words (by decide)
  · exact absurd (h.inLine 80 (by decide)) (by decide)
  · exact absurd (h.inArgv 17 (by decide)) (by decide)

end MinC.Sys
