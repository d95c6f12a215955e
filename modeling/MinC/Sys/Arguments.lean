import MinC.Sys.Exec

/-!
Arguments that are read back.

A word inside of quotes is read back if it does not end in a backslash, which
would take the closing quote, and if the backslashes before each of its quotes
are as many as a `char` counts. A word that is not says so at once: what is
read of it is no part of it, or ends before it does.
-/

namespace MinC.Sys

open MinC.Lib MinC.Win MinC.Vfs

/-! ### One argument -/

/-- The backslashes at the end of a word, behind `k` others. -/
def trail (k : Nat) (w : List UInt8) : Nat := w.foldl (fun k c => if c = 92 then k + 1 else 0) k

/-- Backslashes that are read back: none at the end, and before a quote no
more than a `char` counts. -/
structure Quotable (arg : List UInt8) : Prop where
  last : trail 0 arg = 0
  quotes : ∀ pre post, arg = pre ++ 34 :: post → trail 0 pre < 255

theorem backslashes_succ (k : Nat) (w : List UInt8) :
    Words.backslashes (k + 1) ++ w = Words.backslashes k ++ 92 :: w := by
  rw [Words.backslashes, List.replicate_succ', List.append_assoc]
  rfl

/-- A quote after too few backslashes is not what the word goes on with. -/
theorem not_prefix_quote (w v : List UInt8) {n k : Nat} (h : n < k) :
    ¬ w ++ Words.backslashes n ++ [34] <+: w ++ Words.backslashes k ++ v := by
  obtain ⟨m, rfl⟩ := Nat.exists_eq_add_of_lt h
  have hsplit : Words.backslashes (n + m + 1) = Words.backslashes n ++ 92 :: Words.backslashes m := by
    rw [Words.backslashes, Nat.add_assoc, List.replicate_add, List.replicate_succ]
    rfl
  rw [hsplit, List.append_assoc, List.append_assoc, List.append_assoc, List.prefix_append_right_inj,
    List.prefix_append_right_inj]
  rintro ⟨x, hx⟩
  exact absurd (List.cons.inj hx).1 (by decide)

section
variable {done : List (List UInt8)} (hdone : done ≠ []) {count : Int8} {k : Nat}
  (hcount : Counts count k) (w : List UInt8)
include hdone hcount

/-- The backslashes before a quote, as many as were there and those that are
put before it. -/
theorem readAll_escapes (n : Nat) (hn : k + (k + 1) % 256 = 2 * n + 1) :
    (Words.inside done w k).readAll (Words.backslashes (turns count) ++ [34]) =
      Words.inside done (w ++ Words.backslashes n ++ [34]) 0 := by
  rw [show turns count = _ from hcount, Words.readAll_append,
    Words.readAll_backslashes w k hdone, hn, Words.readAll_cons, Words.read_quote_odd]
  rfl

/-- One character that is read back. -/
theorem stpquotFrom_step (c : UInt8) (src : List UInt8) (h : c = 34 → k < 255) :
    ∃ pre count' w', stpquotFrom count (c :: src) = pre ++ stpquotFrom count' src ∧
      Counts count' (trail k [c]) ∧
      (Words.inside done w k).readAll pre = Words.inside done w' (trail k [c]) ∧
      w' ++ Words.backslashes (trail k [c]) = w ++ Words.backslashes k ++ [c] := by
  by_cases hquote : c = 34
  · subst hquote
    have hk := h rfl
    refine ⟨Words.backslashes (turns count) ++ [34], 1, w ++ Words.backslashes k ++ [34], ?_,
      counts_one, readAll_escapes hdone hcount w k (by omega), List.append_nil _⟩
    rw [stpquotFrom, if_pos rfl, List.append_assoc, List.singleton_append]
  · by_cases hslash : c = 92
    · subst hslash
      refine ⟨[92], count + 1, w, ?_, hcount.succ, Words.read_backslash w k hdone, ?_⟩
      · rw [stpquotFrom, if_neg hquote, if_pos rfl, List.singleton_append]
      · rw [List.append_assoc, ← backslashes_succ, List.append_nil]
        rfl
    · have htrail : trail k [c] = 0 := if_neg hslash
      rw [htrail]
      refine ⟨[c], 1, w ++ Words.backslashes k ++ [c], ?_, counts_one,
        Words.read_char w k hslash hquote, List.append_nil _⟩
      rw [stpquotFrom, if_neg hquote, if_neg hslash, List.singleton_append]

/-- The characters of an argument whose quotes are counted are read back. -/
theorem readAll_stpquotFrom {src : List UInt8}
    (h : ∀ pre post, src = pre ++ 34 :: post → trail k pre < 255) :
    ∃ w', (Words.inside done w k).readAll (stpquotFrom count src) =
        Words.inside done w' (trail k src) ∧
      w' ++ Words.backslashes (trail k src) = w ++ Words.backslashes k ++ src := by
  induction src generalizing count k w with
  | nil => exact ⟨w, rfl, (List.append_nil _).symm⟩
  | cons c src ih =>
      obtain ⟨pre, count', w₁, hsplit, hcount', hread, hsame⟩ :=
        stpquotFrom_step hdone hcount w c src fun hquote => h [] src (by rw [hquote]; rfl)
      obtain ⟨w', hw, hsame'⟩ := ih hcount' w₁ fun pre' post hsrc =>
        h (c :: pre') post (by rw [hsrc]; rfl)
      refine ⟨w', ?_, ?_⟩
      · rw [hsplit, Words.readAll_append, hread, hw]
        rfl
      · rw [show trail k (c :: src) = trail (trail k [c]) src from rfl, hsame', hsame,
          List.append_assoc _ [c]]
        rfl

/-- A quote after more backslashes than a `char` counts is read too early. -/
theorem readAll_stpquotFrom_over {src : List UInt8}
    (h : ∃ pre post, src = pre ++ 34 :: post ∧ 255 ≤ trail k pre) :
    ∃ pre post w', stpquotFrom count src = pre ++ post ∧
      (Words.inside done w k).readAll pre = Words.inside done w' 0 ∧
        ¬ w' <+: w ++ Words.backslashes k ++ src := by
  induction src generalizing count k w with
  | nil =>
      obtain ⟨pre, post, hsrc, _⟩ := h
      exact absurd (congrArg List.length hsrc) (by simp)
  | cons c src ih =>
      obtain ⟨pre, post, hsrc, hover⟩ := h
      by_cases hnow : c = 34 ∧ 255 ≤ k
      · obtain ⟨rfl, hk⟩ := hnow
        -- the counter wrapped around an even number of times
        obtain ⟨n, hn, hlt⟩ : ∃ n, k + (k + 1) % 256 = 2 * n + 1 ∧ n < k :=
          ⟨(k + (k + 1) % 256) / 2, by omega, by omega⟩
        refine ⟨Words.backslashes (turns count) ++ [34], stpquotFrom 1 src, _, ?_,
          readAll_escapes hdone hcount w n hn, not_prefix_quote w _ hlt⟩
        rw [stpquotFrom, if_pos rfl, List.append_assoc, List.singleton_append]
      · have hk : c = 34 → k < 255 := fun hquote => Nat.lt_of_not_le fun hle => hnow ⟨hquote, hle⟩
        obtain ⟨pre₁, count', w₁, hsplit, hcount', hread, hsame⟩ :=
          stpquotFrom_step hdone hcount w c src hk
        have hlater : ∃ pre post, src = pre ++ 34 :: post ∧ 255 ≤ trail (trail k [c]) pre := by
          cases pre with
          | nil =>
              obtain ⟨rfl, rfl⟩ := List.cons.inj hsrc
              exact absurd ⟨rfl, hover⟩ hnow
          | cons c' pre =>
              obtain ⟨rfl, rfl⟩ := List.cons.inj hsrc
              exact ⟨pre, post, rfl, hover⟩
        obtain ⟨pre₂, post₂, w', hsplit', hread', hno⟩ := ih hcount' w₁ hlater
        refine ⟨pre₁ ++ pre₂, post₂, w', ?_, ?_, ?_⟩
        · rw [hsplit, hsplit', List.append_assoc]
        · rw [Words.readAll_append, hread, hread']
        · rw [hsame, List.append_assoc _ [c]] at hno
          exact hno

end

/-- What follows an argument: nothing, or a blank. -/
def Follows (rest : List UInt8) : Prop := rest = [] ∨ ∃ more, rest = 32 :: more

section
variable {σ : Words} (hquoted : σ.quoted = false) (hclose : σ.close ≠ [])
include hquoted

/-- The blank and the quote before an argument. -/
theorem readAll_opening : σ.readAll [32, 34] = Words.inside σ.close [] 0 := by
  have hblank : σ.read 32 = ⟨σ.close, none, false, 0⟩ := by
    rw [Words.read, if_neg (by simp), if_neg (by decide), if_pos ⟨.inl rfl, hquoted⟩]
  have hquote : (⟨σ.close, none, false, 0⟩ : Words).read 34 = Words.inside σ.close [] 0 := by
    rw [Words.read, if_neg (by simp), if_pos rfl, if_neg (by simp)]
    simp [Words.put, Words.inside, Words.backslashes]
  rw [Words.readAll_cons, hblank, Words.readAll_cons, hquote, Words.readAll_nil]

include hclose

theorem readAll_stpquot {arg : List UInt8} (h : Quotable arg) :
    σ.readAll (stpquot arg) = ⟨σ.close, some arg, false, 0⟩ := by
  obtain ⟨w, hread, hsame⟩ := readAll_stpquotFrom hclose counts_one [] h.quotes
  rw [h.last] at hread hsame
  have hw : w = arg := by simpa [Words.backslashes] using hsame
  have hend : (Words.inside σ.close arg 0).read 34 = ⟨σ.close, some (arg ++ []), false, 0⟩ :=
    Words.read_quote_even arg 0
  rw [hw] at hread
  rw [List.append_nil] at hend
  have hsplit : stpquot arg = [32, 34] ++ (stpquotFrom 1 arg ++ [34]) := rfl
  rw [hsplit, Words.readAll_append, readAll_opening hquoted, Words.readAll_append, hread,
    Words.readAll_cons, hend, Words.readAll_nil]

omit hquoted hclose in
/-- A word that has ended is read as it is. -/
theorem close_follows (done : List (List UInt8)) (w : List UInt8) {rest : List UInt8}
    (hrest : Follows rest) :
    ∃ more, ((⟨done, some w, false, 0⟩ : Words).readAll rest).close = done ++ w :: more := by
  rcases hrest with rfl | ⟨more, rfl⟩
  · exact ⟨[], rfl⟩
  · have hblank : (⟨done, some w, false, 0⟩ : Words).read 32 = ⟨done ++ [w], none, false, 0⟩ := by
      rw [Words.read, if_neg (by simp), if_neg (by decide), if_pos ⟨.inl rfl, rfl⟩]
      rfl
    obtain ⟨words, hwords⟩ := Words.close_done ⟨done ++ [w], none, false, 0⟩ more
    exact ⟨words, by rw [Words.readAll_cons, hblank, hwords, List.append_assoc]; rfl⟩

omit hclose in
/-- What is read at the beginning of an argument, and is no part of it. -/
theorem misread_of_not_prefix {arg rest pre post w : List UInt8} {quoted : Bool}
    (hsplit : stpquotFrom 1 arg ++ [34] ++ rest = pre ++ post)
    (hread : (Words.inside σ.close [] 0).readAll pre = ⟨σ.close, some w, quoted, 0⟩)
    (hno : ¬ w <+: arg) (l : List (List UInt8)) :
    (σ.readAll (stpquot arg ++ rest)).close ≠ σ.close ++ arg :: l := by
  have hline : stpquot arg ++ rest = [32, 34] ++ (pre ++ post) := by
    rw [← hsplit]
    rfl
  intro hsame
  obtain ⟨x, more, hword⟩ := Words.close_word ⟨σ.close, some w, quoted, 0⟩ post rfl
  rw [hline, Words.readAll_append, readAll_opening hquoted, Words.readAll_append, hread,
    hword] at hsame
  exact hno ⟨x, (List.cons.inj (List.append_cancel_left hsame)).1⟩

/-- An argument that is not read back shows in its own place. -/
theorem stpquot_misread {arg rest : List UInt8} (h : ¬ Quotable arg) (hrest : Follows rest)
    (l : List (List UInt8)) :
    (σ.readAll (stpquot arg ++ rest)).close ≠ σ.close ++ arg :: l := by
  by_cases hquotes : ∀ pre post, arg = pre ++ 34 :: post → trail 0 pre < 255
  · obtain ⟨w, hread, hsame⟩ := readAll_stpquotFrom hclose counts_one [] hquotes
    have hlast : trail 0 arg ≠ 0 := fun hzero => h ⟨hzero, hquotes⟩
    have harg : arg = w ++ Words.backslashes (trail 0 arg) := by
      simpa [Words.backslashes] using hsame.symm
    obtain ⟨n, hn | hn⟩ : ∃ n, trail 0 arg = 2 * n ∨ trail 0 arg = 2 * n + 1 :=
      ⟨trail 0 arg / 2, by omega⟩
    · -- half of the backslashes are left, and the word ends
      have hend : (Words.inside σ.close [] 0).readAll (stpquotFrom 1 arg ++ [34]) =
          ⟨σ.close, some (w ++ Words.backslashes n), false, 0⟩ := by
        rw [Words.readAll_append, hread, hn, Words.readAll_cons, Words.read_quote_even,
          Words.readAll_nil]
      obtain ⟨more, hmore⟩ := close_follows σ.close (w ++ Words.backslashes n) hrest
      have hline : stpquot arg ++ rest = [32, 34] ++ (stpquotFrom 1 arg ++ [34] ++ rest) := rfl
      intro hwords
      rw [hline, Words.readAll_append, readAll_opening hquoted, Words.readAll_append, hend,
        hmore] at hwords
      have hword := (List.cons.inj (List.append_cancel_left hwords)).1
      have hlen := congrArg List.length (hword.trans harg)
      simp only [List.length_append, Words.backslashes, List.length_replicate] at hlen
      omega
    · -- the closing quote is read as a character
      have hend : (Words.inside σ.close [] 0).readAll (stpquotFrom 1 arg ++ [34]) =
          ⟨σ.close, some (w ++ Words.backslashes n ++ [34]), true, 0⟩ := by
        rw [Words.readAll_append, hread, hn, Words.readAll_cons, Words.read_quote_odd,
          Words.readAll_nil]
        rfl
      have hno := not_prefix_quote w [] (show n < trail 0 arg by omega)
      rw [List.append_nil, ← harg] at hno
      exact misread_of_not_prefix hquoted rfl hend hno l
  · have hover : ∃ pre post, arg = pre ++ 34 :: post ∧ 255 ≤ trail 0 pre := by
      by_contra hnone
      exact hquotes fun pre post hsrc =>
        Nat.lt_of_not_le fun hle => hnone ⟨pre, post, hsrc, hle⟩
    obtain ⟨pre, post, w, hsplit, hread, hno⟩ := readAll_stpquotFrom_over hclose counts_one [] hover
    have hline : stpquotFrom 1 arg ++ [34] ++ rest = pre ++ (post ++ [34] ++ rest) := by
      rw [hsplit]
      simp
    exact misread_of_not_prefix hquoted hline hread hno l

end

/-! ### All arguments -/

theorem follows_arguments (argv : List (List UInt8)) : Follows (argv.flatMap stpquot) := by
  cases argv with
  | nil => exact .inl rfl
  | cons arg argv => exact .inr ⟨_, rfl⟩

theorem readAll_arguments {σ : Words} (hquoted : σ.quoted = false) (hclose : σ.close ≠ [])
    {argv : List (List UInt8)} (h : ∀ arg ∈ argv, Quotable arg) :
    (σ.readAll (argv.flatMap stpquot)).close = σ.close ++ argv := by
  induction argv generalizing σ with
  | nil => exact (List.append_nil _).symm
  | cons arg argv ih =>
      have hread := readAll_stpquot hquoted hclose (h arg List.mem_cons_self)
      have hrest := ih (σ := ⟨σ.close, some arg, false, 0⟩) rfl
        (List.append_ne_nil_of_left_ne_nil hclose _)
        fun a ha => h a (List.mem_cons_of_mem _ ha)
      rw [List.flatMap_cons, Words.readAll_append, hread, hrest]
      exact List.append_assoc σ.close [arg] argv

theorem arguments_misread {σ : Words} (hquoted : σ.quoted = false) (hclose : σ.close ≠ [])
    {argv : List (List UInt8)} (h : ∃ arg ∈ argv, ¬ Quotable arg) (l : List (List UInt8)) :
    (σ.readAll (argv.flatMap stpquot)).close ≠ σ.close ++ argv ++ l := by
  induction argv generalizing σ with
  | nil =>
      obtain ⟨arg, hmem, _⟩ := h
      exact absurd hmem List.not_mem_nil
  | cons arg argv ih =>
      rw [List.flatMap_cons, List.append_assoc, List.cons_append]
      by_cases hfirst : Quotable arg
      · have hread := readAll_stpquot hquoted hclose hfirst
        have hlater : ∃ a ∈ argv, ¬ Quotable a := by
          obtain ⟨a, hmem, hbad⟩ := h
          rcases List.mem_cons.mp hmem with rfl | hmem
          · exact absurd hfirst hbad
          · exact ⟨a, hmem, hbad⟩
        have hrest := ih (σ := ⟨σ.close, some arg, false, 0⟩) rfl
          (List.append_ne_nil_of_left_ne_nil hclose _) hlater
        rw [Words.readAll_append, hread]
        intro hsame
        refine hrest (hsame.trans ?_)
        exact (List.append_assoc σ.close [arg] (argv ++ l)).symm.trans
          (List.append_assoc (σ.close ++ [arg]) argv l).symm
      · exact stpquot_misread hquoted hclose hfirst (follows_arguments argv) (argv ++ l)

/-- Arguments, the first ones of a line that may have been cut, are read back
if and only if all of them are there and can be. -/
theorem arguments_iff {σ : Words} (hquoted : σ.quoted = false) (hclose : σ.close ≠ [])
    (argv rest : List (List UInt8)) :
    (σ.readAll (argv.flatMap stpquot)).close = σ.close ++ (argv ++ rest) ↔
      rest = [] ∧ ∀ arg ∈ argv, Quotable arg := by
  constructor
  · intro hsame
    have hall : ∀ arg ∈ argv, Quotable arg := by
      intro arg hmem
      by_contra hbad
      refine arguments_misread hquoted hclose ⟨arg, hmem, hbad⟩ rest ?_
      rw [hsame, List.append_assoc]
    rw [readAll_arguments hquoted hclose hall] at hsame
    have hlen := congrArg List.length (List.append_cancel_left hsame)
    rw [List.length_append] at hlen
    exact ⟨List.eq_nil_of_length_eq_zero (by omega), hall⟩
  · rintro ⟨rfl, hall⟩
    rw [readAll_arguments hquoted hclose hall, List.append_nil]

/-- A line that is inside of quotes takes the blank before an argument for a
part of its last word. -/
theorem arguments_inside {σ : Words} (hstarted : σ.Started) (hquoted : σ.quoted = true)
    (arg : List UInt8) (line : List UInt8) (l : List (List UInt8)) :
    (σ.readAll (stpquot arg ++ line)).close ≠ σ.close ++ l := by
  obtain ⟨w, hword⟩ := hstarted.word_of_quoted hquoted
  obtain ⟨x, hx⟩ := Words.settle_word hword
  have hclose : σ.close = σ.done ++ [w ++ x] := by
    rw [Words.close, hx]
    rfl
  have hblank : (σ.read 32).word = some (w ++ x ++ [32]) ∧ (σ.read 32).done = σ.done := by
    rw [Words.read, if_neg (by simp), if_neg (by decide), if_neg (by simp [hquoted]), Words.put, hx]
    exact ⟨rfl, Words.settle_done σ⟩
  obtain ⟨y, more, hmore⟩ := Words.close_word (σ.read 32) (34 :: (stpquotFrom 1 arg ++ [34]) ++ line)
    hblank.1
  have hread : (σ.readAll (stpquot arg ++ line)).close = _ := hmore
  rw [hread, hblank.2, hclose, List.append_assoc σ.done]
  intro hsame
  have hfirst := (List.cons.inj (List.append_cancel_left hsame)).1
  have hlen := congrArg List.length hfirst
  simp only [List.length_append, List.length_singleton] at hlen
  omega

/-! ### The line in memory -/

theorem zero_not_mem_stpquotFrom {src : List UInt8} (hsrc : 0 ∉ src) (count : Int8) :
    0 ∉ stpquotFrom count src := by
  induction src generalizing count with
  | nil => exact List.not_mem_nil
  | cons c src ih =>
      have hrest : 0 ∉ src := fun hmem => hsrc (List.mem_cons_of_mem _ hmem)
      have hc : (0 : UInt8) ≠ c := fun hzero => hsrc (hzero ▸ List.mem_cons_self)
      have hnext := ih hrest
      rw [stpquotFrom]
      split_ifs
      · simp [Words.backslashes, hnext]
      · simp [hnext]
      · simp [hc, hnext]

theorem zero_not_mem_stpquot {src : List UInt8} (hsrc : 0 ∉ src) : 0 ∉ stpquot src := by
  have hbody := zero_not_mem_stpquotFrom hsrc 1
  simp [stpquot, hbody]

section
variable (heap : WinHeap)

/-- The memory for every argument is granted. -/
def ArgsGranted : Nat → Nat → List (List UInt8) → Prop
  | _, _, [] => True
  | ulSize, size, arg :: argv =>
      let request := size + (arg.length + 3)
      Granted heap ulSize request ∧
        ArgsGranted (max ulSize (pages heap (request + headerSize))) (request + escapes arg) argv

variable {heap}

/-- The line in a block: all arguments if the memory for them was granted, else
the first ones. -/
theorem argvLoop_text {block block' : Block} {line : List UInt8}
    (hpages : heap.pageSize ∣ block.size) (hline : text block.bytes = line)
    (hroom : line.length < block.bytes.length) {argv : List (List UInt8)}
    (hargs : ∀ arg ∈ argv, 0 ∉ arg) (hlimit : (line ++ argv.flatMap stpquot).length ≤ argLimit)
    (h : argvLoop heap block line.length argv = some block') :
    ∃ l rest, argv = l ++ rest ∧ text block'.bytes = line ++ l.flatMap stpquot ∧
      (rest = [] ↔ ArgsGranted heap block.size line.length argv) := by
  induction argv generalizing block line with
  | nil =>
      obtain rfl := Option.some.inj h
      exact ⟨[], [], rfl, by rw [hline]; exact (List.append_nil _).symm, iff_of_true rfl trivial⟩
  | cons arg argv ih =>
      have hzero := zero_not_mem_stpquot (hargs arg List.mem_cons_self)
      have hlength := length_stpquot arg
      rw [List.flatMap_cons, List.length_append, List.length_append] at hlimit
      rw [argvLoop] at h
      rw [if_neg (by omega)] at h
      cases hmoved : winRealloc heap (line.length + (arg.length + 3)) block with
      | none =>
          rw [hmoved] at h
          obtain rfl := Option.some.inj h
          -- no memory for this argument: the line ends before it, and no later one is tried
          refine ⟨[], arg :: argv, rfl, by rw [hline]; exact (List.append_nil _).symm,
            iff_of_false (List.cons_ne_nil _ _) ?_⟩
          rintro ⟨hgranted, _⟩
          have hgrown := (grown_eq_some_iff heap hpages).mpr ⟨hgranted, rfl⟩
          rw [winRealloc, hgrown] at hmoved
          exact absurd hmoved (Option.some_ne_none _)
      | some moved =>
          rw [hmoved] at h
          obtain ⟨hgrown, hpages'⟩ := winRealloc_size heap hpages hmoved
          obtain ⟨hgranted, hsize⟩ := (grown_eq_some_iff heap hpages).mp hgrown
          obtain ⟨written, hwrite, hrest⟩ := Option.bind_eq_some_iff.mp h
          have hkept := Block.write_size hwrite
          obtain ⟨hfits, hwritten⟩ := Block.write_eq_some_iff.mp hwrite
          have hlen : written.bytes.length = moved.bytes.length := by
            rw [hwritten, length_poke hfits]
          rw [List.length_append, List.length_singleton] at hfits
          -- what was written before is moved along with its end
          have htext : text moved.bytes = line := by
            obtain ⟨ulSize, _, rfl⟩ := Option.map_eq_some_iff.mp hmoved
            rw [Block.moved, text_append_of_lt (by rw [hline]; exact hroom), hline]
          have hwhole : text written.bytes = line ++ stpquot arg := by
            rw [hwritten, text_poke (by rw [htext]) hzero, htext, List.take_length]
          have hnext : line.length + (stpquot arg).length = (line ++ stpquot arg).length :=
            List.length_append.symm
          rw [hnext] at hrest
          obtain ⟨l, rest, rfl, htext', hall⟩ := ih (hkept.symm ▸ hpages') hwhole
            (by
              rw [hlen, List.length_append]
              omega)
            (fun a ha => hargs a (List.mem_cons_of_mem _ ha))
            (by
              rw [List.length_append, List.length_append]
              omega) hrest
          refine ⟨arg :: l, rest, rfl, ?_, ?_⟩
          · rw [htext', List.flatMap_cons, List.append_assoc]
          · have hend : (line ++ stpquot arg).length =
                line.length + (arg.length + 3) + escapes arg := by
              rw [List.length_append, hlength]
              omega
            rw [hall, ArgsGranted, hkept, hsize, hend]
            exact (and_iff_right hgranted).symm

end

/-! ### Arguments that survive -/

section
variable (heap : WinHeap) (pathMax : Nat) (command : List UInt8) (argv : List (List UInt8))

/-- Splitting the line gives the words of the command, and the arguments. -/
def Splits : Prop :=
  ∃ block, argvWin heap pathMax command argv = some block ∧
    splitLine (text block.bytes) = splitLine command ++ argv.tail

/-- The command leaves no quote open, and all arguments can be read back. -/
def Readable : Prop :=
  argv.tail = [] ∨
    ((Words.start.readAll command).quoted = false ∧ ∀ arg ∈ argv.tail, Quotable arg)

/-- The line fits the blocks, these are granted, and its words are readable. -/
structure Splittable : Prop where
  fits : LineFits heap pathMax command argv
  granted : ArgsGranted heap (pages heap (pathMax + headerSize)) command.length argv.tail
  readable : Readable command argv

variable {heap pathMax command argv}

theorem argvWin_ne_nil {block : Block} (h : argvWin heap pathMax command argv = some block) :
    ∃ arg args, argv = arg :: args := by
  cases argv with
  | nil => cases h
  | cons arg argv => exact ⟨arg, argv, rfl⟩

/-- The line that is built, with the arguments that are in it. -/
theorem argvWin_text (hcommand : 0 ∉ command) (hargs : ∀ arg ∈ argv.tail, 0 ∉ arg)
    (hlimit : (command ++ argv.tail.flatMap stpquot).length ≤ argLimit) {block : Block}
    (h : argvWin heap pathMax command argv = some block) :
    ∃ l rest, argv.tail = l ++ rest ∧ text block.bytes = command ++ l.flatMap stpquot ∧
      (rest = [] ↔
        ArgsGranted heap (pages heap (pathMax + headerSize)) command.length argv.tail) := by
  obtain ⟨arg, argv, rfl⟩ := argvWin_ne_nil h
  obtain ⟨written, hwrite, hloop⟩ := Option.bind_eq_some_iff.mp h
  have hsize := (Block.write_size hwrite).trans (winMalloc_size heap pathMax)
  obtain ⟨hfits, hwritten⟩ := Block.write_eq_some_iff.mp hwrite
  have htext : text written.bytes = command := by
    rw [hwritten, text_poke (Nat.zero_le _) hcommand, List.take_zero, List.nil_append]
  have hroom : command.length < written.bytes.length := by
    rw [hwritten, length_poke hfits]
    rw [List.length_append, List.length_singleton] at hfits
    omega
  have hfound := argvLoop_text (hsize.symm ▸ pages_dvd heap _) htext hroom hargs hlimit hloop
  rw [hsize] at hfound
  exact hfound

/-- What is read of the line, as far as it goes. -/
theorem splitLine_iff {l rest : List (List UInt8)} (hargs : argv.tail = l ++ rest) :
    splitLine (command ++ l.flatMap stpquot) = splitLine command ++ argv.tail ↔
      rest = [] ∧ Readable command argv := by
  have hstarted := Words.start_started.readAll command
  rw [splitLine, splitLine, Words.readAll_append, Readable, hargs]
  cases hquoted : (Words.start.readAll command).quoted with
  | false =>
      rw [arguments_iff hquoted hstarted.close_ne l rest]
      constructor
      · rintro ⟨rfl, hall⟩
        exact ⟨rfl, .inr ⟨rfl, by rw [List.append_nil]; exact hall⟩⟩
      · rintro ⟨rfl, hnil | ⟨_, hall⟩⟩
        · rw [List.append_nil] at hnil
          rw [hnil]
          exact ⟨rfl, fun arg hmem => absurd hmem List.not_mem_nil⟩
        · rw [List.append_nil] at hall
          exact ⟨rfl, hall⟩
  | true =>
      have hopen : ¬ (true = false ∧ ∀ arg ∈ l ++ rest, Quotable arg) :=
        fun h => Bool.noConfusion h.1
      cases l with
      | nil =>
          simp [Words.readAll]
      | cons arg l =>
          refine iff_of_false (arguments_inside hstarted hquoted arg _ _) ?_
          rintro ⟨_, hnil | h⟩
          · exact absurd hnil (List.cons_ne_nil _ _)
          · exact hopen h

theorem splits_of_fits (hcommand : 0 ∉ command) (hargs : ∀ arg ∈ argv.tail, 0 ∉ arg)
    (hlimit : (command ++ argv.tail.flatMap stpquot).length ≤ argLimit) {block : Block}
    (h : argvWin heap pathMax command argv = some block) :
    Splits heap pathMax command argv ↔
      ArgsGranted heap (pages heap (pathMax + headerSize)) command.length argv.tail ∧
        Readable command argv := by
  obtain ⟨l, rest, htail, htext, hall⟩ := argvWin_text hcommand hargs hlimit h
  rw [← hall, ← splitLine_iff htail, ← htext, Splits, h]
  simp

variable (heap pathMax) in
/-- Splitting the line gives exactly the arguments if and only if the vector has a
first one, the line fits the memory that is granted for it and, where there are
more, the command leaves no quote open, none of them ends in a backslash, and in
none of them 255 backslashes or more come before a quote. -/
theorem splits_iff (hcommand : 0 ∉ command) (hargs : ∀ arg ∈ argv.tail, 0 ∉ arg)
    (hlimit : (command ++ argv.tail.flatMap stpquot).length ≤ argLimit) :
    Splits heap pathMax command argv ↔ Splittable heap pathMax command argv := by
  constructor
  · intro h
    obtain ⟨block, hblock, _⟩ := id h
    obtain ⟨hgranted, hreadable⟩ := (splits_of_fits hcommand hargs hlimit hblock).mp h
    obtain ⟨arg, argv, rfl⟩ := argvWin_ne_nil hblock
    have hsome := Option.isSome_iff_exists.mpr ⟨block, hblock⟩
    exact ⟨(argvWin_cons_isSome pathMax command arg argv).mp hsome, hgranted, hreadable⟩
  · rintro ⟨hline, hgranted, hreadable⟩
    obtain ⟨arg, argv, rfl⟩ := List.exists_cons_of_ne_nil hline.1
    obtain ⟨block, hblock⟩ :=
      Option.isSome_iff_exists.mp ((argvWin_cons_isSome pathMax command arg argv).mpr hline)
    exact (splits_of_fits hcommand hargs hlimit hblock).mpr ⟨hgranted, hreadable⟩

end

/-! ### An argument that ends in a backslash -/

theorem splits_iff_quote :
    Splits pageHeap 1024 [99] [[99], [97, 34]] ↔ Splittable pageHeap 1024 [99] [[99], [97, 34]] :=
  splits_iff pageHeap 1024 (by decide) (by decide) (by decide)

/-- The backslash of `a\` takes the closing quote, and the next argument. -/
theorem backslash_merges : ¬ Splits pageHeap 1024 [99] [[99], [97, 92], [98]] := by
  intro h
  obtain ⟨block, hblock, _⟩ := id h
  obtain ⟨_, hnil | ⟨_, hall⟩⟩ :=
    (splits_of_fits (by decide) (by decide) (by decide) hblock).mp h
  · exact absurd hnil (by decide)
  · exact absurd (hall [97, 92] List.mem_cons_self).last (by decide)

end MinC.Sys
