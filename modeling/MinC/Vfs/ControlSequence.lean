import MinC.Vfs.ScreenRuns

/-!
A control sequence from its introducer to its last byte.

The collector keeps two registers for the parameters: the number in front of
the last semicolon, and the place behind it, from where a number is read when
the sequence is carried out. What they hold when the last byte comes is stated
here for any list of parameters that are texts of digits, together with what
the collector has stored and whether it stayed within its buffer.
-/

namespace MinC.Vfs

open MinC.Lib

def isLetter (ch : UInt8) : Bool := (65 ≤ ch && ch ≤ 90) || (97 ≤ ch && ch ≤ 122)

/-- A console tells the letters and digits of ASCII as everybody does. What it
says of other bytes is a matter of its code page. -/
structure Console.Ascii {κ : Type} (c : Console κ) : Prop where
  alpha : ∀ ch < 128, c.isCharAlpha ch = isLetter ch
  alphaNumeric : ∀ ch < 128, c.isCharAlphaNumeric ch = (isDigit ch || isLetter ch)

/-! ### Texts of digits -/

/-- What the emulator takes a parameter for: nothing and zero count as one, and
a number is cut off at the largest `LONG`. -/
def number (p : List UInt8) : Int :=
  if digits p = 0 then 1 else min (digits p : Int) 0x7FFFFFFF

/-- A parameter is read up to the byte behind it. -/
theorem ansiStrToInt_append {p : List UInt8} (hp : Numeral p) {ch : UInt8}
    (hch : isDigit ch = false) (hspace : isSpace ch = false) (hminus : ch ≠ 45) (hplus : ch ≠ 43)
    (rest : List UInt8) : ansiStrToInt (p ++ ch :: rest) = number p := by
  have hread : atoi (p ++ ch :: rest) = min (digits p : Int) 0x7FFFFFFF := by
    rw [← digits_append hp hch rest]
    -- the conversion stops at a character that is no part of a number
    cases p with
    | nil =>
        refine atoi_eq ?_ ?_ ?_
        · simp [hspace]
        · simpa using hminus
        · simpa using hplus
    | cons d p =>
        have hd : isDigit d = true := hp d List.mem_cons_self
        simp only [isDigit, Bool.and_eq_true, decide_eq_true_eq, UInt8.le_iff_toNat_le] at hd
        refine atoi_eq ?_ ?_ ?_
        · simp only [List.cons_append, List.head?_cons, Option.all_some, isSpace,
            Bool.not_eq_true', Bool.or_eq_false_iff, Bool.and_eq_false_iff, decide_eq_false_iff_not,
            UInt8.le_iff_toNat_le, beq_eq_false_iff_ne, ne_eq]
          refine ⟨.inr fun h => ?_, fun h => ?_⟩
          · exact absurd (Nat.le_trans hd.1 h) (by decide)
          · subst h
            exact absurd hd.1 (by decide)
        · rintro h
          cases h
          exact absurd hd.1 (by decide)
        · rintro h
          cases h
          exact absurd hd.1 (by decide)
  unfold ansiStrToInt number
  rw [hread]
  by_cases hzero : digits p = 0
  · rw [if_pos hzero, if_pos (by rw [hzero]; rfl)]
  · rw [if_neg hzero, if_neg (by omega)]

/-! ### Collecting -/

/-- A screen that has collected a control sequence as far as the introducer,
the parameters that a semicolon ended, and the digits of the one that goes on. -/
structure Collects {κ : Type} (s : Screen κ) (before last : List UInt8) (arg1 : Int)
    (t : Screen κ) : Prop where
  con : t.con = s.con
  tty : t.tty = s.tty
  escape : t.escape = some (before ++ last).length
  buf : ∃ stale, t.seq.buf = before ++ last ++ stale
  args : t.seq.args = before.length
  csi : t.seq.csi = 91
  char1 : t.seq.char1 = last.headD 0
  arg1 : t.seq.arg1 = arg1
  inside : t.seq.inside = true ↔ s.seq.inside = true ∧ (before ++ last).length ≤ ansiBufSize

namespace Screen

variable {κ : Type} {c : Console κ} {s t : Screen κ} {before last : List UInt8} {arg1 : Int}

theorem escapeTo_introducer (ha : c.Ascii) (size : Nat) (hcsi : t.seq.csi = 0) :
    t.escapeTo c size 91 = { t with seq := { t.seq with args := t.seq.args + 1, csi := 91 } } := by
  have halpha : c.isCharAlphaNumeric 91 = false := ha.alphaNumeric 91 (by decide)
  unfold escapeTo
  rw [if_neg (by decide), if_neg (by decide), if_neg (by decide), hcsi, if_neg (by decide),
    if_neg (by decide), halpha]
  rfl

theorem escapeTo_semicolon (size : Nat) (hcsi : t.seq.csi = 91) :
    t.escapeTo c size 59 =
      { t with seq := { t.seq with arg1 := t.argsToInt, char1 := 0, args := size } } := by
  unfold escapeTo
  rw [if_neg (by decide), if_neg (by decide), if_neg (by decide), hcsi, if_neg (by decide),
    if_pos rfl]

/-- The bytes that mean something whatever introduced the sequence are neither
digits nor letters. -/
theorem ne_special {ch : UInt8} (h : isDigit ch = true ∨ isLetter ch = true) :
    ch ≠ 7 ∧ ch ≠ 64 ∧ ch ≠ 95 ∧ ch ≠ 59 := by
  refine ⟨?_, ?_, ?_, ?_⟩
  all_goals
    rintro rfl
    exact absurd h (by decide)

theorem digit_not_letter {ch : UInt8} (h : isDigit ch = true) : isLetter ch = false := by
  simp only [isDigit, Bool.and_eq_true, decide_eq_true_eq, UInt8.le_iff_toNat_le] at h
  have hle : ch.toNat ≤ 57 := h.2
  simp only [isLetter, Bool.or_eq_false_iff, Bool.and_eq_false_iff, decide_eq_false_iff_not,
    UInt8.le_iff_toNat_le]
  refine ⟨.inl fun h' => ?_, .inl fun h' => ?_⟩
  · exact absurd (Nat.le_trans h' hle) (by decide)
  · exact absurd (Nat.le_trans h' hle) (by decide)

/-- No number goes on with a letter, and none starts behind one. -/
theorem letter_ends_number {ch : UInt8} (h : isLetter ch = true) :
    isDigit ch = false ∧ isSpace ch = false ∧ ch ≠ 45 ∧ ch ≠ 43 := by
  have hle : (65 : UInt8) ≤ ch := by
    simp only [isLetter, Bool.or_eq_true, Bool.and_eq_true, decide_eq_true_eq] at h
    rcases h with h | h
    · exact h.1
    · exact UInt8.le_trans (by decide) h.1
  rw [UInt8.le_iff_toNat_le] at hle
  refine ⟨?_, ?_, ?_, ?_⟩
  · simp only [isDigit, Bool.and_eq_false_iff, decide_eq_false_iff_not, UInt8.le_iff_toNat_le]
    exact .inr fun h' => absurd (Nat.le_trans hle h') (by decide)
  · simp only [isSpace, Bool.or_eq_false_iff, Bool.and_eq_false_iff, decide_eq_false_iff_not,
      UInt8.le_iff_toNat_le, beq_eq_false_iff_ne, ne_eq]
    refine ⟨.inr fun h' => absurd (Nat.le_trans hle h') (by decide), fun h' => ?_⟩
    subst h'
    exact absurd hle (by decide)
  · rintro rfl
    exact absurd hle (by decide)
  · rintro rfl
    exact absurd hle (by decide)

theorem letter_lt {ch : UInt8} (h : isLetter ch = true) : ch < 128 := by
  simp only [isLetter, Bool.or_eq_true, Bool.and_eq_true, decide_eq_true_eq] at h
  rcases h with h | h
  · exact UInt8.lt_of_le_of_lt h.2 (by decide)
  · exact UInt8.lt_of_le_of_lt h.2 (by decide)

theorem escapeTo_digit (ha : c.Ascii) (size : Nat) {ch : UInt8} (hch : isDigit ch = true)
    (hcsi : t.seq.csi = 91) :
    t.escapeTo c size ch =
      if t.seq.char1 = 0 then { t with seq := { t.seq with char1 := ch } } else t := by
  obtain ⟨hbell, hat, hunder, hsemi⟩ := ne_special (.inl hch)
  have hlt : ch < 128 := Numeral.lt (p := [ch]) (by simpa [Numeral] using hch) List.mem_cons_self
  have halnum : c.isCharAlphaNumeric ch = true := by rw [ha.alphaNumeric ch hlt, hch]; rfl
  have halpha : c.isCharAlpha ch = false := by rw [ha.alpha ch hlt, digit_not_letter hch]
  unfold escapeTo
  rw [if_neg hbell, if_neg hat, if_neg hunder, hcsi, if_neg (by decide), if_neg hsemi, halnum,
    if_neg (by decide), halpha, if_neg (by decide), if_neg (by decide)]

/-- A letter has the sequence carried out. -/
theorem escapeTo_letter (ha : c.Ascii) (size : Nat) {ch : UInt8} (hch : isLetter ch = true)
    (hcsi : t.seq.csi = 91) : t.escapeTo c size ch = t.ansi c ch size := by
  obtain ⟨hbell, hat, hunder, hsemi⟩ := ne_special (.inr hch)
  have hlt : ch < 128 := letter_lt hch
  have halnum : c.isCharAlphaNumeric ch = true := by
    rw [ha.alphaNumeric ch hlt, hch, Bool.or_true]
  have halpha : c.isCharAlpha ch = true := by rw [ha.alpha ch hlt, hch]
  unfold escapeTo
  rw [if_neg hbell, if_neg hat, if_neg hunder, hcsi, if_neg (by decide), if_neg hsemi, halnum,
    if_neg (by decide), halpha, if_pos rfl]

/-- One more byte in the buffer. -/
theorem buf_stored (gathered : List UInt8) (hbuf : ∃ stale, t.seq.buf = gathered ++ stale)
    (ch : UInt8) :
    ∃ stale, (t.stored gathered.length ch).seq.buf = gathered ++ [ch] ++ stale := by
  obtain ⟨stale, hstale⟩ := hbuf
  refine ⟨stale.drop 1, ?_⟩
  show poke t.seq.buf gathered.length [ch] = _
  rw [hstale, poke_append, List.append_assoc]
  rfl

theorem inside_stored_iff (gathered : List UInt8)
    (hinside : t.seq.inside = true ↔ s.seq.inside = true ∧ gathered.length ≤ ansiBufSize)
    (ch : UInt8) :
    (t.stored gathered.length ch).seq.inside = true ↔
      s.seq.inside = true ∧ (gathered ++ [ch]).length ≤ ansiBufSize := by
  show (t.seq.inside && decide (gathered.length < ansiBufSize)) = true ↔ _
  rw [Bool.and_eq_true, decide_eq_true_eq, hinside, List.length_append, List.length_singleton,
    and_assoc]
  exact and_congr_right fun _ => ⟨And.right, fun h => ⟨Nat.le_of_succ_le h, h⟩⟩

end Screen

namespace Collects

variable {κ : Type} {c : Console κ} {s t : Screen κ} {before last : List UInt8} {arg1 : Int}

theorem step (h : Collects s before last arg1 t) (ch : UInt8) :
    Writer.step c ⟨t, []⟩ ch =
      ⟨((t.withChar ch).stored (before ++ last).length ch).escapeTo c
        ((before ++ last).length + 1) ch, []⟩ :=
  Writer.step_escape h.escape

theorem digit (ha : c.Ascii) (h : Collects s before last arg1 t) {ch : UInt8}
    (hch : isDigit ch = true) (hlast : Numeral last) :
    ∃ t', Writer.step c ⟨t, []⟩ ch = ⟨t', []⟩ ∧ Collects s before (last ++ [ch]) arg1 t' := by
  have hbuf := Screen.buf_stored (t := t.withChar ch) _ h.buf ch
  have hinside := Screen.inside_stored_iff (s := s) (t := t.withChar ch) _ h.inside ch
  rw [List.append_assoc] at hbuf hinside
  have hlen : (before ++ (last ++ [ch])).length = (before ++ last).length + 1 := by
    rw [← List.append_assoc, List.length_append, List.length_singleton]
  have hcsi : ((t.withChar ch).stored (before ++ last).length ch).seq.csi = 91 := h.csi
  rw [h.step, Screen.escapeTo_digit ha _ hch hcsi]
  -- the first digit is kept, and no digit is zero
  cases last with
  | nil =>
      have hzero : ((t.withChar ch).stored (before ++ []).length ch).seq.char1 = 0 := h.char1
      rw [if_pos hzero]
      exact ⟨_, rfl, h.con, h.tty, congrArg some hlen.symm, hbuf, h.args, h.csi, rfl, h.arg1, hinside⟩
  | cons d last =>
      have hchar : ((t.withChar ch).stored (before ++ d :: last).length ch).seq.char1 = d := h.char1
      have hne : d ≠ 0 := by
        rintro rfl
        exact absurd (hlast 0 List.mem_cons_self) (by decide)
      rw [if_neg (by rw [hchar]; exact hne)]
      exact ⟨_, rfl, h.con, h.tty, congrArg some hlen.symm, hbuf, h.args, h.csi, hchar, h.arg1,
        hinside⟩

/-- The digits of a parameter. -/
theorem numeral (ha : c.Ascii) {p : List UInt8} (hp : Numeral p) {last : List UInt8}
    (hlast : Numeral last) (h : Collects s before last arg1 t) :
    ∃ t', run (Writer.step c) ⟨t, []⟩ p = ⟨t', []⟩ ∧ Collects s before (last ++ p) arg1 t' := by
  induction p generalizing t last with
  | nil => exact ⟨t, rfl, by rw [List.append_nil]; exact h⟩
  | cons ch p ih =>
      have hch : isDigit ch = true := hp ch List.mem_cons_self
      obtain ⟨t₁, hstep, h₁⟩ := h.digit ha hch hlast
      have hgrown : Numeral (last ++ [ch]) := by
        intro d hd
        rcases List.mem_append.mp hd with hd | hd
        · exact hlast d hd
        · rw [List.mem_singleton.mp hd]
          exact hch
      obtain ⟨t₂, hrun, h₂⟩ := ih (fun d hd => hp d (List.mem_cons_of_mem _ hd)) hgrown h₁
      rw [List.append_assoc] at h₂
      rw [run_cons, hstep]
      exact ⟨t₂, hrun, h₂⟩

/-- What is read from the register when a byte that is no digit has come. -/
theorem argsToInt_stored (h : Collects s before last arg1 t) (hlast : Numeral last) {ch : UInt8}
    (hch : isDigit ch = false) (hspace : isSpace ch = false) (hminus : ch ≠ 45) (hplus : ch ≠ 43) :
    ((t.withChar ch).stored (before ++ last).length ch).argsToInt = number last := by
  obtain ⟨stale, hstale⟩ := Screen.buf_stored (t := t.withChar ch) _ h.buf ch
  have hargs : ((t.withChar ch).stored (before ++ last).length ch).seq.args = before.length := h.args
  unfold Screen.argsToInt
  rw [hstale, hargs, List.append_assoc, List.append_assoc, List.drop_left' rfl]
  exact ansiStrToInt_append hlast hch hspace hminus hplus stale

theorem semicolon (h : Collects s before last arg1 t) (hlast : Numeral last) :
    ∃ t', Writer.step c ⟨t, []⟩ 59 = ⟨t', []⟩ ∧
      Collects s (before ++ last ++ [59]) [] (number last) t' := by
  have hbuf := Screen.buf_stored (t := t.withChar 59) _ h.buf 59
  have hinside := Screen.inside_stored_iff (s := s) (t := t.withChar 59) _ h.inside 59
  have hlen : (before ++ last ++ [59]).length = (before ++ last).length + 1 := by
    rw [List.length_append, List.length_singleton]
  have hcsi : ((t.withChar 59).stored (before ++ last).length 59).seq.csi = 91 := h.csi
  rw [h.step, Screen.escapeTo_semicolon _ hcsi]
  refine ⟨_, rfl, h.con, h.tty, ?_, ?_, hlen.symm, h.csi, rfl, ?_, ?_⟩
  · rw [List.append_nil, hlen]
    rfl
  · rw [List.append_nil]
    exact hbuf
  · exact h.argsToInt_stored hlast (by decide) (by decide) (by decide) (by decide)
  · rw [List.append_nil]
    exact hinside

end Collects

/-! ### Whole sequences -/

/-- The parameters `p`, `ps`, with semicolons between them. -/
def parameters (p : List UInt8) (ps : List (List UInt8)) : List UInt8 :=
  p ++ ps.flatMap (fun q => 59 :: q)

/-- `ESC [`, the parameters, and the byte that says what to do. -/
def controlSequence (p : List UInt8) (ps : List (List UInt8)) (final : UInt8) : List UInt8 :=
  27 :: 91 :: (parameters p ps ++ [final])

/-- How many bytes of a sequence the collector stores. -/
def sequenceSize (p : List UInt8) (ps : List (List UInt8)) : Nat := (parameters p ps).length + 2

def lastParameter : List UInt8 → List (List UInt8) → List UInt8
  | p, [] => p
  | _, q :: ps => lastParameter q ps

/-- The number in front of the last semicolon, if there is one. -/
def firstArgument (arg1 : Int) : List UInt8 → List (List UInt8) → Int
  | _, [] => arg1
  | p, q :: ps => firstArgument (number p) q ps

/-- A screen that is about to carry out a sequence. -/
structure Ready {κ : Type} (s : Screen κ) (p : List UInt8) (ps : List (List UInt8)) (final : UInt8)
    (u : Screen κ) : Prop where
  con : u.con = s.con
  tty : u.tty = s.tty
  csi : u.seq.csi = 91
  char1 : u.seq.char1 = (lastParameter p ps).headD 0
  arg1 : u.seq.arg1 = firstArgument 1 p ps
  args : u.argsToInt = number (lastParameter p ps)
  text : u.seq.buf.take (sequenceSize p ps) = 91 :: (parameters p ps ++ [final])
  inside : u.seq.inside = true ↔ s.seq.inside = true ∧ sequenceSize p ps ≤ ansiBufSize

theorem numeral_lastParameter {p : List UInt8} {ps : List (List UInt8)} (hp : Numeral p)
    (hps : ∀ q ∈ ps, Numeral q) : Numeral (lastParameter p ps) := by
  induction ps generalizing p with
  | nil => exact hp
  | cons q ps ih =>
      exact ih (hps q List.mem_cons_self) fun r hr => hps r (List.mem_cons_of_mem _ hr)

section

variable {κ : Type} {c : Console κ}

/-- The parameters, one after the other. -/
theorem Collects.parameters (ha : c.Ascii) {s t : Screen κ} {before p : List UInt8} {arg1 : Int}
    {ps : List (List UInt8)} (hp : Numeral p) (hps : ∀ q ∈ ps, Numeral q)
    (h : Collects s before [] arg1 t) :
    ∃ before' t', run (Writer.step c) ⟨t, []⟩ (parameters p ps) = ⟨t', []⟩ ∧
      before' ++ lastParameter p ps = before ++ MinC.Vfs.parameters p ps ∧
      Collects s before' (lastParameter p ps) (firstArgument arg1 p ps) t' := by
  induction ps generalizing t before p arg1 with
  | nil =>
      obtain ⟨t₁, hrun, h₁⟩ := h.numeral ha hp (fun ch hch => absurd hch List.not_mem_nil)
      refine ⟨before, t₁, ?_, ?_, h₁⟩
      · rw [MinC.Vfs.parameters, List.flatMap_nil, List.append_nil]
        exact hrun
      · rw [MinC.Vfs.parameters, List.flatMap_nil, List.append_nil]
        rfl
  | cons q ps ih =>
      obtain ⟨t₁, hrun, h₁⟩ := h.numeral ha hp (fun ch hch => absurd hch List.not_mem_nil)
      obtain ⟨t₂, hstep, h₂⟩ := h₁.semicolon (c := c) hp
      obtain ⟨before', t₃, hrest, hbefore, h₃⟩ :=
        ih (hps q List.mem_cons_self) (fun r hr => hps r (List.mem_cons_of_mem _ hr)) h₂
      have hsplit : MinC.Vfs.parameters p (q :: ps) = p ++ 59 :: MinC.Vfs.parameters q ps := by
        rw [MinC.Vfs.parameters, List.flatMap_cons]
        rfl
      refine ⟨before', t₃, ?_, ?_, h₃⟩
      · rw [hsplit, run_append, hrun, run_cons]
        exact (congrArg (fun w => run (Writer.step c) w (MinC.Vfs.parameters q ps)) hstep).trans hrest
      · rw [show lastParameter p (q :: ps) = lastParameter q ps from rfl, hbefore, hsplit]
        simp

/-- The introducer. -/
theorem collects_introducer (ha : c.Ascii) {w : Writer κ} (hw : w.screen.escape = none) :
    ∃ t, run (Writer.step c) w [27, 91] = ⟨t, []⟩ ∧
      Collects (w.screen.putString c w.held) [91] [] 1 t := by
  have hstart : Writer.step c w 27 =
      ⟨((w.screen.withChar 27).putString c w.held).startEscape, []⟩ :=
    Writer.step_control hw (by decide)
  rw [run_cons, hstart, run_cons, run_nil]
  generalize hs : (w.screen.withChar 27).putString c w.held = s
  have hstep : Writer.step c ⟨s.startEscape, []⟩ 91 =
      ⟨((s.startEscape.withChar 91).stored 0 91).escapeTo c 1 91, []⟩ :=
    Writer.step_escape rfl
  rw [hstep, Screen.escapeTo_introducer ha 1 rfl]
  have hinside : (s.startEscape.withChar 91).seq.inside = true ↔
      s.seq.inside = true ∧ ([] : List UInt8).length ≤ ansiBufSize :=
    (and_iff_left (Nat.zero_le _)).symm
  subst hs
  refine ⟨_, rfl, rfl, rfl, rfl, ?_, rfl, rfl, rfl, rfl, ?_⟩
  · exact Screen.buf_stored [] ⟨_, rfl⟩ 91
  · exact Screen.inside_stored_iff [] hinside 91

/-- Writing a whole sequence has it carried out. -/
theorem run_controlSequence (ha : c.Ascii) {w : Writer κ} (hw : w.screen.escape = none)
    {p : List UInt8} {ps : List (List UInt8)} (hp : Numeral p) (hps : ∀ q ∈ ps, Numeral q)
    {final : UInt8} (hfinal : isLetter final = true) :
    ∃ u, run (Writer.step c) w (controlSequence p ps final) =
        ⟨u.ansi c final (sequenceSize p ps), []⟩ ∧
      Ready (w.screen.putString c w.held) p ps final u := by
  obtain ⟨t, hstart, h⟩ := collects_introducer ha hw
  obtain ⟨before, t', hrun, hbefore, h'⟩ := h.parameters ha hp hps
  have hlast := numeral_lastParameter hp hps
  have hbytes : controlSequence p ps final = [27, 91] ++ (parameters p ps ++ [final]) := rfl
  have hlen : (before ++ lastParameter p ps).length + 1 = sequenceSize p ps := by
    rw [hbefore, List.length_append, sequenceSize, List.length_singleton]
    omega
  have hcsi : ((t'.withChar final).stored (before ++ lastParameter p ps).length final).seq.csi = 91 :=
    h'.csi
  obtain ⟨stale, hstale⟩ := Screen.buf_stored (t := t'.withChar final) _ h'.buf final
  have hinside := Screen.inside_stored_iff (s := w.screen.putString c w.held)
    (t := t'.withChar final) _ h'.inside final
  obtain ⟨hdigit, hspace, hminus, hplus⟩ := Screen.letter_ends_number hfinal
  refine ⟨(t'.withChar final).stored (before ++ lastParameter p ps).length final, ?_, ?_⟩
  · rw [hbytes, run_append, hstart, run_append, hrun, run_cons, run_nil, h'.step, hlen,
      Screen.escapeTo_letter ha _ hfinal hcsi]
  · refine ⟨h'.con, h'.tty, hcsi, h'.char1, h'.arg1, ?_, ?_, ?_⟩
    · exact h'.argsToInt_stored hlast hdigit hspace hminus hplus
    · rw [hstale, hbefore, ← hlen, hbefore]
      refine List.take_left' ?_
      rw [List.length_append, List.length_singleton]
    · rw [hinside, List.length_append, List.length_singleton, hlen]

/-! ### A call with a sequence -/

variable {s u : Screen κ} {char : UInt8} {size : Nat}

theorem Screen.tty_ansi : (u.ansi c char size).tty = (u.ansiSequence c char size).2.tty := by
  unfold Screen.ansi
  cases hdone : (u.ansiSequence c char size).1 with
  | true => simp only [hdone, if_true]
  | false =>
      simp only [hdone, Bool.false_eq_true, if_false]
      rfl

/-- A sequence that did something is not reported. -/
theorem Screen.ansi_of_done (h : (u.ansiSequence c char size).1 = true) :
    u.ansi c char size = { (u.ansiSequence c char size).2 with escape := none } := by
  unfold Screen.ansi
  simp only [h, if_true]

theorem Ready.ansiSequence {p : List UInt8} {ps : List (List UInt8)} (h : Ready s p ps char u) :
    u.ansiSequence c char size = u.ansiControl c char size := by
  unfold Screen.ansiSequence
  rw [h.csi, if_pos rfl]

/-- A screen that no sequence goes on for, and that has not stored outside of
the collector's buffer. -/
structure Rests (s : Screen κ) : Prop where
  escape : s.escape = none
  inside : s.seq.inside = true

/-- A call that writes one sequence. -/
theorem write_controlSequence (ha : c.Ascii) (hs : s.escape = none) {p : List UInt8}
    {ps : List (List UInt8)} (hp : Numeral p) (hps : ∀ q ∈ ps, Numeral q)
    (hchar : isLetter char = true) :
    ∃ u, (s.write c (controlSequence p ps char)).1 = u.ansi c char (sequenceSize p ps) ∧
      Ready (s.renderWindow c) p ps char u := by
  obtain ⟨u, hrun, hready⟩ :=
    run_controlSequence ha (w := ⟨s.renderWindow c, []⟩) hs hp hps hchar
  have hstart : (s.renderWindow c).putString c [] = s.renderWindow c := by
    rw [Screen.putString_nil]
    rfl
  rw [hstart] at hready
  refine ⟨u, ?_, hready⟩
  rw [Writer.write_eq, hrun]
  rfl

end

theorem Store.ascii : Console.Ascii Store.console where
  alpha := fun _ _ => rfl
  alphaNumeric := fun _ _ => Bool.or_assoc _ _ _

end MinC.Vfs
