import MinC.Vfs.Collector
import MinC.Vfs.ControlSequence
import MinC.Lib.Bits
import Mathlib.Tactic.IntervalCases

/-!
Select graphic rendition.

Each parameter of the sequence changes the attributes in force, and a console
shows the result. What the parameters ask for is stated here by their numbers.
The emulator reads two digits of a parameter, gives up at the first one it has
no use for, and tells the console only when it got through. That the video is
reversed is known to its record alone, which is read from the console again at
the next escape character; all the console was told is which colours to show.
-/

namespace MinC.Vfs

open MinC.Lib

/-! ### What the parameters ask for -/

/-- The console's colour for one of ours, whose lowest bit is red and not blue. -/
def consoleColor (n : Nat) : UInt16 := UInt16.ofNat (n % 2 * 4 + n / 2 % 2 * 2 + n / 4)

/-- What is switched on, by the last digit. -/
def fontOn (attributes : UInt16) (n : Nat) : Option UInt16 :=
  if n = 0 then some 7
  else if n = 1 then some (attributes ||| 8)
  else if n = 2 ∨ n = 3 then some attributes
  else if n = 4 then some (attributes ||| 3)
  else if n = 5 ∨ n = 7 then some (attributes ||| commonLvbReverseVideo)
  else none

/-- What is switched off. -/
def fontOff (attributes : UInt16) (n : Nat) : Option UInt16 :=
  if n = 2 then some (attributes &&& ~~~8)
  else if n = 4 then some (attributes &&& ~~~3)
  else if n = 5 ∨ n = 7 then some (attributes &&& ~~~commonLvbReverseVideo)
  else none

def foreground (attributes : UInt16) (n : Nat) : Option UInt16 :=
  if n < 8 then some (attributes &&& 0xFFF8 ||| consoleColor n)
  else if n = 9 then some (attributes &&& 0xFFF8 ||| 7)
  else none

def background (attributes : UInt16) (n : Nat) : Option UInt16 :=
  if n < 8 then some (attributes &&& 0xFF8F ||| consoleColor n * 0x10)
  else if n = 9 then some (attributes &&& 0xFF8F)
  else none

/-- What a parameter makes of the attributes, if it is supported. -/
def selects (attributes : UInt16) (n : Nat) : Option UInt16 :=
  if n < 20 then fontOn attributes (n % 10)
  else if n < 30 then fontOff attributes (n % 10)
  else if n < 40 then foreground attributes (n % 10)
  else if n < 50 then background attributes (n % 10)
  else none

def Supported (n : Nat) : Prop := selects 0 n ≠ none

instance decidableSupported (n : Nat) : Decidable (Supported n) :=
  inferInstanceAs (Decidable (selects 0 n ≠ none))

/-- The parameters one after the other, those that are not supported being
ignored. -/
def applied (attributes : UInt16) (ns : List Nat) : UInt16 :=
  ns.foldl (fun attributes n => (selects attributes n).getD attributes) attributes

/-- Foreground and background change places. -/
def inverted (attributes : UInt16) : UInt16 :=
  (attributes &&& 0xF0) / 0x10 ||| (attributes &&& 0x0F) * 0x10

/-- The colours that attributes are shown in. -/
def shown (attributes : UInt16) : UInt16 :=
  if attributes &&& commonLvbReverseVideo ≠ 0 then inverted attributes else attributes &&& 0xFF

theorem selects_eq_none (attributes : UInt16) (n : Nat) :
    selects attributes n = none ↔ ¬ Supported n := by
  unfold Supported selects
  rw [not_not]
  split_ifs
  · unfold fontOn
    split_ifs <;> simp
  · unfold fontOff
    split_ifs <;> simp
  · unfold foreground
    split_ifs <;> simp
  · unfold background
    split_ifs <;> simp
  · simp

theorem selects_of_le (attributes : UInt16) {n : Nat} (hn : 50 ≤ n) :
    selects attributes n = none := by
  unfold selects
  rw [if_neg (by omega), if_neg (by omega), if_neg (by omega), if_neg (by omega)]

/-- The attributes after all the parameters, if each of them is supported. -/
theorem foldlM_selects (attributes : UInt16) (ns : List Nat) :
    ns.foldlM selects attributes =
      if ∀ n ∈ ns, Supported n then some (applied attributes ns) else none := by
  induction ns generalizing attributes with
  | nil => simp [applied]
  | cons n ns ih =>
      rw [List.foldlM_cons]
      cases hn : selects attributes n with
      | none =>
          have hno := (selects_eq_none attributes n).mp hn
          rw [if_neg fun h => hno (h n List.mem_cons_self)]
          rfl
      | some next =>
          have hyes : Supported n := by
            by_contra hno
            rw [(selects_eq_none attributes n).mpr hno] at hn
            cases hn
          have happlied : applied attributes (n :: ns) = applied next ns := by
            show applied ((selects attributes n).getD attributes) ns = _
            rw [hn]
            rfl
          rw [happlied, show (some next >>= fun a => ns.foldlM selects a) = _ from ih next]
          simp [hyes]

/-! ### What the emulator makes of a parameter -/

/-- The number that is read of a parameter: its first two digits. -/
def firstDigits (p : List UInt8) : Nat := digits (p.take 2)

namespace Screen

variable {κ : Type} {s : Screen κ}

/-- The attributes of the record are those that were asked for, or the emulator
gave up. -/
def Takes (s : Screen κ) (r : Bool × Screen κ) : Option UInt16 → Prop
  | some attributes => r = (true, s.withAttributes attributes)
  | none => r.1 = false ∧ r.2.con = s.con

theorem takes_ansiRenderFont {n : Nat} (hn : n < 10) :
    s.Takes (s.ansiRenderFont (UInt8.ofNat (48 + n))) (fontOn s.info.attributes n) := by
  interval_cases n
  all_goals first | exact rfl | exact ⟨rfl, rfl⟩

theorem takes_ansiRenderClear {n : Nat} (hn : n < 10) :
    s.Takes (s.ansiRenderClear (UInt8.ofNat (48 + n))) (fontOff s.info.attributes n) := by
  interval_cases n
  all_goals first | exact rfl | exact ⟨rfl, rfl⟩

theorem takes_ansiRenderForeground {n : Nat} (hn : n < 10) :
    s.Takes (s.ansiRenderForeground (UInt8.ofNat (48 + n))) (foreground s.info.attributes n) := by
  interval_cases n
  all_goals first | exact rfl | exact ⟨rfl, rfl⟩

theorem takes_ansiRenderBackground {n : Nat} (hn : n < 10) :
    s.Takes (s.ansiRenderBackground (UInt8.ofNat (48 + n))) (background s.info.attributes n) := by
  interval_cases n
  all_goals first | exact rfl | exact ⟨rfl, rfl⟩

theorem exists_digit {ch : UInt8} (h : isDigit ch = true) :
    ∃ n < 10, ch = UInt8.ofNat (48 + n) := by
  simp only [isDigit, Bool.and_eq_true, decide_eq_true_eq, UInt8.le_iff_toNat_le] at h
  have hlow : 48 ≤ ch.toNat := h.1
  have hhigh : ch.toNat ≤ 57 := h.2
  refine ⟨ch.toNat - 48, by omega, ?_⟩
  rw [Nat.add_sub_cancel' hlow, UInt8.ofNat_toNat]

theorem digits_two {m n : Nat} (hm : m < 10) (hn : n < 10) :
    digits [UInt8.ofNat (48 + m), UInt8.ofNat (48 + n)] = 10 * m + n := by
  interval_cases m <;> interval_cases n <;> rfl

/-- The second digit says what to do, the first one to what. -/
theorem takes_ansiRender_two {m n : Nat} (hm : m < 10) (hn : n < 10) :
    s.Takes (s.ansiRender (UInt8.ofNat (48 + m)) (UInt8.ofNat (48 + n)))
      (selects s.info.attributes (10 * m + n)) := by
  have hne : UInt8.ofNat (48 + n) ≠ 0 := by interval_cases n <;> decide
  have hunit : (10 * m + n) % 10 = n := by omega
  unfold ansiRender
  rw [if_neg hne]
  by_cases hbig : 50 ≤ 10 * m + n
  · rw [selects_of_le _ hbig]
    have hlow : 5 ≤ m := by omega
    interval_cases m
    all_goals exact ⟨rfl, rfl⟩
  have hlow : m < 5 := by omega
  unfold selects
  rw [hunit]
  interval_cases m
  · rw [if_pos (by omega : 10 * 0 + n < 20)]
    exact takes_ansiRenderFont hn
  · rw [if_pos (by omega : 10 * 1 + n < 20)]
    exact takes_ansiRenderFont hn
  · rw [if_neg (by omega : ¬ 10 * 2 + n < 20), if_pos (by omega : 10 * 2 + n < 30)]
    exact takes_ansiRenderClear hn
  · rw [if_neg (by omega : ¬ 10 * 3 + n < 20), if_neg (by omega : ¬ 10 * 3 + n < 30),
      if_pos (by omega : 10 * 3 + n < 40)]
    exact takes_ansiRenderForeground hn
  · rw [if_neg (by omega : ¬ 10 * 4 + n < 20), if_neg (by omega : ¬ 10 * 4 + n < 30),
      if_neg (by omega : ¬ 10 * 4 + n < 40), if_pos (by omega : 10 * 4 + n < 50)]
    exact takes_ansiRenderBackground hn

theorem takes_ansiRender {p : List UInt8} (hp : Numeral p) :
    s.Takes (s.ansiRender (p.headD 0) ((p.drop 1).headD 0))
      (selects s.info.attributes (firstDigits p)) := by
  match p, hp with
  | [], _ => exact rfl
  | [d], hp =>
      obtain ⟨n, hn, rfl⟩ := exists_digit (hp d List.mem_cons_self)
      have hsingle : firstDigits [UInt8.ofNat (48 + n)] = n := by interval_cases n <;> rfl
      rw [hsingle]
      interval_cases n
      all_goals first | exact rfl | exact ⟨rfl, rfl⟩
  | d :: e :: p, hp =>
      obtain ⟨m, hm, rfl⟩ := exists_digit (hp d List.mem_cons_self)
      obtain ⟨n, hn, rfl⟩ := exists_digit (hp e (List.mem_cons_of_mem _ List.mem_cons_self))
      have hleading : firstDigits (UInt8.ofNat (48 + m) :: UInt8.ofNat (48 + n) :: p) = 10 * m + n :=
        digits_two hm hn
      rw [hleading]
      exact takes_ansiRender_two hm hn

/-! ### The loop -/

theorem ansiRenderAll_digit {char1 char2 ch : UInt8} (hch : isDigit ch = true) {rest : List UInt8}
    (hrest : rest ≠ []) :
    s.ansiRenderAll char1 char2 (ch :: rest) =
      if char1 = 0 then s.ansiRenderAll ch char2 rest
      else if char2 = 0 then s.ansiRenderAll char1 ch rest
      else s.ansiRenderAll char1 char2 rest := by
  have hbracket : ch ≠ 91 := by
    rintro rfl
    exact absurd hch (by decide)
  have hsemi : ch ≠ 59 := (ne_special (.inl hch)).2.2.2
  rw [ansiRenderAll, if_neg hbracket, if_neg (by simp [hsemi, hrest])]

theorem ne_zero_of_digit {ch : UInt8} (hch : isDigit ch = true) : ch ≠ 0 := by
  rintro rfl
  exact absurd hch (by decide)

/-- Digits behind the second one make no difference. -/
theorem ansiRenderAll_skip {char1 char2 : UInt8} (h1 : char1 ≠ 0) (h2 : char2 ≠ 0)
    {p : List UInt8} (hp : Numeral p) {rest : List UInt8} (hrest : rest ≠ []) :
    s.ansiRenderAll char1 char2 (p ++ rest) = s.ansiRenderAll char1 char2 rest := by
  induction p with
  | nil => rfl
  | cons ch p ih =>
      rw [List.cons_append, ansiRenderAll_digit (hp ch List.mem_cons_self) (by simp [hrest]),
        if_neg h1, if_neg h2]
      exact ih fun d hd => hp d (List.mem_cons_of_mem _ hd)

/-- The digits of a parameter leave its first two behind. -/
theorem ansiRenderAll_numeral {p : List UInt8} (hp : Numeral p) {rest : List UInt8}
    (hrest : rest ≠ []) :
    s.ansiRenderAll 0 0 (p ++ rest) =
      s.ansiRenderAll (p.headD 0) ((p.drop 1).headD 0) rest := by
  match p, hp with
  | [], _ => rfl
  | [d], hp =>
      rw [List.singleton_append, ansiRenderAll_digit (hp d List.mem_cons_self) hrest, if_pos rfl]
      rfl
  | d :: e :: p, hp =>
      have hd := hp d List.mem_cons_self
      have he := hp e (List.mem_cons_of_mem _ List.mem_cons_self)
      have htail : Numeral p := fun ch hch =>
        hp ch (List.mem_cons_of_mem _ (List.mem_cons_of_mem _ hch))
      rw [List.cons_append, List.cons_append, ansiRenderAll_digit hd (by simp), if_pos rfl,
        ansiRenderAll_digit he (by simp [hrest]), if_neg (ne_zero_of_digit hd), if_pos rfl,
        ansiRenderAll_skip (ne_zero_of_digit hd) (ne_zero_of_digit he) htail hrest]
      rfl

/-- A parameter that the loop has come to the end of. -/
theorem ansiRenderAll_end {ch : UInt8} (hch : ch = 59 ∨ ch = 109) {rest : List UInt8}
    (hrest : ch = 109 → rest = []) (char1 char2 : UInt8) :
    s.ansiRenderAll char1 char2 (ch :: rest) =
      if (s.ansiRender char1 char2).1 then (s.ansiRender char1 char2).2.ansiRenderAll 0 0 rest
      else (false, (s.ansiRender char1 char2).2) := by
  have hbracket : ch ≠ 91 := by rcases hch with rfl | rfl <;> decide
  have hend : ch = 59 ∨ rest = [] := hch.imp id hrest
  rw [ansiRenderAll, if_neg hbracket, if_pos hend]

/-- What is read next starts from the attributes that were taken. -/
theorem Takes.andThen {r : Bool × Screen κ} {taken : Option UInt16} (h : s.Takes r taken)
    (next : Screen κ → Bool × Screen κ) (takenNext : UInt16 → Option UInt16)
    (hnext : ∀ attributes, (s.withAttributes attributes).Takes
      (next (s.withAttributes attributes)) (takenNext attributes)) :
    s.Takes (if r.1 then next r.2 else (false, r.2)) (taken.bind takenNext) := by
  cases taken with
  | none =>
      rw [if_neg (by rw [h.1]; exact Bool.false_ne_true)]
      exact ⟨rfl, h.2⟩
  | some attributes =>
      obtain rfl : r = (true, s.withAttributes attributes) := h
      have hafter := hnext attributes
      rw [if_pos rfl, Option.bind_some]
      cases hfinal : takenNext attributes with
      | none =>
          rw [hfinal] at hafter
          exact hafter
      | some final =>
          rw [hfinal] at hafter
          exact hafter

theorem takes_ansiRenderAll {p : List UInt8} {ps : List (List UInt8)} (hp : Numeral p)
    (hps : ∀ q ∈ ps, Numeral q) :
    s.Takes (s.ansiRenderAll 0 0 (parameters p ps ++ [109]))
      (((p :: ps).map firstDigits).foldlM selects s.info.attributes) := by
  induction ps generalizing s p with
  | nil =>
      rw [parameters, List.flatMap_nil, List.append_nil, ansiRenderAll_numeral hp (by simp),
        ansiRenderAll_end (.inr rfl) (fun _ => rfl), List.map_singleton, List.foldlM_cons]
      exact (takes_ansiRender hp).andThen (ansiRenderAll · 0 0 []) some fun _ => rfl
  | cons q ps ih =>
      have hsplit : parameters p (q :: ps) ++ [109] = p ++ 59 :: (parameters q ps ++ [109]) := by
        simp [parameters]
      rw [hsplit, ansiRenderAll_numeral hp (by simp),
        ansiRenderAll_end (.inl rfl) (fun h => absurd h (by decide)), List.map_cons,
        List.foldlM_cons]
      exact (takes_ansiRender hp).andThen (ansiRenderAll · 0 0 (parameters q ps ++ [109]))
        (((q :: ps).map firstDigits).foldlM selects ·) fun _ =>
          ih (hps q List.mem_cons_self) fun r hr => hps r (List.mem_cons_of_mem _ hr)

end Screen

/-! ### What the console is told -/

def Console.attributes {κ : Type} (c : Console κ) (k : κ) : UInt16 :=
  (c.getScreenBufferInfo k).attributes

/-- A console prints in the colours it was last told, and nothing else that the
emulator asks of it changes them. -/
structure Console.KeepsColours {κ : Type} (c : Console κ) : Prop where
  setTextAttribute : ∀ k attributes, attributes < 0x100 →
    (c.setTextAttribute k attributes).1 = true ∧
      c.attributes (c.setTextAttribute k attributes).2 = attributes
  writeFile : ∀ k text, c.attributes (c.writeFile k text) = c.attributes k
  setCursorPosition : ∀ k pos, c.attributes (c.setCursorPosition k pos).2 = c.attributes k
  scrollScreenBuffer : ∀ k rect clip pos cell,
    c.attributes (c.scrollScreenBuffer k rect clip pos cell).2 = c.attributes k
  setOutputCP : ∀ k codePage, c.attributes (c.setOutputCP k codePage).2 = c.attributes k

theorem inverted_low (attributes : UInt16) : inverted (attributes &&& 0xFF) = inverted attributes := by
  unfold inverted
  rw [UInt16.and_assoc, UInt16.and_assoc]
  rfl

/-- Facts about the colours of an attribute need to be seen for each of the 256
colours only. -/
theorem colours_induct {P : UInt16 → Prop} (h : ∀ n < 256, P (UInt16.ofNat n))
    (attributes : UInt16) : P (attributes &&& 0xFF) := by
  have hlt : (attributes &&& 0xFF).toNat < 256 := by
    rw [UInt16.toNat_and]
    exact Nat.lt_of_le_of_lt Nat.and_le_right (by decide)
  have hself := h _ hlt
  rwa [UInt16.ofNat_toNat] at hself

theorem inverted_lt (attributes : UInt16) : inverted attributes < 0x100 := by
  rw [← inverted_low]
  exact colours_induct (P := fun a => inverted a < 0x100) (by decide +kernel) attributes

theorem shown_lt (attributes : UInt16) : shown attributes < 0x100 := by
  unfold shown
  split_ifs
  · exact inverted_lt attributes
  · exact colours_induct (P := fun a => a < 0x100) (by decide +kernel) attributes

theorem inverted_inverted (attributes : UInt16) :
    inverted (inverted attributes) = attributes &&& 0xFF := by
  rw [← inverted_low attributes]
  exact colours_induct (P := fun a => inverted (inverted a) = a) (by decide +kernel) attributes

theorem inverted_eq_iff (attributes : UInt16) :
    inverted attributes = attributes &&& 0xFF ↔
      attributes &&& 0x0F = (attributes &&& 0xF0) / 0x10 := by
  have h := colours_induct
    (P := fun a => inverted a = a ↔ a &&& 0x0F = (a &&& 0xF0) / 0x10) (by decide +kernel) attributes
  rw [inverted_low, UInt16.and_assoc, UInt16.and_assoc] at h
  exact h

theorem low_of_lt {attributes : UInt16} (h : attributes < 0x100) :
    attributes &&& 0xFF = attributes := by
  have hall : ∀ n < 256, UInt16.ofNat n &&& 0xFF = UInt16.ofNat n := by decide +kernel
  have hself := hall attributes.toNat h
  rwa [UInt16.ofNat_toNat] at hself

namespace Screen

variable {κ : Type} {c : Console κ} {s : Screen κ}

/-- The colours that the console prints in. -/
def colours (c : Console κ) (s : Screen κ) : UInt16 := c.attributes s.con &&& 0xFF

theorem attributes_lineFeed (hc : c.KeepsColours) :
    c.attributes (s.lineFeed c).2.con = c.attributes s.con := by
  have hmove : ∀ (t : Screen κ) pos, c.attributes (t.moveTo c pos).2.con = c.attributes t.con :=
    fun t pos => hc.setCursorPosition t.con pos
  have hscroll : ∀ (t : Screen κ) rect clip pos,
      c.attributes (t.scroll c rect clip pos).2.con = c.attributes t.con :=
    fun t rect clip pos => hc.scrollScreenBuffer t.con rect clip pos t.blank
  unfold lineFeed
  dsimp only
  split_ifs
  · exact hmove _ _
  · exact hmove _ _
  · exact (hmove _ _).trans (hscroll _ _ _ _)
  · exact (hmove _ _).trans (hscroll _ _ _ _)
  · exact (hmove _ _).trans (hscroll _ _ _ _)
  · exact (hmove _ _).trans (hscroll _ _ _ _)
  · exact hmove _ _
  · exact hmove _ _

theorem attributes_control (hc : c.KeepsColours) {char : UInt8} {s' : Screen κ}
    (h : s.control c char = some s') : c.attributes s'.con = c.attributes s.con := by
  unfold control at h
  split_ifs at h
  all_goals cases h
  · rfl
  · rfl
  · rfl
  · exact hc.setCursorPosition _ _
  · exact attributes_lineFeed hc
  · exact hc.setCursorPosition _ _
  · exact hc.setOutputCP _ _
  · exact hc.setOutputCP _ _

theorem ansiSelectGraphicRendition_of_rendered {size : Nat} {t : Screen κ}
    (h : s.ansiRenderAll 0 0 (s.seq.buf.take size) = (true, t)) :
    s.ansiSelectGraphicRendition c size =
      t.withCon (c.setTextAttribute t.con (shown t.info.attributes)) := by
  unfold ansiSelectGraphicRendition shown
  rw [h]
  by_cases hreverse : t.info.attributes &&& commonLvbReverseVideo ≠ 0
  · rw [if_pos hreverse]
    exact if_pos hreverse
  · rw [if_neg hreverse]
    exact if_neg hreverse

/-- A parameter that is not supported ends the matter before the console is told
anything. -/
theorem ansiSelectGraphicRendition_of_not {size : Nat}
    (h : (s.ansiRenderAll 0 0 (s.seq.buf.take size)).1 = false) :
    s.ansiSelectGraphicRendition c size =
      (true, (s.ansiRenderAll 0 0 (s.seq.buf.take size)).2) := by
  unfold ansiSelectGraphicRendition
  dsimp only
  rw [h]
  rfl

/-- The sequence, when it is carried out. -/
theorem attributes_ansiSelectGraphicRendition (hc : c.KeepsColours) {size : Nat} {p : List UInt8}
    {ps : List (List UInt8)} (hp : Numeral p) (hps : ∀ q ∈ ps, Numeral q)
    (htext : s.seq.buf.take size = 91 :: (parameters p ps ++ [109])) :
    (s.ansiSelectGraphicRendition c size).1 = true ∧
      c.attributes (s.ansiSelectGraphicRendition c size).2.con =
        if ∀ n ∈ (p :: ps).map firstDigits, Supported n
        then shown (applied s.info.attributes ((p :: ps).map firstDigits))
        else c.attributes s.con := by
  have hall := takes_ansiRenderAll (s := s) hp hps
  have hskip : s.ansiRenderAll 0 0 (s.seq.buf.take size) =
      s.ansiRenderAll 0 0 (parameters p ps ++ [109]) := by
    rw [htext, ansiRenderAll, if_pos rfl]
  rw [foldlM_selects] at hall
  by_cases hsupported : ∀ n ∈ (p :: ps).map firstDigits, Supported n
  · rw [if_pos hsupported] at hall ⊢
    rw [ansiSelectGraphicRendition_of_rendered (hskip.trans hall)]
    exact hc.setTextAttribute s.con _ (shown_lt _)
  · rw [if_neg hsupported] at hall ⊢
    rw [ansiSelectGraphicRendition_of_not (by rw [hskip]; exact hall.1), hskip]
    exact ⟨rfl, congrArg c.attributes hall.2⟩

end Screen

/-- The attributes a console is left with, by the numbers that are read of the
parameters. -/
def rendered (attributes : UInt16) (ns : List Nat) : UInt16 :=
  if ∀ n ∈ ns, Supported n then shown (applied attributes ns) else attributes

namespace Writer

variable {κ : Type} {c : Console κ} {w : Writer κ}

/-- A machine between sequences, with the attributes of its console. -/
structure Quiet (c : Console κ) (attributes : UInt16) (w : Writer κ) : Prop where
  rests : Rests w.screen
  attributes : c.attributes w.screen.con = attributes

theorem quiet_step (hc : c.KeepsColours) {attributes : UInt16} (hw : w.Quiet c attributes)
    {char : UInt8} (hchar : char ≠ 27) : (w.step c char).Quiet c attributes := by
  obtain ⟨⟨hescape, hinside⟩, hattributes⟩ := hw
  by_cases hlow : char < 32
  · rw [step_control hescape hlow]
    have hput : c.attributes ((w.screen.withChar char).putString c w.held).con = attributes :=
      (hc.writeFile _ _).trans hattributes
    cases hcontrol : ((w.screen.withChar char).putString c w.held).control c char with
    | none => exact ⟨⟨hescape, hinside⟩, hput⟩
    | some s =>
        rcases Screen.control_cases hcontrol with ⟨hesc, -⟩ | ⟨-, hs, hkeeps⟩
        · exact absurd hesc hchar
        · refine ⟨⟨hs.trans hescape, ?_⟩, ?_⟩
          · show s.seq.inside = true
            rw [hkeeps.1]
            exact hinside
          · exact (Screen.attributes_control hc hcontrol).trans hput
  · rw [step_print hescape hlow]
    exact ⟨⟨hescape, hinside⟩, hattributes⟩

/-- Text leaves the colours as they are, whatever else it does. -/
theorem quiet_run (hc : c.KeepsColours) {attributes : UInt16} (hw : w.Quiet c attributes)
    {text : List UInt8} (htext : 27 ∉ text) : (run (step c) w text).Quiet c attributes := by
  induction text generalizing w with
  | nil => exact hw
  | cons char text ih =>
      have hchar : char ≠ 27 := fun h => htext (h ▸ List.mem_cons_self)
      exact ih (quiet_step hc hw hchar) fun h => htext (List.mem_cons_of_mem _ h)

theorem Quiet.flush (hc : c.KeepsColours) {attributes : UInt16} (hw : w.Quiet c attributes) :
    c.attributes (w.flush c).con = attributes := by
  unfold Writer.flush
  split_ifs
  · exact hw.attributes
  · exact (hc.writeFile _ _).trans hw.attributes

/-- Writing a sequence of parameters. -/
theorem run_rendition (ha : c.Ascii) (hc : c.KeepsColours) (hw : w.screen.escape = none)
    {p : List UInt8} {ps : List (List UInt8)} (hp : Numeral p) (hps : ∀ q ∈ ps, Numeral q) :
    ∃ s, run (step c) w (controlSequence p ps 109) = ⟨s, []⟩ ∧ s.escape = none ∧
      c.attributes s.con = rendered (c.attributes w.screen.con) ((p :: ps).map firstDigits) ∧
      (s.seq.inside = true ↔
        w.screen.seq.inside = true ∧ sequenceSize p ps ≤ ansiBufSize) := by
  obtain ⟨u, hrun, hready⟩ := run_controlSequence ha hw hp hps (by decide : isLetter 109 = true)
  have hput : c.attributes (c.writeFile w.screen.con w.held) = c.attributes w.screen.con :=
    hc.writeFile _ _
  have hinfo : u.info.attributes = c.attributes w.screen.con := by
    show u.tty.info.attributes = _
    rw [hready.tty]
    exact hput
  have hcon : c.attributes u.con = c.attributes w.screen.con := by
    rw [hready.con]
    exact hput
  obtain ⟨hdone, hattributes⟩ :=
    Screen.attributes_ansiSelectGraphicRendition hc hp hps hready.text
  have hsequence : u.ansiSequence c 109 (sequenceSize p ps) =
      u.ansiSelectGraphicRendition c (sequenceSize p ps) := hready.ansiSequence
  rw [← hsequence] at hdone hattributes
  rw [hinfo, hcon] at hattributes
  refine ⟨_, hrun, ?_, ?_, ?_⟩
  · rw [Screen.ansi_of_done hdone]
  · rw [Screen.ansi_of_done hdone]
    exact hattributes
  · rw [Screen.inside_ansi, hready.inside, and_iff_left fun h => by rw [hdone] at h; cases h]
    exact Iff.rfl

end Writer

namespace Screen

variable {κ : Type} {c : Console κ} {s : Screen κ}

/-- `ESC [ p ; … m` leaves the colours that its parameters ask for, one after
the other. -/
def RendersEach (c : Console κ) (s : Screen κ) (p : List UInt8) (ps : List (List UInt8)) : Prop :=
  (s.write c (controlSequence p ps 109)).1.seq.inside = true ∧
    (s.write c (controlSequence p ps 109)).1.colours c =
      shown (applied (c.attributes s.con) ((p :: ps).map digits))

/-- `ESC [ 7 m`. -/
def reverseOn : List UInt8 := controlSequence [55] [] 109

/-- `ESC [ 27 m`. -/
def reverseOff : List UInt8 := controlSequence [50, 55] [] 109

/-- Reverse video goes on and off again, with a text in between. -/
def Restores (c : Console κ) (s : Screen κ) (text : List UInt8) : Prop :=
  (s.write c (reverseOn ++ text ++ reverseOff)).1.colours c = s.colours c

/-- Reverse video that is on goes on again. -/
def ReversesOnce (c : Console κ) (s : Screen κ) (text : List UInt8) : Prop :=
  (s.write c (reverseOn ++ text ++ reverseOn)).1.colours c =
    (s.write c (reverseOn ++ text)).1.colours c

/-- The parameters do as they should when all of them are supported and no
third digit matters, or when those that are supported change nothing. -/
def InOrder (attributes : UInt16) (p : List UInt8) (ps : List (List UInt8)) : Prop :=
  if ∀ n ∈ (p :: ps).map firstDigits, Supported n then
    shown (applied attributes ((p :: ps).map firstDigits)) =
      shown (applied attributes ((p :: ps).map digits))
  else attributes &&& 0xFF = shown (applied attributes ((p :: ps).map digits))

/-- Nothing is to be seen of what is printed. -/
def SameColours (attributes : UInt16) : Prop :=
  attributes &&& 0x0F = (attributes &&& 0xF0) / 0x10

theorem rendersEach_iff (ha : c.Ascii) (hc : c.KeepsColours) (hs : Rests s) {p : List UInt8}
    {ps : List (List UInt8)} (hp : Numeral p) (hps : ∀ q ∈ ps, Numeral q) :
    s.RendersEach c p ps ↔
      sequenceSize p ps ≤ ansiBufSize ∧ InOrder (c.attributes s.con) p ps := by
  obtain ⟨s', hrun, -, hattributes, hinside⟩ :=
    Writer.run_rendition ha hc (w := ⟨s.renderWindow c, []⟩) hs.escape hp hps
  have hwrite : (s.write c (controlSequence p ps 109)).1 = s' := by
    rw [Writer.write_eq, hrun]
    rfl
  unfold RendersEach InOrder colours
  rw [hwrite, hinside, and_iff_right (show (s.renderWindow c).seq.inside = true from hs.inside),
    hattributes]
  refine and_congr_right fun _ => ?_
  show rendered (c.attributes s.con) _ &&& 0xFF = _ ↔ _
  unfold rendered
  by_cases hall : ∀ n ∈ (p :: ps).map firstDigits, Supported n
  · rw [if_pos hall, if_pos hall, low_of_lt (shown_lt _)]
  · rw [if_neg hall, if_neg hall]

theorem rendered_seven (attributes : UInt16) : rendered attributes [7] = inverted attributes := by
  have hsupported : ∀ n ∈ [7], Supported n := by decide
  have hflag : (attributes ||| commonLvbReverseVideo) &&& commonLvbReverseVideo ≠ 0 := by
    rw [u16_and_or_right, UInt16.and_self]
    intro h
    exact absurd (UInt16.or_eq_zero_iff.mp h).2 (by decide)
  have hlow : ∀ m : UInt16, commonLvbReverseVideo &&& m = 0 →
      (attributes ||| commonLvbReverseVideo) &&& m = attributes &&& m := by
    intro m hm
    rw [u16_and_or_right, hm, UInt16.or_zero]
  unfold rendered
  rw [if_pos hsupported]
  show shown (attributes ||| commonLvbReverseVideo) = _
  unfold shown inverted
  rw [if_pos hflag, hlow _ (by decide), hlow _ (by decide)]

theorem rendered_twentySeven {attributes : UInt16} (h : attributes < 0x100) :
    rendered attributes [27] = attributes := by
  have hall : ∀ n < 256, rendered (UInt16.ofNat n) [27] = UInt16.ofNat n := by decide +kernel
  have hself := hall attributes.toNat h
  rwa [UInt16.ofNat_toNat] at hself

/-- The machine after `ESC [ 7 m` and a text. -/
theorem quiet_reverse (ha : c.Ascii) (hc : c.KeepsColours) (hs : Rests s) {text : List UInt8}
    (htext : 27 ∉ text) :
    (run (Writer.step c) ⟨s.renderWindow c, []⟩ (reverseOn ++ text)).Quiet c
      (inverted (c.attributes s.con)) := by
  obtain ⟨s', hrun, hescape, hattributes, hinside⟩ :=
    Writer.run_rendition ha hc (w := ⟨s.renderWindow c, []⟩) hs.escape
      (numeral_cons rfl numeral_nil : Numeral [55]) numeral_none
  have hquiet : Writer.Quiet c (inverted (c.attributes s.con)) ⟨s', []⟩ :=
    ⟨⟨hescape, hinside.mpr ⟨hs.inside, by decide⟩⟩, hattributes.trans (rendered_seven _)⟩
  unfold reverseOn
  rw [run_append, hrun]
  exact Writer.quiet_run hc hquiet htext

/-- A sequence behind text. -/
theorem colours_behind (ha : c.Ascii) (hc : c.KeepsColours) {bytes : List UInt8}
    {attributes : UInt16}
    (h : (run (Writer.step c) ⟨s.renderWindow c, []⟩ bytes).Quiet c attributes)
    {p : List UInt8} (hp : Numeral p) :
    (s.write c (bytes ++ controlSequence p [] 109)).1.colours c =
      rendered attributes [firstDigits p] &&& 0xFF := by
  obtain ⟨s', hrun, -, hattributes, -⟩ :=
    Writer.run_rendition ha hc h.rests.escape hp numeral_none
  rw [h.attributes] at hattributes
  rw [Writer.write_eq, run_append, hrun]
  exact congrArg (· &&& 0xFF) hattributes

theorem restores_iff (ha : c.Ascii) (hc : c.KeepsColours) (hs : Rests s) {text : List UInt8}
    (htext : 27 ∉ text) : s.Restores c text ↔ SameColours (c.attributes s.con) := by
  have hlt := inverted_lt (c.attributes s.con)
  unfold Restores reverseOff SameColours
  rw [colours_behind ha hc (quiet_reverse ha hc hs htext)
    (numeral_cons rfl (numeral_cons rfl numeral_nil))]
  show rendered _ [27] &&& 0xFF = _ ↔ _
  rw [rendered_twentySeven hlt, low_of_lt hlt]
  exact inverted_eq_iff _

theorem reversesOnce_iff (ha : c.Ascii) (hc : c.KeepsColours) (hs : Rests s) {text : List UInt8}
    (htext : 27 ∉ text) : s.ReversesOnce c text ↔ SameColours (c.attributes s.con) := by
  have hquiet := quiet_reverse ha hc hs htext
  have hlt := inverted_lt (c.attributes s.con)
  have honce : (s.write c (reverseOn ++ text)).1.colours c = inverted (c.attributes s.con) := by
    rw [Writer.write_eq]
    exact (congrArg (· &&& 0xFF) (hquiet.flush hc)).trans (low_of_lt hlt)
  unfold ReversesOnce SameColours
  rw [honce]
  show (s.write c (reverseOn ++ text ++ controlSequence [55] [] 109)).1.colours c = _ ↔ _
  rw [colours_behind ha hc hquiet (numeral_cons rfl numeral_nil)]
  show rendered _ [7] &&& 0xFF = _ ↔ _
  rw [rendered_seven, inverted_inverted, UInt16.and_assoc, UInt16.and_self, ← inverted_eq_iff]
  exact eq_comm

/-- The parameters act one after the other, and reverse video is a switch,
exactly when the sequence fits into the collector, no parameter that is not
supported takes another one's effect away, and the colours in force are the same
for the foreground and the background. -/
theorem rendition_iff (ha : c.Ascii) (hc : c.KeepsColours) (hs : Rests s) {p : List UInt8}
    {ps : List (List UInt8)} (hp : Numeral p) (hps : ∀ q ∈ ps, Numeral q) {text : List UInt8}
    (htext : 27 ∉ text) :
    (s.RendersEach c p ps ∧ s.Restores c text ∧ s.ReversesOnce c text) ↔
      (sequenceSize p ps ≤ ansiBufSize ∧ InOrder (c.attributes s.con) p ps) ∧
        SameColours (c.attributes s.con) := by
  rw [rendersEach_iff ha hc hs hp hps, restores_iff ha hc hs htext,
    reversesOnce_iff ha hc hs htext, and_self]

end Screen

/-! ### On a console that keeps what it is told -/

theorem Store.attributes_writeFile (k : Store) (text : List UInt8) :
    Store.console.attributes (Store.console.writeFile k text) = Store.console.attributes k := by
  induction text generalizing k with
  | nil => rfl
  | cons char text ih => exact ih (k.put char)

theorem Store.keepsColours : Store.console.KeepsColours where
  setTextAttribute := fun _ _ h => ⟨rfl, low_of_lt h⟩
  writeFile := Store.attributes_writeFile
  setCursorPosition := fun _ _ => rfl
  scrollScreenBuffer := fun _ _ _ _ _ => rfl
  setOutputCP := fun _ _ => rfl

/-- Red is not seen after `ESC [ 31 ; 9 m`. -/
theorem red_and_strike_out :
    ¬ (Screen.start.RendersEach Store.console [51, 49] [[57]] ∧
      Screen.start.Restores Store.console [97] ∧ Screen.start.ReversesOnce Store.console [97]) := by
  intro h
  have hcolours := h.1.2
  exact absurd hcolours (by decide)

/-- Bold on white text, where reverse video stays. -/
theorem rendition_iff_bold :
    (Screen.start.RendersEach Store.console [49] [[52]] ∧
        Screen.start.Restores Store.console [97] ∧ Screen.start.ReversesOnce Store.console [97]) ↔
      (sequenceSize [49] [[52]] ≤ ansiBufSize ∧
          Screen.InOrder (Store.console.attributes Screen.start.con) [49] [[52]]) ∧
        Screen.SameColours (Store.console.attributes Screen.start.con) :=
  Screen.rendition_iff Store.ascii Store.keepsColours ⟨rfl, rfl⟩ (numeral_cons rfl numeral_nil)
    (numeral_single (numeral_cons rfl numeral_nil)) (by decide)

end MinC.Vfs
