import MinC.Ksh.PatternClasses

/-!
Matching.

A string is matched with the text of a pattern if and only if it is in the language
of the pattern. A group is matched by trying every alternative on every beginning
of what is left; an iteration goes on only behind a beginning that is not empty,
and therefore ends.
-/

namespace MinC.Ksh

open MinC.Lib Computability

variable {cclasses : CClasses} {u t : List UInt8} {turns s se p pe : Nat}

/-! ### One turn -/

theorem turnsFor_lt {p' s' : Nat} (hp : p' < p) (hs : s' ≤ s) : turnsFor p' s' < turnsFor p s := by
  rw [turnsFor, turnsFor]
  have hmul : (p' + 1) * (s' + 2) ≤ p * (s + 2) := Nat.mul_le_mul hp (by omega)
  rw [Nat.add_mul] at hmul
  omega

theorem turnsFor_lt_of_lt {s' : Nat} (hs : s' < s) : turnsFor p s' < turnsFor p s := by
  have hmul : p * (s' + 2) ≤ p * (s + 2) := Nat.mul_le_mul_left _ (by omega)
  rw [turnsFor, turnsFor]
  omega

theorem turnsFor_pos (p s : Nat) : 0 < turnsFor p s := Nat.succ_pos _

theorem doGmatch_plain {c : UInt8} (h : p < pe) (hc : byteAt t p = c) (hne : c ≠ magic) :
    doGmatch cclasses u t (turns + 1) s se p pe =
      (stringByte u s se = c && doGmatch cclasses u t turns (s + 1) se (p + 1) pe) := by
  rw [doGmatch, if_neg (Nat.not_le.mpr h), hc, if_pos hne]

theorem doGmatch_marked {c : UInt8} (h : p < pe) (hmagic : byteAt t p = magic)
    (hc : byteAt t (p + 1) = c) (hmark : Markable c) :
    doGmatch cclasses u t (turns + 1) s se p pe =
      (stringByte u s se = c && doGmatch cclasses u t turns (s + 1) se (p + 2) pe) := by
  obtain ⟨-, hlt, hnot⟩ := hmark
  simp only [List.mem_cons, not_or] at hnot
  have hop : ∀ {d : UInt8}, 0x80 ≤ d → c ≠ d := fun hd h =>
    UInt8.not_le.mpr hlt (h ▸ hd)
  rw [doGmatch, if_neg (Nat.not_le.mpr h), hmagic, if_neg (not_not.mpr rfl), hc,
    if_neg hnot.1, if_neg hnot.2.2.1, if_neg hnot.2.1,
    if_neg (not_or.mpr ⟨hop (by decide), hop (by decide)⟩),
    if_neg (not_or.mpr ⟨hop (by decide), not_or.mpr ⟨hop (by decide), hop (by decide)⟩⟩),
    if_neg (hop (by decide))]

theorem doGmatch_any (h : p < pe) (hmagic : byteAt t p = magic) (hc : byteAt t (p + 1) = 0x3F) :
    doGmatch cclasses u t (turns + 1) s se p pe =
      (stringByte u s se ≠ 0 && doGmatch cclasses u t turns (s + 1) se (p + 2) pe) := by
  rw [doGmatch, if_neg (Nat.not_le.mpr h), hmagic, if_neg (not_not.mpr rfl), hc]
  rfl

theorem doGmatch_star (h : p < pe) (hmagic : byteAt t p = magic) (hc : byteAt t (p + 1) = 0x2A) :
    doGmatch cclasses u t (turns + 1) s se p pe =
      (p + 2 = pe || (List.range' s (se - s + 1)).any fun s' =>
        doGmatch cclasses u t turns s' se (p + 2) pe) := by
  rw [doGmatch, if_neg (Nat.not_le.mpr h), hmagic, if_neg (not_not.mpr rfl), hc]
  rfl

theorem doGmatch_cls (h : p < pe) (hmagic : byteAt t p = magic) (hc : byteAt t (p + 1) = 0x5B) :
    doGmatch cclasses u t (turns + 1) s se p pe =
      (stringByte u s se ≠ 0 && (cclass cclasses t (p + 2) (stringByte u s se)).any fun p' =>
        doGmatch cclasses u t turns (s + 1) se p' pe) := by
  rw [doGmatch, if_neg (Nat.not_le.mpr h), hmagic, if_neg (not_not.mpr rfl), hc]
  rfl

theorem doGmatch_repeat {op : UInt8} (h : p < pe) (hmagic : byteAt t p = magic)
    (hc : byteAt t (p + 1) = op) (hop : op = 0xAB ∨ op = 0xAA) :
    doGmatch cclasses u t (turns + 1) s se p pe =
      (patScan t false (pe - (p + 2)) 0 (p + 2)).any fun prest =>
        op = 0xAA && doGmatch cclasses u t turns s se prest pe ||
          (alternatives t pe prest (pe - p) (p + 2)).any fun a => (places s se).any fun srest =>
            doGmatch cclasses u t turns s srest a.1 (a.2 - 2) &&
              (doGmatch cclasses u t turns srest se prest pe ||
                s ≠ srest && doGmatch cclasses u t turns srest se p pe) := by
  rw [doGmatch, if_neg (Nat.not_le.mpr h), hmagic, if_neg (not_not.mpr rfl), hc]
  rcases hop with rfl | rfl <;> rfl

theorem doGmatch_once {op : UInt8} (h : p < pe) (hmagic : byteAt t p = magic)
    (hc : byteAt t (p + 1) = op) (hop : op = 0xBF ∨ op = 0xC0 ∨ op = 0xA0) :
    doGmatch cclasses u t (turns + 1) s se p pe =
      (patScan t false (pe - (p + 2)) 0 (p + 2)).any fun prest =>
        op = 0xBF && doGmatch cclasses u t turns s se prest pe ||
          (alternatives t pe prest (pe - p) (p + 2)).any fun a =>
            (places (if prest = pe then se else s) se).any fun srest =>
              doGmatch cclasses u t turns s srest a.1 (a.2 - 2) &&
                doGmatch cclasses u t turns srest se prest pe := by
  rw [doGmatch, if_neg (Nat.not_le.mpr h), hmagic, if_neg (not_not.mpr rfl), hc]
  rcases hop with rfl | rfl | rfl <;> rfl

theorem doGmatch_not (h : p < pe) (hmagic : byteAt t p = magic) (hc : byteAt t (p + 1) = 0xA1) :
    doGmatch cclasses u t (turns + 1) s se p pe =
      (patScan t false (pe - (p + 2)) 0 (p + 2)).any fun prest =>
        (places s se).any fun srest =>
          !((alternatives t pe prest (pe - p) (p + 2)).any fun a =>
              doGmatch cclasses u t turns s srest a.1 (a.2 - 2)) &&
            doGmatch cclasses u t turns srest se prest pe := by
  rw [doGmatch, if_neg (Nat.not_le.mpr h), hmagic, if_neg (not_not.mpr rfl), hc]
  rfl

/-! ### Bytes -/

/-- The text of the pattern is matched right wherever it is. -/
def Matched (cclasses : CClasses) (u t : List UInt8) (pat : Pat) : Prop :=
  ∀ {turns s se p pe : Nat}, s ≤ se → se ≤ u.length → p ≤ pe → pe ≤ t.length →
    stretch t p pe = pat.text → turnsFor (pe - p) (se - s) ≤ turns →
    (doGmatch cclasses u t turns s se p pe = true ↔ stretch u s se ∈ pat.lang cclasses)

theorem stretch_mem_oneByte {asked : UInt8 → Prop} {L : Language UInt8} (hs : s ≤ se)
    (hse : se ≤ u.length) :
    stretch u s se ∈ oneByte asked * L ↔
      s < se ∧ asked (byteAt u s) ∧ stretch u (s + 1) se ∈ L := by
  rw [mem_oneByte_mul]
  constructor
  · rintro ⟨c, w, hc, hw, heq⟩
    obtain ⟨hlt, rfl, rfl⟩ := of_stretch_eq_cons 0 hs hse heq
    exact ⟨hlt, hc, hw⟩
  · rintro ⟨hlt, hc, hw⟩
    exact ⟨_, _, hc, hw, stretch_cons 0 hlt hse⟩

theorem byteAt_ne_zero (hu : ∀ c ∈ u, c ≠ 0) (hs : s < u.length) : byteAt u s ≠ 0 := by
  rw [byteAt, ← List.getElem_eq_getD (h := hs) 0]
  exact hu _ (List.getElem_mem hs)

/-- A byte is asked for, and the rest of the pattern is matched behind it. -/
theorem matched_byte {rest : Pat} {p' : Nat} {asked : UInt8 → Prop} (hu : ∀ c ∈ u, c ≠ 0)
    (hrest : Matched cclasses u t rest) (hs : s ≤ se) (hse : se ≤ u.length) (hp : p < p')
    (hpe : p' ≤ pe) (hle : pe ≤ t.length) (htext : stretch t p' pe = rest.text)
    (hturns : turnsFor (pe - p) (se - s) ≤ turns + 1)
    (hstep : ∀ sc : UInt8, stringByte u s se = sc →
      (doGmatch cclasses u t (turns + 1) s se p pe = true ↔
        sc ≠ 0 ∧ asked sc ∧ doGmatch cclasses u t turns (s + 1) se p' pe = true)) :
    doGmatch cclasses u t (turns + 1) s se p pe = true ↔
      stretch u s se ∈ oneByte asked * rest.lang cclasses := by
  rw [hstep _ rfl, stretch_mem_oneByte hs hse, stringByte]
  by_cases hlt : s < se
  · have hless := turnsFor_lt (show pe - p' < pe - p by omega) (show se - (s + 1) ≤ se - s by omega)
    have hne := byteAt_ne_zero hu (hlt.trans_le hse)
    have hs' : s + 1 ≤ se := hlt
    rw [if_pos hlt, hrest hs' hse hpe hle htext (by omega)]
    exact ⟨fun h => ⟨hlt, h.2⟩, fun h => ⟨hne, h.2⟩⟩
  · rw [if_neg hlt]
    exact iff_of_false (fun h => h.1 rfl) fun h => hlt h.1

theorem matched_nil : Matched cclasses u t .nil := by
  intro turns s se p pe hs hse hp hpe htext hturns
  obtain ⟨turns, rfl⟩ := Nat.exists_eq_add_of_lt ((turnsFor_pos _ _).trans_le hturns)
  rw [Pat.text, stretch_eq_nil hp hpe] at htext
  rw [Nat.zero_add, doGmatch_end htext.ge, decide_eq_true_eq, Pat.lang, Language.mem_one,
    stretch_eq_nil hs hse]

theorem matched_lit {rest : Pat} (c : Lit) (hu : ∀ c ∈ u, c ≠ 0)
    (hrest : Matched cclasses u t rest) : Matched cclasses u t (.lit c rest) := by
  intro turns s se p pe hs hse hp hpe htext hturns
  obtain ⟨turns, rfl⟩ := Nat.exists_eq_add_of_lt ((turnsFor_pos _ _).trans_le hturns)
  rw [Nat.zero_add] at hturns ⊢
  rw [Pat.text] at htext
  have hok := c.ok
  obtain ⟨hle, hbyte, htext'⟩ := of_stretch_eq_append hp hpe htext
  have hstands := stands_of_stretch hp hpe htext
  rw [Pat.lang]
  cases hm : c.marked with
  | false =>
      rw [hm, if_neg Bool.false_ne_true] at hok
      rw [hm] at hle htext' hstands
      refine matched_byte hu hrest hs hse (Nat.lt_succ_self p) hle hpe htext' hturns ?_
      rintro sc rfl
      rw [doGmatch_plain hle hstands.1 hok.2, Bool.and_eq_true, decide_eq_true_eq]
      exact ⟨fun h => ⟨h.1 ▸ hok.1, h⟩, fun h => h.2⟩
  | true =>
      rw [hm, if_pos rfl] at hok
      rw [hm] at hle htext' hstands
      have hlt : p < p + 2 := by omega
      refine matched_byte hu hrest hs hse hlt hle hpe htext' hturns ?_
      rintro sc rfl
      rw [doGmatch_marked (hlt.trans_le hle) hstands.1 hstands.2.1 hok, Bool.and_eq_true,
        decide_eq_true_eq]
      exact ⟨fun h => ⟨h.1 ▸ hok.1, h⟩, fun h => h.2⟩

theorem matched_any {rest : Pat} (hu : ∀ c ∈ u, c ≠ 0) (hrest : Matched cclasses u t rest) :
    Matched cclasses u t (.any rest) := by
  intro turns s se p pe hs hse hp hpe htext hturns
  obtain ⟨turns, rfl⟩ := Nat.exists_eq_add_of_lt ((turnsFor_pos _ _).trans_le hturns)
  rw [Nat.zero_add] at hturns ⊢
  rw [Pat.text] at htext
  have hstands := stands_of_stretch hp hpe htext
  obtain ⟨hle, -, htext'⟩ := of_stretch_eq_append (l := [magic, 0x3F]) hp hpe htext
  have hlt : p < p + 2 := by omega
  rw [Pat.lang]
  refine matched_byte hu hrest hs hse hlt hle hpe htext' hturns ?_
  rintro sc rfl
  rw [doGmatch_any (hlt.trans_le hle) hstands.1 hstands.2.1, Bool.and_eq_true, decide_eq_true_eq,
    true_and]

theorem matched_cls {rest : Pat} (c : Cls) (hu : ∀ c ∈ u, c ≠ 0)
    (hrest : Matched cclasses u t rest) : Matched cclasses u t (.cls c rest) := by
  intro turns s se p pe hs hse hp hpe htext hturns
  obtain ⟨turns, rfl⟩ := Nat.exists_eq_add_of_lt ((turnsFor_pos _ _).trans_le hturns)
  rw [Nat.zero_add] at hturns ⊢
  rw [Pat.text] at htext
  have hstands := stands_of_stretch hp hpe htext
  obtain ⟨hle, -, htext'⟩ := of_stretch_eq_append (l := magic :: 0x5B :: c.inner) hp hpe htext
  have hplace : p + (magic :: 0x5B :: c.inner).length = p + 2 + c.inner.length := by
    rw [List.length_cons, List.length_cons]
    omega
  rw [hplace] at hle htext'
  have hinner : Stands t (p + 2) c.inner := (stands_append.mp hstands.2.2).1
  rw [Pat.lang]
  refine matched_byte hu hrest hs hse (by omega) hle hpe htext' hturns ?_
  rintro sc rfl
  rw [doGmatch_cls (by omega) hstands.1 hstands.2.1, cclass_eq c hinner, Bool.and_eq_true,
    decide_eq_true_eq]
  split_ifs with hhas
  · rw [Option.any_some]
    exact and_congr_right fun _ => (and_iff_right hhas).symm
  · exact and_congr_right fun _ => iff_of_false Bool.false_ne_true fun h => hhas h.1

theorem eq_nil_of_text {pat : Pat} (h : pat.text = []) : pat = .nil := by
  cases pat with
  | nil => rfl
  | lit c rest =>
      rw [Pat.text, markedText] at h
      split_ifs at h <;> cases h
  | any rest => cases h
  | star rest => cases h
  | cls c rest => cases h
  | group op alts rest => cases h

theorem matched_star {rest : Pat} (hrest : Matched cclasses u t rest) :
    Matched cclasses u t (.star rest) := by
  intro turns s se p pe hs hse hp hpe htext hturns
  obtain ⟨turns, rfl⟩ := Nat.exists_eq_add_of_lt ((turnsFor_pos _ _).trans_le hturns)
  rw [Nat.zero_add] at hturns ⊢
  rw [Pat.text] at htext
  have hstands := stands_of_stretch hp hpe htext
  obtain ⟨hle, -, htext'⟩ := of_stretch_eq_append (l := [magic, 0x2A]) hp hpe htext
  have hle' : p + 2 ≤ pe := hle
  rw [doGmatch_star (by omega) hstands.1 hstands.2.1, Bool.or_eq_true, decide_eq_true_eq, Pat.lang,
    stretch_mem_mul hs hse, List.any_eq_true]
  constructor
  · rintro (hend | ⟨s', hs', hmatch⟩)
    · -- the text ends with the star
      have hnil : rest = .nil := eq_nil_of_text (by rw [← htext', ← hend]; exact stretch_self ..)
      refine ⟨se, hs, Nat.le_refl _, trivial, ?_⟩
      rw [hnil, stretch_self]
      exact Language.nil_mem_one
    · rw [List.mem_range'_1] at hs'
      have hless := turnsFor_lt (show pe - (p + 2) < pe - p by omega)
        (show se - s' ≤ se - s by omega)
      exact ⟨s', hs'.1, by omega, trivial,
        (hrest (by omega) hse hle' hpe htext' (by omega)).mp hmatch⟩
  · rintro ⟨m, hm, hmse, -, hmem⟩
    have hless := turnsFor_lt (show pe - (p + 2) < pe - p by omega)
      (show se - m ≤ se - s by omega)
    refine .inr ⟨m, ?_, (hrest hmse hse hle' hpe htext' (by omega)).mpr hmem⟩
    rw [List.mem_range'_1]
    omega

/-! ### Groups -/

/-- The alternatives of a group are matched right. -/
def MatchedAlts (cclasses : CClasses) (u t : List UInt8) (alts : Alts) : Prop :=
  ∀ {turns s se p : Nat}, s ≤ se → se ≤ u.length → p + alts.text.length ≤ t.length →
    stretch t p (p + alts.text.length) = alts.text →
    turnsFor (alts.text.length - 2) (se - s) ≤ turns →
    (((alts.places p).any fun a => doGmatch cclasses u t turns s se a.1 (a.2 - 2)) = true ↔
      stretch u s se ∈ alts.lang cclasses)

theorem turnsFor_le {p' : Nat} (h : p' ≤ p) (s : Nat) : turnsFor p' s ≤ turnsFor p s := by
  rcases Nat.eq_or_lt_of_le h with rfl | hlt
  · exact Nat.le_refl _
  · exact (turnsFor_lt hlt (Nat.le_refl s)).le

theorem matchedAlts_last {pat : Pat} (h : Matched cclasses u t pat) :
    MatchedAlts cclasses u t (.last pat) := by
  intro turns s se p hs hse hpe htext hturns
  rw [Alts.text, List.length_append, List.length_cons, List.length_cons, List.length_nil] at *
  obtain ⟨-, hpat, -⟩ := of_stretch_eq_append (Nat.le_add_right _ _) hpe htext
  rw [Alts.places, List.any_cons, List.any_nil, Bool.or_false, Nat.add_sub_cancel, Alts.lang]
  refine h hs hse (Nat.le_add_right _ _) (by omega) hpat ?_
  rw [Nat.add_sub_cancel_left]
  exact hturns

theorem matchedAlts_more {pat : Pat} {alts : Alts} (h : Matched cclasses u t pat)
    (halts : MatchedAlts cclasses u t alts) : MatchedAlts cclasses u t (.more pat alts) := by
  intro turns s se p hs hse hpe htext hturns
  rw [Alts.text, List.length_append, List.length_cons, List.length_cons] at *
  obtain ⟨-, hpat, hrest⟩ := of_stretch_eq_append (Nat.le_add_right _ _) hpe htext
  obtain ⟨-, -, hrest'⟩ :=
    of_stretch_eq_append (l := [magic, 0x7C]) (by omega) hpe hrest
  have hend : p + (pat.text.length + (alts.text.length + 1 + 1)) =
      p + pat.text.length + 2 + alts.text.length := by omega
  rw [Alts.places, List.any_cons, Bool.or_eq_true, Nat.add_sub_cancel, Alts.lang,
    Language.mem_add]
  refine or_congr ?_ ?_
  · refine h hs hse (Nat.le_add_right _ _) (by omega) hpat ?_
    rw [Nat.add_sub_cancel_left]
    exact (turnsFor_le (by omega) _).trans hturns
  · refine halts hs hse (hend ▸ hpe) (hend ▸ hrest') ?_
    exact (turnsFor_le (by omega) _).trans hturns

theorem mem_places {m : Nat} (hs : s ≤ se) : m ∈ places s se ↔ s ≤ m ∧ m ≤ se := by
  rw [places, List.mem_range'_1]
  omega

/-- Where a group and its rest are. -/
structure GroupAt (u t : List UInt8) (op : GroupOp) (alts : Alts) (rest : Pat)
    (se p pe : Nat) : Prop where
  marked : byteAt t p = magic
  opened : byteAt t (p + 1) = op.byte
  group : stretch t (p + 2) (p + 2 + alts.text.length) = alts.text
  stands : Stands t (p + 2) alts.text
  behind : stretch t (p + 2 + alts.text.length) pe = rest.text
  inside : p + 2 + alts.text.length ≤ pe
  long : pe ≤ t.length
  string : se ≤ u.length

theorem groupAt {op : GroupOp} {alts : Alts} {rest : Pat} (hse : se ≤ u.length) (hp : p ≤ pe)
    (hpe : pe ≤ t.length) (htext : stretch t p pe = (Pat.group op alts rest).text) :
    GroupAt u t op alts rest se p pe := by
  rw [Pat.text] at htext
  have hstands := stands_of_stretch hp hpe htext
  obtain ⟨hle, -, hafter⟩ := of_stretch_eq_append (l := [magic, op.byte]) hp hpe htext
  obtain ⟨hle', halts, hrest⟩ := of_stretch_eq_append hle hpe hafter
  exact ⟨hstands.1, hstands.2.1, halts, (stands_append.mp hstands.2.2).1, hrest, hle', hpe, hse⟩

section
variable {op : GroupOp} {alts : Alts} {rest : Pat}

theorem GroupAt.patScan (h : GroupAt u t op alts rest se p pe) :
    MinC.Ksh.patScan t false (pe - (p + 2)) 0 (p + 2) = some (p + 2 + alts.text.length) := by
  obtain ⟨left, hleft⟩ : ∃ left, pe - (p + 2) = alts.text.length + left :=
    ⟨pe - (p + 2) - alts.text.length, by have := h.inside; omega⟩
  rw [hleft, patScan_end left alts _ h.stands]

theorem GroupAt.alternatives (h : GroupAt u t op alts rest se p pe) :
    MinC.Ksh.alternatives t pe (p + 2 + alts.text.length) (pe - p) (p + 2) =
      alts.places (p + 2) := by
  have hinside := h.inside
  have hcount := alts.count_lt
  exact alternatives_eq pe alts _ _ h.stands hinside (by omega)

/-- An alternative is matched with a piece of the string. -/
theorem GroupAt.any_alts (h : GroupAt u t op alts rest se p pe)
    (halts : MatchedAlts cclasses u t alts) {m : Nat} (hs : s ≤ m) (hm : m ≤ se)
    (hturns : turnsFor (pe - p) (se - s) ≤ turns + 1) :
    (∃ a ∈ alts.places (p + 2), doGmatch cclasses u t turns s m a.1 (a.2 - 2) = true) ↔
      stretch u s m ∈ alts.lang cclasses := by
  have hinside := h.inside
  have hless := turnsFor_lt (show alts.text.length - 2 < pe - p by omega)
    (show m - s ≤ se - s by omega)
  exact List.any_eq_true.symm.trans
    (halts hs (hm.trans h.string) (hinside.trans h.long) h.group (by omega))

/-- The rest of the pattern is matched with the rest of the string. -/
theorem GroupAt.rest_iff (h : GroupAt u t op alts rest se p pe)
    (hrest : Matched cclasses u t rest) {m : Nat} (hs : s ≤ m) (hm : m ≤ se)
    (hturns : turnsFor (pe - p) (se - s) ≤ turns + 1) :
    doGmatch cclasses u t turns m se (p + 2 + alts.text.length) pe = true ↔
      stretch u m se ∈ rest.lang cclasses := by
  have hinside := h.inside
  have hless := turnsFor_lt (show pe - (p + 2 + alts.text.length) < pe - p by omega)
    (show se - m ≤ se - s by omega)
  exact hrest hm h.string hinside h.long h.behind (by omega)

/-- A piece of the string is for the group, and what is behind it goes on. -/
theorem GroupAt.any_pieces (h : GroupAt u t op alts rest se p pe)
    (halts : MatchedAlts cclasses u t alts) (hturns : turnsFor (pe - p) (se - s) ≤ turns + 1)
    {start : Nat} (hs : s ≤ start) (hse : start ≤ se) {goes : Nat → Bool} {Goes : Nat → Prop}
    (hgoes : ∀ m, s ≤ m → m ≤ se → (goes m = true ↔ Goes m))
    (hstart : ∀ m, s ≤ m → m ≤ se → Goes m → start ≤ m) :
    ((alts.places (p + 2)).any fun a => (places start se).any fun srest =>
        doGmatch cclasses u t turns s srest a.1 (a.2 - 2) && goes srest) = true ↔
      ∃ m, s ≤ m ∧ m ≤ se ∧ stretch u s m ∈ alts.lang cclasses ∧ Goes m := by
  simp only [List.any_eq_true, Bool.and_eq_true]
  constructor
  · rintro ⟨a, ha, m, hm, hmatch, hafter⟩
    obtain ⟨hsm, hmse⟩ := (mem_places hse).mp hm
    have hsm' := hs.trans hsm
    exact ⟨m, hsm', hmse, (h.any_alts halts hsm' hmse hturns).mp ⟨a, ha, hmatch⟩,
      (hgoes m hsm' hmse).mp hafter⟩
  · rintro ⟨m, hsm, hmse, hmem, hafter⟩
    obtain ⟨a, ha, hmatch⟩ := (h.any_alts halts hsm hmse hturns).mpr hmem
    exact ⟨a, ha, m, (mem_places hse).mpr ⟨hstart m hsm hmse hafter, hmse⟩, hmatch,
      (hgoes m hsm hmse).mpr hafter⟩

theorem doGmatch_iterated (h : GroupAt u t op alts rest se p pe)
    (hop : op = .oneOrMore ∨ op = .zeroOrMore) :
    doGmatch cclasses u t (turns + 1) s se p pe =
      (op.byte = 0xAA && doGmatch cclasses u t turns s se (p + 2 + alts.text.length) pe ||
        (alts.places (p + 2)).any fun a => (places s se).any fun srest =>
          doGmatch cclasses u t turns s srest a.1 (a.2 - 2) &&
            (doGmatch cclasses u t turns srest se (p + 2 + alts.text.length) pe ||
              s ≠ srest && doGmatch cclasses u t turns srest se p pe)) := by
  have hlt : p < pe := by have := h.inside; omega
  have hbyte : op.byte = 0xAB ∨ op.byte = 0xAA := by rcases hop with rfl | rfl <;> decide
  rw [doGmatch_repeat hlt h.marked h.opened hbyte, h.patScan, Option.any_some, h.alternatives]

theorem doGmatch_choice (h : GroupAt u t op alts rest se p pe)
    (hop : op = .zeroOrOne ∨ op = .one ∨ op = .plain) :
    doGmatch cclasses u t (turns + 1) s se p pe =
      (op.byte = 0xBF && doGmatch cclasses u t turns s se (p + 2 + alts.text.length) pe ||
        (alts.places (p + 2)).any fun a =>
          (places (if p + 2 + alts.text.length = pe then se else s) se).any fun srest =>
            doGmatch cclasses u t turns s srest a.1 (a.2 - 2) &&
              doGmatch cclasses u t turns srest se (p + 2 + alts.text.length) pe) := by
  have hlt : p < pe := by have := h.inside; omega
  have hbyte : op.byte = 0xBF ∨ op.byte = 0xC0 ∨ op.byte = 0xA0 := by
    rcases hop with rfl | rfl | rfl <;> decide
  rw [doGmatch_once hlt h.marked h.opened hbyte, h.patScan, Option.any_some, h.alternatives]

theorem doGmatch_none (h : GroupAt u t .none alts rest se p pe) :
    doGmatch cclasses u t (turns + 1) s se p pe =
      ((places s se).any fun srest =>
        !((alts.places (p + 2)).any fun a =>
            doGmatch cclasses u t turns s srest a.1 (a.2 - 2)) &&
          doGmatch cclasses u t turns srest se (p + 2 + alts.text.length) pe) := by
  have hlt : p < pe := by have := h.inside; omega
  rw [doGmatch_not hlt h.marked h.opened, h.patScan, Option.any_some, h.alternatives]

/-- A group that may be repeated. The induction is on the string that is left. -/
theorem matched_iterated (halts : MatchedAlts cclasses u t alts)
    (hrest : Matched cclasses u t rest) (hop : op = .oneOrMore ∨ op = .zeroOrMore) (left : Nat) :
    ∀ {turns s : Nat}, se - s = left → s ≤ se → GroupAt u t op alts rest se p pe →
      turnsFor (pe - p) (se - s) ≤ turns →
      (doGmatch cclasses u t turns s se p pe = true ↔
        stretch u s se ∈ op.lang (alts.lang cclasses) * rest.lang cclasses) := by
  induction left using Nat.strong_induction_on with
  | _ left ih =>
      intro turns s hleft hs h hturns
      obtain ⟨turns, rfl⟩ := Nat.exists_eq_add_of_lt ((turnsFor_pos _ _).trans_le hturns)
      rw [Nat.zero_add] at hturns ⊢
      have hagain : ∀ m, s ≤ m → m ≤ se → s ≠ m →
          (doGmatch cclasses u t turns m se p pe = true ↔
            stretch u m se ∈ op.lang (alts.lang cclasses) * rest.lang cclasses) := by
        intro m hm hmse hne
        have hless := turnsFor_lt_of_lt (p := pe - p) (show se - m < se - s by omega)
        exact ih (se - m) (by omega) rfl hmse h (by omega)
      have hgoes : ∀ m, s ≤ m → m ≤ se →
          ((doGmatch cclasses u t turns m se (p + 2 + alts.text.length) pe ||
              s ≠ m && doGmatch cclasses u t turns m se p pe) = true ↔
            stretch u m se ∈ rest.lang cclasses ∨ s ≠ m ∧
              stretch u m se ∈ op.lang (alts.lang cclasses) * rest.lang cclasses) := by
        intro m hsm hmse
        rw [Bool.or_eq_true, Bool.and_eq_true, decide_eq_true_eq,
          h.rest_iff hrest hsm hmse hturns]
        exact or_congr_right (and_congr_right (hagain m hsm hmse))
      rw [doGmatch_iterated h hop, Bool.or_eq_true,
        h.any_pieces halts hturns (Nat.le_refl s) hs hgoes fun _ hsm _ _ => hsm, Bool.and_eq_true,
        decide_eq_true_eq, h.rest_iff hrest (Nat.le_refl s) hs hturns]
      rcases hop with rfl | rfl
      · rw [GroupOp.lang, ← stretch_mem_iterated hs h.string]
        exact or_iff_right fun hzero => absurd hzero.1 (by decide)
      · rw [GroupOp.lang, kstar_mul, Language.mem_add, stretch_mem_iterated hs h.string,
          and_iff_right (show GroupOp.zeroOrMore.byte = 0xAA from rfl)]
        refine or_congr_right (exists_congr fun m => ?_)
        rw [Language.mem_add]
        tauto

theorem matched_choice (halts : MatchedAlts cclasses u t alts) (hrest : Matched cclasses u t rest)
    (hop : op = .zeroOrOne ∨ op = .one ∨ op = .plain)
    (h : GroupAt u t op alts rest se p pe) (hs : s ≤ se)
    (hturns : turnsFor (pe - p) (se - s) ≤ turns + 1) :
    doGmatch cclasses u t (turns + 1) s se p pe = true ↔
      stretch u s se ∈ op.lang (alts.lang cclasses) * rest.lang cclasses := by
  -- where the text ends with the group, its rest is matched at the end of the string only
  have hstart : ∀ m, s ≤ m → m ≤ se → stretch u m se ∈ rest.lang cclasses →
      (if p + 2 + alts.text.length = pe then se else s) ≤ m := by
    intro m hsm hmse hmem
    split_ifs with hend
    · have hnil : rest = .nil := by
        refine eq_nil_of_text ?_
        rw [← h.behind, hend, stretch_self]
      rw [hnil, Pat.lang, Language.mem_one, stretch_eq_nil hmse h.string] at hmem
      exact hmem.ge
    · exact hsm
  have hstart' : s ≤ (if p + 2 + alts.text.length = pe then se else s) ∧
      (if p + 2 + alts.text.length = pe then se else s) ≤ se := by
    split_ifs
    · exact ⟨hs, Nat.le_refl _⟩
    · exact ⟨Nat.le_refl _, hs⟩
  have hgoes : ∀ m, s ≤ m → m ≤ se →
      (doGmatch cclasses u t turns m se (p + 2 + alts.text.length) pe = true ↔
        stretch u m se ∈ rest.lang cclasses) :=
    fun _ hsm hmse => h.rest_iff hrest hsm hmse hturns
  rw [doGmatch_choice h hop, Bool.or_eq_true,
    h.any_pieces halts hturns hstart'.1 hstart'.2 hgoes hstart, ← stretch_mem_mul hs h.string,
    Bool.and_eq_true, decide_eq_true_eq, h.rest_iff hrest (Nat.le_refl s) hs hturns]
  rcases hop with rfl | rfl | rfl
  · rw [GroupOp.lang, add_mul, one_mul, Language.mem_add,
      and_iff_right (show GroupOp.zeroOrOne.byte = 0xBF from rfl)]
  · exact or_iff_right fun hzero => absurd hzero.1 (by decide)
  · exact or_iff_right fun hzero => absurd hzero.1 (by decide)

theorem matched_none (halts : MatchedAlts cclasses u t alts) (hrest : Matched cclasses u t rest)
    (h : GroupAt u t .none alts rest se p pe) (hs : s ≤ se)
    (hturns : turnsFor (pe - p) (se - s) ≤ turns + 1) :
    doGmatch cclasses u t (turns + 1) s se p pe = true ↔
      stretch u s se ∈ GroupOp.none.lang (alts.lang cclasses) * rest.lang cclasses := by
  rw [doGmatch_none h, stretch_mem_mul hs h.string, List.any_eq_true]
  refine exists_congr fun m => ?_
  rw [mem_places hs, and_assoc]
  refine and_congr_right fun hsm => and_congr_right fun hmse => ?_
  rw [Bool.and_eq_true, h.rest_iff hrest hsm hmse hturns, Bool.not_eq_true', ← Bool.not_eq_true,
    List.any_eq_true, h.any_alts halts hsm hmse hturns]
  rfl

theorem matched_group (halts : MatchedAlts cclasses u t alts)
    (hrest : Matched cclasses u t rest) : Matched cclasses u t (.group op alts rest) := by
  intro turns s se p pe hs hse hp hpe htext hturns
  have h := groupAt hse hp hpe htext
  obtain ⟨turns, rfl⟩ := Nat.exists_eq_add_of_lt ((turnsFor_pos _ _).trans_le hturns)
  rw [Nat.zero_add] at hturns ⊢
  rw [Pat.lang]
  cases op with
  | oneOrMore => exact matched_iterated halts hrest (.inl rfl) _ rfl hs h hturns
  | zeroOrMore => exact matched_iterated halts hrest (.inr rfl) _ rfl hs h hturns
  | zeroOrOne => exact matched_choice halts hrest (.inl rfl) h hs hturns
  | one => exact matched_choice halts hrest (.inr (.inl rfl)) h hs hturns
  | plain => exact matched_choice halts hrest (.inr (.inr rfl)) h hs hturns
  | none => exact matched_none halts hrest h hs hturns

end

mutual

theorem matched (hu : ∀ c ∈ u, c ≠ 0) : ∀ pat : Pat, Matched cclasses u t pat
  | .nil => matched_nil
  | .lit c rest => matched_lit c hu (matched hu rest)
  | .any rest => matched_any hu (matched hu rest)
  | .star rest => matched_star (matched hu rest)
  | .cls c rest => matched_cls c hu (matched hu rest)
  | .group _ alts rest => matched_group (matchedAlts hu alts) (matched hu rest)

theorem matchedAlts (hu : ∀ c ∈ u, c ≠ 0) : ∀ alts : Alts, MatchedAlts cclasses u t alts
  | .last pat => matchedAlts_last (matched hu pat)
  | .more pat alts => matchedAlts_more (matched hu pat) (matchedAlts hu alts)

end

/-- A string is matched with the text of a pattern if and only if the pattern is for it. -/
theorem gmatch_iff (cclasses : CClasses) (s : List UInt8) (pat : Pat) (isfile : Bool)
    (hs : ∀ c ∈ s, c ≠ 0) :
    gmatch cclasses s pat.text isfile = true ↔ s ∈ pat.lang cclasses := by
  have hmatch : doGmatch cclasses s pat.text (turnsFor pat.text.length s.length) 0 s.length 0
      pat.text.length = true ↔ s ∈ pat.lang cclasses := by
    have hmatched : Matched cclasses s pat.text pat := matched hs pat
    have h := hmatched (Nat.zero_le _) (Nat.le_refl s.length) (Nat.zero_le _) (Nat.le_refl _)
      (stretch_all _) (Nat.le_refl _)
    rw [stretch_all] at h
    exact h
  rw [gmatch, hasGlobbing_eq]
  cases hglobs : pat.globs with
  | true =>
      rw [Bool.not_true, Bool.and_false, if_neg Bool.false_ne_true]
      exact hmatch
  | false =>
      cases isfile with
      | true =>
          rw [Bool.not_true, Bool.false_and, if_neg Bool.false_ne_true]
          exact hmatch
      | false =>
          rw [Bool.not_false, Bool.and_true, if_pos rfl, decide_eq_true_eq]
          exact debunk_text cclasses pat s hglobs

/-- `*(a|b)` -/
def abPattern : Pat :=
  .group .zeroOrMore
    (.more (.lit ⟨0x61, false, by decide⟩ .nil) (.last (.lit ⟨0x62, false, by decide⟩ .nil))) .nil

theorem gmatch_abPattern : (∀ c ∈ [(0x62 : UInt8), 0x61], c ≠ 0) ∧
    (gmatch [] [0x62, 0x61] abPattern.text false = true ↔
      [0x62, 0x61] ∈ abPattern.lang []) :=
  ⟨by simp, gmatch_iff [] [0x62, 0x61] abPattern false (by simp)⟩

end MinC.Ksh
