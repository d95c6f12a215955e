import MinC.Lib.Bits
import MinC.Ksh.PatternTrees

/-!
Scans of the texts of patterns.

A scan for the end of a group passes over everything that is not a group, and in a
group over the groups in it. The check of the syntax comes to no error in the text
of a pattern, and says that it has to be matched if anything in it stands for more
than itself.
-/

namespace MinC.Ksh

open MinC.Lib

/-- Marked, the byte is not of a group. -/
def Neutral (c : UInt8) : Prop := isOp c = false ∧ c ≠ 0x29 ∧ c ≠ 0x7C

instance decidableNeutral (c : UInt8) : Decidable (Neutral c) :=
  inferInstanceAs (Decidable (_ ∧ _ ∧ _))

/-- Nothing in the text is of a group. -/
inductive Quiet : List UInt8 → Prop
  | nil : Quiet []
  | plain {c : UInt8} {l : List UInt8} (hc : c ≠ magic) (hl : Quiet l) : Quiet (c :: l)
  | marked {c : UInt8} {l : List UInt8} (hc : Neutral c) (hl : Quiet l) : Quiet (magic :: c :: l)

theorem Quiet.append {l l' : List UInt8} (h : Quiet l) (h' : Quiet l') : Quiet (l ++ l') := by
  induction h with
  | nil => exact h'
  | plain hc _ ih => exact .plain hc ih
  | marked hc _ ih => exact .marked hc ih

theorem quiet_of_ne {l : List UInt8} (h : ∀ c ∈ l, c ≠ magic) : Quiet l := by
  induction l with
  | nil => exact .nil
  | cons c l ih =>
      exact .plain (h c (List.mem_cons_self ..)) (ih fun d hd => h d (List.mem_cons_of_mem _ hd))

theorem and_high_of_lt {c : UInt8} (h : c < 0x80) : c &&& 0x80 = 0 := by
  refine UInt8.toNat.inj ?_
  have hbit : c.toNat.testBit 7 = false := Nat.testBit_lt_two_pow h
  have hpow := Nat.and_two_pow c.toNat 7
  rw [hbit] at hpow
  rw [UInt8.toNat_and]
  exact hpow

theorem isOp_of_lt {c : UInt8} (h : c < 0x80) : isOp c = false := by
  rw [isOp, and_high_of_lt h]
  rfl

theorem quiet_markedText {marked : Bool} {c : UInt8} (hplain : marked = false → c ≠ magic)
    (hmarked : marked = true → Neutral c) : Quiet (markedText marked c) := by
  cases marked with
  | false => exact .plain (hplain rfl) .nil
  | true => exact .marked (hmarked rfl) .nil

theorem Lit.quiet (c : Lit) : Quiet (markedText c.marked c.byte) := by
  have hok := c.ok
  refine quiet_markedText (fun h => ?_) fun h => ?_
  · rw [h, if_neg Bool.false_ne_true] at hok
    exact hok.2
  · rw [h, if_pos rfl] at hok
    obtain ⟨-, hlt, hnot⟩ := hok
    simp only [List.mem_cons, not_or] at hnot
    exact ⟨isOp_of_lt hlt, hnot.2.2.2.1, hnot.2.2.2.2.1⟩

theorem ClassByte.quiet (c : ClassByte) : Quiet (markedText c.marked c.byte) := by
  refine quiet_markedText (fun _ => c.ok.2.1) fun h => ?_
  obtain ⟨hlt, hnot⟩ := c.ok.2.2.2 h
  simp only [List.mem_cons, not_or] at hnot
  exact ⟨isOp_of_lt hlt, hnot.2.2.2.1, hnot.2.2.2.2.1⟩

theorem ClassItem.quiet (item : ClassItem) : Quiet item.text := by
  cases item with
  | byte c => exact c.quiet
  | range c d =>
      exact c.quiet.append (.marked (by decide) d.quiet)
  | name n =>
      refine .marked (by decide) (.plain (by decide) ?_)
      refine (quiet_of_ne fun c hc => (n.ok c hc).2.1).append ?_
      exact .plain (by decide) (.marked (by decide) .nil)

theorem Cls.quiet (c : Cls) : Quiet c.inner := by
  have hitems : Quiet (c.items.flatMap ClassItem.text) := by
    generalize c.items = items
    induction items with
    | nil => exact .nil
    | cons item items ih => exact item.quiet.append ih
  refine Quiet.append ?_ (hitems.append (.marked (by decide) .nil))
  split_ifs
  · exact .marked (by decide) .nil
  · exact .nil

theorem GroupOp.isOp_byte (op : GroupOp) : isOp op.byte = true := by
  cases op <;> decide

/-! ### The end of a group -/

variable {t : List UInt8} {matchSep : Bool} {left nest p : Nat}

theorem patScan_plain (h : byteAt t p ≠ magic) :
    patScan t matchSep (left + 1) nest p = patScan t matchSep left nest (p + 1) := by
  rw [patScan, if_pos h]

theorem patScan_marked {c : UInt8} (h : byteAt t p = magic) (hc : byteAt t (p + 1) = c)
    (hnot : ¬(c = 0x29 ∧ nest = 0 ∨ c = 0x7C ∧ matchSep ∧ nest = 0)) :
    patScan t matchSep (left + 2) nest p =
      patScan t matchSep left (if c = 0x29 then nest - 1 else if isOp c then nest + 1 else nest)
        (p + 2) := by
  rw [patScan, h, if_neg (not_not.mpr rfl), hc, if_neg hnot]

theorem patScan_found {c : UInt8} (h : byteAt t p = magic) (hc : byteAt t (p + 1) = c)
    (hfound : c = 0x29 ∧ nest = 0 ∨ c = 0x7C ∧ matchSep ∧ nest = 0) :
    patScan t matchSep (left + 2) nest p = some (p + 2) := by
  rw [patScan, h, if_neg (not_not.mpr rfl), hc, if_pos hfound]

theorem patScan_quiet {l : List UInt8} (h : Stands t p l) (hl : Quiet l) :
    patScan t matchSep (l.length + left) nest p =
      patScan t matchSep left nest (p + l.length) := by
  induction hl generalizing p with
  | nil => rw [List.length_nil, Nat.zero_add, Nat.add_zero]
  | @plain c l hc _ ih =>
      obtain ⟨hp, hrest⟩ := h
      rw [List.length_cons, Nat.add_right_comm, patScan_plain (hp ▸ hc), ih hrest]
      rw [Nat.add_assoc, Nat.add_comm 1]
  | @marked c l hc _ ih =>
      obtain ⟨hp, hp', hrest⟩ := h
      have hnot : ¬(c = 0x29 ∧ nest = 0 ∨ c = 0x7C ∧ matchSep ∧ nest = 0) := by
        rintro (⟨h, _⟩ | ⟨h, _⟩)
        · exact hc.2.1 h
        · exact hc.2.2 h
      have hlen : (magic :: c :: l).length + left = l.length + left + 2 := by
        rw [List.length_cons, List.length_cons]
        omega
      rw [hlen, patScan_marked hp hp' hnot, if_neg hc.2.1, hc.1, if_neg Bool.false_ne_true,
        ih hrest]
      rw [List.length_cons, List.length_cons]
      exact congrArg _ (by omega)

theorem patScan_marked_pair {c : UInt8} {l : List UInt8} (h : Stands t p (magic :: c :: l))
    (hnot : ¬(c = 0x29 ∧ nest = 0 ∨ c = 0x7C ∧ matchSep ∧ nest = 0)) :
    patScan t matchSep ((magic :: c :: l).length + left) nest p =
      patScan t matchSep (l.length + left)
        (if c = 0x29 then nest - 1 else if isOp c then nest + 1 else nest) (p + 2) := by
  have hlen : (magic :: c :: l).length + left = l.length + left + 2 := by
    rw [List.length_cons, List.length_cons]
    omega
  rw [hlen, patScan_marked h.1 h.2.1 hnot]

mutual

/-- The text of a pattern is passed over. -/
theorem patScan_pat (matchSep : Bool) (left nest : Nat) :
    ∀ (pat : Pat) (p : Nat), Stands t p pat.text →
      patScan t matchSep (pat.text.length + left) nest p =
        patScan t matchSep left nest (p + pat.text.length)
  | .nil, p, h => patScan_quiet h .nil
  | .lit c rest, p, h => by
      rw [Pat.text] at h ⊢
      obtain ⟨hc, hrest⟩ := stands_append.mp h
      rw [List.length_append, Nat.add_assoc, patScan_quiet hc c.quiet,
        patScan_pat matchSep left nest rest _ hrest, Nat.add_assoc]
  | .any rest, p, h => by
      rw [Pat.text] at h ⊢
      rw [patScan_marked_pair h (by simp)]
      rw [if_neg (by decide), if_neg (by decide), patScan_pat matchSep left nest rest _ h.2.2]
      rw [List.length_cons, List.length_cons]
      exact congrArg _ (by omega)
  | .star rest, p, h => by
      rw [Pat.text] at h ⊢
      rw [patScan_marked_pair h (by simp)]
      rw [if_neg (by decide), if_neg (by decide), patScan_pat matchSep left nest rest _ h.2.2]
      rw [List.length_cons, List.length_cons]
      exact congrArg _ (by omega)
  | .cls c rest, p, h => by
      rw [Pat.text] at h ⊢
      obtain ⟨hc, hrest⟩ := stands_append.mp h.2.2
      rw [patScan_marked_pair h (by simp)]
      rw [if_neg (by decide), if_neg (by decide), List.length_append, Nat.add_assoc,
        patScan_quiet hc c.quiet, patScan_pat matchSep left nest rest _ hrest]
      rw [List.length_cons, List.length_cons, List.length_append]
      exact congrArg _ (by omega)
  | .group op alts rest, p, h => by
      rw [Pat.text] at h ⊢
      obtain ⟨halts, hrest⟩ := stands_append.mp h.2.2
      rw [patScan_marked_pair h (by cases op <;> simp [GroupOp.byte])]
      rw [if_neg (by cases op <;> decide), if_pos op.isOp_byte, List.length_append, Nat.add_assoc,
        patScan_alts matchSep _ nest alts _ halts, patScan_pat matchSep left nest rest _ hrest]
      rw [List.length_cons, List.length_cons, List.length_append]
      exact congrArg _ (by omega)

/-- In a group, the text of its alternatives is passed over as far as its end. -/
theorem patScan_alts (matchSep : Bool) (left nest : Nat) :
    ∀ (alts : Alts) (p : Nat), Stands t p alts.text →
      patScan t matchSep (alts.text.length + left) (nest + 1) p =
        patScan t matchSep left nest (p + alts.text.length)
  | .last pat, p, h => by
      rw [Alts.text] at h ⊢
      obtain ⟨hpat, hend⟩ := stands_append.mp h
      rw [List.length_append, Nat.add_assoc, patScan_pat matchSep _ (nest + 1) pat _ hpat]
      rw [patScan_marked_pair hend (by simp), if_pos rfl, Nat.add_sub_cancel]
      rw [List.length_nil, Nat.zero_add]
      rfl
  | .more pat alts, p, h => by
      rw [Alts.text] at h ⊢
      obtain ⟨hpat, hsep⟩ := stands_append.mp h
      rw [List.length_append, Nat.add_assoc, patScan_pat matchSep _ (nest + 1) pat _ hpat]
      rw [patScan_marked_pair hsep (by simp), if_neg (by decide), if_neg (by decide),
        patScan_alts matchSep left nest alts _ hsep.2.2]
      rw [List.length_cons, List.length_cons]
      exact congrArg _ (by omega)

end

theorem patScan_end (left : Nat) : ∀ (alts : Alts) (p : Nat), Stands t p alts.text →
    patScan t false (alts.text.length + left) 0 p = some (p + alts.text.length)
  | .last pat, p, h => by
      rw [Alts.text] at h ⊢
      obtain ⟨hpat, hend⟩ := stands_append.mp h
      rw [List.length_append, Nat.add_assoc, patScan_pat false _ 0 pat _ hpat, List.length_cons,
        List.length_cons, List.length_nil, Nat.add_comm _ left]
      exact patScan_found hend.1 hend.2.1 (.inl ⟨rfl, rfl⟩)
  | .more pat alts, p, h => by
      rw [Alts.text] at h ⊢
      obtain ⟨hpat, hsep⟩ := stands_append.mp h
      rw [List.length_append, Nat.add_assoc, patScan_pat false _ 0 pat _ hpat]
      rw [patScan_marked_pair hsep (by simp), if_neg (by decide), if_neg (by decide),
        patScan_end left alts _ hsep.2.2]
      rw [List.length_cons, List.length_cons]
      exact congrArg _ (by omega)

/-- The end of an alternative is a `|` or the end of the group. -/
theorem patScan_next {pat : Pat} {c : UInt8} {pe : Nat} (hpat : Stands t p pat.text)
    (hmark : byteAt t (p + pat.text.length) = magic)
    (hc : byteAt t (p + pat.text.length + 1) = c) (hends : c = 0x29 ∨ c = 0x7C)
    (hpe : p + pat.text.length + 2 ≤ pe) :
    patScan t true (pe - p) 0 p = some (p + pat.text.length + 2) := by
  obtain ⟨left, hleft⟩ : ∃ left, pe - p = pat.text.length + (left + 2) :=
    ⟨pe - p - pat.text.length - 2, by omega⟩
  rw [hleft, patScan_pat true _ 0 pat _ hpat]
  exact patScan_found hmark hc (hends.imp (fun h => ⟨h, rfl⟩) fun h => ⟨h, rfl, rfl⟩)

/-- Where the alternatives of a group are. -/
def Alts.places : Alts → Nat → List (Nat × Nat)
  | .last pat, p => [(p, p + pat.text.length + 2)]
  | .more pat alts, p =>
      (p, p + pat.text.length + 2) :: alts.places (p + pat.text.length + 2)

def Alts.count : Alts → Nat
  | .last _ => 1
  | .more _ alts => alts.count + 1

theorem Alts.count_lt : ∀ alts : Alts, alts.count < alts.text.length
  | .last pat => by
      rw [Alts.count, Alts.text, List.length_append, List.length_cons, List.length_cons]
      omega
  | .more pat alts => by
      have ih := alts.count_lt
      rw [Alts.count, Alts.text, List.length_append, List.length_cons, List.length_cons]
      omega

theorem alternatives_eq (pe : Nat) : ∀ (alts : Alts) (p turns : Nat), Stands t p alts.text →
    p + alts.text.length ≤ pe → alts.count ≤ turns →
    alternatives t pe (p + alts.text.length) turns p = alts.places p
  | .last pat, p, turns + 1, h, hpe, _ => by
      rw [Alts.text, List.length_append, List.length_cons, List.length_cons, List.length_nil] at *
      obtain ⟨hpat, hmark, hc, -⟩ := stands_append.mp h
      rw [alternatives, patScan_next hpat hmark hc (.inl rfl) (by omega)]
      dsimp only
      rw [if_pos (by omega), Alts.places]
  | .more pat alts, p, turns + 1, h, hpe, hturns => by
      rw [Alts.text, List.length_append, List.length_cons, List.length_cons] at *
      obtain ⟨hpat, hmark, hc, halts⟩ := stands_append.mp h
      have hcount := alts.count_lt
      have hend : p + (pat.text.length + (alts.text.length + 1 + 1)) =
          p + pat.text.length + 2 + alts.text.length := by omega
      rw [alternatives, patScan_next hpat hmark hc (.inr rfl) (by omega)]
      dsimp only
      rw [if_neg (by omega), Alts.places, hend,
        alternatives_eq pe alts _ turns halts (by omega) (Nat.le_of_succ_le_succ hturns)]

/-! ### The check of the syntax -/

/-- A pattern in which something stands for more than itself. -/
def Pat.globs : Pat → Bool
  | .nil => false
  | .lit _ rest => rest.globs
  | .any _ => true
  | .star _ => true
  | .cls _ _ => true
  | .group _ _ _ => true

variable {g : GlobScan} {c : UInt8} {l : List UInt8}

theorem globScan_plain (hc : c ≠ magic) : globScan g (c :: l) = globScan g l := by
  cases l with
  | nil => simp only [globScan]
  | cons d l => rw [globScan, if_pos hc]

/-- Whatever is asked about comes before. -/
theorem globScan_neutral (hglob : c ≠ 0x2A ∧ c ≠ 0x3F ∧ c ≠ 0x5B ∧ c ≠ 0x5D) (hc : Neutral c) :
    globScan g (magic :: c :: l) = globScan g l := by
  rw [globScan, if_neg (not_not.mpr rfl), if_neg (not_or.mpr ⟨hglob.1, hglob.2.1⟩),
    if_neg hglob.2.2.1, if_neg hglob.2.2.2, hc.1, if_neg Bool.false_ne_true, if_neg hc.2.2,
    if_neg hc.2.1]

theorem globScan_glob (hc : c = 0x2A ∨ c = 0x3F) :
    globScan g (magic :: c :: l) = globScan { g with sawGlob := true } l := by
  rw [globScan, if_neg (not_not.mpr rfl), if_pos hc]

theorem globScan_close {nest : Nat} {b : Bool} :
    globScan ⟨nest, 0, true, b⟩ (magic :: 0x5D :: l) = globScan ⟨nest, 0, true, false⟩ l := by
  rw [globScan, if_neg (not_not.mpr rfl), if_neg (by decide), if_neg (by decide), if_pos rfl]
  cases b with
  | false => rfl
  | true => exact Bool.true_and _

theorem skipMarked_plain {d : UInt8} (hc : c ≠ magic) : skipMarked d (c :: l) = c :: l := by
  cases l with
  | nil => rfl
  | cons e l => exact if_neg fun h => hc h.1

theorem skipMarked_skips (c : UInt8) (l : List UInt8) : skipMarked c (magic :: c :: l) = l :=
  if_pos ⟨rfl, rfl⟩

theorem skipMarked_marked {d : UInt8} (hc : c ≠ d) :
    skipMarked d (magic :: c :: l) = magic :: c :: l :=
  if_neg fun h => hc h.2

theorem globScan_classByte {nest : Nat} {b : Bool} (c : ClassByte) :
    globScan ⟨nest, 0, true, b⟩ (markedText c.marked c.byte ++ l) =
      globScan ⟨nest, 0, true, b⟩ l := by
  obtain ⟨-, hmagic, hopen, hmarked⟩ := c.ok
  cases hm : c.marked with
  | false => exact globScan_plain hmagic
  | true =>
      obtain ⟨hlt, hnot⟩ := hmarked hm
      simp only [List.mem_cons, not_or] at hnot
      by_cases hglob : c.byte = 0x2A ∨ c.byte = 0x3F
      · exact globScan_glob hglob
      · rw [not_or] at hglob
        exact globScan_neutral ⟨hglob.1, hglob.2, hopen, hnot.1⟩
          ⟨isOp_of_lt hlt, hnot.2.2.2.1, hnot.2.2.2.2.1⟩

theorem globScan_names {l' : List UInt8} (hl : ∀ c ∈ l, c ≠ magic) :
    globScan g (l ++ l') = globScan g l' := by
  induction l with
  | nil => rfl
  | cons c l ih =>
      rw [List.cons_append, globScan_plain (hl c (List.mem_cons_self ..)),
        ih fun d hd => hl d (List.mem_cons_of_mem _ hd)]

theorem name_text_append (n : PosixName) (l : List UInt8) :
    (ClassItem.name n).text ++ l =
      magic :: 0x5B :: 0x3A :: (n.bytes ++ 0x3A :: magic :: 0x5D :: l) := by
  rw [ClassItem.text, List.cons_append, List.cons_append, List.cons_append, List.append_assoc]
  rfl

/-- A name in a class is taken for a class, or for the end of the one that it is in. -/
theorem globScan_name {nest : Nat} {b : Bool} (n : PosixName) :
    globScan ⟨nest, 0, true, b⟩ ((ClassItem.name n).text ++ l) =
      globScan ⟨nest, 0, true, false⟩ l := by
  have hname : ∀ b, globScan ⟨nest, 0, true, b⟩ (0x3A :: (n.bytes ++ 0x3A :: magic :: 0x5D :: l)) =
      globScan ⟨nest, 0, true, false⟩ l := by
    intro b
    rw [globScan_plain (by decide), globScan_names fun c hc => (n.ok c hc).2.1,
      globScan_plain (by decide), globScan_close]
  rw [name_text_append, globScan, if_neg (not_not.mpr rfl), if_neg (by decide), if_pos rfl]
  cases b with
  | true => exact hname true
  | false =>
      rw [if_neg Bool.false_ne_true, skipMarked_plain (by decide), skipMarked_plain (by decide)]
      exact hname true

theorem globScan_items {nest : Nat} (items : List ClassItem) (b : Bool) :
    globScan ⟨nest, 0, true, b⟩ (items.flatMap ClassItem.text ++ magic :: 0x5D :: l) =
      globScan ⟨nest, 0, true, false⟩ l := by
  induction items generalizing b with
  | nil => exact globScan_close
  | cons item items ih =>
      rw [List.flatMap_cons, List.append_assoc]
      cases item with
      | byte c =>
          rw [ClassItem.text, globScan_classByte]
          exact ih b
      | range c d =>
          rw [ClassItem.text, List.append_assoc, globScan_classByte, List.cons_append,
            List.cons_append, globScan_neutral (by decide) (by decide), globScan_classByte]
          exact ih b
      | name n =>
          rw [globScan_name]
          exact ih false

/-- The first bytes of a class are not passed over, if they are not a `!`. -/
theorem skipMarked_item {d : UInt8} (hd : d = 0x21 ∨ d = 0x5D) (item : ClassItem) :
    skipMarked d (item.text ++ l) = item.text ++ l := by
  have hbyte : ∀ (c : ClassByte) (l : List UInt8),
      skipMarked d (markedText c.marked c.byte ++ l) = markedText c.marked c.byte ++ l := by
    intro c l
    obtain ⟨-, hmagic, -, hmarked⟩ := c.ok
    cases hm : c.marked with
    | false => exact skipMarked_plain hmagic
    | true =>
        obtain ⟨-, hnot⟩ := hmarked hm
        refine skipMarked_marked fun h => hnot ?_
        rcases hd with rfl | rfl <;> simp [h]
  cases item with
  | byte c => exact hbyte c l
  | range c d =>
      rw [ClassItem.text, List.append_assoc]
      exact hbyte c _
  | name n =>
      refine skipMarked_marked ?_
      rcases hd with rfl | rfl <;> decide

theorem globScan_cls {nest : Nat} {saw : Bool} (c : Cls) :
    globScan ⟨nest, 0, saw, false⟩ (magic :: 0x5B :: (c.inner ++ l)) =
      globScan ⟨nest, 0, true, false⟩ l := by
  have hitems : ∀ {d}, d = 0x21 ∨ d = 0x5D →
      skipMarked d (c.items.flatMap ClassItem.text ++ magic :: 0x5D :: l) =
        c.items.flatMap ClassItem.text ++ magic :: 0x5D :: l := by
    intro d hd
    rw [Cls.items, List.flatMap_cons, List.append_assoc]
    exact skipMarked_item hd c.first
  have hinner : skipMarked 0x21 (c.inner ++ l) =
      c.items.flatMap ClassItem.text ++ magic :: 0x5D :: l := by
    rw [Cls.inner, List.append_assoc, List.append_assoc]
    cases c.not with
    | true => exact skipMarked_skips ..
    | false => exact hitems (.inl rfl)
  rw [globScan, if_neg (not_not.mpr rfl), if_neg (by decide), if_pos rfl,
    if_neg Bool.false_ne_true, hinner, hitems (.inr rfl)]
  exact globScan_items c.items true

theorem globScan_group {nest : Nat} {saw : Bool} (op : GroupOp) :
    globScan ⟨nest, 0, saw, false⟩ (magic :: op.byte :: l) =
      globScan ⟨nest + 1, 0, true, false⟩ l := by
  rw [globScan, if_neg (not_not.mpr rfl), if_neg (by cases op <;> decide),
    if_neg (by cases op <;> decide), if_neg (by cases op <;> decide), if_pos op.isOp_byte,
    if_neg Bool.false_ne_true]

theorem globScan_sep {nest : Nat} :
    globScan ⟨nest, 0, true, false⟩ (magic :: 0x7C :: l) = globScan ⟨nest, 0, true, false⟩ l := by
  rw [globScan, if_neg (not_not.mpr rfl), if_neg (by decide), if_neg (by decide),
    if_neg (by decide), if_neg (by decide), if_pos rfl]
  rfl

theorem globScan_end {nest : Nat} :
    globScan ⟨nest + 1, 0, true, false⟩ (magic :: 0x29 :: l) =
      globScan ⟨nest, 0, true, false⟩ l := by
  rw [globScan, if_neg (not_not.mpr rfl), if_neg (by decide), if_neg (by decide),
    if_neg (by decide), if_neg (by decide), if_neg (by decide), if_pos rfl,
    if_neg Bool.false_ne_true]
  rfl

theorem globScan_lit {nest : Nat} {saw : Bool} (c : Lit) :
    globScan ⟨nest, 0, saw, false⟩ (markedText c.marked c.byte ++ l) =
      globScan ⟨nest, 0, saw, false⟩ l := by
  have hok := c.ok
  cases hm : c.marked with
  | false =>
      rw [hm, if_neg Bool.false_ne_true] at hok
      exact globScan_plain hok.2
  | true =>
      rw [hm, if_pos rfl] at hok
      obtain ⟨-, hlt, hnot⟩ := hok
      simp only [List.mem_cons, not_or] at hnot
      by_cases hclose : c.byte = 0x5D
      · rw [hclose, markedText, if_pos rfl, List.cons_append, List.cons_append, globScan,
          if_neg (not_not.mpr rfl), if_neg (by decide), if_neg (by decide), if_pos rfl]
        rfl
      · exact globScan_neutral ⟨hnot.2.1, hnot.2.2.1, hnot.1, hclose⟩
          ⟨isOp_of_lt hlt, hnot.2.2.2.1, hnot.2.2.2.2.1⟩

mutual

theorem globScan_pat : ∀ (pat : Pat) (nest : Nat) (saw : Bool) (l : List UInt8),
    globScan ⟨nest, 0, saw, false⟩ (pat.text ++ l) =
      globScan ⟨nest, 0, saw || pat.globs, false⟩ l
  | .nil, nest, saw, l => by
      rw [Pat.text, Pat.globs, Bool.or_false]
      rfl
  | .lit c rest, nest, saw, l => by
      rw [Pat.text, Pat.globs, List.append_assoc, globScan_lit]
      exact globScan_pat rest nest saw l
  | .any rest, nest, saw, l => by
      have ih := globScan_pat rest nest true l
      rw [Pat.text, Pat.globs, Bool.or_true, List.cons_append, List.cons_append,
        globScan_glob (.inr rfl)]
      exact ih
  | .star rest, nest, saw, l => by
      have ih := globScan_pat rest nest true l
      rw [Pat.text, Pat.globs, Bool.or_true, List.cons_append, List.cons_append,
        globScan_glob (.inl rfl)]
      exact ih
  | .cls c rest, nest, saw, l => by
      have ih := globScan_pat rest nest true l
      rw [Pat.text, Pat.globs, Bool.or_true, List.cons_append, List.cons_append,
        List.append_assoc, globScan_cls]
      exact ih
  | .group op alts rest, nest, saw, l => by
      have ih := globScan_pat rest nest true l
      rw [Pat.text, Pat.globs, Bool.or_true, List.cons_append, List.cons_append,
        List.append_assoc, globScan_group, globScan_alts alts nest]
      exact ih

theorem globScan_alts : ∀ (alts : Alts) (nest : Nat) (l : List UInt8),
    globScan ⟨nest + 1, 0, true, false⟩ (alts.text ++ l) = globScan ⟨nest, 0, true, false⟩ l
  | .last pat, nest, l => by
      rw [Alts.text, List.append_assoc, globScan_pat pat (nest + 1) true, Bool.true_or]
      exact globScan_end
  | .more pat alts, nest, l => by
      rw [Alts.text, List.append_assoc, globScan_pat pat (nest + 1) true, Bool.true_or,
        List.cons_append, List.cons_append, globScan_sep]
      exact globScan_alts alts nest l

end

/-- The text of a pattern is correct, and matched if anything in it is not for itself. -/
theorem hasGlobbing_eq (pat : Pat) : hasGlobbing pat.text = pat.globs := by
  have h := globScan_pat pat 0 false []
  rw [List.append_nil] at h
  rw [hasGlobbing, h, globScan]
  simp

theorem mem_oneByte_mul {asked : UInt8 → Prop} {L : Language UInt8} {w : List UInt8} :
    w ∈ oneByte asked * L ↔ ∃ c w', asked c ∧ w' ∈ L ∧ w = c :: w' := by
  rw [Language.mem_mul]
  constructor
  · rintro ⟨_, ⟨c, hc, rfl⟩, w', hw', rfl⟩
    exact ⟨c, w', hc, hw', rfl⟩
  · rintro ⟨c, w', hc, hw', rfl⟩
    exact ⟨[c], ⟨c, hc, rfl⟩, w', hw', rfl⟩

theorem debunk_lit (c : Lit) (l : List UInt8) :
    debunk (markedText c.marked c.byte ++ l) = c.byte :: debunk l := by
  have hok := c.ok
  cases hm : c.marked with
  | false =>
      rw [hm, if_neg Bool.false_ne_true] at hok
      cases l with
      | nil => exact if_neg hok.2
      | cons d l => exact if_pos hok.2
  | true =>
      rw [hm, if_pos rfl] at hok
      rw [markedText, if_pos rfl, List.cons_append, List.cons_append, debunk,
        if_neg (not_not.mpr rfl), isOp_of_lt hok.2.1, if_neg Bool.false_ne_true]
      rfl

/-- A pattern that is only for one string is for its own text, without the marks. -/
theorem debunk_text (cclasses : CClasses) : ∀ (pat : Pat) (w : List UInt8), pat.globs = false →
    (debunk pat.text = w ↔ w ∈ pat.lang cclasses)
  | .nil, w, _ => by
      rw [Pat.text, Pat.lang, Language.mem_one, debunk]
      exact eq_comm
  | .lit c rest, w, h => by
      rw [Pat.text, Pat.lang, debunk_lit, mem_oneByte_mul]
      constructor
      · rintro rfl
        exact ⟨c.byte, _, rfl, (debunk_text cclasses rest _ h).mp rfl, rfl⟩
      · rintro ⟨_, w', rfl, hw', rfl⟩
        rw [(debunk_text cclasses rest w' h).mpr hw']

end MinC.Ksh
