import MinC.Sys.PathRounds

/-!
Names for a caller's buffer.

One size bounds three things: the conversion, which fails if the name does not
fit, the prefix, which is copied before anything is compared, and the bytes
that are copied, which are counted even where they are left out. The end that
the caller gets is where the copying ended, and an extension is taken off after
that.
-/

namespace MinC.Sys

open MinC.Lib MinC.Win MinC.Vfs

/-! ### The translation of a name -/

/-- The name as it is converted. -/
def converted (source : List UInt16) : List UInt8 := narrow (stripRoot source)

/-- What is written in front of a name, and what is copied of it. -/
def leading (b : List UInt8) : List UInt8 := (guessPosix b 0).1
def copied (b : List UInt8) : List UInt8 := (guessPosix b 0).2.1

/-- What a buffer without limit gets. -/
def translation (source : List UInt16) : List UInt8 :=
  chopLink (leading (converted source) ++ spell (copied (converted source)))

/-! ### What a call may leave -/

/-- The conversion is given `size` bytes of a buffer that has `pathMax`. -/
def Overruns (pathMax : Nat) (source : List UInt16) (size : Int) : Prop :=
  pathMax < (converted source).length + 1 ∧ ((converted source).length : Int) + 1 ≤ size

/-- The cells and the end that a call may leave. The buffer is not initialised,
and after an overrun there is nothing that is not possible. -/
def MayLeave (pathMax : Nat) (dest : List UInt8) (source : List UInt16) (size : Int)
    (r : List UInt8 × Nat) : Prop :=
  (∃ junk, r = pathnpPosix junk dest source size) ∨ Overruns pathMax source size

/-- The caller's text is a prefix of the translation, within the size, and ends
where the caller is told it does. -/
structure Prefixed (source : List UInt16) (size : Int) (r : List UInt8 × Nat) : Prop where
  inRoom : (r.2 : Int) + 1 ≤ size
  begins : text r.1 <+: translation source
  whole : ((translation source).length : Int) + 1 ≤ size → text r.1 = translation source
  atEnd : r.2 = (text r.1).length

/-! ### What a name has to be -/

/-- What is left out of a name if `n` bytes of it are looked at, an extension
apart. -/
def lost (b : List UInt8) (n : Nat) : List UInt8 :=
  (chopLink (spell b)).drop (spell (b.take n)).length

/-- A name that is cut behind `n` bytes: what is kept does not end in the
extension of a link, nor in a part of it, and what is lost is more than the
colons that were left out of what is kept. -/
structure CutWell (b : List UInt8) (n : Nat) : Prop where
  kept : DotKept (spell (b.take n))
  apart : ∀ i, lastDot (spell b) = some i → ((spell b).drop i).take 4 = typeNameLink →
    (spell (b.take n)).length ≤ i
  more : lost b n = [] ∨ (b.take n).count 58 < (lost b n).length

/-- A name that fits, with room for what is written in front of it, and that is
not cut in the wrong place. -/
structure Affords (pathMax : Nat) (source : List UInt16) (size : Int) : Prop where
  named : stripRoot source ≠ []
  fits : ((converted source).length : Int) + 1 ≤ size
  inBuffer : (converted source).length + 1 ≤ pathMax
  leads : ((leading (converted source)).length : Int) < size
  cut : CutWell (copied (converted source))
    (size - (leading (converted source)).length - 1).toNat

/-! ### The prefix -/

/-- What is behind a string is not looked at, unless the string is empty. -/
theorem guessPosix_append_zero {b : List UInt8} (hb : b ≠ []) (junk : List UInt8) (size : Int) :
    guessPosix (b ++ 0 :: junk) size =
      (leading b, copied b ++ 0 :: junk, size - (leading b).length) := by
  have hzero : (b ++ 0 :: junk).getD 0 0 = b.getD 0 0 := by
    cases b with
    | nil => exact absurd rfl hb
    | cons c b => rfl
  have hdrop : (b ++ 0 :: junk).drop 1 = b.drop 1 ++ 0 :: junk := by
    cases b with
    | nil => exact absurd rfl hb
    | cons c b => rfl
  unfold leading copied guessPosix
  rw [getD_append_zero b junk hb, hzero, hdrop]
  split_ifs
  · rfl
  · rfl
  · simp
  · simp

theorem not_mem_leading {c : UInt8} (hmnt : c ∉ mntPrefix) (hproc : c ∉ procPrefix)
    (b : List UInt8) : c ∉ leading b := by
  unfold leading guessPosix
  split_ifs
  · exact hmnt
  · exact hproc
  · exact List.not_mem_nil
  · exact List.not_mem_nil

theorem dot_not_mem_leading (b : List UInt8) : 46 ∉ leading b :=
  not_mem_leading (by decide) (by decide) b

theorem length_leading_le (b : List UInt8) : (leading b).length ≤ 5 := by
  unfold leading guessPosix
  split_ifs
  · exact Nat.le_refl _
  · exact Nat.le_refl _
  · exact Nat.zero_le _
  · exact Nat.zero_le _

theorem length_copied_le (b : List UInt8) : (copied b).length ≤ b.length := by
  unfold copied guessPosix
  split_ifs
  · exact Nat.le_refl _
  · exact Nat.le_refl _
  · rw [List.length_drop]
    exact Nat.sub_le _ _
  · exact Nat.le_refl _

theorem zero_not_mem_copied {b : List UInt8} (hb : 0 ∉ b) : 0 ∉ copied b := by
  unfold copied guessPosix
  split_ifs
  · exact hb
  · exact hb
  · exact fun h => hb (List.mem_of_mem_drop h)
  · exact hb

/-! ### The extension -/

theorem lastDot_eq_none_iff {b : List UInt8} : lastDot b = none ↔ 46 ∉ b := by
  induction b with
  | nil => simp [lastDot]
  | cons c b ih =>
      rw [lastDot, List.mem_cons, not_or, ← ih]
      cases hdot : lastDot b with
      | some i => simp
      | none =>
          dsimp only
          split_ifs with h
          · simp [h]
          · simpa using Ne.symm h

theorem dotKept_of_not_mem {b : List UInt8} (h : 46 ∉ b) : DotKept b := by
  intro i hdot
  rw [lastDot_eq_none_iff.mpr h] at hdot
  cases hdot

/-- Where there is no dot, there is no extension. -/
theorem chopLink_append {p : List UInt8} (hp : 46 ∉ p) (b : List UInt8) :
    chopLink (p ++ b) = p ++ chopLink b := by
  cases hdot : lastDot b with
  | none =>
      have hnone : lastDot (p ++ b) = none := by
        rw [lastDot_eq_none_iff] at hdot ⊢
        rw [List.mem_append, not_or]
        exact ⟨hp, hdot⟩
      rw [chopLink, chopLink, hdot, hnone]
  | some i =>
      rw [chopLink, chopLink, lastDot_append hdot, hdot]
      dsimp only
      rw [List.drop_length_add_append, List.take_length_add_append]
      split_ifs
      · rfl
      · rfl

theorem dotKept_iff (b : List UInt8) : DotKept b ↔ (chopLink b).length = b.length := by
  refine ⟨fun h => congrArg List.length (chopLink_of_kept h), fun h => ?_⟩
  by_contra hlost
  exact absurd h (chopLink_lt hlost).ne

theorem length_chopLink_le (b : List UInt8) : (chopLink b).length ≤ b.length := by
  unfold chopLink
  split
  · split_ifs
    · exact List.length_take_le' _ _
    · exact Nat.le_refl _
  · exact Nat.le_refl _

/-- Something is a prefix of what is left of a string if it does not reach into
the extension. -/
theorem begins_chopLink_iff {k b : List UInt8} (hk : k <+: b) :
    k <+: chopLink b ↔
      ∀ i, lastDot b = some i → (b.drop i).take 4 = typeNameLink → k.length ≤ i := by
  cases hdot : lastDot b with
  | none =>
      rw [chopLink, hdot]
      exact iff_of_true hk (fun i hi => absurd hi (by simp))
  | some j =>
      rw [chopLink, hdot]
      dsimp only
      split_ifs with hlnk
      · rw [List.prefix_take_iff]
        constructor
        · rintro ⟨-, hle⟩ i hi -
          exact Option.some.inj hi ▸ hle
        · exact fun h => ⟨hk, h j rfl hlnk⟩
      · refine iff_of_true hk (fun i hi h => ?_)
        exact absurd (Option.some.inj hi ▸ h) hlnk

/-! ### What is lost -/

theorem lost_eq {b l : List UInt8} {n : Nat}
    (h : spell (b.take n) ++ l = chopLink (spell b)) : lost b n = l := by
  rw [lost, ← h, List.drop_left]

/-- Where something is lost, all the bytes that are counted have been looked
at. -/
theorem lt_length_of_lost {b l : List UInt8} {n : Nat}
    (h : spell (b.take n) ++ l = chopLink (spell b)) (hl : l ≠ []) : n < b.length := by
  by_contra hle
  have hlength := congrArg List.length h
  have hchop := length_chopLink_le (spell b)
  have hpos := List.length_pos_of_ne_nil hl
  rw [List.length_append, List.take_of_length_le (Nat.le_of_not_lt hle)] at hlength
  omega

/-- With the prefix and the colons counted, what is lost does not fit exactly
if it is more than the colons. -/
theorem lost_fits_iff {b l : List UInt8} {n p : Nat} {size : Int} (hp : (p : Int) < size)
    (hn : (size - p - 1).toNat = n) (h : spell (b.take n) ++ l = chopLink (spell b)) :
    ((p : Int) + (chopLink (spell b)).length + 1 ≤ size → l = []) ↔
      (l = [] ∨ (b.take n).count 58 < l.length) := by
  rcases eq_or_ne l [] with rfl | hl
  · simp
  · have hlt := lt_length_of_lost h hl
    have hcount := length_spell (b.take n)
    rw [List.length_take, Nat.min_eq_left hlt.le] at hcount
    rw [← h, List.length_append]
    constructor
    · intro hfits
      refine .inr ?_
      by_contra hle
      exact hl (hfits (by omega))
    · rintro (hnil | hmore) hfits
      · exact hnil
      · omega

theorem mem_of_mem_chopLink {c : UInt8} {b : List UInt8} (h : c ∈ chopLink b) : c ∈ b := by
  rw [chopLink] at h
  split at h
  · split_ifs at h
    · exact List.mem_of_mem_take h
    · exact h
  · exact h

/-- A translation has what is written in front of a name, slashes, and what the name has but
for its colons. -/
theorem not_mem_translation {c : UInt8} (hmnt : c ∉ mntPrefix) (hproc : c ∉ procPrefix)
    {source : List UInt16} (hc : c = 58 ∨ c ∉ copied (converted source)) :
    c ∉ translation source := by
  intro hmem
  rcases List.mem_append.mp (mem_of_mem_chopLink hmem) with h | h
  · exact not_mem_leading hmnt hproc _ h
  · obtain ⟨x, hx, hreplaced⟩ := List.mem_map.mp h
    obtain ⟨hxmem, hcolon⟩ := List.mem_filter.mp hx
    rw [replace] at hreplaced
    split_ifs at hreplaced
    · -- a slash is written in front of every name
      exact hmnt (hreplaced ▸ show (47 : UInt8) ∈ mntPrefix by decide)
    · rw [hreplaced] at hxmem hcolon
      rcases hc with rfl | hc
      · exact absurd hcolon (by decide)
      · exact hc hxmem

/-! ### One call -/

section

variable {source : List UInt16} {size : Int}

theorem zero_not_mem_converted (hsource : 0 ∉ source) : 0 ∉ converted source :=
  zero_not_mem_narrow (zero_not_mem_stripRoot hsource)

theorem converted_ne_nil (hnamed : stripRoot source ≠ []) : converted source ≠ [] := by
  have hle := length_le_narrow (stripRoot source)
  have hpos := List.length_pos_of_ne_nil hnamed
  exact List.ne_nil_of_length_pos (Nat.lt_of_lt_of_le hpos hle)

/-- The string that is written for a name that fits. -/
theorem outPosix_fits (hsource : 0 ∉ source) (hnamed : stripRoot source ≠ [])
    (hfits : ((converted source).length : Int) + 1 ≤ size) (junk : List UInt8) :
    outPosix junk source size = leading (converted source) ++
      spell ((copied (converted source)).take
        (size - (leading (converted source)).length - 1).toNat) := by
  have hnarrowed : narrowed junk (stripRoot source) size = converted source ++ 0 :: junk := by
    have hwcs : winWcstombs (stripRoot source) size = some (converted source) := if_pos hfits
    rw [narrowed, hwcs]
  rw [outPosix_eq, hnarrowed, guessPosix_append_zero (converted_ne_nil hnamed)]
  dsimp only
  rw [copyPosix_eq_spell (zero_not_mem_copied (zero_not_mem_converted hsource))]

/-- A call whose name fits serves its caller exactly if there is room for the
prefix and the name is cut well. -/
theorem prefixed_iff (hsource : 0 ∉ source) (hnamed : stripRoot source ≠ [])
    (hfits : ((converted source).length : Int) + 1 ≤ size) (junk dest : List UInt8) :
    Prefixed source size (pathnpPosix junk dest source size) ↔
      ((leading (converted source)).length : Int) < size ∧
        CutWell (copied (converted source))
          (size - (leading (converted source)).length - 1).toNat := by
  have hout := outPosix_fits hsource hnamed hfits junk
  have hend : (pathnpPosix junk dest source size).2 = (outPosix junk source size).length := rfl
  have htext := text_pathnpPosix junk dest source size
  rw [hout] at hend htext
  rw [List.length_append] at hend
  rw [chopLink_append (dot_not_mem_leading _)] at htext
  have htrans : translation source =
      leading (converted source) ++ chopLink (spell (copied (converted source))) :=
    chopLink_append (dot_not_mem_leading _) _
  generalize pathnpPosix junk dest source size = r at hend htext ⊢
  generalize leading (converted source) = p at hend htext htrans ⊢
  generalize copied (converted source) = b at hend htext htrans ⊢
  generalize hn : (size - p.length - 1).toNat = n at hend htext ⊢
  have hbegins : spell (b.take n) <+: spell b := by
    have happend := spell_append (b.take n) (b.drop n)
    rw [List.take_append_drop] at happend
    exact happend ▸ List.prefix_append _ _
  constructor
  · intro h
    have hleads : (p.length : Int) < size := by
      have hinRoom := h.inRoom
      omega
    -- the end was told before the extension was taken off
    have hkept : DotKept (spell (b.take n)) := by
      have hatEnd := h.atEnd
      rw [hend, htext, List.length_append] at hatEnd
      exact (dotKept_iff _).mpr (by omega)
    have hcut := h.begins
    rw [htext, htrans, List.prefix_append_right_inj, chopLink_of_kept hkept] at hcut
    refine ⟨hleads, hkept, (begins_chopLink_iff hbegins).mp hcut, ?_⟩
    -- what is lost is compared with the colons, which the size was charged for
    obtain ⟨l, hl⟩ := hcut
    rw [lost_eq hl]
    refine (lost_fits_iff hleads hn hl).mp (fun hfits => ?_)
    have hwhole := h.whole
    rw [htext, htrans, chopLink_of_kept hkept, List.length_append] at hwhole
    have hall := List.append_cancel_left (hwhole (by omega))
    rw [← hl] at hall
    simpa using hall
  · rintro ⟨hleads, hkept, hapart, hmore⟩
    obtain ⟨l, hl⟩ := (begins_chopLink_iff hbegins).mpr hapart
    rw [lost_eq hl] at hmore
    rw [chopLink_of_kept hkept] at htext
    have hcount := length_spell (b.take n)
    have htake := List.length_take_le n b
    refine ⟨by omega, ?_, fun hfits => ?_, by rw [hend, htext, List.length_append]⟩
    · rw [htext, htrans, List.prefix_append_right_inj]
      exact ⟨l, hl⟩
    · rw [htrans, List.length_append] at hfits
      have hnil := (lost_fits_iff hleads hn hl).mpr hmore (by omega)
      rw [htext, htrans, ← hl, hnil, List.append_nil]

end

/-! ### Names that do not fit -/

section

variable {source : List UInt16} {size : Int}

/-- A character that is copied as it is, wherever it stands. -/
def IsLetter (c : UInt8) : Prop := 97 ≤ c ∧ c ≤ 122

instance (c : UInt8) : Decidable (IsLetter c) := inferInstanceAs (Decidable (_ ∧ _))

theorem IsLetter.ne {c : UInt8} (hc : IsLetter c) {x : UInt8} (hx : ¬ IsLetter x) : c ≠ x :=
  fun h => hx (h ▸ hc)

theorem guessPosix_letter {c : UInt8} (hc : IsLetter c) :
    guessPosix [c, 0] size = ([], [c, 0], size) := by
  have hback : ¬ [c, 0].getD 0 0 = 92 := hc.ne (by decide)
  have hsecond : ∀ x : UInt8, x ≠ 0 → ¬ [c, 0].getD 1 0 = x := fun _ hx => hx.symm
  rw [guessPosix, if_neg (hsecond 58 (by decide)), if_neg hback, if_neg (hsecond 92 (by decide))]

theorem copyPosix_letter {c : UInt8} (hc : IsLetter c) (hsize : 2 ≤ size) :
    copyPosix size [c, 0] = [c] := by
  rw [copyPosix, if_neg (hc.ne (by decide)), if_neg (by omega), if_neg (hc.ne (by decide)), replace,
    if_neg (hc.ne (by decide))]
  rfl

/-- What is copied instead of a name that does not fit was in the buffer before:
a drive, for which there is no room, or one of two letters. -/
theorem fits_of_prefixed (h : ∀ junk, Prefixed source size (pathnpPosix junk [] source size)) :
    ((converted source).length : Int) + 1 ≤ size := by
  by_contra hfits
  have hnarrowed : ∀ junk, narrowed junk (stripRoot source) size = junk := by
    intro junk
    have hwcs : winWcstombs (stripRoot source) size = none := if_neg hfits
    rw [narrowed, hwcs]
  by_cases hroom : size < 6
  · have hinRoom := (h [97, 58]).inRoom
    have hend : (pathnpPosix [97, 58] [] source size).2 = (outPosix [97, 58] source size).length :=
      rfl
    have hlead : 5 ≤ (outPosix [97, 58] source size).length := by
      rw [outPosix_eq, hnarrowed, List.length_append]
      exact Nat.le_add_right _ _
    omega
  · have hletter : ∀ c : UInt8, IsLetter c → [c] <+: translation source := by
      intro c hc
      have hbegins := (h [c, 0]).begins
      have htwo : 2 ≤ size := by omega
      have hdot : 46 ∉ [c] := List.mem_singleton.not.mpr (hc.ne (by decide)).symm
      rwa [text_pathnpPosix, outPosix_eq, hnarrowed, guessPosix_letter hc, List.nil_append,
        copyPosix_letter hc htwo, chopLink_of_kept (dotKept_of_not_mem hdot)] at hbegins
    obtain ⟨x, hx⟩ := hletter 97 (by decide)
    obtain ⟨y, hy⟩ := hletter 98 (by decide)
    rw [← hx] at hy
    exact absurd (List.cons.inj hy).1 (by decide)

/-- Of an empty name the second byte of the buffer is read, which may be that of
a drive. -/
theorem named_of_prefixed (h : ∀ junk, Prefixed source size (pathnpPosix junk [] source size)) :
    stripRoot source ≠ [] := by
  intro hempty
  have hnil : converted source = [] := by
    rw [converted, hempty]
    rfl
  have hfits := fits_of_prefixed h
  have hnarrowed : narrowed [58] (stripRoot source) size = [0, 58] := by
    have hwcs : winWcstombs (stripRoot source) size = some (converted source) := if_pos hfits
    rw [narrowed, hwcs, hnil]
    rfl
  have hbegins := (h [58]).begins
  have hout : outPosix [58] source size = mntPrefix := by
    rw [outPosix_eq, hnarrowed]
    rfl
  have htrans : translation source = [] := by
    rw [translation, hnil]
    rfl
  rw [text_pathnpPosix, hout, htrans] at hbegins
  exact absurd (List.prefix_nil.mp hbegins) (by decide)

end

/-! ### Every call -/

/-- Whatever was in the buffers, a caller gets as much of the translation as
there is room for, and its end, exactly if the name can be afforded. -/
theorem pathnpPosix_prefixed_iff (pathMax : Nat) {source : List UInt16} (hsource : 0 ∉ source)
    (size : Int) :
    (∀ dest r, MayLeave pathMax dest source size r → Prefixed source size r) ↔
      Affords pathMax source size := by
  constructor
  · intro h
    have hcall : ∀ junk, Prefixed source size (pathnpPosix junk [] source size) :=
      fun junk => h [] _ (.inl ⟨junk, rfl⟩)
    have hfits := fits_of_prefixed hcall
    have hnamed := named_of_prefixed hcall
    obtain ⟨hleads, hcut⟩ := (prefixed_iff hsource hnamed hfits [] []).mp (hcall [])
    refine ⟨hnamed, hfits, ?_, hleads, hcut⟩
    -- behind the end of the buffer anything may be left, so that the end is wrong
    by_contra hover
    have hend := (h [] ([], 1) (.inr ⟨Nat.lt_of_not_le hover, hfits⟩)).atEnd
    exact absurd hend (by decide)
  · rintro ⟨hnamed, hfits, hbuffer, hleads, hcut⟩ dest r (⟨junk, rfl⟩ | ⟨hover, -⟩)
    · exact (prefixed_iff hsource hnamed hfits junk dest).mpr ⟨hleads, hcut⟩
    · exact absurd hbuffer (Nat.not_le_of_lt hover)

theorem affords_drive : Affords 1024 [67, 58, 92, 97] 10 :=
  ⟨by decide, by decide, by decide, by decide, dotKept_of_not_mem (by decide),
    fun i hi => absurd hi (by rw [lastDot_eq_none_iff.mpr (by decide)]; simp), by decide⟩

/-- `C:\a` in nine bytes and a byte more: all of its translation. -/
theorem pathnpPosix_prefixed_iff_drive :
    Affords 1024 [67, 58, 92, 97] 10 ∧
      Prefixed [67, 58, 92, 97] 10 (pathnpPosix [] [] [67, 58, 92, 97] 10) :=
  ⟨affords_drive,
    (pathnpPosix_prefixed_iff 1024 (by decide) 10).mpr affords_drive [] _ (.inl ⟨[], rfl⟩)⟩

/-- The end of `a.lnk` is not where its text ends; there is no room for the
prefix of `C:` in three bytes, and one byte too few for all of `C:\a` in nine;
and of a name that does not fit nothing is seen. -/
theorem names_not_prefixed :
    ¬ Prefixed [97, 46, 108, 110, 107] 1024 (pathnpPosix [] [] [97, 46, 108, 110, 107] 1024) ∧
    ¬ Prefixed [67, 58] 3 (pathnpPosix [] [] [67, 58] 3) ∧
    ¬ Prefixed [67, 58, 92, 97] 9 (pathnpPosix [] [] [67, 58, 92, 97] 9) ∧
    ¬ Prefixed [97, 98] 2 (pathnpPosix [98, 0] [] [97, 98] 2) := by
  refine ⟨fun h => ?_, fun h => ?_, fun h => ?_, fun h => ?_⟩
  · exact absurd h.atEnd (by decide)
  · exact absurd h.inRoom (by decide)
  · exact absurd (h.whole (by decide)) (by decide)
  · exact absurd h.begins (by decide)

end MinC.Sys
