import Mathlib.Data.List.Basic

/-!
Texts in UTF-8 and UTF-16.

What is ill-formed decodes to the replacement character: in UTF-8 one for every
maximal part of a sequence, in UTF-16 one for every surrogate without its other
half. Decoding an encoded text gives the text back, and an ASCII character is
found in an encoded text only where it is meant.
-/

namespace MinC.Lib

/-- What an ill-formed part decodes to. -/
def replacement : Char := Char.ofNat 0xFFFD

/-! ### UTF-8 -/

def encodeUtf8 (cs : List Char) : List UInt8 := cs.flatMap String.utf8EncodeChar

/-- The text is UTF-8. -/
def IsUtf8 (b : List UInt8) : Prop := ∃ cs, b = encodeUtf8 cs

def isTail (x : UInt8) : Bool := 0x80 ≤ x && x ≤ 0xBF

/-- The second bytes of the sequences of three and four bytes. -/
def mayFollow (lead second : UInt8) : Bool :=
  if lead = 0xE0 then 0xA0 ≤ second && second ≤ 0xBF
  else if lead = 0xED then 0x80 ≤ second && second ≤ 0x9F
  else if lead = 0xF0 then 0x90 ≤ second && second ≤ 0xBF
  else if lead = 0xF4 then 0x80 ≤ second && second ≤ 0x8F
  else 0xE0 ≤ lead && lead ≤ 0xF4 && isTail second

/-- The length of the start of a sequence that is broken off. -/
def subpart : List UInt8 → Nat
  | lead :: second :: third :: _ =>
      if mayFollow lead second then if 0xF0 ≤ lead && isTail third then 3 else 2 else 1
  | [lead, second] => if mayFollow lead second then 2 else 1
  | _ => 1

def decodeUtf8Aux : Nat → List UInt8 → List Char
  | 0, _ => []
  | _, [] => []
  | n + 1, b =>
      match b.toByteArray.utf8DecodeChar? 0 with
      | some c => c :: decodeUtf8Aux n (b.drop c.utf8Size)
      | none => replacement :: decodeUtf8Aux n (b.drop (subpart b))

def decodeUtf8 (b : List UInt8) : List Char := decodeUtf8Aux b.length b

@[simp] theorem encodeUtf8_nil : encodeUtf8 [] = [] := rfl

@[simp] theorem encodeUtf8_cons (c : Char) (cs : List Char) :
    encodeUtf8 (c :: cs) = String.utf8EncodeChar c ++ encodeUtf8 cs := rfl

theorem decodeChar_encodeChar (c : Char) (b : List UInt8) :
    (String.utf8EncodeChar c ++ b).toByteArray.utf8DecodeChar? 0 = some c := by
  rw [List.toByteArray_append]
  exact ByteArray.utf8DecodeChar?_utf8EncodeChar_append

/-- A decoded character stands encoded at the front. -/
theorem encodeChar_at_front {b : List UInt8} {c : Char}
    (h : b.toByteArray.utf8DecodeChar? 0 = some c) : String.utf8EncodeChar c <+: b := by
  obtain ⟨rest, hrest⟩ := ByteArray.exists_of_utf8DecodeChar?_eq_some h
  have hlist := congrArg (fun x => x.data.toList) hrest
  simp only [ByteArray.data_append, List.data_toByteArray, Array.toList_append] at hlist
  exact ⟨rest.data.toList, hlist.symm⟩

theorem decodeUtf8Aux_encodeUtf8 (cs : List Char) (n : Nat) (hn : (encodeUtf8 cs).length ≤ n) :
    decodeUtf8Aux n (encodeUtf8 cs) = cs := by
  induction cs generalizing n with
  | nil => cases n <;> rfl
  | cons c cs ih =>
      have hpos := c.utf8Size_pos
      have hlen : (encodeUtf8 (c :: cs)).length = c.utf8Size + (encodeUtf8 cs).length := by simp
      obtain ⟨n, rfl⟩ : ∃ k, n = k + 1 := ⟨n - 1, by omega⟩
      obtain ⟨x, xs, hx⟩ : ∃ x xs, encodeUtf8 (c :: cs) = x :: xs :=
        List.exists_cons_of_length_pos (by omega)
      have hdrop : (encodeUtf8 (c :: cs)).drop c.utf8Size = encodeUtf8 cs := by
        rw [encodeUtf8_cons, ← String.length_utf8EncodeChar, List.drop_left]
      rw [hx, decodeUtf8Aux, ← hx]
      · rw [encodeUtf8_cons, decodeChar_encodeChar, ← encodeUtf8_cons]
        simp only
        rw [hdrop, ih n (by omega)]
      · simp

@[simp] theorem decodeUtf8_encodeUtf8 (cs : List Char) : decodeUtf8 (encodeUtf8 cs) = cs :=
  decodeUtf8Aux_encodeUtf8 cs _ (Nat.le_refl _)

/-! ### ASCII in UTF-8 -/

/-- Put one value in the place of another. -/
def replace {α : Type*} [DecidableEq α] (a b x : α) : α := if x = a then b else x

def IsAscii (c : Char) : Prop := c.toNat < 128

instance (c : Char) : Decidable (IsAscii c) := inferInstanceAs (Decidable (_ < _))

theorem encodeChar_of_ascii {c : Char} (h : IsAscii c) :
    String.utf8EncodeChar c = [UInt8.ofNat c.toNat] := by
  have hle : c.val.toNat ≤ 0x7f := Nat.le_of_lt_succ h
  simp only [String.utf8EncodeChar, hle, if_true]
  rfl

/-- All bytes of a character outside of ASCII are outside of ASCII. -/
theorem le_of_mem_encodeChar {c : Char} (h : ¬ IsAscii c) {x : UInt8}
    (hx : x ∈ String.utf8EncodeChar c) : 128 ≤ x.toNat := by
  have hnot : ¬ c.val.toNat ≤ 0x7f := by
    intro hle
    exact h (Nat.lt_succ_of_le hle)
  simp only [String.utf8EncodeChar, hnot, if_false] at hx
  split_ifs at hx <;> simp only [List.mem_cons, List.not_mem_nil, or_false] at hx <;>
    rcases hx with rfl | rfl | rfl | rfl <;> simp only [UInt8.toNat_ofNat'] <;> omega

theorem ofNat_toNat_inj {a c : Char} (ha : IsAscii a) (hc : IsAscii c) :
    UInt8.ofNat c.toNat = UInt8.ofNat a.toNat ↔ c = a := by
  refine ⟨fun h => ?_, fun h => by rw [h]⟩
  have hnat := congrArg UInt8.toNat h
  rw [UInt8.toNat_ofNat_of_lt' (Nat.lt_trans hc (by decide)),
    UInt8.toNat_ofNat_of_lt' (Nat.lt_trans ha (by decide))] at hnat
  exact Char.toNat_inj.mp hnat

/-- Putting one ASCII character in the place of another is the same on the
bytes and on the text. -/
theorem map_encodeChar {a b : Char} (ha : IsAscii a) (hb : IsAscii b) (c : Char) :
    (String.utf8EncodeChar c).map (replace (UInt8.ofNat a.toNat) (UInt8.ofNat b.toNat)) =
      String.utf8EncodeChar (replace a b c) := by
  by_cases hc : IsAscii c
  · rw [encodeChar_of_ascii hc, List.map_singleton]
    simp only [replace, ofNat_toNat_inj ha hc]
    split_ifs
    · rw [encodeChar_of_ascii hb]
    · rw [encodeChar_of_ascii hc]
  · have hne : c ≠ a := by
      rintro rfl
      exact hc ha
    have hbytes : ∀ x ∈ String.utf8EncodeChar c,
        replace (UInt8.ofNat a.toNat) (UInt8.ofNat b.toNat) x = x := by
      intro x hx
      refine if_neg ?_
      rintro rfl
      have hle := le_of_mem_encodeChar hc hx
      rw [UInt8.toNat_ofNat_of_lt' (Nat.lt_trans ha (by decide))] at hle
      exact Nat.not_lt.mpr hle ha
    rw [replace, if_neg hne]
    exact List.map_congr_left hbytes |>.trans (List.map_id _)

theorem map_encodeUtf8 {a b : Char} (ha : IsAscii a) (hb : IsAscii b) (cs : List Char) :
    (encodeUtf8 cs).map (replace (UInt8.ofNat a.toNat) (UInt8.ofNat b.toNat)) =
      encodeUtf8 (cs.map (replace a b)) := by
  induction cs with
  | nil => rfl
  | cons c cs ih =>
      rw [encodeUtf8_cons, List.map_append, map_encodeChar ha hb, ih, List.map_cons,
        encodeUtf8_cons]

/-- An ASCII character is found in an encoded text only where it is meant. -/
theorem mem_encodeUtf8_iff {a : Char} (ha : IsAscii a) {cs : List Char} :
    UInt8.ofNat a.toNat ∈ encodeUtf8 cs ↔ a ∈ cs := by
  constructor
  · intro h
    obtain ⟨c, hc, hmem⟩ := List.mem_flatMap.mp h
    have hascii : IsAscii c := by
      by_contra hnot
      have hle := le_of_mem_encodeChar hnot hmem
      rw [UInt8.toNat_ofNat_of_lt' (Nat.lt_trans ha (by decide))] at hle
      exact Nat.not_lt.mpr hle ha
    rw [encodeChar_of_ascii hascii, List.mem_singleton, ofNat_toNat_inj hascii ha] at hmem
    rwa [hmem]
  · intro h
    refine List.mem_flatMap.mpr ⟨a, h, ?_⟩
    rw [encodeChar_of_ascii ha]
    exact List.mem_singleton.mpr rfl

theorem mem_of_mem_decodeUtf8Aux {a : Char} (ha : IsAscii a) (n : Nat) (b : List UInt8)
    (h : a ∈ decodeUtf8Aux n b) : UInt8.ofNat a.toNat ∈ b := by
  induction n generalizing b with
  | zero => simp [decodeUtf8Aux] at h
  | succ n ih =>
      cases b with
      | nil => simp [decodeUtf8Aux] at h
      | cons x xs =>
          rw [decodeUtf8Aux] at h
          · split at h
            · rename_i c hc
              rcases List.mem_cons.mp h with rfl | h
              · refine (encodeChar_at_front hc).subset ?_
                rw [encodeChar_of_ascii ha]
                exact List.mem_singleton.mpr rfl
              · exact List.mem_of_mem_drop (ih _ h)
            · rcases List.mem_cons.mp h with rfl | h
              · exact absurd ha (by decide)
              · exact List.mem_of_mem_drop (ih _ h)
          · simp

/-- An ASCII character of a decoded text is a byte of it. -/
theorem mem_of_mem_decodeUtf8 {a : Char} (ha : IsAscii a) {b : List UInt8}
    (h : a ∈ decodeUtf8 b) : UInt8.ofNat a.toNat ∈ b :=
  mem_of_mem_decodeUtf8Aux ha _ b h

theorem decodeUtf8_cons_ascii {c : Char} (hc : IsAscii c) (b : List UInt8) :
    decodeUtf8 (UInt8.ofNat c.toNat :: b) = c :: decodeUtf8 b := by
  have hdecode := decodeChar_encodeChar c b
  have hsize : c.utf8Size = 1 := by
    rw [← String.length_utf8EncodeChar, encodeChar_of_ascii hc, List.length_singleton]
  rw [encodeChar_of_ascii hc, List.singleton_append] at hdecode
  rw [decodeUtf8, List.length_cons, decodeUtf8Aux]
  · rw [hdecode]
    simp only
    rw [hsize]
    rfl
  · simp

/-! ### UTF-16 -/

/-- The units of a character. -/
def encodeUnit (c : Char) : List UInt16 :=
  if c.toNat < 0x10000 then [UInt16.ofNat c.toNat]
  else [UInt16.ofNat (0xD800 + (c.toNat - 0x10000) / 0x400),
    UInt16.ofNat (0xDC00 + (c.toNat - 0x10000) % 0x400)]

def encodeUtf16 (cs : List Char) : List UInt16 := cs.flatMap encodeUnit

def isHigh (u : UInt16) : Bool := 0xD800 ≤ u && u < 0xDC00
def isLow (u : UInt16) : Bool := 0xDC00 ≤ u && u < 0xE000

def decodeUtf16 : List UInt16 → List Char
  | [] => []
  | [u] => if isHigh u || isLow u then [replacement] else [Char.ofNat u.toNat]
  | u :: v :: rest =>
      if isHigh u then
        if isLow v then
          Char.ofNat (0x10000 + (u.toNat - 0xD800) * 0x400 + (v.toNat - 0xDC00)) ::
            decodeUtf16 rest
        else replacement :: decodeUtf16 (v :: rest)
      else if isLow u then replacement :: decodeUtf16 (v :: rest)
      else Char.ofNat u.toNat :: decodeUtf16 (v :: rest)

@[simp] theorem encodeUtf16_nil : encodeUtf16 [] = [] := rfl

@[simp] theorem encodeUtf16_cons (c : Char) (cs : List Char) :
    encodeUtf16 (c :: cs) = encodeUnit c ++ encodeUtf16 cs := rfl

theorem decodeUtf16_cons {u : UInt16} (hhigh : isHigh u = false) (hlow : isLow u = false)
    (us : List UInt16) : decodeUtf16 (u :: us) = Char.ofNat u.toNat :: decodeUtf16 us := by
  cases us with
  | nil => simp [decodeUtf16, hhigh, hlow]
  | cons v rest => simp [decodeUtf16, hhigh, hlow]

theorem toNat_lt (c : Char) : c.toNat < 0xD800 ∨ (0xDFFF < c.toNat ∧ c.toNat < 0x110000) :=
  c.valid

theorem decodeUtf16_encodeUnit (c : Char) (us : List UInt16) :
    decodeUtf16 (encodeUnit c ++ us) = c :: decodeUtf16 us := by
  have hvalid := toNat_lt c
  by_cases hc : c.toNat < 0x10000
  · have hnat : (UInt16.ofNat c.toNat).toNat = c.toNat := UInt16.toNat_ofNat_of_lt' hc
    rw [encodeUnit, if_pos hc, List.singleton_append, decodeUtf16_cons, hnat, Char.ofNat_toNat]
    · simp only [isHigh, UInt16.le_iff_toNat_le, UInt16.lt_iff_toNat_lt, hnat]
      simp
      omega
    · simp only [isLow, UInt16.le_iff_toNat_le, UInt16.lt_iff_toNat_lt, hnat]
      simp
      omega
  -- a character behind the first plane is a pair, which is put together again
  · have hhi : (UInt16.ofNat (0xD800 + (c.toNat - 0x10000) / 0x400)).toNat =
        0xD800 + (c.toNat - 0x10000) / 0x400 :=
      UInt16.toNat_ofNat_of_lt' (show _ < 65536 by omega)
    have hlo : (UInt16.ofNat (0xDC00 + (c.toNat - 0x10000) % 0x400)).toNat =
        0xDC00 + (c.toNat - 0x10000) % 0x400 :=
      UInt16.toNat_ofNat_of_lt' (show _ < 65536 by omega)
    have hhigh : isHigh (UInt16.ofNat (0xD800 + (c.toNat - 0x10000) / 0x400)) = true := by
      simp only [isHigh, UInt16.le_iff_toNat_le, UInt16.lt_iff_toNat_lt, hhi]
      simp
      omega
    have hlow : isLow (UInt16.ofNat (0xDC00 + (c.toNat - 0x10000) % 0x400)) = true := by
      simp only [isLow, UInt16.le_iff_toNat_le, UInt16.lt_iff_toNat_lt, hlo]
      simp
      omega
    have hsum : 0x10000 + (0xD800 + (c.toNat - 0x10000) / 0x400 - 0xD800) * 0x400 +
        (0xDC00 + (c.toNat - 0x10000) % 0x400 - 0xDC00) = c.toNat := by omega
    rw [encodeUnit, if_neg hc, List.cons_append, List.singleton_append, decodeUtf16, if_pos hhigh,
      if_pos hlow, hhi, hlo, hsum, Char.ofNat_toNat]

@[simp] theorem decodeUtf16_encodeUtf16 (cs : List Char) : decodeUtf16 (encodeUtf16 cs) = cs := by
  induction cs with
  | nil => rfl
  | cons c cs ih => rw [encodeUtf16_cons, decodeUtf16_encodeUnit, ih]

/-! ### ASCII in UTF-16 -/

theorem encodeUnit_of_ascii {c : Char} (h : IsAscii c) :
    encodeUnit c = [UInt16.ofNat c.toNat] :=
  if_pos (Nat.lt_trans h (by decide))

theorem eq_of_mem_encodeUnit {a c : Char} (ha : IsAscii a)
    (h : UInt16.ofNat a.toNat ∈ encodeUnit c) : a = c := by
  have hvalid := toNat_lt c
  have ha' : a.toNat < 128 := ha
  have hnat : (UInt16.ofNat a.toNat).toNat = a.toNat :=
    UInt16.toNat_ofNat_of_lt' (show _ < 65536 by omega)
  rw [encodeUnit] at h
  split_ifs at h with hc
  · have hval := congrArg UInt16.toNat (List.mem_singleton.mp h)
    rw [hnat, UInt16.toNat_ofNat_of_lt' hc] at hval
    exact Char.toNat_inj.mp hval
  · simp only [List.mem_cons, List.not_mem_nil, or_false] at h
    rcases h with h | h
    · have hval := congrArg UInt16.toNat h
      rw [hnat, UInt16.toNat_ofNat_of_lt' (show _ < 65536 by omega)] at hval
      omega
    · have hval := congrArg UInt16.toNat h
      rw [hnat, UInt16.toNat_ofNat_of_lt' (show _ < 65536 by omega)] at hval
      omega

theorem encodeUnit_ne_nil (c : Char) : encodeUnit c ≠ [] := by
  rw [encodeUnit]
  split_ifs <;> exact List.cons_ne_nil _ _

theorem head_of_encodeUtf16 {a : Char} (ha : IsAscii a) {cs : List Char}
    (h : (encodeUtf16 cs).head? = some (UInt16.ofNat a.toNat)) : cs.head? = some a := by
  cases cs with
  | nil => cases h
  | cons c cs =>
      rw [encodeUtf16_cons, List.head?_append_of_ne_nil _ (encodeUnit_ne_nil c)] at h
      exact congrArg some (eq_of_mem_encodeUnit ha (List.mem_of_mem_head? h)).symm

theorem mem_encodeUtf16_iff {a : Char} (ha : IsAscii a) {cs : List Char} :
    UInt16.ofNat a.toNat ∈ encodeUtf16 cs ↔ a ∈ cs := by
  constructor
  · intro h
    obtain ⟨c, hc, hmem⟩ := List.mem_flatMap.mp h
    rwa [eq_of_mem_encodeUnit ha hmem]
  · intro h
    refine List.mem_flatMap.mpr ⟨a, h, ?_⟩
    rw [encodeUnit_of_ascii ha]
    exact List.mem_singleton.mpr rfl

theorem map_encodeUnit {a b : Char} (ha : IsAscii a) (hb : IsAscii b) (c : Char) :
    (encodeUnit c).map (replace (UInt16.ofNat a.toNat) (UInt16.ofNat b.toNat)) =
      encodeUnit (replace a b c) := by
  by_cases hc : c = a
  · subst hc
    rw [encodeUnit_of_ascii ha, replace, if_pos rfl, encodeUnit_of_ascii hb]
    simp [replace]
  · have hunits : ∀ x ∈ encodeUnit c,
        replace (UInt16.ofNat a.toNat) (UInt16.ofNat b.toNat) x = x := by
      intro x hx
      refine if_neg ?_
      rintro rfl
      exact hc (eq_of_mem_encodeUnit ha hx).symm
    rw [replace, if_neg hc]
    exact List.map_congr_left hunits |>.trans (List.map_id _)

theorem map_encodeUtf16 {a b : Char} (ha : IsAscii a) (hb : IsAscii b) (cs : List Char) :
    (encodeUtf16 cs).map (replace (UInt16.ofNat a.toNat) (UInt16.ofNat b.toNat)) =
      encodeUtf16 (cs.map (replace a b)) := by
  induction cs with
  | nil => rfl
  | cons c cs ih =>
      rw [encodeUtf16_cons, List.map_append, map_encodeUnit ha hb, ih, List.map_cons,
        encodeUtf16_cons]

theorem toNat_ofNat_char {n : Nat} (h : n.isValidChar) : (Char.ofNat n).toNat = n := by
  rw [Char.ofNat, dif_pos h]
  rfl

theorem toNat_ofNat_unit {u : UInt16} (hhigh : ¬ isHigh u = true) (hlow : ¬ isLow u = true) :
    (Char.ofNat u.toNat).toNat = u.toNat := by
  have hlt : u.toNat < 65536 := u.toNat_lt
  refine toNat_ofNat_char ?_
  simp [isHigh, isLow, UInt16.le_iff_toNat_le, UInt16.lt_iff_toNat_lt] at hhigh hlow
  by_cases h : u.toNat < 0xD800
  · exact .inl h
  · exact .inr ⟨by omega, by omega⟩

theorem ofNat_of_eq_ofNat_char {a : Char} {u : UInt16} (hhigh : ¬ isHigh u = true)
    (hlow : ¬ isLow u = true) (h : a = Char.ofNat u.toNat) : UInt16.ofNat a.toNat = u := by
  rw [h, toNat_ofNat_unit hhigh hlow, UInt16.ofNat_toNat]

theorem not_ascii_replacement : ¬ IsAscii replacement := by decide

/-- The character of two surrogates is outside of ASCII. -/
theorem not_ascii_pair {u v : UInt16} (hu : isHigh u = true) (hv : isLow v = true) :
    ¬ IsAscii (Char.ofNat (0x10000 + (u.toNat - 0xD800) * 0x400 + (v.toNat - 0xDC00))) := by
  simp [isHigh, isLow, UInt16.le_iff_toNat_le, UInt16.lt_iff_toNat_lt] at hu hv
  rw [IsAscii, toNat_ofNat_char]
  · omega
  · exact .inr ⟨by omega, by omega⟩

/-- An ASCII character of a decoded text is a unit of it. -/
theorem mem_of_mem_decodeUtf16 {a : Char} (ha : IsAscii a) (us : List UInt16)
    (h : a ∈ decodeUtf16 us) : UInt16.ofNat a.toNat ∈ us := by
  fun_induction decodeUtf16 us with
  | case1 => exact absurd h List.not_mem_nil
  | case2 u hu =>
      rw [List.mem_singleton] at h
      exact absurd (h ▸ ha) not_ascii_replacement
  | case3 u hu =>
      rw [Bool.or_eq_true, not_or] at hu
      rw [List.mem_singleton] at h
      exact List.mem_singleton.mpr (ofNat_of_eq_ofNat_char hu.1 hu.2 h)
  | case4 u v rest hu hv ih =>
      rcases List.mem_cons.mp h with h | h
      · exact absurd (h ▸ ha) (not_ascii_pair hu hv)
      · exact List.mem_cons_of_mem _ (List.mem_cons_of_mem _ (ih h))
  | case5 u v rest hu hv ih =>
      rcases List.mem_cons.mp h with h | h
      · exact absurd (h ▸ ha) not_ascii_replacement
      · exact List.mem_cons_of_mem _ (ih h)
  | case6 u v rest hu hlow ih =>
      rcases List.mem_cons.mp h with h | h
      · exact absurd (h ▸ ha) not_ascii_replacement
      · exact List.mem_cons_of_mem _ (ih h)
  | case7 u v rest hu hlow ih =>
      rcases List.mem_cons.mp h with h | h
      · exact List.mem_cons.mpr (.inl (ofNat_of_eq_ofNat_char hu hlow h))
      · exact List.mem_cons_of_mem _ (ih h)

/-! ### Lengths -/

theorem encodeChar_length_pos (c : Char) : 0 < (String.utf8EncodeChar c).length := by
  rw [String.length_utf8EncodeChar]
  exact Char.utf8Size_pos c

theorem two_le_encodeChar_length {c : Char} (h : ¬ IsAscii c) :
    2 ≤ (String.utf8EncodeChar c).length := by
  have hpos := Char.utf8Size_pos c
  have hone : c.utf8Size ≠ 1 := by
    rw [ne_eq, Char.utf8Size_eq_one_iff]
    intro hle
    exact h (Nat.lt_succ_of_le (UInt32.le_iff_toNat_le.mp hle))
  rw [String.length_utf8EncodeChar]
  omega

/-- A text has no fewer bytes in UTF-8 than it has units in UTF-16. -/
theorem length_le_encodeUtf8_decodeUtf16 (us : List UInt16) :
    us.length ≤ (encodeUtf8 (decodeUtf16 us)).length := by
  fun_induction decodeUtf16 us with
  | case1 => exact Nat.zero_le _
  | case2 u hu =>
      rw [encodeUtf8_cons, List.length_append]
      exact Nat.le_add_right_of_le (encodeChar_length_pos _)
  | case3 u hu =>
      rw [encodeUtf8_cons, List.length_append]
      exact Nat.le_add_right_of_le (encodeChar_length_pos _)
  | case4 u v rest hu hv ih =>
      have hpair := two_le_encodeChar_length (not_ascii_pair hu hv)
      rw [encodeUtf8_cons, List.length_append, List.length_cons, List.length_cons]
      omega
  | case5 u v rest hu hv ih =>
      have hpos := encodeChar_length_pos replacement
      rw [encodeUtf8_cons, List.length_append, List.length_cons]
      omega
  | case6 u v rest hu hlow ih =>
      have hpos := encodeChar_length_pos replacement
      rw [encodeUtf8_cons, List.length_append, List.length_cons]
      omega
  | case7 u v rest hu hlow ih =>
      have hpos := encodeChar_length_pos (Char.ofNat u.toNat)
      rw [encodeUtf8_cons, List.length_append, List.length_cons]
      omega

theorem encodeChar_length_le (c : Char) : (String.utf8EncodeChar c).length ≤ 4 := by
  rw [String.length_utf8EncodeChar]
  exact Char.utf8Size_le_four c

theorem encodeChar_length_le_three {c : Char} (h : c.toNat < 0x10000) :
    (String.utf8EncodeChar c).length ≤ 3 := by
  have hle : c.val ≤ 0xFFFF := UInt32.le_iff_toNat_le.mpr (Nat.le_of_lt_succ h)
  rw [String.length_utf8EncodeChar, Char.utf8Size]
  split_ifs with hone htwo hthree
  · decide
  · decide
  · exact Nat.le_refl 3
  · exact absurd hle hthree

theorem toNat_ofNat_unit_lt (u : UInt16) : (Char.ofNat u.toNat).toNat < 0x10000 := by
  by_cases hvalid : u.toNat.isValidChar
  · rw [Char.ofNat, dif_pos hvalid]
    exact u.toNat_lt
  · rw [Char.ofNat, dif_neg hvalid]
    exact Nat.zero_lt_succ _

/-- A text has at most three bytes in UTF-8 for a unit in UTF-16. -/
theorem length_encodeUtf8_decodeUtf16_le (us : List UInt16) :
    (encodeUtf8 (decodeUtf16 us)).length ≤ 3 * us.length := by
  have hreplacement := encodeChar_length_le_three (c := replacement) (by decide)
  fun_induction decodeUtf16 us with
  | case1 => exact Nat.zero_le _
  | case2 u hu =>
      rw [encodeUtf8_cons, List.length_append]
      exact hreplacement
  | case3 u hu =>
      rw [encodeUtf8_cons, List.length_append]
      exact encodeChar_length_le_three (toNat_ofNat_unit_lt u)
  | case4 u v rest hu hv ih =>
      have hpair := encodeChar_length_le
        (Char.ofNat (0x10000 + (u.toNat - 0xD800) * 0x400 + (v.toNat - 0xDC00)))
      rw [encodeUtf8_cons, List.length_append, List.length_cons, List.length_cons]
      omega
  | case5 u v rest hu hv ih =>
      rw [encodeUtf8_cons, List.length_append, List.length_cons]
      omega
  | case6 u v rest hu hlow ih =>
      rw [encodeUtf8_cons, List.length_append, List.length_cons]
      omega
  | case7 u v rest hu hlow ih =>
      have hunit := encodeChar_length_le_three (toNat_ofNat_unit_lt u)
      rw [encodeUtf8_cons, List.length_append, List.length_cons]
      omega

theorem length_encodeUnit_le (c : Char) :
    (encodeUnit c).length ≤ (String.utf8EncodeChar c).length := by
  rw [encodeUnit]
  split_ifs with h
  · exact encodeChar_length_pos c
  · refine two_le_encodeChar_length fun hascii => h ?_
    rw [IsAscii] at hascii
    omega

theorem length_decodeUtf8Aux_le (n : Nat) (b : List UInt8) :
    (encodeUtf16 (decodeUtf8Aux n b)).length ≤ b.length := by
  induction n generalizing b with
  | zero => exact Nat.zero_le _
  | succ n ih =>
      cases b with
      | nil => exact Nat.zero_le _
      | cons x xs =>
          rw [decodeUtf8Aux]
          · split
            · rename_i c hc
              -- a character takes no more units than it has bytes
              have hfront := (encodeChar_at_front hc).length_le
              have hunit := length_encodeUnit_le c
              have hrest := ih ((x :: xs).drop c.utf8Size)
              rw [List.length_drop] at hrest
              rw [String.length_utf8EncodeChar] at hfront hunit
              rw [encodeUtf16_cons, List.length_append]
              omega
            -- what is ill-formed becomes one unit, and is at least a byte
            · have hpos : 1 ≤ subpart (x :: xs) := by
                rw [subpart.eq_def]
                split
                · split_ifs <;> decide
                · split_ifs <;> decide
                · exact Nat.le_refl 1
              have hunit : (encodeUnit replacement).length = 1 := rfl
              have hrest := ih ((x :: xs).drop (subpart (x :: xs)))
              rw [List.length_drop, List.length_cons] at hrest
              rw [encodeUtf16_cons, List.length_append, hunit, List.length_cons]
              omega
          · simp

/-- A text has no more units in UTF-16 than it has bytes. -/
theorem length_encodeUtf16_decodeUtf8_le (b : List UInt8) :
    (encodeUtf16 (decodeUtf8 b)).length ≤ b.length :=
  length_decodeUtf8Aux_le b.length b

/-- A text that starts with an ASCII character starts with its byte. -/
theorem head_of_decodeUtf8 {a : Char} (ha : IsAscii a) {b : List UInt8}
    (h : (decodeUtf8 b).head? = some a) : b.head? = some (UInt8.ofNat a.toNat) := by
  cases b with
  | nil => cases h
  | cons x xs =>
      rw [decodeUtf8, List.length_cons, decodeUtf8Aux] at h
      · split at h
        · rename_i c hc
          obtain rfl : c = a := Option.some.inj h
          obtain ⟨rest, hrest⟩ := encodeChar_at_front hc
          rw [← hrest, encodeChar_of_ascii ha]
          rfl
        · obtain rfl : replacement = a := Option.some.inj h
          exact absurd ha not_ascii_replacement
      · simp

end MinC.Lib
