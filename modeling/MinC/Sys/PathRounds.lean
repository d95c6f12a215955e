import MinC.Sys.PathPosix
import MinC.Vfs.Plain

/-!
Absolute paths, to Windows and back.

An absolute path is looked up behind a dot, so that its name starts with a dot
and a separator, and the dot is what is dropped on the way back. What comes
back is the path, with the extension of a program if that is what was found;
but where the last dot of the path is that of `.lnk`, the rest of the path from
there on is lost, wherever in the path that is.
-/

namespace MinC.Sys

open MinC.Lib MinC.Win MinC.Vfs

/-! ### UTF-8 in both forms -/

theorem narrow_encodeUtf16 (cs : List Char) : narrow (encodeUtf16 cs) = encodeUtf8 cs := by
  rw [narrow, decodeUtf16_encodeUtf16]

theorem wide_encodeUtf8 (cs : List Char) : wide (encodeUtf8 cs) = encodeUtf16 cs := by
  rw [wide, decodeUtf8_encodeUtf8]

theorem map_replace_of_not_mem {α : Type*} [DecidableEq α] {a b : α} {l : List α} (h : a ∉ l) :
    l.map (replace a b) = l := by
  conv_rhs => rw [← List.map_id l]
  refine List.map_congr_left fun x hx => if_neg ?_
  rintro rfl
  exact h hx

theorem map_replace_back {α : Type*} [DecidableEq α] {a b : α} {l : List α} (h : b ∉ l) :
    (l.map (replace a b)).map (replace b a) = l := by
  rw [List.map_map]
  conv_rhs => rw [← List.map_id l]
  refine List.map_congr_left fun x hx => ?_
  have hne : x ≠ b := by
    rintro rfl
    exact h hx
  rw [Function.comp_apply]
  by_cases hx' : x = a
  · rw [show replace a b x = b from if_pos hx']
    exact (if_pos rfl).trans hx'.symm
  · rw [show replace a b x = x from if_neg hx']
    exact if_neg hne

theorem windowsName_encodeUtf16 {q : List Char} (h : ':' ∉ q) :
    windowsName (encodeUtf16 q) = encodeUtf16 (q.map (replace '/' '\\')) := by
  have hcolon : (encodeUtf16 q).map underscore = encodeUtf16 (q.map (replace ':' '_')) :=
    map_encodeUtf16 (a := ':') (b := '_') (by decide) (by decide) q
  have hslash : ∀ cs, (encodeUtf16 cs).map backslash = encodeUtf16 (cs.map (replace '/' '\\')) :=
    map_encodeUtf16 (a := '/') (b := '\\') (by decide) (by decide)
  rw [windowsName, ← List.map_map, hcolon, map_replace_of_not_mem h, hslash]

/-- What is left of a text without its first character, which is in ASCII. -/
theorem isUtf8_tail {c : Char} (hc : IsAscii c) {b : List UInt8}
    (h : IsUtf8 (UInt8.ofNat c.toNat :: b)) : ∃ cs, b = encodeUtf8 cs := by
  obtain ⟨cs, hcs⟩ := h
  refine ⟨decodeUtf8 b, ?_⟩
  have hdecode := congrArg decodeUtf8 hcs
  rw [decodeUtf8_cons_ascii hc, decodeUtf8_encodeUtf8] at hdecode
  rw [← hdecode, encodeUtf8_cons, encodeChar_of_ascii hc] at hcs
  exact (List.cons.inj hcs).2

/-! ### Names behind a dot -/

/-- A name behind a dot loses the dot. -/
theorem outPosix_relative {name : List UInt16} {b : List UInt8} (hname : name.head? = some 46)
    (hnarrow : narrow name = 46 :: 92 :: b) (hzero : 0 ∉ b) (hcolon : 58 ∉ b) {size : Int}
    (hsize : (b.length : Int) + 3 ≤ size) (junk : List UInt8) :
    outPosix junk name size = 47 :: b.map (replace 92 47) := by
  have hroot : name.take 14 ≠ globalRoot := by
    intro h
    have hhead := congrArg List.head? h
    rw [List.head?_take, if_neg (by decide), hname] at hhead
    exact absurd hhead (by decide)
  have hwcs : winWcstombs name size = some (46 :: 92 :: b) := by
    rw [winWcstombs, hnarrow, if_pos (by simp only [List.length_cons]; omega)]
  have hcopy : copyPosix size ((92 :: b) ++ 0 :: junk) = (92 :: b).map (replace 92 47) :=
    copyPosix_eq (by simpa using hzero) (by simpa using hcolon)
      (by rw [List.length_cons]; omega) junk
  unfold outPosix narrowed
  dsimp only
  rw [if_neg hroot, hwcs]
  exact hcopy

theorem not_mem_map_replace {α : Type*} [DecidableEq α] {a b x : α} {l : List α} (h : x ∉ l)
    (hb : x ≠ b) : x ∉ l.map (replace a b) := by
  intro hmem
  obtain ⟨y, hy, hx⟩ := List.mem_map.mp hmem
  rw [replace] at hx
  split_ifs at hx
  · exact hb hx.symm
  · exact h (hx ▸ hy)

/-- A source without a colon or a backslash is what its name is turned back
into, with a separator in front. -/
theorem outPosix_nameBelow {q : List Char} (hzero : Char.ofNat 0 ∉ q) (hcolon : ':' ∉ q)
    (hback : '\\' ∉ q) {size : Int} (hsize : ((encodeUtf8 q).length : Int) + 3 ≤ size)
    (junk : List UInt8) :
    outPosix junk (nameBelow [46] (encodeUtf16 q)) size = 47 :: encodeUtf8 q := by
  let below := q.map (replace '/' '\\')
  have hslash : IsAscii '/' := by decide
  have hback' : IsAscii '\\' := by decide
  have hbytes : (encodeUtf8 q).map (replace 47 92) = encodeUtf8 below :=
    map_encodeUtf8 hslash hback' q
  have hnarrow : narrow (nameBelow [46] (encodeUtf16 q)) = 46 :: 92 :: encodeUtf8 below := by
    rw [nameBelow, windowsName_encodeUtf16 hcolon]
    exact narrow_encodeUtf16 ('.' :: '\\' :: below)
  have hzero' : (0 : UInt8) ∉ encodeUtf8 below :=
    fun h => not_mem_map_replace hzero (by decide) ((mem_encodeUtf8_iff (by decide)).mp h)
  have hcolon' : (58 : UInt8) ∉ encodeUtf8 below :=
    fun h => not_mem_map_replace hcolon (by decide) ((mem_encodeUtf8_iff (by decide)).mp h)
  have hlen : (encodeUtf8 below).length = (encodeUtf8 q).length := by
    rw [← hbytes, List.length_map]
  rw [outPosix_relative rfl hnarrow hzero' hcolon' (by rw [hlen]; exact hsize)]
  have hmap : (encodeUtf8 below).map (replace 92 47) = encodeUtf8 (below.map (replace '\\' '/')) :=
    map_encodeUtf8 hback' hslash below
  rw [hmap, map_replace_back hback]

/-! ### The last dot -/

theorem lastDot_append {b c : List UInt8} {i : Nat} (h : lastDot c = some i) :
    lastDot (b ++ c) = some (b.length + i) := by
  induction b with
  | nil => simpa using h
  | cons x b ih =>
      rw [List.cons_append, lastDot, ih, List.length_cons]
      exact congrArg some (by omega)

/-- `.exe`, as the caller sees it. -/
def typeNameExe : List UInt8 := [46, 101, 120, 101]

theorem chopLink_exe (b : List UInt8) : chopLink (b ++ typeNameExe) = b ++ typeNameExe := by
  rw [chopLink, lastDot_append (i := 0) rfl]
  dsimp only
  rw [Nat.add_zero, List.drop_left]
  exact if_neg (by decide)

/-- A path whose last dot is not that of a link. -/
def DotKept (path : List UInt8) : Prop :=
  ∀ i, lastDot path = some i → (path.drop i).take 4 ≠ typeNameLink

theorem chopLink_of_kept {path : List UInt8} (h : DotKept path) : chopLink path = path := by
  rw [chopLink]
  cases hdot : lastDot path with
  | none => rfl
  | some i => exact if_neg (h i hdot)

theorem chopLink_lt {out : List UInt8} (h : ¬ DotKept out) : (chopLink out).length < out.length := by
  obtain ⟨i, hdot, hlnk⟩ : ∃ i, lastDot out = some i ∧ (out.drop i).take 4 = typeNameLink := by
    by_contra hnone
    exact h fun i hdot hlnk => hnone ⟨i, hdot, hlnk⟩
  have hlt := lastDot_lt hdot
  rw [chopLink, hdot]
  dsimp only
  rw [if_pos hlnk, List.length_take]
  omega

/-! ### Components -/

/-- A path of components, none of which is empty or has a colon or a backslash. -/
def IsPath (path : List UInt8) : Prop :=
  ∃ cs, path = 47 :: List.intercalate [47] cs ∧
    ∀ c ∈ cs, c ≠ [] ∧ 47 ∉ c ∧ 58 ∉ c ∧ 92 ∉ c ∧ 0 ∉ c

theorem mem_intercalate {x : UInt8} {cs : List (List UInt8)}
    (h : x ∈ List.intercalate [47] cs) : x = 47 ∨ ∃ c ∈ cs, x ∈ c := by
  induction cs with
  | nil => cases h
  | cons c cs ih =>
      cases cs with
      | nil =>
          rw [List.intercalate_singleton] at h
          exact .inr ⟨c, List.mem_cons_self, h⟩
      | cons d cs =>
          rw [List.intercalate_cons_cons, List.mem_append, List.mem_append,
            List.mem_singleton] at h
          rcases h with (h | h) | h
          · exact .inr ⟨c, List.mem_cons_self, h⟩
          · exact .inl h
          · rcases ih h with hx | ⟨e, he, hx⟩
            · exact .inl hx
            · exact .inr ⟨e, List.mem_cons_of_mem _ he, hx⟩

theorem getLast?_intercalate {cs : List (List UInt8)} (h : ∀ c ∈ cs, c ≠ [] ∧ 47 ∉ c) :
    (List.intercalate [47] cs).getLast? ≠ some 47 := by
  induction cs with
  | nil => exact nofun
  | cons c cs ih =>
      obtain ⟨hne, hslash⟩ := h c List.mem_cons_self
      have hrest : ∀ d ∈ cs, d ≠ [] ∧ 47 ∉ d := fun d hd => h d (List.mem_cons_of_mem _ hd)
      cases cs with
      | nil =>
          rw [List.intercalate_singleton]
          exact fun hlast => hslash (List.mem_of_getLast? hlast)
      | cons d cs =>
          have hd := (h d (List.mem_cons_of_mem _ List.mem_cons_self)).1
          have hmore : List.intercalate [47] (d :: cs) ≠ [] := by
            cases cs with
            | nil => rwa [List.intercalate_singleton]
            | cons e cs =>
                rw [List.intercalate_cons_cons]
                simp
          rw [List.intercalate_cons_cons, List.getLast?_append_of_ne_nil _ hmore]
          exact ih hrest

theorem IsPath.not_mem {path : List UInt8} (h : IsPath path) {x : UInt8}
    (hx : x = 58 ∨ x = 92 ∨ x = 0) : x ∉ path := by
  obtain ⟨cs, rfl, hcs⟩ := h
  have hne : x ≠ 47 := by
    rcases hx with rfl | rfl | rfl <;> decide
  rw [List.mem_cons, not_or]
  refine ⟨hne, fun hmem => ?_⟩
  rcases mem_intercalate hmem with hslash | ⟨c, hc, hxc⟩
  · exact hne hslash
  · obtain ⟨_, _, hcolon, hback, hzero⟩ := hcs c hc
    rcases hx with rfl | rfl | rfl
    · exact hcolon hxc
    · exact hback hxc
    · exact hzero hxc

/-- No separator stands at the end of a source of components. -/
theorem IsPath.getLast? {path : List UInt8} (h : IsPath path) {q : List Char}
    (hq : path.drop 1 = encodeUtf8 q) : (encodeUtf16 q).getLast? ≠ some 47 := by
  obtain ⟨cs, rfl, hcs⟩ := h
  have hbytes := getLast?_intercalate fun c hc => ⟨(hcs c hc).1, (hcs c hc).2.1⟩
  change List.intercalate [47] cs = encodeUtf8 q at hq
  rw [hq] at hbytes
  intro hlast
  have hslash : IsAscii '/' := by decide
  rcases List.eq_nil_or_concat q with rfl | ⟨q, c, rfl⟩
  · cases hlast
  · have hunits : encodeUtf16 (q ++ [c]) = encodeUtf16 q ++ encodeUnit c := by
      simp [encodeUtf16]
    rw [List.concat_eq_append, hunits, List.getLast?_append_of_ne_nil _ (encodeUnit_ne_nil c)]
      at hlast
    have hc : '/' = c := eq_of_mem_encodeUnit hslash (List.mem_of_getLast? hlast)
    refine hbytes ?_
    rw [List.concat_eq_append, ← hc, encodeUtf8, List.flatMap_append]
    exact List.getLast?_concat

/-! ### There and back -/

/-- The path that the name of a path is turned back into. -/
def roundTrip (pathMax : Nat) (fs : WinFs) (task : NameiTask) (objects : ObjectNames)
    (atflags : UInt32) (stale : List UInt16) (junk dest path : List UInt8) : List UInt8 :=
  text (pathPosix pathMax junk dest (resolved task objects path atflags fs stale atFdcwd).name)

/-- The name a path has for Windows. -/
def dotName (path : List UInt8) : List UInt16 := nameBelow [46] (wide (path.drop 1))

/-- A path outside of `/proc` that meets no link and no mount point, does not
end with the extension of a link, and leaves room for that of a program. -/
structure Ordinary (pathMax : Nat) (fs : WinFs) (path : List UInt8) : Prop where
  isPath : IsPath path
  not_proc : path.take 6 ≠ procPrefix ++ [47]
  not_type : ¬ typeNameLink <:+ path
  no_link : ∀ part, Leads part (wide (path.drop 1)) → NoLink fs (nameBelow [46] part)
  no_shortcut : NoShortcut fs (dotName path)
  fits : (wide path).length + 6 ≤ winPathMax ∧ path.length + 6 ≤ pathMax

section
variable {pathMax : Nat} {fs : WinFs} {path : List UInt8}

theorem IsPath.head (h : IsPath path) : path = 47 :: path.drop 1 := by
  obtain ⟨cs, rfl, _⟩ := h
  rfl

theorem IsPath.isUtf8_rest (h : IsPath path) (hutf : IsUtf8 path) :
    ∃ q, path.drop 1 = encodeUtf8 q := by
  have hhead := h.head
  refine isUtf8_tail (c := '/') (by decide) ?_
  rw [hhead] at hutf
  exact hutf

/-- The program that is found in the place of a path. -/
def RunsAs (fs : WinFs) (path : List UInt8) : Prop :=
  fs.attributes (dotName path) = noAttribs ∧ fs.attributes (dotName path ++ exeType) ≠ noAttribs

/-- The lookup ends at the name of the path, or at that of a program. -/
theorem Ordinary.foundAs (h : Ordinary pathMax fs path)
    (hpipe : ∀ part, Leads part (wide (path.drop 1)) → NoPipe fs (nameBelow [46] part))
    (hutf : IsUtf8 path) (task : NameiTask) (objects : ObjectNames) (atflags : UInt32)
    (stale : List UInt16) :
    FoundAs fs (dotName path) (resolved task objects path atflags fs stale atFdcwd).name := by
  have hhead := h.isPath.head
  have ha : Absolute path := .inl (by rw [hhead]; rfl)
  have hproc : ¬ path.take 6 = [47, 112, 114, 111, 99, 47] := h.not_proc
  have hstart : absoluteStart path = (startPath.wcpcpy 0 [46], path.drop 1) := by
    rw [absoluteStart, if_pos (by rw [hhead]; rfl), rootWin, if_neg hproc]
  have hzero : 0 ∉ path.drop 1 := fun hmem =>
    h.isPath.not_mem (.inr (.inr rfl)) (List.mem_of_mem_drop hmem)
  have hplace : (startPath.wcpcpy 0 [46]).place = ⟨[46], 1⟩ := by
    rw [startPath.place_wcpcpy 0 (w := [46]) (by decide), copy_zero]
    rfl
  have hfits : Fits (startPath.wcpcpy 0 [46]).r (path.drop 1) := by
    have hwide := congrArg List.length (wide_cons (b := 47) (by decide) (path.drop 1))
    rw [← hhead, List.length_cons] at hwide
    have hroom := h.fits.1
    change 1 + _ + 1 ≤ winPathMax
    omega
  obtain ⟨q, hq⟩ := h.isPath.isUtf8_rest hutf
  rw [resolved_absolute task objects not_asked_fdcwd ha, hstart]
  dsimp only
  rw [zero_not_mem_source hzero hfits, vfsLookup, (flagsOfAt_pathcopy atflags).1]
  let opened := pathOpen (startPath.wcpcpy 0 [46]) (wide (path.drop 1)) (flagsOfAt atflags)
  -- the walk starts below the dot
  have hstand : opened.place.Standing := by
    rw [show opened.place = _ from hplace]
    rfl
  have hname : opened.name = [46] := congrArg Place.name hplace
  have hwalk : FoundAs fs (nameBelow opened.name opened.s)
      (pathWalk fs ((wide (path.drop 1)).length + 1) opened (flagsOfAt atflags)).name := by
    refine pathWalk_foundAs _ hstand (zero_not_mem_wide hzero) (Nat.lt_succ_self _) ?_ ?_ ?_
    · change (wide (path.drop 1)).getLast? ≠ some 47
      rw [hq, wide_encodeUtf8]
      exact h.isPath.getLast? hq
    · intro part hpart
      rw [hname]
      exact ⟨h.no_link part hpart, hpipe part hpart⟩
    · rw [hname]
      exact h.no_shortcut
  rw [hname] at hwalk
  exact hwalk

/-- What comes back from a lookup is the path, or that of the program in its
place. -/
theorem Ordinary.comes_back (h : Ordinary pathMax fs path)
    (hpipe : ∀ part, Leads part (wide (path.drop 1)) → NoPipe fs (nameBelow [46] part))
    (hutf : IsUtf8 path) (hdot : DotKept path) (task : NameiTask) (objects : ObjectNames)
    (atflags : UInt32) (stale : List UInt16) (junk dest : List UInt8) :
    roundTrip pathMax fs task objects atflags stale junk dest path = path ∨
      (roundTrip pathMax fs task objects atflags stale junk dest path = path ++ typeNameExe ∧
        RunsAs fs path) := by
  have hhead := h.isPath.head
  obtain ⟨q, hq⟩ := h.isPath.isUtf8_rest hutf
  -- the path as characters: no colon, backslash or zero is among them
  have hnot : ∀ {a : Char}, IsAscii a →
      (UInt8.ofNat a.toNat = 58 ∨ UInt8.ofNat a.toNat = 92 ∨ UInt8.ofNat a.toNat = 0) →
        a ∉ q := by
    intro a ha hbyte hmem
    have hbytes : UInt8.ofNat a.toNat ∈ path.drop 1 := hq ▸ (mem_encodeUtf8_iff ha).mpr hmem
    exact h.isPath.not_mem hbyte (List.mem_of_mem_drop hbytes)
  have hzero : Char.ofNat 0 ∉ q := hnot (by decide) (by decide)
  have hcolon : ':' ∉ q := hnot (by decide) (by decide)
  have hback : '\\' ∉ q := hnot (by decide) (by decide)
  have hdotName : dotName path = nameBelow [46] (encodeUtf16 q) := by
    rw [dotName, hq, wide_encodeUtf8]
  have hlen : path.length = (encodeUtf8 q).length + 1 := by
    rw [hhead, hq]
    rfl
  have hfits := h.fits.2
  change text (pathnpPosix junk dest _ pathMax).1 = path ∨
    (text (pathnpPosix junk dest _ pathMax).1 = _ ∧ _)
  rw [text_pathnpPosix]
  rcases h.foundAs hpipe hutf task objects atflags stale with hname | ⟨hname, hruns⟩
  · left
    rw [hname, hdotName, outPosix_nameBelow hzero hcolon hback (by omega), ← hq, ← hhead]
    exact chopLink_of_kept hdot
  · right
    -- a program is found with its extension, which comes back with it
    let exe : List Char := ['.', 'e', 'x', 'e']
    have hexe : dotName path ++ exeType = nameBelow [46] (encodeUtf16 (q ++ exe)) := by
      rw [hdotName, nameBelow, nameBelow, windowsName_encodeUtf16 hcolon,
        windowsName_encodeUtf16 (by simp [exe, hcolon]), List.map_append]
      simp only [encodeUtf16, List.flatMap_append, List.append_assoc, List.cons_append]
      rfl
    have hbytes : encodeUtf8 (q ++ exe) = encodeUtf8 q ++ typeNameExe := by
      rw [encodeUtf8, List.flatMap_append]
      rfl
    refine ⟨?_, hruns⟩
    have hfour : (encodeUtf8 (q ++ exe)).length = (encodeUtf8 q).length + 4 := by
      rw [hbytes, List.length_append]
      rfl
    rw [hname, hexe, outPosix_nameBelow (by simpa [exe] using hzero) (by simpa [exe] using hcolon)
      (by simpa [exe] using hback) (by omega), hbytes, ← List.cons_append, ← hq, ← hhead]
    exact chopLink_exe path

end

/-! ### Paths that change -/

theorem leads_of_not_mem {part s : List UInt16} (hs : 47 ∉ s) (h : Leads part s) : part = s := by
  rcases h with h | ⟨rest, rfl⟩
  · exact h
  · exact absurd (List.mem_append_right _ List.mem_cons_self) hs

theorem noLink_of_missing {fs : WinFs} {name : List UInt16} (h : fs.attributes name = noAttribs) :
    NoLink fs name := by
  rw [NoLink, h]
  exact ⟨by decide, fun hnode => absurd hnode (by decide)⟩

/-- A path of one component is ordinary where nothing leads away from it. -/
theorem ordinary_of_component {fs : WinFs} {c : List UInt8}
    (hc : c ≠ [] ∧ 47 ∉ c ∧ 58 ∉ c ∧ 92 ∉ c ∧ 0 ∉ c) (hslash : 47 ∉ wide c)
    (hproc : (47 :: c).take 6 ≠ procPrefix ++ [47]) (htype : ¬ typeNameLink <:+ 47 :: c)
    (hlink : NoLink fs (nameBelow [46] (wide c))) (hshort : NoShortcut fs (nameBelow [46] (wide c)))
    (hfits : (wide (47 :: c)).length + 6 ≤ winPathMax ∧ (47 :: c).length + 6 ≤ 1024) :
    Ordinary 1024 fs (47 :: c) where
  isPath := by
    refine ⟨[c], by rw [List.intercalate_singleton], fun d hd => ?_⟩
    rw [List.mem_singleton.mp hd]
    exact hc
  not_proc := hproc
  not_type := htype
  no_link part hpart := by
    rw [leads_of_not_mem hslash hpart]
    exact hlink
  no_shortcut := hshort
  fits := hfits

/-- `/a` comes back from an empty system. -/
theorem comes_back_a :
    roundTrip 1024 emptyFs dirTask dirNames 0 [] [] [] [47, 97] = [47, 97] ∨
      (roundTrip 1024 emptyFs dirTask dirNames 0 [] [] [] [47, 97] = [47, 97] ++ typeNameExe ∧
        RunsAs emptyFs [47, 97]) := by
  have hmissing : ∀ name, NoLink emptyFs name := fun name => noLink_of_missing rfl
  have hordinary : Ordinary 1024 emptyFs [47, 97] :=
    ordinary_of_component (by decide) (by decide) (by decide) (by decide) (hmissing _)
      (fun _ => rfl) (by decide)
  have hclass : ¬ fileClass noAttribs = fileClassInode := by decide
  exact hordinary.comes_back (fun _ _ h => absurd h hclass) ⟨['/', 'a'], by decide⟩
    (fun i h => absurd h nofun) dirTask dirNames 0 [] [] []

theorem known_pipe : WinFsType.pipe = .disk ∨ WinFsType.pipe = .pipe ∨ WinFsType.pipe = .pdo :=
  .inr (.inl rfl)

/-- A system with one node of a class, whose head says that it is a pipe. -/
def oneFs (name : List UInt16) (attribs : UInt32) : WinFs where
  attributes name' := if name' = name then attribs else noAttribs
  stat _ _ := some (⟨0, .vfifo, .pipe, 0, known_pipe⟩, 0)
  read _ _ := []
  shortcut _ := none
  stale := []
  zero_not_mem_read := emptyFs.zero_not_mem_read
  bounded := by
    refine ⟨name.length, fun name' hlen => if_neg ?_⟩
    rintro rfl
    exact absurd hlen (Nat.lt_irrefl _)

/-- The program `.\a.exe` is found for `/a`, a byte outside of UTF-8 is
replaced, and a pipe is found under the name of the pipe. -/
theorem ordinary_path_changes :
    (Ordinary 1024 (oneFs [46, 92, 97, 46, 101, 120, 101] 0x20) [47, 97] ∧
      roundTrip 1024 (oneFs [46, 92, 97, 46, 101, 120, 101] 0x20) dirTask dirNames 0 [] [] []
        [47, 97] = [47, 97, 46, 101, 120, 101]) ∧
    (Ordinary 1024 emptyFs [47, 255] ∧
      roundTrip 1024 emptyFs dirTask dirNames 0 [] [] [] [47, 255] = [47, 0xEF, 0xBF, 0xBD]) ∧
    (Ordinary 1024 (oneFs [46, 92, 97] 4) [47, 97] ∧
      roundTrip 1024 (oneFs [46, 92, 97] 4) dirTask dirNames 0 [] [] [] [47, 97] ≠ [47, 97]) := by
  refine ⟨⟨?_, by decide⟩, ⟨?_, by decide⟩, ⟨?_, by decide⟩⟩
  · exact ordinary_of_component (by decide) (by decide) (by decide) (by decide)
      (noLink_of_missing (by decide)) (fun _ => by decide) (by decide)
  · exact ordinary_of_component (by decide) (by decide) (by decide) (by decide)
      (noLink_of_missing (by decide)) (fun _ => by decide) (by decide)
  · refine ordinary_of_component (by decide) (by decide) (by decide) (by decide) ⟨by decide, ?_⟩
      (fun h => absurd h (by decide)) (by decide)
    rintro - leaf found hstat
    cases hstat
    exact nofun

end MinC.Sys
