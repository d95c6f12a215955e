import MinC.Sys.PathRounds
import MinC.Vfs.Symlink

/-!
Links, made and read back.

The text of a link is what the lookup of its target left: the target with its
separators turned, unless the current directory of Windows has something under
that name that leads away, a program or a shell link. On the way back the first
two characters are taken for a prefix, so that of a target whose second
character is a separator the first one is lost.
-/

namespace MinC.Sys

open MinC.Lib MinC.Win MinC.Vfs

/-! ### The calls -/

/-- What a path is looked up from without a descriptor, and what is left of it. -/
def fdcwdStart (task : NameiTask) (path : List UInt8) : WinNameidata × List UInt8 :=
  if Absolute path then absoluteStart path
  else ({ startPath.wcpcpy 0 task.path with mountId := task.mountId }, path)

/-- A size as a `LONG`. -/
def toLong (size : Nat) : Int := (size : Int).bmod 0x100000000

section
variable (task : NameiTask) (objects : ObjectNames)

/-- The name that a link is made under. -/
def linkName (fs : WinFs) (stale : List UInt16) (path : List UInt8) : List UInt16 :=
  (resolved task objects path atSymlinkNofollow fs stale atFdcwd).name

/-- The text that is written to a link. -/
def linkText (fs : WinFs) (stale : List UInt16) (t : List UInt8) : List UInt16 :=
  (resolved task objects t atNoslash fs stale 0).name

/-- `sys_symlink`, when it goes through. Windows makes a node in a directory
that is there. -/
structure SysSymlink (fs fs' : WinFs) (stale stale' : List UInt16) (t path : List UInt8) :
    Prop where
  named : path ≠ []
  directory : ∃ q, arrive fs ((wide (fdcwdStart task path).2).length + 1)
    (fdcwdStart task path).1.place (wide (fdcwdStart task path).2) = some q
  creates : Creates fs fs' (linkName task objects fs stale' path)
    (linkInode (linkText task objects fs stale t)) (linkText task objects fs stale t)

def sysReadlink (fs : WinFs) (stale : List UInt16) (path junk dest : List UInt8) (bufsiz : Nat) :
    Option (List UInt8 × Nat) :=
  if path = [] then none
  else
    (vfsReadlink fs (resolved task objects path (atSymlink ||| atSymlinkNofollow) fs stale
      atFdcwd)).map fun linked => pathnpPosix junk dest linked.name (toLong bufsiz)

/-- A buffer with room for a target and a zero behind it gets the target, and
its length is returned. -/
def ReadsBack (fs : WinFs) (t path : List UInt8) : Prop :=
  ∀ stale junk dest bufsiz, t.length < bufsiz → bufsiz < 0x80000000 →
    ∃ cells, sysReadlink task objects fs stale path junk dest bufsiz = some (cells, t.length) ∧
      cells.take t.length = t

end

/-! ### Targets -/

/-- A relative target. -/
structure IsTarget (t : List UInt8) : Prop where
  relative : t.head? ≠ some 47
  zero : 0 ∉ t
  colon : 58 ∉ t
  back : 92 ∉ t
  fits : t.length < winPathMax

/-- The name of a target for Windows. -/
def targetName (t : List UInt8) : List UInt16 := windowsName (wide t)

/-- What a target leads to in the current directory of Windows. -/
def targetPlace (fs : WinFs) (t : List UInt8) : Place :=
  (close fs ⟨targetName t, (targetName t).length⟩ 0 (targetName t)).1

/-- A text is a target with some of its separators turned, and the second
character is not a turned one. -/
def Spells (text : List UInt16) (t : List UInt8) : Prop :=
  (narrow (stripRoot text)).map (replace 92 47) = t ∧ (narrow (stripRoot text)).getD 1 0 ≠ 92

/-- The target is read back: its last dot is not that of a link, and either its
name leads to itself, it is UTF-8 and its second character is not a separator;
or its name leads to another text, which spells it. -/
def Returns (fs : WinFs) (t : List UInt8) : Prop :=
  t ≠ [] ∧ DotKept t ∧
    (((targetPlace fs t).name = targetName t ∧ IsUtf8 t ∧ t.getD 1 0 ≠ 47) ∨
      ((targetPlace fs t).name ≠ targetName t ∧ Spells (targetPlace fs t).name t))

/-! ### From a text to the caller -/

theorem copyPosix_filter {size : Int} {b : List UInt8} (hzero : 0 ∉ b)
    (hsize : (b.length : Int) < size) (junk : List UInt8) :
    copyPosix size (b ++ 0 :: junk) = (b.filter (· ≠ 58)).map (replace 92 47) := by
  rw [copyPosix_eq_spell hzero, List.take_of_length_le (by omega)]
  rfl

/-- Nothing that a caller reads as relative has a prefix, or lost its first
character. -/
theorem guess_of_relative {b junk : List UInt8} {size : Int} {t : List UInt8} (hsize : 1 < size)
    (hrelative : t.head? ≠ some 47)
    (h : (guessPosix (b ++ 0 :: junk) size).1 ++ copyPosix (guessPosix (b ++ 0 :: junk) size).2.2
      (guessPosix (b ++ 0 :: junk) size).2.1 = t) :
    (b ++ 0 :: junk).getD 1 0 ≠ 92 ∧ copyPosix size (b ++ 0 :: junk) = t := by
  unfold guessPosix at h
  split_ifs at h with hcolon hroot hsecond
  · rw [← h] at hrelative
    exact absurd rfl hrelative
  · rw [← h] at hrelative
    exact absurd rfl hrelative
  · refine absurd ?_ hrelative
    have hdrop : ∃ rest, (b ++ 0 :: junk).drop 1 = 92 :: rest := by
      generalize b ++ 0 :: junk = src at hsecond
      match src, hsecond with
      | _ :: c :: rest, hsecond => exact ⟨rest, congrArg (· :: rest) hsecond⟩
    obtain ⟨rest, hrest⟩ := hdrop
    dsimp only at h
    rw [hrest, List.nil_append, copyPosix, if_neg (by decide), if_neg (by omega),
      if_neg (by decide)] at h
    rw [← h]
    rfl
  · exact ⟨hsecond, h⟩

theorem getD_mem {b : List UInt8} {i : Nat} {x : UInt8} (hx : x ≠ 0) (h : b.getD i 0 = x) :
    x ∈ b := by
  rw [List.getD_eq_getElem?_getD] at h
  cases hget : b[i]? with
  | none =>
      rw [hget] at h
      exact absurd h.symm hx
  | some y =>
      rw [hget] at h
      obtain rfl : y = x := h
      exact List.mem_of_getElem? hget

theorem toLong_of_lt {size : Nat} (h : size < 0x80000000) : toLong size = size := by
  refine Int.bmod_eq_of_le ?_ ?_
  · omega
  · omega

theorem spells_of_outPosix {text : List UInt16} (htext : 0 ∉ text) {t : List UInt8}
    (ht : IsTarget t) (hnonempty : t ≠ [])
    (h : outPosix [] text ((t.length : Int) + 1) = t) : Spells text t := by
  have hzero := zero_not_mem_narrow (zero_not_mem_stripRoot htext)
  have hpos := List.length_pos_iff.mpr hnonempty
  rw [outPosix_eq, narrowed, winWcstombs] at h
  rw [Spells]
  generalize narrow (stripRoot text) = b at h hzero ⊢
  by_cases hfits : (b.length : Int) + 1 ≤ t.length + 1
  · rw [if_pos hfits] at h
    obtain ⟨hsecond, hcopy⟩ := guess_of_relative (by omega) ht.relative h
    rw [copyPosix_filter hzero (by omega)] at hcopy
    -- nothing was left out, or the target would be longer than what it is read from
    have hall : b.filter (· ≠ 58) = b := by
      refine (List.filter_sublist).eq_of_length_le ?_
      have hlen := congrArg List.length hcopy
      rw [List.length_map] at hlen
      omega
    rw [hall] at hcopy
    have hb : b ≠ [] := by
      rintro rfl
      exact hnonempty hcopy.symm
    rw [getD_append_zero b [] hb] at hsecond
    exact ⟨hcopy, hsecond⟩
  · rw [if_neg hfits] at h
    exact absurd h.symm hnonempty

theorem outPosix_of_spells {text : List UInt16} (htext : 0 ∉ text) {t : List UInt8}
    (ht : IsTarget t) (hnonempty : t ≠ []) (h : Spells text t) (junk : List UInt8) {size : Int}
    (hsize : (t.length : Int) < size) : outPosix junk text size = t := by
  have hzero := zero_not_mem_narrow (zero_not_mem_stripRoot htext)
  obtain ⟨hcopy, hsecond⟩ := h
  rw [outPosix_eq, narrowed, winWcstombs]
  generalize narrow (stripRoot text) = b at hcopy hsecond hzero ⊢
  have hlen : b.length = t.length := by rw [← hcopy, List.length_map]
  have hcolon : 58 ∉ b := by
    intro hmem
    refine ht.colon ?_
    rw [← hcopy]
    exact List.mem_map.mpr ⟨58, hmem, rfl⟩
  have hb : b ≠ [] := by
    rintro rfl
    exact hnonempty hcopy.symm
  have hroot : (b ++ 0 :: junk).getD 0 0 ≠ 92 := by
    intro hhead
    refine ht.relative ?_
    cases b with
    | nil => exact absurd rfl hb
    | cons c b =>
        obtain rfl : c = 92 := hhead
        rw [← hcopy]
        rfl
  rw [if_pos (by omega)]
  dsimp only
  -- it is no drive, no object and not below the dot
  have hdrive : b.getD 1 0 ≠ 58 := fun hsame => hcolon (getD_mem (by decide) hsame)
  rw [guessPosix, getD_append_zero b junk hb, if_neg hdrive, if_neg hroot, if_neg hsecond]
  dsimp only
  rw [List.nil_append, copyPosix_eq hzero hcolon (by omega), hcopy]

/-- A text is read as a target by everyone with room for it if and only if it
spells the target. -/
theorem outPosix_iff {text : List UInt16} (htext : 0 ∉ text) {t : List UInt8} (ht : IsTarget t) :
    (∀ junk (bufsiz : Nat), t.length < bufsiz → bufsiz < 0x80000000 →
      outPosix junk text (toLong bufsiz) = t) ↔ t ≠ [] ∧ Spells text t := by
  have hshort : t.length + 1 < 0x80000000 := by
    have hfits := ht.fits
    change t.length < 1024 at hfits
    omega
  constructor
  · intro h
    have hnonempty : t ≠ [] := by
      rintro rfl
      have hjunk := h [58, 58] 1 (by decide) (by decide)
      rw [outPosix_eq, narrowed, winWcstombs] at hjunk
      split_ifs at hjunk with hfits
      · have hnil : narrow (stripRoot text) = [] := by
          refine List.length_eq_zero_iff.mp ?_
          change _ ≤ (1 : Int) at hfits
          omega
        rw [hnil] at hjunk
        cases hjunk
      · cases hjunk
    have hsize := h [] (t.length + 1) (Nat.lt_succ_self _) hshort
    rw [toLong_of_lt hshort] at hsize
    exact ⟨hnonempty, spells_of_outPosix htext ht hnonempty hsize⟩
  · rintro ⟨hnonempty, hspells⟩ junk bufsiz hroom hsmall
    rw [toLong_of_lt hsmall]
    exact outPosix_of_spells htext ht hnonempty hspells junk (by omega)

/-- The caller gets a string, and its length, if and only if the string was
written and its last dot is kept. -/
theorem pathnpPosix_iff (junk dest : List UInt8) (text : List UInt16) (size : Int)
    {t : List UInt8} (ht : 0 ∉ t) :
    (∃ cells, pathnpPosix junk dest text size = (cells, t.length) ∧ cells.take t.length = t) ↔
      outPosix junk text size = t ∧ DotKept t := by
  have htext := text_pathnpPosix junk dest text size
  constructor
  · rintro ⟨cells, hread, htake⟩
    have hlen : (outPosix junk text size).length = t.length := congrArg Prod.snd hread
    have hcells : t ++ cells.drop t.length = cells := by
      conv_rhs => rw [← List.take_append_drop t.length cells, htake]
    rw [hread] at htext
    dsimp only at htext
    rw [← hcells, text_append_of_not_mem ht] at htext
    -- a string that was cut off would be shorter than its length
    have hkept : DotKept (outPosix junk text size) := by
      by_contra hlost
      have hlt := chopLink_lt hlost
      rw [← htext, List.length_append] at hlt
      omega
    rw [chopLink_of_kept hkept] at htext
    have hprefix : t <+: outPosix junk text size := ⟨_, htext⟩
    obtain rfl := hprefix.eq_of_length hlen.symm
    exact ⟨rfl, hkept⟩
  · rintro ⟨hout, hkept⟩
    rw [hout, chopLink_of_kept hkept] at htext
    refine ⟨_, Prod.ext rfl (congrArg List.length hout), ?_⟩
    rw [take_text (by rw [htext]), htext, List.take_length]

/-! ### The name of a target -/

theorem wide_length_le (t : List UInt8) : (wide t).length ≤ t.length :=
  length_encodeUtf16_decodeUtf8_le t

section
variable {t : List UInt8}

theorem zero_not_mem_targetName (ht : IsTarget t) : 0 ∉ targetName t :=
  zero_not_mem_windowsName (zero_not_mem_wide ht.zero)

theorem targetName_eq (ht : IsTarget t) :
    targetName t = encodeUtf16 ((decodeUtf8 t).map (replace '/' '\\')) := by
  refine windowsName_encodeUtf16 fun hmem => ht.colon ?_
  exact mem_of_mem_decodeUtf8 (by decide) hmem

/-- The name of a relative target does not start with that of the root. -/
theorem stripRoot_targetName (ht : IsTarget t) : stripRoot (targetName t) = targetName t := by
  refine if_neg fun hroot => ?_
  have hhead : (targetName t).head? = some 92 := by
    have htake := congrArg List.head? hroot
    rwa [List.head?_take, if_neg (by decide)] at htake
  rw [targetName_eq ht] at hhead
  have hfirst := head_of_encodeUtf16 (a := '\\') (by decide) hhead
  rw [List.head?_map] at hfirst
  obtain ⟨c, hc, hturned⟩ := Option.map_eq_some_iff.mp hfirst
  rw [replace] at hturned
  split_ifs at hturned with hslash
  · rw [hslash] at hc
    exact ht.relative (head_of_decodeUtf8 (by decide) hc)
  · rw [hturned] at hc
    exact ht.back (List.mem_of_mem_head? (head_of_decodeUtf8 (by decide) hc))

/-- The name of a target spells it if and only if it is UTF-8 and has no
separator for its second character. -/
theorem spells_targetName (ht : IsTarget t) :
    Spells (targetName t) t ↔ IsUtf8 t ∧ t.getD 1 0 ≠ 47 := by
  have hback : '\\' ∉ decodeUtf8 t := fun hmem => ht.back (mem_of_mem_decodeUtf8 (by decide) hmem)
  have hnarrow : narrow (targetName t) = encodeUtf8 ((decodeUtf8 t).map (replace '/' '\\')) := by
    rw [targetName_eq ht, narrow_encodeUtf16]
  have hturned : (narrow (targetName t)).map (replace 92 47) = encodeUtf8 (decodeUtf8 t) := by
    rw [hnarrow]
    have hmap : ∀ cs, (encodeUtf8 cs).map (replace 92 47) = encodeUtf8 (cs.map (replace '\\' '/')) :=
      map_encodeUtf8 (a := '\\') (b := '/') (by decide) (by decide)
    rw [hmap, map_replace_back hback]
  have hutf : encodeUtf8 (decodeUtf8 t) = t ↔ IsUtf8 t := by
    constructor
    · exact fun h => ⟨_, h.symm⟩
    · rintro ⟨cs, rfl⟩
      rw [decodeUtf8_encodeUtf8]
  rw [Spells, stripRoot_targetName ht, hturned, hutf]
  refine and_congr_right fun h => not_congr ?_
  have hbytes : narrow (targetName t) = t.map (replace 47 92) := by
    have hmap : (encodeUtf8 (decodeUtf8 t)).map (replace 47 92) =
        encodeUtf8 ((decodeUtf8 t).map (replace '/' '\\')) :=
      map_encodeUtf8 (a := '/') (b := '\\') (by decide) (by decide) _
    rw [hnarrow, ← hmap, hutf.mpr h]
  rw [hbytes]
  -- only the second byte counts: a backslash there is a slash of the target
  match t, ht.back with
  | [], _ => exact show (0 : UInt8) = 92 ↔ (0 : UInt8) = 47 by decide
  | [_], _ => exact show (0 : UInt8) = 92 ↔ (0 : UInt8) = 47 by decide
  | _ :: c :: _, hback =>
      change replace 47 92 c = 92 ↔ c = 47
      rw [replace]
      split_ifs with hslash
      · exact iff_of_true rfl hslash
      · refine iff_of_false (fun hc => hback ?_) hslash
        rw [hc]
        exact List.mem_cons_of_mem _ List.mem_cons_self

/-- Whether a name leads to itself or elsewhere, what it leads to has to spell
the target. -/
theorem returns_iff (ht : IsTarget t) (fs : WinFs) :
    Returns fs t ↔ t ≠ [] ∧ DotKept t ∧ Spells (targetPlace fs t).name t := by
  refine and_congr_right fun _ => and_congr_right fun _ => ?_
  by_cases hstays : (targetPlace fs t).name = targetName t
  · rw [hstays, spells_targetName ht]
    constructor
    · rintro (⟨_, h⟩ | ⟨hne, _⟩)
      · exact h
      · exact absurd rfl hne
    · exact fun h => .inl ⟨rfl, h⟩
  · constructor
    · rintro (⟨hsame, _⟩ | ⟨_, h⟩)
      · exact absurd hsame hstays
      · exact h
    · exact fun h => .inr ⟨hstays, h⟩

end

/-! ### Made and read -/

section
variable {task : NameiTask} {objects : ObjectNames} {fs fs' : WinFs} {stale stale' : List UInt16}
  {t path : List UInt8}

theorem zero_not_mem_fdcwdStart (hpath : 0 ∉ path) : 0 ∉ (fdcwdStart task path).2 := by
  rw [fdcwdStart]
  split_ifs
  · exact zero_not_mem_rest hpath
  · exact hpath

variable (task objects) in
/-- What a path is looked up from does not depend on the flags. -/
theorem resolved_fdcwd (atflags : UInt32) (hpath : 0 ∉ path)
    (hfits : Fits (fdcwdStart task path).1.r (fdcwdStart task path).2) (fs : WinFs)
    (stale : List UInt16) :
    resolved task objects path atflags fs stale atFdcwd =
      vfsLookup fs (fdcwdStart task path).1 (wide (fdcwdStart task path).2) (flagsOfAt atflags) := by
  rw [← zero_not_mem_source (zero_not_mem_fdcwdStart hpath) hfits stale]
  rw [fdcwdStart]
  split_ifs with ha
  · exact resolved_absolute task objects not_asked_fdcwd ha fs stale
  · obtain ⟨hroot, hdrive⟩ := not_or.mp ha
    have hasked : ¬ (0 < atFdcwd ∧ atFdcwd < (openMax : Int)) := not_asked_fdcwd
    rw [resolved, pathatWin, prefixWin, if_neg hasked, if_neg hroot, if_neg hdrive, if_pos rfl]
    rfl

variable (objects) in
/-- Where the directory of a path is there, its last component is looked at. -/
theorem resolved_arrive (atflags : UInt32)
    (hflags : flagSet (flagsOfAt atflags) winStripslashes = false) (hpath : 0 ∉ path)
    (hfits : Fits (fdcwdStart task path).1.r (fdcwdStart task path).2) {q : Place}
    (harrive : arrive fs ((wide (fdcwdStart task path).2).length + 1)
      (fdcwdStart task path).1.place (wide (fdcwdStart task path).2) = some q)
    (stale : List UInt16) :
    ∃ read : WinNameidata, read.place = q ∧ read.name.length ≤ read.r ∧
      resolved task objects path atflags fs stale atFdcwd =
        pathClose fs read (flagsOfAt atflags) := by
  rw [resolved_fdcwd task objects atflags hpath hfits, vfsLookup, (flagsOfAt_pathcopy atflags).1]
  exact pathWalk_arrive hflags _ (zero_not_mem_wide (zero_not_mem_fdcwdStart hpath)) harrive

/-- The text of a link is what its target leads to. -/
theorem linkText_eq (ht : IsTarget t) :
    linkText task objects fs stale t = (targetPlace fs t).name := by
  have ha : ¬ Absolute t := by
    rw [Absolute, not_or]
    refine ⟨fun hroot => ht.relative ?_, fun hdrive => ht.colon (getD_mem (by decide) hdrive)⟩
    cases t with
    | nil => exact absurd hroot (by decide)
    | cons c t => exact congrArg some hroot
  have hfits : Fits startPath.r t := by
    have hlen := wide_length_le t
    have hshort := ht.fits
    change 0 + _ + 1 ≤ winPathMax
    omega
  have hasked : ¬ Asked 0 := fun h => absurd h.1 (by decide)
  let opened := pathOpen startPath (wide t) (flagsOfAt atNoslash ||| winPathcopy)
  have hplace : (pathCopy opened).place = ⟨targetName t, (targetName t).length⟩ := by
    have hcopied := opened.place_wcpcpy 0 (zero_not_mem_targetName ht)
    rw [copy_zero] at hcopied
    exact hcopied
  have htail : (pathCopy opened).tail = targetName t := congrArg Place.name hplace
  rw [linkText, resolved_copy task objects hasked ha (by decide),
    zero_not_mem_source ht.zero hfits, vfsLookup, (flagsOfAt_pathcopy atNoslash).2, if_pos rfl]
  have hsame : SameFlags (flagsOfAt atNoslash ||| winPathcopy) winFollow :=
    ⟨by decide, by decide, by decide, by decide, by decide⟩
  rw [hsame.close]
  have houtcome := pathClose_outcome fs (pathCopy opened)
  rw [hplace, htail] at houtcome
  exact congrArg (fun found => found.1.name) houtcome

/-- A link that was made is read as what is written to it. -/
theorem sysReadlink_eq (hpath : 0 ∉ path)
    (hfits : Fits (fdcwdStart task path).1.r (fdcwdStart task path).2)
    (h : SysSymlink task objects fs fs' stale stale' t path) (stale₂ : List UInt16)
    (junk dest : List UInt8) (bufsiz : Nat) :
    sysReadlink task objects fs' stale₂ path junk dest bufsiz =
      some (pathnpPosix junk dest (linkText task objects fs stale t) (toLong bufsiz)) := by
  obtain ⟨q, hdir⟩ := h.directory
  obtain ⟨made, hmade, hle, hclosed⟩ := resolved_arrive objects atSymlinkNofollow (by decide)
    hpath hfits hdir stale'
  -- the node is made under the name that the walk arrived at, and is found there again
  have hname : linkName task objects fs stale' path = q.name := by
    have hmissing := h.creates.missing
    have hdrive := h.creates.not_drive
    rw [linkName, hclosed] at hmissing hdrive ⊢
    rw [← hmade]
    exact pathClose_missing_name hle hmissing hdrive
  obtain ⟨read, hread, _, hopened⟩ := resolved_arrive objects
    (atSymlink ||| atSymlinkNofollow) (by decide) hpath hfits (h.creates.arrive _ hdir) stale₂
  obtain ⟨handle, hstat, htext⟩ := h.creates.node
  have hreadName : read.name = linkName task objects fs stale' path := by
    rw [hname, ← hread]
    rfl
  have hclass := h.creates.attributes
  rw [← hreadName] at hclass hstat
  rw [sysReadlink, if_neg h.named, hopened]
  change (vfsReadlink fs' (pathClose fs' read winIssymlink)).map _ = _
  rw [pathClose_link hclass hstat rfl]
  have hzero : 0 ∉ linkText task objects fs stale t := htext ▸ fs'.zero_not_mem_read _ _
  let opened : WinNameidata := { read with
    attribs := fs'.attributes read.name
    deviceId := (linkInode (linkText task objects fs stale t)).deviceId
    fileType := .vlnk
    fsType := .disk
    size := (linkInode (linkText task objects fs stale t)).nameSize
    object := handle
    last := (read.r : Int) - 1 }
  have hlinked : (opened.write 0 (fs'.read handle opened.size ++ [0])).name =
      linkText task objects fs stale t := by
    change (opened.write 0 (fs'.read handle (linkInode _).nameSize ++ [0])).name = _
    rw [htext, opened.name_write 0 hzero, splice, if_pos (Nat.zero_le _)]
    rfl
  change some (pathnpPosix junk dest (opened.write 0 (fs'.read handle opened.size ++ [0])).name
    (toLong bufsiz)) = _
  rw [hlinked]

theorem zero_not_mem_linkText (h : SysSymlink task objects fs fs' stale stale' t path) :
    0 ∉ linkText task objects fs stale t := by
  obtain ⟨handle, _, htext⟩ := h.creates.node
  exact htext ▸ fs'.zero_not_mem_read _ _

/-- A relative target is read back from its link if and only if its last dot is
not that of `.lnk`, and its name leads to itself in the current directory, is
UTF-8 and has no separator for its second character; or leads to another text
that spells it. -/
theorem readlink_iff (hpath : 0 ∉ path)
    (hfits : Fits (fdcwdStart task path).1.r (fdcwdStart task path).2)
    (h : SysSymlink task objects fs fs' stale stale' t path) (ht : IsTarget t) :
    ReadsBack task objects fs' t path ↔ Returns fs t := by
  have htext := zero_not_mem_linkText h
  have hread : ReadsBack task objects fs' t path ↔
      (∀ junk (bufsiz : Nat), t.length < bufsiz → bufsiz < 0x80000000 →
        outPosix junk (linkText task objects fs stale t) (toLong bufsiz) = t) ∧ DotKept t := by
    have hcall : ∀ stale₂ junk dest bufsiz,
        (∃ cells, sysReadlink task objects fs' stale₂ path junk dest bufsiz =
          some (cells, t.length) ∧ cells.take t.length = t) ↔
        outPosix junk (linkText task objects fs stale t) (toLong bufsiz) = t ∧ DotKept t := by
      intro stale₂ junk dest bufsiz
      rw [sysReadlink_eq hpath hfits h, ← pathnpPosix_iff junk dest _ _ ht.zero]
      simp only [Option.some.injEq]
    constructor
    · intro hback
      refine ⟨fun junk bufsiz hroom hsmall => ?_, ?_⟩
      · exact ((hcall [] junk [] bufsiz).mp (hback [] junk [] bufsiz hroom hsmall)).1
      · have hshort := ht.fits
        change t.length < 1024 at hshort
        exact ((hcall [] [] [] 1024).mp (hback [] [] [] 1024 hshort (by decide))).2
    · rintro ⟨hout, hdot⟩ stale₂ junk dest bufsiz hroom hsmall
      exact (hcall stale₂ junk dest bufsiz).mpr ⟨hout junk bufsiz hroom hsmall, hdot⟩
  rw [hread, outPosix_iff htext ht, linkText_eq ht, returns_iff ht]
  exact ⟨fun ⟨⟨hne, hspells⟩, hdot⟩ => ⟨hne, hdot, hspells⟩,
    fun ⟨hne, hdot, hspells⟩ => ⟨⟨hne, hspells⟩, hdot⟩⟩

end

/-! ### A link to a path with a short first component -/

/-- A system with one link. -/
def linkFs (name target : List UInt16) (htarget : 0 ∉ target) : WinFs where
  attributes name' := if name' = name then fileClassInode else noAttribs
  stat _ name' := if name' = name then some (linkInode target, 0) else none
  read _ _ := target
  shortcut _ := none
  stale := []
  zero_not_mem_read _ _ := htarget
  bounded := by
    refine ⟨name.length, fun name' hlen => if_neg ?_⟩
    rintro rfl
    exact absurd hlen (Nat.lt_irrefl _)

theorem creates_linkFs {name target : List UInt16} (htarget : 0 ∉ target)
    (hdrive : name.getLast? ≠ some 58) :
    Creates emptyFs (linkFs name target htarget) name (linkInode target) target where
  missing := rfl
  not_drive := hdrive
  attributes := by
    change fileClass (if name = name then fileClassInode else noAttribs) = _
    rw [if_pos rfl]
    rfl
  node := ⟨0, if_pos rfl, rfl⟩
  kept _ h := absurd rfl h
  stale := rfl

/-- `ln -s a l` in the directory `c:`. -/
theorem readlink_iff_a :
    ReadsBack dirTask dirNames (linkFs [99, 58, 92, 108] [97] (by decide)) [97] [108] ↔
      Returns emptyFs [97] :=
  readlink_iff (by decide) (show 2 + 1 + 1 ≤ 1024 by decide)
    (show SysSymlink dirTask dirNames emptyFs _ [] [] [97] [108] from
      ⟨by decide, ⟨_, rfl⟩, creates_linkFs (by decide) (by decide)⟩)
    ⟨by decide, by decide, by decide, by decide, by decide⟩

/-- The link `l` to `a/b` is read as `/b`. -/
theorem first_component_lost :
    SysSymlink dirTask dirNames emptyFs (linkFs [99, 58, 92, 108] [97, 92, 98] (by decide)) [] []
      [97, 47, 98] [108] ∧
    IsTarget [97, 47, 98] ∧ [97, 47, 98].getLast? ≠ some 47 ∧ ¬ typeNameLink <:+ [97, 47, 98] ∧
    ¬ ReadsBack dirTask dirNames (linkFs [99, 58, 92, 108] [97, 92, 98] (by decide)) [97, 47, 98]
      [108] := by
  refine ⟨⟨by decide, ⟨_, rfl⟩, creates_linkFs (by decide) (by decide)⟩,
    ⟨by decide, by decide, by decide, by decide, by decide⟩, by decide, by decide, fun h => ?_⟩
  obtain ⟨cells, hread, _⟩ := h [] [] [] 4 (by decide) (by decide)
  have hcount : (sysReadlink dirTask dirNames (linkFs [99, 58, 92, 108] [97, 92, 98] (by decide)) []
      [108] [] [] 4).map Prod.snd = some 3 := by
    rw [hread]
    rfl
  revert hcount
  decide

end MinC.Sys
