import MinC.Sys.Lookup

/-!
Slashes at the end of a path.

Where they are to be stripped, the reader of components says that a component is
the last one if nothing comes after the slash behind it. This takes one slash
off, and only where the walk comes that far: what is copied, because a component
is missing, is copied with all its slashes.
-/

namespace MinC.Sys

open MinC.Lib MinC.Win MinC.Vfs

/-- A path with some slashes behind it. -/
def slashed (p : List UInt16) (n : Nat) : List UInt16 := p ++ List.replicate n 47

/-- A lookup comes to the last component of its path: all others are found. -/
def comesToLast (fs : WinFs) (path : WinNameidata) (p : List UInt16) (flags : UInt32) : Bool :=
  reachesLast fs (p.length + 2) (pathOpen path p flags) flags

/-! ### One slash -/

section
variable (fs : WinFs) (path : WinNameidata) {flags : UInt32}

theorem diskLookup_source (s : List UInt16) :
    diskLookup fs { path with s := s } flags =
      ({ (diskLookup fs path flags).1 with s := s }, (diskLookup fs path flags).2) := by
  have hname : ({ path with s := s } : WinNameidata).name = path.name := rfl
  unfold diskLookup
  rw [hname]
  cases fs.stat (flagSet flags winLockleaf) path.name with
  | none => rfl
  | some found =>
      obtain ⟨iNode, handle⟩ := found
      dsimp only
      rcases iNode.known with hknown | hknown | hknown
      · rw [hknown]
        dsimp only
        unfold diskFLookup
        split_ifs <;> rfl
      · rw [hknown]
        dsimp only
        unfold pipeFLookup
        split_ifs <;> rfl
      · rw [hknown]
        dsimp only
        unfold pdoFLookup
        split_ifs <;> rfl

/-- What is found does not depend on what is left of the source. -/
theorem pathGlob_source (s : List UInt16) :
    pathGlob fs { path with s := s } flags =
      ({ (pathGlob fs path flags).1 with s := s }, (pathGlob fs path flags).2) := by
  have hname : ({ path with s := s } : WinNameidata).name = path.name := rfl
  unfold pathGlob
  rw [hname]
  dsimp only
  split_ifs with hmissing hnode hmount
  · rfl
  · exact diskLookup_source fs { path with attribs := fs.attributes path.name } s
  · unfold driveLookup
    split_ifs <;> rfl
  · rfl

variable {fs path}

/-- What the reader does where it strips: it looks at what comes behind the
separator. -/
theorem pathRead_strips (hstrip : flagSet flags winStripslashes = true) :
    pathRead path flags =
      ({ path.wcpcpy path.r (92 :: firstComponent path.s) with
          base := path.r + 1
          s := afterComponent path.s },
        (afterComponent path.s).headD 0) :=
  Prod.ext rfl (if_pos hstrip)

/-- A slash behind the last component is not read as one. -/
theorem pathRead_slash_last (hstrip : flagSet flags winStripslashes = true) (h : 47 ∉ path.s) :
    pathRead { path with s := path.s ++ [47] } flags = pathRead path flags := by
  rw [pathRead_strips hstrip, pathRead_strips hstrip]
  dsimp only
  rw [firstComponent_append, afterComponent_append, if_neg h, afterComponent_of_not_mem h]
  rfl

/-- Before the last component, a slash at the end of the source is not seen. -/
theorem pathRead_slash (hstrip : flagSet flags winStripslashes = true) (h : 47 ∈ path.s)
    (hend : path.s.getLast? ≠ some 47) :
    pathRead { path with s := path.s ++ [47] } flags =
      ({ (pathRead path flags).1 with s := (pathRead path flags).1.s ++ [47] },
        (pathRead path flags).2) := by
  rw [pathRead_strips hstrip, pathRead_strips hstrip]
  dsimp only
  rw [firstComponent_append, afterComponent_append, if_pos h]
  cases hafter : afterComponent path.s with
  | nil =>
      have hsplit := split_source h
      rw [hafter] at hsplit
      exact absurd (by rw [hsplit, List.getLast?_concat]) hend
  | cons c rest => rfl

theorem getLast?_afterComponent (h : 47 ∈ path.s) (hend : path.s.getLast? ≠ some 47) :
    (afterComponent path.s).getLast? ≠ some 47 := by
  intro hlast
  apply hend
  rw [split_source h, List.getLast?_append, List.getLast?_cons, hlast]
  rfl

/-- With a slash behind its source, a walk comes to the last component as it does
without, and there it ends in the same state. -/
theorem pathWalk_slash (hstrip : flagSet flags winStripslashes = true) (n : Nat)
    (hs : 0 ∉ path.s) (hend : path.s.getLast? ≠ some 47) :
    reachesLast fs n { path with s := path.s ++ [47] } flags = reachesLast fs n path flags ∧
      (reachesLast fs n path flags = true →
        pathWalk fs n { path with s := path.s ++ [47] } flags = pathWalk fs n path flags) := by
  induction n generalizing path with
  | zero => exact ⟨rfl, fun h => absurd h Bool.false_ne_true⟩
  | succ n ih =>
      rw [reachesLast, reachesLast, pathWalk, pathWalk]
      by_cases hmem : 47 ∈ path.s
      · rw [pathRead_slash hstrip hmem hend]
        dsimp only
        rw [pathGlob_source]
        have hleft : (pathGlob fs (pathRead path flags).1 winFollow).1.s = afterComponent path.s :=
          pathGlob_s fs _ winFollow
        have hread : (pathRead path flags).1.s = afterComponent path.s := rfl
        by_cases hc : (pathRead path flags).2 = 0
        · -- what is left would be the slash alone
          have hafter := afterComponent_of_char path flags hs hc
          have hsplit := split_source hmem
          rw [hafter] at hsplit
          exact absurd (by rw [hsplit, List.getLast?_concat]) hend
        · have hgoes : ((pathRead path flags).2 == 0) = false := beq_eq_false_iff_ne.mpr hc
          simp only [hc, if_false, hgoes, Bool.false_or, hread]
          rcases hglob : pathGlob fs (pathRead path flags).1 winFollow with ⟨globbed, ok⟩
          rw [hglob] at hleft
          cases ok with
          | false => exact ⟨rfl, fun h => absurd h Bool.false_ne_true⟩
          | true =>
              dsimp only at hleft ⊢
              rw [Bool.true_and, Bool.true_and, ← hleft]
              apply ih
              · rw [hleft]
                exact zero_not_mem_afterComponent hs
              · rw [hleft]
                exact getLast?_afterComponent hmem hend
      · rw [pathRead_slash_last hstrip hmem]
        have hc : (pathRead path flags).2 = 0 := by
          rw [pathRead_strips hstrip, afterComponent_of_not_mem hmem]
          rfl
        simp only [hc, if_true, beq_self_eq_true, Bool.true_or]
        exact ⟨trivial, fun _ => trivial⟩

end

theorem comesToLast_slash {fs : WinFs} {path : WinNameidata} {flags : UInt32} {p : List UInt16}
    (hstrip : flagSet flags winStripslashes = true) (hs : 0 ∉ p) (hend : p.getLast? ≠ some 47) :
    reachesLast fs (p.length + 2) (pathOpen path (slashed p 1) flags) flags =
      comesToLast fs path p flags :=
  (pathWalk_slash hstrip (p.length + 2) (show 0 ∉ (pathOpen path p flags).s from hs) hend).1

/-- A path with one slash behind it leaves the state that the path leaves. -/
theorem vfsLookup_slash {fs : WinFs} {path : WinNameidata} {flags : UInt32} {p : List UInt16}
    (hstrip : flagSet flags winStripslashes = true) (hs : 0 ∉ p) (hend : p.getLast? ≠ some 47)
    (hcopy : flagSet flags winPathcopy = false) (hcomes : comesToLast fs path p flags = true) :
    vfsLookup fs path (slashed p 1) flags = vfsLookup fs path p flags := by
  have hwalk := (pathWalk_slash hstrip (p.length + 2)
    (show 0 ∉ (pathOpen path p flags).s from hs) hend).2 hcomes
  have hfuel : pathWalk fs (p.length + 2) (pathOpen path p flags) flags =
      pathWalk fs (p.length + 1) (pathOpen path p flags) flags :=
    pathWalk_fuel fs _ flags _ _ (Nat.lt_succ_of_lt (Nat.lt_succ_self _)) (Nat.lt_succ_self _)
  have hlength : (slashed p 1).length + 1 = p.length + 2 := by
    rw [slashed, List.length_append, List.length_replicate]
  rw [vfsLookup, vfsLookup, hcopy, if_neg Bool.false_ne_true, if_neg Bool.false_ne_true, hlength,
    ← hfuel, ← hwalk]
  rfl

/-! ### More slashes -/

/-- No name leads away: there is no link, mount point or node in a file, and no
file with the extension of a link. -/
structure PlainFs (fs : WinFs) : Prop where
  plain : ∀ name,
    fileClass (fs.attributes name) ≠ fileClassInode ∧ fileClass (fs.attributes name) ≠ fileClassMount
  noShortcut : ∀ name, fs.attributes (name ++ lnkType) = noAttribs

theorem windowsName_slashed (p : List UInt16) (n : Nat) :
    windowsName (slashed p n) = windowsName p ++ List.replicate n 92 := by
  rw [windowsName, slashed, List.map_append, List.map_replicate]
  rfl

theorem nameBelow_slashed (start p : List UInt16) (n : Nat) :
    nameBelow start (slashed p n) = nameBelow start p ++ List.replicate n 92 := by
  rw [nameBelow, windowsName_slashed, nameBelow, List.append_assoc]
  rfl

theorem stripped_slashed {flags : UInt32} {p : List UInt16}
    (hstrip : flagSet flags winStripslashes = true) (n : Nat) :
    stripped flags (slashed p (n + 1)) = slashed p n := by
  have hconcat : slashed p (n + 1) = slashed p n ++ [47] := by
    rw [slashed, List.replicate_succ', ← List.append_assoc, slashed]
  rw [hconcat, stripped, if_pos ⟨hstrip, List.getLast?_concat⟩, List.dropLast_concat]

/-- A name is not found with a backslash behind it. -/
theorem foundAs_ne {fs : WinFs} {name found found' more : List UInt16} (h : FoundAs fs name found)
    (h' : FoundAs fs (name ++ 92 :: more) found') : found' ≠ found := by
  obtain ⟨rest, hfound'⟩ : ∃ rest, found' = name ++ 92 :: rest := by
    rcases h' with rfl | ⟨rfl, -⟩
    · exact ⟨more, rfl⟩
    · exact ⟨more ++ exeType, by rw [List.append_assoc, List.cons_append]⟩
  rw [hfound']
  rcases h with rfl | ⟨rfl, -⟩
  · exact fun heq => List.cons_ne_nil _ _ (List.append_right_eq_self.mp heq)
  · intro heq
    exact absurd (List.cons.inj (List.append_cancel_left heq)).1 (by decide)

/-- Where the slashes behind a path are stripped. -/
def StripsSlashes (fs : WinFs) (path : WinNameidata) (p : List UInt16) (n : Nat)
    (flags : UInt32) : Prop :=
  n = 0 ∨ (n = 1 ∧ flagSet flags winPathcopy = false ∧ comesToLast fs path p flags = true)

section
variable {fs : WinFs} {path : WinNameidata} {flags : UInt32} {p : List UInt16}

/-- What a walk leaves where no name leads away. -/
theorem PlainFs.walk (h : PlainFs fs) (hstand : path.place.Standing)
    (hcopy : flagSet flags winPathcopy = false) {s : List UInt16} (hs : 0 ∉ s) {m : Nat}
    (hm : s.length < m) :
    (reachesLast fs m (pathOpen path s flags) flags = true ∧
      FoundAs fs (nameBelow path.name (stripped flags s)) (vfsLookup fs path s flags).name) ∨
    (vfsLookup fs path s flags).name = nameBelow path.name s := by
  have hwalk := pathWalk_below m (show (pathOpen path s flags).place.Standing from hstand) hs hm
    (fun part _ => noLink_noPipe (h.plain _))
    (show NoShortcut fs (nameBelow path.name (stripped flags s)) from fun _ => h.noShortcut _)
  have hlookup : vfsLookup fs path s flags = pathWalk fs m (pathOpen path s flags) flags := by
    rw [vfsLookup, hcopy, if_neg Bool.false_ne_true]
    exact pathWalk_fuel fs _ flags _ _ (Nat.lt_succ_self _) hm
  rw [hlookup]
  exact hwalk.imp_right fun hname => hname.2

/-- What a lookup that copies leaves where no name leads away. -/
theorem PlainFs.copy (h : PlainFs fs) (hstand : path.place.Standing)
    (hcopy : flagSet flags winPathcopy = true) {s : List UInt16} (hs : 0 ∉ s) :
    FoundAs fs (path.name ++ windowsName s) (vfsLookup fs path s flags).name := by
  obtain ⟨hstands, hname⟩ := pathCopy_place hstand hs flags
  obtain ⟨hlink, hpipe⟩ := noLink_noPipe (h.plain (pathCopy (pathOpen path s flags)).name)
  rw [vfsLookup, hcopy, if_pos rfl, ← hname]
  exact pathClose_foundAs hstands hlink hpipe fun _ => h.noShortcut _

/-- Slashes behind a path are stripped where there is none, or one that the
walk comes to. Where no name leads away, they are stripped nowhere else. -/
theorem vfsLookup_slashes_iff (hstand : path.place.Standing) (hs : 0 ∉ p)
    (hend : p.getLast? ≠ some 47) (hstrip : flagSet flags winStripslashes = true) (n : Nat) :
    (StripsSlashes fs path p n flags →
      (vfsLookup fs path (slashed p n) flags).name = (vfsLookup fs path p flags).name) ∧
    (PlainFs fs →
      ((vfsLookup fs path (slashed p n) flags).name = (vfsLookup fs path p flags).name ↔
        StripsSlashes fs path p n flags)) := by
  have hstrips : StripsSlashes fs path p n flags →
      (vfsLookup fs path (slashed p n) flags).name = (vfsLookup fs path p flags).name := by
    rintro (rfl | ⟨rfl, hcopy, hcomes⟩)
    · rw [slashed, List.replicate_zero, List.append_nil]
    · rw [vfsLookup_slash hstrip hs hend hcopy hcomes]
  refine ⟨hstrips, fun hplain => ⟨fun hsame => ?_, hstrips⟩⟩
  obtain rfl | ⟨k, rfl⟩ : n = 0 ∨ ∃ k, n = k + 1 := by
    cases n with
    | zero => exact .inl rfl
    | succ k => exact .inr ⟨k, rfl⟩
  · exact .inl rfl
  have hslashed : 0 ∉ slashed p (k + 1) := by
    intro hmem
    rcases List.mem_append.mp hmem with hmem | hmem
    · exact hs hmem
    · exact absurd (List.eq_of_mem_replicate hmem) (by decide)
  by_cases hcopy : flagSet flags winPathcopy = true
  · -- all slashes are copied
    have hmore := hplain.copy hstand hcopy hslashed
    rw [windowsName_slashed, ← List.append_assoc] at hmore
    exact absurd hsame (foundAs_ne (hplain.copy hstand hcopy hs) hmore)
  · replace hcopy : flagSet flags winPathcopy = false := by simpa using hcopy
    have hfound : FoundAs fs (nameBelow path.name p) (vfsLookup fs path p flags).name := by
      have hunslashed : stripped flags p = p := if_neg fun h => hend h.2
      rcases hplain.walk hstand hcopy hs (Nat.lt_succ_self _) with ⟨-, hfound⟩ | hname
      · rwa [hunslashed] at hfound
      · exact .inl hname
    have hlength : (slashed p (k + 1)).length < p.length + k + 2 := by
      rw [slashed, List.length_append, List.length_replicate]
      omega
    rcases hplain.walk hstand hcopy hslashed hlength with ⟨hcomes, hmore⟩ | hmore
    · -- of more than one slash, all but one are left
      rw [stripped_slashed hstrip, nameBelow_slashed] at hmore
      cases k with
      | zero =>
          right
          refine ⟨rfl, hcopy, ?_⟩
          rw [← comesToLast_slash hstrip hs hend]
          exact hcomes
      | succ k => exact absurd hsame (foundAs_ne hfound hmore)
    · rw [nameBelow_slashed] at hmore
      exact absurd hsame (foundAs_ne hfound (.inl hmore))

end

theorem plainFs_emptyFs : PlainFs emptyFs where
  plain _ := ⟨show fileClass noAttribs ≠ fileClassInode by decide,
    show fileClass noAttribs ≠ fileClassMount by decide⟩
  noShortcut _ := rfl

/-- `a/` is looked up as `a` is. -/
theorem vfsLookup_slashes_iff_one :
    (vfsLookup emptyFs WinNameidata.zero (slashed [97] 1) winStripslashes).name =
      (vfsLookup emptyFs WinNameidata.zero [97] winStripslashes).name :=
  ((vfsLookup_slashes_iff (show WinNameidata.zero.place.Standing from rfl)
    (show (0 : UInt16) ∉ [97] by decide) (by decide) (by decide) 1).2 plainFs_emptyFs).mpr
    (.inr ⟨rfl, by decide, by decide⟩)

/-- Of two slashes both are left, and so is one behind a path whose first
component is missing. -/
theorem slashes_not_stripped :
    (vfsLookup emptyFs WinNameidata.zero (slashed [97] 2) winStripslashes).name = [92, 97, 92, 92] ∧
    (vfsLookup emptyFs WinNameidata.zero [97] winStripslashes).name = [92, 97] ∧
    (vfsLookup emptyFs WinNameidata.zero (slashed [97, 47, 98] 1) winStripslashes).name =
      [92, 97, 92, 98, 92] ∧
    (vfsLookup emptyFs WinNameidata.zero [97, 47, 98] winStripslashes).name = [92, 97, 92, 98] := by
  decide

end MinC.Sys
