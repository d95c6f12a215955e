import MinC.Sys.Namei
import MinC.Vfs.Plain

/-!
The name that a lookup leaves.

A walk puts a backslash before each component that it reads, and a copy turns
each separator into one. Where nothing leads away, the two write the same name,
so that it makes no difference at which component the walk gives way to the
copy. A lookup that copies all of its source puts nothing before it.
-/

namespace MinC.Sys

open MinC.Lib MinC.Win MinC.Vfs

/-- The components of a source behind a name, each with a backslash before it. -/
def componentsBelow (start s : List UInt16) : List UInt16 :=
  start ++ (s.splitOn 47).flatMap fun component => 92 :: component.map underscore

/-- The name that a source has behind another. -/
def lookupName (flags : UInt32) (start s : List UInt16) : List UInt16 :=
  if flagSet flags winPathcopy then start ++ windowsName s else componentsBelow start s

theorem componentsBelow_eq (start s : List UInt16) : componentsBelow start s = nameBelow start s := by
  rw [componentsBelow, nameBelow]
  congr 1
  induction s with
  | nil => rfl
  | cons c s ih =>
      rw [List.splitOn_cons_eq_if_modifyHead]
      by_cases hc : c = 47
      · subst hc
        rw [if_pos (beq_self_eq_true _), List.flatMap_cons, ih]
        rfl
      · obtain ⟨p, ps, hps⟩ := List.exists_cons_of_ne_nil (List.splitOn_ne_nil 47 s)
        have hkept : backslash (underscore c) = underscore c := by
          refine if_neg ?_
          rw [underscore, replace]
          split_ifs
          · decide
          · exact hc
        rw [hps, List.flatMap_cons] at ih
        rw [if_neg (by simpa using hc), hps, List.modifyHead_cons, List.flatMap_cons, List.map_cons,
          windowsName, List.map_cons, Function.comp_apply, hkept]
        -- the character goes between the backslash and what is below it already
        have htail : p.map underscore ++ (ps.flatMap fun component => 92 :: component.map underscore) =
            windowsName s := (List.cons.inj ih).2
        rw [List.cons_append, List.cons_append, htail]
        rfl

/-- The names that a lookup asks Windows for, those with an extension apart. -/
def LooksAt (fs : WinFs) (flags : UInt32) (start s name : List UInt16) : Prop :=
  if flagSet flags winPathcopy then name = start ++ windowsName s
  else ∃ part, Met fs start s part ∧ name = nameBelow start part

/-- Nothing that a lookup meets leads away: no link, mount point or node in a
file, and no file with an extension in the place of the last component. -/
structure Straight (fs : WinFs) (flags : UInt32) (start s : List UInt16) : Prop where
  plain : ∀ name, LooksAt fs flags start s name →
    fileClass (fs.attributes name) ≠ fileClassInode ∧ fileClass (fs.attributes name) ≠ fileClassMount
  noProgram : fs.attributes (lookupName flags start s ++ exeType) = noAttribs
  noShortcut : fs.attributes (lookupName flags start s ++ lnkType) = noAttribs

theorem noLink_noPipe {fs : WinFs} {name : List UInt16}
    (h : fileClass (fs.attributes name) ≠ fileClassInode ∧
      fileClass (fs.attributes name) ≠ fileClassMount) : NoLink fs name ∧ NoPipe fs name :=
  ⟨⟨h.2, fun hnode => absurd hnode h.1⟩, fun hnode => absurd hnode h.1⟩

theorem foundAs_eq {fs : WinFs} {name found : List UInt16} (h : FoundAs fs name found)
    (hexe : fs.attributes (name ++ exeType) = noAttribs) : found = name := by
  rcases h with hname | ⟨-, -, hfound⟩
  · exact hname
  · exact absurd hexe hfound

/-- Where nothing leads away, a lookup that strips no separators leaves the name
that its source has, whether or not the components are there. -/
theorem vfsLookup_name {fs : WinFs} {path : WinNameidata} {s : List UInt16} {flags : UInt32}
    (hstand : path.place.Standing) (hs : 0 ∉ s)
    (hflags : flagSet flags winStripslashes = false) (h : Straight fs flags path.name s) :
    (vfsLookup fs path s flags).name = lookupName flags path.name s := by
  obtain ⟨hplain, hexe, hlnk⟩ := h
  by_cases hcopy : flagSet flags winPathcopy = true
  · simp only [LooksAt, lookupName, hcopy, if_true, forall_eq] at hplain hexe hlnk ⊢
    obtain ⟨hstands, hname⟩ := pathCopy_place hstand hs flags
    obtain ⟨hlink, hpipe⟩ := noLink_noPipe hplain
    rw [← hname] at hlink hpipe hexe hlnk ⊢
    simp only [vfsLookup, hcopy, if_true]
    exact foundAs_eq (pathClose_foundAs hstands hlink hpipe fun _ => hlnk) hexe
  · simp only [LooksAt, lookupName, hcopy, componentsBelow_eq] at hplain hexe hlnk ⊢
    let opened := pathOpen path s flags
    have hstripped : stripped flags opened.s = s := by
      refine if_neg ?_
      rw [hflags]
      exact fun hstrip => Bool.false_ne_true hstrip.1
    have hwalk := pathWalk_below (s.length + 1) (show opened.place.Standing from hstand) hs
      (Nat.lt_succ_self _) (fun part hpart => noLink_noPipe (hplain _ ⟨part, hpart, rfl⟩))
      (show NoShortcut fs (nameBelow opened.name (stripped flags opened.s)) by
        rw [hstripped]
        exact fun _ => hlnk)
    rw [hstripped] at hwalk
    simp only [vfsLookup, hcopy]
    rcases hwalk with ⟨-, hfound⟩ | ⟨-, hname⟩
    · exact foundAs_eq hfound hexe
    · exact hname

theorem straight_emptyFs (flags : UInt32) (start s : List UInt16) :
    Straight emptyFs flags start s where
  plain _ _ := ⟨show fileClass noAttribs ≠ fileClassInode by decide,
    show fileClass noAttribs ≠ fileClassMount by decide⟩
  noProgram := rfl
  noShortcut := rfl

/-- Two components, and two separators behind them. -/
theorem vfsLookup_name_slashes :
    (vfsLookup emptyFs WinNameidata.zero [97, 58, 47, 98, 47, 47] winFollow).name =
      [92, 97, 95, 92, 98, 92, 92] :=
  vfsLookup_name (show WinNameidata.zero.place.Standing from rfl) (by decide) rfl
    (straight_emptyFs winFollow [] [97, 58, 47, 98, 47, 47])

/-- A source that is copied has no separator before it. -/
theorem copy_not_below :
    Straight emptyFs winPathcopy WinNameidata.zero.name [97] ∧
      flagSet winPathcopy winStripslashes = false ∧
      (vfsLookup emptyFs WinNameidata.zero [97] winPathcopy).name = [97] ∧
      (vfsLookup emptyFs WinNameidata.zero [97] winPathcopy).name ≠
        componentsBelow WinNameidata.zero.name [97] :=
  ⟨straight_emptyFs _ _ _, by decide, by decide, by decide⟩

end MinC.Sys
