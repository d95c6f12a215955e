import MinC.Vfs.Links

/-!
Making and reading links.

A link is a node in a file: a head that says what it is, and the text that the
lookup of the target left. It is made where the lookup of its path ends, and
found there again, because nothing that the lookup met on the way is another
for a file that was not there before.
-/

namespace MinC.Vfs

open MinC.Lib MinC.Win

/-! ### Nodes -/

/-- `INAMESIZE`. -/
def inameSize (name : List UInt16) : UInt32 := UInt32.ofNat ((name.length + 1) * 2)

theorem known_disk : WinFsType.disk = .disk ∨ WinFsType.disk = .pipe ∨ WinFsType.disk = .pdo :=
  .inl rfl

/-- `DEV_TYPE_ROOT`, which is what a node in a file is on. -/
def linkInode (target : List UInt16) : WinInode :=
  ⟨0x0A40, .vlnk, .disk, inameSize target, known_disk⟩

/-- What `disk_F_CREATE` does to what Windows answers. There was nothing under the
name, which is not that of a drive, and now the node is. What was under other
names is there still; some that named nothing may be other names of the node. -/
structure Creates (fs fs' : WinFs) (name : List UInt16) (iNode : WinInode)
    (target : List UInt16) : Prop where
  missing : fs.attributes name = noAttribs
  not_drive : name.getLast? ≠ some 58
  attributes : fileClass (fs'.attributes name) = fileClassInode
  node : ∃ handle, fs'.stat false name = some (iNode, handle) ∧
    fs'.read handle iNode.nameSize = target
  kept : ∀ other, fs.attributes other ≠ noAttribs →
    fs'.attributes other = fs.attributes other ∧ fs'.node other = fs.node other
  stale : fs'.stale = fs.stale

def diskReadlink (fs : WinFs) (path : WinNameidata) : Option WinNameidata :=
  if path.fileType ≠ .vlnk then none
  else some (path.write 0 (fs.read path.object path.size ++ [0]))

def vfsReadlink (fs : WinFs) (path : WinNameidata) : Option WinNameidata :=
  match path.fsType with
  | .disk => diskReadlink fs path
  | .shell =>
      match shellReadlink fs path with
      | (linked, true) => some linked
      | (_, false) => none
  | _ => none

/-! ### Arriving at the last component -/

/-- The place of the last component of a source, if those before it are there. -/
def arrive (fs : WinFs) : Nat → Place → List UInt16 → Option Place
  | 0, _, _ => none
  | n + 1, p, s =>
      if 47 ∈ s then
        match follow fs (p.enter (firstComponent s)) (p.r + 1) (firstComponent s) with
        | some (q, _) => arrive fs n q (afterComponent s)
        | none => none
      else some (p.enter (firstComponent s))

theorem pathRead_congr (path : WinNameidata) {flags : UInt32}
    (h : flagSet flags winStripslashes = false) : pathRead path flags = pathRead path winFollow := by
  unfold pathRead
  rw [h, flagSet_follow_stripslashes]

/-- A walk whose components are there gets to the last one. -/
theorem pathWalk_arrive {fs : WinFs} {flags : UInt32}
    (hflags : flagSet flags winStripslashes = false) (n : Nat) {path : WinNameidata} {q : Place}
    (hs : 0 ∉ path.s) (h : arrive fs n path.place path.s = some q) :
    ∃ read : WinNameidata, read.place = q ∧ read.name.length ≤ read.r ∧
      pathWalk fs n path flags = pathClose fs read flags := by
  -- by turns, as the walk is: a component that is there is followed to where it leads
  induction n generalizing path with
  | zero => cases h
  | succ n ih =>
      have hread := pathRead_place path winFollow hs
      rw [arrive] at h
      rw [pathWalk, pathRead_congr path hflags]
      by_cases hmem : 47 ∈ path.s
      · have hc : ¬ (pathRead path winFollow).2 = 0 := fun hc => (pathRead_char path).mp hc hmem
        rw [if_pos hmem] at h
        simp only [hc, if_false]
        cases hfollow : follow fs (path.place.enter (firstComponent path.s)) (path.place.r + 1)
            (firstComponent path.s) with
        | none =>
            rw [hfollow] at h
            cases h
        | some found =>
            obtain ⟨p, attribs⟩ := found
            rw [hfollow] at h
            have hgoes : GoesOn (pathRead path winFollow).1.s
                (pathGlob fs (pathRead path winFollow).1 winFollow) p attribs := by
              refine pathGlob_some fs _ ?_
              rw [hread, pathRead_base, pathRead_tail path winFollow hs]
              exact hfollow
            rw [hgoes.eq]
            refine ih ?_ ?_
            · rw [hgoes.s]
              exact zero_not_mem_afterComponent hs
            · rw [hgoes.place, hgoes.s]
              exact h
      · rw [if_neg hmem] at h
        simp only [(pathRead_char path).mpr hmem, if_true]
        refine ⟨_, hread.trans (Option.some.inj h), ?_, rfl⟩
        have hle := length_enter_le path.place (firstComponent path.s)
        rwa [← hread] at hle

/-- What leads on leads on still. -/
theorem Creates.follow {fs fs' : WinFs} {name target : List UInt16} {iNode : WinInode}
    (h : Creates fs fs' name iNode target) {p q : Place} {base : Nat} {tail : List UInt16}
    {attribs : UInt32} (hfollow : follow fs p base tail = some (q, attribs)) :
    ∃ attribs', MinC.Vfs.follow fs' p base tail = some (q, attribs') := by
  have hfound : fs.attributes p.name ≠ noAttribs := by
    intro hmissing
    rw [(follow_eq_none_iff fs).mpr hmissing] at hfollow
    cases hfollow
  obtain ⟨hattribs, hnode⟩ := h.kept p.name hfound
  rw [MinC.Vfs.follow, hattribs]
  rw [MinC.Vfs.follow] at hfollow
  by_cases hclass : fileClass (fs.attributes p.name) = fileClassInode
  · rw [if_neg hfound, if_pos hclass] at hfollow ⊢
    obtain ⟨rfl, _⟩ := Prod.mk.inj (Option.some.inj hfollow)
    refine ⟨(followNode fs' p base).2, congrArg some (Prod.ext ?_ rfl)⟩
    unfold followNode linkPlace
    rw [hnode, h.stale]
    cases fs.node p.name with
    | none => rfl
    | some found =>
        obtain ⟨type, text⟩ := found
        cases type <;> rfl
  · rw [if_neg hfound, if_neg hclass] at hfollow ⊢
    exact ⟨attribs, hfollow⟩

/-- A walk that arrived arrives still. -/
theorem Creates.arrive {fs fs' : WinFs} {name target : List UInt16} {iNode : WinInode}
    (h : Creates fs fs' name iNode target) (n : Nat) {p q : Place} {s : List UInt16}
    (harrive : arrive fs n p s = some q) : MinC.Vfs.arrive fs' n p s = some q := by
  induction n generalizing p s with
  | zero => cases harrive
  | succ n ih =>
      rw [MinC.Vfs.arrive] at harrive ⊢
      by_cases hmem : 47 ∈ s
      · rw [if_pos hmem] at harrive ⊢
        cases hfollow : MinC.Vfs.follow fs (p.enter (firstComponent s)) (p.r + 1)
            (firstComponent s) with
        | none =>
            rw [hfollow] at harrive
            cases harrive
        | some found =>
            obtain ⟨next, attribs⟩ := found
            rw [hfollow] at harrive
            obtain ⟨attribs', hfollow'⟩ := h.follow hfollow
            rw [hfollow']
            exact ih harrive
      · rw [if_neg hmem] at harrive ⊢
        exact harrive

/-! ### The last component of a link -/

section
variable {fs : WinFs} {path : WinNameidata}

/-- A name that is looked up and found is what it was, or that of a drive. -/
theorem pathGlob_nofollow (h : fs.attributes path.name ≠ noAttribs) :
    ∃ globbed, pathGlob fs path winNofollow = (globbed, true) ∧
      (globbed.name = path.name ∨ globbed.name.getLast? = some 58) := by
  rw [pathGlob]
  simp only [h, if_false]
  split_ifs with hinode hmount
  · rw [diskLookup]
    split
    · exact ⟨_, rfl, .inl rfl⟩
    · rename_i iNode handle _
      rcases iNode.known with hdisk | hpipe | hpdo
      · simp only [hdisk, diskFLookup]
        exact ⟨_, rfl, .inl rfl⟩
      · simp only [hpipe, pipeFLookup]
        exact ⟨_, rfl, .inl rfl⟩
      · simp only [hpdo, pdoFLookup]
        exact ⟨_, rfl, .inl rfl⟩
  -- a mount point is replaced by its drive
  · refine ⟨_, rfl, .inr ?_⟩
    let mounted := { path with
      attribs := fs.attributes path.name
      mountId := mountIdOf (path.resolved.getD path.base 0) }
    have hplace := mounted.place_wcpcpy 0
      (zero_not_mem_winDrivename (zero_not_mem_text (path.resolved.drop path.base)))
    rw [copy_zero] at hplace
    have hname : (mounted.wcpcpy 0 (winDrivename (text (path.resolved.drop path.base)))).name =
        winDrivename (text (path.resolved.drop path.base)) := congrArg Place.name hplace
    change (mounted.wcpcpy 0 (winDrivename (text (path.resolved.drop path.base)))).name.getLast? = _
    rw [hname, winDrivename]
    exact List.getLast?_concat
  · exact ⟨_, rfl, .inl rfl⟩

theorem extend_nil {p : Place} (h : p.name.length ≤ p.r) : p.extend [] = p := by
  rw [Place.extend, splice]
  split_ifs with hle
  · rw [List.append_nil, List.take_of_length_le h]
  · rfl

/-- A node is made under the name of the last component. -/
theorem pathClose_missing_name (hr : path.name.length ≤ path.r)
    (hmissing : fs.attributes (pathClose fs path winNofollow).name = noAttribs)
    (hdrive : (pathClose fs path winNofollow).name.getLast? ≠ some 58) :
    (pathClose fs path winNofollow).name = path.name := by
  -- nothing is found under the name, so that it is none with an extension
  by_cases hfound : fs.attributes path.name = noAttribs
  · by_cases hexe : fs.attributes (path.place.extend exeType).name = noAttribs
    · obtain ⟨probed, hprobed, hplace, _⟩ :=
        shGlobType_missing fs { path with attribs := noAttribs } exeType (by decide) hexe
      have hprobedPlace : probed.place = path.place := hplace.trans (extend_nil hr)
      have hclose : (pathClose fs path winNofollow).name =
          (shGlobLink fs probed winNofollow).1.name :=
        congrArg (fun found => found.1.name) (pathClose_lnk fs path winNofollow hfound hprobed)
      rw [hclose] at hmissing ⊢
      by_cases hlnk : fs.attributes (path.place.extend lnkType).name = noAttribs
      · obtain ⟨linked, hlinked, hplace', _⟩ :=
          shGlobType_missing fs probed lnkType (by decide) (by rw [hprobedPlace]; exact hlnk)
        simp only [shGlobLink, hlinked]
        change linked.place.name = path.place.name
        rw [hplace', hprobedPlace, extend_nil hr]
      · obtain ⟨linked, hlinked, hplace', hattribs⟩ :=
          shGlobType_found fs probed lnkType (by decide) (by rw [hprobedPlace]; exact hlnk)
        simp only [shGlobLink, hlinked] at hmissing
        rw [hprobedPlace] at hplace'
        refine absurd ?_ hlnk
        rw [← hplace']
        exact hmissing
    · obtain ⟨probed, hprobed, hplace, _⟩ :=
        shGlobType_found fs { path with attribs := noAttribs } exeType (by decide) hexe
      have hclose : (pathClose fs path winNofollow).name = probed.place.name :=
        congrArg (fun found => found.1.name) (pathClose_exe fs path winNofollow hfound hprobed)
      rw [hclose, hplace] at hmissing
      exact absurd hmissing hexe
  · obtain ⟨globbed, hglob, hname⟩ := pathGlob_nofollow hfound
    have hclose : (pathClose fs path winNofollow).name = globbed.name := by
      rw [pathClose, pathKind, hglob]
      simp only
      split_ifs <;> rfl
    rw [hclose] at hdrive ⊢
    exact hname.resolve_right hdrive

theorem not_directory {attribs : UInt32} (h : fileClass attribs = fileClassInode) :
    flagSet attribs fileAttributeDirectory = false := by
  have hbit : fileClass attribs &&& fileAttributeDirectory = attribs &&& fileAttributeDirectory := by
    rw [fileClass, UInt32.and_assoc]
    rfl
  rw [flagSet, ← hbit, h]
  rfl

/-- A link that is looked up to be read is opened. -/
theorem pathClose_link {iNode : WinInode} {handle : Nat}
    (hclass : fileClass (fs.attributes path.name) = fileClassInode)
    (hstat : fs.stat false path.name = some (iNode, handle)) (hdisk : iNode.fsType = .disk) :
    pathClose fs path winIssymlink =
      { path with
        attribs := fs.attributes path.name
        deviceId := iNode.deviceId
        fileType := iNode.fileType
        fsType := .disk
        size := iNode.nameSize
        object := handle
        last := (path.r : Int) - 1 } := by
  have hfound : fs.attributes path.name ≠ noAttribs := by
    intro hmissing
    rw [hmissing] at hclass
    exact absurd hclass (by decide)
  have hglob : pathGlob fs path winIssymlink =
      ({ path with
        attribs := fs.attributes path.name
        deviceId := iNode.deviceId
        fileType := iNode.fileType
        fsType := .disk
        size := iNode.nameSize
        object := handle }, true) := by
    rw [pathGlob]
    simp only [hfound, hclass, if_false, if_true]
    have hopened : fs.stat (flagSet winIssymlink winLockleaf)
        { path with attribs := fs.attributes path.name }.name = some (iNode, handle) := hstat
    rw [diskLookup, hopened]
    simp only [hdisk]
    rfl
  rw [pathClose, pathKind, hglob]
  simp only [not_directory hclass]
  rfl

/-- The flags that the last component is looked at with. -/
structure SameFlags (flags flags' : UInt32) : Prop where
  issymlink : flagSet flags winIssymlink = flagSet flags' winIssymlink
  follow : flagSet flags winFollow = flagSet flags' winFollow
  lockleaf : flagSet flags winLockleaf = flagSet flags' winLockleaf
  requireobject : flagSet flags winRequireobject = flagSet flags' winRequireobject
  nocrossmount : flagSet flags winNocrossmount = flagSet flags' winNocrossmount

theorem SameFlags.close {flags flags' : UInt32} (h : SameFlags flags flags') :
    pathClose fs path flags = pathClose fs path flags' := by
  have hdisk : ∀ path, diskLookup fs path flags = diskLookup fs path flags' := by
    intro path
    unfold diskLookup diskFLookup pipeFLookup pdoFLookup
    rw [h.issymlink, h.follow, h.lockleaf, h.requireobject]
  have hdrive : ∀ path, driveLookup path flags = driveLookup path flags' := by
    intro path
    rw [driveLookup, driveLookup, h.nocrossmount]
  have hlink : ∀ path, shGlobLink fs path flags = shGlobLink fs path flags' := by
    intro path
    rw [shGlobLink, shGlobLink, h.follow]
  unfold pathClose pathKind pathGlob
  simp only [hdisk, hdrive, hlink]

end

end MinC.Vfs
