import MinC.Vfs.Mount
import MinC.Vfs.Walk

/-!
Indexes into the mount table.

The index of a mount is computed from a character, without a look at what it is:
the first one of a drive, of the name of a mount point or of the target of a
link. A path under resolution keeps the one that was computed last. Here it is
found along a lookup from which character that is.
-/

namespace MinC.Vfs

open MinC.Lib MinC.Win

/-- The characters that the table has a slot for: letters, the character before them, which
gets the number 0, and none. -/
def IsDrive (ch : UInt16) : Prop := ch = 0 ∨ (65 ≤ ch ∧ ch ≤ 90) ∨ (96 ≤ ch ∧ ch ≤ 122)

instance (ch : UInt16) : Decidable (IsDrive ch) := inferInstanceAs (Decidable (_ ∨ _ ∨ _))

theorem mountIdOf_lt_iff (ch : UInt16) : mountIdOf ch < winMountMax ↔ IsDrive ch := by
  have hlt := ch.toNat_lt
  rw [mountIdOf, IsDrive, tolower, UInt32.lt_iff_toNat_lt]
  simp only [UInt16.le_iff_toNat_le, ← UInt16.toNat_inj, UInt16.reduceToNat]
  split_ifs with hzero hupper
  · exact iff_of_true (by decide) (.inl hzero)
  · have hsum : (ch + 32).toNat = ch.toNat + 32 := by
      simp only [UInt16.toNat_add, UInt16.reduceToNat]
      omega
    simp only [UInt32.toNat_sub, UInt32.toNat_add, UInt16.toNat_toUInt32, UInt32.reduceToNat, hsum,
      winMountMax]
    omega
  · simp only [UInt32.toNat_sub, UInt32.toNat_add, UInt16.toNat_toUInt32, UInt32.reduceToNat,
      winMountMax]
    omega

/-! ### Characters along a lookup -/

/-- The index that is kept if none is computed. -/
def mountFrom (mountId : UInt32) (letter : Option UInt16) : UInt32 := letter.elim mountId mountIdOf

theorem mountFrom_or (mountId : UInt32) (later earlier : Option UInt16) :
    mountFrom mountId (later.or earlier) = mountFrom (mountFrom mountId earlier) later := by
  cases later <;> rfl

section
variable (fs : WinFs)

/-- The drive of the target of a link. One in the root gets the index that no character has. -/
def diskFLetter (handle : Nat) (flags size : UInt32) : Option UInt16 :=
  if flagSet flags winIssymlink then none
  else if !flagSet flags winFollow then none
  else
    let buffer := fs.read handle size
    if secondCell fs.stale buffer = 58 then some (buffer.headD 0)
    else if secondCell fs.stale buffer = 92 then some 0
    else none

def diskLetter (path : WinNameidata) (flags : UInt32) : Option UInt16 :=
  match fs.stat (flagSet flags winLockleaf) path.name with
  | none => none
  | some (iNode, handle) =>
      if iNode.fsType = .disk then diskFLetter fs handle flags iNode.nameSize else none

def globLetter (path : WinNameidata) (flags : UInt32) : Option UInt16 :=
  let attribs := fs.attributes path.name
  if attribs = noAttribs then none
  else if fileClass attribs = fileClassInode then diskLetter fs path flags
  else if fileClass attribs = fileClassMount then some (path.resolved.getD path.base 0)
  else none

/-- The drive of the target of a link of the shell. -/
def shellLetter (path : WinNameidata) : Option UInt16 :=
  match winReadlink fs path.name with
  | none => none
  | some (_, buffer) =>
      if secondCell fs.stale buffer.text = 58 then some (buffer.text.headD 0) else none

def linkLetter (path : WinNameidata) (flags : UInt32) : Option UInt16 :=
  match shGlobType fs lnkType path with
  | (_, false) => none
  | (probed, true) => if flagSet flags winFollow then shellLetter fs probed else none

def closeLetter (path : WinNameidata) (flags : UInt32) : Option UInt16 :=
  match pathGlob fs path flags with
  | (_, true) => globLetter fs path flags
  | (globbed, false) =>
      match shGlobType fs exeType globbed with
      | (_, true) => globLetter fs path flags
      | (probed, false) => (linkLetter fs probed flags).or (globLetter fs path flags)

/-- The character of the last index along the loop. -/
def walkLetter : Nat → WinNameidata → UInt32 → Option UInt16
  | 0, _, _ => none
  | fuel + 1, path, flags =>
      match pathRead path flags with
      | (read, c) =>
          if c = 0 then closeLetter fs read flags
          else match pathGlob fs read winFollow with
            | (globbed, true) => (walkLetter fuel globbed flags).or (globLetter fs read winFollow)
            | (_, false) => globLetter fs read winFollow

def lookupLetter (path : WinNameidata) (source : List UInt16) (flags : UInt32) : Option UInt16 :=
  let opened := pathOpen path source flags
  if flagSet flags winPathcopy then closeLetter fs (pathCopy opened) flags
  else walkLetter fs (source.length + 1) opened flags

/-! ### The index of a lookup -/

variable (path : WinNameidata) (flags : UInt32)

theorem diskFLookup_mountId (handle : Nat) :
    (diskFLookup fs handle flags path).1.mountId =
      mountFrom path.mountId (diskFLetter fs handle flags path.size) := by
  rw [diskFLookup, diskFLetter]
  split_ifs with hsymlink hfollow
  · rfl
  · rfl
  · dsimp only
    split_ifs <;> rfl

theorem diskLookup_mountId :
    (diskLookup fs path flags).1.mountId = mountFrom path.mountId (diskLetter fs path flags) := by
  rw [diskLookup, diskLetter]
  cases fs.stat (flagSet flags winLockleaf) path.name with
  | none => rfl
  | some found =>
      obtain ⟨iNode, handle⟩ := found
      dsimp only
      cases hfsType : iNode.fsType with
      | disk => exact diskFLookup_mountId fs _ flags handle
      | pipe =>
          rw [if_neg (by decide)]
          simp only [pipeFLookup]
          split_ifs <;> rfl
      | pdo =>
          rw [if_neg (by decide)]
          simp only [pdoFLookup]
          split_ifs <;> rfl
      | _ => rfl

theorem driveLookup_mountId :
    (driveLookup path flags).1.mountId = mountIdOf (path.resolved.getD path.base 0) := by
  rw [driveLookup]
  dsimp only
  split_ifs <;> rfl

theorem pathGlob_mountId :
    (pathGlob fs path flags).1.mountId = mountFrom path.mountId (globLetter fs path flags) := by
  rw [pathGlob, globLetter]
  dsimp only
  split_ifs with hmissing hinode hmount
  · rfl
  · exact diskLookup_mountId fs { path with attribs := fs.attributes path.name } flags
  · exact driveLookup_mountId { path with attribs := fs.attributes path.name } flags
  · rfl

theorem shGlobType_mountId (typeName : List UInt16) :
    (shGlobType fs typeName path).1.mountId = path.mountId := by
  rw [shGlobType]
  split_ifs <;> rfl

theorem shellReadlink_mountId :
    (shellReadlink fs path).1.mountId = mountFrom path.mountId (shellLetter fs path) := by
  rw [shellReadlink, shellLetter]
  cases winReadlink fs path.name with
  | none => rfl
  | some found =>
      dsimp only
      split_ifs <;> rfl

theorem shGlobLink_mountId :
    (shGlobLink fs path flags).1.mountId = mountFrom path.mountId (linkLetter fs path flags) := by
  have hprobed := shGlobType_mountId fs path lnkType
  rw [shGlobLink, linkLetter]
  obtain ⟨⟨probed, found⟩, hprobe⟩ : ∃ probe, shGlobType fs lnkType path = probe := ⟨_, rfl⟩
  rw [hprobe] at hprobed ⊢
  cases found with
  | false => exact hprobed
  | true =>
      dsimp only at hprobed ⊢
      split_ifs with hfollow
      · rw [← hprobed]
        exact shellReadlink_mountId fs probed
      · exact hprobed

theorem pathClose_mountId :
    (pathClose fs path flags).mountId = mountFrom path.mountId (closeLetter fs path flags) := by
  have hglobbed := pathGlob_mountId fs path flags
  change (pathKind fs path flags).mountId = _
  rw [pathKind, closeLetter]
  obtain ⟨⟨globbed, found⟩, hglob⟩ : ∃ glob, pathGlob fs path flags = glob := ⟨_, rfl⟩
  rw [hglob] at hglobbed ⊢
  cases found with
  | true =>
      dsimp only at hglobbed ⊢
      split_ifs
      · exact hglobbed
      · exact hglobbed
  | false =>
      have hprobed := shGlobType_mountId fs globbed exeType
      dsimp only at hglobbed ⊢
      obtain ⟨⟨probed, found⟩, hprobe⟩ : ∃ probe, shGlobType fs exeType globbed = probe :=
        ⟨_, rfl⟩
      rw [hprobe] at hprobed ⊢
      cases found with
      | true => exact hprobed.trans hglobbed
      | false =>
          have hlinked := shGlobLink_mountId fs probed flags
          dsimp only at hprobed ⊢
          rw [mountFrom_or, ← hglobbed, ← hprobed, ← hlinked]
          obtain ⟨linked, found⟩ := shGlobLink fs probed flags
          cases found <;> rfl

theorem pathRest_mountId : (pathRest path).mountId = path.mountId := by
  simp only [pathRest, pathCopy, WinNameidata.wcpcpy, WinNameidata.write]

/-- The index that the loop leaves is that of the last character it was computed from. -/
theorem pathWalk_mountId (fuel : Nat) :
    (pathWalk fs fuel path flags).mountId =
      mountFrom path.mountId (walkLetter fs fuel path flags) := by
  -- by turns, as the walk is: each goes on from the index of the one before
  induction fuel generalizing path with
  | zero => rfl
  | succ fuel ih =>
      rw [pathWalk, walkLetter]
      have hread : (pathRead path flags).1.mountId = path.mountId := rfl
      obtain ⟨⟨read, c⟩, hcell⟩ : ∃ found, pathRead path flags = found := ⟨_, rfl⟩
      rw [hcell] at hread ⊢
      dsimp only at hread ⊢
      split_ifs with hlast
      · rw [← hread]
        exact pathClose_mountId fs read flags
      · have hglobbed := pathGlob_mountId fs read winFollow
        obtain ⟨⟨globbed, found⟩, hglob⟩ : ∃ glob, pathGlob fs read winFollow = glob := ⟨_, rfl⟩
        rw [hglob, hread] at hglobbed
        rw [hglob]
        cases found with
        | true =>
            dsimp only at hglobbed ⊢
            rw [ih, mountFrom_or, ← hglobbed]
        | false => exact (pathRest_mountId globbed).trans hglobbed

theorem vfsLookup_mountId (source : List UInt16) :
    (vfsLookup fs path source flags).mountId =
      mountFrom path.mountId (lookupLetter fs path source flags) := by
  rw [vfsLookup, lookupLetter]
  split_ifs with hcopy
  · exact pathClose_mountId fs (pathCopy (pathOpen path source flags)) flags
  · exact pathWalk_mountId fs (pathOpen path source flags) flags (source.length + 1)

end

end MinC.Vfs
