import MinC.Vfs.Walk

/-!
Bounds of the path buffer.

Every write of a lookup has an obligation of its own: the cells it writes end
inside the buffer. A lookup is safe exactly if the obligations along it are
met. They are about the places the walk comes to and what Windows answers
there: a component with its separator, the rest of the source, an extension
that is probed, the text of a link, a pipe or a drive.
-/

namespace MinC.Vfs

open MinC.Lib MinC.Win

/-- Nothing was written outside of the path buffer, nor outside of the buffer
of a link. -/
def WinNameidata.Safe (path : WinNameidata) : Prop :=
  path.high ≤ winPathMax ∧ path.linkOutside = false

/-! ### Obligations -/

/-- A text with its zero fits behind an offset. -/
def RoomFor (i : Nat) (w : List UInt16) : Prop := i + w.length + 1 ≤ winPathMax

section
variable (fs : WinFs) (flags : UInt32)

/-- The text of a link that is followed fits both buffers. -/
def DiskFits (base : Nat) (target : List UInt16) : Prop :=
  flagSet flags winIssymlink = false → flagSet flags winFollow = true →
    RoomFor (if secondCell fs.stale target = 58 ∨ secondCell fs.stale target = 92 then 0
      else base) target ∧ target.length + 1 ≤ maxPath

def PipeFits (target : List UInt16) : Prop :=
  flagSet flags winRequireobject = false → flagSet flags winFollow = true → RoomFor 0 target

def NodeFits (name : List UInt16) (base : Nat) : Prop :=
  match fs.stat (flagSet flags winLockleaf) name with
  | none => True
  | some (iNode, handle) =>
      match iNode.fsType with
      | .disk => DiskFits fs flags base (fs.read handle iNode.nameSize)
      | .pipe => PipeFits flags (fs.read handle iNode.nameSize)
      | _ => True

def DriveFits (tail : List UInt16) : Prop :=
  flagSet flags winNocrossmount = false → RoomFor 0 (winDrivename tail)

/-- What is found under a name fits in its place. -/
def GlobFits (p : Place) (base : Nat) (tail : List UInt16) : Prop :=
  fs.attributes p.name ≠ noAttribs →
    (fileClass (fs.attributes p.name) = fileClassInode → NodeFits fs flags p.name base) ∧
      (fileClass (fs.attributes p.name) = fileClassMount → DriveFits flags tail)

/-- Nothing is found under a name, or a pipe that is to be an object. -/
def Unresolved (name : List UInt16) : Prop :=
  fs.attributes name = noAttribs ∨
    (fileClass (fs.attributes name) = fileClassInode ∧
      ∃ iNode handle, fs.stat (flagSet flags winLockleaf) name = some (iNode, handle) ∧
        iNode.fsType = .pipe ∧ flagSet flags winRequireobject = true)

/-- The text of a shell link fits the path buffer, and was read inside of its
own. -/
def ShortcutFits (name : List UInt16) : Prop :=
  ∀ attribs buffer, winReadlink fs name = some (attribs, buffer) →
    RoomFor 0 (text buffer.text) ∧ buffer.outside = false

/-- An extension fits behind the name, and so does what it names. -/
def ProbeFits (p : Place) : Prop :=
  RoomFor p.r exeType ∧
    (fs.attributes (p.extend exeType).name = noAttribs →
      fs.attributes (p.extend lnkType).name ≠ noAttribs →
        flagSet flags winFollow = true → ShortcutFits fs (p.extend lnkType).name)

def CloseFits (p : Place) (base : Nat) (tail : List UInt16) : Prop :=
  GlobFits fs flags p base tail ∧ (Unresolved fs flags p.name → ProbeFits fs flags p)

/-- A component is the last one of a source, or all that follows it is a
separator that is stripped. -/
def Last (s : List UInt16) : Prop :=
  47 ∉ s ∨ (flagSet flags winStripslashes = true ∧ afterComponent s = [])

/-- All obligations along the loop. -/
def WalkFits : Nat → Place → List UInt16 → Prop
  | 0, _, _ => True
  | n + 1, p, s =>
      let entered := p.enter (firstComponent s)
      entered.r + 1 ≤ winPathMax ∧
        (Last flags s → CloseFits fs flags entered (p.r + 1) (firstComponent s)) ∧
          (¬ Last flags s → GlobFits fs winFollow entered (p.r + 1) (firstComponent s) ∧
            match follow fs entered (p.r + 1) (firstComponent s) with
            | some (next, _) => WalkFits n next (afterComponent s)
            | none => (entered.enter (windowsName (afterComponent s))).r + 1 ≤ winPathMax)

def LookupFits (p : Place) (s : List UInt16) : Prop :=
  if flagSet flags winPathcopy then
    RoomFor p.r s ∧ CloseFits fs flags (p.copy p.r (windowsName s)) p.r (windowsName s)
  else WalkFits fs flags (s.length + 1) p s

end

/-! ### One write -/

section
variable (path : WinNameidata) (flags : UInt32)

theorem safe_write (i : Nat) (cells : List UInt16) :
    (path.write i cells).Safe ↔ path.Safe ∧ i + cells.length ≤ winPathMax := by
  rw [WinNameidata.Safe, WinNameidata.Safe, WinNameidata.write]
  simp only [Nat.max_le]
  tauto

theorem safe_wcpcpy (i : Nat) (w : List UInt16) :
    (path.wcpcpy i w).Safe ↔ path.Safe ∧ RoomFor i w := by
  have hwrite := safe_write path i (w ++ [0])
  rw [List.length_append, List.length_singleton, ← Nat.add_assoc] at hwrite
  exact hwrite

theorem safe_pathRead :
    (pathRead path flags).1.Safe ↔
      path.Safe ∧ (path.place.enter (firstComponent path.s)).r + 1 ≤ winPathMax :=
  safe_wcpcpy path path.r (92 :: firstComponent path.s)

theorem safe_pathCopy : (pathCopy path).Safe ↔ path.Safe ∧ RoomFor path.r path.s := by
  have hcopy := safe_wcpcpy path path.r (windowsName path.s)
  rw [RoomFor, windowsName, List.length_map] at hcopy
  exact hcopy

theorem safe_pathRest :
    (pathRest path).Safe ↔
      path.Safe ∧ (path.place.enter (windowsName path.s)).r + 1 ≤ winPathMax := by
  have hcopy := safe_pathCopy { path.write path.r [92] with r := path.r + 1 }
  have hwrite := safe_write path path.r [92]
  rw [List.length_singleton] at hwrite
  have hend : (path.place.enter (windowsName path.s)).r = path.r + path.s.length + 1 := by
    rw [Place.enter, Place.copy, List.length_cons, windowsName, List.length_map]
    rfl
  change (pathCopy { path.write path.r [92] with r := path.r + 1 }).Safe ↔ _
  rw [hcopy, hend]
  change (path.write path.r [92]).Safe ∧ path.r + 1 + path.s.length + 1 ≤ winPathMax ↔ _
  rw [hwrite]
  constructor
  · rintro ⟨⟨hsafe, _⟩, hfits⟩
    exact ⟨hsafe, by omega⟩
  · rintro ⟨hsafe, hfits⟩
    exact ⟨⟨hsafe, by omega⟩, by omega⟩

/-- A path whose buffer was written to, and the buffer of a link on the way. -/
theorem safe_outside {path copied : WinNameidata} {room : Prop} (outside : Bool)
    (hcopy : copied.Safe ↔ path.Safe ∧ room) (hlink : copied.linkOutside = path.linkOutside) :
    (copied.high ≤ winPathMax ∧ (path.linkOutside || outside) = false) ↔
      path.Safe ∧ room ∧ outside = false := by
  rw [Bool.or_eq_false_iff, ← hlink, ← and_assoc]
  change copied.Safe ∧ outside = false ↔ _
  rw [hcopy, and_assoc]

end

/-! ### Nodes and drives -/

section
variable (fs : WinFs) (path : WinNameidata) (flags : UInt32)

theorem safe_diskFLookup (handle : Nat) :
    (diskFLookup fs handle flags path).1.Safe ↔
      path.Safe ∧ DiskFits fs flags path.base (fs.read handle path.size) := by
  rw [diskFLookup, DiskFits]
  by_cases hsym : flagSet flags winIssymlink = true
  · simp only [hsym, if_true]
    simp [WinNameidata.Safe]
  · by_cases hfollow : flagSet flags winFollow = true
    · have hbound : decide (maxPath < (fs.read handle path.size).length + 1) = false ↔
          (fs.read handle path.size).length + 1 ≤ maxPath := by
        simp
      have hsafe := safe_outside (decide (maxPath < (fs.read handle path.size).length + 1))
        (safe_wcpcpy path
          (if secondCell fs.stale (fs.read handle path.size) = 58 ∨
            secondCell fs.stale (fs.read handle path.size) = 92 then 0 else path.base)
          (fs.read handle path.size)) rfl
      rw [hbound] at hsafe
      simp only [hsym, hfollow, Bool.not_true, if_false, Bool.false_eq_true, true_implies]
      exact hsafe
    · simp only [hsym, hfollow]
      simp

theorem safe_pipeFLookup (handle : Nat) :
    (pipeFLookup fs handle flags path).1.Safe ↔
      path.Safe ∧ PipeFits flags (fs.read handle path.size) := by
  rw [pipeFLookup, PipeFits]
  by_cases hobject : flagSet flags winRequireobject = true
  · simp only [hobject, if_true]
    simp [WinNameidata.Safe]
  · by_cases hfollow : flagSet flags winFollow = true
    · have hwrite := safe_write path 0 (fs.read handle path.size ++ [0])
      rw [List.length_append, List.length_singleton, ← Nat.add_assoc] at hwrite
      simp only [hobject, hfollow, Bool.not_true, if_false, Bool.false_eq_true, true_implies]
      exact hwrite
    · simp only [hobject, hfollow]
      simp

theorem safe_diskLookup :
    (diskLookup fs path flags).1.Safe ↔ path.Safe ∧ NodeFits fs flags path.name path.base := by
  rw [diskLookup, NodeFits]
  cases fs.stat (flagSet flags winLockleaf) path.name with
  | none => simp [WinNameidata.Safe]
  | some found =>
      obtain ⟨iNode, handle⟩ := found
      simp only
      rcases iNode.known with hdisk | hpipe | hpdo
      · have hsafe := safe_diskFLookup fs { path with
          deviceId := iNode.deviceId
          fileType := iNode.fileType
          fsType := .disk
          size := iNode.nameSize } flags handle
        rw [hdisk]
        exact hsafe
      · have hsafe := safe_pipeFLookup fs { path with
          deviceId := iNode.deviceId
          fileType := iNode.fileType
          fsType := .pipe
          size := iNode.nameSize } flags handle
        rw [hpipe]
        exact hsafe
      · rw [hpdo]
        simp only [pdoFLookup]
        split_ifs
        · simp [WinNameidata.Safe]
        · simp [WinNameidata.Safe]

theorem safe_driveLookup :
    (driveLookup path flags).1.Safe ↔ path.Safe ∧ DriveFits flags path.tail := by
  rw [driveLookup, DriveFits]
  by_cases hcross : flagSet flags winNocrossmount = true
  · simp only [hcross, if_true]
    simp [WinNameidata.Safe]
  · simp only [hcross, if_false, Bool.false_eq_true, true_implies]
    exact safe_wcpcpy _ 0 _

theorem safe_pathGlob :
    (pathGlob fs path flags).1.Safe ↔
      path.Safe ∧ GlobFits fs flags path.place path.base path.tail := by
  rw [pathGlob, GlobFits, WinNameidata.place_name]
  let found : WinNameidata := { path with attribs := fs.attributes path.name }
  by_cases hmissing : fs.attributes path.name = noAttribs
  · simp only [hmissing, if_true]
    simp [WinNameidata.Safe]
  · by_cases hnode : fileClass (fs.attributes path.name) = fileClassInode
    · have hsafe := safe_diskLookup fs found flags
      have hnot : fileClassInode ≠ fileClassMount := by decide
      simp only [hmissing, hnode, hnot, if_false, if_true, true_implies, false_implies,
        ne_eq, not_false_eq_true, and_true]
      exact hsafe
    · by_cases hmount : fileClass (fs.attributes path.name) = fileClassMount
      · have hsafe := safe_driveLookup found flags
        have hnot : fileClassMount ≠ fileClassInode := by decide
        simp only [hmissing, hmount, hnot, if_false, if_true, true_implies, false_implies,
          ne_eq, not_false_eq_true, true_and]
        exact hsafe
      · simp only [hmissing, hnode, hmount, if_false, false_implies, and_true, implies_true]
        simp [WinNameidata.Safe]

/-! ### The last component -/

theorem diskLookup_unresolved :
    ((diskLookup fs path flags).2 = false ↔
      ∃ iNode handle, fs.stat (flagSet flags winLockleaf) path.name = some (iNode, handle) ∧
        iNode.fsType = .pipe ∧ flagSet flags winRequireobject = true) ∧
      ((diskLookup fs path flags).2 = false →
        (diskLookup fs path flags).1.place = path.place) := by
  rw [diskLookup]
  cases fs.stat (flagSet flags winLockleaf) path.name with
  | none => simp
  | some found =>
      obtain ⟨iNode, handle⟩ := found
      simp only [Option.some.injEq, Prod.mk.injEq, exists_and_left, exists_eq_left', and_assoc]
      rcases iNode.known with hdisk | hpipe | hpdo
      · rw [hdisk]
        simp only [diskFLookup]
        split_ifs <;> simp
      · rw [hpipe]
        simp only [pipeFLookup]
        split_ifs with hobject
        · simp only [hobject]
          exact ⟨by simp, fun _ => rfl⟩
        · simp [hobject]
        · simp [hobject]
      · rw [hpdo]
        simp only [pdoFLookup]
        split_ifs <;> simp

/-- Where nothing is resolved, the place stays. -/
theorem pathGlob_unresolved :
    ((pathGlob fs path flags).2 = false ↔ Unresolved fs flags path.name) ∧
      ((pathGlob fs path flags).2 = false → (pathGlob fs path flags).1.place = path.place) := by
  rw [pathGlob, Unresolved]
  simp only
  let found : WinNameidata := { path with attribs := fs.attributes path.name }
  by_cases hmissing : fs.attributes path.name = noAttribs
  · rw [if_pos hmissing]
    simp only [hmissing, true_or, true_implies]
    exact ⟨trivial, rfl⟩
  · by_cases hnode : fileClass (fs.attributes path.name) = fileClassInode
    · have hdisk := diskLookup_unresolved fs found flags
      rw [if_neg hmissing, if_pos hnode]
      simp only [hmissing, hnode, false_or, true_and]
      exact hdisk
    · rw [if_neg hmissing, if_neg hnode]
      simp only [hmissing, hnode, false_or, false_and, iff_false]
      split_ifs
      · rw [driveLookup]
        split_ifs <;> simp
      · simp

theorem safe_shGlobType (typeName : List UInt16) (htype : typeName.length = 4) :
    (shGlobType fs typeName path).1.Safe ↔ path.Safe ∧ path.r + 5 ≤ winPathMax := by
  have hwrite := safe_write path path.r (typeName ++ [0])
  rw [List.length_append, htype, List.length_singleton] at hwrite
  rw [shGlobType]
  split_ifs
  · rw [safe_write, hwrite, List.length_singleton]
    constructor
    · exact fun h => h.1
    · exact fun h => ⟨h, by omega⟩
  · exact hwrite

theorem safe_shellReadlink :
    (shellReadlink fs path).1.Safe ↔ path.Safe ∧ ShortcutFits fs path.name := by
  rw [shellReadlink, ShortcutFits]
  cases winReadlink fs path.name with
  | none => simp
  | some found =>
      obtain ⟨attribs, buffer⟩ := found
      have hsafe := safe_outside buffer.outside (safe_wcpcpy path 0 (text buffer.text)) rfl
      have hone : (∀ a b, some (attribs, buffer) = some (a, b) →
          RoomFor 0 (text b.text) ∧ b.outside = false) ↔
            RoomFor 0 (text buffer.text) ∧ buffer.outside = false := by
        simp
      rw [hone]
      exact hsafe

/-- What a probe for an extension finds depends on the place. -/
theorem shGlobType_cases (typeName : List UInt16) (htype : 0 ∉ typeName) :
    (∃ probed, shGlobType fs typeName path = (probed, false) ∧
      fs.attributes (path.place.extend typeName).name = noAttribs ∧
        probed.place = path.place.extend []) ∨
    (∃ probed, shGlobType fs typeName path = (probed, true) ∧
      fs.attributes (path.place.extend typeName).name ≠ noAttribs ∧
        probed.place = path.place.extend typeName) := by
  by_cases h : fs.attributes (path.place.extend typeName).name = noAttribs
  · obtain ⟨probed, hprobed, hplace, _⟩ := shGlobType_missing fs path typeName htype h
    exact .inl ⟨probed, hprobed, h, hplace⟩
  · obtain ⟨probed, hprobed, hplace, _⟩ := shGlobType_found fs path typeName htype h
    exact .inr ⟨probed, hprobed, h, hplace⟩

theorem safe_shGlobLink :
    (shGlobLink fs path flags).1.Safe ↔ (path.Safe ∧ path.r + 5 ≤ winPathMax) ∧
      (fs.attributes (path.place.extend lnkType).name ≠ noAttribs →
        flagSet flags winFollow = true → ShortcutFits fs (path.place.extend lnkType).name) := by
  have hlnk := safe_shGlobType fs path lnkType rfl
  rw [shGlobLink, ← hlnk]
  rcases shGlobType_cases fs path lnkType (by decide) with
    ⟨linked, hlinked, hmissing, _⟩ | ⟨linked, hlinked, hfound, hplace⟩
  · rw [hlinked]
    simp only [hmissing, ne_eq, not_true_eq_false, false_implies, and_true]
  · rw [hlinked, ← hplace, WinNameidata.place_name]
    rw [← hplace, WinNameidata.place_name] at hfound
    simp only [hfound, ne_eq, not_false_eq_true, true_implies]
    by_cases hfollow : flagSet flags winFollow = true
    · rw [if_pos hfollow, safe_shellReadlink, hfollow]
      simp only [true_implies]
    · have hnone : (flagSet flags winFollow = true → ShortcutFits fs linked.name) ↔ True :=
        iff_true_intro fun h => absurd h hfollow
      rw [if_neg hfollow, hnone, and_true]
      exact Iff.rfl

theorem safe_pathClose :
    (pathClose fs path flags).Safe ↔
      path.Safe ∧ CloseFits fs flags path.place path.base path.tail := by
  change (pathKind fs path flags).Safe ↔ _
  have hglob := safe_pathGlob fs path flags
  obtain ⟨hfalse, hplace⟩ := pathGlob_unresolved fs path flags
  rw [pathKind, CloseFits, ← and_assoc, ← hglob, WinNameidata.place_name, ← hfalse]
  cases hresult : pathGlob fs path flags with
  | mk globbed ok =>
      rw [hresult] at hplace
      cases ok with
      | true =>
          simp only [Bool.true_eq_false, false_implies, and_true]
          split_ifs <;> exact Iff.rfl
      | false =>
          have hexe := safe_shGlobType fs globbed exeType rfl
          have hsame : globbed.place = path.place := hplace rfl
          simp only [true_implies]
          rw [ProbeFits, ← hsame]
          rcases shGlobType_cases fs globbed exeType (by decide) with
            ⟨probed, hprobed, hmissing, hundone⟩ | ⟨probed, hprobed, hfound, _⟩
          · -- the second probe asks for the cells the first one had
            have hlink := safe_shGlobLink fs probed flags
            have hr : probed.r = globbed.r := congrArg Place.r hundone
            have hroom : probed.Safe ∧ probed.r + 5 ≤ winPathMax ↔
                globbed.Safe ∧ globbed.r + 5 ≤ winPathMax := by
              rw [hprobed] at hexe
              rw [show probed.Safe ↔ _ from hexe, hr]
              exact and_iff_left_of_imp And.right
            rw [hroom, hundone, extend_extend, and_assoc] at hlink
            rw [hprobed]
            simp only [hmissing, true_implies]
            cases hshell : shGlobLink fs probed flags with
            | mk linked ok =>
                rw [hshell] at hlink
                cases ok <;> exact hlink
          · rw [hprobed] at hexe ⊢
            simp only [hfound, false_implies, and_true]
            exact hexe

/-! ### The loop -/

theorem pathRead_last (hs : 0 ∉ path.s) : (pathRead path flags).2 = 0 ↔ Last flags path.s := by
  change (if flagSet flags winStripslashes then (afterComponent path.s).headD 0
    else (pathRead path winFollow).2) = 0 ↔ _
  rw [Last]
  by_cases hstrip : flagSet flags winStripslashes = true
  · rw [if_pos hstrip]
    simp only [hstrip, true_and]
    constructor
    · intro hhead
      right
      cases hafter : afterComponent path.s with
      | nil => rfl
      | cons c cs =>
          rw [hafter] at hhead
          have hzero := zero_not_mem_afterComponent hs
          rw [hafter, show c = 0 from hhead] at hzero
          exact absurd List.mem_cons_self hzero
    · rintro (hmem | hafter)
      · rw [afterComponent_of_not_mem hmem]
        rfl
      · rw [hafter]
        rfl
  · rw [if_neg hstrip, pathRead_char]
    simp only [hstrip, Bool.false_eq_true, false_and, or_false]

theorem safe_pathWalk (n : Nat) (hs : 0 ∉ path.s) :
    (pathWalk fs n path flags).Safe ↔ path.Safe ∧ WalkFits fs flags n path.place path.s := by
  induction n generalizing path with
  | zero => exact (and_iff_left trivial).symm
  | succ n ih =>
      have hread := safe_pathRead path flags
      have hplace := pathRead_place path flags hs
      have htail := pathRead_tail path flags hs
      have hbase := pathRead_base path flags
      have hrest := pathRead_s path flags
      have hlast := pathRead_last path flags hs
      rw [pathWalk, WalkFits, ← and_assoc, ← hread]
      rw [← hplace, ← htail, WinNameidata.place_r, ← hbase, ← hlast]
      cases hpath : pathRead path flags with
      | mk read c =>
          rw [hpath] at hrest
          simp only
          by_cases hc : c = 0
          · rw [if_pos hc, safe_pathClose]
            simp only [hc, true_implies, not_true_eq_false, false_implies, and_true]
          · have hglob := safe_pathGlob fs read winFollow
            rw [if_neg hc]
            simp only [hc, false_implies, not_false_eq_true, true_implies, true_and]
            rw [← and_assoc, ← hglob]
            -- the turn itself is safe, and what comes after it is safe by induction
            cases hfollow : follow fs read.place read.base read.tail with
            | none =>
                have hmissing := (follow_eq_none_iff fs).mp hfollow
                rw [pathGlob_none fs read hmissing]
                simp only
                rw [safe_pathRest, ← hrest]
                exact Iff.rfl
            | some found =>
                obtain ⟨next, attribs⟩ := found
                have hgoes := pathGlob_some fs read hfollow
                have hzero : 0 ∉ (pathGlob fs read winFollow).1.s := by
                  rw [hgoes.s, show read.s = _ from hrest]
                  exact zero_not_mem_afterComponent hs
                have hnext := ih (pathGlob fs read winFollow).1 hzero
                rw [hgoes.place, hgoes.s, show read.s = _ from hrest] at hnext
                rw [hgoes.eq]
                exact hnext

theorem safe_vfsLookup {source : List UInt16} (hs : 0 ∉ source) :
    (vfsLookup fs path source flags).Safe ↔
      path.Safe ∧ LookupFits fs flags path.place source := by
  let opened := pathOpen path source flags
  rw [vfsLookup, LookupFits]
  split_ifs with hcopy
  · have htail : (pathCopy opened).tail = windowsName source := by
      change text ((poke path.resolved path.r (windowsName source ++ [0])).drop path.r) = _
      rw [drop_poke, List.append_assoc]
      exact text_append_zero (zero_not_mem_windowsName hs) _
    have hplace : (pathCopy opened).place = path.place.copy path.r (windowsName source) :=
      opened.place_wcpcpy path.r (zero_not_mem_windowsName hs)
    rw [safe_pathClose, safe_pathCopy, and_assoc]
    change opened.Safe ∧ _ ∧ CloseFits fs flags (pathCopy opened).place path.r
      (pathCopy opened).tail ↔ _
    rw [htail, hplace]
    exact Iff.rfl
  · exact safe_pathWalk fs opened flags (source.length + 1) hs

end

end MinC.Vfs
