import MinC.Vfs.AclCreate

/-!
Modes of files.

The mode of a file is translated to masks of access rights when it is changed,
and back when it is read. What is read of a class is what was set, if the list
of the file has the class at all. The list of a new file always has others.
-/

namespace MinC.Sys

open MinC.Lib MinC.Win MinC.Vfs

def sIfmt : UInt32 := 0o170000
def sIfifo : UInt32 := 0o010000
def sIfchr : UInt32 := 0o020000
def sIfdir : UInt32 := 0o040000
def sIfblk : UInt32 := 0o060000
def sIfreg : UInt32 := 0o100000
def sIflnk : UInt32 := 0o120000
def sIfsock : UInt32 := 0o140000

def sIsuid : UInt32 := 0o4000
def sIsgid : UInt32 := 0o2000
def sIstxt : UInt32 := 0o1000

def sIrusr : UInt32 := 0o400
def sIwusr : UInt32 := 0o200
def sIxusr : UInt32 := 0o100
def sIrgrp : UInt32 := 0o040
def sIwgrp : UInt32 := 0o020
def sIxgrp : UInt32 := 0o010
def sIroth : UInt32 := 0o004
def sIwoth : UInt32 := 0o002
def sIxoth : UInt32 := 0o001

/-! ### Translation -/

/-- The type of a file, as it is in a mode. -/
def ftypePosix : WinVtype → UInt32
  | .vnon => 0
  | .vreg => sIfreg
  | .vdir => sIfdir
  | .vblk => sIfblk
  | .vchr => sIfchr
  | .vlnk => sIflnk
  | .vsock => sIfsock
  | .vfifo => sIfifo
  | .vbad => 0

/-- The permissions in a mask, with the bits that a class has for them. -/
def permsPosix (r w x mask : UInt32) : UInt32 :=
  (if flagSet mask winSIread then r else 0) + (if flagSet mask winSIwrite then w else 0) +
    (if flagSet mask winSIexec then x else 0)

def specialPosix (special : UInt32) : UInt32 :=
  (if flagSet special winSIsuid then sIsuid else 0) +
    (if flagSet special winSIsgid then sIsgid else 0) +
    (if flagSet special winSIstxt then sIstxt else 0)

def modePosix (mode : WinMode) : UInt32 :=
  ftypePosix mode.fileType + permsPosix sIrusr sIwusr sIxusr mode.user +
    permsPosix sIrgrp sIwgrp sIxgrp mode.group + permsPosix sIroth sIwoth sIxoth mode.other +
    specialPosix mode.special

def ftypeWin (mode : UInt32) : WinVtype :=
  if mode &&& sIfmt = sIfreg then .vreg
  else if mode &&& sIfmt = sIfdir then .vdir
  else if mode &&& sIfmt = sIfblk then .vblk
  else if mode &&& sIfmt = sIfchr then .vchr
  else if mode &&& sIfmt = sIflnk then .vlnk
  else if mode &&& sIfmt = sIfsock then .vsock
  else if mode &&& sIfmt = sIfifo then .vfifo
  else .vnon

def permsWin (r w x mode : UInt32) : UInt32 :=
  (if flagSet mode r then winSIread else 0) + (if flagSet mode w then winSIwrite else 0) +
    (if flagSet mode x then winSIexec else 0)

def modeWin (mode : UInt32) : WinMode where
  fileType := ftypeWin mode
  user := permsWin sIrusr sIwusr sIxusr mode
  group := permsWin sIrgrp sIwgrp sIxgrp mode
  other := permsWin sIroth sIwoth sIxoth mode
  special := (if flagSet mode sIsuid then winSIsuid else 0) +
    (if flagSet mode sIsgid then winSIsgid else 0) +
    (if flagSet mode sIstxt then winSIstxt else 0)

/-- The bits of a mode for a class. -/
def classBits : AclClass → UInt32
  | .user => 0o700
  | .group => 0o070
  | .other => 0o007

/-! ### There and back -/

theorem permsWin_plain (r w x mode : UInt32) : permsWin r w x mode &&& ~~~winSIrwx = 0 := by
  unfold permsWin
  cases flagSet mode r <;> cases flagSet mode w <;> cases flagSet mode x <;> decide

theorem modeWin_plain (mode : UInt32) : (modeWin mode).Plain := by
  intro c
  cases c with
  | user => exact permsWin_plain _ _ _ _
  | group => exact permsWin_plain _ _ _ _
  | other => exact permsWin_plain _ _ _ _

/-- A permission is in the mask that was made for it. -/
theorem flagSet_permsWin (r w x mode : UInt32) :
    flagSet (permsWin r w x mode) winSIread = flagSet mode r ∧
      flagSet (permsWin r w x mode) winSIwrite = flagSet mode w ∧
      flagSet (permsWin r w x mode) winSIexec = flagSet mode x := by
  unfold permsWin
  cases flagSet mode r <;> cases flagSet mode w <;> cases flagSet mode x <;> decide

/-- A permission of a mask is one of its permission bits. -/
theorem flagSet_perms {mask flag : UInt32} (h : winSIrwx &&& flag = flag) :
    flagSet mask flag = flagSet (mask &&& winSIrwx) flag := by
  unfold flagSet
  rw [UInt32.and_assoc, h]

theorem bit_eq (mode : UInt32) {bit : UInt32} {k : Nat} (hbit : bit.toNat = 2 ^ k) :
    (if flagSet mode bit then bit else 0) = mode &&& bit := by
  unfold flagSet
  by_cases hzero : mode &&& bit = 0
  · rw [if_neg (by simpa using hzero), hzero]
  · rw [if_pos (by simpa using hzero), (u32_and_bit mode hbit).resolve_left hzero]

theorem and_disjoint (mode : UInt32) {a b : UInt32} (h : a &&& b = 0) :
    (mode &&& a) &&& (mode &&& b) = 0 := by
  rw [UInt32.and_comm mode b, UInt32.and_assoc, ← UInt32.and_assoc a b mode, h, UInt32.zero_and,
    UInt32.and_zero]

/-- The permissions that are read of a changed mask are those of the mode. -/
theorem permsPosix_chmodMask {r w x : UInt32} {i j k : Nat} (hr : r.toNat = 2 ^ i)
    (hw : w.toNat = 2 ^ j) (hx : x.toNat = 2 ^ k) (hrw : r &&& w = 0) (hrwx : (r ||| w) &&& x = 0)
    (mask mode : UInt32) :
    permsPosix r w x (chmodMask mask (permsWin r w x mode)) = mode &&& (r ||| w ||| x) := by
  have hperms := (chmodMask_perms (show permsWin r w x mode &&& ~~~winSIrwx = 0 from
    permsWin_plain r w x mode) : chmodMask mask _ &&& winSIrwx = _ ∧ _).1
  obtain ⟨hread, hwrite, hexec⟩ := flagSet_permsWin r w x mode
  unfold permsPosix
  rw [flagSet_perms (show winSIrwx &&& winSIread = winSIread by decide),
    flagSet_perms (show winSIrwx &&& winSIwrite = winSIwrite by decide),
    flagSet_perms (show winSIrwx &&& winSIexec = winSIexec by decide), hperms, hread, hwrite,
    hexec, bit_eq mode hr, bit_eq mode hw, bit_eq mode hx, u32_add_eq_or (and_disjoint mode hrw),
    ← u32_and_or_left, u32_add_eq_or (and_disjoint mode hrwx), ← u32_and_or_left]

/-- Bits that are in one part of a mode are not in another. -/
theorem and_eq_zero_of_part {a part other : UInt32} (ha : a &&& part = a)
    (h : part &&& other = 0) : a &&& other = 0 := by
  rw [← ha, UInt32.and_assoc, h, UInt32.and_zero]

theorem ftypePosix_part (fileType : WinVtype) :
    ftypePosix fileType &&& sIfmt = ftypePosix fileType := by
  cases fileType <;> decide

theorem specialPosix_part (special : UInt32) :
    specialPosix special &&& 0o7000 = specialPosix special := by
  unfold specialPosix
  cases flagSet special winSIsuid <;> cases flagSet special winSIsgid <;>
    cases flagSet special winSIstxt <;> decide

/-- The bits that a class has for its permissions. -/
def classPerms : AclClass → UInt32 → UInt32
  | .user => permsPosix sIrusr sIwusr sIxusr
  | .group => permsPosix sIrgrp sIwgrp sIxgrp
  | .other => permsPosix sIroth sIwoth sIxoth

theorem classPerms_part (c : AclClass) (mask : UInt32) :
    classPerms c mask &&& classBits c = classPerms c mask := by
  cases c <;> simp only [classPerms, permsPosix] <;> cases flagSet mask winSIread <;>
    cases flagSet mask winSIwrite <;> cases flagSet mask winSIexec <;> decide

/-- One more part is put to a mode without a carry. -/
theorem add_part {sum part all bits : UInt32} (hsum : sum &&& all = sum)
    (hpart : part &&& bits = part) (h : all &&& bits = 0) :
    sum + part = sum ||| part ∧ (sum ||| part) &&& (all ||| bits) = sum ||| part := by
  have hsum' : sum &&& bits = 0 := and_eq_zero_of_part hsum h
  have hpart' : part &&& all = 0 := and_eq_zero_of_part hpart (by rw [UInt32.and_comm, h])
  constructor
  · refine u32_add_eq_or ?_
    rw [UInt32.and_comm]
    exact and_eq_zero_of_part hpart (by rw [UInt32.and_comm, hsum'])
  · rw [u32_and_or_left, u32_and_or_right, u32_and_or_right, hsum, hpart, hsum', hpart',
      UInt32.or_zero, UInt32.zero_or]

/-- The parts of a mode are put together without a carry. -/
theorem modePosix_eq (mode : WinMode) :
    modePosix mode = ftypePosix mode.fileType ||| classPerms .user mode.user |||
      classPerms .group mode.group ||| classPerms .other mode.other |||
      specialPosix mode.special := by
  have huser := add_part (ftypePosix_part mode.fileType) (classPerms_part .user mode.user)
    (by decide)
  have hgroup := add_part huser.2 (classPerms_part .group mode.group) (by decide)
  have hother := add_part hgroup.2 (classPerms_part .other mode.other) (by decide)
  have hspecial := add_part hother.2 (specialPosix_part mode.special) (by decide)
  rw [← hspecial.1, ← hother.1, ← hgroup.1, ← huser.1]
  rfl

/-- The bits of a class in a mode are those of its permissions. -/
theorem modePosix_class (mode : WinMode) (c : AclClass) :
    modePosix mode &&& classBits c = classPerms c (mode.of c) := by
  have hother : ∀ d mask, d ≠ c → classPerms d mask &&& classBits c = 0 := by
    intro d mask hne
    refine and_eq_zero_of_part (classPerms_part d mask) ?_
    cases d <;> cases c <;> first | exact absurd rfl hne | decide
  have htype : ftypePosix mode.fileType &&& classBits c = 0 :=
    and_eq_zero_of_part (ftypePosix_part mode.fileType) (by cases c <;> decide)
  have hspecial : specialPosix mode.special &&& classBits c = 0 :=
    and_eq_zero_of_part (specialPosix_part mode.special) (by cases c <;> decide)
  rw [modePosix_eq, u32_and_or_right, u32_and_or_right, u32_and_or_right, u32_and_or_right, htype,
    hspecial]
  cases c with
  | user =>
      rw [hother .group _ (by decide), hother .other _ (by decide), classPerms_part]
      simp [WinMode.of]
  | group =>
      rw [hother .user _ (by decide), hother .other _ (by decide), classPerms_part]
      simp [WinMode.of]
  | other =>
      rw [hother .user _ (by decide), hother .group _ (by decide), classPerms_part]
      simp [WinMode.of]

/-- What is read of a class after a change are the bits of the new mode. -/
theorem classPerms_chmodMask (c : AclClass) (mask mode : UInt32) :
    classPerms c (chmodMask mask ((modeWin mode).of c)) = mode &&& classBits c := by
  cases c with
  | user =>
      exact permsPosix_chmodMask (show sIrusr.toNat = 2 ^ 8 by decide)
        (show sIwusr.toNat = 2 ^ 7 by decide) (show sIxusr.toNat = 2 ^ 6 by decide) (by decide)
        (by decide) mask mode
  | group =>
      exact permsPosix_chmodMask (show sIrgrp.toNat = 2 ^ 5 by decide)
        (show sIwgrp.toNat = 2 ^ 4 by decide) (show sIxgrp.toNat = 2 ^ 3 by decide) (by decide)
        (by decide) mask mode
  | other =>
      exact permsPosix_chmodMask (show sIroth.toNat = 2 ^ 2 by decide)
        (show sIwoth.toNat = 2 ^ 1 by decide) (show sIxoth.toNat = 2 ^ 0 by decide) (by decide)
        (by decide) mask mode

/-! ### Changing a mode -/

/-- An entry after a change: only the permissions of one that stands for a class
are others. -/
structure Changed (typed : AclType × Ace) (entry : Ace) : Prop where
  aceType : entry.aceType = typed.2.aceType
  aceFlags : entry.aceFlags = typed.2.aceFlags
  sid : entry.sid = typed.2.sid
  rest : entry.rest = typed.2.rest
  kept : entry.mask &&& ~~~winSIrwx = typed.2.mask &&& ~~~winSIrwx
  untouched : (∀ c, typed.1 ≠ .entry c) → entry = typed.2

theorem chmodEntry_changed {mode : WinMode} (hmode : mode.Plain) (typed : AclType × Ace) :
    Changed typed (chmodEntry mode typed.1 typed.2) := by
  obtain ⟨t, entry⟩ := typed
  cases t with
  | entry c =>
      exact ⟨rfl, rfl, rfl, rfl, (chmodMask_perms (hmode c)).2, fun h => absurd rfl (h c)⟩
  | _ => exact ⟨rfl, rfl, rfl, rfl, rfl, fun _ => rfl⟩

theorem aclChmod_changed {mode : WinMode} (hmode : mode.Plain) (entries : List Ace) :
    List.Forall₂ Changed (aclTyped entries) (aclChmod mode entries) := by
  rw [aclChmod_eq, List.forall₂_map_right_iff, List.forall₂_same]
  exact fun typed _ => chmodEntry_changed hmode typed

theorem aclStat_aclChmod {sd : SecurityDescriptor} {entries : List Ace} {m : UInt32}
    (h : sd.dacl = some (some (aclChmod (modeWin m) entries))) (v : WinVattr) {c : AclClass}
    (hc : (aclSeen entries).has c = true) :
    modePosix (vfsAclStat sd v).mode &&& classBits c = m &&& classBits c := by
  obtain ⟨entry, hentry⟩ := (has_aclSeen_iff entries c).mp hc
  have hchanged : (AclType.entry c, chmodEntry (modeWin m) (.entry c) entry) ∈
      aclTyped (aclChmod (modeWin m) entries) := by
    rw [aclTyped_aclChmod (modeWin_plain m)]
    exact List.mem_map_of_mem hentry
  rw [modePosix_class, vfsAclStat_mode h, aclStat_mode _ hchanged]
  exact classPerms_chmodMask c entry.mask m

/-- After a change of mode, what is read of each class in the list is the new
mode, nothing else in the list is another, and no earlier change is left. -/
theorem chmod_stat {source : SecurityDescriptor} {entries : List Ace}
    (h : source.dacl = some (some entries)) (result result' : SecurityDescriptor) (m m' : UInt32)
    (v : WinVattr) :
    (∀ c, (aclSeen entries).has c = true →
      modePosix (vfsAclStat (vfsAclChmod (modeWin m) source result) v).mode &&& classBits c =
        m &&& classBits c) ∧
    (∃ entries', (vfsAclChmod (modeWin m) source result).dacl = some (some entries') ∧
      List.Forall₂ Changed (aclTyped entries) entries') ∧
    vfsAclChmod (modeWin m') (vfsAclChmod (modeWin m) source result) result' =
      vfsAclChmod (modeWin m') source result' := by
  have hdacl : (vfsAclChmod (modeWin m) source result).dacl =
      some (some (aclChmod (modeWin m) entries)) := by
    rw [vfsAclChmod, h, Option.map_some, Option.map_some]
  refine ⟨fun c hc => aclStat_aclChmod hdacl v hc,
    ⟨_, hdacl, aclChmod_changed (modeWin_plain m) entries⟩, ?_⟩
  rw [vfsAclChmod, hdacl, vfsAclChmod, h, Option.map_some, Option.map_some, Option.map_some,
    Option.map_some, aclChmod_aclChmod (modeWin_plain m)]

/-- A file with a denied entry, and more than one that stands for others. -/
def someFile : SecurityDescriptor :=
  ⟨sidAdmins.toSid, sidSystem.toSid, some (some
    [⟨accessAllowedAceType, 0, writeDac ||| winSIrwx, sidAdmins.toSid, []⟩,
      ⟨1, 0, winSIwrite, sidSystem.toSid, []⟩,
      ⟨accessAllowedAceType, 0, readControl, sidAuthenticated.toSid, []⟩,
      ⟨accessAllowedAceType, inheritedAce, readControl ||| winSIread, sidAuthenticated.toSid, []⟩])⟩

theorem chmod_stat_someFile :
    modePosix (vfsAclStat (vfsAclChmod (modeWin 0o640) someFile someFile)
      ⟨modeWin 0, fun _ => 0⟩).mode &&& classBits .user = 0o600 :=
  (chmod_stat (show someFile.dacl = some (some _) from rfl) someFile someFile 0o640 0
    ⟨modeWin 0, fun _ => 0⟩).1 .user (by decide)

/-! ### Making a file -/

section
variable (heap : WinHeap) (takes : UInt8 → Bool) (moves : Nat → Bool) (machine owner : SID8)
  (flags : UInt8) (m : UInt32)

/-- What is true of the list of a new file and of what is read of it. -/
structure NewFile (entries : List Ace) (v : WinVattr) (created : AclBlock × SecurityDescriptor) :
    Prop where
  attached : created.2.dacl = some (some created.1.entries)
  wellFormed : created.1.WellFormed
  inherited : ∃ front, created.1.entries = front ++ addedEntries (modeWin m) flags entries ∧
    List.Forall₂ (Inherited machine owner) (classified entries) front
  classes : ∀ c, (aclSeen entries).has c = true → (aclSeen created.1.entries).has c = true
  other : (aclSeen created.1.entries).has .other = true
  modes : ∀ c, (aclSeen created.1.entries).has c = true →
    modePosix (vfsAclStat created.2 v).mode &&& classBits c = m &&& classBits c

variable {flags} (hflags : flags &&& ~~~allInheritAce = 0)
include hflags

/-- A list with all entries is that of a new file. -/
theorem newFile_of_entries {entries : List Ace} {created : AclBlock × SecurityDescriptor}
    (hattached : created.2.dacl = some (some created.1.entries))
    (hwell : created.1.WellFormed)
    (hall : created.1.entries = createdEntries machine owner (modeWin m) flags entries)
    (v : WinVattr) : NewFile machine owner flags m entries v created := by
  have hseen := (aclTyped_createdEntries machine owner (modeWin_plain m) hflags entries).2
  refine ⟨hattached, hwell, ⟨_, hall, createEntries_inherited machine owner flags
    (modeWin_plain m) entries⟩, fun c hc => ?_, ?_, fun c hc => ?_⟩
  · rw [hall, hseen, TypeMask.has_add, hc, Bool.true_or]
  · rw [hall, hseen, TypeMask.has_add]
    exact Bool.or_true _
  · obtain ⟨entry, hentry⟩ := (has_aclSeen_iff _ c).mp hc
    have hmask := hentry
    rw [hall] at hmask
    obtain ⟨mask, hmask⟩ := createdEntries_mask machine owner (modeWin_plain m) hflags hmask
    rw [modePosix_class, vfsAclStat_mode hattached, aclStat_mode _ hentry, hmask]
    exact classPerms_chmodMask c mask m

omit hflags in
theorem length_inherited (flags : UInt8) {entries front : List Ace}
    (hfront : List.Forall₂ (Inherited machine owner) (classified entries) front) :
    front.length = (createEntries machine owner (modeWin m) flags entries).length := by
  rw [← hfront.length_eq]
  exact (createEntries_inherited machine owner flags (modeWin_plain m) entries).length_eq

omit hflags in
/-- What is inherited is complete if there is as much of it. -/
theorem createEntries_of_length {entries front : List Ace}
    (hfront : List.Forall₂ (Inherited machine owner) (classified entries) front)
    (hlength : front.length ≤
      (buildAcl heap takes (createEntries machine owner (modeWin m) flags entries)).entries.length) :
    (buildAcl heap takes (createEntries machine owner (modeWin m) flags entries)).entries =
      createEntries machine owner (modeWin m) flags entries := by
  have hle := (addFirst_builds heap takes).length_le (show (newAcl heap).entries = [] from rfl)
    (createEntries machine owner (modeWin m) flags entries)
  refine (addFirst_builds heap takes).eq_of_length rfl (Nat.le_antisymm hle ?_)
  rw [← length_inherited machine owner m flags hfront]
  exact hlength

omit hflags in
/-- Entries of a new list are taken where those that allow are. -/
theorem createEntries_taken (flags : UInt8) (entries : List Ace)
    (htakes : takes accessAllowedAceType = true) :
    ∀ entry ∈ createEntries machine owner (modeWin m) flags entries,
      takes entry.aceType = true := by
  intro entry hentry
  rw [createEntries_aceType machine owner flags (modeWin_plain m) hentry, htakes]

/-- A new file inherits an entry for others. -/
theorem create_iff_of_other {source : SecurityDescriptor} {entries : List Ace}
    (hdacl : source.dacl = some (some entries)) (htakes : takes accessAllowedAceType = true)
    (result : SecurityDescriptor) (v : WinVattr) (hother : (aclSeen entries).other = true) :
    (∃ created, vfsAclCreate heap takes moves machine owner (modeWin m) flags source result =
        some created ∧ NewFile machine owner flags m entries v created) ↔
      aclBytes (createdEntries machine owner (modeWin m) flags entries) < 2 ^ 16 ∧
      AclGrows heap (createEntries machine owner (modeWin m) flags entries) := by
  have hentries := SecurityDescriptor.entries_of_dacl hdacl
  have hall := createEntries_taken takes machine owner m flags entries htakes
  have hadded : addedEntries (modeWin m) flags entries = [] := if_pos hother
  have hcreated : createdEntries machine owner (modeWin m) flags entries =
      createEntries machine owner (modeWin m) flags entries := by
    rw [createdEntries, hadded, List.append_nil]
  rw [vfsAclCreate_eq, hentries, hdacl, hcreated]
  dsimp only [Option.map_some]
  rw [if_pos hother, Option.map_some]
  constructor
  · rintro ⟨created, hsome, hnew⟩
    cases hsome
    obtain ⟨front, hfront, hinherited⟩ := hnew.inherited
    rw [hadded, List.append_nil] at hfront
    -- as many entries as asked for are all of them
    have hdone := createEntries_of_length heap takes machine owner m hinherited
      (Nat.le_of_eq (congrArg List.length hfront.symm))
    have hcount := hnew.wellFormed.aclSize
    rw [hdone] at hcount
    have hsize := hcount ▸ UInt16.toNat_lt _
    exact ⟨hsize, ((buildAcl_complete heap takes hsize).1.mp hdone).2⟩
  · rintro ⟨hsize, hgrows⟩
    obtain ⟨hiff, hcomplete⟩ := buildAcl_complete heap takes hsize
    have hdone := hcomplete (hiff.mpr ⟨hall, hgrows⟩)
    exact ⟨_, rfl, newFile_of_entries machine owner m hflags rfl hdone.wellFormed
      (hdone.entries.trans hcreated.symm) v⟩

/-- A new file has an entry for others added. -/
theorem create_iff_of_no_other {source : SecurityDescriptor} {entries : List Ace}
    (hdacl : source.dacl = some (some entries)) (htakes : takes accessAllowedAceType = true)
    (result : SecurityDescriptor) (v : WinVattr) (hother : (aclSeen entries).other = false) :
    (∃ created, vfsAclCreate heap takes moves machine owner (modeWin m) flags source result =
        some created ∧ NewFile machine owner flags m entries v created) ↔
      aclBytes (createdEntries machine owner (modeWin m) flags entries) < 2 ^ 16 ∧
      AclGrows heap (createEntries machine owner (modeWin m) flags entries) ∧
      GrowsInPlace heap moves (createEntries machine owner (modeWin m) flags entries)
        (otherEntry (modeWin m) flags) := by
  have hentries := SecurityDescriptor.entries_of_dacl hdacl
  have hall := createEntries_taken takes machine owner m flags entries htakes
  have hmissing : ¬ (aclSeen entries).other = true := by
    rw [hother]
    exact Bool.false_ne_true
  have hadded : addedEntries (modeWin m) flags entries = [otherEntry (modeWin m) flags] :=
    if_neg hmissing
  have hcreated : createdEntries machine owner (modeWin m) flags entries =
      createEntries machine owner (modeWin m) flags entries ++ [otherEntry (modeWin m) flags] := by
    rw [createdEntries, hadded]
  have hshorter : aclBytes (createdEntries machine owner (modeWin m) flags entries) < 2 ^ 16 →
      aclBytes (createEntries machine owner (modeWin m) flags entries) < 2 ^ 16 := by
    rw [hcreated, aclBytes_append]
    omega
  rw [vfsAclCreate_eq, hentries, hdacl]
  dsimp only [Option.map_some]
  rw [if_neg hmissing]
  constructor
  · rintro ⟨created, hsome, hnew⟩
    obtain ⟨acl, hacl, rfl⟩ := Option.map_eq_some_iff.mp hsome
    obtain ⟨front, hfront, hinherited⟩ := hnew.inherited
    rw [hadded] at hfront
    -- the entry for others was added behind the inherited ones, or it was not
    have hlength : front.length ≤ (buildAcl heap takes
        (createEntries machine owner (modeWin m) flags entries)).entries.length := by
      rcases aclAddEntry_entries heap takes moves hacl with hone | hnone
      · exact Nat.le_of_eq (congrArg List.length
          (List.append_cancel_right (hfront.symm.trans hone)))
      · rw [← hnone, hfront, List.length_append]
        exact Nat.le_add_right _ _
    have hdone := createEntries_of_length heap takes machine owner m hinherited hlength
    have hfrontDone : acl.entries = createdEntries machine owner (modeWin m) flags entries := by
      rw [hcreated]
      rcases aclAddEntry_entries heap takes moves hacl with hone | hnone
      · rw [hone, hdone]
      · have htooShort := congrArg List.length (hfront.symm.trans (hnone.trans hdone))
        rw [List.length_append, length_inherited machine owner m flags hinherited,
          List.length_singleton] at htooShort
        omega
    have hcount := hnew.wellFormed.aclSize
    rw [hfrontDone] at hcount
    have hsize := hcount ▸ UInt16.toNat_lt _
    obtain ⟨hiff, hcomplete⟩ := buildAcl_complete heap takes (hshorter hsize)
    exact ⟨hsize, (hiff.mp hdone).2, (aclAddEntry_complete heap takes moves (hcomplete hdone)
      (hcreated ▸ hsize) htakes).2.mp ⟨acl, hacl, hnew.wellFormed⟩⟩
  · rintro ⟨hsize, hgrows, hplace⟩
    obtain ⟨hiff, hcomplete⟩ := buildAcl_complete heap takes (hshorter hsize)
    have hdone := hcomplete (hiff.mpr ⟨hall, hgrows⟩)
    obtain ⟨hkept, hinside⟩ := aclAddEntry_complete heap takes moves hdone (hcreated ▸ hsize) htakes
    obtain ⟨acl, hacl, hwell⟩ := hinside.mpr hplace
    rw [hacl]
    exact ⟨_, rfl, newFile_of_entries machine owner m hflags rfl hwell
      ((hkept acl hacl).trans hcreated.symm) v⟩

/-- A new file has its list if that is not too long for its count, the block grows
with it, and does not move for an entry that has to be added for others. -/
theorem create_iff {source : SecurityDescriptor} {entries : List Ace}
    (hdacl : source.dacl = some (some entries)) (htakes : takes accessAllowedAceType = true)
    (result : SecurityDescriptor) (v : WinVattr) :
    (∃ created, vfsAclCreate heap takes moves machine owner (modeWin m) flags source result =
        some created ∧ NewFile machine owner flags m entries v created) ↔
      aclBytes (createdEntries machine owner (modeWin m) flags entries) < 2 ^ 16 ∧
      AclGrows heap (createEntries machine owner (modeWin m) flags entries) ∧
      ((aclSeen entries).other = false →
        GrowsInPlace heap moves (createEntries machine owner (modeWin m) flags entries)
          (otherEntry (modeWin m) flags)) := by
  cases hother : (aclSeen entries).other with
  | true =>
      rw [create_iff_of_other heap takes moves machine owner m hflags hdacl htakes result v hother]
      simp
  | false =>
      rw [create_iff_of_no_other heap takes moves machine owner m hflags hdacl htakes result v
        hother]
      simp

end

theorem create_iff_someFile :
    ∃ created, vfsAclCreate plentyHeap (fun _ => true) (fun _ => true) someMachine sidSystem
        (modeWin 0o640) 0 someFile someFile = some created ∧
      NewFile someMachine sidSystem 0 0o640 (SecurityDescriptor.entries someFile) noVattr created :=
  (create_iff plentyHeap (fun _ => true) (fun _ => true) someMachine sidSystem 0o640 (by decide)
    (show someFile.dacl = some (some (SecurityDescriptor.entries someFile)) from rfl) rfl someFile
    noVattr).mpr
    ⟨by decide, aclGrows_of_grants plentyHeap (fun _ => rfl) _, fun h => absurd h (by decide)⟩

/-- An entry for the user, with something behind its identifier. -/
def entryWith (rest : List UInt8) : Ace :=
  ⟨accessAllowedAceType, 0, writeDac, sidAdmins.toSid, rest⟩

def longEntries : List Ace := [entryWith (List.replicate 4060 0)]

def longFile : SecurityDescriptor := ⟨sidAdmins.toSid, sidSystem.toSid, some (some longEntries)⟩

theorem entryWith_type (rest : List UInt8) :
    aclTyped [entryWith rest] = [(.entry .user, entryWith rest)] ∧
      (aclSeen [entryWith rest]).other = false := by
  have htype : aclOwnerType (entryWith rest) TypeMask.zero = (.entry .user, ⟨true, false, false⟩) :=
    (aclOwnerType_congr (show Alike (entryWith rest) (entryWith []) from
      ⟨rfl, rfl, rfl, rfl, rfl⟩) _).trans (by decide)
  rw [aclTyped, aclTyped, aclSeen, aclSeen, aclSeen, htype]
  exact ⟨rfl, rfl⟩

theorem aclBytes_longEntries :
    aclBytes (createEntries someMachine sidSystem (modeWin 0o640) 0 longEntries) = 4092 ∧
      (otherEntry (modeWin 0o640) 0).size = 20 := by
  have hbytes : ∀ rest, aclBytes (createEntries someMachine sidSystem (modeWin 0o640) 0
      [entryWith rest]) = 8 + (8 + 16 + rest.length + 0) := fun rest => by
    rw [createEntries, (entryWith_type rest).1]
    rfl
  rw [longEntries, hbytes, List.length_replicate]
  exact ⟨rfl, rfl⟩

/-- The list fills its page, and the entry for others goes to the next one. If
the block moves for it, the list is not where the descriptor says. -/
theorem longFile_not_created :
    (∀ ulSize, plentyHeap.grants ulSize = true) ∧
    aclBytes (createdEntries someMachine sidSystem (modeWin 0o640) 0 longEntries) < 2 ^ 16 ∧
    ¬ ∃ created, vfsAclCreate plentyHeap (fun _ => true) (fun _ => true) someMachine sidSystem
        (modeWin 0o640) 0 longFile longFile = some created ∧
      NewFile someMachine sidSystem 0 0o640 longEntries noVattr created := by
  obtain ⟨hkept, hsize⟩ := aclBytes_longEntries
  have hcreated : aclBytes (createEntries someMachine sidSystem (modeWin 0o640) 0 longEntries ++
      [otherEntry (modeWin 0o640) 0]) = 4112 := by
    rw [aclBytes_append, hkept, hsize]
  refine ⟨fun _ => rfl, ?_, fun h => ?_⟩
  · show aclBytes (_ ++ [otherEntry (modeWin 0o640) 0]) < 2 ^ 16
    rw [hcreated]
    decide
  · obtain ⟨_, _, hplace⟩ := (create_iff_of_no_other plentyHeap (fun _ => true) (fun _ => true)
      someMachine sidSystem 0o640 (by decide) (show longFile.dacl = some (some longEntries) from rfl)
      rfl longFile noVattr (entryWith_type _).2).mp h
    rcases hplace with hroom | ⟨_, hstays⟩
    · rw [hcreated, blockSize, hkept] at hroom
      exact absurd hroom (by decide)
    · cases hstays

end MinC.Sys
