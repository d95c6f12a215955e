import MinC.Vfs.AclCreate
import MinC.Vfs.Mount

/-!
The owner of a descriptor.

A descriptor has no bits for the modes that change who runs a file. A file that
sets the user is one the administrators own, and a file that sets the group is
one of the system's. Any other file is its caller's, on a drive of this machine,
and keeps who it had on one of another machine. So who owns a file says two
things, and is changed along with its permissions. Who is reported is whom the
list names, and whoever owns the file where the list names no one.
-/

namespace MinC.Vfs

open MinC.Lib MinC.Win

/-! ### Making and changing files -/

section
variable (mounts : WinMounts) (mountId : UInt32) (owner group : SID8)

/-- `vfs_acl_init`, which makes a descriptor without a list. -/
def vfsAclInit (special : UInt32) (source : SecurityDescriptor) : SecurityDescriptor where
  owner :=
    if flagSet special winSIsuid then sidAdmins.toSid
    else if (mounts mountId).deviceType ≠ devTypeRemote then owner.toSid
    else source.owner
  group :=
    if flagSet special winSIsgid then sidSystem.toSid
    else if (mounts mountId).deviceType ≠ devTypeRemote then group.toSid
    else source.group
  dacl := none

/-- `disk_fchmod` on an object with a descriptor, which Windows may not let be read,
or be changed to the new one. -/
def diskFchmod (reads : Bool) (writes : SecurityDescriptor → Bool) (mode : WinMode)
    (sd : SecurityDescriptor) : Bool × SecurityDescriptor :=
  if !reads then (false, sd)
  else
    let made := vfsAclChmod mode sd (vfsAclInit mounts mountId owner group mode.special sd)
    if writes made then (true, made) else (false, sd)

/-- What Windows has for `DiskCreateFile`: the descriptor of the directory, if it
can be read, whether the file is made, and the list it gets where the descriptor
has none that is still there. -/
structure CreateAnswers where
  directory : Option SecurityDescriptor
  creates : Bool
  given : Option (Option (List Ace))

/-- `DiskCreateFile`: the descriptor of the new file. -/
def diskCreateFile (heap : WinHeap) (takes : UInt8 → Bool) (moves : Nat → Bool) (machine : SID8)
    (answers : CreateAnswers) (mode : WinMode) : Option SecurityDescriptor :=
  answers.directory.bind fun source =>
    let sd := vfsAclInit mounts mountId owner group mode.special source
    let made := match vfsAclCreate heap takes moves machine owner mode 0 source sd with
      | some (_, made) => made.dacl
      | none => none
    if answers.creates then some { sd with dacl := made.or answers.given } else none

/-! ### What is changed -/

theorem diskFchmod_done {reads : Bool} {writes : SecurityDescriptor → Bool} {mode : WinMode}
    {sd after : SecurityDescriptor}
    (h : diskFchmod mounts mountId owner group reads writes mode sd = (true, after)) :
    after = vfsAclChmod mode sd (vfsAclInit mounts mountId owner group mode.special sd) := by
  unfold diskFchmod at h
  dsimp only at h
  split_ifs at h
  · exact absurd (Prod.mk.inj h).1 (by decide)
  · exact (Prod.mk.inj h).2.symm
  · exact absurd (Prod.mk.inj h).1 (by decide)

/-- A new file is owned by whom its descriptor says. -/
theorem diskCreateFile_owner {heap : WinHeap} {takes : UInt8 → Bool} {moves : Nat → Bool}
    {machine : SID8} {answers : CreateAnswers} {mode : WinMode} {made : SecurityDescriptor}
    (h : diskCreateFile mounts mountId owner group heap takes moves machine answers mode =
      some made) :
    ∃ source, made.owner = (vfsAclInit mounts mountId owner group mode.special source).owner ∧
      made.group = (vfsAclInit mounts mountId owner group mode.special source).group := by
  obtain ⟨source, _, hmade⟩ := Option.bind_eq_some_iff.mp h
  dsimp only at hmade
  split_ifs at hmade
  cases hmade
  exact ⟨source, rfl, rfl⟩

end

/-! ### Set-id bits -/

/-- The list says nothing about the bits. -/
theorem aclStat_special (v : WinVattr) (entries : List Ace) :
    (aclStat v entries).mode.special = v.mode.special := by
  rw [aclStat, aclLoop_result]
  induction aclTyped entries with
  | nil => rfl
  | cons typed rest ih =>
      obtain ⟨t, entry⟩ := typed
      rw [List.foldr_cons, ← ih]
      cases t with
      | entry c => cases c <;> rfl
      | _ => rfl

/-- The bits are read from who owns the file. -/
theorem vfsAclStat_special (sd : SecurityDescriptor) {v : WinVattr} (hv : v.mode.special = 0) :
    (flagSet (vfsAclStat sd v).mode.special winSIsuid = true ↔ sd.owner = sidAdmins.toSid) ∧
      (flagSet (vfsAclStat sd v).mode.special winSIsgid = true ↔
        sd.group = sidSystem.toSid) := by
  have hspecial : (vfsAclStat sd v).mode.special =
      (0 ||| if sd.owner = sidAdmins.toSid then winSIsuid else 0) |||
        if sd.group = sidSystem.toSid then winSIsgid else 0 := by
    unfold vfsAclStat
    dsimp only
    split
    · rw [aclStat_special, WinVattr.copyGroup_mode, WinVattr.copyUser_mode, hv]
    · rw [WinMode.open, WinVattr.copyGroup_mode, WinVattr.copyUser_mode, hv]
  rw [hspecial]
  by_cases howner : sd.owner = sidAdmins.toSid <;> by_cases hgroup : sd.group = sidSystem.toSid <;>
    simp only [howner, hgroup, if_true, if_false, iff_true, iff_false] <;> decide

theorem SID8.toSid_inj {a b : SID8} : a.toSid = b.toSid ↔ a = b :=
  ⟨fun h => Option.some.inj (by rw [← a.toSid8_toSid, h, b.toSid8_toSid]), congrArg SID8.toSid⟩

/-- Who is made the owner on a drive of this machine. -/
def initOwner (owner : SID8) (special : UInt32) : SID8 :=
  if flagSet special winSIsuid then sidAdmins else owner

def initGroup (group : SID8) (special : UInt32) : SID8 :=
  if flagSet special winSIsgid then sidSystem else group

theorem vfsAclInit_of_local {mounts : WinMounts} {mountId : UInt32}
    (hlocal : mounts.Local mountId) (owner group : SID8) (special : UInt32)
    (source : SecurityDescriptor) :
    vfsAclInit mounts mountId owner group special source =
      ⟨(initOwner owner special).toSid, (initGroup group special).toSid, none⟩ := by
  have hdevice : (mounts mountId).deviceType ≠ devTypeRemote := hlocal
  unfold vfsAclInit initOwner initGroup
  simp only [if_pos hdevice, apply_ite SID8.toSid]

/-- The bits that are read are those that were asked for, unless the caller is one
of those who stand for them. -/
theorem setId_iff_of_owner {sd : SecurityDescriptor} {owner group : SID8} {special : UInt32}
    (howner : sd.owner = (initOwner owner special).toSid)
    (hgroup : sd.group = (initGroup group special).toSid)
    {v : WinVattr} (hv : v.mode.special = 0) :
    (flagSet (vfsAclStat sd v).mode.special winSIsuid = flagSet special winSIsuid ∧
        flagSet (vfsAclStat sd v).mode.special winSIsgid = flagSet special winSIsgid) ↔
      (owner = sidAdmins → flagSet special winSIsuid = true) ∧
        (group = sidSystem → flagSet special winSIsgid = true) := by
  obtain ⟨huid, hgid⟩ := vfsAclStat_special sd hv
  rw [howner, SID8.toSid_inj] at huid
  rw [hgroup, SID8.toSid_inj] at hgid
  refine and_congr ?_ ?_
  · rw [Bool.eq_iff_iff, huid, initOwner]
    cases flagSet special winSIsuid <;> simp
  · rw [Bool.eq_iff_iff, hgid, initGroup]
    cases flagSet special winSIsgid <;> simp

/-! ### Who is reported -/

/-- The byte of the result is one that the SID of an entry is copied to. -/
def WritesSid (typed : AclType × Ace) (b : Nat) : Prop :=
  typed.1 = .entry .user ∧ b < typed.2.sid.length ∨
    typed.1 = .entry .group ∧ sid8Size ≤ b ∧ b < sid8Size + typed.2.sid.length

instance (typed : AclType × Ace) (b : Nat) : Decidable (WritesSid typed b) :=
  inferInstanceAs (Decidable (_ ∨ _))

/-- The list says what the byte of the result is. -/
def ListsByte (entries : List Ace) (b : Nat) : Prop := ∃ typed ∈ aclTyped entries, WritesSid typed b

instance (entries : List Ace) (b : Nat) : Decidable (ListsByte entries b) :=
  inferInstanceAs (Decidable (∃ typed ∈ _, _))

theorem statEntry_sids_of_not {typed : AclType × Ace} {b : Nat} (h : ¬ WritesSid typed b)
    (v : WinVattr) : (statEntry typed.1 typed.2 v).sids b = v.sids b := by
  obtain ⟨t, entry⟩ := typed
  cases t with
  | entry c =>
      cases c with
      | user => exact copySid_outside v.sids (.inr (by
          rw [Nat.zero_add]
          exact Nat.not_lt.mp fun hb => h (.inl ⟨rfl, hb⟩)))
      | group =>
          refine copySid_outside v.sids ?_
          by_contra hinside
          rw [not_or, Nat.not_lt, Nat.not_le] at hinside
          exact h (.inr ⟨rfl, hinside⟩)
      | other => rfl
  | _ => rfl

/-- What an entry writes does not depend on what was there. -/
theorem statEntry_sids_congr {typed : AclType × Ace} {b : Nat} (h : WritesSid typed b)
    (v w : WinVattr) :
    (statEntry typed.1 typed.2 v).sids b = (statEntry typed.1 typed.2 w).sids b := by
  obtain ⟨t, entry⟩ := typed
  rcases h with ⟨htype, hb⟩ | ⟨htype, hlow, hb⟩
  · obtain rfl : t = .entry .user := htype
    exact (copySid_start v.sids hb).trans (copySid_start w.sids hb).symm
  · obtain rfl : t = .entry .group := htype
    obtain ⟨k, rfl⟩ := Nat.exists_eq_add_of_le hlow
    have hk := Nat.lt_of_add_lt_add_left hb
    exact (copySid_inside v.sids hk).trans (copySid_inside w.sids hk).symm

theorem aclStat_sids_of_not {entries : List Ace} {b : Nat} (h : ¬ ListsByte entries b)
    (v : WinVattr) : (aclStat v entries).sids b = v.sids b := by
  have hall : ∀ typed ∈ aclTyped entries, ¬ WritesSid typed b := fun typed hmem hwrites =>
    h ⟨typed, hmem, hwrites⟩
  rw [aclStat, aclLoop_result]
  clear h
  generalize aclTyped entries = typedEntries at hall ⊢
  induction typedEntries with
  | nil => rfl
  | cons typed rest ih =>
      rw [List.foldr_cons, statEntry_sids_of_not (hall typed List.mem_cons_self)]
      exact ih fun typed hmem => hall typed (List.mem_cons_of_mem _ hmem)

/-- What is listed does not depend on who was read before. -/
theorem aclStat_sids_congr {entries : List Ace} {b : Nat} (h : ListsByte entries b)
    (v w : WinVattr) : (aclStat v entries).sids b = (aclStat w entries).sids b := by
  obtain ⟨typed, hmem, hwrites⟩ := h
  rw [aclStat, aclLoop_result, aclStat, aclLoop_result]
  generalize aclTyped entries = typedEntries at hmem ⊢
  induction typedEntries with
  | nil => exact absurd hmem List.not_mem_nil
  | cons head rest ih =>
      rw [List.foldr_cons, List.foldr_cons]
      by_cases hhead : WritesSid head b
      · exact statEntry_sids_congr hhead _ _
      · rw [statEntry_sids_of_not hhead, statEntry_sids_of_not hhead]
        rcases List.mem_cons.mp hmem with rfl | hmem
        · exact absurd hwrites hhead
        · exact ih hmem

/-- The user of the list is read at the owner's place. -/
theorem aclStat_sids_user (v : WinVattr) {entries : List Ace} {user : Ace}
    (h : (AclType.entry .user, user) ∈ aclTyped entries) {b : Nat} (hb : b < user.sid.length)
    (hlow : b < sid8Size) : (aclStat v entries).sids b = user.sid.bytes.getD b 0 := by
  refine aclStat_read (fun w => w.sids b) h (fun w => copySid_start _ hb)
    (fun t e w _ hne => @statEntry_sids_of_not (t, e) b ?_ w) v
  rintro (⟨htype, -⟩ | ⟨-, hhigh, -⟩)
  · exact hne htype
  · omega

/-- There is room for the user of the list. -/
def UserFits (entries : List Ace) : Prop :=
  ∀ user, (AclType.entry .user, user) ∈ aclTyped entries → user.sid.subAuthority.length ≤ 8

theorem UserFits.writes {entries : List Ace} (h : UserFits entries) {typed : AclType × Ace}
    (hmem : typed ∈ aclTyped entries) {b : Nat} (hb : sid8Size ≤ b) (hwrites : WritesSid typed b) :
    typed.1 = .entry .group := by
  rcases hwrites with ⟨htype, hlt⟩ | ⟨htype, -⟩
  · obtain ⟨t, entry⟩ := typed
    obtain rfl : t = .entry .user := htype
    have hroom := h entry hmem
    rw [Sid.length] at hlt
    rw [sid8Size] at hb
    dsimp only at hlt
    omega
  · exact htype

/-- The group of the list is read at the group's place, if there is room for the user. -/
theorem aclStat_sids_group (v : WinVattr) {entries : List Ace} (hfits : UserFits entries)
    {group : Ace} (h : (AclType.entry .group, group) ∈ aclTyped entries) {b : Nat}
    (hb : b < group.sid.length) :
    (aclStat v entries).sids (sid8Size + b) = group.sid.bytes.getD b 0 := by
  refine aclStat_read (fun w => w.sids (sid8Size + b)) h (fun w => copySid_inside _ hb)
    (fun t e w hmem hne => @statEntry_sids_of_not (t, e) _ (fun hwrites => ?_) w) v
  exact hne (hfits.writes hmem (Nat.le_add_right _ b) hwrites)

/-- The count in the group's place once the SID of an entry was copied: a user without room has put
its ninth subauthority there. -/
def entryCount (t : AclType) (entry : Ace) (count : Nat) : Nat :=
  match t with
  | .entry .user =>
      if 8 < entry.sid.subAuthority.length then (entry.sid.bytes.getD (sid8Size + 1) 0).toNat
      else count
  | .entry .group => entry.sid.subAuthority.length
  | _ => count

def groupCount (entries : List Ace) (group : Sid) : Nat :=
  (aclTyped entries).foldr (fun typed count => entryCount typed.1 typed.2 count)
    group.subAuthority.length

/-- Who is reported, of what is read of the descriptor and then of the list. -/
theorem vfsAclStat_sids_eq (sd : SecurityDescriptor) (v : WinVattr) :
    (vfsAclStat sd v).sids =
      (aclStat ((v.copyUser sd.owner).copyGroup sd.group)
        (SecurityDescriptor.entries sd)).sids := by
  unfold vfsAclStat SecurityDescriptor.entries
  cases sd.dacl with
  | none => rfl
  | some acl =>
      cases acl with
      | none => rfl
      | some entries => rfl

theorem sidCount_statEntry (t : AclType) (entry : Ace) (v : WinVattr) :
    sidCount (statEntry t entry v).sids sid8Size =
      entryCount t entry (sidCount v.sids sid8Size) := by
  cases t with
  | entry c =>
      cases c with
      | user =>
          rw [entryCount]
          split_ifs with hlong
          · refine congrArg UInt8.toNat (copySid_start v.sids ?_)
            rw [Sid.length, sid8Size]
            omega
          · refine congrArg UInt8.toNat (copySid_outside v.sids (.inr ?_))
            rw [Sid.length, sid8Size]
            omega
      | group => exact sidCount_copySid v.sids sid8Size entry.sid
      | other => rfl
  | _ => rfl

theorem sidCount_group (sd : SecurityDescriptor) (v : WinVattr) :
    sidCount (vfsAclStat sd v).sids sid8Size =
      groupCount (SecurityDescriptor.entries sd) sd.group := by
  rw [vfsAclStat_sids_eq, aclStat, aclLoop_result, groupCount]
  induction aclTyped (SecurityDescriptor.entries sd) with
  | nil => exact sidCount_copySid _ sid8Size sd.group
  | cons typed rest ih => rw [List.foldr_cons, List.foldr_cons, ← ih, sidCount_statEntry]

section
variable {mode : WinMode} (hmode : mode.Plain)
include hmode

/-- A change of permissions does not change whom the list names. -/
theorem aclStat_aclChmod_sids (v : WinVattr) (entries : List Ace) :
    (aclStat v (aclChmod mode entries)).sids = (aclStat v entries).sids := by
  simp only [aclStat]
  rw [aclLoop_result, aclLoop_result, aclTyped_aclChmod hmode, List.foldr_map]
  induction aclTyped entries with
  | nil => rfl
  | cons typed rest ih =>
      obtain ⟨t, entry⟩ := typed
      rw [List.foldr_cons, List.foldr_cons]
      cases t with
      | entry c =>
          cases c with
          | user => exact congrArg (fun mem => copySid mem 0 entry.sid) ih
          | group => exact congrArg (fun mem => copySid mem sid8Size entry.sid) ih
          | other => exact ih
      | _ => exact ih

omit hmode in
theorem entries_vfsAclChmod (source result : SecurityDescriptor) :
    SecurityDescriptor.entries (vfsAclChmod mode source result) =
      aclChmod mode (SecurityDescriptor.entries source) := by
  unfold SecurityDescriptor.entries vfsAclChmod
  cases source.dacl with
  | none => rfl
  | some acl => cases acl <;> rfl

/-- The result once the owner and the group of a descriptor were copied. -/
def ownersRead (sd : SecurityDescriptor) (v : WinVattr) : Memory :=
  ((v.copyUser sd.owner).copyGroup sd.group).sids

/-- What a change of mode leaves of a byte of the result, where the list does not say what it
is. -/
theorem sids_kept_iff (source result : SecurityDescriptor) (v : WinVattr) (b : Nat) :
    (vfsAclStat (vfsAclChmod mode source result) v).sids b = (vfsAclStat source v).sids b ↔
      (¬ ListsByte (SecurityDescriptor.entries source) b →
        ownersRead result v b = ownersRead source v b) := by
  rw [ownersRead, ownersRead, vfsAclStat_sids_eq, vfsAclStat_sids_eq, entries_vfsAclChmod,
    aclStat_aclChmod_sids hmode]
  by_cases hlists : ListsByte (SecurityDescriptor.entries source) b
  · exact iff_of_true (aclStat_sids_congr hlists _ _) fun h => absurd hlists h
  · rw [aclStat_sids_of_not hlists, aclStat_sids_of_not hlists]
    exact ⟨fun h _ => h, fun h => h hlists⟩

omit hmode in
theorem sidCount_of_not_listed (source : SecurityDescriptor) (v : WinVattr) {a : Nat}
    (h : ¬ ListsByte (SecurityDescriptor.entries source) (a + 1)) :
    sidCount (vfsAclStat source v).sids a = sidCount (ownersRead source v) a := by
  rw [sidCount, sidCount, vfsAclStat_sids_eq, aclStat_sids_of_not h]
  rfl

/-- A SID that the list says nothing of is that of the descriptor. -/
theorem sameSid_iff_owners (source result : SecurityDescriptor) (v : WinVattr) {a : Nat}
    (hnot : ∀ b, a ≤ b → b < a + 8 + 4 * sidCount (ownersRead source v) a →
      ¬ ListsByte (SecurityDescriptor.entries source) b) :
    SameSid (vfsAclStat source v).sids (vfsAclStat (vfsAclChmod mode source result) v).sids a ↔
      SameSid (ownersRead source v) (ownersRead result v) a := by
  unfold SameSid
  rw [sidCount_of_not_listed source v (hnot (a + 1) (by omega) (by omega))]
  refine forall_congr' fun b => forall_congr' fun hlow => forall_congr' fun hhigh => ?_
  rw [sids_kept_iff hmode]
  exact ⟨fun h => h (hnot b hlow hhigh), fun h _ => h⟩

omit hmode in
theorem ownersRead_user (sd : SecurityDescriptor) (v : WinVattr) :
    sid8At (ownersRead sd v) 0 = sd.owner.toSid8 :=
  (WinVattr.copyGroup_userSid _ sd.group).trans (v.copyUser_userSid sd.owner)

omit hmode in
theorem ownersRead_of_lt (sd : SecurityDescriptor) (v : WinVattr) {b : Nat} (hb : b < sid8Size) :
    ownersRead sd v b = copySid v.sids 0 sd.owner b :=
  copySid_outside (copySid v.sids 0 sd.owner) (.inl hb)

omit hmode in
theorem sidCount_ownersRead (sd : SecurityDescriptor) (v : WinVattr) :
    sidCount (ownersRead sd v) 0 = sd.owner.subAuthority.length := by
  rw [← sidCount_copySid v.sids 0 sd.owner]
  exact congrArg UInt8.toNat (ownersRead_of_lt sd v (by decide))

/-- The user that is reported stays the same if the list names one, or if the file
keeps its owner. -/
theorem userSid_kept_iff (source result : SecurityDescriptor) {owner : SID8}
    (howner : result.owner = owner.toSid) (v : WinVattr) :
    SameSid (vfsAclStat source v).sids (vfsAclStat (vfsAclChmod mode source result) v).sids 0 ↔
      (aclSeen (SecurityDescriptor.entries source)).has .user = true ∨
        source.owner = owner.toSid := by
  by_cases hseen : (aclSeen (SecurityDescriptor.entries source)).has .user = true
  · -- all that is read is the user of the list
    obtain ⟨user, huser⟩ := (has_aclSeen_iff _ _).mp hseen
    refine iff_of_true (fun b _ hb => (sids_kept_iff hmode source result v b).mpr fun hnot => ?_)
      (.inl hseen)
    have hcount : sidCount (vfsAclStat source v).sids 0 = user.sid.subAuthority.length := by
      have hsize : 1 < user.sid.length := by
        rw [Sid.length]
        omega
      rw [← sidCount_copySid v.sids 0 user.sid, sidCount, sidCount, Nat.zero_add,
        copySid_start v.sids hsize, vfsAclStat_sids_eq, aclStat_sids_user _ huser hsize (by decide)]
    rw [hcount] at hb
    exact absurd ⟨_, huser, .inl ⟨rfl, by dsimp only; rw [Sid.length]; omega⟩⟩ hnot
  · have hnot : ∀ b < sid8Size, ¬ ListsByte (SecurityDescriptor.entries source) b := by
      rintro b hb ⟨⟨t, entry⟩, hmem, ⟨htype, -⟩ | ⟨-, hlow, -⟩⟩
      · obtain rfl : t = .entry .user := htype
        exact hseen ((has_aclSeen_iff _ _).mpr ⟨entry, hmem⟩)
      · omega
    have hcount : sidCount (ownersRead result v) 0 ≤ 8 := by
      rw [sidCount_ownersRead, howner]
      exact owner.count_le
    rw [or_iff_right hseen]
    constructor
    · intro hsame
      -- an owner without room would have another count
      have hfits : sidCount (ownersRead source v) 0 ≤ 8 := by
        have hbyte := (sids_kept_iff hmode source result v 1).mp
          (hsame 1 (Nat.zero_le 1) (by omega)) (hnot 1 (by decide))
        rw [sidCount, Nat.zero_add] at hcount ⊢
        rw [← hbyte]
        exact hcount
      rw [sameSid_iff_owners hmode source result v fun b _ hb => hnot b (by
        rw [sid8Size]
        omega)] at hsame
      have hread := hsame.sid8At
      rw [ownersRead_user, ownersRead_user, howner, SID8.toSid8_toSid] at hread
      exact (source.owner.toSid8_eq_some_iff owner).mp hread.symm
    · intro hkept
      rw [sidCount_ownersRead, howner, ← hkept, ← sidCount_ownersRead source v] at hcount
      rw [sameSid_iff_owners hmode source result v fun b _ hb => hnot b (by
        rw [sid8Size]
        omega)]
      intro b _ hb
      have hlow : b < sid8Size := by
        rw [sid8Size]
        omega
      rw [ownersRead_of_lt result v hlow, ownersRead_of_lt source v hlow, howner, hkept]

/-- The group stays the same, if the list names one or the file keeps its group; and where a user
without room is copied over the group, if what is left of the group stays the same. -/
structure GroupStays (v : WinVattr) (source result : SecurityDescriptor) : Prop where
  whole : UserFits (SecurityDescriptor.entries source) →
    (aclSeen (SecurityDescriptor.entries source)).has .group = true ∨ source.group = result.group
  rest : ¬ UserFits (SecurityDescriptor.entries source) → ∀ b, sid8Size ≤ b →
    b < sid8Size + 8 + 4 * groupCount (SecurityDescriptor.entries source) source.group →
      ¬ ListsByte (SecurityDescriptor.entries source) b →
        ownersRead result v b = ownersRead source v b

omit hmode in
theorem groupStays_of_fits {v : WinVattr} {source result : SecurityDescriptor}
    (hfits : UserFits (SecurityDescriptor.entries source)) :
    GroupStays v source result ↔
      (aclSeen (SecurityDescriptor.entries source)).has .group = true ∨
        source.group = result.group :=
  ⟨fun h => h.whole hfits, fun h => ⟨fun _ => h, fun hnot => absurd hfits hnot⟩⟩

theorem groupSid_kept_iff (source result : SecurityDescriptor) {group : SID8}
    (hgroup : result.group = group.toSid) (v : WinVattr) :
    SameSid (vfsAclStat source v).sids (vfsAclStat (vfsAclChmod mode source result) v).sids
      sid8Size ↔ GroupStays v source result := by
  by_cases hfits : UserFits (SecurityDescriptor.entries source)
  · rw [groupStays_of_fits hfits]
    by_cases hseen : (aclSeen (SecurityDescriptor.entries source)).has .group = true
    · obtain ⟨entry, hentry⟩ := (has_aclSeen_iff _ _).mp hseen
      refine iff_of_true (fun b hlow hb => (sids_kept_iff hmode source result v b).mpr
        fun hnot => ?_) (.inl hseen)
      have hcount : sidCount (vfsAclStat source v).sids sid8Size =
          entry.sid.subAuthority.length := by
        have hsize : 1 < entry.sid.length := by
          rw [Sid.length]
          omega
        rw [← sidCount_copySid v.sids sid8Size entry.sid, sidCount, sidCount,
          copySid_inside v.sids hsize, vfsAclStat_sids_eq, aclStat_sids_group _ hfits hentry hsize]
      rw [hcount] at hb
      refine absurd ⟨_, hentry, .inr ⟨rfl, hlow, ?_⟩⟩ hnot
      dsimp only
      rw [Sid.length]
      omega
    · have hnot : ∀ b, sid8Size ≤ b → ¬ ListsByte (SecurityDescriptor.entries source) b := by
        rintro b hb ⟨⟨t, entry⟩, hmem, hwrites⟩
        obtain rfl : t = .entry .group := hfits.writes hmem hb hwrites
        exact hseen ((has_aclSeen_iff _ _).mpr ⟨entry, hmem⟩)
      rw [sameSid_iff_owners hmode source result v fun b hb _ => hnot b hb, or_iff_right hseen]
      constructor
      · intro hsame
        have hread : result.group.toSid8 = source.group.toSid8 :=
          (WinVattr.copyGroup_groupSid _ _).symm.trans
            (hsame.sid8At.trans (WinVattr.copyGroup_groupSid _ _))
        rw [hgroup, SID8.toSid8_toSid] at hread
        rw [hgroup]
        exact (source.group.toSid8_eq_some_iff group).mp hread.symm
      · intro hkept b hlow hb
        have hcount : sidCount (ownersRead source v) sid8Size = source.group.subAuthority.length :=
          sidCount_copySid _ sid8Size source.group
        rw [hcount] at hb
        obtain ⟨k, rfl⟩ := Nat.exists_eq_add_of_le hlow
        have hk : k < source.group.length := by
          rw [Sid.length]
          omega
        have hread : ∀ sd : SecurityDescriptor, sd.group = source.group →
            ownersRead sd v (sid8Size + k) = source.group.bytes.getD k 0 := fun sd hsd => by
          rw [← hsd] at hk ⊢
          exact copySid_inside _ hk
        rw [hread result hkept.symm, hread source rfl]
  · rw [SameSid, sidCount_group]
    constructor
    · exact fun h => ⟨fun hfits' => absurd hfits' hfits, fun _ b hlow hb =>
        (sids_kept_iff hmode source result v b).mp (h b hlow hb)⟩
    · exact fun h b hlow hb => (sids_kept_iff hmode source result v b).mpr (h.rest hfits b hlow hb)

end

end MinC.Vfs
