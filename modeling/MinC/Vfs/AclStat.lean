import MinC.Vfs.Acl

/-!
Reading and changing permissions.

The permissions of a class are the mask of its entry, and are changed in the
mask, of which the other bits are kept. Owner and group are taken from the
descriptor first, and then from the entries of their classes. They are copied
as long as they are, and one that is longer than its field runs on into what
follows: over the first bytes of the group if it is the owner, and out of the
result if it is the group.
-/

namespace MinC.Vfs

open MinC.Lib MinC.Win

structure WinMode where
  fileType : WinVtype
  user : UInt32
  group : UInt32
  other : UInt32
  special : UInt32
  deriving DecidableEq

namespace WinMode

def of (mode : WinMode) : AclClass → UInt32
  | .user => mode.user
  | .group => mode.group
  | .other => mode.other

def set (mode : WinMode) (mask : UInt32) : AclClass → WinMode
  | .user => { mode with user := mask }
  | .group => { mode with group := mask }
  | .other => { mode with other := mask }

theorem of_set (mode : WinMode) (mask : UInt32) (c d : AclClass) :
    (mode.set mask c).of d = if c = d then mask else mode.of d := by
  cases c <;> cases d <;> rfl

end WinMode

/-! ### Changing -/

/-- The mask of a class with other permissions. -/
def chmodMask (mask perms : UInt32) : UInt32 := (mask &&& ~~~winSIrwx) + perms

def chmodEntry (mode : WinMode) (t : AclType) (entry : Ace) : Ace :=
  match t with
  | .entry c => { entry with mask := chmodMask entry.mask (mode.of c) }
  | _ => entry

def aclChmod (mode : WinMode) (entries : List Ace) : List Ace :=
  (aclLoop (fun t entry rest => chmodEntry mode t entry :: rest) [] entries).1

/-- `vfs_acl_chmod`, which changes the list of a file where it is, and puts it in
another descriptor. -/
def vfsAclChmod (mode : WinMode) (source result : SecurityDescriptor) : SecurityDescriptor :=
  { result with dacl := source.dacl.map (Option.map (aclChmod mode)) }

/-! ### Reading -/

/-- What is read of a file: its mode, and the bytes of its owner, of its group, which is behind the
owner, and of what follows the result. -/
structure WinVattr where
  mode : WinMode
  sids : Memory

namespace WinVattr

/-- The owner and the group, if there is a SID in the fields they have. -/
def userSid (v : WinVattr) : Option SID8 := sid8At v.sids 0

def groupSid (v : WinVattr) : Option SID8 := sid8At v.sids sid8Size

def copyUser (v : WinVattr) (sid : Sid) : WinVattr := { v with sids := copySid v.sids 0 sid }

def copyGroup (v : WinVattr) (sid : Sid) : WinVattr :=
  { v with sids := copySid v.sids sid8Size sid }

@[simp] theorem copyUser_mode (v : WinVattr) (sid : Sid) : (v.copyUser sid).mode = v.mode := rfl

@[simp] theorem copyGroup_mode (v : WinVattr) (sid : Sid) : (v.copyGroup sid).mode = v.mode := rfl

def setMask (v : WinVattr) (mask : UInt32) (c : AclClass) : WinVattr :=
  { v with mode := v.mode.set mask c }

@[simp] theorem setMask_userSid (v : WinVattr) (mask : UInt32) (c : AclClass) :
    (v.setMask mask c).userSid = v.userSid := rfl

@[simp] theorem setMask_groupSid (v : WinVattr) (mask : UInt32) (c : AclClass) :
    (v.setMask mask c).groupSid = v.groupSid := rfl

end WinVattr

def statEntry (t : AclType) (entry : Ace) (v : WinVattr) : WinVattr :=
  match t with
  | .entry .user => (v.copyUser entry.sid).setMask entry.mask .user
  | .entry .group => (v.copyGroup entry.sid).setMask entry.mask .group
  | .entry .other => v.setMask entry.mask .other
  | _ => v

def aclStat (v : WinVattr) (entries : List Ace) : WinVattr := (aclLoop statEntry v entries).1

/-- The mode of a file on a volume without lists. -/
def WinMode.open (mode : WinMode) : WinMode :=
  { mode with user := winSIrwx, group := winSIrwx, other := winSIrwx }

def vfsAclStat (sd : SecurityDescriptor) (v : WinVattr) : WinVattr :=
  let v := (v.copyUser sd.owner).copyGroup sd.group
  let v := match sd.dacl with
    | some (some entries) => aclStat v entries
    | _ => { v with mode := v.mode.open }
  { v with
    mode := { v.mode with
      special := v.mode.special ||| (if sd.owner = sidAdmins.toSid then winSIsuid else 0) |||
        (if sd.group = sidSystem.toSid then winSIsgid else 0) } }

/-! ### What is read of a class -/

theorem statEntry_mode (t : AclType) (entry : Ace) (v : WinVattr) (c : AclClass) :
    (statEntry t entry v).mode.of c = if t = .entry c then entry.mask else v.mode.of c := by
  cases t with
  | entry d => cases d <;> cases c <;> simp [statEntry, WinVattr.setMask, WinMode.of_set]
  | _ => rfl

/-- What is read of the entry of a class stays, if the other entries leave it alone. -/
theorem aclStat_read {α : Type} (f : WinVattr → α) {entries : List Ace} {c : AclClass}
    {entry : Ace} {x : α} (h : (AclType.entry c, entry) ∈ aclTyped entries)
    (hread : ∀ w, f (statEntry (.entry c) entry w) = x)
    (hleft : ∀ t e w, (t, e) ∈ aclTyped entries → t ≠ .entry c → f (statEntry t e w) = f w)
    (v : WinVattr) : f (aclStat v entries) = x := by
  rw [aclStat, aclLoop_result]
  induction entries with
  | nil => exact absurd h List.not_mem_nil
  | cons head entries ih =>
      rw [aclTyped] at h hleft ⊢
      rw [List.foldr_cons]
      rcases List.mem_cons.mp h with heq | h
      · obtain ⟨htype, hentry⟩ := Prod.mk.inj heq
        rw [← htype, ← hentry]
        exact hread _
      · rw [hleft _ _ _ List.mem_cons_self (aclOwnerType_ne h)]
        exact ih h fun t e w hmem => hleft t e w (List.mem_cons_of_mem _ hmem)

/-- The permissions of a class are the mask of its entry. -/
theorem aclStat_mode (v : WinVattr) {entries : List Ace} {c : AclClass} {entry : Ace}
    (h : (AclType.entry c, entry) ∈ aclTyped entries) :
    (aclStat v entries).mode.of c = entry.mask := by
  refine aclStat_read (fun w => w.mode.of c) h (fun w => ?_) (fun t e w _ hne => ?_) v
  · rw [statEntry_mode, if_pos rfl]
  · rw [statEntry_mode, if_neg hne]

/-- The permissions of a class without an entry stay what they were. -/
theorem aclStat_mode_of_not_has (v : WinVattr) {entries : List Ace} {c : AclClass}
    (h : (aclSeen entries).has c = false) : (aclStat v entries).mode.of c = v.mode.of c := by
  rw [aclStat, aclLoop_result]
  induction entries with
  | nil => rfl
  | cons head entries ih =>
      have hnone : ¬ ((aclSeen entries).has c = true ∨
          (aclOwnerType head (aclSeen entries)).1 = .entry c) := by
        rw [← aclOwnerType_seen]
        rw [aclSeen] at h
        rw [h]
        exact Bool.false_ne_true
      rw [aclTyped, List.foldr_cons, statEntry_mode, if_neg (not_or.mp hnone).2]
      exact ih (by simpa using (not_or.mp hnone).1)

theorem vfsAclStat_mode {sd : SecurityDescriptor} {entries : List Ace}
    (h : sd.dacl = some (some entries)) (v : WinVattr) (c : AclClass) :
    (vfsAclStat sd v).mode.of c =
      (aclStat ((v.copyUser sd.owner).copyGroup sd.group) entries).mode.of c := by
  unfold vfsAclStat
  rw [h]
  cases c <;> rfl

/-! ### Who is read -/

namespace WinVattr

@[simp] theorem copyUser_userSid (v : WinVattr) (sid : Sid) :
    (v.copyUser sid).userSid = sid.toSid8 := sid8At_copySid v.sids 0 sid

/-- The owner is read without a look at the group. -/
@[simp] theorem copyGroup_userSid (v : WinVattr) (sid : Sid) :
    (v.copyGroup sid).userSid = v.userSid :=
  sid8At_congr fun b _ hb => copySid_outside v.sids (.inl (by rwa [Nat.zero_add] at hb))

@[simp] theorem copyGroup_groupSid (v : WinVattr) (sid : Sid) :
    (v.copyGroup sid).groupSid = sid.toSid8 := sid8At_copySid v.sids sid8Size sid

/-- The group is left alone by a user that has room. -/
theorem copyUser_groupSid (v : WinVattr) {sid : Sid} (h : sid.toSid8 ≠ none) :
    (v.copyUser sid).groupSid = v.groupSid := by
  have hroom := (Sid.toSid8_ne_none_iff sid).mp h
  refine sid8At_congr fun b hb _ => copySid_outside v.sids (.inr ?_)
  rw [Sid.length]
  rw [sid8Size] at hb
  omega

end WinVattr

theorem statEntry_userSid (t : AclType) (entry : Ace) (v : WinVattr) :
    (statEntry t entry v).userSid =
      if t = .entry .user then entry.sid.toSid8 else v.userSid := by
  cases t with
  | entry c => cases c <;> simp [statEntry]
  | _ => rfl

theorem statEntry_groupSid {t : AclType} {entry : Ace} (v : WinVattr)
    (h : t = .entry .user → entry.sid.toSid8 ≠ none) :
    (statEntry t entry v).groupSid =
      if t = .entry .group then entry.sid.toSid8 else v.groupSid := by
  cases t with
  | entry c =>
      cases c with
      | user => simpa [statEntry] using WinVattr.copyUser_groupSid v (h rfl)
      | group => simp [statEntry]
      | other => simp [statEntry]
  | _ => rfl

/-- The user is the one in the entry of the class. -/
theorem aclStat_userSid (v : WinVattr) {entries : List Ace} {user : Ace}
    (h : (AclType.entry .user, user) ∈ aclTyped entries) :
    (aclStat v entries).userSid = user.sid.toSid8 := by
  refine aclStat_read WinVattr.userSid h (fun w => ?_) (fun t e w _ hne => ?_) v
  · rw [statEntry_userSid, if_pos rfl]
  · rw [statEntry_userSid, if_neg hne]

/-- The group is the one in the entry of the class, if the user has room. -/
theorem aclStat_groupSid (v : WinVattr) {entries : List Ace} {group : Ace}
    (hroom : ∀ user, (AclType.entry .user, user) ∈ aclTyped entries → user.sid.toSid8 ≠ none)
    (h : (AclType.entry .group, group) ∈ aclTyped entries) :
    (aclStat v entries).groupSid = group.sid.toSid8 := by
  refine aclStat_read WinVattr.groupSid h (fun w => ?_) (fun t e w hmem hne => ?_) v
  · rw [statEntry_groupSid w fun huser => absurd huser (by decide), if_pos rfl]
  · rw [statEntry_groupSid w fun huser => hroom e (huser ▸ hmem), if_neg hne]

theorem vfsAclStat_sids {sd : SecurityDescriptor} {entries : List Ace}
    (h : sd.dacl = some (some entries)) (v : WinVattr) :
    (vfsAclStat sd v).userSid =
        (aclStat ((v.copyUser sd.owner).copyGroup sd.group) entries).userSid ∧
      (vfsAclStat sd v).groupSid =
        (aclStat ((v.copyUser sd.owner).copyGroup sd.group) entries).groupSid := by
  unfold vfsAclStat
  rw [h]
  exact ⟨rfl, rfl⟩

/-! ### What is changed -/

/-- The bits of a mask that the guess looks at are no permissions. -/
theorem chmodMask_flag {mask perms flag : UInt32} (hperms : perms &&& ~~~winSIrwx = 0)
    (hflag : flag &&& winSIrwx = 0) :
    flagSet (chmodMask mask perms) flag = flagSet mask flag := by
  have hdisjoint : mask &&& ~~~winSIrwx &&& perms = 0 := by
    rw [UInt32.and_assoc, UInt32.and_comm _ perms, hperms, UInt32.and_zero]
  have hinv : ~~~winSIrwx &&& flag = flag := by
    have hall : (~~~winSIrwx ||| winSIrwx) &&& flag = flag := by
      rw [show ~~~winSIrwx ||| winSIrwx = -1 by decide, UInt32.neg_one_and]
    rw [u32_and_or_right, UInt32.and_comm winSIrwx, hflag, UInt32.or_zero] at hall
    exact hall
  have hnone : perms &&& flag = 0 := by
    rw [← hinv, ← UInt32.and_assoc, hperms, UInt32.zero_and]
  unfold chmodMask flagSet
  rw [u32_add_eq_or hdisjoint, u32_and_or_right, hnone, UInt32.or_zero, UInt32.and_assoc, hinv]

/-- The permissions of a changed mask are the new ones. -/
theorem chmodMask_perms {mask perms : UInt32} (hperms : perms &&& ~~~winSIrwx = 0) :
    chmodMask mask perms &&& winSIrwx = perms ∧
      chmodMask mask perms &&& ~~~winSIrwx = mask &&& ~~~winSIrwx := by
  have hdisjoint : mask &&& ~~~winSIrwx &&& perms = 0 := by
    rw [UInt32.and_assoc, UInt32.and_comm _ perms, hperms, UInt32.and_zero]
  have hall : perms &&& (~~~winSIrwx ||| winSIrwx) = perms := by
    rw [show ~~~winSIrwx ||| winSIrwx = -1 by decide, UInt32.and_neg_one]
  rw [u32_and_or_left, hperms, UInt32.zero_or] at hall
  unfold chmodMask
  rw [u32_add_eq_or hdisjoint, u32_and_or_right, u32_and_or_right, UInt32.and_assoc,
    UInt32.and_assoc, hperms, hall, UInt32.or_zero]
  rw [show ~~~winSIrwx &&& winSIrwx = 0 by decide, UInt32.and_zero, UInt32.zero_or,
    UInt32.and_self]
  exact ⟨rfl, rfl⟩

/-- A mode that asks for nothing but permissions. -/
def WinMode.Plain (mode : WinMode) : Prop := ∀ c, mode.of c &&& ~~~winSIrwx = 0

theorem aclChmod_eq (mode : WinMode) (entries : List Ace) :
    aclChmod mode entries =
      (aclTyped entries).map fun typed => chmodEntry mode typed.1 typed.2 := by
  rw [aclChmod, aclLoop_result]
  induction aclTyped entries with
  | nil => rfl
  | cons typed rest ih => rw [List.foldr_cons, List.map_cons, ih]

theorem chmodEntry_alike {mode : WinMode} (hmode : mode.Plain) (t : AclType) (entry : Ace) :
    Alike (chmodEntry mode t entry) entry := by
  cases t with
  | entry c =>
      exact ⟨rfl, rfl, chmodMask_flag (hmode c) (by decide), chmodMask_flag (hmode c) (by decide),
        chmodMask_flag (hmode c) (by decide)⟩
  | _ => exact ⟨rfl, rfl, rfl, rfl, rfl⟩

/-- A change of permissions leaves each entry its class. -/
theorem aclTyped_aclChmod {mode : WinMode} (hmode : mode.Plain) (entries : List Ace) :
    aclTyped (aclChmod mode entries) =
      (aclTyped entries).map fun typed => (typed.1, chmodEntry mode typed.1 typed.2) := by
  rw [aclChmod_eq]
  exact (aclTyped_map (chmodEntry_alike hmode) entries).1

/-- A later change overrides an earlier one. -/
theorem aclChmod_aclChmod {mode mode' : WinMode} (hmode : mode.Plain) (entries : List Ace) :
    aclChmod mode' (aclChmod mode entries) = aclChmod mode' entries := by
  rw [aclChmod_eq mode' (aclChmod mode entries), aclTyped_aclChmod hmode, List.map_map,
    aclChmod_eq mode' entries]
  refine List.map_congr_left fun typed _ => ?_
  obtain ⟨t, entry⟩ := typed
  cases t with
  | entry c =>
      show { entry with mask := chmodMask (chmodMask entry.mask (mode.of c)) (mode'.of c) } =
        { entry with mask := chmodMask entry.mask (mode'.of c) }
      rw [chmodMask, (chmodMask_perms (hmode c)).2, chmodMask]
  | _ => rfl

end MinC.Vfs
