import MinC.Vfs.AclStat
import MinC.Win.AclBlock

/-!
Changing the owner.

Who owns a file is what its list says. The list is made anew, with other
identifiers in the entries of the user and the group. An entry that `AddAce`
refuses is missed in the new list, but was counted. An identifier that is kept
may be longer than what it is read into.
-/

namespace MinC.Vfs

open MinC.Lib MinC.Win

/-- The entries of a descriptor that a loop goes through. -/
def SecurityDescriptor.entries (sd : SecurityDescriptor) : List Ace :=
  (sd.dacl.getD none).getD []

theorem SecurityDescriptor.entries_of_dacl {sd : SecurityDescriptor} {entries : List Ace}
    (h : sd.dacl = some (some entries)) : SecurityDescriptor.entries sd = entries := by
  rw [SecurityDescriptor.entries, h, Option.getD_some, Option.getD_some]

section
variable (heap : WinHeap) (takes : UInt8 → Bool) (machine newUser newGroup : SID8)

/-- An entry for somebody else, unless there is nobody. -/
def chownSid (newSid : SID8) (entry : Ace) : Ace :=
  if newSid = sidNone machine then entry else { entry with sid := newSid.toSid, rest := [] }

def chownEntry (t : AclType) (entry : Ace) : Ace :=
  match t with
  | .entry .user => chownSid machine newUser entry
  | .entry .group => chownSid machine newGroup entry
  | _ => entry

/-- `vfs_acl_chown`: the new list in its block, and the descriptor it is put in. -/
def vfsAclChown (source result : SecurityDescriptor) : AclBlock × SecurityDescriptor :=
  let acl := (aclLoop
    (fun t entry acl => acl.addFirst heap takes (chownEntry machine newUser newGroup t entry))
    (newAcl heap) (SecurityDescriptor.entries source)).1
  (acl, { result with dacl := source.dacl.map fun _ => some acl.entries })

/-! ### The new list -/

/-- The list as it should be. -/
def chownEntries (entries : List Ace) : List Ace :=
  (aclTyped entries).map fun typed => chownEntry machine newUser newGroup typed.1 typed.2

theorem vfsAclChown_list (source result : SecurityDescriptor) :
    (vfsAclChown heap takes machine newUser newGroup source result).1 =
      buildAcl heap takes
        (chownEntries machine newUser newGroup (SecurityDescriptor.entries source)) := by
  rw [vfsAclChown]
  dsimp only
  rw [aclLoop_result, buildAcl, chownEntries, List.foldr_map]

@[simp] theorem chownSid_mask (newSid : SID8) (entry : Ace) :
    (chownSid machine newSid entry).mask = entry.mask := by
  unfold chownSid
  split_ifs <;> rfl

theorem chownSid_alike (newSid : SID8) (entry : Ace) :
    (chownSid machine newSid entry).aceFlags = entry.aceFlags ∧
      Alike (chownSid machine newSid entry) entry := by
  unfold chownSid
  split_ifs <;> exact ⟨rfl, rfl, rfl, rfl, rfl, rfl⟩

theorem chownEntry_alike (t : AclType) (entry : Ace) :
    Alike (chownEntry machine newUser newGroup t entry) entry := by
  cases t with
  | entry c =>
      cases c with
      | user => exact (chownSid_alike machine newUser entry).2
      | group => exact (chownSid_alike machine newGroup entry).2
      | other => exact ⟨rfl, rfl, rfl, rfl, rfl⟩
  | _ => exact ⟨rfl, rfl, rfl, rfl, rfl⟩

/-- The entry of a class is that of the class in the new list. -/
theorem mem_chownEntries {entries : List Ace} {c : AclClass} {entry : Ace}
    (h : (AclType.entry c, entry) ∈ aclTyped entries) :
    (AclType.entry c, chownEntry machine newUser newGroup (.entry c) entry) ∈
      aclTyped (chownEntries machine newUser newGroup entries) := by
  rw [chownEntries, (aclTyped_map (chownEntry_alike machine newUser newGroup) entries).1]
  exact List.mem_map_of_mem h

theorem aclSeen_chownEntries (entries : List Ace) :
    aclSeen (chownEntries machine newUser newGroup entries) = aclSeen entries :=
  (aclTyped_map (chownEntry_alike machine newUser newGroup) entries).2

/-! ### The owner that is read -/

/-- Who an entry is for after a change. -/
def owned (newSid : SID8) (entry : Ace) : Sid :=
  if newSid = sidNone machine then entry.sid else newSid.toSid

theorem chownSid_sid (newSid : SID8) (entry : Ace) :
    (chownSid machine newSid entry).sid = owned machine newSid entry := by
  unfold chownSid owned
  split_ifs <;> rfl

/-- There is room for somebody new, and for who was there if they fit. -/
theorem owned_length_iff (newSid : SID8) (entry : Ace) :
    (owned machine newSid entry).subAuthority.length ≤ 8 ↔
      (newSid = sidNone machine → entry.sid.subAuthority.length ≤ 8) := by
  unfold owned
  split_ifs with hnone
  · exact ⟨fun h _ => h, fun h => h hnone⟩
  · exact iff_of_true newSid.count_le fun h => absurd h hnone

/-- An entry after a change: the user's and the group's are for somebody else, or
as they were, and all others are as they were. -/
structure Reowned (typed : AclType × Ace) (entry : Ace) : Prop where
  aceType : entry.aceType = typed.2.aceType
  aceFlags : entry.aceFlags = typed.2.aceFlags
  mask : entry.mask = typed.2.mask
  user : typed.1 = .entry .user → entry.sid = owned machine newUser typed.2
  group : typed.1 = .entry .group → entry.sid = owned machine newGroup typed.2
  untouched : typed.1 ≠ .entry .user → typed.1 ≠ .entry .group → entry = typed.2

theorem chownEntry_reowned (typed : AclType × Ace) :
    Reowned machine newUser newGroup typed
      (chownEntry machine newUser newGroup typed.1 typed.2) := by
  obtain ⟨t, entry⟩ := typed
  refine ⟨(chownEntry_alike machine newUser newGroup t entry).aceType, ?_, ?_, ?_, ?_, ?_⟩
  · cases t with
    | entry c =>
        cases c with
        | user => exact (chownSid_alike machine newUser entry).1
        | group => exact (chownSid_alike machine newGroup entry).1
        | other => rfl
    | _ => rfl
  · cases t with
    | entry c => cases c <;> simp [chownEntry]
    | _ => rfl
  · rintro rfl
    exact chownSid_sid machine newUser entry
  · rintro rfl
    exact chownSid_sid machine newGroup entry
  · intro huser hgroup
    cases t with
    | entry c =>
        cases c with
        | user => exact absurd rfl huser
        | group => exact absurd rfl hgroup
        | other => rfl
    | _ => rfl

/-- What is true of a list that has another owner. -/
structure Chowned (source : SecurityDescriptor) (user group : Ace)
    (changed : AclBlock × SecurityDescriptor) (v : WinVattr) : Prop where
  entries : List.Forall₂ (Reowned machine newUser newGroup)
    (aclTyped (SecurityDescriptor.entries source)) changed.1.entries
  attached : changed.2.dacl = some (some changed.1.entries)
  wellFormed : changed.1.WellFormed
  modes : ∀ c, (vfsAclStat changed.2 v).mode.of c = (vfsAclStat source v).mode.of c
  user : (vfsAclStat changed.2 v).userSid.map SID8.toSid = some (owned machine newUser user)
  group : (vfsAclStat changed.2 v).groupSid.map SID8.toSid = some (owned machine newGroup group)

/-- The permissions of all classes are those of the old list. -/
theorem aclStat_chownEntries_mode (v w : WinVattr) (entries : List Ace)
    (hmode : v.mode = w.mode) (c : AclClass) :
    (aclStat v (chownEntries machine newUser newGroup entries)).mode.of c =
      (aclStat w entries).mode.of c := by
  by_cases hhas : (aclSeen entries).has c = true
  · obtain ⟨entry, hentry⟩ := (has_aclSeen_iff entries c).mp hhas
    have hnew := mem_chownEntries machine newUser newGroup hentry
    rw [aclStat_mode _ hentry, aclStat_mode _ hnew]
    exact (chownEntry_reowned machine newUser newGroup (.entry c, entry)).mask
  · have hnone : (aclSeen entries).has c = false := by simpa using hhas
    rw [aclStat_mode_of_not_has _ hnone, aclStat_mode_of_not_has _ (by
      rw [aclSeen_chownEntries, hnone]), hmode]

/-- Who is read of the new list, if it has all entries. -/
theorem chown_sids {sd : SecurityDescriptor} {entries : List Ace} {user group : Ace}
    (hsd : sd.dacl = some (some (chownEntries machine newUser newGroup entries)))
    (huser : (AclType.entry .user, user) ∈ aclTyped entries)
    (hgroup : (AclType.entry .group, group) ∈ aclTyped entries) (v : WinVattr) :
    (vfsAclStat sd v).userSid = (owned machine newUser user).toSid8 ∧
      ((owned machine newUser user).toSid8 ≠ none →
        (vfsAclStat sd v).groupSid = (owned machine newGroup group).toSid8) := by
  have hnewUser := mem_chownEntries machine newUser newGroup huser
  have hnewGroup := mem_chownEntries machine newUser newGroup hgroup
  obtain ⟨huserSid, hgroupSid⟩ := vfsAclStat_sids hsd v
  have hread : ∀ w, (aclStat w (chownEntries machine newUser newGroup entries)).userSid =
      (owned machine newUser user).toSid8 := fun w => by
    rw [aclStat_userSid w hnewUser]
    exact congrArg Sid.toSid8 (chownSid_sid machine newUser user)
  refine ⟨by rw [huserSid, hread], fun hroom => ?_⟩
  rw [hgroupSid, aclStat_groupSid _ (fun other hother => ?_) hnewGroup]
  · exact congrArg Sid.toSid8 (chownSid_sid machine newGroup group)
  · rw [← aclStat_userSid v hother, hread]
    exact hroom

theorem chownEntries_aceType (entries : List Ace) :
    (chownEntries machine newUser newGroup entries).map Ace.aceType = entries.map Ace.aceType := by
  nth_rewrite 2 [← aclTyped_map_snd entries]
  rw [chownEntries, List.map_map, List.map_map]
  exact List.map_congr_left fun typed _ =>
    (chownEntry_alike machine newUser newGroup typed.1 typed.2).aceType

/-- The new list is complete if all types of entries are taken. -/
theorem vfsAclChown_complete {source : SecurityDescriptor} {entries : List Ace}
    (hdacl : source.dacl = some (some entries))
    (hsize : aclBytes (chownEntries machine newUser newGroup entries) < 2 ^ 16)
    (hgrows : AclGrows heap (chownEntries machine newUser newGroup entries))
    (result : SecurityDescriptor) :
    ((vfsAclChown heap takes machine newUser newGroup source result).1.entries =
        chownEntries machine newUser newGroup entries ↔
      ∀ entry ∈ entries, takes entry.aceType = true) ∧
    ((∀ entry ∈ entries, takes entry.aceType = true) →
      (vfsAclChown heap takes machine newUser newGroup source result).1.Complete heap
        (chownEntries machine newUser newGroup entries)) := by
  have hentries := SecurityDescriptor.entries_of_dacl hdacl
  have htypes : (∀ entry ∈ chownEntries machine newUser newGroup entries,
      takes entry.aceType = true) ↔ ∀ entry ∈ entries, takes entry.aceType = true := by
    rw [← List.forall_mem_map (f := Ace.aceType) (P := fun t => takes t = true),
      chownEntries_aceType, List.forall_mem_map]
  obtain ⟨hiff, hcomplete⟩ := buildAcl_complete heap takes hsize
  rw [vfsAclChown_list, hentries]
  rw [htypes, and_iff_left hgrows] at hiff
  exact ⟨hiff, fun h => hcomplete (hiff.mpr h)⟩

/-- A file has its new owner if `AddAce` takes all types of entries in the list,
and there is room for who is to stay the user or the group. -/
theorem chown_iff {source : SecurityDescriptor} {entries : List Ace} {user group : Ace}
    (hdacl : source.dacl = some (some entries))
    (huser : (AclType.entry .user, user) ∈ aclTyped entries)
    (hgroup : (AclType.entry .group, group) ∈ aclTyped entries)
    (hsize : aclBytes (chownEntries machine newUser newGroup entries) < 2 ^ 16)
    (hgrows : AclGrows heap (chownEntries machine newUser newGroup entries))
    (result : SecurityDescriptor) (v : WinVattr) :
    Chowned machine newUser newGroup source user group
        (vfsAclChown heap takes machine newUser newGroup source result) v ↔
      (∀ entry ∈ entries, takes entry.aceType = true) ∧
      (newUser = sidNone machine → user.sid.subAuthority.length ≤ 8) ∧
      (newGroup = sidNone machine → group.sid.subAuthority.length ≤ 8) := by
  have hentries := SecurityDescriptor.entries_of_dacl hdacl
  obtain ⟨hiff, hcomplete⟩ := vfsAclChown_complete heap takes machine newUser newGroup hdacl
    hsize hgrows result
  have hlist := vfsAclChown_list heap takes machine newUser newGroup source result
  rw [hentries] at hlist
  have hattached : (vfsAclChown heap takes machine newUser newGroup source result).2.dacl =
      some (some (vfsAclChown heap takes machine newUser newGroup source result).1.entries) := by
    rw [vfsAclChown, hdacl, Option.map_some]
  constructor
  · intro h
    -- as many entries as before are all of them, as a step adds its entry or leaves it out
    have hall : (vfsAclChown heap takes machine newUser newGroup source result).1.entries =
        chownEntries machine newUser newGroup entries := by
      have hlength := h.entries.length_eq
      rw [hentries, hlist] at hlength
      rw [hlist]
      refine (addFirst_builds heap takes).eq_of_length rfl ?_
      rw [chownEntries, List.length_map, hlength]
      rfl
    rw [hall] at hattached
    obtain ⟨huserSid, hgroupSid⟩ :=
      chown_sids machine newUser newGroup hattached huser hgroup v
    -- who is read back is who was put there, which is so only if the subauthorities fit
    have huserRoom := (owned machine newUser user).map_toSid8_iff.mp (huserSid ▸ h.user)
    have hgroupRead := hgroupSid ((Sid.toSid8_ne_none_iff _).mpr huserRoom)
    have hgroupRoom := (owned machine newGroup group).map_toSid8_iff.mp (hgroupRead ▸ h.group)
    exact ⟨hiff.mp hall, (owned_length_iff machine newUser user).mp huserRoom,
      (owned_length_iff machine newGroup group).mp hgroupRoom⟩
  · rintro ⟨htakes, huserKept, hgroupKept⟩
    have hdone := hcomplete htakes
    have huserRoom := (owned_length_iff machine newUser user).mpr huserKept
    have hgroupRoom := (owned_length_iff machine newGroup group).mpr hgroupKept
    have hsd := hattached
    rw [hdone.entries] at hsd
    obtain ⟨huserSid, hgroupSid⟩ := chown_sids machine newUser newGroup hsd huser hgroup v
    refine ⟨?_, hattached, hdone.wellFormed, fun c => ?_, ?_, ?_⟩
    · rw [hentries, hdone.entries, chownEntries, List.forall₂_map_right_iff, List.forall₂_same]
      exact fun typed _ => chownEntry_reowned machine newUser newGroup typed
    · rw [vfsAclStat_mode hsd, vfsAclStat_mode hdacl]
      exact aclStat_chownEntries_mode machine newUser newGroup _ _ entries (by simp) c
    · rw [huserSid]
      exact (owned machine newUser user).map_toSid8_iff.mpr huserRoom
    · rw [hgroupSid ((Sid.toSid8_ne_none_iff _).mpr huserRoom)]
      exact (owned machine newGroup group).map_toSid8_iff.mpr hgroupRoom

end

/-! ### Owners that are not read -/

/-- Memory of which there is always more. -/
def plentyHeap : WinHeap := ⟨4096, fun _ => true, fun _ _ => 0, Nat.succ_pos 4095⟩

def someMachine : SID8 := mkSid 5 [21, 1, 2, 3, 1000] (by simp)

/-- A list with an entry for the user and one for the group. -/
def ownedBy (user group : Sid) : List Ace :=
  [⟨accessAllowedAceType, 0, writeDac, user, []⟩,
    ⟨accessAllowedAceType, 0, deleteAccess, group, []⟩]

def fileOf (user group : Sid) : SecurityDescriptor :=
  ⟨user, group, some (some (ownedBy user group))⟩

def noVattr : WinVattr := ⟨⟨.vreg, 0, 0, 0, 0⟩, fun _ => 0⟩

theorem chown_iff_someMachine :
    Chowned someMachine sidSystem sidAdmins (fileOf sidAdmins.toSid sidSystem.toSid)
      ⟨accessAllowedAceType, 0, writeDac, sidAdmins.toSid, []⟩
      ⟨accessAllowedAceType, 0, deleteAccess, sidSystem.toSid, []⟩
      (vfsAclChown plentyHeap (fun _ => true) someMachine sidSystem sidAdmins
        (fileOf sidAdmins.toSid sidSystem.toSid) (fileOf sidAdmins.toSid sidSystem.toSid))
      noVattr :=
  (chown_iff plentyHeap (fun _ => true) someMachine sidSystem sidAdmins
    (show (fileOf sidAdmins.toSid sidSystem.toSid).dacl = some (some _) from rfl) (by decide)
    (by decide) (by decide) (aclGrows_of_grants plentyHeap (fun _ => rfl) _) _ _).mpr
    ⟨fun _ _ => rfl, fun h => absurd h (by decide), fun h => absurd h (by decide)⟩

/-- A capability, which has ten subauthorities. -/
def capability : Sid :=
  ⟨1, #v[0, 0, 0, 0, 0, 15], [3, 1024, 1, 2, 3, 4, 5, 6, 7, 8], by decide⟩

/-- A capability that is the user is not read after another group was set. -/
theorem capability_not_chowned :
    aclTyped (ownedBy capability sidSystem.toSid) =
      [(.entry .user, ⟨accessAllowedAceType, 0, writeDac, capability, []⟩),
        (.entry .group, ⟨accessAllowedAceType, 0, deleteAccess, sidSystem.toSid, []⟩)] ∧
    aclBytes (chownEntries someMachine (sidNone someMachine) sidAdmins
      (ownedBy capability sidSystem.toSid)) < 2 ^ 16 ∧
    (∀ ulSize, plentyHeap.grants ulSize = true) ∧
    ¬ Chowned someMachine (sidNone someMachine) sidAdmins (fileOf capability sidSystem.toSid)
      ⟨accessAllowedAceType, 0, writeDac, capability, []⟩
      ⟨accessAllowedAceType, 0, deleteAccess, sidSystem.toSid, []⟩
      (vfsAclChown plentyHeap (fun _ => true) someMachine (sidNone someMachine) sidAdmins
        (fileOf capability sidSystem.toSid) (fileOf capability sidSystem.toSid)) noVattr := by
  have hsize : aclBytes (chownEntries someMachine (sidNone someMachine) sidAdmins
      (ownedBy capability sidSystem.toSid)) < 2 ^ 16 := by decide
  refine ⟨by decide, hsize, fun _ => rfl, fun h => ?_⟩
  have hdone := (vfsAclChown_complete plentyHeap (fun _ => true) someMachine
    (sidNone someMachine) sidAdmins (show (fileOf capability sidSystem.toSid).dacl =
      some (some _) from rfl) hsize (aclGrows_of_grants plentyHeap (fun _ => rfl) _)
    (fileOf capability sidSystem.toSid)).2 fun _ _ => rfl
  have hsd : (vfsAclChown plentyHeap (fun _ => true) someMachine (sidNone someMachine) sidAdmins
      (fileOf capability sidSystem.toSid) (fileOf capability sidSystem.toSid)).2 =
      ⟨capability, sidSystem.toSid, some (some (chownEntries someMachine (sidNone someMachine)
        sidAdmins (ownedBy capability sidSystem.toSid)))⟩ := by
    rw [← hdone.entries]
    rfl
  have hgroup := h.group
  rw [hsd] at hgroup
  exact absurd hgroup (by decide)

end MinC.Vfs
