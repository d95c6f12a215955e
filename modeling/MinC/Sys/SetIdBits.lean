import MinC.Sys.Stat
import MinC.Vfs.AclInit

/-!
The set-id bits of a mode.

A file is made or changed with a mode, and its owner is who the bits of the mode
stand for, or else the caller. So a caller who is one of those the bits stand for
makes files that have the bits. And the user and the group that are reported are
changed by a change of mode, where the list of the file does not name them.
-/

namespace MinC.Sys

open MinC.Lib MinC.Win MinC.Vfs

/-- What all callers read a file into: a cleared result, and what is behind it. -/
def clearedVattr (behind : Memory) : WinVattr :=
  ⟨⟨.vnon, 0, 0, 0, 0⟩, fun b => if b < 2 * sid8Size then 0 else behind b⟩

/-- The bits that are read of a file are those of a mode. -/
structure SetIdsRead (behind : Memory) (sd : SecurityDescriptor) (m : UInt32) : Prop where
  uid : flagSet (vfsAclStat sd (clearedVattr behind)).mode.special winSIsuid = flagSet m sIsuid
  gid : flagSet (vfsAclStat sd (clearedVattr behind)).mode.special winSIsgid = flagSet m sIsgid

/-- The same user and group are read of two files. -/
structure SameWho (behind : Memory) (before after : SecurityDescriptor) : Prop where
  user : SameSid (vfsAclStat before (clearedVattr behind)).sids
    (vfsAclStat after (clearedVattr behind)).sids 0
  group : SameSid (vfsAclStat before (clearedVattr behind)).sids
    (vfsAclStat after (clearedVattr behind)).sids sid8Size

/-- The caller is not one of those the bits stand for, or asks for the bits. -/
structure StandsForNone (owner group : SID8) (m : UInt32) : Prop where
  user : owner = sidAdmins → flagSet m sIsuid = true
  group : group = sidSystem → flagSet m sIsgid = true

/-- Who a change to a mode makes the owner of a file. -/
def ownersOf (owner group : SID8) (m : UInt32) : SecurityDescriptor :=
  ⟨(if flagSet m sIsuid then sidAdmins else owner).toSid,
    (if flagSet m sIsgid then sidSystem else group).toSid, none⟩

/-- The list names who is reported, or the file is owned already by whom it is
going to be owned. -/
structure WhoStays (behind : Memory) (owner group : SID8) (m : UInt32) (sd : SecurityDescriptor) :
    Prop where
  user : (aclSeen (SecurityDescriptor.entries sd)).has .user = true ∨
    sd.owner = (ownersOf owner group m).owner
  group : GroupStays (clearedVattr behind) sd (ownersOf owner group m)

theorem modeWin_special (m : UInt32) :
    flagSet (modeWin m).special winSIsuid = flagSet m sIsuid ∧
      flagSet (modeWin m).special winSIsgid = flagSet m sIsgid := by
  rw [modeWin]
  dsimp only
  cases flagSet m sIsuid <;> cases flagSet m sIsgid <;> cases flagSet m sIstxt <;> decide

theorem vfsAclInit_modeWin {mounts : WinMounts} {mountId : UInt32}
    (hlocal : mounts.Local mountId) (owner group : SID8) (m : UInt32)
    (source : SecurityDescriptor) :
    vfsAclInit mounts mountId owner group (modeWin m).special source = ownersOf owner group m := by
  rw [vfsAclInit_of_local hlocal, initOwner, initGroup, (modeWin_special m).1,
    (modeWin_special m).2, ownersOf]

theorem setIdsRead_iff (behind : Memory) {sd : SecurityDescriptor} {owner group : SID8} {m : UInt32}
    (howner : sd.owner = (ownersOf owner group m).owner)
    (hgroup : sd.group = (ownersOf owner group m).group) :
    SetIdsRead behind sd m ↔ StandsForNone owner group m := by
  have hinit : sd.owner = (initOwner owner (modeWin m).special).toSid := by
    rw [howner, initOwner, (modeWin_special m).1, ownersOf]
  have hinitGroup : sd.group = (initGroup group (modeWin m).special).toSid := by
    rw [hgroup, initGroup, (modeWin_special m).2, ownersOf]
  have hread := setId_iff_of_owner hinit hinitGroup
    (show (clearedVattr behind).mode.special = 0 from rfl)
  rw [(modeWin_special m).1, (modeWin_special m).2] at hread
  exact ⟨fun h => ⟨(hread.mp ⟨h.uid, h.gid⟩).1, (hread.mp ⟨h.uid, h.gid⟩).2⟩,
    fun h => ⟨(hread.mpr ⟨h.user, h.group⟩).1, (hread.mpr ⟨h.user, h.group⟩).2⟩⟩

theorem sameWho_iff (behind : Memory) (source : SecurityDescriptor) (owner group : SID8)
    (m : UInt32) :
    SameWho behind source (vfsAclChmod (modeWin m) source (ownersOf owner group m)) ↔
      WhoStays behind owner group m source := by
  have huser := userSid_kept_iff (modeWin_plain m) source (ownersOf owner group m) rfl
    (clearedVattr behind)
  have hgroup := groupSid_kept_iff (modeWin_plain m) source (ownersOf owner group m) rfl
    (clearedVattr behind)
  exact ⟨fun h => ⟨huser.mp h.user, hgroup.mp h.group⟩,
    fun h => ⟨huser.mpr h.user, hgroup.mpr h.group⟩⟩

/-- On a drive of this machine, a new file has the set-id bits of its mode if the
caller does not stand for other ones. A change of mode needs that too, and leaves
whom the file is reported to belong to if the list names them or the owner stays. -/
theorem setIdBits_iff {mounts : WinMounts} {mountId : UInt32} (hlocal : mounts.Local mountId)
    (owner group : SID8) (m : UInt32) (behind : Memory) :
    (∀ (heap : WinHeap) (takes : UInt8 → Bool) (moves : Nat → Bool) (machine : SID8)
        (answers : CreateAnswers) (made : SecurityDescriptor),
      diskCreateFile mounts mountId owner group heap takes moves machine answers (modeWin m) =
          some made →
        (SetIdsRead behind made m ↔ StandsForNone owner group m)) ∧
    (∀ (reads : Bool) (writes : SecurityDescriptor → Bool) (sd after : SecurityDescriptor),
      diskFchmod mounts mountId owner group reads writes (modeWin m) sd = (true, after) →
        ((SetIdsRead behind after m ∧ SameWho behind sd after) ↔
          StandsForNone owner group m ∧ WhoStays behind owner group m sd)) := by
  refine ⟨fun heap takes moves machine answers made hmade => ?_, fun reads writes sd after h => ?_⟩
  · obtain ⟨source, howner, hgroup⟩ := diskCreateFile_owner mounts mountId owner group hmade
    rw [vfsAclInit_modeWin hlocal] at howner hgroup
    exact setIdsRead_iff behind howner hgroup
  · have hafter := diskFchmod_done mounts mountId owner group h
    rw [vfsAclInit_modeWin hlocal] at hafter
    rw [hafter]
    exact and_congr (setIdsRead_iff behind rfl rfl) (sameWho_iff behind sd owner group m)

def noMounts : WinMounts := fun _ => WinMount.zero

theorem noMounts_local : noMounts.Local 0 := by
  rw [WinMounts.Local]
  decide

/-- A file of the system's, with no list. -/
def bareFile : SecurityDescriptor := ⟨sidSystem.toSid, sidAdmins.toSid, none⟩

theorem bareFile_fits : UserFits (SecurityDescriptor.entries bareFile) := fun _ hmem =>
  absurd hmem List.not_mem_nil

/-- The user who owns a file without a list changes its mode. -/
theorem setIdBits_iff_bareFile :
    SetIdsRead (fun _ => 0) bareFile 0o640 ∧ SameWho (fun _ => 0) bareFile bareFile :=
  ((setIdBits_iff noMounts_local sidSystem sidAdmins 0o640 fun _ => 0).2 true (fun _ => true)
    bareFile bareFile (by rw [diskFchmod, vfsAclInit_modeWin noMounts_local]; rfl)).mpr
    ⟨⟨fun h => absurd h (by decide), fun h => absurd h (by decide)⟩,
      .inr (by decide), (groupStays_of_fits bareFile_fits).mpr (.inr (by decide))⟩

theorem straySubs_length :
    ([3, 1024, 1, 2, 3, 4, 5, 6, 256] : List UInt32).length ≤ 15 := by decide

/-- An identifier whose ninth subauthority says that one is left behind it. -/
def strayUser : Sid :=
  { capability with
    subAuthority := [3, 1024, 1, 2, 3, 4, 5, 6, 256]
    count_le := straySubs_length }

/-- Its list names a user for whom there is no room, and no group. -/
def strayFile : SecurityDescriptor :=
  ⟨sidSystem.toSid, sidSystem.toSid,
    some (some [⟨accessAllowedAceType, 0, writeDac, strayUser, []⟩])⟩

/-- An administrator changes the mode of a file to one without the set-id bits, and
the file sets the user. Anyone who sets the bits of a file without a list gives it
away. And where the user's identifier runs into the group, the group changes behind it. -/
theorem setIdBits_lost :
    (noMounts.Local 0 ∧
      ∃ after, diskFchmod noMounts 0 sidAdmins sidAuthenticated true (fun _ => true)
          (modeWin 0o640) someFile = (true, after) ∧ ¬ SetIdsRead (fun _ => 0) after 0o640) ∧
      (∃ after, diskFchmod noMounts 0 sidSystem sidAdmins true (fun _ => true)
          (modeWin 0o4755) bareFile = (true, after) ∧ ¬ SameWho (fun _ => 0) bareFile after) ∧
      ∃ after, diskFchmod noMounts 0 sidSystem sidAdmins true (fun _ => true)
          (modeWin 0o640) strayFile = (true, after) ∧ ¬ SameWho (fun _ => 0) strayFile after := by
  refine ⟨⟨noMounts_local, _, rfl, fun h => ?_⟩, ⟨_, rfl, fun h => ?_⟩, _, rfl, fun h => ?_⟩
  · exact absurd h.uid (by decide)
  · exact absurd (h.user 8 (by decide) (by decide)) (by decide)
  · exact absurd (h.group 48 (by decide) (by decide)) (by decide)

end MinC.Sys
