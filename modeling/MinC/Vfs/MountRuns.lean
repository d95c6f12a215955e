import MinC.Lib.Runs
import MinC.Vfs.Mount

/-!
Runs of mounts and unmounts.

A mount asks for the volume of one slot, and what it is told stays there whether
it goes on or not. An unmount clears the slot that the lookup of the directory
has come to, whatever is mounted there. So a table is as the calls promise only
where a mount that fails was told what is already in the slot, where a mount
that succeeds has found the slot empty, and where an unmount has come to the
slot of what is mounted on the directory.
-/

namespace MinC.Vfs

open MinC.Lib MinC.Win

/-! ### What the calls do -/

/-- The slot that a device is mounted in. -/
def ownSlot (device : WinDevice) (path : WinNameidata) : UInt32 :=
  if device.fsType = .drive then driveMountId path else 0

/-- The attributes of a directory that a device is mounted on. -/
def mountMark (device : WinDevice) : UInt32 :=
  if device.fsType = .drive then fileClassMount else fileClassRoot

/-- The mount comes to asking for the volume. -/
def Asks (device : WinDevice) (path : WinNameidata) : Prop :=
  path.attribs ≠ noAttribs ∧ path.fileType = .vdir ∧
    ((device.fsType = .drive ∧ flagSet path.attribs fileAttributeSystem = false) ∨
      (device.fsType = .pdo ∧ device.deviceType = devTypeRootDevice))

/-- A slot once the device is mounted in it. -/
def mountedSlot (time : UInt64) (device : WinDevice) (path : WinNameidata) (slot : WinMount) :
    WinMount :=
  if device.fsType = .drive then
    { slot with
      path := path.name
      mountId := driveMountId path
      deviceId := device.deviceId
      deviceType := device.deviceType
      time := time }
  else
    { slot with
      path := path.name
      typeName := ffsName
      mountId := 0
      deviceId := device.deviceId
      deviceType := device.deviceType
      flagsHigh := slot.flagsHigh ||| winMntRootfs
      time := time }

/-- The slot says already what is told about the volume, or that there is none. -/
def WinMount.Tells (slot : WinMount) (name : List UInt16) (info : Option VolumeInfo) : Prop :=
  slot.volume = name ∧
    match info with
    | none => slot.flagsHigh ||| winMntDoomed = slot.flagsHigh
    | some info =>
        slot.label = info.label ∧ slot.serial = info.serial ∧ slot.maxPath = info.maxPath ∧
          slot.flagsLow = info.flags ∧ slot.typeName = info.typeName

section
variable (env : MountEnv)

theorem driveStatVolume_eq_self_iff {drive : List UInt16} {slot : WinMount} :
    (driveStatVolume env drive slot).1 = slot ↔
      slot.Tells (winVolname drive).2 (env.volume (winVolname drive).1) := by
  cases slot
  cases hinfo : env.volume (winVolname drive).1 with
  | none =>
      simp only [driveStatVolume, hinfo, WinMount.Tells, WinMount.mk.injEq]
      tauto
  | some info =>
      simp only [driveStatVolume, hinfo, WinMount.Tells, WinMount.mk.injEq]
      tauto

theorem driveStatVolume_snd (drive : List UInt16) (slot : WinMount) :
    (driveStatVolume env drive slot).2 = (env.volume (winVolname drive).1).isSome := by
  rw [driveStatVolume]
  cases env.volume (winVolname drive).1 <;> rfl

/-- What is common to both kinds of mounts, from the volume on. -/
def mountSlot (mark id : UInt32) (finish : WinMount → WinMount) (mounts : WinMounts)
    (path : WinNameidata) : Except UInt32 Unit × WinMounts :=
  match driveStatVolume env (pathDrive path) (mounts id) with
  | (slot, false) => (.error env.volumeError, Function.update mounts id slot)
  | (slot, true) =>
      if !env.setAttributes path.name mark then
        (.error env.attributesError, Function.update mounts id slot)
      else (.ok (), Function.update mounts id (finish slot))

/-- There is no volume, or the directory cannot be marked, or the device is mounted. -/
theorem mountSlot_cases (mark id : UInt32) (finish : WinMount → WinMount) (mounts : WinMounts)
    (path : WinNameidata) :
    ((env.volume (winVolname (pathDrive path)).1 = none ∨ env.setAttributes path.name mark = false) ∧
      ∃ e, mountSlot env mark id finish mounts path = (.error e,
        Function.update mounts id (driveStatVolume env (pathDrive path) (mounts id)).1)) ∨
      (env.volume (winVolname (pathDrive path)).1 ≠ none ∧
        env.setAttributes path.name mark = true ∧
        mountSlot env mark id finish mounts path = (.ok (), Function.update mounts id
          (finish (driveStatVolume env (pathDrive path) (mounts id)).1))) := by
  have hsome := driveStatVolume_snd env (pathDrive path) (mounts id)
  obtain ⟨⟨slot, told⟩, hstat⟩ : ∃ stat,
      driveStatVolume env (pathDrive path) (mounts id) = stat := ⟨_, rfl⟩
  rw [hstat] at hsome
  rw [mountSlot, hstat]
  cases told with
  | false =>
      refine .inl ⟨.inl ?_, _, rfl⟩
      rwa [eq_comm, Option.isSome_eq_false_iff, Option.isNone_iff_eq_none] at hsome
  | true =>
      have hvolume : env.volume (winVolname (pathDrive path)).1 ≠ none :=
        Option.isSome_iff_ne_none.mp hsome.symm
      cases hmark : env.setAttributes path.name mark with
      | false => exact .inl ⟨.inr rfl, _, rfl⟩
      | true => exact .inr ⟨hvolume, rfl, rfl⟩

/-- A mount that does not come to asking for the volume has failed and done nothing. -/
theorem vfsMount_not_asks {device : WinDevice} {path : WinNameidata} (h : ¬Asks device path)
    (mounts : WinMounts) : ∃ e, vfsMount env device mounts path = (.error e, mounts) := by
  rw [vfsMount]
  split_ifs with hmissing hdir
  · exact ⟨_, rfl⟩
  · exact ⟨_, rfl⟩
  · rw [not_not] at hdir
    cases hfsType : device.fsType with
    | drive =>
        have hsystem : flagSet path.attribs fileAttributeSystem = true := by
          rw [← Bool.not_eq_false]
          exact fun hsystem => h ⟨hmissing, hdir, .inl ⟨hfsType, hsystem⟩⟩
        exact ⟨_, if_pos hsystem⟩
    | pdo =>
        have htype : device.deviceType ≠ devTypeRootDevice := fun htype =>
          h ⟨hmissing, hdir, .inr ⟨hfsType, htype⟩⟩
        exact ⟨_, if_neg htype⟩
    | _ => exact ⟨_, rfl⟩

/-- A mount that does is one of the slot of its device. -/
theorem vfsMount_asks {device : WinDevice} {path : WinNameidata} (h : Asks device path)
    (mounts : WinMounts) :
    vfsMount env device mounts path = mountSlot env (mountMark device) (ownSlot device path)
      (mountedSlot env.time device path) mounts path := by
  obtain ⟨hmissing, hdir, ⟨hfsType, hsystem⟩ | ⟨hfsType, htype⟩⟩ := h
  · rw [vfsMount, if_neg hmissing, if_neg (not_not.mpr hdir), hfsType]
    simp only [driveMount, hsystem, mountMark, ownSlot, mountedSlot, hfsType, if_true, mountSlot]
    rfl
  · rw [vfsMount, if_neg hmissing, if_neg (not_not.mpr hdir), hfsType]
    simp only [pdoMount, htype, if_true, rootMount, mountMark, ownSlot, mountedSlot, hfsType,
      mountSlot]
    rfl

/-- The directory is there and is not mounted on. -/
def PlainDirectory (path : WinNameidata) : Prop :=
  path.attribs ≠ noAttribs ∧ path.fileType = .vdir ∧
    flagSet path.attribs fileAttributeSystem = false

/-- The directory is marked as one that is mounted on, and the mark can be taken off. -/
def Unmarks (path : WinNameidata) : Prop :=
  path.attribs ≠ noAttribs ∧ path.fileType = .vdir ∧
    flagSet path.attribs fileAttributeSystem = true ∧
    env.setAttributes path.name fileAttributePlain = true

/-- An unmount fails, or has nothing to do, or clears the slot. -/
theorem vfsUnmount_cases (mounts : WinMounts) (path : WinNameidata) :
    (¬PlainDirectory path ∧ ¬Unmarks env path ∧
        ∃ e, vfsUnmount env mounts path = (.error e, mounts)) ∨
      (PlainDirectory path ∧ ¬Unmarks env path ∧ vfsUnmount env mounts path = (.ok (), mounts)) ∨
      (¬PlainDirectory path ∧ Unmarks env path ∧ vfsUnmount env mounts path =
        (.ok (), Function.update mounts path.mountId WinMount.zero)) := by
  rw [vfsUnmount]
  split_ifs with hmissing hdir hsystem hmark
  · exact .inl ⟨fun h => h.1 hmissing, fun h => h.1 hmissing, _, rfl⟩
  · exact .inl ⟨fun h => hdir h.2.1, fun h => hdir h.2.1, _, rfl⟩
  · rw [Bool.not_eq_true'] at hsystem
    refine .inr (.inl ⟨⟨hmissing, not_not.mp hdir, hsystem⟩, fun h => ?_, rfl⟩)
    rw [h.2.2.1] at hsystem
    cases hsystem
  · refine .inl ⟨fun h => hsystem (by rw [h.2.2]; rfl), fun h => ?_, _, rfl⟩
    rw [h.2.2.2] at hmark
    cases hmark
  · rw [Bool.not_eq_true', Bool.not_eq_false] at hsystem hmark
    refine .inr (.inr ⟨fun h => ?_, ⟨hmissing, not_not.mp hdir, hsystem, hmark⟩, rfl⟩)
    rw [h.2.2] at hsystem
    cases hsystem

end

/-- The slot that a lookup of the directory comes to once it is mounted on. -/
def foundSlot (device : WinDevice) (path : WinNameidata) : UInt32 :=
  if device.fsType = .drive then driveMountId path else path.mountId

theorem mountMark_spec (device : WinDevice) :
    mountMark device ≠ noAttribs ∧ flagSet (mountMark device) fileAttributeSystem = true := by
  rw [mountMark]
  split_ifs
  · exact ⟨by decide, by decide⟩
  · exact ⟨by decide, by decide⟩

theorem pathGlob_mounted {device : WinDevice} {path : WinNameidata} {fs : WinFs}
    (h : fs.attributes path.name = mountMark device) :
    (pathGlob fs path winNocrossmount).1 =
      { path with attribs := mountMark device, mountId := foundSlot device path } := by
  by_cases hdrive : device.fsType = .drive
  · have hmark : mountMark device = fileClassMount := if_pos hdrive
    have hfound : foundSlot device path = driveMountId path := if_pos hdrive
    have hcross : flagSet winNocrossmount winNocrossmount = true := by decide
    have hmissing : fileClassMount ≠ noAttribs := by decide
    have hinode : fileClassMount ≠ fileClassInode := by decide
    have hclass : fileClass fileClassMount = fileClassMount := by decide
    rw [hmark] at h
    simp only [pathGlob, h, hmark, hfound, hmissing, hinode, hclass, driveLookup, hcross, if_true,
      if_false, driveMountId]
  · have hmark : mountMark device = fileClassRoot := if_neg hdrive
    have hfound : foundSlot device path = path.mountId := if_neg hdrive
    have hmissing : fileClassRoot ≠ noAttribs := by decide
    have hinode : fileClass fileClassRoot ≠ fileClassInode := by decide
    have hclass : fileClass fileClassRoot ≠ fileClassMount := by decide
    rw [hmark] at h
    simp only [pathGlob, h, hmark, hfound, hmissing, hinode, hclass, if_false]

/-- A directory that is mounted on is unmounted, or else it cannot be marked. -/
theorem vfsUnmount_mounted (env : MountEnv) {device : WinDevice} {path : WinNameidata} {fs : WinFs}
    (h : fs.attributes path.name = mountMark device) (hdir : path.fileType = .vdir)
    (mounts : WinMounts) :
    vfsUnmount env mounts (pathGlob fs path winNocrossmount).1 =
      if env.setAttributes path.name fileAttributePlain = true then
        (.ok (), Function.update mounts (foundSlot device path) WinMount.zero)
      else (.error env.attributesError, mounts) := by
  obtain ⟨hmissing, hsystem⟩ := mountMark_spec device
  have hname : ({ path with
      attribs := mountMark device
      mountId := foundSlot device path } : WinNameidata).name = path.name := rfl
  rw [pathGlob_mounted h, vfsUnmount, if_neg hmissing, if_neg (not_not.mpr hdir), hsystem,
    if_neg (by decide), hname]
  cases env.setAttributes path.name fileAttributePlain <;> rfl

/-! ### What the calls promise -/

/-- A mount that fails leaves the table. One that succeeds changes the slot that it says it is
in, and an unmount of the directory that is found then leaves the table as it was before. -/
def MountKeeps (env : MountEnv) (device : WinDevice) (mounts : WinMounts) (path : WinNameidata) :
    Prop :=
  (∀ e, (vfsMount env device mounts path).1 = .error e →
    (vfsMount env device mounts path).2 = mounts) ∧
    ((vfsMount env device mounts path).1 = .ok () →
      ((∃ own, ((vfsMount env device mounts path).2 own).mountId = own ∧
        ∀ id, id ≠ own → (vfsMount env device mounts path).2 id = mounts id) ∧
      ∀ fs env', fs.attributes path.name = mountMark device →
        (vfsUnmount env' (vfsMount env device mounts path).2
          (pathGlob fs path winNocrossmount).1).1 = .ok () →
        (vfsUnmount env' (vfsMount env device mounts path).2
          (pathGlob fs path winNocrossmount).1).2 = mounts))

/-- The slot is of a mount on the directory. -/
def WinMount.On (slot : WinMount) (env : MountEnv) (path : WinNameidata) : Prop :=
  env.directory slot.path = env.directory path.name

/-- An unmount that fails leaves the table, and one that succeeds clears the slots of what is
mounted on the directory, and no other. -/
def UnmountKeeps (env : MountEnv) (mounts : WinMounts) (path : WinNameidata) : Prop :=
  (∀ e, (vfsUnmount env mounts path).1 = .error e → (vfsUnmount env mounts path).2 = mounts) ∧
    ((vfsUnmount env mounts path).1 = .ok () → ∀ id,
      ((mounts id).On env path → (vfsUnmount env mounts path).2 id = WinMount.zero) ∧
        (¬(mounts id).On env path → (vfsUnmount env mounts path).2 id = mounts id))

/-! ### When they keep it -/

/-- A mount that asks for a volume and fails was told what the slot says already; one that does
not fail has found the slot empty, where the lookup of the directory comes to it again. -/
def MountMeets (env : MountEnv) (device : WinDevice) (mounts : WinMounts) (path : WinNameidata) :
    Prop :=
  Asks device path →
    (env.volume (winVolname (pathDrive path)).1 = none ∨
      env.setAttributes path.name (mountMark device) = false →
        (mounts (ownSlot device path)).Tells (winVolname (pathDrive path)).2
          (env.volume (winVolname (pathDrive path)).1)) ∧
    (env.volume (winVolname (pathDrive path)).1 ≠ none →
      env.setAttributes path.name (mountMark device) = true →
        if foundSlot device path = ownSlot device path then
          mounts (ownSlot device path) = WinMount.zero
        else mountedSlot env.time device path (driveStatVolume env (pathDrive path)
            (mounts (ownSlot device path))).1 = mounts (ownSlot device path) ∧
          mounts (foundSlot device path) = WinMount.zero)

/-- Nothing is mounted on a directory without the mark. On one with the mark is what is mounted in
the slot of its index, and nothing else. -/
def UnmountMeets (env : MountEnv) (mounts : WinMounts) (path : WinNameidata) : Prop :=
  (PlainDirectory path → ∀ id, mounts id ≠ WinMount.zero → ¬(mounts id).On env path) ∧
    (Unmarks env path → ∀ id, mounts id ≠ WinMount.zero →
      ((mounts id).On env path ↔ id = path.mountId))

section
variable {env : MountEnv} {device : WinDevice} {mounts : WinMounts} {path : WinNameidata}

theorem unmountKeeps_iff : UnmountKeeps env mounts path ↔ UnmountMeets env mounts path := by
  rw [UnmountKeeps, UnmountMeets]
  rcases vfsUnmount_cases env mounts path with ⟨hplain, hmarked, e, hcall⟩ |
    ⟨hplain, hmarked, hcall⟩ | ⟨hplain, hmarked, hcall⟩
  · rw [hcall]
    exact iff_of_true ⟨fun _ _ => rfl, fun hok => (by cases hok)⟩
      ⟨fun h => absurd h hplain, fun h => absurd h hmarked⟩
  · rw [hcall]
    constructor
    · rintro ⟨-, hcleared⟩
      exact ⟨fun _ id hused hon => hused ((hcleared rfl id).1 hon), fun h => absurd h hmarked⟩
    · rintro ⟨hnone, -⟩
      refine ⟨fun _ he => (by cases he), fun _ id => ⟨fun hon => ?_, fun _ => rfl⟩⟩
      exact by_contra fun hused => hnone hplain id hused hon
  · rw [hcall]
    constructor
    · rintro ⟨-, hcleared⟩
      refine ⟨fun h => absurd h hplain, fun _ id hused => ⟨fun hon => ?_, ?_⟩⟩
      · have hzero := (hcleared rfl id).1 hon
        dsimp only at hzero
        by_contra hother
        rw [Function.update_of_ne hother] at hzero
        exact hused hzero
      · rintro rfl
        by_contra hon
        have hsame := (hcleared rfl path.mountId).2 hon
        dsimp only at hsame
        rw [Function.update_self] at hsame
        exact hused hsame.symm
    · rintro ⟨-, hslot⟩
      refine ⟨fun _ he => (by cases he), fun _ id => ?_⟩
      dsimp only
      by_cases hid : id = path.mountId
      · subst hid
        rw [Function.update_self]
        exact ⟨fun _ => rfl, fun hother => by_contra fun hused =>
          hother ((hslot hmarked _ (Ne.symm hused)).mpr rfl)⟩
      · rw [Function.update_of_ne hid]
        exact ⟨fun hon => by_contra fun hused => hid ((hslot hmarked id hused).mp hon),
          fun _ => rfl⟩

/-- A slot that is written and another that is cleared are as they were. -/
theorem update_update_eq_iff (own found : UInt32) (slot : WinMount) :
    Function.update (Function.update mounts own slot) found WinMount.zero = mounts ↔
      if found = own then mounts own = WinMount.zero
      else slot = mounts own ∧ mounts found = WinMount.zero := by
  split_ifs with h
  · rw [h, Function.update_idem, Function.update_eq_self_iff]
    exact eq_comm
  · constructor
    · intro heq
      have hown := congrFun heq own
      have hfound := congrFun heq found
      rw [Function.update_of_ne (Ne.symm h), Function.update_self] at hown
      rw [Function.update_self] at hfound
      exact ⟨hown, hfound.symm⟩
    · rintro ⟨hslot, hzero⟩
      rw [hslot, Function.update_eq_self, ← hzero, Function.update_eq_self]

/-- A file system in which every name has the attributes. -/
theorem exists_attributes (attribs : UInt32) (name : List UInt16) :
    ∃ fs : WinFs, fs.attributes name = attribs :=
  ⟨{ attributes := fun n => if n = name then attribs else noAttribs
     stat := fun _ _ => none
     read := fun _ _ => []
     shortcut := fun _ => none
     stale := []
     zero_not_mem_read := fun _ _ => List.not_mem_nil
     bounded := ⟨name.length, fun n hn => if_neg (by rintro rfl; exact Nat.lt_irrefl _ hn)⟩ },
    if_pos rfl⟩

theorem mountKeeps_iff : MountKeeps env device mounts path ↔ MountMeets env device mounts path := by
  rw [MountKeeps, MountMeets]
  by_cases hasks : Asks device path
  · rw [vfsMount_asks env hasks]
    rcases mountSlot_cases env (mountMark device) (ownSlot device path)
      (mountedSlot env.time device path) mounts path with ⟨hfails, e, hcall⟩ | ⟨hvolume, hmark, hcall⟩
    · -- the slot keeps what was told
      rw [hcall]
      constructor
      · intro h _
        refine ⟨fun _ => ?_, fun hvolume hmark => ?_⟩
        · rw [← driveStatVolume_eq_self_iff]
          exact Function.update_eq_self_iff.mp (h.1 e rfl)
        · rcases hfails with hnone | hfalse
          · exact absurd hnone hvolume
          · rw [hmark] at hfalse
            cases hfalse
      · intro h
        refine ⟨fun _ _ => ?_, fun hok => (by cases hok)⟩
        have htells := (h hasks).1 hfails
        rw [← driveStatVolume_eq_self_iff] at htells
        exact Function.update_eq_self_iff.mpr htells
    · rw [hcall]
      have hfirst : ¬(env.volume (winVolname (pathDrive path)).1 = none ∨
          env.setAttributes path.name (mountMark device) = false) := by
        rintro (hnone | hfalse)
        · exact hvolume hnone
        · rw [hmark] at hfalse
          cases hfalse
      have hdir : path.fileType = .vdir := hasks.2.1
      constructor
      · intro h _
        refine ⟨fun hfails => absurd hfails hfirst, fun _ _ => ?_⟩
        obtain ⟨fs, hfs⟩ := exists_attributes (mountMark device) path.name
        have hrestores := (h.2 rfl).2 fs { env with setAttributes := fun _ _ => true } hfs
        rw [vfsUnmount_mounted _ hfs hdir, if_pos rfl] at hrestores
        exact (update_update_eq_iff _ _ _).mp (hrestores rfl)
      · intro h
        refine ⟨fun _ he => (by cases he), fun _ => ⟨⟨ownSlot device path, ?_, fun id hid =>
          Function.update_of_ne hid _ _⟩, fun fs env' hfs hok => ?_⟩⟩
        · dsimp only
          rw [Function.update_self, mountedSlot, ownSlot]
          split_ifs <;> rfl
        · rw [vfsUnmount_mounted _ hfs hdir] at hok ⊢
          split_ifs at hok ⊢ with hunmark
          exact (update_update_eq_iff _ _ _).mpr ((h hasks).2 hvolume hmark)
  · obtain ⟨e, hcall⟩ := vfsMount_not_asks env hasks mounts
    rw [hcall]
    exact iff_of_true ⟨fun _ _ => rfl, fun hok => (by cases hok)⟩ fun h => absurd h hasks

end

/-! ### Runs -/

inductive MountCall
  | mount (device : WinDevice) (path : WinNameidata)
  | unmount (path : WinNameidata)

/-- A call with what it finds. -/
structure MountRequest where
  env : MountEnv
  call : MountCall

def stepMounts (mounts : WinMounts) (rq : MountRequest) : WinMounts :=
  match rq.call with
  | .mount device path => (vfsMount rq.env device mounts path).2
  | .unmount path => (vfsUnmount rq.env mounts path).2

def MountRequest.Keeps (mounts : WinMounts) (rq : MountRequest) : Prop :=
  match rq.call with
  | .mount device path => MountKeeps rq.env device mounts path
  | .unmount path => UnmountKeeps rq.env mounts path

def MountRequest.Meets (mounts : WinMounts) (rq : MountRequest) : Prop :=
  match rq.call with
  | .mount device path => MountMeets rq.env device mounts path
  | .unmount path => UnmountMeets rq.env mounts path

/-- In a run from any table, all calls keep what they promise exactly when each of them meets
its condition in the table that it finds. -/
theorem mountRuns_iff (mounts : WinMounts) (rqs : List MountRequest) :
    Along stepMounts MountRequest.Keeps mounts rqs ↔
      Along stepMounts MountRequest.Meets mounts rqs := by
  refine along_congr (fun mounts rq => ?_) mounts rqs
  obtain ⟨env, ⟨device, path⟩ | path⟩ := rq
  · exact mountKeeps_iff
  · exact unmountKeeps_iff

/-- The drive `c` has a volume, and all directories can be marked. -/
def oneVolume : MountEnv where
  volume := fun name => if name = some [99, 58, 92] ∨ name = some [67, 58, 92] then
    some ⟨[65], 7, 255, 0, [78, 84, 70, 83]⟩ else none
  setAttributes := fun _ _ => true
  directory := id
  time := 1
  lookupError := errorFileNotFound
  volumeError := errorNotReady
  attributesError := errorFileNotFound

def driveDevice : WinDevice := ⟨.vblk, 0x0320, 0x0320, .drive, 0, 0, 0, 0, 0⟩

/-- A directory in the root, of which a lookup has come to the slot 3. -/
def rootDirectory (name : List UInt16) (attribs : UInt32) : WinNameidata :=
  { WinNameidata.zero with
    mountId := 3
    resolved := 92 :: name
    base := 1
    attribs := attribs
    fileType := .vdir }

/-- The table once `c` is mounted. -/
def mountedC : WinMounts :=
  (vfsMount oneVolume driveDevice (fun _ => WinMount.zero) (rootDirectory [99] 0x10)).2

/-- With `c` mounted, a mount on `cdrom` fails and marks the slot of `c` as one without a volume;
one on `C` succeeds, and the unmount that follows clears the slot; and an unmount of a directory
that the system has marked, and nothing is mounted on, succeeds and clears the slot of `c`. -/
theorem mounted_not_kept :
    (vfsMount oneVolume driveDevice mountedC (rootDirectory [99, 100, 114, 111, 109] 0x10)).1 =
        .error errorNotReady ∧
      ¬MountKeeps oneVolume driveDevice mountedC (rootDirectory [99, 100, 114, 111, 109] 0x10) ∧
      ¬MountKeeps oneVolume driveDevice mountedC (rootDirectory [67] 0x10) ∧
      ¬UnmountKeeps oneVolume mountedC (rootDirectory [120] fileClassRoot) ∧
      ¬Along stepMounts MountRequest.Keeps (fun _ => WinMount.zero)
        [⟨oneVolume, .mount driveDevice (rootDirectory [99] 0x10)⟩,
          ⟨oneVolume, .mount driveDevice (rootDirectory [99, 100, 114, 111, 109] 0x10)⟩] := by
  have hcdrom : ¬MountKeeps oneVolume driveDevice mountedC
      (rootDirectory [99, 100, 114, 111, 109] 0x10) := by
    intro h
    have hslot := congrFun (h.1 errorNotReady rfl) 3
    exact absurd hslot (by decide)
  refine ⟨rfl, hcdrom, ?_, ?_, fun h => hcdrom h.2.1⟩
  · intro h
    obtain ⟨fs, hfs⟩ := exists_attributes (mountMark driveDevice) (rootDirectory [67] 0x10).name
    have hslot := (h.2 rfl).2 fs oneVolume hfs
    have hmark : oneVolume.setAttributes (rootDirectory [67] 0x10).name fileAttributePlain = true :=
      rfl
    rw [vfsUnmount_mounted oneVolume hfs rfl, if_pos hmark] at hslot
    exact absurd (congrFun (hslot rfl) 3) (by decide)
  · intro h
    have hother : ¬(mountedC 3).On oneVolume (rootDirectory [120] fileClassRoot) :=
      (by decide : (mountedC 3).path ≠ (rootDirectory [120] fileClassRoot).name)
    exact absurd ((h.2 rfl 3).2 hother) (by decide)

end MinC.Vfs
