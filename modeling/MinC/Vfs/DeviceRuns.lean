import MinC.Lib.Runs
import MinC.Vfs.DeviceNames

/-!
Runs of calls that match and attach devices.

A call goes well when it has a name to match, and one that its array has room
for; when, should a slot of the class
have the name, the search comes to that slot and to no unused one before it,
and, should none have it, the search comes to an unused slot; and when the name
that a device would get there is new. A run of such calls tells each name one
number and no two names the same, and keeps what it has configured.
-/

namespace MinC.Vfs

open MinC.Lib

/-! ### Places -/

section
variable {deviceType : UInt32}

/-- The class of a type is one of the table's. -/
def OnClass (deviceType : UInt32) : Prop := deviceType.toNat / 256 < devClassMax

instance decidableOnClass (deviceType : UInt32) : Decidable (OnClass deviceType) :=
  inferInstanceAs (Decidable (_ < _))

theorem deviceUnit_eq (deviceType : UInt32) : deviceUnit deviceType = deviceType.toNat % 256 := by
  rw [deviceUnit, UInt32.toNat_and]
  exact Nat.and_two_pow_sub_one_eq_mod _ 8

theorem deviceIndex_eq (deviceType : UInt32) :
    deviceIndex deviceType = deviceType.toNat / 256 * winUnitMax + deviceUnit deviceType := by
  rw [deviceIndex, deviceUnit, UInt32.toNat_shiftRight, Nat.shiftRight_eq_div_pow]
  rfl

theorem deviceClass_toNat (h : OnClass deviceType) :
    (deviceClass deviceType).toNat = deviceType.toNat / 256 * 256 := by
  rw [deviceClass, u32_and_second_byte, Nat.mod_eq_of_lt]
  exact Nat.lt_of_lt_of_le h (by decide)

/-- The slot that the search comes to in a number of steps. -/
structure SearchedSlot (deviceType : UInt32) (n : Nat) : Prop where
  class_eq : (deviceIndex deviceType + n) / winUnitMax = deviceType.toNat / 256
  rid_eq : deviceRid (deviceIndex deviceType + n) = deviceType + UInt32.ofNat n
  id_eq : deviceClass deviceType + UInt32.ofNat (deviceUnit deviceType + n) =
    deviceRid (deviceIndex deviceType + n)
  lt_max : n < winUnitMax

theorem searchedSlot (h : OnClass deviceType) {n : Nat}
    (hn : n < winUnitMax - deviceUnit deviceType) : SearchedSlot deviceType n := by
  have hclass := h
  have hunit := deviceUnit_eq deviceType
  have hindex := deviceIndex_eq deviceType
  have htoNat := deviceClass_toNat h
  rw [OnClass, devClassMax] at hclass
  rw [winUnitMax] at hn hindex
  have hdiv : (deviceIndex deviceType + n) / 80 = deviceType.toNat / 256 := by omega
  have hmod : (deviceIndex deviceType + n) % 80 = deviceUnit deviceType + n := by omega
  have hrid : deviceRid (deviceIndex deviceType + n) = deviceType + UInt32.ofNat n := by
    rw [deviceRid, winUnitMax, hdiv, hmod]
    refine UInt32.toNat_inj.mp ?_
    rw [UInt32.toNat_add, UInt32.toNat_ofNat', UInt32.toNat_ofNat']
    omega
  refine ⟨hdiv, hrid, ?_, ?_⟩
  · rw [hrid]
    refine UInt32.toNat_inj.mp ?_
    rw [UInt32.toNat_add, UInt32.toNat_add, UInt32.toNat_ofNat', UInt32.toNat_ofNat', htoNat]
    omega
  · rw [winUnitMax]
    omega

/-- A slot of the class that is not below that of the type is one the search comes to. -/
theorem exists_steps {i : Nat} (hlow : deviceIndex deviceType ≤ i)
    (hclass : i / winUnitMax = deviceType.toNat / 256) :
    ∃ n < winUnitMax - deviceUnit deviceType, i = deviceIndex deviceType + n := by
  have hindex := deviceIndex_eq deviceType
  rw [winUnitMax] at hclass hindex ⊢
  exact ⟨i - deviceIndex deviceType, by omega, by omega⟩

/-- The slots that the search passes are of the class. -/
theorem class_of_passed {n j : Nat} (hn : n < winUnitMax - deviceUnit deviceType)
    (hlow : deviceIndex deviceType ≤ j) (hj : j < deviceIndex deviceType + n) :
    j / winUnitMax = deviceType.toNat / 256 := by
  have hindex := deviceIndex_eq deviceType
  rw [winUnitMax] at *
  omega

theorem probe_eq {stops : NamedDevice → Bool} {s : DeviceTable} {n : Nat}
    (hn : n < winUnitMax - deviceUnit deviceType)
    (hstops : stops (s.devices (deviceIndex deviceType + n)) = true)
    (hpasses : ∀ j, deviceIndex deviceType ≤ j → j < deviceIndex deviceType + n →
      stops (s.devices j) = false) : probe stops deviceType s = some n :=
  firstFree_of_lowest ⟨Nat.zero_le n, by omega, hstops, fun m _ hm =>
    hpasses _ (Nat.le_add_right _ _) (Nat.add_lt_add_left hm _)⟩

theorem deviceRid_toNat {i : Nat} (h : i / winUnitMax < devClassMax) :
    (deviceRid i).toNat = i / winUnitMax * 256 + i % winUnitMax := by
  rw [deviceRid, UInt32.toNat_ofNat']
  rw [winUnitMax, devClassMax] at *
  omega

theorem deviceRid_inj {i j : Nat} (hi : i / winUnitMax < devClassMax)
    (hj : j / winUnitMax < devClassMax) : deviceRid i = deviceRid j ↔ i = j := by
  refine ⟨fun h => ?_, fun h => by rw [h]⟩
  have htoNat := congrArg UInt32.toNat h
  rw [deviceRid_toNat hi, deviceRid_toNat hj] at htoNat
  rw [winUnitMax] at htoNat
  omega

end

/-! ### When a call goes well -/

/-- The first slot that is not in use, of those of the class from that of the type on. -/
def NextUnused (devices : Nat → NamedDevice) (deviceType : UInt32) (i : Nat) : Prop :=
  LowestFree (fun j => (devices j).flags == 0) (deviceIndex deviceType)
    ((deviceType.toNat / 256 + 1) * winUnitMax) i

/-- There is an unused slot, and the name is new that a device gets in the first. -/
def HasRoom (devices : Nat → NamedDevice) (deviceType : UInt32) : Prop :=
  ∃ i, NextUnused devices deviceType i ∧ NewName devices deviceType i

/-- A slot of the class has the name. -/
def HasNtName (devices : Nat → NamedDevice) (deviceType : UInt32) (ntName : List UInt16)
    (i : Nat) : Prop :=
  i / winUnitMax = deviceType.toNat / 256 ∧ (devices i).ntName = ntName

/-- The search comes to the slot, and to no unused one before it. -/
def SearchReaches (devices : Nat → NamedDevice) (deviceType : UInt32) (i : Nat) : Prop :=
  deviceIndex deviceType ≤ i ∧
    ∀ j < i, deviceIndex deviceType ≤ j → (devices j).flags ≠ 0

instance decidableSearchReaches (devices : Nat → NamedDevice) (deviceType : UInt32) (i : Nat) :
    Decidable (SearchReaches devices deviceType i) :=
  inferInstanceAs (Decidable (_ ∧ _))

structure MatchMeets (devices : Nat → NamedDevice) (ntName : List UInt16) (deviceType : UInt32) :
    Prop where
  ntName_ne : ntName ≠ []
  ntName_lt : ntName.length < maxName
  reached : ∀ i, HasNtName devices deviceType ntName i → SearchReaches devices deviceType i
  hasRoom : (∀ i, ¬HasNtName devices deviceType ntName i) → HasRoom devices deviceType

/-- The slots of a class are those of its units. -/
theorem forall_class (P : Nat → Prop) (sClass : Nat) :
    (∀ unit < winUnitMax, P (sClass * winUnitMax + unit)) ↔
      ∀ i, i / winUnitMax = sClass → P i := by
  constructor
  · intro h i hi
    have hunit := h (i % winUnitMax) (Nat.mod_lt _ (by decide))
    rwa [← hi, Nat.div_add_mod'] at hunit
  · intro h unit hunit
    refine h _ ?_
    rw [winUnitMax] at *
    omega

/-- The device has the letters, at the distance. -/
def AtDistance (device : NamedDevice) (name : List UInt8) (distance : UInt32) : Prop :=
  device.Configured ∧ devicePrefix device.deviceType = some name ∧
    device.deviceId - device.deviceType = distance

instance decidableAtDistance (device : NamedDevice) (name : List UInt8) (distance : UInt32) :
    Decidable (AtDistance device name distance) :=
  inferInstanceAs (Decidable (_ ∧ _ ∧ _))

theorem newName_iff {devices : Nat → NamedDevice} {deviceType : UInt32} {i : Nat} :
    (∀ name ∈ devicePrefix deviceType, ∀ unit < winUnitMax,
      ¬AtDistance (devices (i / winUnitMax * winUnitMax + unit)) name
        (deviceRid i - deviceType)) ↔ NewName devices deviceType i := by
  refine forall₂_congr fun name _ => ?_
  rw [forall_class (fun j => ¬AtDistance (devices j) name (deviceRid i - deviceType))]
  refine forall₂_congr fun j _ => ?_
  rw [AtDistance, not_and, not_and]

instance decidableNewName (devices : Nat → NamedDevice) (deviceType : UInt32) (i : Nat) :
    Decidable (NewName devices deviceType i) :=
  decidable_of_iff _ newName_iff

theorem hasRoom_iff {devices : Nat → NamedDevice} {deviceType : UInt32} :
    (∃ i ∈ firstFree (fun j => (devices j).flags == 0)
        ((deviceType.toNat / 256 + 1) * winUnitMax - deviceIndex deviceType)
        (deviceIndex deviceType), NewName devices deviceType i) ↔ HasRoom devices deviceType := by
  refine exists_congr fun i => and_congr_left fun _ => ⟨fun hfree => ?_, fun hnext => ?_⟩
  · have hlow := firstFree_some hfree
    have hlt := hlow.lt_high
    have hle := hlow.low_le
    exact ⟨hle, by omega, hlow.isFree, hlow.least⟩
  · have hlt := hnext.lt_high
    have hle := hnext.low_le
    exact firstFree_of_lowest ⟨hle, by omega, hnext.isFree, hnext.least⟩

instance decidableHasRoom (devices : Nat → NamedDevice) (deviceType : UInt32) :
    Decidable (HasRoom devices deviceType) :=
  decidable_of_iff _ hasRoom_iff

theorem matchMeets_iff {devices : Nat → NamedDevice} {ntName : List UInt16}
    {deviceType : UInt32} :
    (ntName ≠ [] ∧ ntName.length < maxName ∧
      (∀ unit < winUnitMax,
        (devices (deviceType.toNat / 256 * winUnitMax + unit)).ntName = ntName →
          SearchReaches devices deviceType (deviceType.toNat / 256 * winUnitMax + unit)) ∧
      ((∀ unit < winUnitMax,
        (devices (deviceType.toNat / 256 * winUnitMax + unit)).ntName ≠ ntName) →
          HasRoom devices deviceType)) ↔ MatchMeets devices ntName deviceType := by
  rw [forall_class (fun i => (devices i).ntName = ntName → SearchReaches devices deviceType i),
    forall_class (fun i => (devices i).ntName ≠ ntName)]
  constructor
  · rintro ⟨hne, hlt, hreached, hroom⟩
    exact ⟨hne, hlt, fun i hi => hreached i hi.1 hi.2,
      fun hnone => hroom fun i hi heq => hnone i ⟨hi, heq⟩⟩
  · rintro ⟨hne, hlt, hreached, hroom⟩
    exact ⟨hne, hlt, fun i hi heq => hreached i ⟨hi, heq⟩,
      fun hnone => hroom fun i hi => hnone i hi.1 hi.2⟩

instance decidableMatchMeets (devices : Nat → NamedDevice) (ntName : List UInt16)
    (deviceType : UInt32) : Decidable (MatchMeets devices ntName deviceType) :=
  decidable_of_iff _ matchMeets_iff

section
variable {s : DeviceTable} {deviceType : UInt32} {ntName : List UInt16}

theorem NextUnused.steps {i : Nat} (h : NextUnused s.devices deviceType i) :
    i / winUnitMax = deviceType.toNat / 256 ∧
      ∃ n < winUnitMax - deviceUnit deviceType, i = deviceIndex deviceType + n := by
  have hlow := h.low_le
  have hhigh := h.lt_high
  have hindex := deviceIndex_eq deviceType
  have hclass : i / winUnitMax = deviceType.toNat / 256 := by
    rw [winUnitMax] at *
    omega
  exact ⟨hclass, exists_steps hlow hclass⟩

/-- An unused slot that was filled may be attached. -/
theorem placed_update {n : Nat} (hn : SearchedSlot deviceType n) {device : NamedDevice}
    (htype : device.deviceType = deviceType)
    (hid : device.deviceId = deviceRid (deviceIndex deviceType + n))
    (hflags : ¬device.Configured) :
    Placed (Function.update s.devices (deviceIndex deviceType + n) device)
      (deviceIndex deviceType + n) (deviceClass deviceType) := by
  refine ⟨?_, ?_, ⟨n, hn.lt_max, ?_⟩, ?_⟩
  all_goals rw [Function.update_self]
  · exact hid
  · rw [htype]
  · rw [htype]
    exact hn.rid_eq
  · exact hflags

theorem NewName.update {devices : Nat → NamedDevice} {i : Nat}
    (h : NewName devices deviceType i) {device : NamedDevice} (hflags : ¬device.Configured) :
    NewName (Function.update devices i device) deviceType i := by
  intro name hname j hj hconfigured hprefix
  by_cases hji : j = i
  · rw [hji, Function.update_self] at hconfigured
    exact absurd hconfigured hflags
  · rw [Function.update_of_ne hji] at hconfigured hprefix ⊢
    exact h name hname j hj hconfigured hprefix

/-- A device that was changed in what the table does not know it by. -/
structure SameNames (device device' : NamedDevice) : Prop where
  flags : device'.flags = device.flags
  deviceType : device'.deviceType = device.deviceType
  deviceId : device'.deviceId = device.deviceId
  name : device'.name = device.name
  ntName : device'.ntName = device.ntName

theorem SameNames.keeps {devices : Nat → NamedDevice} (h : DevicesSound devices) {i : Nat}
    {device : NamedDevice} (hsame : SameNames (devices i) device) :
    KeepsNames devices (Function.update devices i device) := by
  have hconfigured : device.Configured ↔ (devices i).Configured := by
    rw [NamedDevice.Configured, NamedDevice.Configured, hsame.flags]
  refine (h.update (fun hflags => ?_) (fun hflags => ?_) (fun hc => ?_) (fun hne j hji => ?_)
    (fun hc j hji hj => ?_)).keeps_update (fun _ => hsame.ntName)
      fun hc => ⟨hconfigured.mpr hc, hsame.name⟩
  · rw [hsame.flags] at hflags
    rw [hsame.deviceId]
    exact h.ids i hflags
  · rw [hsame.flags] at hflags
    rw [hsame.ntName]
    exact h.unused i hflags
  · rcases h.called i (hconfigured.mp hc) with ⟨name, n, hcalled⟩ | hfixed
    · refine .inl ⟨name, n, hcalled.lt_max, ?_, ?_, ?_⟩
      · rw [hsame.deviceType]
        exact hcalled.devicePrefix
      · rw [hsame.deviceId, hsame.deviceType]
        exact hcalled.deviceId
      · rw [hsame.name]
        exact hcalled.name
    · rw [← hsame.name] at hfixed
      exact .inr hfixed
  · rw [hsame.ntName] at hne ⊢
    exact h.ntKey_ne hne j hji
  · rw [hsame.name] at hj
    exact hji (h.names j i _ hj (nameKey_eq_some.mpr ⟨hconfigured.mp hc, rfl⟩))

/-! ### Calls -/

/-- What the two arms of a function that matches do, with a name that fits. -/
structure MatchArms (found : NamedDevice → NamedDevice)
    (fill : UInt32 → NamedDevice → NamedDevice) (ntName : List UInt16) (deviceType : UInt32) :
    Prop where
  found : ∀ device, SameNames device (found device)
  flags : ∀ deviceId device, (fill deviceId device).flags ≠ 0
  unconfigured : ∀ deviceId device, ¬(fill deviceId device).Configured
  deviceType : ∀ deviceId device, (fill deviceId device).deviceType = deviceType
  deviceId : ∀ deviceId device, (fill deviceId device).deviceId = deviceId
  ntName : ∀ deviceId device, (fill deviceId device).ntName = ntName

variable {found : NamedDevice → NamedDevice} {fill : UInt32 → NamedDevice → NamedDevice}

/-- Filling an unused slot and attaching its device keeps the names there are. -/
theorem attach_keeps (h : DevicesSound s.devices) {n : Nat} (hn : SearchedSlot deviceType n)
    (hunused : (s.devices (deviceIndex deviceType + n)).flags = 0)
    (hnew : NewName s.devices deviceType (deviceIndex deviceType + n)) {device : NamedDevice}
    (htype : device.deviceType = deviceType)
    (hid : device.deviceId = deviceRid (deviceIndex deviceType + n))
    (hflags : ¬device.Configured) (hempty : device.flags = 0 → device.ntName = [])
    (hnt : device.ntName ≠ [] → ∀ j, j ≠ deviceIndex deviceType + n →
      ntKey s.devices j ≠ some ((deviceIndex deviceType + n) / winUnitMax, device.ntName)) :
    let r := configAttach (deviceIndex deviceType + n) (deviceClass deviceType)
      (s.setDevice (deviceIndex deviceType + n) device)
    KeepsNames s.devices r.2.devices ∧
      (r.2.devices (deviceIndex deviceType + n)).deviceId =
        deviceRid (deviceIndex deviceType + n) ∧
      (r.2.devices (deviceIndex deviceType + n)).ntName = device.ntName := by
  have hfilled : KeepsNames s.devices
      (Function.update s.devices (deviceIndex deviceType + n) device) :=
    (h.update (fun _ => hid) hempty (fun hc => absurd hc hflags) hnt
      fun hc => absurd hc hflags).keeps_update
        (fun hne => absurd (h.unused _ hunused) hne)
        fun hc => absurd hc (not_configured_of_unused hunused)
  have hnew' := hnew.update hflags
  have hattached : Attached (deviceIndex deviceType + n) (deviceClass deviceType)
      (s.setDevice (deviceIndex deviceType + n) device) _ := configAttach_attached
  have hkeeps := hattached.keeps hfilled.sound (placed_update hn htype hid hflags)
    (by rw [DeviceTable.setDevice_devices, Function.update_self, htype]; exact hnew')
  rw [DeviceTable.setDevice_devices, Function.update_self] at hkeeps
  exact ⟨hfilled.trans hkeeps.1, hkeeps.2⟩

/-- The call is told the number of the slot that has the name from then on. -/
structure MatchKeeps (s : DeviceTable) (ntName : List UInt16) (deviceType : UInt32)
    (r : Bool × WinCfdriver × DeviceTable) : Prop where
  keeps : KeepsNames s.devices r.2.2.devices
  told : ∃ i, ntKey r.2.2.devices i = some (deviceType.toNat / 256, ntName) ∧
    r.2.1.deviceId = deviceRid i

theorem matchDevice_found (h : DevicesSound s.devices)
    (harms : MatchArms found fill ntName deviceType)
    (hmeets : MatchMeets s.devices ntName deviceType) (driver : WinCfdriver) {i : Nat}
    (hi : HasNtName s.devices deviceType ntName i) :
    ∃ r, matchDevice found fill ntName deviceType driver s = some r ∧
      MatchKeeps s ntName deviceType r := by
  obtain ⟨hlow, hused⟩ := hmeets.reached i hi
  obtain ⟨n, hn, rfl⟩ := exists_steps hlow hi.1
  have hkey : ∀ j, HasNtName s.devices deviceType ntName j →
      ntKey s.devices j = some (deviceType.toNat / 256, ntName) := fun j hj =>
    ntKey_eq_some.mpr ⟨by rw [hj.2]; exact hmeets.ntName_ne, by rw [hj.1, hj.2]⟩
  have hprobe : probe (fun device => device.ntName == ntName || device.flags == 0) deviceType s =
      some n := by
    refine probe_eq hn (by simp [hi.2]) fun j hj hjn => ?_
    have hother : (s.devices j).ntName ≠ ntName := fun heq => by
      have hsame := h.ntNames _ _ _ (hkey _ hi) (hkey j ⟨class_of_passed hn hj hjn, heq⟩)
      omega
    simp [hother, hused j hjn hj]
  have hkeeps := (harms.found (s.devices (deviceIndex deviceType + n))).keeps h
  have hflags : (s.devices (deviceIndex deviceType + n)).flags ≠ 0 := fun hzero =>
    hmeets.ntName_ne (hi.2.symm.trans (h.unused _ hzero))
  rw [matchDevice, hprobe]
  dsimp only
  rw [if_pos hi.2]
  refine ⟨_, rfl, hkeeps, deviceIndex deviceType + n, hkeeps.ntNames _ _ (hkey _ hi), ?_⟩
  rw [WinCfdriver.tell, DeviceTable.setDevice_devices, Function.update_self,
    (harms.found _).deviceId]
  exact h.ids _ hflags

theorem matchDevice_fills (h : DevicesSound s.devices) (hclass : OnClass deviceType)
    (harms : MatchArms found fill ntName deviceType)
    (hmeets : MatchMeets s.devices ntName deviceType) (driver : WinCfdriver)
    (hnone : ∀ i, ¬HasNtName s.devices deviceType ntName i) :
    ∃ r, matchDevice found fill ntName deviceType driver s = some r ∧
      MatchKeeps s ntName deviceType r := by
  obtain ⟨i, hnext, hnew⟩ := hmeets.hasRoom hnone
  obtain ⟨hi, n, hn, rfl⟩ := hnext.steps
  have hslot := searchedSlot hclass hn
  have hunused : (s.devices (deviceIndex deviceType + n)).flags = 0 := by
    simpa using hnext.isFree
  -- the search passes the used slots, and stops at the first that is free
  have hprobe : probe (fun device => device.ntName == ntName || device.flags == 0) deviceType s =
      some n := by
    refine probe_eq hn (by simp [hunused]) fun j hj hjn => ?_
    have hother : (s.devices j).ntName ≠ ntName := fun heq =>
      hnone j ⟨class_of_passed hn hj hjn, heq⟩
    have hused : (s.devices j).flags ≠ 0 := by simpa using hnext.least j hj hjn
    simp [hother, hused]
  have hother : (s.devices (deviceIndex deviceType + n)).ntName ≠ ntName := fun heq =>
    hnone _ ⟨hi, heq⟩
  rw [matchDevice, hprobe]
  dsimp only
  have hfits : ntName.length < deviceTextMax := Nat.lt_of_lt_of_le hmeets.ntName_lt (by decide)
  rw [if_neg hother, if_pos hfits, hslot.id_eq]
  obtain ⟨hkeeps, hid, hnt⟩ := attach_keeps h hslot hunused hnew (harms.deviceType _ _)
    (harms.deviceId _ _) (harms.unconfigured _ (s.devices (deviceIndex deviceType + n)))
    (fun hzero => absurd hzero (harms.flags _ _)) fun _ j _ hj => by
      obtain ⟨-, hkey⟩ := ntKey_eq_some.mp hj
      rw [harms.ntName, hi] at hkey
      exact hnone j ⟨(Prod.mk.inj hkey).1.symm, (Prod.mk.inj hkey).2.symm⟩
  rw [harms.ntName] at hnt
  exact ⟨_, rfl, hkeeps, _,
    ntKey_eq_some.mpr ⟨by rw [hnt]; exact hmeets.ntName_ne, by rw [hi, hnt]⟩, hid⟩

theorem matchDevice_keeps (h : DevicesSound s.devices) (hclass : OnClass deviceType)
    (harms : MatchArms found fill ntName deviceType)
    (hmeets : MatchMeets s.devices ntName deviceType) (driver : WinCfdriver) :
    ∃ r, matchDevice found fill ntName deviceType driver s = some r ∧
      MatchKeeps s ntName deviceType r := by
  by_cases hhas : ∃ i, HasNtName s.devices deviceType ntName i
  · obtain ⟨i, hi⟩ := hhas
    exact matchDevice_found h harms hmeets driver hi
  · exact matchDevice_fills h hclass harms hmeets driver fun i hi => hhas ⟨i, hi⟩

theorem storedName_of_lt (hfits : ntName.length < maxName) (classId : List UInt16) :
    storedName ntName classId = ntName := if_pos hfits

theorem pdoMatch_arms (hfits : ntName.length < maxName) (deviceType : UInt32)
    (driver : WinCfdriver) :
    MatchArms id (pdoFill ntName deviceType driver) ntName deviceType where
  found := fun _ => ⟨rfl, rfl, rfl, rfl, rfl⟩
  flags := fun _ _ => (by decide : winDvfPdoReady ≠ 0)
  unconfigured := fun _ _ => (by decide : ¬winDvfPdoReady &&& winDvfConfigReady ≠ 0)
  deviceType := fun _ _ => rfl
  deviceId := fun _ _ => rfl
  ntName := fun _ _ => storedName_of_lt hfits driver.classId

theorem driveMatch_arms (hfits : ntName.length < maxName) (deviceType : UInt32)
    (driver : WinCfdriver) :
    MatchArms (fun device => { device with ntPath := driver.ntPath })
      (driveFill ntName deviceType driver) ntName deviceType where
  found := fun _ => ⟨rfl, rfl, rfl, rfl, rfl⟩
  flags := fun _ _ => (by decide : winDvfDriveReady ≠ 0)
  unconfigured := fun _ _ => (by decide : ¬winDvfDriveReady &&& winDvfConfigReady ≠ 0)
  deviceType := fun _ _ => rfl
  deviceId := fun _ _ => rfl
  ntName := fun _ _ => storedName_of_lt hfits driver.classId

/-- A device that is attached without a name is in the class. -/
theorem pdoAttach_keeps (h : DevicesSound s.devices) (hclass : OnClass deviceType)
    (hmeets : HasRoom s.devices deviceType) :
    KeepsNames s.devices (pdoAttach deviceType s).2.devices ∧
      (pdoAttach deviceType s).1 / winUnitMax = deviceType.toNat / 256 := by
  obtain ⟨i, hnext, hnew⟩ := hmeets
  obtain ⟨hi, n, hn, rfl⟩ := hnext.steps
  have hslot := searchedSlot hclass hn
  have hunused : (s.devices (deviceIndex deviceType + n)).flags = 0 := by
    simpa using hnext.isFree
  have hempty := h.unused _ hunused
  have hprobe : probe (fun device => device.flags == 0) deviceType s = some n :=
    probe_eq hn hnext.isFree hnext.least
  rw [pdoAttach, hprobe]
  dsimp only
  rw [hslot.id_eq]
  refine ⟨(attach_keeps h hslot hunused hnew ?_ ?_ ?_ (fun _ => ?_) fun hne => ?_).1, hi⟩
  · rfl
  · rfl
  · exact not_configured_of_unused hunused
  · exact hempty
  · exact absurd hempty hne

end

/-! ### Runs -/

inductive DeviceCall
  | pdoMatch (ntName : List UInt16) (deviceType : UInt32) (driver : WinCfdriver)
  | driveMatch (ntName : List UInt16) (deviceType : UInt32) (driver : WinCfdriver)
  | pdoAttach (deviceType : UInt32)

def DeviceCall.deviceType : DeviceCall → UInt32
  | .pdoMatch _ deviceType _ => deviceType
  | .driveMatch _ deviceType _ => deviceType
  | .pdoAttach deviceType => deviceType

/-- What was answered: to a match in a class the result and the driver, to an attachment the slot
that is pointed to. A match that runs over has written into the next slot. -/
inductive DeviceAnswer
  | matched (deviceClass : Nat) (ntName : List UInt16) (ok : Bool) (driver : WinCfdriver)
  | overrun
  | attached (deviceClass : Nat) (slot : Nat)

/-- The table with all the answers so far. -/
structure DeviceWorld where
  table : DeviceTable
  answers : List DeviceAnswer

/-- Before the first call there are the pseudo devices. -/
def DeviceWorld.booted (terminals : Nat → WinTtySlot) (lastError : UInt32) : DeviceWorld where
  table := pdoInit (.cleared terminals lastError)
  answers := []

/-- What becomes of the table after an overrun is not followed. -/
def DeviceWorld.matched (w : DeviceWorld) (ntName : List UInt16) (deviceType : UInt32) :
    Option (Bool × WinCfdriver × DeviceTable) → DeviceWorld
  | some (ok, driver, table) =>
      { table := table
        answers := .matched (deviceType.toNat / 256) ntName ok driver :: w.answers }
  | none => { w with answers := .overrun :: w.answers }

def stepDevices (w : DeviceWorld) : DeviceCall → DeviceWorld
  | .pdoMatch ntName deviceType driver =>
      w.matched ntName deviceType (pdoMatch ntName deviceType driver w.table)
  | .driveMatch ntName deviceType driver =>
      w.matched ntName deviceType (driveMatch ntName deviceType driver w.table)
  | .pdoAttach deviceType =>
      { table := (pdoAttach deviceType w.table).2
        answers := .attached (deviceType.toNat / 256) (pdoAttach deviceType w.table).1 ::
          w.answers }

def DeviceCall.Meets (w : DeviceWorld) : DeviceCall → Prop
  | .pdoMatch ntName deviceType _ => MatchMeets w.table.devices ntName deviceType
  | .driveMatch ntName deviceType _ => MatchMeets w.table.devices ntName deviceType
  | .pdoAttach deviceType => HasRoom w.table.devices deviceType

instance decidableMeets (w : DeviceWorld) : (call : DeviceCall) → Decidable (call.Meets w)
  | .pdoMatch ntName deviceType _ =>
      inferInstanceAs (Decidable (MatchMeets w.table.devices ntName deviceType))
  | .driveMatch ntName deviceType _ =>
      inferInstanceAs (Decidable (MatchMeets w.table.devices ntName deviceType))
  | .pdoAttach deviceType => inferInstanceAs (Decidable (HasRoom w.table.devices deviceType))

/-- In each class, names and numbers go together, no two configured devices share a name, what is
answered is a slot of the class, and no other slot was written to. -/
structure DevicesConsistent (w : DeviceWorld) : Prop where
  ids : ∀ sClass a b ok ok' driver driver', .matched sClass a ok driver ∈ w.answers →
    .matched sClass b ok' driver' ∈ w.answers → (a = b ↔ driver.deviceId = driver'.deviceId)
  names : ∀ i j, i / winUnitMax = j / winUnitMax → (w.table.devices i).Configured →
    (w.table.devices j).Configured → (w.table.devices i).name = (w.table.devices j).name → i = j
  matched_inside : ∀ sClass ntName ok driver, .matched sClass ntName ok driver ∈ w.answers →
    ∃ unit < winUnitMax, driver.deviceId.toNat = sClass * 256 + unit
  attached_inside : ∀ sClass slot, .attached sClass slot ∈ w.answers →
    ∃ unit < winUnitMax, slot = sClass * winUnitMax + unit
  not_overrun : .overrun ∉ w.answers

/-- What was configured is, under its number and its name. -/
def DevicesKept (devices devices' : Nat → NamedDevice) : Prop :=
  ∀ i, (devices i).Configured → (devices' i).Configured ∧
    (devices' i).deviceId = (devices i).deviceId ∧ (devices' i).name = (devices i).name

/-- What an answer says of a table that keeps its names. -/
def DeviceAnswer.Stands (devices : Nat → NamedDevice) : DeviceAnswer → Prop
  | .matched sClass ntName _ driver => sClass < devClassMax ∧
      ∃ i, ntKey devices i = some (sClass, ntName) ∧ driver.deviceId = deviceRid i
  | .overrun => False
  | .attached sClass slot => slot / winUnitMax = sClass

theorem DeviceAnswer.Stands.keeps {devices devices' : Nat → NamedDevice} {a : DeviceAnswer}
    (h : a.Stands devices) (hkeeps : KeepsNames devices devices') : a.Stands devices' := by
  cases a with
  | matched sClass ntName ok driver =>
      obtain ⟨hclass, i, hkey, hid⟩ := h
      exact ⟨hclass, i, hkeeps.ntNames i _ hkey, hid⟩
  | overrun => exact h
  | attached sClass slot => exact h

structure DeviceWorld.Sound (w : DeviceWorld) : Prop where
  devices : DevicesSound w.table.devices
  answers : ∀ a ∈ w.answers, a.Stands w.table.devices

section
variable {w : DeviceWorld}

theorem DeviceWorld.Sound.answer (h : w.Sound) {s : DeviceTable} {a : DeviceAnswer}
    (hkeeps : KeepsNames w.table.devices s.devices) (ha : a.Stands s.devices) :
    DeviceWorld.Sound ⟨s, a :: w.answers⟩ :=
  ⟨hkeeps.sound, List.forall_mem_cons.mpr ⟨ha, fun b hb => (h.answers b hb).keeps hkeeps⟩⟩

theorem DeviceWorld.Sound.matched (h : w.Sound) {ntName : List UInt16} {deviceType : UInt32}
    (hclass : OnClass deviceType) {r : Bool × WinCfdriver × DeviceTable}
    (hr : MatchKeeps w.table ntName deviceType r) :
    (w.matched ntName deviceType (some r)).Sound :=
  h.answer hr.keeps ⟨hclass, hr.told⟩

/-- A call that goes well keeps the names there are. -/
theorem stepDevices_keeps (h : w.Sound) {call : DeviceCall} (hclass : OnClass call.deviceType)
    (hmeets : call.Meets w) :
    (stepDevices w call).Sound ∧
      KeepsNames w.table.devices (stepDevices w call).table.devices := by
  cases call with
  | pdoMatch ntName deviceType driver =>
      obtain ⟨r, hmatch, hr⟩ := matchDevice_keeps h.devices hclass
        (pdoMatch_arms hmeets.ntName_lt deviceType driver) hmeets driver
      have hstep : stepDevices w (.pdoMatch ntName deviceType driver) =
          w.matched ntName deviceType (some r) := by
        rw [← hmatch]
        rfl
      rw [hstep]
      exact ⟨h.matched hclass hr, hr.keeps⟩
  | driveMatch ntName deviceType driver =>
      obtain ⟨r, hmatch, hr⟩ := matchDevice_keeps h.devices hclass
        (driveMatch_arms hmeets.ntName_lt deviceType driver) hmeets driver
      have hstep : stepDevices w (.driveMatch ntName deviceType driver) =
          w.matched ntName deviceType (some r) := by
        rw [← hmatch]
        rfl
      rw [hstep]
      exact ⟨h.matched hclass hr, hr.keeps⟩
  | pdoAttach deviceType =>
      obtain ⟨hkeeps, hinside⟩ := pdoAttach_keeps h.devices hclass hmeets
      exact ⟨h.answer hkeeps hinside, hkeeps⟩

theorem run_keeps (h : w.Sound) {calls : List DeviceCall}
    (hclass : ∀ call ∈ calls, OnClass call.deviceType)
    (hmeets : Along stepDevices DeviceCall.Meets w calls) :
    (run stepDevices w calls).Sound ∧
      KeepsNames w.table.devices (run stepDevices w calls).table.devices := by
  induction calls generalizing w with
  | nil => exact ⟨h, .refl h.devices⟩
  | cons call calls ih =>
      obtain ⟨hcall, hcalls⟩ := List.forall_mem_cons.mp hclass
      obtain ⟨hstep, hkeeps⟩ := stepDevices_keeps h hcall hmeets.1
      obtain ⟨hrest, hkeeps'⟩ := ih hstep hcalls hmeets.2
      exact ⟨hrest, hkeeps.trans hkeeps'⟩

theorem DeviceWorld.Sound.consistent (h : w.Sound) : DevicesConsistent w := by
  refine ⟨fun sClass a b ok ok' driver driver' ha hb => ?_, fun i j hclass hi hj hname => ?_,
    fun sClass ntName ok driver ha => ?_, fun sClass slot ha => ?_,
    fun ha => h.answers _ ha⟩
  · obtain ⟨hclass, i, hi, hid⟩ := h.answers _ ha
    obtain ⟨-, j, hj, hid'⟩ := h.answers _ hb
    have hiclass := (Prod.mk.inj (ntKey_eq_some.mp hi).2).1
    have hjclass := (Prod.mk.inj (ntKey_eq_some.mp hj).2).1
    rw [hid, hid', deviceRid_inj (by rw [← hiclass]; exact hclass)
      (by rw [← hjclass]; exact hclass), ← h.devices.ntNames.eq_iff hi hj]
    exact ⟨fun hab => by rw [hab], fun hkey => (Prod.mk.inj hkey).2⟩
  · refine h.devices.names i j _ (nameKey_eq_some.mpr ⟨hi, rfl⟩) (nameKey_eq_some.mpr ⟨hj, ?_⟩)
    rw [hclass, hname]
  · obtain ⟨hclass, i, hi, hid⟩ := h.answers _ ha
    have hiclass := (Prod.mk.inj (ntKey_eq_some.mp hi).2).1
    refine ⟨i % winUnitMax, Nat.mod_lt _ (by decide), ?_⟩
    rw [hid, deviceRid_toNat (by rw [← hiclass]; exact hclass), hiclass]
  · have hinside : slot / winUnitMax = sClass := h.answers _ ha
    refine ⟨slot % winUnitMax, Nat.mod_lt _ (by decide), ?_⟩
    rw [← hinside, Nat.div_add_mod']

theorem KeepsNames.kept {devices devices' : Nat → NamedDevice} (h : DevicesSound devices)
    (hkeeps : KeepsNames devices devices') : DevicesKept devices devices' := by
  intro i hi
  obtain ⟨hi', hkey⟩ := nameKey_eq_some.mp (hkeeps.names i _ (nameKey_eq_some.mpr ⟨hi, rfl⟩))
  refine ⟨hi', ?_, (Prod.mk.inj hkey).2.symm⟩
  rw [h.ids i fun hzero => not_configured_of_unused hzero hi,
    hkeeps.sound.ids i fun hzero => not_configured_of_unused hzero hi']

end

theorem booted_sound (terminals : Nat → WinTtySlot) (lastError : UInt32) :
    (DeviceWorld.booted terminals lastError).Sound :=
  ⟨pdoInit_sound (cleared_sound terminals lastError), fun _ ha => absurd ha List.not_mem_nil⟩

/-- In a run whose calls all go well, what is answered and what is configured is consistent, and
whatever was configured on the way is still. -/
theorem deviceRuns_consistent (terminals : Nat → WinTtySlot) (lastError : UInt32)
    {before after : List DeviceCall}
    (hclass : ∀ call ∈ before ++ after, OnClass call.deviceType)
    (hmeets : Along stepDevices DeviceCall.Meets (.booted terminals lastError) (before ++ after)) :
    DevicesConsistent (run stepDevices (.booted terminals lastError) (before ++ after)) ∧
      DevicesKept (run stepDevices (.booted terminals lastError) before).table.devices
        (run stepDevices (.booted terminals lastError) (before ++ after)).table.devices := by
  obtain ⟨hbefore, hafter⟩ := along_append.mp hmeets
  obtain ⟨hclass, hclass'⟩ := List.forall_mem_append.mp hclass
  obtain ⟨hsound, -⟩ := run_keeps (booted_sound terminals lastError) hclass hbefore
  obtain ⟨hsound', hkeeps⟩ := run_keeps hsound hclass' hafter
  rw [run_append]
  exact ⟨hsound'.consistent, hkeeps.kept hsound.devices⟩

def blankDriver : WinCfdriver := ⟨0, 0, [], [], [], by decide, by decide⟩

def blankTerminal : WinTtySlot := ⟨0, 0, 0, 0, []⟩

def blankWorld : DeviceWorld := .booted (fun _ => blankTerminal) 0

/-- A display and an adapter are matched, the display once more, and a terminal is attached. -/
theorem deviceRuns_consistent_displays :
    DevicesConsistent (run stepDevices blankWorld
      ([.pdoMatch [97] devClassDisplay blankDriver, .pdoMatch [98] devTypeVga blankDriver] ++
        [.pdoMatch [97] devClassDisplay blankDriver, .pdoAttach devTypePty])) :=
  (deviceRuns_consistent _ _ (by decide) (by decide +kernel)).1

def twoDisplays : DeviceWorld :=
  run stepDevices blankWorld
    [.pdoMatch [97] devClassDisplay blankDriver, .pdoMatch [98] 0x0718 blankDriver]

/-- A name is matched as that of an adapter, and then as that of a display. -/
def twoTypes : DeviceWorld :=
  run stepDevices blankWorld
    [.pdoMatch [97] devTypeVga blankDriver, .pdoMatch [97] devClassDisplay blankDriver]

/-- A name that its array has no room for is matched twice. -/
def longName : DeviceWorld :=
  run stepDevices blankWorld
    [.pdoMatch (List.replicate 65 97) devTypeVga blankDriver,
      .pdoMatch (List.replicate 65 97) devTypeVga blankDriver]

/-- All the room that there is for shares is taken. -/
def sixteenShares : DeviceWorld :=
  run stepDevices blankWorld ((List.range 16).map fun n =>
    .driveMatch [UInt16.ofNat (n + 1)] devTypeRemote blankDriver)

/-- The class, the name and the number of a match. -/
def DeviceAnswer.told : DeviceAnswer → Option (Nat × List UInt16 × UInt32)
  | .matched sClass ntName _ driver => some (sClass, ntName, driver.deviceId)
  | .overrun => none
  | .attached _ _ => none

theorem exists_of_told (w : DeviceWorld) (sClass : Nat) (ntName : List UInt16) (deviceId : UInt32)
    (h : (sClass, ntName, deviceId) ∈ w.answers.filterMap DeviceAnswer.told) :
    ∃ ok driver, .matched sClass ntName ok driver ∈ w.answers ∧ driver.deviceId = deviceId := by
  obtain ⟨a, ha, htold⟩ := List.mem_filterMap.mp h
  cases a with
  | matched sClass' ntName' ok driver =>
      cases htold
      exact ⟨ok, driver, ha, rfl⟩
  | overrun => cases htold
  | attached sClass slot => cases htold

/-- A name that was told two numbers of a class. -/
theorem not_consistent_of_told {w : DeviceWorld} (sClass : Nat) (ntName : List UInt16)
    {m n : UInt32} (hmn : m ≠ n)
    (hm : (sClass, ntName, m) ∈ w.answers.filterMap DeviceAnswer.told)
    (hn : (sClass, ntName, n) ∈ w.answers.filterMap DeviceAnswer.told) : ¬DevicesConsistent w := by
  intro h
  obtain ⟨ok, driver, ha, hid⟩ := exists_of_told _ _ _ _ hm
  obtain ⟨ok', driver', hb, hid'⟩ := exists_of_told _ _ _ _ hn
  have hsame := (h.ids sClass ntName ntName ok ok' driver driver' ha hb).mp rfl
  rw [hid, hid'] at hsame
  exact hmn hsame

/-- Two displays on different busses share a name; a name that is matched as that of a device on
another bus gets a second number, and so does a name that runs on into the class id; and the last
of more shares than there is room for is told the number of a slot that is not of the class. -/
theorem displays_not_consistent :
    ¬DevicesConsistent twoDisplays ∧ ¬DevicesConsistent twoTypes ∧ ¬DevicesConsistent longName ∧
      ¬DevicesConsistent (run stepDevices sixteenShares
        [.driveMatch [17] devTypeRemote blankDriver]) := by
  refine ⟨fun h => ?_, ?_, ?_, fun h => ?_⟩
  · have hsame := h.names 560 584 rfl (by decide +kernel) (by decide +kernel) (by decide +kernel)
    cases hsame
  · exact not_consistent_of_told 7 [97] (by decide : (0x0728 : UInt32) ≠ 0x0700)
      (by decide +kernel) (by decide +kernel)
  · exact not_consistent_of_told 7 (List.replicate 65 97)
      (by decide : (0x0728 : UInt32) ≠ 0x0729) (by decide +kernel) (by decide +kernel)
  · obtain ⟨ok, driver, ha, hid⟩ := exists_of_told (run stepDevices sixteenShares
      [.driveMatch [17] devTypeRemote blankDriver]) 3 [17] 0 (by decide +kernel)
    obtain ⟨unit, -, hinside⟩ := h.matched_inside _ _ _ _ ha
    rw [hid, UInt32.toNat_zero] at hinside
    omega

end MinC.Vfs
