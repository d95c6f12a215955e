import MinC.Lib.Bits
import MinC.Lib.Keys
import MinC.Vfs.Attach
import Mathlib.Data.List.TakeWhile

/-!
The names in the table of devices.

A slot that is in use has a number that is its place in the table. Within a
class no two slots have one name of the system's, and no two configured devices
one name of ours. The second holds because a name of ours says what the device
is: one of the pseudo devices, or a device of a type at a distance from it. It
is for whoever attaches a device to see to it that no other device of the class
is called so.
-/

namespace MinC.Vfs

open MinC.Lib

def NamedDevice.Configured (device : NamedDevice) : Prop :=
  device.flags &&& winDvfConfigReady ≠ 0

instance decidableConfigured (device : NamedDevice) : Decidable device.Configured :=
  inferInstanceAs (Decidable (device.flags &&& winDvfConfigReady ≠ 0))

/-- The number of the device in a slot. -/
def deviceRid (i : Nat) : UInt32 := UInt32.ofNat (i / winUnitMax * 256 + i % winUnitMax)

def devicePrefix (deviceType : UInt32) : Option (List UInt8) :=
  typeName (deviceClass deviceType) deviceType

/-- The devices whose names are given once and for all, by the slots they are in. -/
def fixedRows : List AttachRow :=
  ⟨devTypeLog, ascii ['p', 'r', 'i', 'n', 't', 'k'], .disk, .vchr⟩ :: initRows

def fixedName (i : Nat) : Option (List UInt8) :=
  (fixedRows.find? fun row => deviceIndex row.deviceType == i).map AttachRow.name

/-- The class of a slot and its name of the system's, if it has one. -/
def ntKey (devices : Nat → NamedDevice) (i : Nat) : Option (Nat × List UInt16) :=
  if (devices i).ntName = [] then none else some (i / winUnitMax, (devices i).ntName)

/-- The class of a slot and the name of the device in it, if it is configured. -/
def nameKey (devices : Nat → NamedDevice) (i : Nat) : Option (Nat × List UInt8) :=
  if (devices i).Configured then some (i / winUnitMax, (devices i).name) else none

/-- A device is called by its type and its distance from it. -/
structure CalledByType (device : NamedDevice) (name : List UInt8) (n : Nat) : Prop where
  lt_max : n < winUnitMax
  devicePrefix : devicePrefix device.deviceType = some name
  deviceId : device.deviceId = device.deviceType + UInt32.ofNat n
  name : device.name = name ++ decimal n

def WellCalled (i : Nat) (device : NamedDevice) : Prop :=
  (∃ name n, CalledByType device name n) ∨ fixedName i = some device.name

structure DevicesSound (devices : Nat → NamedDevice) : Prop where
  ntNames : OneSlotEach (ntKey devices)
  names : OneSlotEach (nameKey devices)
  ids : ∀ i, (devices i).flags ≠ 0 → (devices i).deviceId = deviceRid i
  unused : ∀ i, (devices i).flags = 0 → (devices i).ntName = []
  called : ∀ i, (devices i).Configured → WellCalled i (devices i)

/-! ### Numbers in names -/

/-- A distance as it stands in a name. -/
theorem distance_in_name :
    ∀ n < winUnitMax, ((decimal n).head?.map isDigit = some true ∧ digits (decimal n) = n) ∧
      (UInt32.ofNat n).toInt32.toInt = n := by
  decide +kernel

theorem decimal_inj {m n : Nat} (hm : m < winUnitMax) (hn : n < winUnitMax)
    (h : decimal m = decimal n) : m = n := by
  rw [← (distance_in_name m hm).1.2, h, (distance_in_name n hn).1.2]

/-- The letters of a name are what stands before its first digit. -/
theorem takeWhile_letters {name : List UInt8} (hname : Letters name) {n : Nat}
    (hn : n < winUnitMax) :
    (name ++ decimal n).takeWhile (fun ch => !isDigit ch) = name := by
  have hhead := (distance_in_name n hn).1.1
  cases hdecimal : decimal n with
  | nil =>
      rw [hdecimal] at hhead
      cases hhead
  | cons ch rest =>
      rw [hdecimal] at hhead
      have hdigit : isDigit ch = true := Option.some.inj hhead
      rw [List.takeWhile_append_of_pos fun c hc => by rw [hname c hc]; rfl,
        List.takeWhile_cons_of_neg (by rw [hdigit]; decide), List.append_nil]

/-- A name that has a number in it says what the letters and the number are. -/
theorem letters_decimal_inj {a b : List UInt8} (ha : Letters a) (hb : Letters b) {m n : Nat}
    (hm : m < winUnitMax) (hn : n < winUnitMax) (h : a ++ decimal m = b ++ decimal n) :
    a = b ∧ m = n := by
  have hab : a = b := by rw [← takeWhile_letters ha hm, h, takeWhile_letters hb hn]
  rw [hab] at h
  exact ⟨hab, decimal_inj hm hn (List.append_cancel_left h)⟩

/-- A name that has a number in it is not all letters. -/
theorem letters_ne_decimal {a b : List UInt8} (ha : Letters a) (hb : Letters b) {n : Nat}
    (hn : n < winUnitMax) : a ≠ b ++ decimal n := by
  intro h
  have hab : a.takeWhile (fun ch => !isDigit ch) = a :=
    List.takeWhile_eq_self_iff.mpr fun c hc => by rw [ha c hc]; rfl
  have hnil : decimal n = [] := by
    rw [h, takeWhile_letters hb hn] at hab
    exact List.self_eq_append_right.mp hab
  have hhead := (distance_in_name n hn).1.1
  rw [hnil] at hhead
  cases hhead

/-! ### Fixed names -/

theorem fixedName_some {i : Nat} {name : List UInt8} (h : fixedName i = some name) :
    ∃ row ∈ fixedRows, deviceIndex row.deviceType = i ∧ row.name = name := by
  obtain ⟨row, hfind, hname⟩ := Option.map_eq_some_iff.mp h
  exact ⟨row, List.mem_of_find?_eq_some hfind, by simpa using List.find?_some hfind, hname⟩

theorem fixedRows_letters : ∀ row ∈ fixedRows, Letters row.name := by
  decide +kernel

theorem fixedRows_inj : ∀ row ∈ fixedRows, ∀ row' ∈ fixedRows, row.name = row'.name →
    deviceIndex row.deviceType = deviceIndex row'.deviceType := by
  decide +kernel

theorem fixedName_letters {i : Nat} {name : List UInt8} (h : fixedName i = some name) :
    Letters name := by
  obtain ⟨row, hrow, -, rfl⟩ := fixedName_some h
  exact fixedRows_letters row hrow

theorem fixedName_inj {i j : Nat} {name : List UInt8} (hi : fixedName i = some name)
    (hj : fixedName j = some name) : i = j := by
  obtain ⟨row, hrow, rfl, hname⟩ := fixedName_some hi
  obtain ⟨row', hrow', rfl, hname'⟩ := fixedName_some hj
  exact fixedRows_inj row hrow row' hrow' (hname.trans hname'.symm)

/-! ### Names of devices -/

theorem CalledByType.letters {device : NamedDevice} {name : List UInt8} {n : Nat}
    (h : CalledByType device name n) : Letters name := typeName_letters h.devicePrefix

/-- A fixed name is only that of the slot it is fixed for. -/
theorem WellCalled.eq_of_fixed {i j : Nat} {device : NamedDevice} (h : WellCalled j device)
    (hfixed : fixedName i = some device.name) : i = j := by
  rcases h with ⟨name, n, hcalled⟩ | hname
  · rw [hcalled.name] at hfixed
    exact absurd rfl (letters_ne_decimal (fixedName_letters hfixed) hcalled.letters hcalled.lt_max)
  · exact fixedName_inj hfixed hname

/-- Whatever has the name of a type and a distance is called by the type and the distance. -/
theorem WellCalled.calledByType {j : Nat} {device : NamedDevice} (h : WellCalled j device)
    {name : List UInt8} {n : Nat} (hname : Letters name) (hn : n < winUnitMax)
    (heq : device.name = name ++ decimal n) : CalledByType device name n := by
  rcases h with ⟨name', n', hcalled⟩ | hfixed
  · have hsame := letters_decimal_inj hname hcalled.letters hn hcalled.lt_max
      (heq.symm.trans hcalled.name)
    rw [hsame.1, hsame.2]
    exact hcalled
  · rw [heq] at hfixed
    exact absurd rfl (letters_ne_decimal (fixedName_letters hfixed) hname hn)

/-! ### Keys -/

section
variable {devices : Nat → NamedDevice} {i : Nat}

theorem ntKey_eq_some {key : Nat × List UInt16} :
    ntKey devices i = some key ↔
      (devices i).ntName ≠ [] ∧ key = (i / winUnitMax, (devices i).ntName) := by
  rw [ntKey]
  split_ifs with h
  · exact ⟨fun hkey => (by cases hkey), fun hkey => absurd h hkey.1⟩
  · exact ⟨fun hkey => ⟨h, (Option.some.inj hkey).symm⟩, fun hkey => by rw [hkey.2]⟩

theorem nameKey_eq_some {key : Nat × List UInt8} :
    nameKey devices i = some key ↔
      (devices i).Configured ∧ key = (i / winUnitMax, (devices i).name) := by
  rw [nameKey]
  split_ifs with h
  · exact ⟨fun hkey => ⟨h, (Option.some.inj hkey).symm⟩, fun hkey => by rw [hkey.2]⟩
  · exact ⟨fun hkey => (by cases hkey), fun hkey => absurd hkey.1 h⟩

theorem not_configured_of_unused {device : NamedDevice} (h : device.flags = 0) :
    ¬device.Configured := by
  rw [NamedDevice.Configured, h]
  decide

/-- The key of a slot of a table. -/
theorem ntKey_update (device : NamedDevice) :
    ntKey (Function.update devices i device) =
      Function.update (ntKey devices) i (ntKey (fun _ => device) i) := by
  funext j
  by_cases hji : j = i
  · subst hji
    rw [ntKey, ntKey, Function.update_self, Function.update_self]
  · rw [ntKey, Function.update_of_ne hji, Function.update_of_ne hji, ntKey]

theorem nameKey_update (device : NamedDevice) :
    nameKey (Function.update devices i device) =
      Function.update (nameKey devices) i (nameKey (fun _ => device) i) := by
  funext j
  by_cases hji : j = i
  · subst hji
    rw [nameKey, nameKey, Function.update_self, Function.update_self]
  · rw [nameKey, Function.update_of_ne hji, Function.update_of_ne hji, nameKey]

/-- A slot may be filled with a device that has its place for a number and names that no other
slot of the class has. -/
theorem DevicesSound.update (h : DevicesSound devices) {device : NamedDevice}
    (hid : device.flags ≠ 0 → device.deviceId = deviceRid i)
    (hunused : device.flags = 0 → device.ntName = [])
    (hcalled : device.Configured → WellCalled i device)
    (hnt : device.ntName ≠ [] → ∀ j, j ≠ i → ntKey devices j ≠ some (i / winUnitMax, device.ntName))
    (hname : device.Configured → ∀ j, j ≠ i →
      nameKey devices j ≠ some (i / winUnitMax, device.name)) :
    DevicesSound (Function.update devices i device) := by
  constructor
  · rw [ntKey_update]
    refine h.ntNames.update fun key hkey => ?_
    obtain ⟨hne, rfl⟩ := ntKey_eq_some.mp hkey
    exact hnt hne
  · rw [nameKey_update]
    refine h.names.update fun key hkey => ?_
    obtain ⟨hconfigured, rfl⟩ := nameKey_eq_some.mp hkey
    exact hname hconfigured
  · exact (Function.forall_update_iff devices
      (fun j device => device.flags ≠ 0 → device.deviceId = deviceRid j)).mpr
      ⟨hid, fun j _ => h.ids j⟩
  · exact (Function.forall_update_iff devices
      (fun _ device => device.flags = 0 → device.ntName = [])).mpr
      ⟨hunused, fun j _ => h.unused j⟩
  · exact (Function.forall_update_iff devices
      (fun j device => device.Configured → WellCalled j device)).mpr
      ⟨hcalled, fun j _ => h.called j⟩

/-- No other slot of the class has the system's name of a slot. -/
theorem DevicesSound.ntKey_ne (h : DevicesSound devices) (hne : (devices i).ntName ≠ []) (j : Nat)
    (hji : j ≠ i) : ntKey devices j ≠ some (i / winUnitMax, (devices i).ntName) :=
  fun hj => hji (h.ntNames j i _ hj (ntKey_eq_some.mpr ⟨hne, rfl⟩))

/-- A table whose slots keep the names that they have. -/
structure KeepsNames (devices devices' : Nat → NamedDevice) : Prop where
  sound : DevicesSound devices'
  ntNames : KeepsKeys (ntKey devices) (ntKey devices')
  names : KeepsKeys (nameKey devices) (nameKey devices')

theorem KeepsNames.trans {devices' devices'' : Nat → NamedDevice}
    (h : KeepsNames devices devices') (h' : KeepsNames devices' devices'') :
    KeepsNames devices devices'' :=
  ⟨h'.sound, h.ntNames.trans h'.ntNames, h.names.trans h'.names⟩

theorem KeepsNames.refl (h : DevicesSound devices) : KeepsNames devices devices :=
  ⟨h, .refl _, .refl _⟩

/-- A slot keeps its names if what is filled in has those that there were. -/
theorem DevicesSound.keeps_update {device : NamedDevice}
    (hsound : DevicesSound (Function.update devices i device))
    (hnt : (devices i).ntName ≠ [] → device.ntName = (devices i).ntName)
    (hname : (devices i).Configured → device.Configured ∧ device.name = (devices i).name) :
    KeepsNames devices (Function.update devices i device) := by
  refine ⟨hsound, ?_, ?_⟩
  · rw [ntKey_update]
    refine KeepsKeys.update fun key hkey => ?_
    obtain ⟨hne, rfl⟩ := ntKey_eq_some.mp hkey
    exact ntKey_eq_some.mpr ⟨by rw [hnt hne]; exact hne, by rw [hnt hne]⟩
  · rw [nameKey_update]
    refine KeepsKeys.update fun key hkey => ?_
    obtain ⟨hconfigured, rfl⟩ := nameKey_eq_some.mp hkey
    obtain ⟨hconfigured', heq⟩ := hname hconfigured
    exact nameKey_eq_some.mpr ⟨hconfigured', by rw [heq]⟩

/-! ### Attaching -/

theorem or_configReady (flags : UInt32) :
    (flags ||| winDvfConfigReady) &&& winDvfConfigReady ≠ 0 := by
  rw [u32_and_or_right]
  rcases u32_and_bit flags (k := 10) (b := winDvfConfigReady) rfl with h | h <;>
    rw [h] <;> decide

theorem or_configReady_ne (flags : UInt32) : flags ||| winDvfConfigReady ≠ 0 := by
  intro h
  have hready := or_configReady flags
  rw [h] at hready
  exact hready rfl

/-- The slot is to be attached: its device has its number, and a type of the class. -/
structure Placed (devices : Nat → NamedDevice) (i : Nat) (sClass : UInt32) : Prop where
  deviceId : (devices i).deviceId = deviceRid i
  sClass : sClass = deviceClass (devices i).deviceType
  distance : ∃ n < winUnitMax, deviceRid i = (devices i).deviceType + UInt32.ofNat n
  unconfigured : ¬(devices i).Configured

/-- No configured device of the class has the name that a device of the type would get in the
slot: one whose type has the same letters is at another distance. -/
def NewName (devices : Nat → NamedDevice) (deviceType : UInt32) (i : Nat) : Prop :=
  ∀ name, devicePrefix deviceType = some name → ∀ j, j / winUnitMax = i / winUnitMax →
    (devices j).Configured → devicePrefix (devices j).deviceType = some name →
      (devices j).deviceId - (devices j).deviceType ≠ deviceRid i - deviceType

theorem Configures.keeps (h : DevicesSound devices) {sClass : UInt32}
    (hplaced : Placed devices i sClass) (hnew : NewName devices (devices i).deviceType i)
    {name : List UInt8} (hname : typeName sClass (devices i).deviceType = some name)
    {device : NamedDevice} (hdevice : Configures name (devices i) device) :
    KeepsNames devices (Function.update devices i device) := by
  obtain ⟨n, hn, hdistance⟩ := hplaced.distance
  have hprefix : devicePrefix (devices i).deviceType = some name := by
    rw [devicePrefix, ← hplaced.sClass]
    exact hname
  have hdifference : deviceRid i - (devices i).deviceType = UInt32.ofNat n := by
    rw [hdistance, UInt32.add_comm, UInt32.add_sub_cancel]
  have hcalled : device.name = name ++ decimal n := by
    rw [hdevice.name, hplaced.deviceId, hdifference, (distance_in_name n hn).2]
  have hconfigured : device.Configured := by
    rw [NamedDevice.Configured, hdevice.flags]
    exact or_configReady _
  refine (h.update (fun _ => ?_) (fun hflags => ?_) (fun _ => ?_) (fun hne j hji => ?_)
    (fun _ j _ hj => ?_)).keeps_update (fun _ => hdevice.ntName) fun hc =>
      absurd hc hplaced.unconfigured
  · rw [hdevice.deviceId, hplaced.deviceId]
  · rw [hdevice.flags] at hflags
    exact absurd hflags (or_configReady_ne _)
  · refine .inl ⟨name, n, hn, ?_, ?_, hcalled⟩
    · rw [hdevice.deviceType]
      exact hprefix
    · rw [hdevice.deviceId, hdevice.deviceType, hplaced.deviceId, hdistance]
  · rw [hdevice.ntName] at hne ⊢
    exact h.ntKey_ne hne j hji
  -- a device of the same name has the same number, which the new one alone has
  · obtain ⟨hj, hkey⟩ := nameKey_eq_some.mp hj
    have hsame := ((h.called j hj).calledByType (typeName_letters hname) hn
      ((Prod.mk.inj hkey).2.symm.trans hcalled))
    refine hnew name hprefix j (Prod.mk.inj hkey).1.symm hj hsame.devicePrefix ?_
    rw [hdifference, hsame.deviceId, UInt32.add_comm, UInt32.add_sub_cancel]

/-! ### The log -/

def logIndex : Nat := deviceIndex devTypeLog

theorem no_prefix_below_log :
    ∀ n < winUnitMax, devicePrefix (devTypeLog - UInt32.ofNat n) = none := by
  decide +kernel

/-- If the slot of the log is configured, it is the log. -/
theorem DevicesSound.name_log (h : DevicesSound devices) (hlog : (devices logIndex).Configured) :
    (devices logIndex).name = (logDevice (devices logIndex)).name := by
  have hflags : (devices logIndex).flags ≠ 0 := fun hzero =>
    not_configured_of_unused hzero hlog
  rcases h.called _ hlog with ⟨name, n, hcalled⟩ | hfixed
  · have htype : (devices logIndex).deviceType = devTypeLog - UInt32.ofNat n := by
      have hid : devTypeLog = (devices logIndex).deviceType + UInt32.ofNat n := by
        rw [← hcalled.deviceId, h.ids _ hflags]
        rfl
      rw [hid, UInt32.add_sub_cancel]
    have hprefix := hcalled.devicePrefix
    rw [htype, no_prefix_below_log n hcalled.lt_max] at hprefix
    cases hprefix
  · exact (Option.some.inj hfixed).symm

/-- A slot that a name is fixed for may be configured with it. -/
theorem DevicesSound.fixed (h : DevicesSound devices) {device : NamedDevice}
    (hname : fixedName i = some device.name) (hid : device.deviceId = deviceRid i)
    (hflags : device.flags = (devices i).flags ||| winDvfConfigReady)
    (hnt : device.ntName = (devices i).ntName) : DevicesSound (Function.update devices i device) := by
  refine h.update (fun _ => hid) (fun hzero => ?_) (fun _ => .inr hname) (fun hne j hji => ?_)
    (fun _ j hji hj => ?_)
  · rw [hflags] at hzero
    exact absurd hzero (or_configReady_ne _)
  · rw [hnt] at hne ⊢
    exact h.ntKey_ne hne j hji
  · obtain ⟨hj, hkey⟩ := nameKey_eq_some.mp hj
    refine hji ((h.called j hj).eq_of_fixed ?_).symm
    rw [← (Prod.mk.inj hkey).2]
    exact hname

theorem logDevice_keeps (h : DevicesSound devices) :
    KeepsNames devices (Function.update devices logIndex (logDevice (devices logIndex))) := by
  have hsound : DevicesSound
      (Function.update devices logIndex (logDevice (devices logIndex))) :=
    h.fixed rfl rfl rfl rfl
  refine hsound.keeps_update (fun _ => rfl) fun hlog => ⟨?_, (h.name_log hlog).symm⟩
  exact or_configReady _

/-- Attaching a device to a slot that is to be attached keeps the names there are. -/
theorem Attached.keeps {s : DeviceTable} (h : DevicesSound s.devices) {sClass : UInt32}
    (hplaced : Placed s.devices i sClass) (hnew : NewName s.devices (s.devices i).deviceType i)
    {r : Bool × DeviceTable} (hr : Attached i sClass s r) :
    KeepsNames s.devices r.2.devices ∧ (r.2.devices i).deviceId = deviceRid i ∧
      (r.2.devices i).ntName = (s.devices i).ntName := by
  cases hr with
  | found hname hdevice hs =>
      rw [hs, Function.update_self, hdevice.deviceId, hdevice.ntName]
      exact ⟨hdevice.keeps h hplaced hnew hname, hplaced.deviceId, rfl⟩
  | log hclass htype hs =>
      rw [hs]
      refine ⟨logDevice_keeps h, ?_⟩
      by_cases hlog : i = deviceIndex devTypeLog
      · rw [hlog, Function.update_self]
        exact ⟨rfl, rfl⟩
      · rw [Function.update_of_ne hlog]
        exact ⟨hplaced.deviceId, rfl⟩
  | failed hs =>
      rw [hs]
      exact ⟨.refl h, hplaced.deviceId, rfl⟩

/-! ### The pseudo devices -/

theorem initRows_fixed : ∀ row ∈ initRows,
    fixedName (deviceIndex row.deviceType) = some (row.name.take (maxName - 1)) ∧
      row.deviceType = deviceRid (deviceIndex row.deviceType) := by
  decide +kernel

theorem configInit_sound {row : AttachRow} (hrow : row ∈ initRows) {s : DeviceTable}
    (h : DevicesSound s.devices) :
    DevicesSound (configInit row.name row.fsType row.fileType row.deviceType s).2.devices :=
  h.fixed (initRows_fixed row hrow).1 (initRows_fixed row hrow).2 rfl rfl

/-- A table that nothing is in. -/
def DeviceTable.cleared (terminals : Nat → WinTtySlot) (lastError : UInt32) : DeviceTable where
  devices := fun _ => .zero
  terminals := terminals
  lastError := lastError

theorem cleared_sound (terminals : Nat → WinTtySlot) (lastError : UInt32) :
    DevicesSound (DeviceTable.cleared terminals lastError).devices where
  ntNames := fun _ _ _ hi => absurd (ntKey_eq_some.mp hi).1 fun h => h rfl
  names := fun _ _ _ hi => absurd (nameKey_eq_some.mp hi).1 (not_configured_of_unused rfl)
  ids := fun _ hi => absurd rfl hi
  unused := fun _ _ => rfl
  called := fun _ hi => absurd hi (not_configured_of_unused rfl)

theorem pdoInit_sound {s : DeviceTable} (h : DevicesSound s.devices) :
    DevicesSound (pdoInit s).devices := by
  rw [pdoInit]
  exact List.foldlRecOn (motive := fun s => DevicesSound (DeviceTable.devices s)) initRows _ h
    fun s hs row hrow => configInit_sound hrow hs

end

end MinC.Vfs
