import MinC.Vfs.Device

/-!
What attaching a device does to the table.

What devices of a type are called depends on the class and the type alone. The
log apart, a device that is configured gets the name of its type with the
distance of its number from its type, and one that is not configured changes
nothing in the table.
-/

namespace MinC.Vfs

open MinC.Lib

/-! ### Names of types -/

/-- The cases of `serial_attach` that configure the device itself. -/
def serialRows : List AttachRow :=
  [⟨devTypeTty, ascii ['t', 't', 'y'], .pipe, .vchr⟩,
    ⟨devTypePty, ascii ['p', 't', 'y'], .char, .vchr⟩,
    ⟨devTypeCom, ascii ['p', 'c', 'c', 'o', 'm'], .pdo, .vchr⟩]

/-- A class, with the cases of its function and what the others are called. -/
structure ClassRow where
  sClass : UInt32
  rows : List AttachRow
  other : Option (List UInt8)

def classTable : List ClassRow :=
  [⟨devClassDull, dullRows, none⟩,
    ⟨devClassCpu, cpuRows, none⟩,
    ⟨devClassDisk, diskRows, none⟩,
    ⟨devClassIfnet, ifnetRows, none⟩,
    ⟨devClassMedia, mediaRows, none⟩,
    ⟨devClassTty, serialRows, none⟩,
    ⟨devClassPrinter, printerRows, none⟩,
    ⟨devClassDisplay, displayRows, some displayOther⟩,
    ⟨devClassKeyboard, keyboardRows, some keyboardOther⟩,
    ⟨devClassMouse, mouseRows, some mouseOther⟩,
    ⟨devClassStorage, storageRows, none⟩,
    ⟨devClassUsb, usbRows, none⟩,
    ⟨devClassHid, hidRows, some hidOther⟩,
    ⟨devClassSystem, systemRows, none⟩]

def classRow (sClass : UInt32) : Option ClassRow :=
  classTable.find? fun row => row.sClass == sClass

/-- What the devices of a type are called. -/
def typeName (sClass deviceType : UInt32) : Option (List UInt8) :=
  (classRow sClass).bind fun row => (attachRow row.rows row.other deviceType).map AttachRow.name

/-- The names of types have no digits in them. -/
def Letters (name : List UInt8) : Prop := ∀ ch ∈ name, isDigit ch = false

theorem attachRow_letters {rows : List AttachRow} {other : Option (List UInt8)}
    (hrows : ∀ row ∈ rows, Letters row.name) (hother : ∀ name ∈ other, Letters name)
    {deviceType : UInt32} {row : AttachRow} (h : attachRow rows other deviceType = some row) :
    Letters row.name := by
  rw [attachRow, Option.or_eq_some_iff] at h
  rcases h with hfind | ⟨-, hdefault⟩
  · exact hrows row (List.mem_of_find?_eq_some hfind)
  · obtain ⟨name, hname, rfl⟩ := Option.map_eq_some_iff.mp hdefault
    exact hother name hname

instance decidableLetters (name : List UInt8) : Decidable (Letters name) :=
  inferInstanceAs (Decidable (∀ ch ∈ name, isDigit ch = false))

theorem classTable_letters :
    ∀ row ∈ classTable, (∀ type ∈ row.rows, Letters type.name) ∧
      ∀ name ∈ row.other, Letters name := by
  decide +kernel

theorem typeName_letters {sClass deviceType : UInt32} {name : List UInt8}
    (h : typeName sClass deviceType = some name) : Letters name := by
  obtain ⟨row, hclass, hname⟩ := Option.bind_eq_some_iff.mp h
  obtain ⟨type, htype, rfl⟩ := Option.map_eq_some_iff.mp hname
  have hletters := classTable_letters row (List.mem_of_find?_eq_some hclass)
  exact attachRow_letters hletters.1 hletters.2 htype

/-! ### What attaching does -/

/-- A device is called by its type's name, with its distance from its type. -/
structure Configures (name : List UInt8) (device device' : NamedDevice) : Prop where
  name : device'.name =
    name ++ decimal (device.deviceId - device.deviceType).toInt32.toInt
  flags : device'.flags = device.flags ||| winDvfConfigReady
  deviceType : device'.deviceType = device.deviceType
  deviceId : device'.deviceId = device.deviceId
  ntName : device'.ntName = device.ntName

/-- The log, as it is configured. -/
def logDevice (device : NamedDevice) : NamedDevice :=
  { device with
    name := ascii ['p', 'r', 'i', 'n', 't', 'k']
    fsType := .disk
    fileType := .vchr
    deviceType := devTypeLog
    deviceId := devTypeLog
    flags := device.flags ||| winDvfConfigReady }

/-- The table after a device was attached. -/
inductive Attached (i : Nat) (sClass : UInt32) (s : DeviceTable) : Bool × DeviceTable → Prop
  | found {name : List UInt8} {device : NamedDevice} {s' : DeviceTable}
      (hname : typeName sClass (s.devices i).deviceType = some name)
      (hdevice : Configures name (s.devices i) device)
      (hs : s'.devices = Function.update s.devices i device) : Attached i sClass s (true, s')
  | log {s' : DeviceTable} (hclass : sClass = devClassTty)
      (htype : (s.devices i).deviceType = devTypeLog)
      (hs : s'.devices = Function.update s.devices (deviceIndex devTypeLog)
        (logDevice (s.devices (deviceIndex devTypeLog)))) : Attached i sClass s (true, s')
  | failed {s' : DeviceTable} (hs : s'.devices = s.devices) : Attached i sClass s (false, s')

section
variable {i : Nat} {sClass : UInt32} {s : DeviceTable}

theorem configFound_attached {name : List UInt8} (fsType : WinFsType) (fileType : WinVtype)
    (hname : typeName sClass (s.devices i).deviceType = some name) :
    Attached i sClass s (configFound name fsType fileType i s) := by
  refine .found hname ?_ (s.setDevice_devices i _)
  exact ⟨rfl, rfl, rfl, rfl, rfl⟩

theorem attachBy_attached {rows : List AttachRow} {other : Option (List UInt8)}
    (hrow : classRow sClass = some ⟨sClass, rows, other⟩) :
    Attached i sClass s (attachBy rows other i s) := by
  rw [attachBy]
  cases hattach : attachRow rows other (s.devices i).deviceType with
  | none => exact .failed rfl
  | some row =>
      exact configFound_attached _ _ (by rw [typeName, hrow, Option.bind_some, hattach,
        Option.map_some])

theorem terminalAttach_attached {name : List UInt8} (fsType : WinFsType)
    (hname : typeName sClass (s.devices i).deviceType = some name) :
    Attached i sClass s (terminalAttach name fsType i s) := by
  rw [terminalAttach, ttyAttach]
  cases firstFree (fun t => (s.terminals t).flags == 0) winTtyMax 0 with
  | none => exact .failed rfl
  | some t =>
      refine .found hname ?_ (Function.update_idem _ _ _)
      simp only [DeviceTable.setDevice, Function.update_self]
      exact ⟨rfl, rfl, rfl, rfl, rfl⟩

theorem serialAttach_attached : Attached i devClassTty s (serialAttach i s) := by
  rw [serialAttach]
  split_ifs with hlog htty hpty hcom
  · exact .log rfl hlog rfl
  · exact configFound_attached _ _ (by rw [htty]; rfl)
  · exact terminalAttach_attached _ (by rw [hpty]; rfl)
  · exact terminalAttach_attached _ (by rw [hcom]; rfl)
  · exact .failed rfl

theorem attached_ite {c : UInt32} {yes no : Bool × DeviceTable}
    (hyes : sClass = c → Attached i sClass s yes) (hno : Attached i sClass s no) :
    Attached i sClass s (if sClass = c then yes else no) :=
  iteInduction hyes fun _ => hno

theorem configAttach_attached : Attached i sClass s (configAttach i sClass s) := by
  rw [configAttach]
  refine attached_ite (fun h => attachBy_attached (by rw [h]; rfl)) ?_
  refine attached_ite (fun h => attachBy_attached (by rw [h]; rfl)) ?_
  refine attached_ite (fun h => attachBy_attached (by rw [h]; rfl)) ?_
  refine attached_ite (fun h => attachBy_attached (by rw [h]; rfl)) ?_
  refine attached_ite (fun h => attachBy_attached (by rw [h]; rfl)) ?_
  refine attached_ite (fun h => h ▸ serialAttach_attached) ?_
  refine attached_ite (fun h => attachBy_attached (by rw [h]; rfl)) ?_
  refine attached_ite (fun h => attachBy_attached (by rw [h]; rfl)) ?_
  refine attached_ite (fun h => attachBy_attached (by rw [h]; rfl)) ?_
  refine attached_ite (fun h => attachBy_attached (by rw [h]; rfl)) ?_
  refine attached_ite (fun h => attachBy_attached (by rw [h]; rfl)) ?_
  refine attached_ite (fun h => attachBy_attached (by rw [h]; rfl)) ?_
  refine attached_ite (fun h => attachBy_attached (by rw [h]; rfl)) ?_
  refine attached_ite (fun h => attachBy_attached (by rw [h]; rfl)) ?_
  exact .failed rfl

end

end MinC.Vfs
