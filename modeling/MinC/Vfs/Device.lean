import MinC.Lib.Slots
import MinC.Vfs.Ansi
import MinC.Vfs.Mount
import MinC.Vfs.Poll
import MinC.Win.Error

/-!
The table of devices, and how a device comes to have a slot in it.

There is an array of slots for each class, and the arrays lie one behind the
other. The type of a device names its class and the unit at which the search
for a slot starts; the number of a device names its class and the unit at which
the search ended. A driver is matched with the device of a name, or with a slot
that is not in use, and a slot that comes into use is attached: the function of
the class knows what devices of the type are called, and the device is called
that with the distance of its number from its type.

The texts of a slot lie one behind the other, and a name is copied into its
array without a look at how long that is. A name that is longer runs on into the
class id, and is read with the class id that is copied there afterwards.
-/

namespace MinC.Vfs

open MinC.Lib MinC.Win

/-! ### Constants -/

/-- The slots of a class, `DEV_BUS_MAIN + 16`. -/
def winUnitMax : Nat := 80
def winTtyMax : Nat := winUnitMax
def devClassMax : Nat := 14
def maxName : Nat := 64
def maxGuid : Nat := 96

def winDvfPdoReady : UInt32 := 0x0100
def winDvfDriveReady : UInt32 := 0x0200
def winDvfConfigReady : UInt32 := 0x0400
def tiocflagActive : UInt32 := 0x00010000

def devClassDull : UInt32 := 0x0000
def devClassCpu : UInt32 := 0x0100
def devClassDisk : UInt32 := 0x0200
def devClassIfnet : UInt32 := 0x0300
def devClassMedia : UInt32 := 0x0400
def devClassPrinter : UInt32 := 0x0600
def devClassDisplay : UInt32 := 0x0700
def devClassKeyboard : UInt32 := 0x0800
def devClassMouse : UInt32 := 0x0900
def devClassStorage : UInt32 := 0x0A00
def devClassUsb : UInt32 := 0x0B00
def devClassHid : UInt32 := 0x0C00
def devClassSystem : UInt32 := 0x0D00

def devTypeSwd : UInt32 := 0x0000
def devTypeUsbt : UInt32 := 0x0018
def devTypeNvme : UInt32 := 0x0028
def devTypeBios : UInt32 := 0x0038

def devTypeMem : UInt32 := 0x0101
def devTypeKmem : UInt32 := 0x0102
def devTypeUrandom : UInt32 := 0x0106
def devTypeRandom : UInt32 := 0x0107
def devTypeRoute : UInt32 := 0x0108
def devTypeSwap : UInt32 := 0x010C
def devTypeRamdisk : UInt32 := 0x0118
def devTypeProcessor : UInt32 := 0x0120

def devTypeScsi : UInt32 := 0x0208
def devTypeWdc : UInt32 := 0x0210
def devTypeUsb : UInt32 := 0x0218
def devTypeFdc : UInt32 := 0x0220
def devTypeAhci : UInt32 := 0x0228

def devTypeNdis : UInt32 := 0x0300
def devTypeTunnel : UInt32 := 0x0310
def devTypeLoopback : UInt32 := 0x0314
def devTypePpp : UInt32 := 0x0318
def devTypeEth : UInt32 := 0x031C
def devTypeWlan : UInt32 := 0x0324
def devTypeNic : UInt32 := 0x0328

def devTypeMedia : UInt32 := 0x0400
def devTypeMagtape : UInt32 := 0x0408
def devTypeUsbvideo : UInt32 := 0x0418
def devTypeAudio : UInt32 := 0x0428

def devTypeLog : UInt32 := 0x0503
def devTypeTty : UInt32 := 0x0518
def devTypeCom : UInt32 := 0x0520

def devTypeQueue : UInt32 := 0x0600
def devTypeUsbprint : UInt32 := 0x0618
def devTypeLpt : UInt32 := 0x0620

def devTypeVga : UInt32 := 0x0728

def devTypeHidkbd : UInt32 := 0x0808
def devTypeComkbd : UInt32 := 0x0820

def devTypeHidmouse : UInt32 := 0x0908
def devTypeCommouse : UInt32 := 0x0920

def devTypeFixed : UInt32 := 0x0A00
def devTypeSd : UInt32 := 0x0A08
def devTypeCdrom : UInt32 := 0x0A10
def devTypeFloppy : UInt32 := 0x0A20

def devTypeOhci : UInt32 := 0x0B00
def devTypeUhub : UInt32 := 0x0B18
def devTypeBthub : UInt32 := 0x0B20
def devTypeUhci : UInt32 := 0x0B28
def devTypeIte : UInt32 := 0x0B38

def devTypeUhidev : UInt32 := 0x0C18
def devTypeEhci : UInt32 := 0x0C28

def devTypeEnum : UInt32 := 0x0D00
def devTypePci : UInt32 := 0x0D28
def devTypeAcpi : UInt32 := 0x0D38

/-! ### Data -/

/-- A slot of the table, with the names a device is known by. -/
structure NamedDevice extends WinDevice where
  name : List UInt8
  ntName : List UInt16
  classId : List UInt16
  ntPath : List UInt16
  deriving DecidableEq

def NamedDevice.zero : NamedDevice where
  fileType := .vnon
  deviceType := 0
  deviceId := 0
  fsType := .unknown
  event := 0
  input := 0
  output := 0
  flags := 0
  index := 0
  name := []
  ntName := []
  classId := []
  ntPath := []

/-- A terminal, as far as the attaching of a device fills it in. -/
structure WinTtySlot where
  index : UInt32
  deviceType : UInt32
  deviceId : UInt32
  flags : UInt32
  name : List UInt8
  deriving DecidableEq

/-- What a driver is asked and told. Its texts end within its arrays. -/
structure WinCfdriver where
  flags : UInt32
  deviceId : UInt32
  name : List UInt8
  classId : List UInt16
  ntPath : List UInt16
  classId_lt : classId.length < maxGuid
  ntPath_lt : ntPath.length < maxPath
  deriving DecidableEq

/-- The globals. The slots are numbered through all classes; what is numbered behind the last
class is what lies behind the table. -/
structure DeviceTable where
  devices : Nat → NamedDevice
  terminals : Nat → WinTtySlot
  lastError : UInt32

def DeviceTable.setDevice (s : DeviceTable) (i : Nat) (device : NamedDevice) : DeviceTable :=
  { s with devices := Function.update s.devices i device }

@[simp] theorem DeviceTable.setDevice_devices (s : DeviceTable) (i : Nat) (device : NamedDevice) :
    (s.setDevice i device).devices = Function.update s.devices i device := rfl

/-- The slot that `DEVICE` points to. -/
def deviceIndex (rid : UInt32) : Nat := (rid >>> 8).toNat * winUnitMax + (rid &&& 0xFF).toNat

/-! ### Configuring -/

/-- A name in the characters of the source. -/
def ascii (name : List Char) : List UInt8 := name.map fun ch => UInt8.ofNat ch.toNat

def configInit (name : List UInt8) (fsType : WinFsType) (fileType : WinVtype)
    (deviceType : UInt32) (s : DeviceTable) : Bool × DeviceTable :=
  let device := s.devices (deviceIndex deviceType)
  (true, s.setDevice (deviceIndex deviceType) { device with
    name := name.take (maxName - 1)
    fsType := fsType
    fileType := fileType
    deviceType := deviceType
    deviceId := deviceType
    flags := device.flags ||| winDvfConfigReady })

def configFound (name : List UInt8) (fsType : WinFsType) (fileType : WinVtype) (i : Nat)
    (s : DeviceTable) : Bool × DeviceTable :=
  let device := s.devices i
  (true, s.setDevice i { device with
    fsType := fsType
    fileType := fileType
    name := name ++ decimal (device.deviceId - device.deviceType).toInt32.toInt
    flags := device.flags ||| winDvfConfigReady })

/-- The arguments of `config_found` in a case of a switch over the types. -/
structure AttachRow where
  deviceType : UInt32
  name : List UInt8
  fsType : WinFsType
  fileType : WinVtype

/-- The case of a type among the rows, or the default case. -/
def attachRow (rows : List AttachRow) (other : Option (List UInt8)) (deviceType : UInt32) :
    Option AttachRow :=
  (rows.find? fun row => row.deviceType == deviceType).or
    (other.map fun name => ⟨deviceType, name, .pdo, .vchr⟩)

/-- A function of a class: the device is configured as the case of its type says. Without a case
and without a default it is not configured. -/
def attachBy (rows : List AttachRow) (other : Option (List UInt8)) (i : Nat) (s : DeviceTable) :
    Bool × DeviceTable :=
  match attachRow rows other (s.devices i).deviceType with
  | some row => configFound row.name row.fsType row.fileType i s
  | none => (false, s)

/-! ### Classes -/

def dullRows : List AttachRow :=
  [⟨devTypeSwd, ascii ['s', 'w', 'd'], .pdo, .vchr⟩,
    ⟨devTypeBios, ascii ['b', 'i', 'o', 's'], .pdo, .vchr⟩,
    ⟨devTypeUsbt, ascii ['u', 'b', 't'], .pdo, .vchr⟩,
    ⟨devTypeNvme, ascii ['n', 'v', 'm', 'e'], .pdo, .vchr⟩]

def dullAttach : Nat → DeviceTable → Bool × DeviceTable := attachBy dullRows none

def systemRows : List AttachRow :=
  [⟨devTypeEnum, ascii ['e', 'n', 'u', 'm'], .pdo, .vchr⟩,
    ⟨devTypeAcpi, ascii ['a', 'c', 'p', 'i'], .pdo, .vchr⟩,
    ⟨devTypePci, ascii ['p', 'c', 'i'], .pdo, .vchr⟩]

def systemAttach : Nat → DeviceTable → Bool × DeviceTable := attachBy systemRows none

def cpuRows : List AttachRow :=
  [⟨devTypeRamdisk, ascii ['r', 'd'], .pdo, .vchr⟩,
    ⟨devTypeProcessor, ascii ['c', 'p', 'u'], .pdo, .vchr⟩]

def cpuAttach : Nat → DeviceTable → Bool × DeviceTable := attachBy cpuRows none

def diskRows : List AttachRow :=
  [⟨devTypeScsi, ascii ['s', 'c', 's', 'i'], .pdo, .vblk⟩,
    ⟨devTypeWdc, ascii ['w', 'd', 'c'], .pdo, .vblk⟩,
    ⟨devTypeUsb, ascii ['u', 's', 'b'], .pdo, .vblk⟩,
    ⟨devTypeFdc, ascii ['f', 'd', 'c'], .pdo, .vblk⟩,
    ⟨devTypeAhci, ascii ['a', 'h', 'c', 'i'], .pdo, .vblk⟩]

def diskAttach : Nat → DeviceTable → Bool × DeviceTable := attachBy diskRows none

def ifnetRows : List AttachRow :=
  [⟨devTypeNdis, ascii ['n', 'd', 'i', 's'], .pdo, .vsock⟩,
    ⟨devTypeTunnel, ascii ['g', 'i', 'f'], .pdo, .vsock⟩,
    ⟨devTypeNic, ascii ['n', 'i', 'c'], .pdo, .vsock⟩,
    ⟨devTypeLoopback, ascii ['l', 'o'], .pdo, .vsock⟩,
    ⟨devTypeEth, ascii ['e', 't', 'h'], .pdo, .vsock⟩,
    ⟨devTypeWlan, ascii ['w', 'l', 'a', 'n'], .pdo, .vsock⟩,
    ⟨devTypePpp, ascii ['p', 'p', 'p'], .pdo, .vsock⟩,
    ⟨devTypeRemote, ascii ['s', 'm', 'b'], .drive, .vblk⟩]

def ifnetAttach : Nat → DeviceTable → Bool × DeviceTable := attachBy ifnetRows none

def mediaRows : List AttachRow :=
  [⟨devTypeMagtape, ascii ['m', 't'], .pdo, .vchr⟩,
    ⟨devTypeMedia, ascii ['m', 'e', 'd', 'i', 'a'], .pdo, .vchr⟩,
    ⟨devTypeUsbvideo, ascii ['u', 'v', 'i', 'd', 'e', 'o'], .pdo, .vchr⟩,
    ⟨devTypeAudio, ascii ['a', 'u', 'd', 'i', 'o'], .pdo, .vchr⟩]

def mediaAttach : Nat → DeviceTable → Bool × DeviceTable := attachBy mediaRows none

/-- The first terminal that is not in use is that of the device. -/
def ttyAttach (i : Nat) (s : DeviceTable) : Bool × DeviceTable :=
  match firstFree (fun t => (s.terminals t).flags == 0) winTtyMax 0 with
  | some t =>
      (true, { s.setDevice i { s.devices i with index := UInt32.ofNat t } with
        terminals := Function.update s.terminals t
          { flags := tiocflagActive
            index := UInt32.ofNat t
            deviceType := (s.devices i).deviceType
            deviceId := (s.devices i).deviceId
            name := (s.devices i).name } })
  | none => (false, { s with lastError := errorNotEnoughMemory })

/-- A device that needs a terminal is configured once it has one. -/
def terminalAttach (name : List UInt8) (fsType : WinFsType) (i : Nat) (s : DeviceTable) :
    Bool × DeviceTable :=
  let r := ttyAttach i s
  if r.1 then configFound name fsType .vchr i r.2 else (false, r.2)

def ptyAttach : Nat → DeviceTable → Bool × DeviceTable := terminalAttach (ascii ['p', 't', 'y']) .char

def comAttach : Nat → DeviceTable → Bool × DeviceTable :=
  terminalAttach (ascii ['p', 'c', 'c', 'o', 'm']) .pdo

/-- The log is not the device that is attached but the one with its type for a number. -/
def serialAttach (i : Nat) (s : DeviceTable) : Bool × DeviceTable :=
  if (s.devices i).deviceType = devTypeLog then
    configInit (ascii ['p', 'r', 'i', 'n', 't', 'k']) .disk .vchr devTypeLog s
  else if (s.devices i).deviceType = devTypeTty then
    configFound (ascii ['t', 't', 'y']) .pipe .vchr i s
  else if (s.devices i).deviceType = devTypePty then ptyAttach i s
  else if (s.devices i).deviceType = devTypeCom then comAttach i s
  else (false, s)

def printerRows : List AttachRow :=
  [⟨devTypeQueue, ascii ['q', 'u', 'e', 'u', 'e'], .pdo, .vchr⟩,
    ⟨devTypeUsbprint, ascii ['u', 'l', 'p', 't'], .pdo, .vchr⟩,
    ⟨devTypeLpt, ascii ['p', 'a', 'r', 'a', 'l', 'l', 'e', 'l'], .pdo, .vchr⟩]

def printerAttach : Nat → DeviceTable → Bool × DeviceTable := attachBy printerRows none

def displayRows : List AttachRow := [⟨devTypeVga, ascii ['v', 'g', 'a'], .pdo, .vchr⟩]

def displayOther : List UInt8 := ascii ['w', 's', 'd', 'i', 's', 'p', 'l', 'a', 'y']

def displayAttach : Nat → DeviceTable → Bool × DeviceTable :=
  attachBy displayRows (some displayOther)

def keyboardRows : List AttachRow :=
  [⟨devTypeComkbd, ascii ['c', 'o', 'm', 'k', 'b', 'd'], .pdo, .vchr⟩,
    ⟨devTypeHidkbd, ascii ['u', 'k', 'b', 'd'], .pdo, .vchr⟩]

def keyboardOther : List UInt8 := ascii ['w', 's', 'k', 'b', 'd']

def keyboardAttach : Nat → DeviceTable → Bool × DeviceTable :=
  attachBy keyboardRows (some keyboardOther)

def mouseRows : List AttachRow :=
  [⟨devTypeCommouse, ascii ['c', 'o', 'm', 'm', 's'], .pdo, .vchr⟩,
    ⟨devTypeHidmouse, ascii ['u', 'm', 's'], .pdo, .vchr⟩]

def mouseOther : List UInt8 := ascii ['w', 's', 'm', 'o', 'u', 's', 'e']

def mouseAttach : Nat → DeviceTable → Bool × DeviceTable := attachBy mouseRows (some mouseOther)

def storageRows : List AttachRow :=
  [⟨devTypeFixed, ascii ['v', 'o', 'l'], .drive, .vblk⟩,
    ⟨devTypeCdrom, ascii ['c', 'd'], .drive, .vblk⟩,
    ⟨devTypeFloppy, ascii ['f', 'd'], .drive, .vblk⟩,
    ⟨devTypeSd, ascii ['s', 'd'], .drive, .vblk⟩]

def storageAttach : Nat → DeviceTable → Bool × DeviceTable := attachBy storageRows none

def usbRows : List AttachRow :=
  [⟨devTypeOhci, ascii ['o', 'h', 'c', 'i'], .pdo, .vchr⟩,
    ⟨devTypeUhci, ascii ['u', 'h', 'c', 'i'], .pdo, .vchr⟩,
    ⟨devTypeUhub, ascii ['u', 'h', 'u', 'b'], .pdo, .vchr⟩,
    ⟨devTypeBthub, ascii ['b', 't', 'h', 'u', 'b'], .pdo, .vchr⟩,
    ⟨devTypeIte, ascii ['i', 't', 'e'], .pdo, .vchr⟩]

def usbAttach : Nat → DeviceTable → Bool × DeviceTable := attachBy usbRows none

def hidRows : List AttachRow :=
  [⟨devTypeEhci, ascii ['e', 'h', 'c', 'i'], .pdo, .vchr⟩,
    ⟨devTypeUhidev, ascii ['u', 'h', 'i', 'd', 'e', 'v'], .pdo, .vchr⟩]

def hidOther : List UInt8 := ascii ['h', 'i', 'd']

def hidAttach : Nat → DeviceTable → Bool × DeviceTable := attachBy hidRows (some hidOther)

def configAttach (i : Nat) (sClass : UInt32) (s : DeviceTable) : Bool × DeviceTable :=
  if sClass = devClassDull then dullAttach i s
  else if sClass = devClassCpu then cpuAttach i s
  else if sClass = devClassDisk then diskAttach i s
  else if sClass = devClassIfnet then ifnetAttach i s
  else if sClass = devClassMedia then mediaAttach i s
  else if sClass = devClassTty then serialAttach i s
  else if sClass = devClassPrinter then printerAttach i s
  else if sClass = devClassDisplay then displayAttach i s
  else if sClass = devClassKeyboard then keyboardAttach i s
  else if sClass = devClassMouse then mouseAttach i s
  else if sClass = devClassStorage then storageAttach i s
  else if sClass = devClassUsb then usbAttach i s
  else if sClass = devClassHid then hidAttach i s
  else if sClass = devClassSystem then systemAttach i s
  else (false, s)

/-! ### Matching and attaching -/

def deviceClass (deviceType : UInt32) : UInt32 := deviceType &&& 0xFF00

def deviceUnit (deviceType : UInt32) : Nat := (deviceType &&& 0xFF).toNat

/-- The devices that the loop passes, up from that of the type and to the last unit, before it
comes to one that it stops at. -/
def probe (stops : NamedDevice → Bool) (deviceType : UInt32) (s : DeviceTable) : Option Nat :=
  firstFree (fun n => stops (s.devices (deviceIndex deviceType + n)))
    (winUnitMax - deviceUnit deviceType) 0

/-- What the driver is told of the device that the loop ended at. -/
def WinCfdriver.tell (driver : WinCfdriver) (device : NamedDevice) : WinCfdriver :=
  { driver with name := device.name, deviceId := device.deviceId, flags := device.flags }

/-- The characters of a slot from its name of the system's to its end. -/
def deviceTextMax : Nat := maxName + maxGuid + maxPath

/-- What is read as the name of a slot once the class id, too, was copied. -/
def storedName (ntName classId : List UInt16) : List UInt16 :=
  if ntName.length < maxName then ntName else ntName.take maxName ++ classId

/-- What is read behind the class id once the name was copied. -/
def storedPath (ntName ntPath : List UInt16) : List UInt16 :=
  if ntName.length < maxName + maxGuid then ntPath else ntName.drop (maxName + maxGuid)

/-- The loop of the two functions that match: `found` is what is done to the device that has the
name, and `fill` to a device that was not in use, which gets a number. There is no result when
the name runs on into the next slot. -/
def matchDevice (found : NamedDevice → NamedDevice) (fill : UInt32 → NamedDevice → NamedDevice)
    (ntName : List UInt16) (deviceType : UInt32) (driver : WinCfdriver) (s : DeviceTable) :
    Option (Bool × WinCfdriver × DeviceTable) :=
  match probe (fun device => device.ntName == ntName || device.flags == 0) deviceType s with
  | some n =>
      let i := deviceIndex deviceType + n
      if (s.devices i).ntName = ntName then
        let s' := s.setDevice i (found (s.devices i))
        some ((s.devices i).classId == driver.classId, driver.tell (s'.devices i), s')
      else if ntName.length < deviceTextMax then
        let deviceId := deviceClass deviceType + UInt32.ofNat (deviceUnit deviceType + n)
        let r := configAttach i (deviceClass deviceType)
          (s.setDevice i (fill deviceId (s.devices i)))
        some (r.1, driver.tell (r.2.devices i), r.2)
      else none
  | none =>
      -- the pointer has passed the last unit
      let i := deviceIndex deviceType + (winUnitMax - deviceUnit deviceType)
      some (false, driver.tell (s.devices i), s)

def pdoFill (ntName : List UInt16) (deviceType : UInt32) (driver : WinCfdriver)
    (deviceId : UInt32) (device : NamedDevice) : NamedDevice :=
  { device with
    flags := winDvfPdoReady
    deviceType := deviceType
    deviceId := deviceId
    ntName := storedName ntName driver.classId
    classId := driver.classId
    ntPath := storedPath ntName device.ntPath }

def pdoMatch (ntName : List UInt16) (deviceType : UInt32) (driver : WinCfdriver) :
    DeviceTable → Option (Bool × WinCfdriver × DeviceTable) :=
  matchDevice id (pdoFill ntName deviceType driver) ntName deviceType driver

/-- The path is copied after the name and before the class id. -/
def driveFill (ntName : List UInt16) (deviceType : UInt32) (driver : WinCfdriver)
    (deviceId : UInt32) (device : NamedDevice) : NamedDevice :=
  { device with
    flags := winDvfDriveReady
    ntName := storedName ntName driver.classId
    ntPath := driver.ntPath
    classId := driver.classId
    deviceType := deviceType
    deviceId := deviceId }

def driveMatch (ntName : List UInt16) (deviceType : UInt32) (driver : WinCfdriver) :
    DeviceTable → Option (Bool × WinCfdriver × DeviceTable) :=
  matchDevice (fun device => { device with ntPath := driver.ntPath })
    (driveFill ntName deviceType driver) ntName deviceType driver

/-- The slot that the result points to is left unused if the device is not configured. -/
def pdoAttach (deviceType : UInt32) (s : DeviceTable) : Nat × DeviceTable :=
  match probe (fun device => device.flags == 0) deviceType s with
  | some n =>
      let i := deviceIndex deviceType + n
      let deviceId := deviceClass deviceType + UInt32.ofNat (deviceUnit deviceType + n)
      (i, (configAttach i (deviceClass deviceType) (s.setDevice i { s.devices i with
        deviceType := deviceType
        deviceId := deviceId })).2)
  | none => (deviceIndex deviceType + (winUnitMax - deviceUnit deviceType), s)

/-! ### The pseudo devices -/

/-- The calls of `config_init`, in their order. -/
def initRows : List AttachRow :=
  [⟨devTypeMem, ascii ['m', 'e', 'm'], .pdo, .vchr⟩,
    ⟨devTypeKmem, ascii ['k', 'm', 'e', 'm'], .pdo, .vchr⟩,
    ⟨devTypeNull, ascii ['n', 'u', 'l', 'l'], .char, .vchr⟩,
    ⟨devTypeRandom, ascii ['r', 'a', 'n', 'd', 'o', 'm'], .pdo, .vchr⟩,
    ⟨devTypeUrandom, ascii ['u', 'r', 'a', 'n', 'd', 'o', 'm'], .pdo, .vchr⟩,
    ⟨devTypeRoute, ascii ['r', 'o', 'u', 't', 'e'], .pdo, .vchr⟩,
    ⟨devTypeStdin, ascii ['s', 't', 'd', 'i', 'n'], .process, .vchr⟩,
    ⟨devTypeStdout, ascii ['s', 't', 'd', 'o', 'u', 't'], .process, .vchr⟩,
    ⟨devTypeStderr, ascii ['s', 't', 'd', 'e', 'r', 'r'], .process, .vchr⟩,
    ⟨devTypeRootDevice, ascii ['r', 'o', 'o', 't'], .pdo, .vblk⟩,
    ⟨devTypeSwap, ascii ['s', 'w', 'a', 'p'], .pdo, .vblk⟩,
    ⟨devTypeConsole, ascii ['c', 'o', 'n', 's', 'o', 'l', 'e'], .char, .vchr⟩,
    ⟨devClassTty, ascii ['t', 't', 'y'], .pdo, .vchr⟩,
    ⟨devTypePtm, ascii ['p', 't', 'm'], .pdo, .vchr⟩]

def pdoInit (s : DeviceTable) : DeviceTable :=
  initRows.foldl (fun s row => (configInit row.name row.fsType row.fileType row.deviceType s).2) s

end MinC.Vfs
