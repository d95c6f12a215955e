import MinC.Vfs.Namei
import MinC.Vfs.Node
import MinC.Win.Error

/-!
The mount table.

There is a slot for each drive letter, and one before them for what has no
letter. A slot in use says where it is mounted and from what kind of device. The
table is kept as what is found at each index, so that an index behind it reads
and writes what is there.

Mounting asks Windows about the volume and marks the directory. What is told
about the volume goes into the slot before it is known whether the directory can
be marked.
-/

namespace MinC.Vfs

open MinC.Lib MinC.Win

def devTypeRemote : UInt32 := 0x0340

/-- A slot of the mount table. -/
structure WinMount where
  mountId : UInt32
  deviceType : UInt32
  deviceId : UInt32
  serial : UInt32
  maxPath : UInt32
  flagsLow : UInt32
  flagsHigh : UInt32
  time : UInt64
  volume : List UInt16
  label : List UInt16
  typeName : List UInt16
  path : List UInt16
  deriving DecidableEq

/-- A slot that is cleared. -/
def WinMount.zero : WinMount where
  mountId := 0
  deviceType := 0
  deviceId := 0
  serial := 0
  maxPath := 0
  flagsLow := 0
  flagsHigh := 0
  time := 0
  volume := []
  label := []
  typeName := []
  path := []

/-- `__Mounts`. -/
abbrev WinMounts := UInt32 → WinMount

/-- The drive of a slot is one of this machine. -/
def WinMounts.Local (mounts : WinMounts) (mountId : UInt32) : Prop :=
  (mounts mountId).deviceType ≠ devTypeRemote

/-! ### Volumes -/

def winMountMax : UInt32 := 27

def winMntDoomed : UInt32 := 0x08000000
def winMntRootfs : UInt32 := 0x00004000

def fileAttributeSystem : UInt32 := 0x04
def fileAttributePlain : UInt32 := 0x80
def fileClassRoot : UInt32 := 0x16

/-- What Windows tells about a volume. -/
structure VolumeInfo where
  label : List UInt16
  serial : UInt32
  maxPath : UInt32
  flags : UInt32
  typeName : List UInt16
  deriving DecidableEq

/-- What a call finds: the volumes, of which one has no name, the files that can be given
attributes, the directory that a name is of, by one of its names, the time, and the errors where
there is nothing, no volume or no such file. -/
structure MountEnv where
  volume : Option (List UInt16) → Option VolumeInfo
  setAttributes : List UInt16 → UInt32 → Bool
  directory : List UInt16 → List UInt16
  time : UInt64
  lookupError : UInt32
  volumeError : UInt32
  attributesError : UInt32

/-- `ROOT:`. -/
def rootDrive : List UInt16 := [82, 79, 79, 84, 58]

/-- The name that a volume is asked for by, if it has one, and what is left in the buffer. -/
def winVolname (fileName : List UInt16) : Option (List UInt16) × List UInt16 :=
  if fileName = rootDrive then (none, [46, 92])
  else
    let name := fileName.takeWhile (· ≠ 58) ++ (if 58 ∈ fileName then [58] else []) ++ [92]
    (some name, name)

section
variable (env : MountEnv)

def driveStatVolume (drive : List UInt16) (result : WinMount) : WinMount × Bool :=
  match env.volume (winVolname drive).1 with
  | none =>
      ({ result with
        volume := (winVolname drive).2
        flagsHigh := result.flagsHigh ||| winMntDoomed }, false)
  | some info =>
      ({ result with
        volume := (winVolname drive).2
        label := info.label
        serial := info.serial
        maxPath := info.maxPath
        flagsLow := info.flags
        typeName := info.typeName }, true)

/-! ### Mounting -/

/-- The drive that a directory is named after. -/
def pathDrive (path : WinNameidata) : List UInt16 :=
  winDrivename (text (path.resolved.drop path.base))

/-- `lMountId`. -/
def driveMountId (path : WinNameidata) : UInt32 := mountIdOf (path.resolved.getD path.base 0)

def driveMount (device : WinDevice) (mounts : WinMounts) (path : WinNameidata) :
    Except UInt32 Unit × WinMounts :=
  if flagSet path.attribs fileAttributeSystem then (.error errorNotReady, mounts)
  else match driveStatVolume env (pathDrive path) (mounts (driveMountId path)) with
  | (slot, false) => (.error env.volumeError, Function.update mounts (driveMountId path) slot)
  | (slot, true) =>
      if !env.setAttributes path.name fileClassMount then
        (.error env.attributesError, Function.update mounts (driveMountId path) slot)
      else
        (.ok (), Function.update mounts (driveMountId path) { slot with
          path := path.name
          mountId := driveMountId path
          deviceId := device.deviceId
          deviceType := device.deviceType
          time := env.time })

/-- `FFS`. -/
def ffsName : List UInt16 := [70, 70, 83]

def rootMount (device : WinDevice) (mounts : WinMounts) (path : WinNameidata) :
    Except UInt32 Unit × WinMounts :=
  match driveStatVolume env (pathDrive path) (mounts 0) with
  | (slot, false) => (.error env.volumeError, Function.update mounts 0 slot)
  | (slot, true) =>
      if !env.setAttributes path.name fileClassRoot then
        (.error env.attributesError, Function.update mounts 0 slot)
      else
        (.ok (), Function.update mounts 0 { slot with
          path := path.name
          typeName := ffsName
          mountId := 0
          deviceId := device.deviceId
          deviceType := device.deviceType
          flagsHigh := slot.flagsHigh ||| winMntRootfs
          time := env.time })

/-- `DEV_TYPE_ROOT`. -/
def devTypeRootDevice : UInt32 := 0x0A40

def pdoMount (device : WinDevice) (mounts : WinMounts) (path : WinNameidata) :
    Except UInt32 Unit × WinMounts :=
  if device.deviceType = devTypeRootDevice then rootMount env device mounts path
  else (.error errorBadDevice, mounts)

/-- Mount the device of a vnode. -/
def vfsMount (device : WinDevice) (mounts : WinMounts) (path : WinNameidata) :
    Except UInt32 Unit × WinMounts :=
  if path.attribs = noAttribs then (.error env.lookupError, mounts)
  else if path.fileType ≠ .vdir then (.error errorDirectory, mounts)
  else match device.fsType with
  | .drive => driveMount env device mounts path
  | .pdo => pdoMount env device mounts path
  | _ => (.error errorBadFileType, mounts)

def vfsUnmount (mounts : WinMounts) (path : WinNameidata) : Except UInt32 Unit × WinMounts :=
  if path.attribs = noAttribs then (.error env.lookupError, mounts)
  else if path.fileType ≠ .vdir then (.error errorDirectory, mounts)
  else if !flagSet path.attribs fileAttributeSystem then (.ok (), mounts)
  else if !env.setAttributes path.name fileAttributePlain then (.error env.attributesError, mounts)
  else (.ok (), Function.update mounts path.mountId WinMount.zero)

end

end MinC.Vfs
