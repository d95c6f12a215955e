import MinC.Lib.Layout
import MinC.Win.Error

/-!
The list of interfaces, as routing messages.

For every adapter there is a message about the interface, with the address of
its link, and one for each address that the adapter has. A message tells how
long it is and how long its header is, and the writers go on from there; how
much room the messages take is computed by another function.
-/

namespace MinC.Net

open MinC.Lib MinC.Win

/-- The sizes of `struct if_msghdr`, `struct if_data`, `struct ifa_msghdr`, `struct sockaddr_dl` and
of its `sdl_data`. They are those of structures that lengths of a byte or of two can tell. -/
structure IfSizes where
  ifMsghdr : Nat
  ifData : Nat
  ifaMsghdr : Nat
  sockaddrDl : Nat
  sdlData : Nat
  ifMsghdr_pos : 0 < ifMsghdr
  ifaMsghdr_pos : 0 < ifaMsghdr
  sdlData_lt : sdlData < sockaddrDl
  sockaddrDl_lt : sockaddrDl < 256
  headers_lt : ifMsghdr < 4096 ∧ ifaMsghdr < 4096

/-- The families of the addresses that adapters have. -/
inductive AddressFamily
  | inet
  | inet6
  deriving DecidableEq

/-- An address of an adapter: its family, and the bytes behind the family. -/
structure UnicastAddress where
  family : AddressFamily
  saData : List UInt8
  deriving DecidableEq

/-- `iSockaddrLength`. The family takes two bytes. -/
def UnicastAddress.iSockaddrLength (address : UnicastAddress) : Nat := 2 + address.saData.length

/-- The counters of an interface. -/
structure MibIfrow where
  dwSpeed : UInt32
  dwInUcastPkts : UInt32
  dwInErrors : UInt32
  dwOutUcastPkts : UInt32
  dwOutErrors : UInt32
  dwInOctets : UInt32
  dwOutOctets : UInt32
  deriving DecidableEq

section
variable (sizes : IfSizes)

/-- An adapter, with its counters, if there are any, and the name that its index has. The name, with
its zero or with the address of the link, has room in `sdl_data`. -/
structure WinIfent where
  ifIndex : UInt32
  ifType : UInt32
  ifFlags : UInt32
  mtu : UInt32
  unicast : List UnicastAddress
  physAddr : List UInt8
  name : List UInt8
  ifRow : Option MibIfrow
  fits : name.length + max 1 physAddr.length ≤ sizes.sdlData

/-! ### What is put -/

structure IfData where
  ifiType : UInt8
  ifiAddrlen : UInt8
  ifiHdrlen : UInt8
  ifiMtu : UInt32
  counters : Option MibIfrow
  deriving DecidableEq

structure IfMsghdr where
  ifmMsglen : UInt16
  ifmVersion : UInt8
  ifmType : UInt8
  ifmHdrlen : UInt16
  ifmIndex : UInt16
  ifmAddrs : UInt32
  ifmFlags : UInt32
  ifmData : IfData
  deriving DecidableEq

structure IfaMsghdr where
  ifamMsglen : UInt16
  ifamVersion : UInt8
  ifamType : UInt8
  ifamHdrlen : UInt16
  ifamIndex : UInt16
  ifamAddrs : UInt32
  ifamFlags : UInt32
  deriving DecidableEq

structure SockaddrDl where
  sdlLen : UInt8
  sdlFamily : UInt8
  sdlIndex : UInt16
  sdlType : UInt8
  sdlNlen : UInt8
  sdlAlen : UInt8
  sdlData : List UInt8
  deriving DecidableEq

structure Sockaddr where
  saLen : UInt8
  saFamily : UInt8
  saData : List UInt8
  deriving DecidableEq

inductive IfItem
  | ifMsg (hdr : IfMsghdr)
  | dl (addr : SockaddrDl)
  | ifaMsg (hdr : IfaMsghdr)
  | addr (addr : Sockaddr)
  deriving DecidableEq

/-- The bytes that are taken by what is put. -/
def IfItem.size : IfItem → Nat
  | .ifMsg _ => sizes.ifMsghdr
  | .dl _ => sizes.sockaddrDl
  | .ifaMsg _ => sizes.ifaMsghdr
  | .addr address => 2 + address.saData.length

/-- The lengths of the header and of the message. -/
def IfItem.lengths : IfItem → Option (Nat × Nat)
  | .ifMsg hdr => some (hdr.ifmHdrlen.toNat, hdr.ifmMsglen.toNat)
  | .ifaMsg hdr => some (hdr.ifamHdrlen.toNat, hdr.ifamMsglen.toNat)
  | _ => none

/-! ### Messages -/

def rtmVersion : UInt8 := 5
def rtmNewaddr : UInt8 := 0x0C
def rtmIfinfo : UInt8 := 0x0E
def rtaIfp : UInt32 := 0x10
def rtaIfa : UInt32 := 0x20
def afInet : UInt8 := 2
def afLink : UInt8 := 18
def afInet6 : UInt8 := 24

def afPosix : AddressFamily → UInt8
  | .inet => afInet
  | .inet6 => afInet6

/-- `IFMSGLEN` -/
def ifmsglen : Nat := sizes.ifMsghdr + sizes.sockaddrDl

/-- The writers tell what they put, and where the next one goes on. -/
abbrev Written := List (Placed IfItem) × Nat

def sockaddrOf (address : UnicastAddress) : Sockaddr where
  saLen := UInt8.ofNat address.iSockaddrLength
  saFamily := afPosix address.family
  saData := address.saData.take (address.iSockaddrLength - 2)

def saddrPosix (buf : Nat) (address : UnicastAddress) : List (Placed IfItem) :=
  [⟨buf, .addr (sockaddrOf address)⟩]

def sockaddrDlOf (adapter : WinIfent sizes) : SockaddrDl :=
  let nlen := UInt8.ofNat adapter.name.length
  { sdlLen := UInt8.ofNat sizes.sockaddrDl
    sdlFamily := afLink
    sdlIndex := adapter.ifIndex.toUInt16
    sdlType := adapter.ifType.toUInt8
    sdlNlen := nlen
    sdlAlen := UInt8.ofNat adapter.physAddr.length
    sdlData := adapter.name.take nlen.toNat ++ adapter.physAddr }

def dladdrPosix (buf : Nat) (adapter : WinIfent sizes) : Written :=
  ([⟨buf, .dl (sockaddrDlOf sizes adapter)⟩], buf + sizes.sockaddrDl)

def ifaMsghdrOf (adapter : WinIfent sizes) (address : UnicastAddress) : IfaMsghdr where
  ifamMsglen := UInt16.ofNat (sizes.ifaMsghdr + address.iSockaddrLength)
  ifamVersion := rtmVersion
  ifamType := rtmNewaddr
  ifamHdrlen := UInt16.ofNat sizes.ifaMsghdr
  ifamIndex := adapter.ifIndex.toUInt16
  ifamAddrs := rtaIfa
  ifamFlags := adapter.ifFlags

def ifamsgPosix (buf : Nat) (adapter : WinIfent sizes) (address : UnicastAddress) : Written :=
  let hdr := ifaMsghdrOf sizes adapter address
  let next := buf + hdr.ifamHdrlen.toNat
  (⟨buf, .ifaMsg hdr⟩ :: saddrPosix next address, next + address.iSockaddrLength)

/-- The messages about the addresses, one behind the other. -/
def ifamsgsPosix (adapter : WinIfent sizes) : Nat → List UnicastAddress → Written
  | buf, [] => ([], buf)
  | buf, address :: addresses =>
      let (placed, next) := ifamsgPosix sizes buf adapter address
      let (rest, fin) := ifamsgsPosix adapter next addresses
      (placed ++ rest, fin)

def ifMsghdrOf (adapter : WinIfent sizes) : IfMsghdr where
  ifmMsglen := UInt16.ofNat (ifmsglen sizes)
  ifmVersion := rtmVersion
  ifmType := rtmIfinfo
  ifmHdrlen := UInt16.ofNat sizes.ifMsghdr
  ifmIndex := adapter.ifIndex.toUInt16
  ifmAddrs := rtaIfp ||| rtaIfa
  ifmFlags := adapter.ifFlags
  ifmData :=
    { ifiType := adapter.ifType.toUInt8
      ifiAddrlen := UInt8.ofNat sizes.sockaddrDl
      ifiHdrlen := UInt8.ofNat sizes.ifData
      ifiMtu := adapter.mtu
      counters := adapter.ifRow }

def ifmsgPosix (buf : Nat) (adapter : WinIfent sizes) : Written :=
  let hdr := ifMsghdrOf sizes adapter
  let (dl, next) := dladdrPosix sizes (buf + hdr.ifmHdrlen.toNat) adapter
  let (rest, fin) := ifamsgsPosix sizes adapter next adapter.unicast
  (⟨buf, .ifMsg hdr⟩ :: dl ++ rest, fin)

def ifmsgSize (unicast : List UnicastAddress) : Nat :=
  unicast.foldl (fun result address => result + sizes.ifaMsghdr + address.iSockaddrLength)
    (ifmsglen sizes)

/-- One turn of the loop over the adapters. -/
def ifmsgDump (dump : Dump IfItem) (adapter : WinIfent sizes) : Dump IfItem :=
  match dump.buf with
  | none => { dump with size := dump.size + ifmsgSize sizes adapter.unicast }
  | some buf =>
      let (placed, next) := ifmsgPosix sizes buf adapter
      { dump with buf := some next, placed := dump.placed ++ placed }

/-- The adapters are what Windows lists, or why it does not. -/
def routeNetRtIflist (adapters : Except UInt32 (List (WinIfent sizes))) (dump : Dump IfItem) :
    Int × Dump IfItem :=
  let dump := if dump.buf = none then { dump with size := 0 } else dump
  match adapters with
  | .error error => (-(errnoPosix error : Int), dump)
  | .ok adapters => (0, adapters.foldl (ifmsgDump sizes) dump)

end

end MinC.Net
