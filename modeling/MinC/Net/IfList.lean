import MinC.Net.Route
import Mathlib.Data.List.Basic

/-!
What is read from the list of interfaces.

The writers put the messages of each adapter one behind the other, and the room
they take is the size that is told to whom asks without a buffer. The lengths
in a message are those of what was put, so that they lead a reader through the
list, and what the reader finds there is what Windows tells of the adapters.
-/

namespace MinC.Net

open MinC.Lib MinC.Win

/-- The lengths that addresses of the families have. -/
def UnicastAddress.Proper (address : UnicastAddress) : Prop :=
  address.iSockaddrLength = match address.family with | .inet => 16 | .inet6 => 28

instance decidableProper : DecidablePred UnicastAddress.Proper := fun address =>
  inferInstanceAs (Decidable (address.iSockaddrLength = _))

section
variable (sizes : IfSizes)

/-- The message about an adapter, with the address of its link, and those about its addresses. -/
def messagesOf (adapter : WinIfent sizes) : List (IfItem × IfItem) :=
  (.ifMsg (ifMsghdrOf sizes adapter), .dl (sockaddrDlOf sizes adapter)) ::
    adapter.unicast.map fun address =>
      (.ifaMsg (ifaMsghdrOf sizes adapter address), .addr (sockaddrOf address))

variable {sizes}

theorem sockaddrOf_size (address : UnicastAddress) :
    (IfItem.addr (sockaddrOf address)).size sizes = address.iSockaddrLength := by
  have hlength : address.iSockaddrLength - 2 = address.saData.length := Nat.add_sub_cancel_left ..
  rw [IfItem.size, sockaddrOf, hlength, List.take_length, UnicastAddress.iSockaddrLength]

theorem ifamHdrlen_toNat (adapter : WinIfent sizes) (address : UnicastAddress) :
    (ifaMsghdrOf sizes adapter address).ifamHdrlen.toNat = sizes.ifaMsghdr :=
  UInt16.toNat_ofNat_of_lt' (Nat.lt_trans sizes.headers_lt.2 (by decide))

theorem ifmHdrlen_toNat (adapter : WinIfent sizes) :
    (ifMsghdrOf sizes adapter).ifmHdrlen.toNat = sizes.ifMsghdr :=
  UInt16.toNat_ofNat_of_lt' (Nat.lt_trans sizes.headers_lt.1 (by decide))

/-! ### What is put, and its size -/

theorem ifamsgsPosix_eq (adapter : WinIfent sizes) (buf : Nat) (addresses : List UnicastAddress) :
    ifamsgsPosix sizes adapter buf addresses =
      (layOut (IfItem.size sizes) buf (flatten (addresses.map fun address =>
          (.ifaMsg (ifaMsghdrOf sizes adapter address), .addr (sockaddrOf address)))),
        buf + room (IfItem.size sizes) (flatten (addresses.map fun address =>
          (.ifaMsg (ifaMsghdrOf sizes adapter address), .addr (sockaddrOf address))))) := by
  induction addresses generalizing buf with
  | nil => rfl
  | cons address addresses ih =>
      rw [ifamsgsPosix, ifamsgPosix, List.map_cons, flatten_cons, layOut, layOut, room_cons,
        room_cons]
      dsimp only
      rw [ih, sockaddrOf_size, ifamHdrlen_toNat, ← Nat.add_assoc, ← Nat.add_assoc]
      rfl

theorem ifmsgPosix_eq (buf : Nat) (adapter : WinIfent sizes) :
    ifmsgPosix sizes buf adapter =
      (layOut (IfItem.size sizes) buf (flatten (messagesOf sizes adapter)),
        buf + room (IfItem.size sizes) (flatten (messagesOf sizes adapter))) := by
  rw [ifmsgPosix, dladdrPosix, messagesOf, flatten_cons, layOut, layOut, room_cons, room_cons]
  dsimp only
  rw [ifamsgsPosix_eq, ifmHdrlen_toNat, ← Nat.add_assoc, ← Nat.add_assoc]
  rfl

/-- The room of the messages is computed without putting them. -/
theorem ifmsgSize_eq (adapter : WinIfent sizes) :
    ifmsgSize sizes adapter.unicast =
      room (IfItem.size sizes) (flatten (messagesOf sizes adapter)) := by
  have hall : ∀ (addresses : List UnicastAddress) (n : Nat),
      addresses.foldl (fun result address => result + sizes.ifaMsghdr + address.iSockaddrLength)
          n =
        n + room (IfItem.size sizes) (flatten (addresses.map fun address =>
          (.ifaMsg (ifaMsghdrOf sizes adapter address), .addr (sockaddrOf address)))) := by
    intro addresses
    induction addresses with
    | nil => exact fun n => rfl
    | cons address addresses ih =>
        intro n
        rw [List.foldl_cons, ih, List.map_cons, flatten_cons, room_cons, room_cons,
          sockaddrOf_size, Nat.add_assoc, Nat.add_assoc]
        rfl
  rw [ifmsgSize, hall, messagesOf, flatten_cons, room_cons, room_cons, ifmsglen, Nat.add_assoc]
  rfl

/-- The messages about all adapters. -/
def allMessages (adapters : List (WinIfent sizes)) : List (IfItem × IfItem) :=
  adapters.flatMap (messagesOf sizes)

@[simp] theorem allMessages_nil : allMessages ([] : List (WinIfent sizes)) = [] := rfl

theorem allMessages_cons (adapter : WinIfent sizes) (adapters : List (WinIfent sizes)) :
    allMessages (adapter :: adapters) = messagesOf sizes adapter ++ allMessages adapters :=
  List.flatMap_cons

theorem foldl_ifmsgDump_probe (adapters : List (WinIfent sizes)) (n : Nat) :
    adapters.foldl (ifmsgDump sizes) (.probe n) =
      .probe (n + room (IfItem.size sizes) (flatten (allMessages adapters))) := by
  induction adapters generalizing n with
  | nil => rfl
  | cons adapter adapters ih =>
      rw [List.foldl_cons, allMessages_cons, flatten_append, room_append, ← Nat.add_assoc,
        ← ifmsgSize_eq adapter]
      exact ih (n + ifmsgSize sizes adapter.unicast)

theorem foldl_ifmsgDump_some (adapters : List (WinIfent sizes)) (place : Nat)
    (placed : List (Placed IfItem)) (n : Nat) :
    adapters.foldl (ifmsgDump sizes) ⟨some place, placed, n⟩ =
      ⟨some (place + room (IfItem.size sizes) (flatten (allMessages adapters))),
        placed ++ layOut (IfItem.size sizes) place (flatten (allMessages adapters)), n⟩ := by
  induction adapters generalizing place placed with
  | nil =>
      rw [List.foldl_nil, allMessages_nil, flatten_nil, layOut, List.append_nil]
      rfl
  | cons adapter adapters ih =>
      have hturn : ifmsgDump sizes ⟨some place, placed, n⟩ adapter =
          ⟨some (place + room (IfItem.size sizes) (flatten (messagesOf sizes adapter))),
            placed ++ layOut (IfItem.size sizes) place (flatten (messagesOf sizes adapter)), n⟩ := by
        rw [ifmsgDump]
        dsimp only
        rw [ifmsgPosix_eq]
      rw [List.foldl_cons, hturn, ih, allMessages_cons, flatten_append, room_append,
        layOut_append, Nat.add_assoc, List.append_assoc]

theorem routeNetRtIflist_probe (adapters : List (WinIfent sizes)) (n : Nat) :
    routeNetRtIflist sizes (.ok adapters) (.probe n) =
      (0, .probe (room (IfItem.size sizes) (flatten (allMessages adapters)))) := by
  have hdumped := foldl_ifmsgDump_probe adapters 0
  rw [Nat.zero_add] at hdumped
  exact congrArg (Prod.mk 0) hdumped

theorem routeNetRtIflist_fill (adapters : List (WinIfent sizes)) (n : Nat) :
    routeNetRtIflist sizes (.ok adapters) (.fill n) =
      (0, ⟨some (room (IfItem.size sizes) (flatten (allMessages adapters))),
        layOut (IfItem.size sizes) 0 (flatten (allMessages adapters)), n⟩) := by
  have hdumped := foldl_ifmsgDump_some adapters 0 [] n
  rw [Nat.zero_add, List.nil_append] at hdumped
  exact congrArg (Prod.mk 0) hdumped

/-! ### What is read -/

theorem announces_ifMsg (adapter : WinIfent sizes) :
    Announces (IfItem.size sizes) IfItem.lengths
      (.ifMsg (ifMsghdrOf sizes adapter), .dl (sockaddrDlOf sizes adapter)) where
  head := by
    have hlt : ifmsglen sizes < UInt16.size := by
      have := sizes.headers_lt.1
      have := sizes.sockaddrDl_lt
      rw [ifmsglen, UInt16.size]
      omega
    rw [IfItem.lengths, ifmHdrlen_toNat, ifMsghdrOf, UInt16.toNat_ofNat_of_lt' hlt]
    rfl
  header_pos := sizes.ifMsghdr_pos
  announced_pos := Nat.lt_of_le_of_lt (Nat.zero_le _) sizes.sdlData_lt

theorem announces_ifaMsg (adapter : WinIfent sizes) {address : UnicastAddress}
    (h : address.Proper) :
    Announces (IfItem.size sizes) IfItem.lengths
      (.ifaMsg (ifaMsghdrOf sizes adapter address), .addr (sockaddrOf address)) where
  head := by
    have hlength : address.iSockaddrLength ≤ 28 := by
      rw [h]
      cases address.family <;> decide
    have hlt : sizes.ifaMsghdr + address.iSockaddrLength < UInt16.size := by
      have := sizes.headers_lt.2
      rw [UInt16.size]
      omega
    rw [IfItem.lengths, ifamHdrlen_toNat, ifaMsghdrOf, UInt16.toNat_ofNat_of_lt' hlt,
      sockaddrOf_size]
    rfl
  header_pos := sizes.ifaMsghdr_pos
  announced_pos := by
    rw [sockaddrOf_size, UnicastAddress.iSockaddrLength]
    omega

theorem announces_allMessages {adapters : List (WinIfent sizes)}
    (h : ∀ adapter ∈ adapters, ∀ address ∈ adapter.unicast, address.Proper) :
    ∀ message ∈ allMessages adapters, Announces (IfItem.size sizes) IfItem.lengths message := by
  intro message hmessage
  obtain ⟨adapter, hadapter, hmem⟩ := List.mem_flatMap.mp hmessage
  obtain rfl | hmem := List.mem_cons.mp hmem
  · exact announces_ifMsg adapter
  · obtain ⟨address, haddress, rfl⟩ := List.mem_map.mp hmem
    exact announces_ifaMsg adapter (h adapter hadapter address haddress)

/-! ### What a reader is told -/

/-- What a reader takes from a message: from one about an adapter the index in the header and the
index, the family, the type, the name and the address of the link, from one about an address the
index, the family and the bytes behind it. -/
inductive Told
  | link (index sdlIndex : UInt16) (family type : UInt8) (name lladdr : List UInt8)
  | address (index : UInt16) (family : UInt8) (data : List UInt8)
  deriving DecidableEq

/-- The lengths in an address tell where its name ends and how many of its bytes count. -/
def readTold : IfItem × IfItem → Option Told
  | (.ifMsg hdr, .dl addr) =>
      let (name, rest) := addr.sdlData.splitAt addr.sdlNlen.toNat
      some (.link hdr.ifmIndex addr.sdlIndex addr.sdlFamily addr.sdlType name
        (rest.take addr.sdlAlen.toNat))
  | (.ifaMsg hdr, .addr addr) =>
      some (.address hdr.ifamIndex addr.saFamily (addr.saData.take (addr.saLen.toNat - 2)))
  | _ => none

/-- What Windows tells of an adapter. -/
def toldOf (adapter : WinIfent sizes) : List Told :=
  let index := adapter.ifIndex.toUInt16
  .link index index afLink adapter.ifType.toUInt8 adapter.name adapter.physAddr ::
    adapter.unicast.map fun address =>
      .address index (afPosix address.family) address.saData

theorem readTold_ifMsg (adapter : WinIfent sizes) :
    readTold (.ifMsg (ifMsghdrOf sizes adapter), .dl (sockaddrDlOf sizes adapter)) =
      some (.link adapter.ifIndex.toUInt16 adapter.ifIndex.toUInt16 afLink
        adapter.ifType.toUInt8 adapter.name adapter.physAddr) := by
  have hfits := adapter.fits
  have hdata := sizes.sdlData_lt
  have hdl := sizes.sockaddrDl_lt
  have hnlen : (UInt8.ofNat adapter.name.length).toNat = adapter.name.length :=
    UInt8.toNat_ofNat_of_lt' (show adapter.name.length < 256 by omega)
  have halen : (UInt8.ofNat adapter.physAddr.length).toNat = adapter.physAddr.length :=
    UInt8.toNat_ofNat_of_lt' (show adapter.physAddr.length < 256 by omega)
  rw [readTold, sockaddrDlOf]
  dsimp only
  rw [hnlen, halen, List.take_length, List.splitAt_eq, List.take_left, List.drop_left]
  dsimp only
  rw [List.take_length]
  rfl

theorem readTold_ifaMsg (adapter : WinIfent sizes) {address : UnicastAddress}
    (h : address.Proper) :
    readTold (.ifaMsg (ifaMsghdrOf sizes adapter address), .addr (sockaddrOf address)) =
      some (.address adapter.ifIndex.toUInt16 (afPosix address.family) address.saData) := by
  have hlt : address.iSockaddrLength < 256 := by
    rw [h]
    cases address.family <;> decide
  have hlen : (UInt8.ofNat address.iSockaddrLength).toNat = address.iSockaddrLength :=
    UInt8.toNat_ofNat_of_lt' hlt
  have hdata : address.iSockaddrLength - 2 = address.saData.length := Nat.add_sub_cancel_left ..
  rw [readTold, sockaddrOf]
  dsimp only
  rw [hlen, hdata, List.take_length, List.take_length]
  rfl

/-- A reader is told what Windows tells. -/
theorem readTold_messagesOf (adapter : WinIfent sizes)
    (h : ∀ address ∈ adapter.unicast, address.Proper) :
    (messagesOf sizes adapter).map readTold = (toldOf adapter).map some := by
  rw [messagesOf, toldOf, List.map_cons, List.map_cons, readTold_ifMsg, List.map_map, List.map_map]
  refine congrArg _ (List.map_congr_left fun address haddress => ?_)
  exact readTold_ifaMsg adapter (h address haddress)

theorem readTold_allMessages {adapters : List (WinIfent sizes)}
    (h : ∀ adapter ∈ adapters, ∀ address ∈ adapter.unicast, address.Proper) :
    (allMessages adapters).map readTold = (adapters.flatMap toldOf).map some := by
  rw [allMessages, List.map_flatMap, List.map_flatMap]
  exact List.flatMap_congr fun adapter hadapter => readTold_messagesOf adapter (h adapter hadapter)

end

/-- Whatever the size of the buffer, the lengths in the headers lead through the messages that were
put: for each adapter, one about it and one about each of its addresses, with the address behind
the header. The last of them ends where it is told that the list does, and what they say is what
Windows tells of the adapters. -/
theorem iflist_delimited (sizes : IfSizes) {adapters : List (WinIfent sizes)}
    (hproper : ∀ adapter ∈ adapters, ∀ address ∈ adapter.unicast, address.Proper)
    (asked length : Nat) :
    let told := (routeNetRtIflist sizes (.ok adapters) (.probe asked)).2.size
    walkRecords IfItem.lengths
        (readAt (routeNetRtIflist sizes (.ok adapters) (.fill length)).2.placed) told told 0 =
      some (adapters.flatMap (messagesOf sizes)) ∧
    (adapters.flatMap (messagesOf sizes)).map readTold = (adapters.flatMap toldOf).map some := by
  rw [routeNetRtIflist_probe, routeNetRtIflist_fill]
  exact ⟨walkRecords_eq (announces_allMessages hproper), readTold_allMessages hproper⟩

theorem headers_eight_lt : 8 < 4096 ∧ 8 < 4096 := by decide

def eightSizes : IfSizes where
  ifMsghdr := 8
  ifData := 4
  ifaMsghdr := 8
  sockaddrDl := 32
  sdlData := 24
  ifMsghdr_pos := Nat.succ_pos 7
  ifaMsghdr_pos := Nat.succ_pos 7
  sdlData_lt := by decide
  sockaddrDl_lt := by decide
  headers_lt := headers_eight_lt

def inetAddress : UnicastAddress := ⟨.inet, List.replicate 14 1⟩

def inet6Address : UnicastAddress := ⟨.inet6, List.replicate 26 2⟩

theorem loopback_fits : [(108 : UInt8), 111].length + max 1 ([] : List UInt8).length ≤ 24 := by
  decide

/-- The adapter `lo`, with some addresses. -/
def loopback (unicast : List UnicastAddress) : WinIfent eightSizes where
  ifIndex := 1
  ifType := 24
  ifFlags := 0
  mtu := 1500
  unicast := unicast
  physAddr := []
  name := [108, 111]
  ifRow := none
  fits := loopback_fits

/-- An adapter with an address of each family, and one without any. -/
theorem iflist_delimited_two :
    walkRecords IfItem.lengths
        (readAt (routeNetRtIflist eightSizes
          (.ok [loopback [inetAddress, inet6Address], loopback []]) (.fill 140)).2.placed)
        140 140 0 =
      some ([loopback [inetAddress, inet6Address], loopback []].flatMap
        (messagesOf eightSizes)) ∧
    ([loopback [inetAddress, inet6Address], loopback []].flatMap (messagesOf eightSizes)).map
        readTold =
      ([loopback [inetAddress, inet6Address], loopback []].flatMap toldOf).map some :=
  iflist_delimited eightSizes (by decide) 0 140

end MinC.Net
