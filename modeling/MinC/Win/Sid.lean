/-!
Security identifiers, and the numbers user and group ids are made from.

A `SID8` is kept with the subauthorities that count, in their order, so that
`EqualSid`, which compares nothing behind the count, is equality. The bound of
eight is the size of the array the source keeps them in.

`ridPosix` and `ridWin` go back and forth between identifiers and numbers. They
are no inverses of each other: authorities other than the fifth, services and
subauthorities from one hundred on are folded together. Whatever is claimed of
an id that was set and read back has to go through both.
-/

namespace MinC.Win

/-- A security identifier with its counted subauthorities. -/
structure SID8 where
  revision : UInt8
  identifierAuthority : Vector UInt8 6
  subAuthority : List UInt32
  count_le : subAuthority.length ≤ 8
  deriving DecidableEq

namespace SID8

/-- Write the last counted subauthority, where there is one. -/
def setRid (sid : SID8) (rid : UInt32) : SID8 :=
  { sid with
    subAuthority := sid.subAuthority.set (sid.subAuthority.length - 1) rid
    count_le := by simpa using sid.count_le }

end SID8

/-- Same revision, authority and count, and the same subauthorities but for
the last. -/
def equalPrefixSid (a b : SID8) : Bool :=
  a.revision == b.revision && a.identifierAuthority == b.identifierAuthority &&
    a.subAuthority.length == b.subAuthority.length &&
    a.subAuthority.dropLast == b.subAuthority.dropLast

/-! ### Well-known identifiers -/

/-- An identifier of the first revision; only the last byte of its authority is used. -/
def mkSid (authority : UInt8) (subAuthority : List UInt32)
    (h : subAuthority.length ≤ 8) : SID8 where
  revision := 1
  identifierAuthority := #v[0, 0, 0, 0, 0, authority]
  subAuthority := subAuthority
  count_le := h

def sidSystem : SID8 := mkSid 5 [18] (by simp)

def sidTrustedInstaller : SID8 :=
  mkSid 5 [80, 0x38FB89B5, 0xCBC28419, 0x6D236C5C, 0x6E770057, 0x876402C0] (by simp)

def rootUid : UInt32 := 500000018

def rootGid : UInt32 := 532000544

def domainGroupRidUsers : UInt32 := 513

def securityMachineDomainRid : UInt32 := 21

def securityBuiltinDomain : UInt32 := 32

def securityNtServiceRid : UInt32 := 80

def domainNtServiceRidInstaller : UInt32 := 0x876402C0

/-- `__SidNone`, which is set up once as the machine's identifier with the
users' group in its last place. -/
def sidNone (machine : SID8) : SID8 := machine.setRid domainGroupRidUsers

/-! ### Numbers -/

/-- The number of an identifier: authority, first and last subauthority side
by side, in the arithmetic of C's `int`. -/
def ridPosix (machine sid : SID8) : UInt32 :=
  let bAuth := (sid.identifierAuthority[5]).toUInt32
  let number (bAuth ulSubAuth ulRid : UInt32) : UInt32 :=
    bAuth * 100000000 + ulSubAuth * 1000000 + ulRid
  match sid.subAuthority with
  | [] => number 5 21 domainGroupRidUsers
  | ulSubAuth :: rest =>
      let ulRid := rest.getLastD ulSubAuth
      if ulSubAuth = securityMachineDomainRid then
        if equalPrefixSid sid machine then number bAuth ulSubAuth ulRid
        else number 6 ulSubAuth ulRid
      else if rest = [] then number bAuth 0 ulRid
      else if ulSubAuth = securityNtServiceRid then number 0 0 ulRid
      else number bAuth ulSubAuth ulRid

/-- The identifier a number stands for. Numbers that are negative as an `int`,
and those without an authority, stand for no one. -/
def ridWin (machine : SID8) (rid : UInt32) : SID8 :=
  let ulRid := rid % 1000000
  let bAuth := (rid / 100000000).toUInt8
  let ulSubAuth := (rid / 1000000) % 100
  if rid = domainNtServiceRidInstaller then sidTrustedInstaller
  else if 0x80000000 ≤ rid ∨ bAuth = 0 then sidNone machine
  else if ulSubAuth = 0 then mkSid bAuth [rid % 100000000] (by simp)
  else if ulSubAuth = securityMachineDomainRid then machine.setRid ulRid
  else if ulSubAuth = securityBuiltinDomain then mkSid 5 [securityBuiltinDomain, ulRid] (by simp)
  else mkSid bAuth [ulSubAuth, ulRid] (by simp)

end MinC.Win
