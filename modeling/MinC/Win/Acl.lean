import MinC.Lib.Bits
import MinC.Lib.Memory
import MinC.Win.Sid
import Mathlib.Tactic.SplitIfs

/-!
Access control lists.

A list has entries of many types, of which those that allow access to somebody
matter here. The identifier in an entry may have more subauthorities than a
`SID8` has room for.
-/

namespace MinC.Win

open MinC.Lib

/-! ### Identifiers in lists -/

/-- An identifier with as many subauthorities as Windows allows. -/
structure Sid where
  revision : UInt8
  identifierAuthority : Vector UInt8 6
  subAuthority : List UInt32
  count_le : subAuthority.length ≤ 15
  deriving DecidableEq

/-- `GetLengthSid`. -/
def Sid.length (sid : Sid) : Nat := 8 + 4 * sid.subAuthority.length

def SID8.toSid (sid : SID8) : Sid where
  revision := sid.revision
  identifierAuthority := sid.identifierAuthority
  subAuthority := sid.subAuthority
  count_le := Nat.le_trans sid.count_le (by decide)

/-- The identifier as a `SID8`, if there is room for it. -/
def Sid.toSid8 (sid : Sid) : Option SID8 :=
  if h : sid.subAuthority.length ≤ 8 then
    some ⟨sid.revision, sid.identifierAuthority, sid.subAuthority, h⟩
  else none

@[simp] theorem SID8.toSid8_toSid (sid : SID8) : sid.toSid.toSid8 = some sid :=
  dif_pos sid.count_le

/-- The length of a SID that has room in a `SID8`. -/
theorem Sid.toSid8_eq_some_iff (sid : Sid) (sid8 : SID8) :
    sid.toSid8 = some sid8 ↔ sid = sid8.toSid := by
  constructor
  · intro h
    unfold Sid.toSid8 at h
    split_ifs at h
    cases h
    rfl
  · rintro rfl
    exact sid8.toSid8_toSid

/-- `EqualPrefixSid`. -/
def Sid.equalPrefix (a b : Sid) : Bool :=
  a.revision == b.revision && a.identifierAuthority == b.identifierAuthority &&
    a.subAuthority.length == b.subAuthority.length &&
    a.subAuthority.dropLast == b.subAuthority.dropLast

theorem Sid.toSid8_ne_none_iff (sid : Sid) : sid.toSid8 ≠ none ↔ sid.subAuthority.length ≤ 8 := by
  unfold Sid.toSid8
  split_ifs with h
  · exact iff_of_true (Option.some_ne_none _) h
  · exact iff_of_false (fun hne => hne rfl) h

/-- What is kept of an identifier is the identifier, if there is room for it. -/
theorem Sid.map_toSid8_iff (sid : Sid) :
    sid.toSid8.map SID8.toSid = some sid ↔ sid.subAuthority.length ≤ 8 := by
  rw [← sid.toSid8_ne_none_iff, Option.map_eq_some_iff, Option.ne_none_iff_exists']
  constructor
  · rintro ⟨sid8, hsome, _⟩
    exact ⟨sid8, hsome⟩
  · rintro ⟨sid8, hsome⟩
    exact ⟨sid8, hsome, ((sid.toSid8_eq_some_iff sid8).mp hsome).symm⟩

/-! ### Identifiers in memory -/

/-- The bytes of an identifier. -/
def Sid.bytes (sid : Sid) : List UInt8 :=
  sid.revision :: UInt8.ofNat sid.subAuthority.length :: sid.identifierAuthority.toList ++
    sid.subAuthority.flatMap fun subAuthority => leBytes 4 subAuthority.toNat

/-- `CopySid` with the length of the source, as which the callers pass it. -/
def copySid (mem : Memory) (dest : Nat) (sid : Sid) : Memory := fun b =>
  if dest ≤ b ∧ b < dest + sid.length then sid.bytes.getD (b - dest) 0 else mem b

/-- `sizeof(SID8)`. -/
def sid8Size : Nat := 40

def sidCount (mem : Memory) (a : Nat) : Nat := (mem (a + 1)).toNat

theorem length_sidCount (mem : Memory) (a : Nat) (f : Nat → UInt32) (h : sidCount mem a ≤ 8) :
    ((List.range (sidCount mem a)).map f).length ≤ 8 := by
  rw [List.length_map, List.length_range]
  exact h

/-- The identifier at an address, if there is room for it in a `SID8`. -/
def sid8At (mem : Memory) (a : Nat) : Option SID8 :=
  if h : sidCount mem a ≤ 8 then
    some ⟨mem a, #v[mem (a + 2), mem (a + 3), mem (a + 4), mem (a + 5), mem (a + 6), mem (a + 7)],
      (List.range (sidCount mem a)).map fun k => UInt32.ofNat (loadWord mem (a + 8 + 4 * k)),
      length_sidCount mem a _ h⟩
  else none

/-- The same identifier is read at an address. -/
def SameSid (mem mem' : Memory) (a : Nat) : Prop :=
  ∀ b, a ≤ b → b < a + 8 + 4 * sidCount mem a → mem' b = mem b

theorem copySid_inside (mem : Memory) {dest b : Nat} {sid : Sid} (h : b < sid.length) :
    copySid mem dest sid (dest + b) = sid.bytes.getD b 0 := by
  rw [copySid, if_pos ⟨Nat.le_add_right dest b, Nat.add_lt_add_left h dest⟩,
    Nat.add_sub_cancel_left]

theorem copySid_start (mem : Memory) {b : Nat} {sid : Sid} (h : b < sid.length) :
    copySid mem 0 sid b = sid.bytes.getD b 0 := by
  rw [copySid, if_pos ⟨Nat.zero_le b, by rwa [Nat.zero_add]⟩, Nat.sub_zero]

theorem copySid_outside (mem : Memory) {dest b : Nat} {sid : Sid}
    (h : b < dest ∨ dest + sid.length ≤ b) : copySid mem dest sid b = mem b :=
  if_neg (by omega)

theorem Sid.bytes_subAuthority (sid : Sid) {k i : Nat} (hk : k < sid.subAuthority.length)
    (hi : i < 4) :
    sid.bytes.getD (8 + 4 * k + i) 0 =
      (leBytes 4 (sid.subAuthority.get ⟨k, hk⟩).toNat).getD i 0 := by
  have hhead : (sid.revision :: UInt8.ofNat sid.subAuthority.length ::
      sid.identifierAuthority.toList).length = 8 := by
    rw [List.length_cons, List.length_cons, Vector.length_toList]
  have hbehind : 8 + 4 * k + i - 8 = 4 * k + i := by omega
  rw [Sid.bytes, List.getD_append_right _ _ _ _ (by rw [hhead]; omega), hhead, hbehind]
  exact getD_flatMap_leBytes sid.subAuthority hk hi

/-- The authority stands behind the count. -/
theorem Sid.bytes_authority (sid : Sid) :
    #v[sid.bytes.getD 2 0, sid.bytes.getD 3 0, sid.bytes.getD 4 0, sid.bytes.getD 5 0,
      sid.bytes.getD 6 0, sid.bytes.getD 7 0] = sid.identifierAuthority := by
  obtain ⟨revision, ⟨⟨authority⟩, hsize⟩, subAuthority, hcount⟩ := sid
  match authority, hsize with
  | [a, b, c, d, e, f], _ => rfl

theorem sidCount_copySid (mem : Memory) (a : Nat) (sid : Sid) :
    sidCount (copySid mem a sid) a = sid.subAuthority.length := by
  have hcount := sid.count_le
  rw [sidCount, copySid_inside mem (by rw [Sid.length]; omega)]
  show (UInt8.ofNat sid.subAuthority.length).toNat = _
  rw [UInt8.toNat_ofNat']
  omega

/-- What is copied is read back, if there is room for it. -/
theorem sid8At_copySid (mem : Memory) (a : Nat) (sid : Sid) :
    sid8At (copySid mem a sid) a = sid.toSid8 := by
  have hcount := sidCount_copySid mem a sid
  have hhead : ∀ b, b < 8 → copySid mem a sid (a + b) = sid.bytes.getD b 0 := fun b hb =>
    copySid_inside mem (by rw [Sid.length]; omega)
  have hword : ∀ k (hk : k < sid.subAuthority.length),
      loadWord (copySid mem a sid) (a + 8 + 4 * k) = (sid.subAuthority.get ⟨k, hk⟩).toNat := by
    intro k hk
    refine loadWord_of_bytes (UInt32.toNat_lt _) fun i hi => ?_
    rw [← sid.bytes_subAuthority hk hi, Nat.add_assoc a, Nat.add_assoc a]
    exact copySid_inside mem (by rw [Sid.length]; omega)
  have hsubs : ((List.range (sidCount (copySid mem a sid) a)).map fun k =>
      UInt32.ofNat (loadWord (copySid mem a sid) (a + 8 + 4 * k))) = sid.subAuthority := by
    rw [hcount]
    refine List.ext_getElem (by rw [List.length_map, List.length_range]) fun k _ hk => ?_
    rw [List.getElem_map, List.getElem_range, hword k hk, UInt32.ofNat_toNat]
    rfl
  have hauthority : #v[copySid mem a sid (a + 2), copySid mem a sid (a + 3),
      copySid mem a sid (a + 4), copySid mem a sid (a + 5), copySid mem a sid (a + 6),
      copySid mem a sid (a + 7)] = sid.identifierAuthority := by
    rw [hhead 2 (by omega), hhead 3 (by omega), hhead 4 (by omega), hhead 5 (by omega),
      hhead 6 (by omega), hhead 7 (by omega)]
    exact sid.bytes_authority
  have hrevision : copySid mem a sid a = sid.revision := hhead 0 (by omega)
  rw [sid8At, Sid.toSid8]
  by_cases hfits : sid.subAuthority.length ≤ 8
  · rw [dif_pos (by rw [hcount]; exact hfits), dif_pos hfits]
    simp only [hsubs, hauthority, hrevision]
  · rw [dif_neg (by rw [hcount]; exact hfits), dif_neg hfits]

theorem SameSid.sidCount {mem mem' : Memory} {a : Nat} (h : SameSid mem mem' a) :
    sidCount mem' a = sidCount mem a := by
  rw [Win.sidCount, Win.sidCount, h (a + 1) (by omega) (by omega)]

/-- An identifier that is the same in two places is read as the same. -/
theorem SameSid.sid8At {mem mem' : Memory} {a : Nat} (h : SameSid mem mem' a) :
    sid8At mem' a = sid8At mem a := by
  have hword : ∀ k < Win.sidCount mem a,
      loadWord mem' (a + 8 + 4 * k) = loadWord mem (a + 8 + 4 * k) := fun k hk =>
    loadWord_congr fun i hi => h _ (by omega) (by omega)
  have hsubs : ((List.range (Win.sidCount mem' a)).map fun k =>
      UInt32.ofNat (loadWord mem' (a + 8 + 4 * k))) =
        (List.range (Win.sidCount mem a)).map fun k =>
          UInt32.ofNat (loadWord mem (a + 8 + 4 * k)) := by
    rw [h.sidCount]
    exact List.map_congr_left fun k hk => by rw [hword k (List.mem_range.mp hk)]
  rw [Win.sid8At, Win.sid8At]
  by_cases hfits : Win.sidCount mem a ≤ 8
  · rw [dif_pos (by rw [h.sidCount]; exact hfits), dif_pos hfits]
    simp only [hsubs, h a (by omega) (by omega), h (a + 2) (by omega) (by omega),
      h (a + 3) (by omega) (by omega), h (a + 4) (by omega) (by omega),
      h (a + 5) (by omega) (by omega), h (a + 6) (by omega) (by omega),
      h (a + 7) (by omega) (by omega)]
  · rw [dif_neg (by rw [h.sidCount]; exact hfits), dif_neg hfits]

/-- Nothing behind the bytes of a `SID8` is looked at. -/
theorem sid8At_congr {mem mem' : Memory} {a : Nat}
    (h : ∀ b, a ≤ b → b < a + sid8Size → mem' b = mem b) : sid8At mem' a = sid8At mem a := by
  have hcount : sidCount mem' a = sidCount mem a := by
    rw [sidCount, sidCount, h (a + 1) (by omega) (by rw [sid8Size]; omega)]
  by_cases hfits : sidCount mem a ≤ 8
  · have hsame : SameSid mem mem' a := fun b hb hlt => h b hb (by rw [sid8Size]; omega)
    exact hsame.sid8At
  · rw [sid8At, sid8At, dif_neg (by rw [hcount]; exact hfits), dif_neg hfits]

def sidAdmins : SID8 := mkSid 5 [32, 544] (by simp)
def sidAuthenticated : SID8 := mkSid 5 [11] (by simp)

/-! ### Entries -/

def accessAllowedAceType : UInt8 := 0

def objectInheritAce : UInt8 := 0x01
def containerInheritAce : UInt8 := 0x02
def inheritOnlyAce : UInt8 := 0x08
def inheritedAce : UInt8 := 0x10
def allInheritAce : UInt8 := objectInheritAce ||| containerInheritAce

def fileReadData : UInt32 := 0x0001
def fileWriteData : UInt32 := 0x0002
def fileAppendData : UInt32 := 0x0004
def fileReadEa : UInt32 := 0x0008
def fileWriteEa : UInt32 := 0x0010
def fileExecute : UInt32 := 0x0020
def fileReadAttributes : UInt32 := 0x0080
def deleteAccess : UInt32 := 0x00010000
def readControl : UInt32 := 0x00020000
def writeDac : UInt32 := 0x00040000
def synchronize : UInt32 := 0x00100000

/-- An entry. What is behind its identifier is part of it. -/
structure Ace where
  aceType : UInt8
  aceFlags : UInt8
  mask : UInt32
  sid : Sid
  rest : List UInt8
  deriving DecidableEq

/-- What an entry has before its identifier: the header and the mask. -/
def aclAcesize : Nat := 8

def Ace.size (ace : Ace) : Nat := aclAcesize + ace.sid.length + ace.rest.length

/-- A descriptor. Its list may be absent, and may be a null pointer. -/
structure SecurityDescriptor where
  owner : Sid
  group : Sid
  dacl : Option (Option (List Ace))

end MinC.Win
