import MinC.Lib.Builders
import MinC.Win.Acl

/-!
The groups of a token, and what becomes of them when others are asked for.

Whoever asks for groups gets a token that has them in the place of those of
three families: accounts of the machine, the groups that are built in, and the
authorities of the system. The groups of the token that there was are gone
through in their order. Where the first subauthority is not that of the group
before, either the groups that are asked for and have it are added, or, if the
group is of none of the families, the group is.
-/

namespace MinC.Win

open MinC.Lib

def seGroupMandatory : UInt32 := 0x1
def seGroupEnabledByDefault : UInt32 := 0x2
def seGroupEnabled : UInt32 := 0x4
def seGroupOwner : UInt32 := 0x8

def sidBuiltinAuth : SID8 := mkSid 5 [32, 0] (by simp)
def sidNTAuth : SID8 := mkSid 5 [0] (by simp)

/-- `SID_AND_ATTRIBUTES`. -/
structure TokenGroup where
  sid : Sid
  attributes : UInt32
  deriving DecidableEq

/-- The first subauthority. An identifier without one is not that of a group. -/
def Sid.subAuthority0 (sid : Sid) : UInt32 := sid.subAuthority.headD 0

def SID8.subAuthority0 (sid : SID8) : UInt32 := sid.subAuthority.headD 0

/-- The entries that have been stored so far, with those of the groups that have the first
subauthority behind them. -/
def capAddGroups (entries : List TokenGroup) (subAuth : UInt32) : List SID8 → UInt32 →
    List TokenGroup
  | [], _ => entries
  | group :: groups, attribs =>
      capAddGroups
        (if group.subAuthority0 = subAuth then entries ++ [⟨group.toSid, seGroupEnabled ||| attribs⟩]
        else entries)
        subAuth groups attribs

/-- The entry of the token's groups where the first subauthority changes. -/
def capMergeEntry (machine : SID8) (groups : List SID8) (entries : List TokenGroup)
    (group : TokenGroup) : List TokenGroup :=
  let ulSubAuth := group.sid.subAuthority0
  if group.sid.equalPrefix machine.toSid then
    capAddGroups entries ulSubAuth groups seGroupMandatory
  else if group.sid.equalPrefix sidBuiltinAuth.toSid then
    capAddGroups entries ulSubAuth groups seGroupOwner
  else if group.sid.equalPrefix sidNTAuth.toSid then
    capAddGroups entries ulSubAuth groups seGroupEnabledByDefault
  else entries ++ [group]

/-- The entries that are stored. There is room for as many as `mergeRoom` says. -/
def capMergeGroups (machine : SID8) (source : List TokenGroup) (groups : List SID8) :
    List TokenGroup :=
  onChanges (fun group => group.sid.subAuthority0) (capMergeEntry machine groups) 0xFFFFFFFF source
    []

def mergeRoom (source : List TokenGroup) (groups : List SID8) : Nat :=
  source.length + groups.length

/-! ### Families -/

/-- The attributes that groups get in the place of one of a family. -/
def familyAttribs (machine : SID8) (sid : Sid) : Option UInt32 :=
  if sid.equalPrefix machine.toSid then some seGroupMandatory
  else if sid.equalPrefix sidBuiltinAuth.toSid then some seGroupOwner
  else if sid.equalPrefix sidNTAuth.toSid then some seGroupEnabledByDefault
  else none

/-- The identifier is of one of the families that are replaced. -/
def Replaced (machine : SID8) (sid : Sid) : Prop := familyAttribs machine sid ≠ none

instance decidableReplaced (machine : SID8) (sid : Sid) : Decidable (Replaced machine sid) :=
  inferInstanceAs (Decidable (familyAttribs machine sid ≠ none))

/-- The groups where the first subauthority is not that of the group before. -/
def runStarts (source : List TokenGroup) : List TokenGroup :=
  changes (fun group => group.sid.subAuthority0) 0xFFFFFFFF source

/-- What is added for a group that starts a run. -/
def startEntries (machine : SID8) (groups : List SID8) (group : TokenGroup) : List TokenGroup :=
  match familyAttribs machine group.sid with
  | some attribs =>
      (groups.filter fun g => g.subAuthority0 == group.sid.subAuthority0).map fun g =>
        ⟨g.toSid, seGroupEnabled ||| attribs⟩
  | none => [group]

section
variable {machine : SID8} {source : List TokenGroup} {groups : List SID8}

theorem capAddGroups_eq (entries : List TokenGroup) (subAuth attribs : UInt32)
    (groups : List SID8) :
    capAddGroups entries subAuth groups attribs =
      entries ++ (groups.filter fun g => g.subAuthority0 == subAuth).map fun g =>
        ⟨g.toSid, seGroupEnabled ||| attribs⟩ := by
  induction groups generalizing entries with
  | nil => simp [capAddGroups]
  | cons g groups ih =>
      rw [capAddGroups, ih, List.filter_cons]
      split_ifs with hsame <;> simp_all

theorem capMergeEntry_eq (entries : List TokenGroup) (group : TokenGroup) :
    capMergeEntry machine groups entries group =
      entries ++ startEntries machine groups group := by
  rw [capMergeEntry, startEntries, familyAttribs]
  split_ifs
  · exact capAddGroups_eq _ _ _ _
  · exact capAddGroups_eq _ _ _ _
  · exact capAddGroups_eq _ _ _ _
  · rfl

theorem capMergeGroups_eq :
    capMergeGroups machine source groups =
      (runStarts source).flatMap (startEntries machine groups) := by
  have hact : capMergeEntry machine groups =
      fun entries group => entries ++ startEntries machine groups group := by
    funext entries group
    exact capMergeEntry_eq entries group
  rw [capMergeGroups, onChanges_eq_foldl, hact, foldl_append_eq, List.nil_append, runStarts]

end

end MinC.Win
