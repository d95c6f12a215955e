import MinC.Vfs.AclStat
import MinC.Vfs.AclChown

/-!
The list of a new file.

A new file inherits the entries of its parent that stand for classes, and has
the permissions it is made with. If there is none for others, one is added at
the end, which is where the list is read first. What adds it does not tell where
the block is that it made to grow.
-/

namespace MinC.Vfs

open MinC.Lib MinC.Win

section
variable (heap : WinHeap) (takes : UInt8 → Bool) (moves : Nat → Bool) (machine owner : SID8)
  (mode : WinMode) (flags : UInt8)

/-- The flags of an entry, with others for what is to inherit it. -/
def createFlags (aceFlags : UInt8) : UInt8 := (aceFlags &&& ~~~allInheritAce) + flags

/-- Users of the machine make room for the owner. -/
def createOwner (t : AclType) (entry : Ace) : Ace :=
  if t = .entry .user ∧ entry.sid.equalPrefix machine.toSid = true then
    { entry with sid := owner.toSid, rest := [] }
  else entry

/-- What is made of an entry of the parent, if anything. -/
def createEntry (t : AclType) (entry : Ace) : Option Ace :=
  match t with
  | .entry c => some { createOwner machine owner t entry with
      mask := chmodMask entry.mask (mode.of c)
      aceFlags := createFlags flags entry.aceFlags }
  | .access => some { entry with aceFlags := createFlags flags entry.aceFlags }
  | _ => none

/-- The entry for others. -/
def otherEntry : Ace where
  aceType := accessAllowedAceType
  aceFlags := inheritedAce ||| flags
  mask := readControl ||| synchronize ||| (fileReadAttributes ||| fileReadEa ||| mode.other)
  sid := sidAuthenticated.toSid
  rest := []

/-- `AclAddEntry`, which adds at the end of a list. The list of the caller is gone
if the block moves, and has no more room than it had if the block cannot grow. -/
def aclAddEntry (acl : AclBlock) (entry : Ace) : Option AclBlock :=
  let acl := acl.counting entry
  match grown heap acl.ulSize acl.aclSize.toNat with
  | some ulSize =>
      if acl.ulSize < ulSize ∧ moves ulSize then none
      else some ({ acl with ulSize := ulSize }.addAce takes none entry)
  | none => some (acl.addAce takes none entry)

/-- `vfs_acl_create`: the new list in its block, and the descriptor it is put in,
unless it is no longer where the descriptor says. -/
def vfsAclCreate (source result : SecurityDescriptor) : Option (AclBlock × SecurityDescriptor) :=
  let made := aclLoop
    (fun t entry acl =>
      match createEntry machine owner mode flags t entry with
      | some entry => acl.addFirst heap takes entry
      | none => acl)
    (newAcl heap) (SecurityDescriptor.entries source)
  let acl := if made.2.other then some made.1
    else aclAddEntry heap takes moves made.1 (otherEntry mode flags)
  acl.map fun acl => (acl, { result with dacl := source.dacl.map fun _ => some acl.entries })

/-! ### The new list -/

/-- What is inherited. -/
def createEntries (entries : List Ace) : List Ace :=
  (aclTyped entries).filterMap fun typed => createEntry machine owner mode flags typed.1 typed.2

/-- What is added. -/
def addedEntries (entries : List Ace) : List Ace :=
  if (aclSeen entries).other then [] else [otherEntry mode flags]

def createdEntries (entries : List Ace) : List Ace :=
  createEntries machine owner mode flags entries ++ addedEntries mode flags entries

theorem vfsAclCreate_eq (source result : SecurityDescriptor) :
    vfsAclCreate heap takes moves machine owner mode flags source result =
      (let entries := SecurityDescriptor.entries source
       let made := buildAcl heap takes (createEntries machine owner mode flags entries)
       (if (aclSeen entries).other then some made
          else aclAddEntry heap takes moves made (otherEntry mode flags)).map
        fun acl => (acl, { result with dacl := source.dacl.map fun _ => some acl.entries })) := by
  have hmade : ∀ typed : List (AclType × Ace), typed.foldr (fun typed acl =>
        match createEntry machine owner mode flags typed.1 typed.2 with
        | some entry => AclBlock.addFirst heap takes acl entry
        | none => acl) (newAcl heap) =
      buildAcl heap takes
        (typed.filterMap fun typed => createEntry machine owner mode flags typed.1 typed.2) := by
    intro typed
    induction typed with
    | nil => rfl
    | cons typed rest ih =>
        rw [List.foldr_cons, List.filterMap_cons, ih]
        cases createEntry machine owner mode flags typed.1 typed.2 <;> rfl
  unfold vfsAclCreate createEntries
  dsimp only
  rw [aclLoop_result, aclLoop_seen, hmade]

/-! ### Classes of the new list -/

section
variable {mode flags} (hmode : mode.Plain) (hflags : flags &&& ~~~allInheritAce = 0)
include hflags

theorem flags_inheritOnly : flags &&& inheritOnlyAce = 0 := by
  rw [show inheritOnlyAce = ~~~allInheritAce &&& inheritOnlyAce by decide, ← UInt8.and_assoc,
    hflags, UInt8.zero_and]

/-- What is inherited is not only to inherit. -/
theorem createFlags_inheritOnly (aceFlags : UInt8) :
    createFlags flags aceFlags &&& inheritOnlyAce = aceFlags &&& inheritOnlyAce := by
  have hdisjoint : aceFlags &&& ~~~allInheritAce &&& flags = 0 := by
    rw [UInt8.and_assoc, UInt8.and_comm _ flags, hflags, UInt8.and_zero]
  rw [createFlags, u8_add_eq_or hdisjoint, u8_and_or_right, flags_inheritOnly hflags,
    UInt8.or_zero, UInt8.and_assoc]
  rfl

include hmode

theorem createEntry_alike {t : AclType} {entry entry' : Ace}
    (h : createEntry machine owner mode flags t entry = some entry') : Alike entry' entry := by
  have hinherit : ∀ made : Ace, made.aceFlags = createFlags flags entry.aceFlags →
      inheritOnly made = inheritOnly entry := fun made hmade => by
    rw [inheritOnly, inheritOnly, hmade, createFlags_inheritOnly hflags]
  cases t with
  | entry c =>
      cases h
      refine ⟨?_, hinherit _ rfl, chmodMask_flag (hmode c) (by decide),
        chmodMask_flag (hmode c) (by decide), chmodMask_flag (hmode c) (by decide)⟩
      show (createOwner machine owner (.entry c) entry).aceType = entry.aceType
      unfold createOwner
      split_ifs <;> rfl
  | access =>
      cases h
      exact ⟨rfl, hinherit _ rfl, rfl, rfl, rfl⟩
  | none => cases h
  | default => cases h

omit hflags in
/-- The mask for others is one that was changed. -/
theorem otherEntry_mask :
    (otherEntry mode flags).mask =
      chmodMask (readControl ||| synchronize ||| (fileReadAttributes ||| fileReadEa))
        mode.other := by
  have hnone : (readControl ||| synchronize ||| (fileReadAttributes ||| fileReadEa)) &&&
      mode.other = 0 := by
    have hperms : mode.other &&& ~~~winSIrwx = 0 := hmode .other
    rw [show readControl ||| synchronize ||| (fileReadAttributes ||| fileReadEa) =
      (readControl ||| synchronize ||| (fileReadAttributes ||| fileReadEa)) &&& ~~~winSIrwx by
        decide, UInt32.and_assoc, UInt32.and_comm _ mode.other, hperms, UInt32.and_zero]
  rw [chmodMask, show (readControl ||| synchronize ||| (fileReadAttributes ||| fileReadEa)) &&&
    ~~~winSIrwx = readControl ||| synchronize ||| (fileReadAttributes ||| fileReadEa) by decide,
    u32_add_eq_or hnone]
  simp only [otherEntry, UInt32.or_assoc]

/-- The entry that is added is that of others when it is met first. -/
theorem otherEntry_type :
    aclOwnerType (otherEntry mode flags) TypeMask.zero =
      (.entry .other, TypeMask.zero.add .other) := by
  have hinherit : inheritOnly (otherEntry mode flags) = false := by
    rw [inheritOnly, otherEntry, u8_and_or_right, flags_inheritOnly hflags]
    rfl
  have hflag : ∀ flag : UInt32, flag &&& winSIrwx = 0 →
      flagSet (otherEntry mode flags).mask flag =
        flagSet (readControl ||| synchronize ||| (fileReadAttributes ||| fileReadEa)) flag :=
    fun flag hperm => (congrArg (flagSet · flag) (otherEntry_mask hmode)).trans
      (chmodMask_flag (hmode .other) hperm)
  have htype : ¬ (otherEntry mode flags).aceType ≠ accessAllowedAceType := not_not.mpr rfl
  rw [aclOwnerType, hinherit, if_neg htype, if_neg Bool.false_ne_true, aclClass,
    hflag writeDac (by decide), hflag deleteAccess (by decide), hflag readControl (by decide)]
  rfl

/-- The new list, with the types that its entries are read with. -/
theorem aclTyped_createdEntries (entries : List Ace) :
    aclTyped (createdEntries machine owner mode flags entries) =
        (aclTyped entries).filterMap (fun typed =>
          (createEntry machine owner mode flags typed.1 typed.2).map fun entry =>
            (typed.1, entry)) ++
        (addedEntries mode flags entries).map (fun entry => (.entry .other, entry)) ∧
      aclSeen (createdEntries machine owner mode flags entries) =
        (aclSeen entries).add .other := by
  have hsome : ∀ t entry entry', createEntry machine owner mode flags t entry = some entry' →
      Alike entry' entry := fun _ _ _ => createEntry_alike machine owner hmode hflags
  have hnone : ∀ c entry, createEntry machine owner mode flags (.entry c) entry ≠ none :=
    fun _ _ => Option.some_ne_none _
  unfold createdEntries addedEntries createEntries
  by_cases hother : (aclSeen entries).other = true
  · have hadd : (aclSeen entries).add .other = aclSeen entries := by
      rw [TypeMask.add, ← hother]
    rw [if_pos hother, hadd]
    exact aclTyped_filterMap_append id rfl hsome hnone entries fun _ _ _ => rfl
  · have hextra : aclSeen [otherEntry mode flags] = TypeMask.zero.add .other := by
      rw [aclSeen, aclSeen, otherEntry_type hmode hflags]
    have htyped : aclTyped [otherEntry mode flags] =
        [(.entry .other, otherEntry mode flags)] := by
      rw [aclTyped, aclTyped, aclSeen, otherEntry_type hmode hflags]
    rw [if_neg hother, List.map_singleton, ← htyped]
    refine aclTyped_filterMap_append (fun seen => seen.add .other) hextra hsome hnone entries
      fun entry rest hsuffix => aclOwnerType_add_other ?_
    -- an entry for others would have been met in the whole list too
    have hmissing := mt (has_aclSeen_suffix hsuffix (c := .other)) hother
    exact Bool.eq_false_iff.mpr hmissing

end

/-- An entry that is read as that of a class has the permissions of the class. -/
theorem createdEntries_mask {mode : WinMode} {flags : UInt8} (hmode : mode.Plain)
    (hflags : flags &&& ~~~allInheritAce = 0) {entries : List Ace} {c : AclClass} {entry : Ace}
    (h : (AclType.entry c, entry) ∈
      aclTyped (createdEntries machine owner mode flags entries)) :
    ∃ mask, entry.mask = chmodMask mask (mode.of c) := by
  rw [(aclTyped_createdEntries machine owner hmode hflags entries).1] at h
  rcases List.mem_append.mp h with hkept | hadded
  · obtain ⟨⟨t, old⟩, _, hmade⟩ := List.mem_filterMap.mp hkept
    obtain ⟨new, hnew, heq⟩ := Option.map_eq_some_iff.mp hmade
    obtain ⟨rfl, rfl⟩ := Prod.mk.inj heq
    cases hnew
    exact ⟨old.mask, rfl⟩
  · obtain ⟨added, hmem, heq⟩ := List.mem_map.mp hadded
    obtain ⟨hclass, rfl⟩ := Prod.mk.inj heq
    cases hclass
    unfold addedEntries at hmem
    split_ifs at hmem
    · exact absurd hmem List.not_mem_nil
    · rw [List.mem_singleton.mp hmem]
      exact ⟨_, otherEntry_mask hmode⟩

/-! ### Adding at the end -/

/-- There is room for one more entry where the list is, or there is after the
block grew without moving. -/
def GrowsInPlace (entries : List Ace) (entry : Ace) : Prop :=
  aclBytes (entries ++ [entry]) + headerSize ≤ blockSize heap entries ∨
    heap.grants (blockSize heap (entries ++ [entry])) = true ∧
      moves (blockSize heap (entries ++ [entry])) = false

/-- Nothing but the entry is added. -/
theorem aclAddEntry_entries {acl acl' : AclBlock} {entry : Ace}
    (h : aclAddEntry heap takes moves acl entry = some acl') :
    acl'.entries = acl.entries ++ [entry] ∨ acl'.entries = acl.entries := by
  have hadded : ∀ acl : AclBlock, (acl.addAce takes none entry).entries = acl.entries ++ [entry] ∨
      (acl.addAce takes none entry).entries = acl.entries := by
    intro acl
    unfold AclBlock.addAce insertAce
    split_ifs
    · exact .inl rfl
    · exact .inr rfl
  unfold aclAddEntry at h
  dsimp only at h
  cases hgrown : grown heap (acl.counting entry).ulSize (acl.counting entry).aclSize.toNat with
  | none =>
      rw [hgrown] at h
      cases h
      exact hadded (acl.counting entry)
  | some ulSize =>
      rw [hgrown] at h
      dsimp only at h
      split_ifs at h
      cases h
      exact hadded { acl.counting entry with ulSize := ulSize }

section
variable {heap takes} {acl : AclBlock} {entries : List Ace} {entry : Ace}

theorem complete_counting_aclSize (h : acl.Complete heap entries)
    (hsize : aclBytes (entries ++ [entry]) < 2 ^ 16) :
    (acl.counting entry).aclSize.toNat = aclBytes (entries ++ [entry]) := by
  rw [aclBytes_append, ← h.aclSize] at hsize ⊢
  exact counting_aclSize hsize

/-- An entry that has been counted is added, whatever size the block is taken to have. -/
theorem complete_addAce_entries (h : acl.Complete heap entries)
    (hsize : aclBytes (entries ++ [entry]) < 2 ^ 16) (htakes : takes entry.aceType = true)
    (ulSize : Nat) :
    ({ acl.counting entry with ulSize := ulSize }.addAce takes none entry).entries =
      entries ++ [entry] := by
  have hroom : aclBytes ({ acl.counting entry with ulSize := ulSize } : AclBlock).entries +
      entry.size ≤ ({ acl.counting entry with ulSize := ulSize } : AclBlock).aclSize.toNat := by
    rw [complete_counting_aclSize h hsize, aclBytes_append]
    exact Nat.le_of_eq (congrArg (aclBytes · + entry.size) h.entries)
  rw [addAce_entries takes hroom, if_pos htakes]
  exact congrArg (· ++ [entry]) h.entries

/-- It is inside of the block if the block has that size. -/
theorem complete_addAce_wellFormed_iff (h : acl.Complete heap entries)
    (hsize : aclBytes (entries ++ [entry]) < 2 ^ 16) (htakes : takes entry.aceType = true)
    (ulSize : Nat) :
    ({ acl.counting entry with ulSize := ulSize }.addAce takes none entry).WellFormed ↔
      aclBytes (entries ++ [entry]) + headerSize ≤ ulSize := by
  have hadded := complete_addAce_entries h hsize htakes ulSize
  constructor
  · intro hwell
    have hle := hwell.inside
    rwa [hadded, addAce_ulSize] at hle
  · intro hle
    refine ⟨?_, ?_⟩
    · rw [hadded, addAce_aclSize]
      exact complete_counting_aclSize h hsize
    · rwa [hadded, addAce_ulSize]

end

/-- An entry is added to a complete list. It is inside of the block of the caller
if that has room for it, or grows without moving. -/
theorem aclAddEntry_complete {acl : AclBlock} {entries : List Ace} {entry : Ace}
    (h : acl.Complete heap entries) (hsize : aclBytes (entries ++ [entry]) < 2 ^ 16)
    (htakes : takes entry.aceType = true) :
    (∀ acl', aclAddEntry heap takes moves acl entry = some acl' →
      acl'.entries = entries ++ [entry]) ∧
    ((∃ acl', aclAddEntry heap takes moves acl entry = some acl' ∧ acl'.WellFormed) ↔
      GrowsInPlace heap moves entries entry) := by
  have hcount := complete_counting_aclSize h hsize
  have hadded := complete_addAce_entries h hsize htakes
  have hinside := complete_addAce_wellFormed_iff h hsize htakes
  have hpages : heap.pageSize ∣ acl.ulSize := h.ulSize ▸ pages_dvd heap _
  unfold aclAddEntry GrowsInPlace
  dsimp only
  rw [hcount, ← h.ulSize]
  cases hgrown : grown heap (acl.counting entry).ulSize (aclBytes (entries ++ [entry])) with
  | none =>
      have hdenied : ¬ Granted heap acl.ulSize (aclBytes (entries ++ [entry])) := by
        intro hgranted
        have hsome := (grown_eq_some_iff heap hpages).mpr ⟨hgranted, rfl⟩
        cases hgrown.symm.trans hsome
      refine ⟨fun acl' hsome => ?_, iff_of_false ?_ ?_⟩
      · cases hsome
        exact hadded acl.ulSize
      · rintro ⟨acl', hsome, hwell⟩
        cases hsome
        exact hdenied (.inl ((hinside acl.ulSize).mp hwell))
      · rintro (hroom | ⟨hgrants, _⟩)
        · exact hdenied (.inl hroom)
        · exact hdenied (.inr hgrants)
  | some ulSize =>
      obtain ⟨hgranted, hmax⟩ := (grown_eq_some_iff heap hpages).mp hgrown
      dsimp only
      -- a block with room is not allocated again, and so does not move
      by_cases hroom : aclBytes (entries ++ [entry]) + headerSize ≤ acl.ulSize
      · have hsame : ulSize = acl.ulSize :=
          hmax.trans (Nat.max_eq_left ((pages_le_iff heap hpages).mpr hroom))
        rw [if_neg fun hmoved => Nat.lt_irrefl _ (hsame ▸ hmoved.1)]
        refine ⟨fun acl' hsome => ?_, iff_of_true ⟨_, rfl, (hinside ulSize).mpr ?_⟩ (.inl hroom)⟩
        · cases hsome
          exact hadded ulSize
        · rwa [hsame]
      · have hsize' : ulSize = blockSize heap (entries ++ [entry]) := by
          refine hmax.trans (Nat.max_eq_right ?_)
          exact Nat.le_trans (Nat.le_of_not_le hroom) (le_pages heap _)
        have hgrew : acl.ulSize < ulSize := by
          rw [hsize']
          exact Nat.lt_of_lt_of_le (Nat.lt_of_not_le hroom) (le_pages heap _)
        rw [← hsize']
        -- a block that moves leaves the list of the caller behind
        by_cases hmoves : moves ulSize = true
        · rw [if_pos ⟨hgrew, hmoves⟩]
          refine ⟨fun acl' hsome => (by cases hsome), iff_of_false ?_ ?_⟩
          · rintro ⟨acl', hsome, _⟩
            cases hsome
          · rintro (hin | ⟨_, hstays⟩)
            · exact hroom hin
            · rw [hmoves] at hstays
              cases hstays
        · rw [if_neg fun hmoved => hmoves hmoved.2]
          refine ⟨fun acl' hsome => ?_, iff_of_true ⟨_, rfl, (hinside ulSize).mpr ?_⟩
            (.inr ⟨?_, Bool.eq_false_iff.mpr hmoves⟩)⟩
          · cases hsome
            exact hadded ulSize
          · rw [hsize']
            exact le_pages heap _
          · rw [hsize']
            exact hgranted.resolve_left hroom

/-! ### What is inherited -/

/-- The entries of a list that stand for classes. -/
def classified (entries : List Ace) : List (AclType × Ace) :=
  (aclTyped entries).filter fun typed => typed.1 ≠ .none ∧ typed.1 ≠ .default

/-- An entry that is inherited: users of the machine make room for the owner, and
only the entries of the classes have other permissions. -/
structure Inherited (typed : AclType × Ace) (entry : Ace) : Prop where
  aceType : entry.aceType = typed.2.aceType
  sid : entry.sid =
    if typed.1 = .entry .user ∧ typed.2.sid.equalPrefix machine.toSid = true then owner.toSid
    else typed.2.sid
  kept : entry.mask &&& ~~~winSIrwx = typed.2.mask &&& ~~~winSIrwx
  access : typed.1 = .access → entry.mask = typed.2.mask

theorem createEntry_inherited {mode : WinMode} (hmode : mode.Plain) {typed : AclType × Ace}
    {entry : Ace} (h : createEntry machine owner mode flags typed.1 typed.2 = some entry) :
    Inherited machine owner typed entry := by
  obtain ⟨t, old⟩ := typed
  cases t with
  | entry c =>
      cases h
      refine ⟨?_, ?_, (chmodMask_perms (hmode c)).2, fun h => by cases h⟩
      · show (createOwner machine owner (.entry c) old).aceType = old.aceType
        unfold createOwner
        split_ifs <;> rfl
      · show (createOwner machine owner (.entry c) old).sid = _
        unfold createOwner
        split_ifs <;> rfl
  | access =>
      cases h
      exact ⟨rfl, (if_neg fun h => by cases h.1).symm, rfl, fun _ => rfl⟩
  | none => cases h
  | default => cases h

/-- What stands for a class is inherited, in its order. -/
theorem createEntries_inherited {mode : WinMode} (hmode : mode.Plain) (entries : List Ace) :
    List.Forall₂ (Inherited machine owner) (classified entries)
      (createEntries machine owner mode flags entries) := by
  unfold classified createEntries
  induction aclTyped entries with
  | nil => exact .nil
  | cons typed rest ih =>
      rw [List.filter_cons, List.filterMap_cons]
      cases hmade : createEntry machine owner mode flags typed.1 typed.2 with
      | some entry =>
          have hkept : typed.1 ≠ .none ∧ typed.1 ≠ .default := by
            constructor <;> intro htype <;> rw [htype] at hmade <;> cases hmade
          rw [if_pos (decide_eq_true hkept)]
          exact .cons (createEntry_inherited machine owner flags hmode hmade) ih
      | none =>
          have hleft : ¬ (typed.1 ≠ .none ∧ typed.1 ≠ .default) := by
            obtain ⟨t, old⟩ := typed
            cases t with
            | none => exact fun h => h.1 rfl
            | default => exact fun h => h.2 rfl
            | entry c => cases hmade
            | access => cases hmade
          rw [if_neg (by simpa using hleft)]
          exact ih

theorem createEntries_aceType {mode : WinMode} (hmode : mode.Plain) {entries : List Ace}
    {entry : Ace} (h : entry ∈ createEntries machine owner mode flags entries) :
    entry.aceType = accessAllowedAceType := by
  obtain ⟨⟨t, old⟩, hold, hmade⟩ := List.mem_filterMap.mp h
  have hinherited := createEntry_inherited machine owner flags hmode hmade
  rw [hinherited.aceType]
  refine aceType_of_aclTyped hold fun htype => ?_
  subst htype
  cases hmade

end

end MinC.Vfs
