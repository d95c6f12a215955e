import MinC.Lib.Builders
import MinC.Win.Acl
import MinC.Win.Stdlib

/-!
Access control lists in blocks of memory.

A list that is made anew lies in a block, which grows with it. Its header counts
the bytes that it has, in sixteen bits. `AddAce` goes by that count, and not by
the block, and refuses an entry of a type that the revision of the list does not
have. Which these are is up to Windows.
-/

namespace MinC.Win

open MinC.Lib

/-- The header of a list. -/
def sizeofAcl : Nat := 8

/-- The bytes that a list of entries takes. -/
def aclBytes (entries : List Ace) : Nat := sizeofAcl + (entries.map Ace.size).sum

@[simp] theorem aclBytes_nil : aclBytes [] = sizeofAcl := rfl

theorem aclBytes_cons (entry : Ace) (entries : List Ace) :
    aclBytes (entry :: entries) = entry.size + aclBytes entries := by
  rw [aclBytes, aclBytes, List.map_cons, List.sum_cons]
  omega

theorem aclBytes_append (entries : List Ace) (entry : Ace) :
    aclBytes (entries ++ [entry]) = aclBytes entries + entry.size := by
  rw [aclBytes, aclBytes, List.map_append, List.sum_append, List.map_singleton,
    List.sum_singleton]
  omega

/-- A list in a block, with the count in its header. -/
structure AclBlock where
  ulSize : Nat
  aclSize : UInt16
  entries : List Ace

/-- The count is that of the entries, and they are inside of the block. -/
structure AclBlock.WellFormed (acl : AclBlock) : Prop where
  aclSize : acl.aclSize.toNat = aclBytes acl.entries
  inside : aclBytes acl.entries + headerSize ≤ acl.ulSize

section
variable (heap : WinHeap) (takes : UInt8 → Bool)

/-- An entry is put in front of an index or, for `MAXDWORD`, at the end. -/
def insertAce (index : Option Nat) (entries : List Ace) (entry : Ace) : List Ace :=
  match index with
  | some i => entries.take i ++ entry :: entries.drop i
  | none => entries ++ [entry]

/-- `AddAce` at `ACL_REVISION`. -/
def AclBlock.addAce (acl : AclBlock) (index : Option Nat) (entry : Ace) : AclBlock :=
  if takes entry.aceType ∧ aclBytes acl.entries + entry.size ≤ acl.aclSize.toNat then
    { acl with entries := insertAce index acl.entries entry }
  else acl

/-- A list without entries, in a block of its own. -/
def newAcl : AclBlock := ⟨(winMalloc heap sizeofAcl).size, 8, []⟩

/-- The count with one more entry. -/
def AclBlock.counting (acl : AclBlock) (entry : Ace) : AclBlock :=
  { acl with aclSize := acl.aclSize + UInt16.ofNat entry.size }

/-- Add an entry in front, if the block can be made to have room for the count. -/
def AclBlock.addFirst (acl : AclBlock) (entry : Ace) : AclBlock :=
  match grown heap acl.ulSize (acl.counting entry).aclSize.toNat with
  | some ulSize => { acl.counting entry with ulSize := ulSize }.addAce takes (some 0) entry
  | none => acl.counting entry

/-- Make a list of entries, from the last to the first. -/
def buildAcl (entries : List Ace) : AclBlock :=
  entries.foldr (fun entry acl => acl.addFirst heap takes entry) (newAcl heap)

/-! ### Counts -/

@[simp] theorem addAce_aclSize (acl : AclBlock) (index : Option Nat) (entry : Ace) :
    (acl.addAce takes index entry).aclSize = acl.aclSize := by
  unfold AclBlock.addAce
  split_ifs <;> rfl

@[simp] theorem addAce_ulSize (acl : AclBlock) (index : Option Nat) (entry : Ace) :
    (acl.addAce takes index entry).ulSize = acl.ulSize := by
  unfold AclBlock.addAce
  split_ifs <;> rfl

theorem counting_aclSize {acl : AclBlock} {entry : Ace}
    (hsize : acl.aclSize.toNat + entry.size < 2 ^ 16) :
    (acl.counting entry).aclSize.toNat = acl.aclSize.toNat + entry.size := by
  have hentry : entry.size < 2 ^ 16 := by omega
  rw [AclBlock.counting, UInt16.toNat_add, UInt16.toNat_ofNat_of_lt' hentry,
    Nat.mod_eq_of_lt hsize]

/-- What is added to a list with room in its count. -/
theorem addAce_entries {acl : AclBlock} {entry : Ace}
    (hroom : aclBytes acl.entries + entry.size ≤ acl.aclSize.toNat) (index : Option Nat) :
    (acl.addAce takes index entry).entries =
      if takes entry.aceType then insertAce index acl.entries entry else acl.entries := by
  unfold AclBlock.addAce
  by_cases htakes : takes entry.aceType = true
  · rw [if_pos ⟨htakes, hroom⟩, if_pos htakes]
  · rw [if_neg fun h => htakes h.1, if_neg htakes]

/-! ### Entries -/

theorem addFirst_builds :
    Builds (fun entry acl => AclBlock.addFirst heap takes acl entry) AclBlock.entries := by
  intro entry acl
  dsimp only [AclBlock.addFirst]
  cases grown heap acl.ulSize (acl.counting entry).aclSize.toNat with
  | none => exact .inr rfl
  | some ulSize =>
      dsimp only [AclBlock.addAce]
      split_ifs with htakes
      · exact .inl rfl
      · exact .inr rfl

/-- The size that a block has when it has all of a list. -/
def blockSize (entries : List Ace) : Nat := pages heap (aclBytes entries + headerSize)

/-- A list that has all entries it was made of. -/
structure AclBlock.Complete (acl : AclBlock) (all : List Ace) : Prop where
  entries : acl.entries = all
  aclSize : acl.aclSize.toNat = aclBytes all
  ulSize : acl.ulSize = blockSize heap all

theorem AclBlock.Complete.wellFormed {acl : AclBlock} {entries : List Ace}
    (h : acl.Complete heap entries) : acl.WellFormed := by
  refine ⟨by rw [h.entries, h.aclSize], ?_⟩
  rw [h.entries, h.ulSize]
  exact le_pages heap _

theorem newAcl_complete : (newAcl heap).Complete heap [] :=
  ⟨rfl, rfl, winMalloc_size heap sizeofAcl⟩

/-- The block can grow to have room for one more entry. -/
def AclGrowsBy (entries : List Ace) (entry : Ace) : Prop :=
  Granted heap (blockSize heap entries) (aclBytes (entry :: entries))

theorem blockSize_cons (entry : Ace) (entries : List Ace) :
    blockSize heap entries ≤ blockSize heap (entry :: entries) := by
  refine (pages_le_iff heap (pages_dvd heap _)).mpr (Nat.le_trans ?_ (le_pages heap _))
  rw [aclBytes_cons]
  omega

/-- An entry is added to a complete list if its type is one of the revision, and
the block can grow. -/
theorem addFirst_complete {acl : AclBlock} {entries : List Ace} {entry : Ace}
    (h : acl.Complete heap entries) (hsize : aclBytes (entry :: entries) < 2 ^ 16) :
    ((acl.addFirst heap takes entry).entries = entry :: entries ↔
      takes entry.aceType = true ∧ AclGrowsBy heap entries entry) ∧
    (takes entry.aceType = true ∧ AclGrowsBy heap entries entry →
      (acl.addFirst heap takes entry).Complete heap (entry :: entries)) := by
  have hcount : (acl.counting entry).aclSize.toNat = aclBytes (entry :: entries) := by
    rw [aclBytes_cons, Nat.add_comm] at hsize ⊢
    rw [← h.aclSize] at hsize ⊢
    exact counting_aclSize hsize
  have hne : acl.entries ≠ entry :: entries := by
    rw [h.entries]
    exact (List.cons_ne_self _ _).symm
  have hpages : heap.pageSize ∣ acl.ulSize := h.ulSize ▸ pages_dvd heap _
  unfold AclBlock.addFirst AclGrowsBy
  rw [hcount, ← h.ulSize]
  cases hgrown : grown heap acl.ulSize (aclBytes (entry :: entries)) with
  | none =>
      have hdenied : ¬ Granted heap acl.ulSize (aclBytes (entry :: entries)) := by
        intro hgranted
        have hsome := (grown_eq_some_iff heap hpages).mpr ⟨hgranted, rfl⟩
        rw [hgrown] at hsome
        cases hsome
      exact ⟨iff_of_false hne fun h => hdenied h.2, fun h => absurd h.2 hdenied⟩
  | some ulSize =>
      obtain ⟨hgranted, hmax⟩ := (grown_eq_some_iff heap hpages).mp hgrown
      have hroom : aclBytes acl.entries + entry.size ≤ (acl.counting entry).aclSize.toNat := by
        rw [hcount, aclBytes_cons, h.entries, Nat.add_comm]
      have hadded := addAce_entries takes
        (show aclBytes ({ acl.counting entry with ulSize := ulSize } : AclBlock).entries +
          entry.size ≤ _ from hroom) (some 0)
      rw [and_iff_left hgranted]
      by_cases htakes : takes entry.aceType = true
      · rw [if_pos htakes] at hadded
        have hentries := hadded.trans (congrArg (entry :: ·) h.entries)
        refine ⟨iff_of_true hentries htakes, fun _ => ⟨hentries, ?_, ?_⟩⟩
        · rw [addAce_aclSize]
          exact hcount
        · rw [addAce_ulSize]
          show ulSize = blockSize heap (entry :: entries)
          rw [hmax, h.ulSize]
          exact Nat.max_eq_right (blockSize_cons heap entry entries)
      · -- an entry that is not taken leaves the list shorter than it has to be
        rw [if_neg htakes] at hadded
        exact ⟨iff_of_false (fun heq => hne (hadded.symm.trans heq)) htakes,
          fun h => absurd h htakes⟩

/-- The block can grow with every entry of a list. -/
def AclGrows : List Ace → Prop
  | [] => True
  | entry :: entries => AclGrowsBy heap entries entry ∧ AclGrows entries

theorem aclGrows_of_grants (h : ∀ ulSize, heap.grants ulSize = true) (entries : List Ace) :
    AclGrows heap entries := by
  induction entries with
  | nil => trivial
  | cons entry entries ih => exact ⟨.inr (h _), ih⟩

/-- A list is made if all types are of the revision, and the block can grow. -/
theorem buildAcl_complete {entries : List Ace} (hsize : aclBytes entries < 2 ^ 16) :
    ((buildAcl heap takes entries).entries = entries ↔
      (∀ entry ∈ entries, takes entry.aceType = true) ∧ AclGrows heap entries) ∧
    ((buildAcl heap takes entries).entries = entries →
      (buildAcl heap takes entries).Complete heap entries) := by
  -- the list is built from its end, so that what is added is in front of a complete list
  induction entries with
  | nil =>
      exact ⟨iff_of_true rfl ⟨fun _ h => absurd h List.not_mem_nil, trivial⟩,
        fun _ => newAcl_complete heap⟩
  | cons entry entries ih =>
      have hrest : aclBytes entries < 2 ^ 16 := by
        rw [aclBytes_cons] at hsize
        omega
      have ih := ih hrest
      have hcons := (addFirst_builds heap takes).cons_iff
        (show (newAcl heap).entries = [] from rfl) entry entries
      rw [← buildAcl, ← buildAcl] at hcons
      rw [hcons, List.forall_mem_cons, AclGrows]
      refine ⟨⟨?_, ?_⟩, ?_⟩
      · rintro ⟨hentries, htaken⟩
        have hcomplete := ih.2 hentries
        rw [hcomplete.entries] at htaken
        obtain ⟨htakes, hgrowsBy⟩ := (addFirst_complete heap takes hcomplete hsize).1.mp htaken
        obtain ⟨htakesAll, hgrows⟩ := ih.1.mp hentries
        exact ⟨⟨htakes, htakesAll⟩, hgrowsBy, hgrows⟩
      · rintro ⟨⟨htakes, htakesAll⟩, hgrowsBy, hgrows⟩
        have hentries := ih.1.mpr ⟨htakesAll, hgrows⟩
        have htaken := (addFirst_complete heap takes (ih.2 hentries) hsize).1.mpr
          ⟨htakes, hgrowsBy⟩
        refine ⟨hentries, htaken.trans ?_⟩
        rw [hentries]
      · rintro ⟨hentries, htaken⟩
        have hadded := addFirst_complete heap takes (ih.2 hentries) hsize
        rw [hentries] at htaken
        exact hadded.2 (hadded.1.mp htaken)

end

end MinC.Win
