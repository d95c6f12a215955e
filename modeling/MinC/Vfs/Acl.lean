import MinC.Vfs.Namei
import MinC.Vfs.Types
import MinC.Win.Acl

/-!
Permissions in access control lists.

The class that an entry stands for is not stored with it. It is guessed from the
mask, and from the classes that were met before, when the list is gone through
from its last entry to the first. All that is done with a list is done along
such a loop, so that two loops that meet entries alike in what the guess looks
at meet the same classes.
-/

namespace MinC.Vfs

open MinC.Lib MinC.Win

def winSIread : UInt32 := fileReadData
def winSIwrite : UInt32 := fileWriteData ||| fileWriteEa ||| fileAppendData
def winSIexec : UInt32 := fileExecute
def winSIrwx : UInt32 := winSIread ||| winSIwrite ||| winSIexec

def winSIstxt : UInt32 := fileReadData
def winSIsgid : UInt32 := fileWriteData
def winSIsuid : UInt32 := fileAppendData

/-! ### Classes -/

inductive AclClass
  | user | group | other
  deriving DecidableEq

/-- What an entry is taken for: nothing, something to inherit, one more entry of
a class that was met before, or the entry of a class. -/
inductive AclType
  | none
  | default
  | access
  | entry (c : AclClass)
  deriving DecidableEq

/-- The classes that were met. -/
structure TypeMask where
  user : Bool
  group : Bool
  other : Bool
  deriving DecidableEq

namespace TypeMask

def zero : TypeMask := ⟨false, false, false⟩

def has (seen : TypeMask) : AclClass → Bool
  | .user => seen.user
  | .group => seen.group
  | .other => seen.other

def add (seen : TypeMask) : AclClass → TypeMask
  | .user => { seen with user := true }
  | .group => { seen with group := true }
  | .other => { seen with other := true }

end TypeMask

/-- The class that a mask points to. -/
def aclClass (mask : UInt32) (seen : TypeMask) : Option AclClass :=
  if flagSet mask writeDac then some (if seen.user then .group else .user)
  else if flagSet mask deleteAccess then some (if seen.group then .other else .group)
  else if flagSet mask readControl then some (if seen.other then .group else .other)
  else none

def inheritOnly (entry : Ace) : Bool := entry.aceFlags &&& inheritOnlyAce ≠ 0

def aclOwnerType (entry : Ace) (seen : TypeMask) : AclType × TypeMask :=
  if entry.aceType ≠ accessAllowedAceType then (.none, seen)
  else if inheritOnly entry then (.default, seen)
  else match aclClass entry.mask seen with
  | none => (.none, seen)
  | some c => if seen.has c then (.access, seen) else (.entry c, seen.add c)

/-- A loop over a list, from its last entry to the first. -/
def aclLoop {β : Type*} (body : AclType → Ace → β → β) (start : β) : List Ace → β × TypeMask
  | [] => (start, TypeMask.zero)
  | entry :: entries =>
      let rest := aclLoop body start entries
      let found := aclOwnerType entry rest.2
      (body found.1 entry rest.1, found.2)

/-- The classes that were met in a list. -/
def aclSeen : List Ace → TypeMask
  | [] => TypeMask.zero
  | entry :: entries => (aclOwnerType entry (aclSeen entries)).2

/-- The types of the entries of a list, each with its entry. -/
def aclTyped : List Ace → List (AclType × Ace)
  | [] => []
  | entry :: entries => ((aclOwnerType entry (aclSeen entries)).1, entry) :: aclTyped entries

section
variable {β : Type*}

theorem aclLoop_seen (body : AclType → Ace → β → β) (start : β) (entries : List Ace) :
    (aclLoop body start entries).2 = aclSeen entries := by
  induction entries with
  | nil => rfl
  | cons entry entries ih =>
      rw [aclLoop, aclSeen]
      dsimp only
      rw [ih]

/-- A loop sees each entry with its type. -/
theorem aclLoop_result (body : AclType → Ace → β → β) (start : β) (entries : List Ace) :
    (aclLoop body start entries).1 =
      (aclTyped entries).foldr (fun typed b => body typed.1 typed.2 b) start := by
  induction entries with
  | nil => rfl
  | cons entry entries ih =>
      rw [aclLoop, aclTyped, List.foldr_cons]
      dsimp only
      rw [ih, aclLoop_seen]

theorem aclTyped_map_snd (entries : List Ace) : (aclTyped entries).map Prod.snd = entries := by
  induction entries with
  | nil => rfl
  | cons entry entries ih => rw [aclTyped, List.map_cons, ih]

end

/-- Entries that the guess does not tell from each other. -/
structure Alike (a b : Ace) : Prop where
  aceType : a.aceType = b.aceType
  inheritOnly : inheritOnly a = inheritOnly b
  writeDac : flagSet a.mask writeDac = flagSet b.mask writeDac
  delete : flagSet a.mask deleteAccess = flagSet b.mask deleteAccess
  readControl : flagSet a.mask readControl = flagSet b.mask readControl

theorem aclOwnerType_congr {a b : Ace} (h : Alike a b) (seen : TypeMask) :
    aclOwnerType a seen = aclOwnerType b seen := by
  unfold aclOwnerType aclClass
  rw [h.aceType, h.inheritOnly, h.writeDac, h.delete, h.readControl]

/-- Entries that were changed by their types to others like them keep the types. -/
theorem aclTyped_map {f : AclType → Ace → Ace} (h : ∀ t entry, Alike (f t entry) entry)
    (entries : List Ace) :
    aclTyped ((aclTyped entries).map fun typed => f typed.1 typed.2) =
        (aclTyped entries).map (fun typed => (typed.1, f typed.1 typed.2)) ∧
      aclSeen ((aclTyped entries).map fun typed => f typed.1 typed.2) = aclSeen entries := by
  induction entries with
  | nil => exact ⟨rfl, rfl⟩
  | cons entry entries ih =>
      obtain ⟨htyped, hseen⟩ := ih
      rw [aclTyped, List.map_cons, List.map_cons, aclTyped, aclSeen, aclSeen, hseen, htyped,
        aclOwnerType_congr (h _ entry)]
      exact ⟨rfl, rfl⟩

/-! ### Each class has one entry -/

theorem TypeMask.has_add (seen : TypeMask) (c d : AclClass) :
    (seen.add c).has d = (seen.has d || decide (c = d)) := by
  cases c <;> cases d <;> simp [add, has]

/-- What the guess adds to what was met. -/
theorem aclOwnerType_seen (entry : Ace) (seen : TypeMask) (c : AclClass) :
    (aclOwnerType entry seen).2.has c = true ↔
      seen.has c = true ∨ (aclOwnerType entry seen).1 = .entry c := by
  unfold aclOwnerType
  split_ifs
  · simp
  · simp
  · cases aclClass entry.mask seen with
    | none => simp
    | some d =>
        dsimp only
        split_ifs
        · simp
        · rw [TypeMask.has_add, Bool.or_eq_true, decide_eq_true_eq, AclType.entry.injEq]

theorem aclOwnerType_new {entry : Ace} {seen : TypeMask} {c : AclClass}
    (h : (aclOwnerType entry seen).1 = .entry c) : seen.has c = false := by
  unfold aclOwnerType at h
  split_ifs at h
  cases hclass : aclClass entry.mask seen with
  | none =>
      rw [hclass] at h
      cases h
  | some d =>
      rw [hclass] at h
      dsimp only at h
      split_ifs at h with hseen
      cases h
      simpa using hseen

/-- A class was met if one of the entries is its entry. -/
theorem has_aclSeen_iff (entries : List Ace) (c : AclClass) :
    (aclSeen entries).has c = true ↔ ∃ entry, (AclType.entry c, entry) ∈ aclTyped entries := by
  induction entries with
  | nil =>
      refine iff_of_false ?_ ?_
      · cases c <;> exact Bool.false_ne_true
      · rintro ⟨entry, h⟩
        exact absurd h List.not_mem_nil
  | cons entry entries ih =>
      rw [aclSeen, aclOwnerType_seen, ih, aclTyped]
      constructor
      · rintro (⟨found, h⟩ | h)
        · exact ⟨found, List.mem_cons_of_mem _ h⟩
        · exact ⟨entry, by rw [h]; exact List.mem_cons_self⟩
      · rintro ⟨found, h⟩
        rcases List.mem_cons.mp h with heq | h
        · exact .inr (congrArg Prod.fst heq).symm
        · exact .inl ⟨found, h⟩

/-- A later entry of the loop is not that of a class that was met. -/
theorem aclOwnerType_ne {entry found : Ace} {entries : List Ace} {c : AclClass}
    (h : (AclType.entry c, found) ∈ aclTyped entries) :
    (aclOwnerType entry (aclSeen entries)).1 ≠ .entry c := by
  intro hnew
  have hseen := (has_aclSeen_iff entries c).mpr ⟨found, h⟩
  rw [aclOwnerType_new hnew] at hseen
  cases hseen

/-- Only what allows access stands for anything. -/
theorem aceType_of_aclTyped {entries : List Ace} {t : AclType} {entry : Ace}
    (h : (t, entry) ∈ aclTyped entries) (ht : t ≠ .none) :
    entry.aceType = accessAllowedAceType := by
  induction entries with
  | nil => exact absurd h List.not_mem_nil
  | cons head entries ih =>
      rcases List.mem_cons.mp h with heq | h
      · obtain ⟨rfl, rfl⟩ := Prod.mk.inj heq
        by_contra htype
        rw [aclOwnerType, if_pos htype] at ht
        exact ht rfl
      · exact ih h

/-! ### Lists with fewer entries -/

/-- What is no entry of a class adds none to those that were met. -/
theorem aclOwnerType_kept {entry : Ace} {seen : TypeMask}
    (h : ∀ c, (aclOwnerType entry seen).1 ≠ .entry c) : (aclOwnerType entry seen).2 = seen := by
  unfold aclOwnerType at h ⊢
  split_ifs at h ⊢
  · rfl
  · rfl
  · cases hclass : aclClass entry.mask seen with
    | none => rfl
    | some c =>
        rw [hclass] at h
        dsimp only at h ⊢
        split_ifs at h ⊢
        · rfl
        · exact absurd rfl (h c)

/-- A class that was met is met in a longer list. -/
theorem has_aclSeen_suffix {rest entries : List Ace} (h : rest <:+ entries) {c : AclClass}
    (hc : (aclSeen rest).has c = true) : (aclSeen entries).has c = true := by
  induction entries with
  | nil => rwa [List.suffix_nil.mp h] at hc
  | cons entry entries ih =>
      rcases List.suffix_cons_iff.mp h with rfl | h
      · exact hc
      · rw [aclSeen, aclOwnerType_seen]
        exact .inl (ih h)

/-- A list whose entries were changed or left out, in front of others that are
met first. What was met is then translated from one list to the other. -/
theorem aclTyped_filterMap_append {f : AclType → Ace → Option Ace}
    (translate : TypeMask → TypeMask) {extra : List Ace}
    (hextra : aclSeen extra = translate TypeMask.zero)
    (hsome : ∀ t entry entry', f t entry = some entry' → Alike entry' entry)
    (hnone : ∀ c entry, f (.entry c) entry ≠ none) (entries : List Ace)
    (htranslate : ∀ entry rest, entry :: rest <:+ entries →
      aclOwnerType entry (translate (aclSeen rest)) =
        ((aclOwnerType entry (aclSeen rest)).1, translate (aclOwnerType entry (aclSeen rest)).2)) :
    aclTyped ((aclTyped entries).filterMap (fun typed => f typed.1 typed.2) ++ extra) =
        (aclTyped entries).filterMap
          (fun typed => (f typed.1 typed.2).map fun entry => (typed.1, entry)) ++ aclTyped extra ∧
      aclSeen ((aclTyped entries).filterMap (fun typed => f typed.1 typed.2) ++ extra) =
        translate (aclSeen entries) := by
  induction entries with
  | nil => exact ⟨rfl, hextra⟩
  | cons entry entries ih =>
      obtain ⟨htyped, hseen⟩ := ih fun head rest hsuffix =>
        htranslate head rest (hsuffix.trans (List.suffix_cons _ _))
      have hhead := htranslate entry entries List.suffix_rfl
      rw [aclTyped, List.filterMap_cons, List.filterMap_cons]
      dsimp only
      cases hf : f (aclOwnerType entry (aclSeen entries)).1 entry with
      -- an entry that is left out is not one that changes the type of those in front of it
      | none =>
          have hkept : (aclOwnerType entry (aclSeen entries)).2 = aclSeen entries := by
            refine aclOwnerType_kept fun c htype => hnone c entry ?_
            rw [← htype, hf]
          rw [aclSeen, hkept]
          exact ⟨htyped, hseen⟩
      | some entry' =>
          dsimp only [Option.map_some]
          rw [List.cons_append, List.cons_append, aclTyped, aclSeen, aclSeen, hseen, htyped,
            aclOwnerType_congr (hsome _ entry entry' hf), hhead]
          exact ⟨rfl, rfl⟩

/-- An entry for others that is met first does not change what is met after it,
if there is no other. -/
theorem aclOwnerType_add_other {entry : Ace} {seen : TypeMask}
    (h : (aclOwnerType entry seen).2.has .other = false) :
    aclOwnerType entry (seen.add .other) =
      ((aclOwnerType entry seen).1, (aclOwnerType entry seen).2.add .other) := by
  obtain ⟨user, group, other⟩ := seen
  have hother : other = false := by
    cases other with
    | false => rfl
    | true =>
        have hmet := (aclOwnerType_seen entry ⟨user, group, true⟩ .other).mpr (.inl rfl)
        rw [h] at hmet
        cases hmet
  subst hother
  unfold aclOwnerType aclClass at h ⊢
  by_cases htype : entry.aceType ≠ accessAllowedAceType
  · rw [if_pos htype, if_pos htype]
  · by_cases hinherit : inheritOnly entry = true
    · rw [if_neg htype, if_neg htype, if_pos hinherit, if_pos hinherit]
    · rw [if_neg htype, if_neg hinherit] at h ⊢
      rw [if_neg htype, if_neg hinherit]
      revert h
      -- what is left depends on three flags and two classes only
      generalize flagSet entry.mask writeDac = dac
      generalize flagSet entry.mask deleteAccess = delete
      generalize flagSet entry.mask readControl = control
      revert user group dac delete control
      decide

end MinC.Vfs
