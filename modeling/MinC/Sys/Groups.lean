import MinC.Win.Error
import MinC.Win.GroupMerge

/-!
Setting the groups of a process.

The numbers are turned into identifiers from the last to the first, and the
thread gets a token whose groups are those of the process merged with them. Of
what the calls on the way answer, only the groups of the token are looked at.
-/

namespace MinC.Sys

open MinC.Win

/-- The answers of the calls that make a token, with the error that is the last one if one of them
fails. -/
structure CapAnswers where
  capInit : Bool
  createTokenPrivilege : Bool
  getUser : Bool
  getGroups : Option (List TokenGroup)
  tcbPrivilege : Bool
  createToken : Bool
  setThreadToken : Bool
  closeHandle : Bool
  lastError : UInt32

/-- The groups of the token that is made. -/
def winCapSetgroups (machine : SID8) (os : CapAnswers) (groups : List SID8) :
    Option (List TokenGroup) :=
  if ¬os.createTokenPrivilege then none
  else if ¬os.getUser then none
  else
    match os.getGroups with
    | none => none
    | some source =>
        if os.tcbPrivilege ∧ os.createToken then some (capMergeGroups machine source groups)
        else none

/-- The result, and the groups of the thread's token if it got one. -/
def winSetgroups (machine : SID8) (os : CapAnswers) (groups : List SID8) :
    Bool × Option (List TokenGroup) :=
  match winCapSetgroups machine os groups with
  | none => (false, none)
  | some merged =>
      if ¬os.setThreadToken then (false, none)
      else (os.closeHandle, some merged)

/-- The identifiers of the numbers, from the last to the first. -/
def requestedGroups (machine : SID8) (list : Nat → UInt32) (size : Nat) : List SID8 :=
  (List.range size).reverse.map fun i =>
    ridWin machine (if list i = 0 then rootGid else list i)

def sysSetgroups (machine : SID8) (ngroupsMax : Nat) (os : CapAnswers) (size : Int)
    (list : Nat → UInt32) : Int × Option (List TokenGroup) :=
  if size < 0 ∨ (ngroupsMax : Int) ≤ size then (-(einval : Int), none)
  else if ¬os.capInit then (-(errnoPosix os.lastError : Int), none)
  else
    let r := winSetgroups machine os (requestedGroups machine list size.toNat)
    (if r.1 then 0 else -(errnoPosix os.lastError : Int), r.2)

section
variable {machine : SID8} {os : CapAnswers} {groups : List SID8} {merged : List TokenGroup}

theorem winCapSetgroups_some (h : winCapSetgroups machine os groups = some merged) :
    ∃ source, os.getGroups = some source ∧ merged = capMergeGroups machine source groups := by
  rw [winCapSetgroups] at h
  cases hgroups : os.getGroups with
  | none =>
      rw [hgroups] at h
      split_ifs at h
  | some source =>
      rw [hgroups] at h
      split_ifs at h
      exact ⟨source, rfl, (Option.some.inj h).symm⟩

theorem winSetgroups_some (h : (winSetgroups machine os groups).2 = some merged) :
    winCapSetgroups machine os groups = some merged := by
  rw [winSetgroups] at h
  cases hcap : winCapSetgroups machine os groups with
  | none =>
      rw [hcap] at h
      cases h
  | some made =>
      rw [hcap] at h
      dsimp only at h
      split_ifs at h
      exact h

/-- The groups that the thread gets are those of the process, merged with as many as the caller
said there are. -/
theorem sysSetgroups_merged {ngroupsMax : Nat} {size : Int} {list : Nat → UInt32}
    (h : (sysSetgroups machine ngroupsMax os size list).2 = some merged) :
    ∃ source, os.getGroups = some source ∧ 0 ≤ size ∧ size < ngroupsMax ∧
      merged = capMergeGroups machine source (requestedGroups machine list size.toNat) := by
  rw [sysSetgroups] at h
  split_ifs at h with hsize
  obtain ⟨source, hsource, hmerged⟩ := winCapSetgroups_some (winSetgroups_some h)
  exact ⟨source, hsource, by omega, by omega, hmerged⟩

/-- Merging does what it is for exactly when each group that is asked for or kept comes once;
and it makes the groups that `sysSetgroups` gives the thread. -/
theorem capMergeGroups_correct_iff (machine : SID8) :
    (∀ (source : List TokenGroup) (groups : List SID8),
      MergeCorrect machine source groups (capMergeGroups machine source groups) ↔
        MergeMeets machine source groups) ∧
    ∀ (ngroupsMax : Nat) (os : CapAnswers) (size : Int) (list : Nat → UInt32)
      (merged : List TokenGroup), (sysSetgroups machine ngroupsMax os size list).2 = some merged →
        ∃ source, os.getGroups = some source ∧ 0 ≤ size ∧ size < ngroupsMax ∧
          merged = capMergeGroups machine source (requestedGroups machine list size.toNat) :=
  ⟨mergeCorrect_iff machine, fun _ _ _ _ _ => sysSetgroups_merged⟩

end

end MinC.Sys
