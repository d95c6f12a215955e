import MinC.Win.Groups
import MinC.Win.Rid
import Mathlib.Data.List.Perm.Subperm

/-!
When the groups of a token are merged with those that are asked for.

How often a group is in the result is counted from the places where the first
subauthority of the token's groups changes: a group that is asked for is added
once for each such place that is of a replaced family and has its first
subauthority, and a group that is kept is there once for each such place that
is its own.
-/

namespace MinC.Win

open MinC.Lib

/-- What merging is for. -/
structure MergeCorrect (machine : SID8) (source : List TokenGroup) (groups : List SID8)
    (merged : List TokenGroup) : Prop where
  requested : ∀ g ∈ groups, (merged.map TokenGroup.sid).count g.toSid = 1
  kept : ∀ t ∈ source, ¬Replaced machine t.sid → (merged.map TokenGroup.sid).count t.sid = 1
  nothingElse : ∀ e ∈ merged,
    (∃ g ∈ groups, e.sid = g.toSid) ∨ e ∈ source ∧ ¬Replaced machine e.sid
  allocated : merged.length ≤ mergeRoom source groups

/-! ### Counting -/

/-- The runs of replaced families with a first subauthority. -/
def replacedStarts (machine : SID8) (source : List TokenGroup) (subAuth : UInt32) : Nat :=
  (runStarts source).countP fun t =>
    decide (Replaced machine t.sid ∧ t.sid.subAuthority0 = subAuth)

/-- The runs that start with a group that is kept. -/
def keptStarts (machine : SID8) (source : List TokenGroup) (sid : Sid) : Nat :=
  (runStarts source).countP fun t => decide (¬Replaced machine t.sid ∧ t.sid = sid)

/-- How often a group is asked for. -/
def timesRequested (groups : List SID8) (sid : Sid) : Nat := (groups.map SID8.toSid).count sid

/-- The group starts one run as one that is kept, and is not asked for or there is no run that it
is added at; or it starts none, is asked for once, and there is one run that it is added at. -/
def ComesOnce (machine : SID8) (source : List TokenGroup) (groups : List SID8) (sid : Sid) :
    Prop :=
  (keptStarts machine source sid = 1 ∧
      (timesRequested groups sid = 0 ∨
        replacedStarts machine source sid.subAuthority0 = 0)) ∨
    (keptStarts machine source sid = 0 ∧ timesRequested groups sid = 1 ∧
      replacedStarts machine source sid.subAuthority0 = 1)

/-- Every group that is asked for, and every one that is of no replaced family, comes once. -/
structure MergeMeets (machine : SID8) (source : List TokenGroup) (groups : List SID8) : Prop where
  requested : ∀ g ∈ groups, ComesOnce machine source groups g.toSid
  kept : ∀ t ∈ source, ¬Replaced machine t.sid → ComesOnce machine source groups t.sid

section
variable {machine : SID8} {source : List TokenGroup} {groups : List SID8}

theorem count_added (subAuth attribs : UInt32) (sid : Sid) :
    (((groups.filter fun g => g.subAuthority0 == subAuth).map fun g =>
      (⟨g.toSid, attribs⟩ : TokenGroup)).map TokenGroup.sid).count sid =
        if sid.subAuthority0 = subAuth then timesRequested groups sid else 0 := by
  have hfilter : (((groups.filter fun g => g.subAuthority0 == subAuth).map fun g =>
      (⟨g.toSid, attribs⟩ : TokenGroup)).map TokenGroup.sid) =
        (groups.map SID8.toSid).filter fun sid => sid.subAuthority0 == subAuth := by
    rw [List.map_map, List.filter_map]
    rfl
  rw [hfilter]
  split_ifs with hsame
  · rw [List.count_filter (by rw [hsame]; exact beq_self_eq_true _), timesRequested]
  · refine List.count_eq_zero.mpr fun hmem => hsame ?_
    simpa using (List.mem_filter.mp hmem).2

theorem count_startEntries (t : TokenGroup) (sid : Sid) :
    ((startEntries machine groups t).map TokenGroup.sid).count sid =
      (if Replaced machine t.sid ∧ t.sid.subAuthority0 = sid.subAuthority0 then
          timesRequested groups sid else 0) +
        if ¬Replaced machine t.sid ∧ t.sid = sid then 1 else 0 := by
  rw [startEntries]
  cases hfamily : familyAttribs machine t.sid with
  | none =>
      have hkept : ¬Replaced machine t.sid := fun h => h hfamily
      rw [if_neg fun h => hkept h.1, Nat.zero_add, List.map_singleton, List.count_singleton]
      simp [hkept]
  | some attribs =>
      have hreplaced : Replaced machine t.sid := by
        rw [Replaced, hfamily]
        exact Option.some_ne_none _
      dsimp only
      rw [count_added]
      simp [hreplaced, eq_comm]

theorem count_flatMap_startEntries (starts : List TokenGroup) (sid : Sid) :
    ((starts.flatMap (startEntries machine groups)).map TokenGroup.sid).count sid =
      timesRequested groups sid * starts.countP (fun t =>
          decide (Replaced machine t.sid ∧ t.sid.subAuthority0 = sid.subAuthority0)) +
        starts.countP fun t => decide (¬Replaced machine t.sid ∧ t.sid = sid) := by
  induction starts with
  | nil => rfl
  | cons t starts ih =>
      rw [List.flatMap_cons, List.map_append, List.count_append, ih, count_startEntries,
        List.countP_cons, List.countP_cons]
      simp only [decide_eq_true_eq, Nat.mul_add]
      split_ifs <;> omega

/-- How often an identifier is among the merged groups. -/
theorem count_merged (sid : Sid) :
    ((capMergeGroups machine source groups).map TokenGroup.sid).count sid =
      timesRequested groups sid * replacedStarts machine source sid.subAuthority0 +
        keptStarts machine source sid := by
  rw [capMergeGroups_eq, count_flatMap_startEntries]
  rfl

/-- It is there once exactly when it comes once. -/
theorem count_merged_eq_one_iff (sid : Sid) :
    ((capMergeGroups machine source groups).map TokenGroup.sid).count sid = 1 ↔
      ComesOnce machine source groups sid := by
  have hone (m n : Nat) : m * n = 1 ↔ m = 1 ∧ n = 1 :=
    ⟨fun h => ⟨Nat.eq_one_of_mul_eq_one_right h, Nat.eq_one_of_mul_eq_one_left h⟩,
      fun h => by rw [h.1, h.2]⟩
  rw [count_merged, Nat.add_eq_one_iff, Nat.mul_eq_zero, hone, ComesOnce]
  tauto

theorem mem_merged {e : TokenGroup} (h : e ∈ capMergeGroups machine source groups) :
    (∃ g ∈ groups, e.sid = g.toSid) ∨ e ∈ source ∧ ¬Replaced machine e.sid := by
  rw [capMergeGroups_eq] at h
  obtain ⟨t, ht, he⟩ := List.mem_flatMap.mp h
  rw [startEntries] at he
  cases hfamily : familyAttribs machine t.sid with
  | none =>
      rw [hfamily] at he
      obtain rfl := List.mem_singleton.mp he
      exact .inr ⟨(changes_sublist _ _ _).subset ht, fun hreplaced => hreplaced hfamily⟩
  | some attribs =>
      rw [hfamily] at he
      obtain ⟨g, hg, rfl⟩ := List.mem_map.mp he
      exact .inl ⟨g, (List.mem_filter.mp hg).1, rfl⟩

/-- Groups that are there once each, and are all from the two lists, are no more than these have
together. -/
theorem length_merged_le
    (honce : ∀ e ∈ capMergeGroups machine source groups,
      ((capMergeGroups machine source groups).map TokenGroup.sid).count e.sid = 1) :
    (capMergeGroups machine source groups).length ≤ mergeRoom source groups := by
  have hnodup : ((capMergeGroups machine source groups).map TokenGroup.sid).Nodup := by
    refine List.nodup_iff_count_le_one.mpr fun sid => ?_
    by_cases hmem : sid ∈ (capMergeGroups machine source groups).map TokenGroup.sid
    · obtain ⟨e, he, rfl⟩ := List.mem_map.mp hmem
      exact Nat.le_of_eq (honce e he)
    · rw [List.count_eq_zero.mpr hmem]
      exact Nat.zero_le 1
  have hsubset : (capMergeGroups machine source groups).map TokenGroup.sid ⊆
      source.map TokenGroup.sid ++ groups.map SID8.toSid := by
    intro sid hsid
    obtain ⟨e, he, rfl⟩ := List.mem_map.mp hsid
    rcases mem_merged he with ⟨g, hg, hsame⟩ | ⟨hsource, -⟩
    · rw [hsame]
      exact List.mem_append_right _ (List.mem_map_of_mem hg)
    · exact List.mem_append_left _ (List.mem_map_of_mem hsource)
  have hlength := (List.subperm_of_subset hnodup hsubset).length_le
  rwa [List.length_map, List.length_append, List.length_map, List.length_map] at hlength

/-- Merging does what it is for exactly when each group that is asked for or kept comes once. -/
theorem mergeCorrect_iff (machine : SID8) (source : List TokenGroup)
    (groups : List SID8) :
    MergeCorrect machine source groups (capMergeGroups machine source groups) ↔
      MergeMeets machine source groups := by
  constructor
  · intro h
    exact ⟨fun g hg => (count_merged_eq_one_iff _).mp (h.requested g hg),
      fun t ht hkept => (count_merged_eq_one_iff _).mp (h.kept t ht hkept)⟩
  · intro h
    have hrequested : ∀ g ∈ groups, _ := fun g hg =>
      (count_merged_eq_one_iff _).mpr (h.requested g hg)
    have hkept : ∀ t ∈ source, _ := fun t ht hkept =>
      (count_merged_eq_one_iff _).mpr (h.kept t ht hkept)
    refine ⟨hrequested, hkept, fun e he => mem_merged he, length_merged_le fun e he => ?_⟩
    rcases mem_merged he with ⟨g, hg, hsame⟩ | ⟨hsource, hnot⟩
    · rw [hsame]
      exact hrequested g hg
    · exact hkept e hsource hnot

end

/-! ### Where it does not -/

theorem length_one_le (a : UInt32) : [a].length ≤ 8 := Nat.le_of_ble_eq_true rfl

theorem length_two_le (a b : UInt32) : [a, b].length ≤ 8 := Nat.le_of_ble_eq_true rfl

def groupOf (sid : SID8) : TokenGroup := ⟨sid.toSid, 7⟩

def builtinGroup (rid : UInt32) : SID8 := mkSid 5 [32, rid] (length_two_le _ _)

def authorityGroup (authority : UInt8) (rid : UInt32) : SID8 :=
  mkSid authority [rid] (length_one_le _)

def adminsGroup : TokenGroup := groupOf (builtinGroup 544)
def usersGroup : TokenGroup := groupOf (builtinGroup 545)
def everyoneGroup : TokenGroup := groupOf (authorityGroup 1 0)
def localGroup : TokenGroup := groupOf (authorityGroup 2 0)

/-- Built-in groups on both sides of another one make what is asked for come twice, and four of
them need nine entries where there is room for seven; without a built-in group in the token there
is none in the result; and of two groups of no family that follow each other with one first
subauthority the second is lost. -/
theorem families_not_merged :
    ¬MergeCorrect oneMachine [adminsGroup, everyoneGroup, usersGroup] [builtinGroup 547]
        (capMergeGroups oneMachine [adminsGroup, everyoneGroup, usersGroup] [builtinGroup 547]) ∧
      (capMergeGroups oneMachine [adminsGroup, everyoneGroup, usersGroup]
          [builtinGroup 544, builtinGroup 545, builtinGroup 546, builtinGroup 547]).length = 9 ∧
      mergeRoom [adminsGroup, everyoneGroup, usersGroup]
          [builtinGroup 544, builtinGroup 545, builtinGroup 546, builtinGroup 547] = 7 ∧
      ¬MergeCorrect oneMachine [everyoneGroup] [builtinGroup 545]
        (capMergeGroups oneMachine [everyoneGroup] [builtinGroup 545]) ∧
      ¬MergeCorrect oneMachine [everyoneGroup, localGroup] []
        (capMergeGroups oneMachine [everyoneGroup, localGroup] []) := by
  refine ⟨fun h => ?_, by decide +kernel, rfl, fun h => ?_, fun h => ?_⟩
  · exact absurd (h.requested (builtinGroup 547) (by decide)) (by decide +kernel)
  · exact absurd (h.requested (builtinGroup 545) (by decide)) (by decide +kernel)
  · exact absurd (h.kept localGroup (by decide) (by decide +kernel)) (by decide +kernel)

end MinC.Win
