import MinC.Ksh.Table
import Mathlib.Data.List.Nodup

/-!
What a table of the shell is for.

A table is a dictionary from names to entries. A name that was entered keeps its
entry until the entry is not defined any more and a name is entered for which there
is no room: then the table may forget it. A walk comes to the entries one by one, and
the shell may change or delete entries before it goes on; but when a name was entered,
the slots may be others. The shell can rely on no more than that, and on nothing less,
in whatever order it calls the operations.
-/

namespace MinC.Ksh

open MinC.Lib

/-! ### Dictionaries -/

/-- The entry of each name, the flags of all entries, how many entries were ever given, and the
entries that each walk that can go on has before it. -/
structure Dict where
  held : List UInt8 → Option Nat
  flag : Nat → UInt32
  next : Nat
  coming : Nat → Option (List Nat)

namespace Dict

def empty : Dict := ⟨fun _ => none, fun _ => 0, 0, fun _ => none⟩

def defined (d : Dict) (n : List UInt8) : Option Nat :=
  (d.held n).filter fun p => isDefined (d.flag p)

/-- A new entry for a name, which no walk can be relied on to come to or to pass over. -/
def put (d : Dict) (n : List UInt8) : Dict where
  held := Function.update d.held n (some d.next)
  flag := Function.update d.flag d.next 0
  next := d.next + 1
  coming := fun _ => none

def setFlag (d : Dict) (p : Nat) (flag : UInt32) : Dict :=
  { d with flag := Function.update d.flag p flag }

def setComing (d : Dict) (w : Nat) (ps : List Nat) : Dict :=
  { d with coming := Function.update d.coming w (some ps) }

/-- Where a walk with these entries before it comes to a defined one. -/
def fromDefined (d : Dict) (ps : List Nat) : List Nat :=
  ps.dropWhile fun p => !isDefined (d.flag p)

/-- Only the defined entries are kept, in other slots. -/
def onlyDefined (d : Dict) : Dict := { d with held := d.defined, coming := fun _ => none }

/-- The entries that are not defined may be forgotten, all of them at once. -/
def Forgets (d d' : Dict) : Prop := d' = d ∨ d' = d.onlyDefined

/-- These are the entries with listed flags, in the order of their names. -/
structure Lists (d : Dict) (listed : UInt32 → Bool) (ns : List (List UInt8)) (ps : List Nat) :
    Prop where
  held : ps.map some = ns.map d.held
  nodup : ns.Nodup
  complete : ∀ n, n ∈ ns ↔ ∃ p, d.held n = some p ∧ listed (d.flag p) = true

end Dict

inductive TableCall
  | ktenter (n : List UInt8)
  | ktsearch (n : List UInt8)
  | setFlag (p : Nat) (flag : UInt32)
  | ktdelete (p : Nat)
  | ktwalk (w : Nat)
  | ktnext (w : Nat)
  | ktsort

inductive TableReply
  | entry (p : Option Nat)
  | entries (ps : List Nat)
  | done
  deriving DecidableEq

/-- What a call may do to a dictionary, and what it may reply. -/
inductive DictStep : Dict → TableCall → TableReply → Dict → Prop
  | found {d : Dict} {n : List UInt8} {p : Nat} (hn : d.held n = some p) :
      DictStep d (.ktenter n) (.entry (some p)) d
  | added {d d' : Dict} {n : List UInt8} (hn : d.held n = none) (hd : d.Forgets d') :
      DictStep d (.ktenter n) (.entry (some d.next)) (d'.put n)
  | refused {d d' : Dict} {n : List UInt8} (hn : d.held n = none) (hd : d.Forgets d')
      (hmany : KTable.manyNames ≤ d.next) : DictStep d (.ktenter n) (.entry none) d'
  | searched (d : Dict) (n : List UInt8) : DictStep d (.ktsearch n) (.entry (d.defined n)) d
  | set (d : Dict) (p : Nat) (flag : UInt32) : DictStep d (.setFlag p flag) .done (d.setFlag p flag)
  | deleted (d : Dict) (p : Nat) : DictStep d (.ktdelete p) .done (d.setFlag p 0)
  | begun {d : Dict} {ns : List (List UInt8)} {ps : List Nat} (w : Nat)
      (hps : d.Lists (fun _ => true) ns ps) : DictStep d (.ktwalk w) .done (d.setComing w ps)
  | goneOn {d : Dict} {w : Nat} {ps : List Nat} (hps : d.coming w = some ps) :
      DictStep d (.ktnext w) (.entry (d.fromDefined ps).head?)
        (d.setComing w (d.fromDefined ps).tail)
  | sorted {d : Dict} {ns : List (List UInt8)} {ps : List Nat} (hps : d.Lists isListed ns ps)
      (hns : ns.Pairwise (· < ·)) : DictStep d .ktsort (.entries ps) d

inductive DictRun : Dict → List TableCall → List TableReply → Dict → Prop
  | nil (d : Dict) : DictRun d [] [] d
  | cons {d d' d'' : Dict} {call : TableCall} {reply : TableReply} {calls : List TableCall}
      {replies : List TableReply} (hd : DictStep d call reply d')
      (hd' : DictRun d' calls replies d'') : DictRun d (call :: calls) (reply :: replies) d''

namespace Dict

variable {d d' : Dict}

theorem defined_eq_some {n : List UInt8} {p : Nat} :
    d.defined n = some p ↔ d.held n = some p ∧ isDefined (d.flag p) = true :=
  Option.filter_eq_some_iff

/-- What is forgotten once is forgotten. -/
theorem onlyDefined_onlyDefined (d : Dict) : d.onlyDefined.onlyDefined = d.onlyDefined := by
  have hdefined : d.onlyDefined.defined = d.defined := by
    funext n
    refine Option.ext fun p => ?_
    rw [defined_eq_some, onlyDefined, defined_eq_some]
    tauto
  rw [onlyDefined, hdefined]
  rfl

theorem Forgets.of_onlyDefined (h : d.onlyDefined.Forgets d') : d.Forgets d' := by
  rcases h with h | h
  · exact .inr h
  · rw [onlyDefined_onlyDefined] at h
    exact .inr h

theorem isSome_setComing (d : Dict) {v w : Nat} (ps : List Nat)
    (h : v = w ∨ (d.coming v).isSome = true) : ((d.setComing w ps).coming v).isSome = true := by
  rw [setComing]
  dsimp only
  rw [Function.update_apply]
  split_ifs with hv
  · rfl
  · exact h.resolve_left hv

/-! ### Loops through a dictionary -/

/-- The listed entries among those with names. -/
theorem Lists.filter {listed : UInt32 → Bool} {ns : List (List UInt8)} {ps : List Nat}
    (h : d.Lists (fun _ => true) ns ps) :
    d.Lists listed (ns.filter fun n => (d.held n).any fun p => listed (d.flag p))
      (ps.filter fun p => listed (d.flag p)) where
  held := by
    have hns : (ns.map d.held).filter (Option.any fun p => listed (d.flag p)) =
        (ns.filter fun n => (d.held n).any fun p => listed (d.flag p)).map d.held :=
      List.filter_map
    rw [← h.held, List.filter_map] at hns
    exact hns
  nodup := h.nodup.filter _
  complete := fun n => by
    rw [List.mem_filter, h.complete, Option.any_eq_true]
    constructor
    · rintro ⟨-, p, hp, hlisted⟩
      exact ⟨p, hp, hlisted⟩
    · rintro ⟨p, hp, hlisted⟩
      exact ⟨⟨p, hp, rfl⟩, p, hp, hlisted⟩

/-- What is not defined is passed over. -/
theorem filter_fromDefined (d : Dict) (ps : List Nat) :
    (ps.filter fun p => isDefined (d.flag p)) =
      (d.fromDefined ps).head?.toList ++
        (d.fromDefined ps).tail.filter fun p => isDefined (d.flag p) := by
  induction ps with
  | nil => rfl
  | cons p ps ih =>
      rw [List.filter_cons, fromDefined, List.dropWhile_cons]
      cases hdefined : isDefined (d.flag p) with
      | true => rfl
      | false => exact ih

end Dict

/-- To enter a name after all that is not defined was forgotten. -/
theorem DictStep.of_onlyDefined {d d' : Dict} {n : List UInt8} {reply : TableReply}
    (hn : d.held n = none) (h : DictStep d.onlyDefined (.ktenter n) reply d') :
    DictStep d (.ktenter n) reply d' := by
  cases h with
  | found hheld =>
      have hp := (Dict.defined_eq_some.mp hheld).1
      cases hn.symm.trans hp
  | added _ hforgets => exact .added hn hforgets.of_onlyDefined
  | refused _ hforgets hmany => exact .refused hn hforgets.of_onlyDefined hmany

/-- A loop with `ktnext` comes to the defined ones of the entries before it, and to no other. -/
theorem DictRun.loop {d d' : Dict} {w turns : Nat} {replies : List TableReply} {ps : List Nat}
    (hps : d.coming w = some ps)
    (h : DictRun d (List.replicate turns (.ktnext w)) replies d') :
    replies = (List.range turns).map fun i =>
      .entry (ps.filter fun p => isDefined (d.flag p))[i]? := by
  induction turns generalizing d ps replies with
  | zero =>
      cases h
      rfl
  | succ turns ih =>
      rw [List.replicate_succ] at h
      cases h with
      | cons hd hd' =>
          cases hd with
          | goneOn hps' =>
              cases hps.symm.trans hps'
              have htail := ih (Function.update_self ..) hd'
              rw [List.range_succ_eq_map, List.map_cons, List.map_map, htail,
                d.filter_fromDefined ps]
              cases hfrom : d.fromDefined ps with
              | nil => rfl
              | cons p rest => rfl

/-- A loop through all of a dictionary comes to every defined entry once, and then to none. -/
theorem DictRun.walk {d d' : Dict} {w turns : Nat} {replies : List TableReply}
    (h : DictRun d (.ktwalk w :: List.replicate turns (.ktnext w)) replies d') :
    ∃ ns ps, d.Lists isDefined ns ps ∧
      replies = .done :: (List.range turns).map fun i => .entry ps[i]? := by
  cases h with
  | cons hd hd' =>
      cases hd with
      | @begun _ ps _ hps =>
          have hcoming : (d.setComing w ps).coming w = some ps := Function.update_self ..
          have hreplies := hd'.loop hcoming
          exact ⟨_, _, hps.filter, congrArg _ hreplies⟩

/-- The first calls of a run are a run, and so are those behind them. -/
theorem DictRun.split {d d'' : Dict} {before after : List TableCall} {replies : List TableReply}
    (h : DictRun d (before ++ after) replies d'') :
    ∃ d', DictRun d before (replies.take before.length) d' ∧
      DictRun d' after (replies.drop before.length) d'' := by
  induction before generalizing d replies with
  | nil => exact ⟨d, .nil d, h⟩
  | cons call before ih =>
      cases h with
      | cons hd hd' =>
          obtain ⟨d', hbefore, hafter⟩ := ih hd'
          exact ⟨d', .cons hd hbefore, hafter⟩

/-- Every loop through all of a dictionary comes to every entry once that is defined then, and
then to none. -/
def WholeWalks (calls : List TableCall) (replies : List TableReply) : Prop :=
  ∀ before w turns after,
    calls = before ++ (.ktwalk w :: List.replicate turns (.ktnext w) ++ after) →
      ∃ d ns ps, DictRun Dict.empty before (replies.take before.length) d ∧
        d.Lists isDefined ns ps ∧ (replies.drop before.length).take (turns + 1) =
          .done :: (List.range turns).map fun i => .entry ps[i]?

theorem DictRun.wholeWalks {d : Dict} {calls : List TableCall} {replies : List TableReply}
    (h : DictRun Dict.empty calls replies d) : WholeWalks calls replies := by
  rintro before w turns after rfl
  obtain ⟨d', hbefore, hrest⟩ := h.split
  obtain ⟨d'', hloop, -⟩ := hrest.split
  obtain ⟨ns, ps, hps, hreplies⟩ := DictRun.walk hloop
  rw [List.length_cons, List.length_replicate] at hreplies
  exact ⟨d', ns, ps, hbefore, hps, hreplies⟩

/-! ### Tables in use -/

/-- A table, and what the shell keeps of its walks through it. -/
structure TableUse where
  table : KTable
  walk : Nat → Option TState

namespace TableUse

def step (u : TableUse) : TableCall → Option (TableReply × TableUse)
  | .ktenter n =>
      (u.table.ktenter n (hash n)).map fun r => (.entry r.1, { u with table := r.2 })
  | .ktsearch n => (u.table.ktsearch n (hash n)).map fun p => (.entry p, u)
  | .setFlag p flag => some (.done, { u with table := u.table.setFlag p flag })
  | .ktdelete p => some (.done, { u with table := u.table.ktdelete p })
  | .ktwalk w =>
      some (.done, { u with walk := Function.update u.walk w (some u.table.ktwalk) })
  | .ktnext w =>
      (u.walk w).bind fun ts => (u.table.ktnext ts).map fun r =>
        (.entry r.1, { u with walk := Function.update u.walk w (some r.2) })
  | .ktsort => some (.entries u.table.ktsort, u)

/-- The replies to one call after the other. -/
def answers (u : TableUse) : List TableCall → Option (List TableReply × TableUse)
  | [] => some ([], u)
  | call :: calls =>
      (u.step call).bind fun r => (r.2.answers calls).map fun rs => (r.1 :: rs.1, rs.2)

end TableUse

/-- The walks that can go on after a call. -/
def begunAfter (begun : List Nat) : TableCall → List Nat
  | .ktenter _ => []
  | .ktwalk w => w :: begun
  | _ => begun

def mayGoOn (begun : List Nat) : TableCall → Bool
  | .ktnext w => decide (w ∈ begun)
  | _ => true

/-- Every walk that goes on has begun, and no name was entered since. -/
def timely (begun : List Nat) : List TableCall → Bool
  | [] => true
  | call :: calls => mayGoOn begun call && timely (begunAfter begun call) calls

namespace KTable

/-- The table has the entries of the dictionary. -/
structure Simulates (t : KTable) (d : Dict) : Prop where
  held : ∀ n p, d.held n = some p ↔ t.Has p ∧ t.nameOf p = n
  flag : ∀ p, d.flag p = (t.entry p).flag
  next : d.next = t.next

variable {t : KTable} {d : Dict}

theorem Simulates.held_nameOf (h : t.Simulates d) {p : Nat} (hp : t.Has p) :
    d.held (t.nameOf p) = some p :=
  (h.held _ _).mpr ⟨hp, rfl⟩

theorem Simulates.held_eq_none (h : t.Simulates d) {n : List UInt8}
    (hnot : ∀ p, t.Has p → t.nameOf p ≠ n) : d.held n = none := by
  cases hn : d.held n with
  | none => rfl
  | some p =>
      obtain ⟨hp, hname⟩ := (h.held n p).mp hn
      exact absurd hname (hnot p hp)

/-- A table with only the defined entries of another. -/
theorem Simulates.texpand (h : t.Simulates d) {t' : KTable} (hentry : t'.entry = t.entry)
    (hnext : t'.next = t.next)
    (hhas : ∀ p, t'.Has p ↔ t.Has p ∧ isDefined (t.entry p).flag = true) :
    t'.Simulates d.onlyDefined where
  held := fun n p => by
    rw [Dict.onlyDefined, Dict.defined_eq_some, h.held, h.flag, hhas, nameOf, nameOf, hentry]
    tauto
  flag := fun p => by
    rw [hentry]
    exact h.flag p
  next := h.next.trans hnext.symm

/-! ### Searching -/

theorem Sound.exists_empty (h : Sound t) (hpos : 0 < t.size) : ∃ j < t.size, t.tbls j = none := by
  have := h.room
  exact MinC.Lib.exists_empty (by omega)

theorem Sound.ktsearch (h : Sound t) (hd : t.Simulates d) (n : List UInt8) :
    t.ktsearch n (hash n) = some (d.defined n) := by
  rw [KTable.ktsearch]
  split_ifs with hsize
  · refine congrArg some (Eq.symm ?_)
    rw [Dict.defined, hd.held_eq_none, Option.filter_none]
    rintro p ⟨i, hi, _⟩
    omega
  · have hpos : 0 < t.size := Nat.pos_of_ne_zero hsize
    have hwanted : ∀ p, (decide ((t.entry p).name = n) && isDefined (t.entry p).flag) = true →
        t.nameOf p = n := by
      intro p hp
      rw [Bool.and_eq_true, decide_eq_true_eq] at hp
      exact hp.1
    obtain ⟨j, hj, hprobe, -, hfound⟩ :=
      h.searchable.probe (fun x => startOf_lt hpos (hash x)) (h.exists_empty hpos) n hwanted
    rw [hprobe, Option.map_some]
    refine congrArg some (Option.ext fun p => ?_)
    rw [Dict.defined_eq_some, hd.held, hd.flag]
    rcases hfound with ⟨q, hq, hname, hp⟩ | ⟨hnone, hnot⟩
    · rw [hq, Option.some_inj]
      rw [Bool.and_eq_true] at hp
      constructor
      · rintro rfl
        exact ⟨⟨⟨j, hj, hq⟩, hname⟩, hp.2⟩
      · rintro ⟨⟨⟨i, hi, hp'⟩, hname'⟩, _⟩
        cases h.searchable.single j hj i hi q p hq hp' (hname.trans hname'.symm)
        exact Option.some_inj.mp (hq.symm.trans hp')
    · rw [hnone]
      refine iff_of_false (by simp) ?_
      rintro ⟨⟨⟨i, hi, hp⟩, hname⟩, hdefined⟩
      have hunwanted := hnot i hi p hp hname
      rw [hdefined, Bool.and_true] at hunwanted
      exact of_decide_eq_false hunwanted hname

/-! ### Entering -/

theorem create_has (t : KTable) {j : Nat} (hj : j < t.size) (hnone : t.tbls j = none)
    (n : List UInt8) (p : Nat) : (t.create j n).Has p ↔ t.Has p ∨ p = t.next := by
  unfold Has create
  dsimp only
  constructor
  · rintro ⟨i, hi, hp⟩
    by_cases hij : i = j
    · rw [hij, Function.update_self] at hp
      exact .inr (Option.some.inj hp).symm
    · rw [Function.update_of_ne hij] at hp
      exact .inl ⟨i, hi, hp⟩
  · rintro (⟨i, hi, hp⟩ | rfl)
    · refine ⟨i, hi, ?_⟩
      rw [Function.update_of_ne]
      · exact hp
      · rintro rfl
        cases hnone.symm.trans hp
    · exact ⟨j, hj, Function.update_self ..⟩

theorem create_nameOf (t : KTable) (j : Nat) (n : List UInt8) (p : Nat) :
    (t.create j n).nameOf p = if p = t.next then n else t.nameOf p := by
  unfold nameOf create
  dsimp only
  rw [Function.update_apply]
  split_ifs <;> rfl

theorem create_nameOf_of_has (h : Sound t) (j : Nat) (n : List UInt8) {p : Nat} (hp : t.Has p) :
    (t.create j n).nameOf p = t.nameOf p := by
  rw [create_nameOf, if_neg (h.known p hp).1.ne]

theorem Simulates.create (hd : t.Simulates d) (h : Sound t) {j : Nat} (hj : j < t.size)
    (hnone : t.tbls j = none) {n : List UInt8} (hn : d.held n = none) :
    (t.create j n).Simulates (d.put n) where
  held := fun m p => by
    rw [create_has t hj hnone, Dict.put]
    dsimp only
    rw [Function.update_apply, hd.next]
    split_ifs with hm
    · rw [hm, Option.some_inj]
      constructor
      · rintro rfl
        exact ⟨.inr rfl, (create_nameOf ..).trans (if_pos rfl)⟩
      · rintro ⟨hp | rfl, hname⟩
        · rw [create_nameOf_of_has h j n hp] at hname
          cases hn.symm.trans ((hd.held n p).mpr ⟨hp, hname⟩)
        · rfl
    · rw [hd.held]
      constructor
      · rintro ⟨hp, hname⟩
        exact ⟨.inl hp, (create_nameOf_of_has h j n hp).trans hname⟩
      · rintro ⟨hp | rfl, hname⟩
        · exact ⟨hp, (create_nameOf_of_has h j n hp).symm.trans hname⟩
        · rw [create_nameOf, if_pos rfl] at hname
          exact absurd hname.symm hm
  flag := fun p => by
    rw [Dict.put, KTable.create]
    dsimp only
    rw [Function.update_apply, Function.update_apply, hd.next, hd.flag]
    split_ifs <;> rfl
  next := congrArg (· + 1) hd.next

theorem Sound.create (h : Sound t) (hfree : 0 < t.nfree) {j : Nat} (hj : j < t.size)
    (hnone : t.tbls j = none) {n : List UInt8}
    (hreaches : Reaches t.tbls t.size (startOf t.size (hash n)) j)
    (hnew : ∀ p, t.Has p → t.nameOf p ≠ n) : Sound (t.create j n) := by
  have hoccupied : occupied (t.create j n).tbls t.size = occupied t.tbls t.size + 1 :=
    occupied_update hj hnone t.next
  have hnfree := h.nfree
  have husable := usable_le t.size
  have hname : ∀ p, t.Has p → (t.create j n).nameOf p = t.nameOf p := fun p hp =>
    create_nameOf_of_has h j n hp
  have hnext : (t.create j n).nameOf t.next = n := (create_nameOf ..).trans (if_pos rfl)
  have hsearchable : Searchable t.tbls (t.create j n).nameOf (fun x => startOf t.size (hash x))
      t.size := by
    constructor
    · intro i hi p hp
      rw [hname p ⟨i, hi, hp⟩]
      exact h.searchable.reached i hi p hp
    · intro i hi i' hi' p q hp hq hpq
      rw [hname p ⟨i, hi, hp⟩, hname q ⟨i', hi', hq⟩] at hpq
      exact h.searchable.single i hi i' hi' p q hp hq hpq
  refine ⟨h.bound, h.many.imp_right Nat.le_succ_of_le, ?_, ?_, ?_, fun p hp => ?_, fun p hp => ?_⟩
  · refine hsearchable.put hj ?_ fun i hi p hp => ?_
    · rw [hnext]
      exact hreaches
    · rw [hname p ⟨i, hi, hp⟩, hnext]
      exact hnew p ⟨i, hi, hp⟩
  · have : 10 * occupied (t.create j n).tbls t.size ≤ 7 * t.size := by
      rw [hoccupied]
      omega
    exact this
  · have : t.nfree - 1 = usable t.size - occupied (t.create j n).tbls t.size := by
      rw [hoccupied]
      omega
    exact this
  · rcases (create_has t hj hnone n p).mp hp with hold | rfl
    · exact ⟨Nat.lt_succ_of_lt (h.known p hold).1, (h.known p hold).2⟩
    · exact ⟨Nat.lt_succ_self _, fun hfreed => Nat.lt_irrefl _ (h.freed _ hfreed)⟩
  · exact Nat.lt_succ_of_lt (h.freed p hp)

/-- There are not more entries in a table than were ever given. -/
theorem Sound.occupied_le_next (h : Sound t) : occupied t.tbls t.size ≤ t.next := by
  have hmaps : ∀ i ∈ (Finset.range t.size).filter fun i => (t.tbls i).isSome = true,
      (t.tbls i).getD 0 ∈ Finset.range t.next := by
    intro i hi
    obtain ⟨hi, hsome⟩ := Finset.mem_filter.mp hi
    obtain ⟨p, hp⟩ := Option.isSome_iff_exists.mp hsome
    rw [hp, Option.getD_some, Finset.mem_range]
    exact (h.known p ⟨i, Finset.mem_range.mp hi, hp⟩).1
  have hinj : Set.InjOn (fun i => (t.tbls i).getD 0)
      ((Finset.range t.size).filter fun i => (t.tbls i).isSome = true) := by
    intro i hi i' hi' heq
    obtain ⟨hi, hsome⟩ := Finset.mem_filter.mp hi
    obtain ⟨hi', hsome'⟩ := Finset.mem_filter.mp hi'
    obtain ⟨p, hp⟩ := Option.isSome_iff_exists.mp hsome
    obtain ⟨q, hq⟩ := Option.isSome_iff_exists.mp hsome'
    dsimp only at heq
    rw [hp, hq, Option.getD_some, Option.getD_some] at heq
    refine h.searchable.single i (Finset.mem_range.mp hi) i' (Finset.mem_range.mp hi') p q hp hq ?_
    rw [heq]
  have hcard := Finset.card_le_card_of_injOn _ hmaps hinj
  rw [Finset.card_range] at hcard
  exact hcard

/-- A table that is too full was not made that small. -/
theorem Sound.many_of_full (h : Sound t) (hfull : t.nfree ≤ 0) (hlarge : intMax < 14 * t.size) :
    manyNames ≤ t.next := by
  rcases h.many with hfits | hmany
  · have hle := h.occupied_le_next
    have hnfree := h.nfree
    rw [usable_eq hfits] at hnfree
    rw [intMax] at hlarge
    rw [manyNames]
    omega
  · exact hmany

/-- In a table that was made larger no loop goes on. -/
theorem coming_of_onlyDefined {P : Prop} {d d' : Dict}
    (h : P ∧ d' = d.onlyDefined ∨ ∀ w, d'.coming w = none) (w : Nat) : d'.coming w = none := by
  rcases h with ⟨-, rfl⟩ | hnone
  · rfl
  · exact hnone w

/-- `Search:` comes to an end, because the size of a table can only double so often. -/
theorem Sound.enterFrom (n : List UInt8) {turns : Nat} (h : Sound t) (hd : t.Simulates d)
    (hpos : 0 < t.size) (hturns : intMax < t.size <<< turns) :
    ∃ p t', enterFrom n (hash n) turns t = some (p, t') ∧ Sound t' ∧
      ∃ d', DictStep d (.ktenter n) (.entry p) d' ∧ t'.Simulates d' ∧
        (t' = t ∧ d' = d ∨ ∀ w, d'.coming w = none) := by
  induction turns generalizing t d with
  | zero => exact absurd h.bound (Nat.not_le_of_lt hturns)
  | succ turns ih =>
      have hwanted : ∀ p, decide ((t.entry p).name = n) = true → t.nameOf p = n :=
        fun p hp => of_decide_eq_true hp
      obtain ⟨j, hj, hprobe, hreaches, hfound⟩ :=
        h.searchable.probe (fun x => startOf_lt hpos (hash x)) (h.exists_empty hpos) n hwanted
      rw [KTable.enterFrom, hprobe, Option.bind_some]
      rcases hfound with ⟨p, hp, hname, -⟩ | ⟨hnone, hnot⟩
      · rw [hp]
        exact ⟨some p, t, rfl, h, d, .found ((hd.held n p).mpr ⟨⟨j, hj, hp⟩, hname⟩), hd,
          .inl ⟨rfl, rfl⟩⟩
      · have hnew : ∀ p, t.Has p → t.nameOf p ≠ n := by
          rintro p ⟨i, hi, hp⟩ hname
          exact of_decide_eq_false (hnot i hi p hp hname) hname
        have hn := hd.held_eq_none hnew
        rw [hnone]
        dsimp only
        split_ifs with hfull hlarge
        · have hmany : 7 * (2 * t.size) ≤ intMax ∨ manyNames ≤ t.next := by
            by_cases hfits : 7 * (2 * t.size) ≤ intMax
            · exact .inl hfits
            · exact .inr (h.many_of_full hfull (by omega))
          obtain ⟨t', hexpand, h', hsize, hentry, hnext, hhas⟩ :=
            h.texpand (by omega) (by omega) (by omega) hmany
          rw [hexpand, Option.bind_some]
          rw [Nat.shiftLeft_succ_inside, ← hsize] at hturns
          obtain ⟨p, t'', henter, h'', d', hstep, hd', hwalks⟩ :=
            ih h' (hd.texpand hentry hnext hhas) (by omega) hturns
          exact ⟨p, t'', henter, h'', d', hstep.of_onlyDefined hn, hd',
            .inr (coming_of_onlyDefined hwalks)⟩
        · refine ⟨none, t, rfl, h, d, .refused hn (.inl rfl) ?_, hd, .inl ⟨rfl, rfl⟩⟩
          rw [hd.next]
          refine h.many_of_full hfull ?_
          rw [intMax] at hlarge ⊢
          omega
        · have hfree : 0 < t.nfree := by omega
          refine ⟨some t.next, t.create j n, rfl, h.create hfree hj hnone hreaches hnew, d.put n,
            ?_, hd.create h hj hnone hn, .inr fun w => rfl⟩
          rw [← hd.next]
          exact .added hn (.inl rfl)

theorem Sound.ktenter (h : Sound t) (hd : t.Simulates d) (n : List UInt8) :
    ∃ p t', t.ktenter n (hash n) = some (p, t') ∧ Sound t' ∧
      ∃ d', DictStep d (.ktenter n) (.entry p) d' ∧ t'.Simulates d' ∧
        (t' = t ∧ d' = d ∨ ∀ w, d'.coming w = none) := by
  rw [KTable.ktenter]
  split_ifs with hsize
  · obtain ⟨t', hexpand, h', hsize', hentry, hnext, hhas⟩ :=
      h.texpand (show initTbls ≤ intMax by decide) (by decide) (by omega) (.inl (by decide))
    have hpos : 0 < t'.size := hsize' ▸ (by decide : 0 < initTbls)
    have hturns : intMax < t'.size <<< 32 := hsize' ▸ (by decide : intMax < initTbls <<< 32)
    rw [hexpand, Option.bind_some]
    have hd' := hd.texpand hentry hnext hhas
    obtain ⟨p, t'', henter, h'', d', hstep, hd'', hwalks⟩ := h'.enterFrom n hd' hpos hturns
    have hn : d.held n = none := by
      refine hd.held_eq_none ?_
      rintro p ⟨i, hi, _⟩
      omega
    exact ⟨p, t'', henter, h'', d', hstep.of_onlyDefined hn, hd'',
      .inr (coming_of_onlyDefined hwalks)⟩
  · have hpos : 0 < t.size := Nat.pos_of_ne_zero hsize
    refine h.enterFrom n hd hpos ?_
    rw [Nat.shiftLeft_eq]
    exact Nat.lt_of_lt_of_le (by decide) (Nat.mul_le_mul_right _ hpos)

/-! ### The other calls -/

theorem setFlag_nameOf (t : KTable) (p : Nat) (flag : UInt32) :
    (t.setFlag p flag).nameOf = t.nameOf := by
  funext q
  unfold nameOf setFlag
  dsimp only
  rw [Function.update_apply]
  split_ifs with hq
  · rw [hq]
  · rfl

theorem Sound.setFlag (h : Sound t) (p : Nat) (flag : UInt32) : Sound (t.setFlag p flag) := by
  refine ⟨h.bound, h.many, ?_, h.room, h.nfree, h.known, h.freed⟩
  rw [setFlag_nameOf]
  exact h.searchable

theorem Simulates.setFlag (hd : t.Simulates d) (p : Nat) (flag : UInt32) :
    (t.setFlag p flag).Simulates (d.setFlag p flag) where
  held := fun n q => by
    rw [setFlag_nameOf]
    exact hd.held n q
  flag := fun q => by
    rw [Dict.setFlag, KTable.setFlag]
    dsimp only
    rw [Function.update_apply, Function.update_apply, hd.flag]
    split_ifs <;> rfl
  next := hd.next

/-- The entries in the slots from one on. -/
def slotsFrom (t : KTable) (next left : Nat) : List Nat :=
  (List.range' next left).filterMap t.tbls

theorem slotsFrom_succ (t : KTable) (next left : Nat) :
    t.slotsFrom next (left + 1) = (t.tbls next).toList ++ t.slotsFrom (next + 1) left := by
  rw [slotsFrom, List.range'_succ, List.filterMap_cons]
  cases t.tbls next with
  | none => rfl
  | some p => rfl

/-- `ktnext` comes to the first defined entry before it, and leaves those behind it. -/
theorem Simulates.nextDefined (hd : t.Simulates d) (left next : Nat) :
    (d.fromDefined (t.slotsFrom next left)).head? = (t.nextDefined left next).1 ∧
      (d.fromDefined (t.slotsFrom next left)).tail =
        t.slotsFrom (t.nextDefined left next).2.2 (t.nextDefined left next).2.1 := by
  induction left generalizing next with
  | zero => exact ⟨rfl, rfl⟩
  | succ left ih =>
      rw [slotsFrom_succ, KTable.nextDefined]
      cases t.tbls next with
      | none => exact ih (next + 1)
      | some p =>
          rw [Option.toList_some, List.singleton_append, Dict.fromDefined, List.dropWhile_cons,
            hd.flag]
          dsimp only
          cases isDefined (t.entry p).flag with
          | true => exact ⟨rfl, rfl⟩
          | false => exact ih (next + 1)

theorem mem_slotsFrom (t : KTable) (p : Nat) : p ∈ t.slotsFrom 0 t.size ↔ t.Has p := by
  rw [slotsFrom, ← List.range_eq_range', List.mem_filterMap, Has]
  simp

theorem Sound.nodup_slotsFrom (h : Sound t) : (t.slotsFrom 0 t.size).Nodup := by
  rw [slotsFrom, ← List.range_eq_range', List.Nodup, List.pairwise_filterMap]
  refine List.pairwise_lt_range.imp_of_mem fun {i j} hi hj hlt p hp q hq => ?_
  rintro rfl
  have := h.searchable.single i (List.mem_range.mp hi) j (List.mem_range.mp hj) p p hp hq rfl
  omega

/-- What is listed belongs to the dictionary. -/
theorem Simulates.lists (hd : t.Simulates d) {listed : UInt32 → Bool} {ps : List Nat}
    (hnodup : ps.Nodup) (hmem : ∀ p, p ∈ ps ↔ t.Has p ∧ listed (t.entry p).flag = true) :
    d.Lists listed (ps.map t.nameOf) ps where
  held := by
    rw [List.map_map]
    exact List.map_congr_left fun p hp => (hd.held_nameOf ((hmem p).mp hp).1).symm
  nodup := by
    refine hnodup.map_on fun p hp q hq hname => ?_
    have hp' := hd.held_nameOf ((hmem p).mp hp).1
    have hq' := hd.held_nameOf ((hmem q).mp hq).1
    rw [hname, hq'] at hp'
    exact (Option.some.inj hp').symm
  complete := fun n => by
    rw [List.mem_map]
    constructor
    · rintro ⟨p, hp, rfl⟩
      obtain ⟨hhas, hlisted⟩ := (hmem p).mp hp
      exact ⟨p, hd.held_nameOf hhas, hd.flag p ▸ hlisted⟩
    · rintro ⟨p, hp, hlisted⟩
      obtain ⟨hhas, hname⟩ := (hd.held n p).mp hp
      exact ⟨p, (hmem p).mpr ⟨hhas, hd.flag p ▸ hlisted⟩, hname⟩

/-- A walk that begins has all entries before it. -/
theorem Sound.lists_slotsFrom (h : Sound t) (hd : t.Simulates d) :
    d.Lists (fun _ => true) ((t.slotsFrom 0 t.size).map t.nameOf) (t.slotsFrom 0 t.size) :=
  hd.lists h.nodup_slotsFrom fun p => (t.mem_slotsFrom p).trans (and_iff_left rfl).symm

theorem Sound.ktsort (h : Sound t) (hd : t.Simulates d) :
    DictStep d .ktsort (.entries t.ktsort) d := by
  have hperm : t.ktsort.Perm
      ((t.slotsFrom 0 t.size).filter fun p => isListed (t.entry p).flag) := by
    rw [slotsFrom, ← List.range_eq_range']
    exact List.mergeSort_perm _ _
  have hlists := hd.lists (hperm.nodup_iff.mpr (h.nodup_slotsFrom.filter _)) fun p =>
    hperm.mem_iff.trans (List.mem_filter.trans (and_congr_left' (t.mem_slotsFrom p)))
  refine .sorted hlists ?_
  have hsorted : t.ktsort.Pairwise fun p q => decide ((t.entry p).name ≤ (t.entry q).name) = true :=
    List.pairwise_mergeSort
      (fun p q r hpq hqr => by
        rw [decide_eq_true_eq] at *
        exact List.le_trans hpq hqr)
      (fun p q => by
        rw [Bool.or_eq_true, decide_eq_true_eq, decide_eq_true_eq]
        exact List.le_total _ _) _
  have hle : (t.ktsort.map t.nameOf).Pairwise (· ≤ ·) := by
    rw [List.pairwise_map]
    exact hsorted.imp fun hpq => of_decide_eq_true hpq
  exact (hle.and hlists.nodup).imp fun hab => Std.lt_of_le_of_ne hab.1 hab.2

/-! ### Runs -/

end KTable

/-- The walks of a dictionary are walks through the slots that the table has. -/
structure TableUse.Follows (u : TableUse) (d : Dict) : Prop where
  sound : u.table.Sound
  table : u.table.Simulates d
  coming : ∀ w ps, d.coming w = some ps → ∃ ts, u.walk w = some ts ∧
    ts.serial = u.table.serial ∧ ps = u.table.slotsFrom ts.next ts.left

namespace TableUse

variable {u : TableUse} {d : Dict}

/-- One walk is at another place, the others are where they were. -/
theorem Follows.setComing (h : u.Follows d) (w : Nat) (ts : TState)
    (hts : ts.serial = u.table.serial) :
    Follows { u with walk := Function.update u.walk w (some ts) }
      (d.setComing w (u.table.slotsFrom ts.next ts.left)) where
  sound := h.sound
  table := ⟨h.table.held, h.table.flag, h.table.next⟩
  coming := fun v ps hps => by
    rw [Dict.setComing] at hps
    dsimp only at hps ⊢
    by_cases hv : v = w
    · rw [hv, Function.update_self] at hps ⊢
      exact ⟨ts, rfl, hts, (Option.some.inj hps).symm⟩
    · rw [Function.update_of_ne hv] at hps ⊢
      exact h.coming v ps hps

theorem Follows.setFlag (h : u.Follows d) (p : Nat) (flag : UInt32) :
    Follows { u with table := u.table.setFlag p flag } (d.setFlag p flag) :=
  ⟨h.sound.setFlag p flag, h.table.setFlag p flag, h.coming⟩

theorem Follows.ktenter (h : u.Follows d) (n : List UInt8) :
    ∃ p u', u.step (.ktenter n) = some (.entry p, u') ∧
      ∃ d', DictStep d (.ktenter n) (.entry p) d' ∧ u'.Follows d' := by
  obtain ⟨p, t', henter, ht', d', hstep, hd', hwalks⟩ := h.sound.ktenter h.table n
  refine ⟨p, { u with table := t' }, ?_, d', hstep, ht', hd', fun w ps hps => ?_⟩
  · rw [step, henter, Option.map_some]
  · rcases hwalks with ⟨rfl, rfl⟩ | hnone
    · exact h.coming w ps hps
    · cases (hnone w).symm.trans hps

theorem Follows.ktwalk (h : u.Follows d) (w : Nat) :
    ∃ u', u.step (.ktwalk w) = some (.done, u') ∧
      ∃ ps, DictStep d (.ktwalk w) .done (d.setComing w ps) ∧ u'.Follows (d.setComing w ps) :=
  ⟨_, rfl, _, .begun w (h.sound.lists_slotsFrom h.table), h.setComing w _ rfl⟩

theorem Follows.ktnext (h : u.Follows d) {w : Nat} (hw : (d.coming w).isSome = true) :
    ∃ p u', u.step (.ktnext w) = some (.entry p, u') ∧
      ∃ ps, DictStep d (.ktnext w) (.entry p) (d.setComing w ps) ∧
        u'.Follows (d.setComing w ps) := by
  obtain ⟨ps, hps⟩ := Option.isSome_iff_exists.mp hw
  obtain ⟨ts, hwalk, hserial, hslots⟩ := h.coming w ps hps
  obtain ⟨hhead, htail⟩ := h.table.nextDefined ts.left ts.next
  rw [← hslots] at hhead htail
  have hstep := DictStep.goneOn hps
  rw [hhead, htail] at hstep
  refine ⟨_, _, ?_, _, hstep, h.setComing w ⟨_, _, ts.serial⟩ hserial⟩
  rw [step, hwalk, Option.bind_some, KTable.ktnext, if_pos (.inr hserial)]
  rfl

/-- One call ends, and does what it may do to the dictionary. -/
theorem Follows.step (h : u.Follows d) {begun : List Nat}
    (hbegun : ∀ w ∈ begun, (d.coming w).isSome = true) {call : TableCall}
    (hcall : mayGoOn begun call = true) :
    ∃ reply u', u.step call = some (reply, u') ∧ ∃ d', DictStep d call reply d' ∧
      u'.Follows d' ∧ ∀ w ∈ begunAfter begun call, (d'.coming w).isSome = true := by
  cases call with
  | ktenter n =>
      obtain ⟨p, u', hstep, d', hd, hu'⟩ := h.ktenter n
      exact ⟨.entry p, u', hstep, d', hd, hu', fun w hw => absurd hw List.not_mem_nil⟩
  | ktsearch n =>
      refine ⟨.entry (d.defined n), u, ?_, d, .searched d n, h, hbegun⟩
      rw [TableUse.step, h.sound.ktsearch h.table, Option.map_some]
  | setFlag p flag => exact ⟨_, _, rfl, _, .set d p flag, h.setFlag p flag, hbegun⟩
  | ktdelete p => exact ⟨_, _, rfl, _, .deleted d p, h.setFlag p 0, hbegun⟩
  | ktwalk w =>
      obtain ⟨u', hstep, ps, hd, hu'⟩ := h.ktwalk w
      exact ⟨_, u', hstep, _, hd, hu', fun v hv =>
        d.isSome_setComing ps ((List.mem_cons.mp hv).imp_right (hbegun v))⟩
  | ktnext w =>
      obtain ⟨p, u', hstep, ps, hd, hu'⟩ := h.ktnext (hbegun w (of_decide_eq_true hcall))
      exact ⟨_, u', hstep, _, hd, hu', fun v hv => d.isSome_setComing ps (.inr (hbegun v hv))⟩
  | ktsort => exact ⟨_, u, rfl, d, h.sound.ktsort h.table, h, hbegun⟩

theorem Follows.answers (h : u.Follows d) {begun : List Nat}
    (hbegun : ∀ w ∈ begun, (d.coming w).isSome = true) {calls : List TableCall}
    (hcalls : timely begun calls = true) :
    ∃ replies u', u.answers calls = some (replies, u') ∧
      ∃ d', DictRun d calls replies d' ∧ u'.Follows d' := by
  induction calls generalizing u d begun with
  | nil => exact ⟨[], u, rfl, d, .nil d, h⟩
  | cons call calls ih =>
      rw [timely, Bool.and_eq_true] at hcalls
      obtain ⟨reply, u', hstep, d', hdstep, hu', hbegun'⟩ := h.step hbegun hcalls.1
      obtain ⟨replies, u'', hrun, d'', hdrun, hu''⟩ := ih hu' hbegun' hcalls.2
      refine ⟨reply :: replies, u'', ?_, d'', .cons hdstep hdrun, hu''⟩
      rw [TableUse.answers, hstep, Option.bind_some]
      dsimp only
      rw [hrun]
      rfl

end TableUse

namespace KTable

theorem sound_slotless : Sound slotless := by
  refine ⟨Nat.zero_le _, .inl (Nat.zero_le _), searchable_empty _ _ _, ?_, ?_, ?_, ?_⟩
  · rw [slotless, occupied_empty]
    exact Nat.zero_le _
  · rw [slotless, occupied_empty]
    rfl
  · rintro p ⟨i, hi, _⟩
    exact absurd hi (Nat.not_lt_zero i)
  · intro p hp
    cases hp

theorem sound_ktinit {tsize : Nat} (h : 7 * tsize ≤ intMax) :
    ∃ t, ktinit tsize = some t ∧ Sound t ∧ t.Simulates Dict.empty := by
  have hempty : ∀ {t : KTable}, (∀ p, ¬ t.Has p) → (∀ p, (t.entry p).flag = 0) → t.next = 0 →
      t.Simulates Dict.empty := fun hhas hflag hnext =>
    ⟨fun n p => iff_of_false (fun hp => by cases hp) fun hp => hhas p hp.1,
      fun p => (hflag p).symm, hnext.symm⟩
  have hnone : ∀ p, ¬ slotless.Has p := by
    rintro p ⟨i, hi, _⟩
    exact absurd hi (Nat.not_lt_zero i)
  rw [ktinit]
  split_ifs with hsize
  · obtain ⟨t, hexpand, ht, -, hentry, hnext, hhas⟩ :=
      sound_slotless.texpand (by omega) (by omega) (Nat.zero_le _) (.inl h)
    refine ⟨t, hexpand, ht, hempty (fun p hp => hnone p ((hhas p).mp hp).1) (fun p => ?_) hnext⟩
    rw [hentry]
    rfl
  · exact ⟨_, rfl, sound_slotless, hempty hnone (fun _ => rfl) rfl⟩

/-- A table is a dictionary: whatever is done with it, every call ends and replies what it may,
and no entry that a name still has was given back. Only no walk may go on after a name was
entered. -/
theorem tables_are_dictionaries (tsize : Nat) (h : 7 * tsize ≤ intMax) (calls : List TableCall)
    (hcalls : timely [] calls = true) :
    ∃ t replies u d, ktinit tsize = some t ∧
      TableUse.answers ⟨t, fun _ => none⟩ calls = some (replies, u) ∧
      DictRun Dict.empty calls replies d ∧ WholeWalks calls replies ∧ u.table.Simulates d ∧
      ∀ n p, d.held n = some p → p ∉ u.table.freed := by
  obtain ⟨t, hinit, ht, hd⟩ := sound_ktinit h
  have hfollows : TableUse.Follows ⟨t, fun _ => none⟩ Dict.empty :=
    ⟨ht, hd, fun w ps hps => by cases hps⟩
  obtain ⟨replies, u, hrun, d, hdrun, hu⟩ :=
    hfollows.answers (fun w hw => absurd hw List.not_mem_nil) hcalls
  exact ⟨t, replies, u, d, hinit, hrun, hdrun, hdrun.wholeWalks, hu.table, fun n p hp =>
    (hu.sound.known p ((hu.table.held n p).mp hp).1).2⟩

/-- Six aliases, for which a table of eight slots is too small. The walk through all of them
passes over one that is deleted before the walk comes to it. -/
def aliasCalls : List TableCall :=
  [.ktenter [0x61], .setFlag 0 flagDefined, .ktenter [0x62], .setFlag 1 flagDefined,
    .ktenter [0x63], .setFlag 2 flagDefined, .ktenter [0x64], .setFlag 3 flagDefined,
    .ktenter [0x65], .setFlag 4 flagDefined, .ktwalk 0, .ktnext 0, .ktenter [0x66],
    .setFlag 5 flagDefined, .ktwalk 0, .ktnext 0, .ktdelete 1, .ktnext 0, .ktsearch [0x62]]

theorem aliases_are_dictionary :
    ((TableUse.answers ⟨slotless, fun _ => none⟩ aliasCalls).map fun r =>
      (r.1.drop 14, r.2.table.size)) =
      some ([.done, .entry (some 0), .done, .entry (some 2), .entry none], 16) ∧
    7 * 0 ≤ intMax ∧ timely [] aliasCalls = true ∧
    ∃ t replies u d, ktinit 0 = some t ∧
      TableUse.answers ⟨t, fun _ => none⟩ aliasCalls = some (replies, u) ∧
      DictRun Dict.empty aliasCalls replies d ∧ WholeWalks aliasCalls replies ∧
      u.table.Simulates d ∧
      ∀ n p, d.held n = some p → p ∉ u.table.freed :=
  ⟨by decide +kernel, by decide, by decide,
    tables_are_dictionaries 0 (by decide) aliasCalls (by decide)⟩

end KTable

end MinC.Ksh
