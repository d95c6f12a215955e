import MinC.Lib.Probing
import Mathlib.Data.List.Sort

/-!
The tables of the shell.

Variables, functions, aliases and keywords are kept in tables of entries with a
name. An entry is searched for by its name, and is only found if it is defined. To
delete an entry means to say that it is not defined; it stays where it is, and is
given again when its name is entered again. A table that has become too full is
copied to one of twice its size, and only then are such entries dropped.
-/

namespace MinC.Ksh

open MinC.Lib

/-! ### Entries and tables -/

def flagDefined : UInt32 := 0x2
def flagFinuse : UInt32 := 0x200
def flagArray : UInt32 := 0x2000

structure Tbl where
  name : List UInt8
  flag : UInt32
  deriving DecidableEq

def isDefined (flag : UInt32) : Bool := flag &&& flagDefined ≠ 0

/-- What `ktsort` lists. -/
def isListed (flag : UInt32) : Bool := flag &&& flagDefined ≠ 0 || flag &&& flagArray ≠ 0

/-- A table, with the entries its slots point to. The entries from `next` on are not allocated,
and those that were given back are freed. The slots have a number, a new one whenever they are
allocated anew. -/
structure KTable where
  size : Nat
  nfree : Int
  tbls : Nat → Option Nat
  entry : Nat → Tbl
  next : Nat
  freed : List Nat
  serial : Nat

/-- What is left of a walk, and of which slots. -/
structure TState where
  left : Nat
  next : Nat
  serial : Nat

def initTbls : Nat := 8
def intMax : Nat := 0x7FFFFFFF

def hash (n : List UInt8) : UInt32 := n.foldl (fun h c => 33 * h + c.toUInt32) 0

/-- Where a search begins. -/
def startOf (size : Nat) (h : UInt32) : Nat := (h &&& UInt32.ofNat (size - 1)).toNat

/-- How many entries a table of a size is to have at most, as the `int` that it is. -/
def usable (nsize : Nat) : Int := (Int.bmod (7 * nsize) 0x100000000).tdiv 10

namespace KTable

/-- Take one entry of an old table over, or give it back. -/
def takeOver (old : Nat → Option Nat) (t : KTable) (i : Nat) : Option KTable :=
  match old i with
  | none => some t
  | some p =>
      if isDefined (t.entry p).flag then
        (probe t.tbls (fun _ => false) t.size t.size (startOf t.size (hash (t.entry p).name))).map
          fun j => { t with tbls := Function.update t.tbls j (some p), nfree := t.nfree - 1 }
      else if (t.entry p).flag &&& flagFinuse = 0 then some { t with freed := p :: t.freed }
      else some t

def texpand (t : KTable) (nsize : Nat) : Option KTable :=
  (List.range t.size).foldlM (takeOver t.tbls)
    { t with
      size := nsize
      nfree := usable nsize
      tbls := fun _ => none
      serial := t.serial + 1 }

/-- A table without slots. -/
def slotless : KTable := ⟨0, 0, fun _ => none, fun _ => ⟨[], 0⟩, 0, [], 0⟩

def ktinit (tsize : Nat) : Option KTable :=
  if tsize ≠ 0 then slotless.texpand tsize else some slotless

/-- None is returned for a search without end. -/
def ktsearch (t : KTable) (n : List UInt8) (h : UInt32) : Option (Option Nat) :=
  if t.size = 0 then some none
  else
    (probe t.tbls (fun p => (t.entry p).name = n && isDefined (t.entry p).flag) t.size t.size
      (startOf t.size h)).map t.tbls

/-- Enter a name that is not in the table. -/
def create (t : KTable) (j : Nat) (n : List UInt8) : KTable :=
  { t with
    tbls := Function.update t.tbls j (some t.next)
    nfree := t.nfree - 1
    entry := Function.update t.entry t.next ⟨n, 0⟩
    next := t.next + 1 }

/-- `Search:` with as many turns as the size of a table can double. -/
def enterFrom (n : List UInt8) (h : UInt32) : Nat → KTable → Option (Option Nat × KTable)
  | 0, _ => none
  | turns + 1, t =>
      (probe t.tbls (fun p => (t.entry p).name = n) t.size t.size (startOf t.size h)).bind fun j =>
        match t.tbls j with
        | some p => some (some p, t)
        | none =>
            if t.nfree ≤ 0 then
              if t.size ≤ intMax / 2 then (t.texpand (2 * t.size)).bind (enterFrom n h turns)
              else some (none, t)
            else some (some t.next, t.create j n)

/-- No entry is returned if there are too many. -/
def ktenter (t : KTable) (n : List UInt8) (h : UInt32) : Option (Option Nat × KTable) :=
  (if t.size = 0 then t.texpand initTbls else some t).bind (enterFrom n h 32)

/-- What the shell does to an entry. -/
def setFlag (t : KTable) (p : Nat) (flag : UInt32) : KTable :=
  { t with entry := Function.update t.entry p { t.entry p with flag := flag } }

def ktdelete (t : KTable) (p : Nat) : KTable := t.setFlag p 0

def ktwalk (t : KTable) : TState := ⟨t.size, 0, t.serial⟩

/-- The first defined entry of the slots that are left, and what is left behind it. -/
def nextDefined (t : KTable) : Nat → Nat → Option Nat × Nat × Nat
  | 0, next => (none, 0, next)
  | left + 1, next =>
      match t.tbls next with
      | some p =>
          if isDefined (t.entry p).flag then (some p, left, next + 1)
          else t.nextDefined left (next + 1)
      | none => t.nextDefined left (next + 1)

/-- None is returned for slots that were given back and that are still to be looked at. -/
def ktnext (t : KTable) (ts : TState) : Option (Option Nat × TState) :=
  if ts.left = 0 ∨ ts.serial = t.serial then
    let r := t.nextDefined ts.left ts.next
    some (r.1, ⟨r.2.1, r.2.2, ts.serial⟩)
  else none

def ktsort (t : KTable) : List Nat :=
  (((List.range t.size).filterMap t.tbls).filter fun p => isListed (t.entry p).flag).mergeSort
    fun p q => decide ((t.entry p).name ≤ (t.entry q).name)

/-! ### What is kept -/

/-- The entry is in the table. -/
def Has (t : KTable) (p : Nat) : Prop := ∃ i < t.size, t.tbls i = some p

/-- What 70% of the largest table are for which twice the size does not fit into the product. -/
def manyNames : Nat := 107374182

def nameOf (t : KTable) (p : Nat) : List UInt8 := (t.entry p).name

/-- The entries can be found, there is room, and what is in the table is allocated. Only after
many names is a table so large that the product in `usable` does not fit. -/
structure Sound (t : KTable) : Prop where
  bound : t.size ≤ intMax
  many : 7 * t.size ≤ intMax ∨ manyNames ≤ t.next
  searchable : Searchable t.tbls t.nameOf (fun n => startOf t.size (hash n)) t.size
  room : 10 * occupied t.tbls t.size ≤ 7 * t.size
  nfree : t.nfree = usable t.size - occupied t.tbls t.size
  known : ∀ p, t.Has p → p < t.next ∧ p ∉ t.freed
  freed : ∀ p ∈ t.freed, p < t.next

end KTable

theorem startOf_lt {size : Nat} (hpos : 0 < size) (h : UInt32) : startOf size h < size := by
  have hle : startOf size h ≤ (UInt32.ofNat (size - 1)).toNat := by
    rw [startOf, UInt32.toNat_and]
    exact Nat.and_le_right
  have hmod : (UInt32.ofNat (size - 1)).toNat ≤ size - 1 := by
    rw [UInt32.toNat_ofNat']
    exact Nat.mod_le _ _
  omega

theorem tdiv_ten_le {a b : Int} (hab : a ≤ b) (hneg : a < 0 → 9 ≤ b) : 10 * a.tdiv 10 ≤ b := by
  have htdiv := Int.tdiv_mul_le a (show (10 : Int) ≠ 0 by decide)
  have habs : Int.natAbs 10 = 10 := rfl
  rw [habs] at htdiv
  split_ifs at htdiv <;> omega

/-- Where the product does not fit, a table is to have no entries. -/
theorem usable_le (nsize : Nat) : 10 * usable nsize ≤ 7 * nsize := by
  have hdiv : 0 ≤ (7 * nsize : Int) / 0x100000000 := by omega
  refine tdiv_ten_le ?_ fun hneg => ?_
  · rw [Int.bmod_def]
    split_ifs <;> omega
  · rw [Int.bmod_def] at hneg
    split_ifs at hneg <;> omega

theorem usable_eq {nsize : Nat} (h : 7 * nsize ≤ intMax) : usable nsize = 7 * nsize / 10 := by
  have hfits : 7 * nsize ≤ 0x7FFFFFFF := h
  have hpos : (0 : Int) ≤ 7 * nsize := by omega
  have hmod : Int.bmod (7 * nsize) 0x100000000 = 7 * nsize := by
    rw [Int.bmod_def]
    split_ifs <;> omega
  unfold usable
  rw [hmod]
  exact Int.tdiv_eq_ediv_of_nonneg hpos

/-! ### Taking entries over -/

namespace KTable

variable {t : KTable} {nsize : Nat}

/-- A table to which the entries of the first slots of an old one were taken over. -/
structure Moved (old : KTable) (nsize k : Nat) (t : KTable) : Prop where
  size : t.size = nsize
  entry : t.entry = old.entry
  next : t.next = old.next
  searchable : Searchable t.tbls old.nameOf (fun n => startOf nsize (hash n)) nsize
  few : occupied t.tbls nsize ≤ occupied old.tbls k
  nfree : t.nfree = usable nsize - occupied t.tbls nsize
  has : ∀ p, (∃ i < nsize, t.tbls i = some p) ↔
    ∃ i < k, old.tbls i = some p ∧ isDefined (old.entry p).flag = true
  freed : ∀ p ∈ t.freed, p ∈ old.freed ∨
    ∃ i < k, old.tbls i = some p ∧ isDefined (old.entry p).flag = false

/-- What was found of the slots up to one more. -/
theorem taken_succ (old : KTable) (k : Nat) (b : Bool) (p : Nat) :
    (∃ i < k + 1, old.tbls i = some p ∧ isDefined (old.entry p).flag = b) ↔
      (∃ i < k, old.tbls i = some p ∧ isDefined (old.entry p).flag = b) ∨
        old.tbls k = some p ∧ isDefined (old.entry p).flag = b := by
  constructor
  · rintro ⟨i, hi, hp⟩
    rcases Nat.lt_succ_iff_lt_or_eq.mp hi with hlt | rfl
    · exact .inl ⟨i, hlt, hp⟩
    · exact .inr hp
  · rintro (⟨i, hi, hp⟩ | hp)
    · exact ⟨i, by omega, hp⟩
    · exact ⟨k, by omega, hp⟩

/-- The slot is empty, or its entry is not defined. -/
theorem Moved.skip {old : KTable} {k : Nat} (h : Moved old nsize k t)
    (hnot : ∀ p, old.tbls k = some p → isDefined (old.entry p).flag = false)
    {freed : List Nat} (hfreed : ∀ p ∈ freed, p ∈ t.freed ∨ old.tbls k = some p) :
    Moved old nsize (k + 1) { t with freed := freed } where
  size := h.size
  entry := h.entry
  next := h.next
  searchable := h.searchable
  few := h.few.trans (occupied_le (Nat.le_succ k) _)
  nfree := h.nfree
  has := fun p => by
    rw [taken_succ]
    refine (h.has p).trans (or_iff_left ?_).symm
    rintro ⟨hslot, hdefined⟩
    cases (hnot p hslot).symm.trans hdefined
  freed := fun p hp => by
    rw [taken_succ]
    rcases hfreed p hp with hold | hslot
    · exact (h.freed p hold).imp_right .inl
    · exact .inr (.inr ⟨hslot, hnot p hslot⟩)

/-- The entry is put where the search for an empty slot ends. -/
theorem Moved.take {old : KTable} {k p : Nat} (hold : Sound old)
    (hroom : occupied old.tbls old.size < nsize) (hk : k < old.size) (h : Moved old nsize k t)
    (hslot : old.tbls k = some p) (hdefined : isDefined (old.entry p).flag = true) :
    ∃ j, probe t.tbls (fun _ => false) nsize nsize (startOf nsize (hash (old.nameOf p))) = some j ∧
      Moved old nsize (k + 1)
        { t with tbls := Function.update t.tbls j (some p), nfree := t.nfree - 1 } := by
  have hfew : occupied t.tbls nsize < nsize :=
    (h.few.trans (occupied_le hk.le _)).trans_lt hroom
  obtain ⟨j, hj, hprobe, hreaches, hstop, _⟩ := exists_probe (fun _ => false)
    (startOf_lt (Nat.zero_lt_of_lt hroom) (hash (old.nameOf p))) (exists_empty hfew)
  have hnone : t.tbls j = none := by
    cases hj : t.tbls j with
    | none => rfl
    | some q => cases hstop q hj
  have hoccupied := occupied_update hj hnone p
  refine ⟨j, hprobe, ⟨h.size, h.entry, h.next, ?_, ?_, ?_, fun q => ?_, fun q hq => ?_⟩⟩
  · refine h.searchable.put hj hreaches fun i hi q hq hname => ?_
    -- an entry with the same name would have been in an earlier slot
    obtain ⟨i', hi', hq', _⟩ := (h.has q).mp ⟨i, hi, hq⟩
    have hsame := hold.searchable.single i' (by omega) k hk q p hq' hslot hname
    omega
  · have hsucc := occupied_succ old.tbls k
    rw [hslot, if_pos Option.isSome_some] at hsucc
    have := h.few
    dsimp only
    omega
  · have := h.nfree
    dsimp only
    omega
  · rw [taken_succ, ← h.has q]
    dsimp only
    constructor
    · rintro ⟨i, hi, hq⟩
      by_cases hij : i = j
      · rw [hij, Function.update_self] at hq
        cases hq
        exact .inr ⟨hslot, hdefined⟩
      · rw [Function.update_of_ne hij] at hq
        exact .inl ⟨i, hi, hq⟩
    · rintro (⟨i, hi, hq⟩ | ⟨hq, _⟩)
      · refine ⟨i, hi, ?_⟩
        rw [Function.update_of_ne]
        · exact hq
        · rintro rfl
          cases hnone.symm.trans hq
      · cases hslot.symm.trans hq
        exact ⟨j, hj, Function.update_self ..⟩
  · rw [taken_succ]
    exact (h.freed q hq).imp_right .inl

theorem Moved.step {old : KTable} {k : Nat} (hold : Sound old)
    (hroom : occupied old.tbls old.size < nsize) (hk : k < old.size) (h : Moved old nsize k t) :
    ∃ t', takeOver old.tbls t k = some t' ∧ Moved old nsize (k + 1) t' := by
  rw [takeOver]
  cases hslot : old.tbls k with
  | none =>
      exact ⟨t, rfl, h.skip (fun p hp => by cases hslot.symm.trans hp) fun p hp => .inl hp⟩
  | some p =>
      have hentry : t.entry p = old.entry p := congrFun h.entry p
      dsimp only
      cases hdefined : isDefined (old.entry p).flag with
      | true =>
          obtain ⟨j, hprobe, hmoved⟩ := h.take hold hroom hk hslot hdefined
          rw [nameOf, ← hentry, ← h.size] at hprobe
          rw [if_pos (hentry ▸ hdefined), hprobe]
          exact ⟨_, rfl, hmoved⟩
      | false =>
          rw [hentry, hdefined, if_neg Bool.false_ne_true]
          have hnot : ∀ q, old.tbls k = some q → isDefined (old.entry q).flag = false := by
            intro q hq
            cases hslot.symm.trans hq
            exact hdefined
          split_ifs
          · refine ⟨_, rfl, h.skip hnot fun q hq => ?_⟩
            rcases List.mem_cons.mp hq with rfl | hq
            · exact .inr hslot
            · exact .inl hq
          · exact ⟨t, rfl, h.skip hnot fun q hq => .inl hq⟩

/-- Nothing has been taken over yet. -/
theorem Moved.zero (old : KTable) (nsize : Nat) : Moved old nsize 0
    { old with
      size := nsize
      nfree := usable nsize
      tbls := fun _ => none
      serial := old.serial + 1 } where
  size := rfl
  entry := rfl
  next := rfl
  searchable := searchable_empty _ _ _
  few := by
    rw [occupied_empty]
    exact Nat.zero_le _
  nfree := by
    dsimp only
    rw [occupied_empty]
    exact (Int.sub_zero _).symm
  has := by simp
  freed := fun _ hp => .inl hp

theorem Sound.moved (h : Sound t) (hroom : occupied t.tbls t.size < nsize) {k : Nat}
    (hk : k ≤ t.size) :
    ∃ t', (List.range k).foldlM (takeOver t.tbls)
      { t with
        size := nsize
        nfree := usable nsize
        tbls := fun _ => none
        serial := t.serial + 1 } = some t' ∧ Moved t nsize k t' := by
  induction k with
  | zero => exact ⟨_, rfl, Moved.zero t nsize⟩
  | succ k ih =>
      obtain ⟨t', hfold, hmoved⟩ := ih (by omega)
      obtain ⟨t'', hstep, hmoved'⟩ := hmoved.step h hroom (by omega)
      refine ⟨t'', ?_, hmoved'⟩
      rw [List.range_succ, List.foldlM_append, hfold]
      simpa using hstep

theorem Moved.has_iff {old : KTable} (h : Moved old nsize old.size t) (p : Nat) :
    t.Has p ↔ old.Has p ∧ isDefined (old.entry p).flag = true := by
  rw [Has, h.size, h.has p]
  exact ⟨fun ⟨i, hi, hp, hd⟩ => ⟨⟨i, hi, hp⟩, hd⟩, fun ⟨⟨i, hi, hp⟩, hd⟩ => ⟨i, hi, hp, hd⟩⟩

/-- A table to which all of a sound one was taken over is sound. -/
theorem Moved.sound {old : KTable} (h : Moved old nsize old.size t) (hold : Sound old)
    (hsize : nsize ≤ intMax) (hmore : old.size ≤ nsize)
    (hmany : 7 * nsize ≤ intMax ∨ manyNames ≤ old.next) : Sound t := by
  have hroom := hold.room
  have hfew := h.few
  have hnfree := h.nfree
  refine ⟨?_, ?_, ?_, ?_, ?_, fun p hp => ?_, fun p hp => ?_⟩
  · rw [h.size]
    exact hsize
  · rw [h.size, h.next]
    exact hmany
  · have hname : t.nameOf = old.nameOf := by
      funext p
      rw [nameOf, h.entry, nameOf]
    rw [h.size, hname]
    exact h.searchable
  · rw [h.size]
    omega
  · rw [h.size]
    exact hnfree
  · obtain ⟨hp, hdefined⟩ := (h.has_iff p).mp hp
    obtain ⟨hlt, hnot⟩ := hold.known p hp
    rw [h.next]
    refine ⟨hlt, fun hfreed => ?_⟩
    rcases h.freed p hfreed with hbefore | ⟨_, _, _, hundefined⟩
    · exact hnot hbefore
    · cases hundefined.symm.trans hdefined
  · rw [h.next]
    rcases h.freed p hp with hbefore | ⟨i, hi, hslot, _⟩
    · exact hold.freed p hbefore
    · exact (hold.known p ⟨i, hi, hslot⟩).1

/-- A table that is expanded has exactly the defined entries. -/
theorem Sound.texpand (h : Sound t) (hsize : nsize ≤ intMax) (hpos : 0 < nsize)
    (hmore : t.size ≤ nsize) (hmany : 7 * nsize ≤ intMax ∨ manyNames ≤ t.next) :
    ∃ t', t.texpand nsize = some t' ∧ Sound t' ∧ t'.size = nsize ∧ t'.entry = t.entry ∧
      t'.next = t.next ∧
      ∀ p, t'.Has p ↔ t.Has p ∧ isDefined (t.entry p).flag = true := by
  have hroom : occupied t.tbls t.size < nsize := by
    have := h.room
    omega
  obtain ⟨t', hfold, hmoved⟩ := h.moved hroom (Nat.le_refl _)
  exact ⟨t', hfold, hmoved.sound h hsize hmore hmany, hmoved.size, hmoved.entry, hmoved.next,
    hmoved.has_iff⟩

end KTable

end MinC.Ksh
