import Mathlib.Data.List.Induction

/-!
Records that are put one behind the other.

A dump puts the records of a table at a place, which moves on by the size of
each. Without a place to put them at it only adds up their sizes. What was put
is found again at its offset, and if records come in pairs of a header, which
tells both sizes, and what it announces, a reader gets from one to the next
without knowing the table.
-/

namespace MinC.Lib

variable {α : Type*}

structure Placed (α : Type*) where
  offset : Nat
  item : α
  deriving DecidableEq

section
variable (size : α → Nat)

/-- The room that records take. -/
def room (items : List α) : Nat := items.foldr (fun item n => size item + n) 0

def layOut : Nat → List α → List (Placed α)
  | _, [] => []
  | place, item :: items => ⟨place, item⟩ :: layOut (place + size item) items

/-- The records begin at a place and end at another, and there is nothing between one and the
next. -/
def Tiles : Nat → Nat → List (Placed α) → Prop
  | place, fin, [] => place = fin
  | place, fin, record :: records =>
      record.offset = place ∧ Tiles (place + size record.item) fin records

/-- None of the records goes on behind the end. -/
def Inside (fin : Nat) (records : List (Placed α)) : Prop :=
  ∀ record ∈ records, record.offset + size record.item ≤ fin

@[simp] theorem room_nil : room size [] = 0 := rfl

@[simp] theorem room_cons (item : α) (items : List α) :
    room size (item :: items) = size item + room size items := rfl

theorem room_zero (items : List α) : room (fun _ => 0) items = 0 := by
  induction items with
  | nil => rfl
  | cons item items ih => rw [room_cons, ih]

theorem room_append (items others : List α) :
    room size (items ++ others) = room size items + room size others := by
  induction items with
  | nil => rw [List.nil_append, room_nil, Nat.zero_add]
  | cons item items ih => rw [List.cons_append, room_cons, room_cons, ih, Nat.add_assoc]

/-- Records that are not empty take room. -/
theorem length_le_room {items : List α} (h : ∀ item ∈ items, 0 < size item) :
    items.length ≤ room size items := by
  induction items with
  | nil => exact Nat.le_refl 0
  | cons item items ih =>
      obtain ⟨hitem, hitems⟩ := List.forall_mem_cons.mp h
      have hle := ih hitems
      rw [List.length_cons, room_cons]
      omega

theorem layOut_append (place : Nat) (items others : List α) :
    layOut size place (items ++ others) =
      layOut size place items ++ layOut size (place + room size items) others := by
  induction items generalizing place with
  | nil => rfl
  | cons item items ih => rw [List.cons_append, layOut, layOut, ih, List.cons_append, room_cons,
      Nat.add_assoc]

theorem le_offset_of_mem_layOut {place : Nat} {items : List α} {record : Placed α}
    (h : record ∈ layOut size place items) : place ≤ record.offset := by
  induction items generalizing place with
  | nil => exact absurd h List.not_mem_nil
  | cons item items ih =>
      rw [layOut] at h
      obtain rfl | hrest := List.mem_cons.mp h
      · exact Nat.le_refl place
      · exact Nat.le_trans (Nat.le_add_right _ _) (ih hrest)

theorem tiles_layOut_iff (place fin : Nat) (items : List α) :
    Tiles size place fin (layOut size place items) ↔ place + room size items = fin := by
  induction items generalizing place with
  | nil => rfl
  | cons item items ih =>
      rw [layOut, Tiles, ih, room_cons, Nat.add_assoc]
      exact and_iff_right rfl

theorem inside_layOut_of_le {place fin : Nat} {items : List α}
    (h : place + room size items ≤ fin) : Inside size fin (layOut size place items) := by
  induction items generalizing place with
  | nil => exact fun _ hmem => absurd hmem List.not_mem_nil
  | cons item items ih =>
      rw [room_cons] at h
      rw [layOut]
      intro record hmem
      obtain rfl | hrest := List.mem_cons.mp hmem
      · dsimp only
        omega
      · exact ih (by omega) record hrest

/-- Records that begin at zero end inside exactly when there is room for all of them. -/
theorem inside_layOut_iff (fin : Nat) (items : List α) :
    Inside size fin (layOut size 0 items) ↔ room size items ≤ fin := by
  refine ⟨fun h => ?_, fun h => inside_layOut_of_le size (by omega)⟩
  -- it is the last record that decides
  induction items using List.reverseRecOn with
  | nil => exact Nat.zero_le fin
  | append_singleton items item ih =>
      have hlast := h ⟨0 + room size items, item⟩ (by
        rw [layOut_append]
        exact List.mem_append_right _ List.mem_cons_self)
      rw [room_append, room_cons, room_nil]
      dsimp only at hlast
      omega

end

/-! ### Dumps -/

/-- Where the next record goes, if anywhere, the records that were put, and the size that is
told. -/
structure Dump (α : Type*) where
  buf : Option Nat
  placed : List (Placed α)
  size : Nat

namespace Dump

/-- A dump that only asks for the size. -/
def probe (size : Nat) : Dump α := ⟨none, [], size⟩

/-- A dump into a buffer of a size. -/
def fill (size : Nat) : Dump α := ⟨some 0, [], size⟩

variable (size : α → Nat)

/-- Put a record, or count it. -/
def put (dump : Dump α) (item : α) : Dump α :=
  match dump.buf with
  | none => { dump with size := dump.size + size item }
  | some place =>
      { dump with buf := some (place + size item), placed := dump.placed ++ [⟨place, item⟩] }

/-- Put a record, if there is a place for it, and count it. -/
def putCounted (dump : Dump α) (item : α) : Dump α :=
  match dump.buf with
  | none => { dump with size := dump.size + size item }
  | some place =>
      { buf := some (place + size item)
        placed := dump.placed ++ [⟨place, item⟩]
        size := dump.size + size item }

section
variable {size} {step : Dump α → α → Dump α} {told : α → Nat}

theorem foldl_probe (h : ∀ n item, step (probe n) item = probe (n + size item))
    (items : List α) (n : Nat) : items.foldl step (probe n) = probe (n + room size items) := by
  induction items generalizing n with
  | nil => rfl
  | cons item items ih => rw [List.foldl_cons, h, ih, room_cons, Nat.add_assoc]

/-- Records that are put one by one are laid out, whatever is told of each. -/
theorem foldl_some
    (h : ∀ place placed n item, step ⟨some place, placed, n⟩ item =
      ⟨some (place + size item), placed ++ [⟨place, item⟩], n + told item⟩)
    (items : List α) (place : Nat) (placed : List (Placed α)) (n : Nat) :
    items.foldl step ⟨some place, placed, n⟩ =
      ⟨some (place + room size items), placed ++ layOut size place items,
        n + room told items⟩ := by
  induction items generalizing place placed n with
  | nil =>
      rw [List.foldl_nil, layOut, List.append_nil]
      rfl
  | cons item items ih =>
      rw [List.foldl_cons, h, ih, room_cons, room_cons, layOut, ← Nat.add_assoc, ← Nat.add_assoc,
        List.append_assoc, List.singleton_append]

end

theorem foldl_put_probe (items : List α) (n : Nat) :
    items.foldl (put size) (probe n) = probe (n + room size items) :=
  foldl_probe (fun _ _ => rfl) items n

theorem foldl_put_fill (items : List α) (n : Nat) :
    items.foldl (put size) (fill n) =
      ⟨some (room size items), layOut size 0 items, n⟩ := by
  have hlaid : items.foldl (put size) ⟨some 0, [], n⟩ = ⟨_, _, n + room (fun _ => 0) items⟩ :=
    foldl_some (fun _ _ _ _ => rfl) items 0 [] n
  rwa [room_zero, Nat.zero_add, List.nil_append] at hlaid

theorem foldl_putCounted_probe (items : List α) (n : Nat) :
    items.foldl (putCounted size) (probe n) = probe (n + room size items) :=
  foldl_probe (fun _ _ => rfl) items n

theorem foldl_putCounted_some (items : List α) (place : Nat) (placed : List (Placed α))
    (n : Nat) :
    items.foldl (putCounted size) ⟨some place, placed, n⟩ =
      ⟨some (place + room size items), placed ++ layOut size place items,
        n + room size items⟩ :=
  foldl_some (fun _ _ _ _ => rfl) items place placed n

end Dump

/-! ### Reading -/

/-- What was put at an offset last. -/
def readAt : List (Placed α) → Nat → Option α
  | [], _ => none
  | record :: records, offset =>
      (readAt records offset).or (if record.offset = offset then some record.item else none)

/-- Go from header to header up to an end. A header tells its own size and that of the whole
record, and what it announces is found behind it. -/
def walkRecords (head : α → Option (Nat × Nat)) (mem : Nat → Option α) (fin : Nat) :
    Nat → Nat → Option (List (α × α))
  | 0, offset => if offset = fin then some [] else none
  | fuel + 1, offset =>
      if offset = fin then some []
      else
        (mem offset).bind fun header =>
          (head header).bind fun lengths =>
            (mem (offset + lengths.1)).bind fun announced =>
              (walkRecords head mem fin fuel (offset + lengths.2)).map ((header, announced) :: ·)

section
variable (size : α → Nat)

theorem readAt_eq_none {records : List (Placed α)} {offset : Nat}
    (h : ∀ record ∈ records, record.offset ≠ offset) : readAt records offset = none := by
  induction records with
  | nil => rfl
  | cons record records ih =>
      obtain ⟨hrecord, hrecords⟩ := List.forall_mem_cons.mp h
      rw [readAt, ih hrecords, if_neg hrecord]
      rfl

theorem readAt_layOut_before {place offset : Nat} (h : offset < place) (items : List α) :
    readAt (layOut size place items) offset = none :=
  readAt_eq_none fun _ hmem => Nat.ne_of_gt (Nat.lt_of_lt_of_le h
    (le_offset_of_mem_layOut size hmem))

/-- A record is found behind those that were put before it. -/
theorem readAt_layOut (place : Nat) {before : List α} {item : α} (after : List α)
    (hbefore : ∀ item ∈ before, 0 < size item) (hitem : 0 < size item) :
    readAt (layOut size place (before ++ item :: after)) (place + room size before) =
      some item := by
  induction before generalizing place with
  | nil =>
      rw [List.nil_append, layOut, readAt, room_nil, Nat.add_zero,
        readAt_layOut_before size (Nat.lt_add_of_pos_right hitem), if_pos rfl]
      rfl
  | cons first before ih =>
      obtain ⟨hfirst, hbefore⟩ := List.forall_mem_cons.mp hbefore
      rw [List.cons_append, layOut, readAt, room_cons, ← Nat.add_assoc, ih _ hbefore]
      rfl

/-- A header tells the sizes, and neither it nor what it announces is empty. -/
structure Announces (head : α → Option (Nat × Nat)) (record : α × α) : Prop where
  head : head record.1 = some (size record.1, size record.1 + size record.2)
  header_pos : 0 < size record.1
  announced_pos : 0 < size record.2

def flatten (records : List (α × α)) : List α := records.flatMap fun record => [record.1, record.2]

@[simp] theorem flatten_nil : flatten ([] : List (α × α)) = [] := rfl

@[simp] theorem flatten_cons (record : α × α) (records : List (α × α)) :
    flatten (record :: records) = record.1 :: record.2 :: flatten records := rfl

theorem flatten_append (records others : List (α × α)) :
    flatten (records ++ others) = flatten records ++ flatten others := List.flatMap_append

theorem length_flatten (records : List (α × α)) :
    (flatten records).length = 2 * records.length := by
  induction records with
  | nil => rfl
  | cons record records ih =>
      rw [flatten_cons, List.length_cons, List.length_cons, List.length_cons, ih]
      omega

variable {size} {head : α → Option (Nat × Nat)}

theorem pos_of_announces {records : List (α × α)}
    (h : ∀ record ∈ records, Announces size head record) :
    ∀ item ∈ flatten records, 0 < size item := by
  intro item hitem
  obtain ⟨record, hrecord, hmem⟩ := List.mem_flatMap.mp hitem
  obtain rfl | hmem := List.mem_cons.mp hmem
  · exact (h record hrecord).header_pos
  · rw [List.mem_singleton.mp hmem]
    exact (h record hrecord).announced_pos

theorem walkRecords_from (before : List (α × α)) {after : List (α × α)}
    (h : ∀ record ∈ before ++ after, Announces size head record) {fuel : Nat}
    (hfuel : after.length ≤ fuel) :
    walkRecords head (readAt (layOut size 0 (flatten (before ++ after))))
        (room size (flatten (before ++ after))) fuel (room size (flatten before)) =
      some after := by
  -- the records before are passed one by one
  induction after generalizing before fuel with
  | nil =>
      rw [List.append_nil]
      cases fuel with
      | zero => rw [walkRecords, if_pos rfl]
      | succ fuel => rw [walkRecords, if_pos rfl]
  | cons record after ih =>
      obtain ⟨fuel, rfl⟩ : ∃ n, fuel = n + 1 :=
        ⟨fuel - 1, by rw [List.length_cons] at hfuel; omega⟩
      have hrecord := h record (List.mem_append_right _ List.mem_cons_self)
      have hbefore := pos_of_announces fun record hmem => h record (List.mem_append_left _ hmem)
      have hall : flatten (before ++ record :: after) =
          flatten before ++ record.1 :: record.2 :: flatten after := by
        rw [flatten_append, flatten_cons]
      have hheader : readAt (layOut size 0 (flatten (before ++ record :: after)))
          (room size (flatten before)) = some record.1 := by
        have hread := readAt_layOut size 0 (record.2 :: flatten after) hbefore
          hrecord.header_pos
        rw [Nat.zero_add] at hread
        rw [hall, hread]
      have hannounced : readAt (layOut size 0 (flatten (before ++ record :: after)))
          (room size (flatten before) + size record.1) = some record.2 := by
        have hpos : ∀ item ∈ flatten before ++ [record.1], 0 < size item := by
          intro item hitem
          obtain hitem | hitem := List.mem_append.mp hitem
          · exact hbefore item hitem
          · rw [List.mem_singleton.mp hitem]
            exact hrecord.header_pos
        have hread := readAt_layOut size 0 (flatten after) hpos hrecord.announced_pos
        rw [Nat.zero_add, room_append, room_cons, room_nil, Nat.add_zero, List.append_assoc,
          List.singleton_append] at hread
        rw [hall, hread]
      have hend : room size (flatten before) ≠ room size (flatten (before ++ record :: after)) := by
        have hpos := hrecord.header_pos
        rw [hall, room_append, room_cons]
        omega
      have hnext : room size (flatten before) + (size record.1 + size record.2) =
          room size (flatten (before ++ [record])) := by
        rw [flatten_append, room_append]
        rfl
      have hrest := @ih (before ++ [record])
        (by rw [List.append_assoc]; exact h) fuel (by rw [List.length_cons] at hfuel; omega)
      rw [List.append_assoc, List.singleton_append] at hrest
      rw [walkRecords, if_neg hend, hheader]
      simp only [Option.bind_some, hrecord.head, hannounced, hnext]
      rw [hrest, Option.map_some]

/-- Headers that tell the sizes lead a reader through all records, to their end. -/
theorem walkRecords_eq {records : List (α × α)}
    (h : ∀ record ∈ records, Announces size head record) :
    walkRecords head (readAt (layOut size 0 (flatten records))) (room size (flatten records))
        (room size (flatten records)) 0 = some records := by
  have hlength := length_le_room size (pos_of_announces h)
  rw [length_flatten] at hlength
  exact walkRecords_from [] h (by omega)

end

end MinC.Lib
