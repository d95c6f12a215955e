import MinC.Ksh.PatternScans

/-!
Classes of bytes.

A class is read item by item, and every byte or range but the first is read where
the one before it ends. Names are read one after the other.
-/

namespace MinC.Ksh

open MinC.Lib

variable {t : List UInt8} {p q : Nat} {cclasses : CClasses} {sub : UInt8}

/-! ### Bytes and ranges -/

def ClassItem.isName : ClassItem → Bool
  | .name _ => true
  | _ => false

/-- The text of items, and the end of their class. -/
def itemsText (items : List ClassItem) : List UInt8 :=
  items.flatMap ClassItem.text ++ [magic, 0x5D]

theorem itemsText_cons (item : ClassItem) (items : List ClassItem) :
    itemsText (item :: items) = item.text ++ itemsText items := by
  rw [itemsText, List.flatMap_cons, List.append_assoc, itemsText]

theorem ClassByte.stands (c : ClassByte) {l : List UInt8}
    (h : Stands t p (markedText c.marked c.byte ++ l)) :
    (c.marked = false ∧ byteAt t p = c.byte ∧ Stands t (p + 1) l) ∨
      (c.marked = true ∧ byteAt t p = magic ∧ byteAt t (p + 1) = c.byte ∧ Stands t (p + 2) l) := by
  cases hm : c.marked with
  | false =>
      rw [hm] at h
      exact .inl ⟨rfl, h⟩
  | true =>
      rw [hm] at h
      exact .inr ⟨rfl, h⟩

theorem ClassByte.and_high (c : ClassByte) (h : c.marked = true) : c.byte &&& 0x80 = 0 :=
  and_high_of_lt (c.ok.2.2.2 h).1

theorem ClassByte.classFirst (c : ClassByte) {l : List UInt8}
    (h : Stands t p (markedText c.marked c.byte ++ l)) :
    MinC.Ksh.classFirst t p = (c.byte, p + (markedText c.marked c.byte).length) := by
  rcases c.stands h with ⟨hm, hp, _⟩ | ⟨hm, hp, hp', _⟩
  · rw [MinC.Ksh.classFirst, hp, if_neg c.ok.2.1, hm]
    rfl
  · rw [MinC.Ksh.classFirst, hp, if_pos rfl, hp']
    dsimp only
    rw [c.and_high hm, hm]
    rfl

theorem ClassByte.classLast (c : ClassByte) {l : List UInt8}
    (h : Stands t p (markedText c.marked c.byte ++ l)) :
    MinC.Ksh.classLast t p = (c.byte, p + (markedText c.marked c.byte).length) := by
  rcases c.stands h with ⟨hm, hp, _⟩ | ⟨hm, hp, hp', _⟩
  · rw [MinC.Ksh.classLast, hp, if_neg c.ok.2.1, hm]
    rfl
  · rw [MinC.Ksh.classLast, hp, if_pos rfl, hp']
    dsimp only
    rw [c.and_high hm, hm]
    rfl

/-- What a byte of a class begins with. -/
theorem ClassByte.begins (c : ClassByte) {l : List UInt8}
    (h : Stands t p (markedText c.marked c.byte ++ l)) :
    byteAt t p ≠ 0x5B ∧
      (byteAt t p = magic → byteAt t (p + 1) ≠ 0x5B ∧ byteAt t (p + 1) ≠ 0x2D ∧
        byteAt t (p + 1) ≠ 0x5D ∧ byteAt t (p + 1) ≠ 0x21) := by
  obtain ⟨-, hmagic, hopen, hmarked⟩ := c.ok
  rcases c.stands h with ⟨-, hp, _⟩ | ⟨hm, hp, hp', _⟩
  · rw [hp]
    exact ⟨hopen, fun hmagic' => absurd hmagic' hmagic⟩
  · obtain ⟨-, hnot⟩ := hmarked hm
    simp only [List.mem_cons, not_or] at hnot
    rw [hp, hp']
    exact ⟨by decide, fun _ => ⟨hopen, hnot.2.1, hnot.1, hnot.2.2.1⟩⟩

theorem ClassItem.begins {item : ClassItem} {l : List UInt8} (hname : item.isName = false)
    (h : Stands t p (item.text ++ l)) :
    byteAt t p ≠ 0x5B ∧
      (byteAt t p = magic → byteAt t (p + 1) ≠ 0x5B ∧ byteAt t (p + 1) ≠ 0x2D ∧
        byteAt t (p + 1) ≠ 0x5D ∧ byteAt t (p + 1) ≠ 0x21) := by
  cases item with
  | byte c => exact c.begins h
  | range c d =>
      rw [ClassItem.text, List.append_assoc] at h
      exact c.begins h
  | name n => cases hname

theorem ClassItem.marks (item : ClassItem) {l : List UInt8} (h : Stands t p (item.text ++ l))
    (hmagic : byteAt t p = magic) :
    byteAt t (p + 1) ≠ 0x2D ∧ byteAt t (p + 1) ≠ 0x5D ∧ byteAt t (p + 1) ≠ 0x21 := by
  cases hname : item.isName with
  | false => exact ((ClassItem.begins hname h).2 hmagic).2
  | true =>
      cases item with
      | byte c => cases hname
      | range c d => cases hname
      | name n =>
          rw [h.2.1]
          decide

/-- Behind an item there is no `-`. -/
theorem isRange_items {items : List ClassItem} (h : Stands t p (itemsText items)) :
    isRange t p = false := by
  have hdash : byteAt t p = magic → byteAt t (p + 1) ≠ 0x2D := by
    intro hmagic
    cases items with
    | nil =>
        rw [h.2.1]
        decide
    | cons item items =>
        rw [itemsText_cons] at h
        exact (item.marks h hmagic).1
  rw [isRange]
  cases hmagic : decide (byteAt t p = magic) with
  | false => rfl
  | true =>
      rw [decide_eq_false (hdash (of_decide_eq_true hmagic))]
      rfl

theorem closes_items {items : List ClassItem} (h : Stands t p (itemsText items)) :
    closes t p = items.isEmpty := by
  cases items with
  | nil =>
      rw [closes, h.1, h.2.1]
      rfl
  | cons item items =>
      rw [itemsText_cons] at h
      rw [closes]
      cases hmagic : decide (byteAt t p = magic) with
      | false => rfl
      | true =>
          rw [decide_eq_false (item.marks h (of_decide_eq_true hmagic)).2.1]
          rfl

theorem opensName_items {items : List ClassItem} (h : Stands t p (itemsText items)) :
    opensName t p = items.head?.any ClassItem.isName := by
  cases items with
  | nil =>
      rw [opensName, h.1, h.2.1]
      rfl
  | cons item items =>
      rw [itemsText_cons] at h
      rw [List.head?_cons, Option.any_some, opensName]
      cases item with
      | name n =>
          rw [h.1, h.2.1, h.2.2.1]
          rfl
      | byte c =>
          have hbegins := (ClassItem.begins rfl h).2
          cases hmagic : decide (byteAt t p = magic) with
          | false => rfl
          | true =>
              rw [decide_eq_false (hbegins (of_decide_eq_true hmagic)).1]
              rfl
      | range c d =>
          have hbegins := (ClassItem.begins rfl h).2
          cases hmagic : decide (byteAt t p = magic) with
          | false => rfl
          | true =>
              rw [decide_eq_false (hbegins (of_decide_eq_true hmagic)).1]
              rfl

/-- Behind the first byte of a range there is a `-`, and a last byte. -/
theorem isRange_last (d : ClassByte) {l : List UInt8}
    (h : Stands t p (magic :: 0x2D :: (markedText d.marked d.byte ++ l))) :
    isRange t p = true := by
  rw [isRange, h.1, h.2.1]
  rcases d.stands h.2.2 with ⟨-, hd, _⟩ | ⟨hm, -, hd, _⟩
  · rw [hd, decide_eq_true d.ok.2.1]
    rfl
  · have hclose : d.byte ≠ 0x5D := by
      have hnot := (d.ok.2.2.2 hm).2
      simp only [List.mem_cons, not_or] at hnot
      exact hnot.1
    rw [hd, decide_eq_true hclose]
    simp

/-- The first byte of a range is one of it. -/
theorem hits_range {c d : UInt8} (h : c ≤ d) (sub : UInt8) :
    (decide (c = sub) || decide (c ≤ sub) && decide (sub ≤ d)) =
      (decide (c ≤ sub) && decide (sub ≤ d)) := by
  rw [Bool.eq_iff_iff]
  simp only [Bool.or_eq_true, Bool.and_eq_true, decide_eq_true_eq]
  exact ⟨fun hor => hor.elim (fun heq => heq ▸ ⟨UInt8.le_refl _, h⟩) id, .inr⟩

/-- A byte is read as a range from it to it. -/
theorem hits_byte (c sub : UInt8) :
    (decide (c = sub) || decide (c ≤ sub) && decide (sub ≤ c)) = decide (sub = c) := by
  rw [hits_range (UInt8.le_refl c), Bool.eq_iff_iff]
  simp only [Bool.and_eq_true, decide_eq_true_eq]
  exact ⟨fun h => UInt8.le_antisymm h.2 h.1, fun h => h ▸ ⟨UInt8.le_refl _, UInt8.le_refl _⟩⟩

/-- A byte or a range is read. -/
theorem classRange_item (cclasses : CClasses) {item : ClassItem} {items : List ClassItem}
    {found : Bool} (hname : item.isName = false) (h : Stands t p (item.text ++ itemsText items)) :
    classRange t sub p found =
      if item.ok cclasses then
        .read (p + item.text.length) (found || item.has cclasses sub)
      else .invalid := by
  cases item with
  | name n => cases hname
  | byte c =>
      rw [ClassItem.text] at h
      have hrange := isRange_items (stands_append.mp h).2
      rw [classRange, c.classFirst h]
      dsimp only
      rw [if_neg c.ok.1, hrange, if_neg Bool.false_ne_true, if_neg (UInt8.lt_irrefl _), hits_byte]
      rfl
  | range c d =>
      rw [ClassItem.text, List.append_assoc] at h
      have hdash := (stands_append.mp h).2
      rw [classRange, c.classFirst h]
      dsimp only
      rw [if_neg c.ok.1, isRange_last d hdash, if_pos rfl, d.classLast hdash.2.2]
      dsimp only
      rw [ClassItem.ok, ClassItem.has, ClassItem.text, List.length_append, List.length_cons,
        List.length_cons]
      have hplace : p + (markedText c.marked c.byte).length + 2 +
          (markedText d.marked d.byte).length =
            p + ((markedText c.marked c.byte).length +
              ((markedText d.marked d.byte).length + 1 + 1)) := by omega
      rw [hplace]
      by_cases hlt : d.byte < c.byte
      · rw [if_pos hlt, decide_eq_false (UInt8.not_le.mpr hlt), if_neg Bool.false_ne_true]
      · have hle : c.byte ≤ d.byte := UInt8.not_lt.mp hlt
        rw [if_neg hlt, decide_eq_true hle, if_pos rfl, hits_range hle]

/-! ### Names -/

theorem posixCclass_name (n : PosixName) {l : List UInt8} (hl : ∀ c ∈ l, c ≠ 0)
    (h : Stands t p (n.bytes ++ 0x3A :: magic :: l)) :
    posixCclass cclasses t p sub =
      match lookup cclasses n with
      | none => .invalid
      | some isctype => .found (isctype sub) (p + n.bytes.length + 3) := by
  have hzero : ∀ c ∈ n.bytes ++ 0x3A :: magic :: l, c ≠ 0 := by
    intro c hc
    rcases List.mem_append.mp hc with hc | hc
    · exact (n.ok c hc).1
    · rcases List.mem_cons.mp hc with rfl | hc
      · decide
      · rcases List.mem_cons.mp hc with rfl | hc
        · decide
        · exact hl c hc
  have hname : (t.drop p).takeWhile (fun c => decide (c ≠ 0x3A)) = n.bytes := by
    rw [h.drop_eq hzero, List.append_assoc, List.takeWhile_append_of_pos, List.cons_append,
      List.takeWhile_cons_of_neg, List.append_nil]
    · simp
    · intro c hc
      exact decide_eq_true (n.ok c hc).2.2
  obtain ⟨-, hcolon, hmagic, -⟩ := stands_append.mp h
  rw [posixCclass, hname, hcolon, hmagic, if_neg (by simp), lookup]
  cases cclasses.find? fun cc => decide (cc.1 = n.bytes) with
  | none => rfl
  | some cc => rfl

theorem ClassItem.ne_zero (item : ClassItem) : ∀ c ∈ item.text, c ≠ 0 := by
  have hbyte : ∀ (c : ClassByte), ∀ d ∈ markedText c.marked c.byte, d ≠ 0 := by
    intro c d hd
    rw [markedText] at hd
    split_ifs at hd
    · rcases List.mem_cons.mp hd with rfl | hd
      · decide
      · rw [List.mem_singleton.mp hd]
        exact c.ok.1
    · rw [List.mem_singleton.mp hd]
      exact c.ok.1
  intro c hc
  cases item with
  | byte b => exact hbyte b c hc
  | range b d =>
      rcases List.mem_append.mp hc with hc | hc
      · exact hbyte b c hc
      · rcases List.mem_cons.mp hc with rfl | hc
        · decide
        · rcases List.mem_cons.mp hc with rfl | hc
          · decide
          · exact hbyte d c hc
  | name n =>
      rw [ClassItem.text] at hc
      simp only [List.mem_cons, List.mem_append, List.not_mem_nil, or_false] at hc
      rcases hc with rfl | rfl | rfl | hc | rfl | rfl | rfl
      · decide
      · decide
      · decide
      · exact (n.ok c hc).1
      · decide
      · decide
      · decide

theorem itemsText_ne_zero (items : List ClassItem) : ∀ c ∈ itemsText items, c ≠ 0 := by
  intro c hc
  rw [itemsText] at hc
  rcases List.mem_append.mp hc with hc | hc
  · obtain ⟨item, -, hc⟩ := List.mem_flatMap.mp hc
    exact item.ne_zero c hc
  · simp only [List.mem_cons, List.not_mem_nil, or_false] at hc
    rcases hc with rfl | rfl <;> decide

/-- Where a class ends of which these items are left, if it has the byte. -/
def classEnd (cclasses : CClasses) (sub : UInt8) (not : Bool) :
    Nat → Bool → List ClassItem → Option Nat
  | p, found, [] => if found ≠ not then some (p + 2) else none
  | p, found, item :: items =>
      if item.ok cclasses then
        classEnd cclasses sub not (p + item.text.length) (found || item.has cclasses sub) items
      else none

theorem length_name_text (n : PosixName) :
    (ClassItem.name n).text.length = n.bytes.length + 6 := by
  rw [ClassItem.text, List.length_cons, List.length_cons, List.length_cons, List.length_append,
    List.length_cons, List.length_cons, List.length_cons, List.length_nil]

/-- Names are read as far as there are any. -/
theorem posixNames_items (cclasses : CClasses) (sub : UInt8) (not : Bool) (items : List ClassItem)
    (n : PosixName) {p start : Nat} (found : Bool) {turns : Nat} (hturns : items.length < turns)
    (hstart : p + (if byteAt t p = magic then 1 else 0) + 2 = start + 3)
    (h : Stands t (start + 3) (n.bytes ++ 0x3A :: magic :: 0x5D :: itemsText items)) :
    (posixNames cclasses t sub turns p found = none ∧
      classEnd cclasses sub not start found (.name n :: items) = none) ∨
      ∃ p' found' items', posixNames cclasses t sub turns p found = some (p', found') ∧
        classEnd cclasses sub not start found (.name n :: items) =
          classEnd cclasses sub not p' found' items' ∧
        Stands t p' (itemsText items') ∧ items'.length ≤ items.length ∧
        items'.head?.any ClassItem.isName = false := by
  induction turns generalizing items n p start found with
  | zero => omega
  | succ turns ih =>
      have hzero : ∀ c ∈ 0x5D :: itemsText items, c ≠ 0 := by
        intro c hc
        rcases List.mem_cons.mp hc with rfl | hc
        · decide
        · exact itemsText_ne_zero items c hc
      have hrest : Stands t (start + 3 + n.bytes.length + 3) (itemsText items) :=
        (stands_append.mp h).2.2.2.2
      have hplace : start + (ClassItem.name n).text.length = start + 3 + n.bytes.length + 3 := by
        rw [length_name_text]
        omega
      rw [posixNames, hstart, posixCclass_name n hzero h, classEnd, ClassItem.ok, ClassItem.has,
        hplace]
      cases lookup cclasses n with
      | none => exact .inl ⟨rfl, rfl⟩
      | some isctype =>
          dsimp only
          rw [opensName_items hrest, Option.isSome_some, if_pos rfl, Option.any_some]
          cases hhead : items.head?.any ClassItem.isName with
          | false =>
              rw [if_neg Bool.false_ne_true]
              exact .inr ⟨_, _, items, rfl, rfl, hrest, Nat.le_refl _, hhead⟩
          | true =>
              rw [if_pos rfl]
              cases items with
              | nil => cases hhead
              | cons item items =>
                  rw [List.length_cons] at hturns
                  rw [itemsText_cons] at hrest
                  cases item with
                  | byte c => cases hhead
                  | range c d => cases hhead
                  | name m =>
                      rw [name_text_append] at hrest
                      have hname := hrest.2.2.2
                      have hmagic : start + 3 + n.bytes.length + 3 +
                          (if byteAt t (start + 3 + n.bytes.length + 3) = magic then 1 else 0) + 2 =
                            start + 3 + n.bytes.length + 3 + 3 := by
                        rw [if_pos hrest.1]
                      rcases ih items m (found || isctype sub) (by omega) hmagic hname with
                        hnone | ⟨p', found', items', hsome, hend, hstands, hle, hhead'⟩
                      · exact .inl hnone
                      · exact .inr ⟨p', found', items', hsome, hend, hstands,
                          hle.trans (Nat.le_succ _), hhead'⟩

/-! ### Classes -/

theorem classItem_eq {not : Bool} {orig : Nat} {next : Nat → Bool → Option Nat}
    {item : ClassItem} {items : List ClassItem} {found : Bool} (hname : item.isName = false)
    (h : Stands t p (item.text ++ itemsText items))
    (hnext : items ≠ [] → ∀ p found, Stands t p (itemsText items) →
      next p found = classEnd cclasses sub not p found items) :
    classItem t sub not orig next p found =
      classEnd cclasses sub not p found (item :: items) := by
  have hrest := (stands_append.mp h).2
  rw [classItem, classRange_item cclasses hname h, classEnd]
  cases item.ok cclasses with
  | false => rfl
  | true =>
      rw [if_pos rfl, if_pos rfl]
      dsimp only
      rw [closes_items hrest]
      cases items with
      | nil => rfl
      | cons item' items => exact hnext (List.cons_ne_nil _ _) _ _ hrest

/-- A name and what follows it. -/
theorem cclassFrom_name (not : Bool) (orig : Nat) {items : List ClassItem} {n : PosixName}
    {turns p start : Nat} (found : Bool)
    (hnamed : (opensName t p || byteAt t p = 0x5B && byteAt t (p + 1) = 0x3A) = true)
    (hstart : p + (if byteAt t p = magic then 1 else 0) + 2 = start + 3)
    (hlen : items.length ≤ t.length)
    (h : Stands t (start + 3) (n.bytes ++ 0x3A :: magic :: 0x5D :: itemsText items))
    (hnext : ∀ items', items'.length < items.length → items' ≠ [] → ∀ p found,
      Stands t p (itemsText items') →
        cclassFrom cclasses t sub not orig turns p found =
          classEnd cclasses sub not p found items') :
    cclassFrom cclasses t sub not orig (turns + 1) p found =
      classEnd cclasses sub not start found (.name n :: items) := by
  rw [cclassFrom, if_pos hnamed]
  rcases posixNames_items cclasses sub not items n found
    (Nat.lt_succ_of_le hlen) hstart h with
    ⟨hnone, hend⟩ | ⟨p', found', items', hsome, hend, hstands, hle, hhead⟩
  · rw [hnone, hend]
    rfl
  · rw [hsome, hend, Option.bind_some]
    dsimp only
    rw [closes_items hstands]
    cases items' with
    | nil => rfl
    | cons item items' =>
        rw [itemsText_cons] at hstands
        refine classItem_eq hhead hstands fun hne p found hp => hnext items' ?_ hne p found hp
        exact Nat.lt_of_lt_of_le (Nat.lt_succ_self _) hle

theorem cclassFrom_items (not : Bool) (orig : Nat) {items : List ClassItem} {turns p : Nat}
    {found : Bool} (hitems : items ≠ []) (hlen : items.length ≤ t.length)
    (hturns : items.length ≤ turns) (h : Stands t p (itemsText items)) :
    cclassFrom cclasses t sub not orig turns p found =
      classEnd cclasses sub not p found items := by
  induction turns generalizing p found items with
  | zero => exact absurd (List.length_eq_zero_iff.mp (Nat.le_zero.mp hturns)) hitems
  | succ turns ih =>
      cases items with
      | nil => exact absurd rfl hitems
      | cons item items =>
          rw [List.length_cons] at hlen hturns
          have hopens := opensName_items h
          rw [itemsText_cons] at h
          cases hname : item.isName with
          | true =>
              cases item with
              | byte c => cases hname
              | range c d => cases hname
              | name n =>
                  rw [name_text_append] at h
                  refine cclassFrom_name not orig found ?_ ?_ (by omega) h.2.2.2 ?_
                  · rw [hopens]
                    rfl
                  · rw [if_pos h.1]
                  · intro items' hlt hne p found hp
                    exact ih hne (by omega) (by omega) hp
          | false =>
              have hopen : byteAt t p ≠ 0x5B := (ClassItem.begins hname h).1
              rw [List.head?_cons, Option.any_some, hname] at hopens
              rw [cclassFrom, hopens, decide_eq_false hopen, Bool.false_and, Bool.or_false,
                if_neg Bool.false_ne_true]
              exact classItem_eq hname h fun hne p found hp => ih hne (by omega) (by omega) hp

theorem classEnd_eq (not : Bool) (items : List ClassItem) (p : Nat) (found : Bool) :
    classEnd cclasses sub not p found items =
      if items.all (ClassItem.ok cclasses) &&
        ((found || items.any (ClassItem.has cclasses sub)) ≠ not)
      then some (p + (items.flatMap ClassItem.text).length + 2) else none := by
  induction items generalizing p found with
  | nil =>
      rw [classEnd, List.all_nil, Bool.true_and, List.any_nil, Bool.or_false, List.flatMap_nil,
        List.length_nil, Nat.add_zero]
      simp
  | cons item items ih =>
      rw [classEnd, List.all_cons, List.any_cons, List.flatMap_cons, List.length_append]
      cases item.ok cclasses with
      | false => rfl
      | true =>
          rw [if_pos rfl, ih, Bool.true_and, Bool.or_assoc, Nat.add_assoc p]

/-- A byte of which the `MAGIC` was passed over. -/
def ClassByte.bare (c : ClassByte) : ClassByte where
  byte := c.byte
  marked := false
  ok := ⟨c.ok.1, c.ok.2.1, c.ok.2.2.1, fun h => absurd h Bool.false_ne_true⟩

theorem length_le_itemsText (items : List ClassItem) :
    items.length ≤ (itemsText items).length := by
  have hpos : ∀ item : ClassItem, 0 < item.text.length := by
    intro item
    cases item with
    | byte c =>
        rw [ClassItem.text, markedText]
        split_ifs <;> exact Nat.succ_pos _
    | range c d =>
        rw [ClassItem.text, List.length_append, List.length_cons]
        omega
    | name n => exact Nat.succ_pos _
  induction items with
  | nil => exact Nat.zero_le _
  | cons item items ih =>
      have := hpos item
      rw [itemsText_cons, List.length_append, List.length_cons]
      omega

/-- The class is read on behind the `MAGIC` of its first item, which leaves an item that
has the same bytes. -/
theorem cclassFrom_unmarked {orig : Nat} {item item' : ClassItem} {items : List ClassItem}
    (hlen : items.length + 1 ≤ t.length) (h : Stands t (p + 1) (item'.text ++ itemsText items))
    (hok : item'.ok cclasses = item.ok cclasses)
    (hhas : item'.has cclasses sub = item.has cclasses sub)
    (htext : item'.text.length + 1 = item.text.length) :
    cclassFrom cclasses t sub false orig (t.length + 1) (p + 1) false =
      classEnd cclasses sub false p false (item :: items) := by
  have hplace : p + 1 + item'.text.length = p + item.text.length := by omega
  rw [← itemsText_cons] at h
  rw [cclassFrom_items false orig (List.cons_ne_nil item' items) hlen (Nat.le_succ_of_le hlen) h,
    classEnd, classEnd, hok, hhas, hplace]

/-- The place where the class is read on, and what is read there of its first item. -/
theorem cclassFrom_bare {orig : Nat} {item : ClassItem} {items : List ClassItem}
    (hlen : (item :: items).length ≤ t.length) (h : Stands t p (item.text ++ itemsText items)) :
    cclassFrom cclasses t sub false orig (t.length + 1)
        (if byteAt t p = magic then p + 1 else p) false =
      classEnd cclasses sub false p false (item :: items) := by
  have hplain : byteAt t p ≠ magic →
      cclassFrom cclasses t sub false orig (t.length + 1)
          (if byteAt t p = magic then p + 1 else p) false =
        classEnd cclasses sub false p false (item :: items) := by
    intro hne
    rw [if_neg hne]
    rw [← itemsText_cons] at h
    exact cclassFrom_items false orig (List.cons_ne_nil _ _) hlen (Nat.le_succ_of_le hlen) h
  cases item with
  | byte c =>
      rcases c.stands h with ⟨-, hp, -⟩ | ⟨hm, hp, hp', hrest⟩
      · exact hplain (hp ▸ c.ok.2.1)
      · rw [if_pos hp]
        have hbare : Stands t (p + 1) ((ClassItem.byte c.bare).text ++ itemsText items) :=
          ⟨hp', hrest⟩
        refine cclassFrom_unmarked hlen hbare rfl rfl ?_
        rw [ClassItem.text, ClassItem.text, hm]
        rfl
  | range c d =>
      rw [ClassItem.text, List.append_assoc] at h
      rcases c.stands h with ⟨-, hp, -⟩ | ⟨hm, hp, hp', hrest⟩
      · exact hplain (hp ▸ c.ok.2.1)
      · rw [if_pos hp]
        have hbare : Stands t (p + 1) ((ClassItem.range c.bare d).text ++ itemsText items) :=
          ⟨hp', hrest⟩
        refine cclassFrom_unmarked hlen hbare rfl rfl ?_
        rw [ClassItem.text, ClassItem.text, hm]
        rfl
  | name n =>
      rw [name_text_append] at h
      obtain ⟨hp, hp', hp'', hname⟩ := h
      have hopen : byteAt t (p + 1) ≠ magic := by
        rw [hp']
        decide
      rw [if_pos hp]
      refine cclassFrom_name false orig false ?_ ?_ ((Nat.le_succ _).trans hlen) hname ?_
      · rw [hp', hp'']
        exact Bool.or_true _
      · rw [if_neg hopen]
      · intro items' hlt hne p found hstands
        rw [List.length_cons] at hlen
        exact cclassFrom_items false orig hne (by omega) (by omega) hstands

/-- A class is passed over by the bytes that it has. -/
theorem cclass_eq (c : Cls) (h : Stands t p c.inner) :
    cclass cclasses t p sub =
      if c.has cclasses sub then some (p + c.inner.length) else none := by
  have hlen : ∀ {q}, Stands t q (itemsText c.items) → c.items.length ≤ t.length := fun hq =>
    (length_le_itemsText _).trans (hq.length_le (itemsText_ne_zero _))
  have hend : ∀ {q}, q + (itemsText c.items).length = p + c.inner.length →
      classEnd cclasses sub c.not q false c.items =
        if c.has cclasses sub then some (p + c.inner.length) else none := by
    intro q hq
    rw [itemsText, List.length_append, List.length_cons, List.length_cons, List.length_nil] at hq
    rw [classEnd_eq, Bool.false_or, Cls.has]
    rw [show q + (c.items.flatMap ClassItem.text).length + 2 = p + c.inner.length by omega]
  have hne : c.items ≠ [] := List.cons_ne_nil _ _
  cases hnot : c.not with
  | true =>
      rw [hnot] at hend
      have hinner : c.inner = magic :: 0x21 :: itemsText c.items := by
        rw [Cls.inner, hnot]
        rfl
      rw [hinner] at h
      obtain ⟨hp, hp', hrest⟩ := h
      have hstart : (decide (byteAt t p = magic) && decide (byteAt t (p + 1) = 0x21)) = true := by
        rw [hp, hp']
        rfl
      rw [cclass, hstart, if_pos rfl,
        cclassFrom_items true p hne (hlen hrest) (Nat.le_succ_of_le (hlen hrest)) hrest]
      refine hend ?_
      rw [hinner, List.length_cons, List.length_cons]
      omega
  | false =>
      rw [hnot] at hend
      have hinner : c.inner = itemsText c.items := by
        rw [Cls.inner, hnot]
        rfl
      rw [hinner] at h
      have hstands := h
      rw [Cls.items, itemsText_cons] at hstands
      have hstart : (decide (byteAt t p = magic) && decide (byteAt t (p + 1) = 0x21)) = false := by
        cases hmagic : decide (byteAt t p = magic) with
        | false => rfl
        | true =>
            rw [decide_eq_false (c.first.marks hstands (of_decide_eq_true hmagic)).2.2]
            rfl
      have hread : cclassFrom cclasses t sub false p (t.length + 1)
          (if byteAt t p = magic then p + 1 else p) false =
            classEnd cclasses sub false p false c.items :=
        cclassFrom_bare (hlen h) hstands
      rw [cclass, hstart, if_neg Bool.false_ne_true, hread]
      refine hend ?_
      rw [hinner]

end MinC.Ksh
