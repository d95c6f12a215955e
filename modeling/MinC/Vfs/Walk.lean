import MinC.Vfs.Namei

/-!
What a walk does to the name.

Of a path under resolution, the name in the buffer and the write position are
all that a lookup that follows links depends on. What it does to the two of
them is a function of what Windows answers to the name: a component is
appended, a link, a pipe or a mount point replaces a part of the name or all
of it, and a probe for an extension is undone.
-/

namespace MinC.Vfs

open MinC.Lib MinC.Win

/-! ### Places -/

/-- A name and the write position in it or behind it. -/
structure Place where
  name : List UInt16
  r : Nat
  deriving DecidableEq

/-- A text that is written into a name. Behind the end of the name it is not
seen. -/
def splice (name : List UInt16) (i : Nat) (w : List UInt16) : List UInt16 :=
  if i ≤ name.length then name.take i ++ w else name

namespace Place

def copy (p : Place) (i : Nat) (w : List UInt16) : Place := ⟨splice p.name i w, i + w.length⟩

/-- Append a component. -/
def enter (p : Place) (component : List UInt16) : Place := p.copy p.r (92 :: component)

/-- Put an extension behind the name, or take it off. -/
def extend (p : Place) (typeName : List UInt16) : Place := ⟨splice p.name p.r typeName, p.r⟩

/-- The write position is at the end of the name. -/
def Standing (p : Place) : Prop := p.r = p.name.length

end Place

theorem splice_splice (name : List UInt16) (i : Nat) (w v : List UInt16) :
    splice (splice name i w) i v = splice name i v := by
  by_cases hi : i ≤ name.length
  · have hle : i ≤ (name.take i ++ w).length := by
      rw [List.length_append, List.length_take]
      omega
    have htake : (name.take i ++ w).take i = name.take i := by
      rw [List.take_append_of_le_length (by simp [hi]), List.take_take, Nat.min_self]
    rw [splice, splice, splice, if_pos hi, if_pos hle, if_pos hi, htake]
  · have hname : splice name i w = name := if_neg hi
    rw [hname]

theorem splice_length (name w : List UInt16) : splice name name.length w = name ++ w := by
  rw [splice, if_pos (Nat.le_refl _), List.take_length]

theorem Place.Standing.extend {p : Place} (h : p.Standing) (w : List UInt16) :
    p.extend w = ⟨p.name ++ w, p.r⟩ := by
  rw [Place.extend, h, splice_length]

theorem Place.Standing.enter {p : Place} (h : p.Standing) (component : List UInt16) :
    p.enter component = ⟨p.name ++ 92 :: component, p.r + (component.length + 1)⟩ := by
  rw [Place.enter, Place.copy, h, splice_length, List.length_cons]

theorem Place.Standing.entered {p : Place} (h : p.Standing) (component : List UInt16) :
    (p.enter component).Standing := by
  rw [h.enter]
  change p.r + (component.length + 1) = (p.name ++ 92 :: component).length
  rw [List.length_append, List.length_cons, ← h]

theorem length_enter_le (p : Place) (component : List UInt16) :
    (p.enter component).name.length ≤ (p.enter component).r := by
  change (splice p.name p.r (92 :: component)).length ≤ p.r + (92 :: component).length
  rw [splice]
  split_ifs with h
  · rw [List.length_append, List.length_take]
    omega
  · omega

theorem enter_enter (p : Place) (u v : List UInt16) :
    (p.enter u).enter v = p.enter (u ++ 92 :: v) := by
  have hr : (p.enter u).r = p.r + (u.length + 1) := by rw [Place.enter, Place.copy, List.length_cons]
  have hend : (p.enter (u ++ 92 :: v)).r = (p.enter u).r + (v.length + 1) := by
    rw [hr, Place.enter, Place.copy]
    simp only [List.length_cons, List.length_append]
    omega
  have hname : (p.enter (u ++ 92 :: v)).name = splice (p.enter u).name (p.enter u).r (92 :: v) := by
    rw [hr]
    change splice p.name p.r (92 :: (u ++ 92 :: v)) =
      splice (splice p.name p.r (92 :: u)) (p.r + (u.length + 1)) (92 :: v)
    by_cases hle : p.r ≤ p.name.length
    · have hcopied : splice p.name p.r (92 :: u) = p.name.take p.r ++ 92 :: u := if_pos hle
      have hlen : (p.name.take p.r ++ 92 :: u).length = p.r + (u.length + 1) := by
        rw [List.length_append, List.length_take, List.length_cons]
        omega
      rw [hcopied, ← hlen, splice_length, splice, if_pos hle, List.append_assoc, List.cons_append]
    · have hcopied : splice p.name p.r (92 :: u) = p.name := if_neg hle
      rw [hcopied, splice, splice, if_neg hle, if_neg (by omega)]
  rw [Place.enter, Place.copy, List.length_cons, ← hname, ← hend]

namespace WinNameidata

def place (path : WinNameidata) : Place := ⟨path.name, path.r⟩

@[simp] theorem place_name (path : WinNameidata) : path.place.name = path.name := rfl
@[simp] theorem place_r (path : WinNameidata) : path.place.r = path.r := rfl

/-- What follows the last separator. -/
def tail (path : WinNameidata) : List UInt16 := text (path.resolved.drop path.base)

theorem name_write (path : WinNameidata) (i : Nat) {w : List UInt16} (hw : 0 ∉ w) :
    (path.write i (w ++ [0])).name = splice path.name i w := by
  change text (poke path.resolved i (w ++ [0])) = _
  by_cases hi : i ≤ path.name.length
  · rw [splice, if_pos hi, text_poke hi hw]
    rfl
  · rw [splice, if_neg hi, text_poke_of_lt (Nat.lt_of_not_le hi)]
    rfl

theorem place_wcpcpy (path : WinNameidata) (i : Nat) {w : List UInt16} (hw : 0 ∉ w) :
    (path.wcpcpy i w).place = path.place.copy i w := by
  have hname := path.name_write i hw
  rw [place, Place.copy]
  exact congrArg₂ Place.mk hname rfl

end WinNameidata

/-! ### Components -/

def firstComponent (s : List UInt16) : List UInt16 := (s.takeWhile (· ≠ 47)).map underscore

def afterComponent (s : List UInt16) : List UInt16 :=
  (s.drop (s.takeWhile (· ≠ 47)).length).drop 1

/-- The rest of a source as it is copied into a name. -/
def windowsName (s : List UInt16) : List UInt16 := s.map (backslash ∘ underscore)

theorem underscore_ne_zero {c : UInt16} (h : c ≠ 0) : underscore c ≠ 0 := by
  rw [underscore, replace]
  split_ifs
  · decide
  · exact h

theorem backslash_ne_zero {c : UInt16} (h : c ≠ 0) : backslash c ≠ 0 := by
  rw [backslash, replace]
  split_ifs
  · decide
  · exact h

theorem zero_not_mem_firstComponent {s : List UInt16} (hs : 0 ∉ s) : 0 ∉ firstComponent s := by
  intro h
  obtain ⟨c, hc, hzero⟩ := List.mem_map.mp h
  refine underscore_ne_zero ?_ hzero
  rintro rfl
  exact hs (List.takeWhile_subset _ hc)

theorem zero_not_mem_afterComponent {s : List UInt16} (hs : 0 ∉ s) : 0 ∉ afterComponent s :=
  fun h => hs (List.mem_of_mem_drop (List.mem_of_mem_drop h))

theorem zero_not_mem_windowsName {s : List UInt16} (hs : 0 ∉ s) : 0 ∉ windowsName s := by
  intro h
  obtain ⟨c, hc, hzero⟩ := List.mem_map.mp h
  refine backslash_ne_zero (underscore_ne_zero ?_) hzero
  rintro rfl
  exact hs hc

section
variable (path : WinNameidata) (flags : UInt32)

@[simp] theorem pathRead_s : (pathRead path flags).1.s = afterComponent path.s := rfl

@[simp] theorem pathRead_base : (pathRead path flags).1.base = path.r + 1 := rfl

theorem pathRead_place (hs : 0 ∉ path.s) :
    (pathRead path flags).1.place = path.place.enter (firstComponent path.s) := by
  have hcells : 0 ∉ 92 :: firstComponent path.s := by
    simpa using zero_not_mem_firstComponent hs
  exact path.place_wcpcpy path.r hcells

theorem pathRead_tail (hs : 0 ∉ path.s) :
    (pathRead path flags).1.tail = firstComponent path.s := by
  have hdrop : (poke path.resolved path.r (92 :: firstComponent path.s ++ [0])).drop (path.r + 1) =
      firstComponent path.s ++ 0 :: path.resolved.drop
        (path.r + (92 :: firstComponent path.s ++ [0]).length) := by
    rw [← List.drop_drop, drop_poke]
    simp
  change text ((poke path.resolved path.r (92 :: firstComponent path.s ++ [0])).drop
    (path.r + 1)) = _
  rw [hdrop]
  exact text_append_zero (zero_not_mem_firstComponent hs) _

/-- A turn that is not the last takes a separator off the source. -/
theorem afterComponent_lt (h : (pathRead path flags).2 ≠ 0) :
    (afterComponent path.s).length < path.s.length := by
  have hne : path.s.drop (path.s.takeWhile (· ≠ 47)).length ≠ [] := by
    intro hnil
    refine h ?_
    change (if _ then ((path.s.drop _).drop 1).headD 0 else (path.s.drop _).headD 0) = 0
    rw [hnil]
    exact ite_self _
  have hpos := List.length_pos_iff.mpr hne
  have hdrop := List.length_drop (i := (path.s.takeWhile (· ≠ 47)).length) (l := path.s)
  rw [afterComponent, List.length_drop]
  omega

end

/-! ### Sources with a separator -/

theorem takeWhile_append_separator (t r : List UInt16) :
    (t ++ 47 :: r).takeWhile (· ≠ 47) = t.takeWhile (· ≠ 47) := by
  induction t with
  | nil => rfl
  | cons c t ih =>
      by_cases hc : c = 47
      · subst hc
        rfl
      · have hkeep : decide (c ≠ 47) = true := by simpa using hc
        rw [List.cons_append, List.takeWhile_cons, List.takeWhile_cons, hkeep, ih]

theorem firstComponent_append (t r : List UInt16) :
    firstComponent (t ++ 47 :: r) = firstComponent t := by
  rw [firstComponent, takeWhile_append_separator, firstComponent]

/-- A source is its first component, or goes on after a separator. -/
theorem split_source {s : List UInt16} (h : 47 ∈ s) :
    s = s.takeWhile (· ≠ 47) ++ 47 :: afterComponent s := by
  induction s with
  | nil => exact absurd h List.not_mem_nil
  | cons c s ih =>
      by_cases hc : c = 47
      · subst hc
        rfl
      · have hkeep : decide (c ≠ 47) = true := by simpa using hc
        have hs : 47 ∈ s := by
          rcases List.mem_cons.mp h with h | h
          · exact absurd h.symm hc
          · exact h
        have hafter : afterComponent (c :: s) = afterComponent s := by
          rw [afterComponent, List.takeWhile_cons, hkeep]
          rfl
        rw [hafter, List.takeWhile_cons, hkeep]
        exact congrArg (c :: ·) (ih hs)

theorem takeWhile_of_not_mem {s : List UInt16} (h : 47 ∉ s) : s.takeWhile (· ≠ 47) = s := by
  refine List.takeWhile_eq_self_iff.mpr fun c hc => ?_
  simp only [ne_eq, decide_eq_true_eq]
  rintro rfl
  exact h hc

theorem afterComponent_of_not_mem {s : List UInt16} (h : 47 ∉ s) : afterComponent s = [] := by
  rw [afterComponent, takeWhile_of_not_mem h, List.drop_length]
  rfl

theorem not_mem_takeWhile (s : List UInt16) : 47 ∉ s.takeWhile (· ≠ 47) := by
  intro h
  simpa using List.mem_takeWhile_imp h

theorem length_split_source {s : List UInt16} (h : 47 ∈ s) :
    s.length = (s.takeWhile (· ≠ 47)).length + ((afterComponent s).length + 1) := by
  have hlength := congrArg List.length (split_source h)
  rwa [List.length_append, List.length_cons] at hlength

theorem afterComponent_separator {k : List UInt16} (h : 47 ∉ k) (r : List UInt16) :
    afterComponent (k ++ 47 :: r) = r := by
  rw [afterComponent, takeWhile_append_separator, takeWhile_of_not_mem h, List.drop_left]
  rfl

theorem afterComponent_append {t : List UInt16} (r : List UInt16) :
    afterComponent (t ++ 47 :: r) = if 47 ∈ t then afterComponent t ++ 47 :: r else r := by
  split_ifs with h
  · have hsplit := split_source h
    calc afterComponent (t ++ 47 :: r)
        = afterComponent (t.takeWhile (· ≠ 47) ++ 47 :: (afterComponent t ++ 47 :: r)) := by
          conv_lhs => rw [hsplit]
          rw [List.append_assoc, List.cons_append]
      _ = afterComponent t ++ 47 :: r := afterComponent_separator (not_mem_takeWhile t) _
  · exact afterComponent_separator h r

theorem pathRead_char (path : WinNameidata) :
    (pathRead path winFollow).2 = 0 ↔ 47 ∉ path.s := by
  change (path.s.drop (path.s.takeWhile (· ≠ 47)).length).headD 0 = 0 ↔ _
  constructor
  · intro h hmem
    rw [split_source hmem, takeWhile_append_separator, takeWhile_of_not_mem (not_mem_takeWhile _),
      List.drop_left] at h
    exact absurd h (show ¬ (47 : UInt16) = 0 by decide)
  · intro h
    rw [takeWhile_of_not_mem h, List.drop_length]
    rfl

theorem windowsName_of_not_mem {s : List UInt16} (h : 47 ∉ s) :
    windowsName s = firstComponent s := by
  rw [firstComponent, takeWhile_of_not_mem h]
  refine List.map_congr_left fun c hc => if_neg ?_
  rw [underscore, replace]
  split_ifs
  · decide
  · rintro rfl
    exact h hc

theorem windowsName_of_mem {s : List UInt16} (h : 47 ∈ s) :
    windowsName s = firstComponent s ++ 92 :: windowsName (afterComponent s) := by
  have hk := not_mem_takeWhile s
  calc windowsName s
      = windowsName (s.takeWhile (· ≠ 47) ++ 47 :: afterComponent s) := by
        conv_lhs => rw [split_source h]
    _ = windowsName (s.takeWhile (· ≠ 47)) ++ 92 :: windowsName (afterComponent s) := by
        rw [windowsName, List.map_append]
        rfl
    _ = firstComponent s ++ 92 :: windowsName (afterComponent s) := by
        rw [windowsName_of_not_mem hk, firstComponent, takeWhile_of_not_mem hk, firstComponent]

section
variable (path : WinNameidata) (flags : UInt32)

theorem afterComponent_of_char (hs : 0 ∉ path.s) (h : (pathRead path flags).2 = 0) :
    afterComponent path.s = [] := by
  change (if flagSet flags winStripslashes then (afterComponent path.s).headD 0
    else (pathRead path winFollow).2) = 0 at h
  split_ifs at h
  · cases hafter : afterComponent path.s with
    | nil => rfl
    | cons c cs =>
        rw [hafter] at h
        have hzero := zero_not_mem_afterComponent hs
        rw [hafter, show c = 0 from h] at hzero
        exact absurd List.mem_cons_self hzero
  · exact afterComponent_of_not_mem ((pathRead_char path).mp h)

theorem mem_of_char (h : (pathRead path flags).2 ≠ 0) : 47 ∈ path.s := by
  by_contra hmem
  refine h ?_
  change (if flagSet flags winStripslashes then (afterComponent path.s).headD 0
    else (pathRead path winFollow).2) = 0
  rw [afterComponent_of_not_mem hmem, (pathRead_char path).mpr hmem]
  exact ite_self _

end

/-! ### Following -/

/-- What a node is, and the text behind it. -/
def WinFs.node (fs : WinFs) (name : List UInt16) : Option (WinFsType × List UInt16) :=
  (fs.stat false name).map fun found => (found.1.fsType, fs.read found.2 found.1.nameSize)

section
variable (fs : WinFs)

/-- Where a link with a text leads to. -/
def linkPlace (p : Place) (base : Nat) (target : List UInt16) : Place :=
  let second := secondCell fs.stale target
  p.copy (if second = 58 ∨ second = 92 then 0 else base) target

/-- Where a node leads to, and what is found there. -/
def followNode (p : Place) (base : Nat) : Place × UInt32 :=
  match fs.node p.name with
  | some (.disk, target) =>
      (linkPlace fs p base target, fs.attributes (linkPlace fs p base target).name)
  | some (.pipe, target) => (⟨target, p.r⟩, fs.attributes p.name)
  | _ => (p, fs.attributes p.name)

/-- What is found under a name, and where it leads to. -/
def follow (p : Place) (base : Nat) (tail : List UInt16) : Option (Place × UInt32) :=
  if fs.attributes p.name = noAttribs then none
  else if fileClass (fs.attributes p.name) = fileClassInode then some (followNode fs p base)
  else if fileClass (fs.attributes p.name) = fileClassMount then
    some (p.copy 0 (winDrivename tail), fs.attributes p.name)
  else some (p, fs.attributes p.name)

theorem follow_eq_none_iff {p : Place} {base : Nat} {tail : List UInt16} :
    follow fs p base tail = none ↔ fs.attributes p.name = noAttribs := by
  rw [follow]
  split_ifs with hmissing
  all_goals simp [hmissing]

/-- The last component, when nothing is found under its name: it may have an
extension. -/
def closeMissing (p : Place) : Place × UInt32 :=
  if fs.attributes (p.extend exeType).name ≠ noAttribs then
    (p.extend exeType, fs.attributes (p.extend exeType).name)
  else if fs.attributes (p.extend lnkType).name = noAttribs then (p.extend [], noAttribs)
  else match winReadlink fs (p.extend lnkType).name with
    | none => (p.extend lnkType, fs.attributes (p.extend lnkType).name)
    | some (attribs, buffer) => (⟨text buffer.text, (text buffer.text).length⟩, attribs)

/-- The last component, when it is followed as well. -/
def close (p : Place) (base : Nat) (tail : List UInt16) : Place × UInt32 :=
  match follow fs p base tail with
  | some found => found
  | none => closeMissing fs p

end

/-! ### What the lookup does to a place -/

theorem zero_not_mem_winDrivename {tail : List UInt16} (h : 0 ∉ tail) :
    0 ∉ winDrivename tail := by
  intro hmem
  rcases List.mem_append.mp hmem with hmem | hmem
  · have hin := List.takeWhile_subset _ hmem
    split_ifs at hin with hnil
    · revert hin
      decide
    · exact h hin
  · revert hmem
    decide

@[simp] theorem flagSet_follow_issymlink : flagSet winFollow winIssymlink = false := rfl
@[simp] theorem flagSet_follow_follow : flagSet winFollow winFollow = true := rfl
@[simp] theorem flagSet_follow_lockleaf : flagSet winFollow winLockleaf = false := rfl
@[simp] theorem flagSet_follow_requireobject : flagSet winFollow winRequireobject = false := rfl
@[simp] theorem flagSet_follow_nocrossmount : flagSet winFollow winNocrossmount = false := rfl
@[simp] theorem flagSet_follow_stripslashes : flagSet winFollow winStripslashes = false := rfl
@[simp] theorem flagSet_follow_pathcopy : flagSet winFollow winPathcopy = false := rfl

section
variable (fs : WinFs) (path : WinNameidata) {flags : UInt32}

/-- A path and what was found at the end of it. -/
def WinNameidata.outcome (path : WinNameidata) : Place × UInt32 := (path.place, path.attribs)

/-- A lookup went on, and where to. -/
structure GoesOn (s : List UInt16) (globbed : WinNameidata × Bool) (p : Place)
    (attribs : UInt32) : Prop where
  ok : globbed.2 = true
  place : globbed.1.place = p
  attribs : globbed.1.attribs = attribs
  s : globbed.1.s = s

theorem GoesOn.eq {s : List UInt16} {globbed : WinNameidata × Bool} {p : Place} {attribs : UInt32}
    (h : GoesOn s globbed p attribs) : globbed = (globbed.1, true) :=
  Prod.ext rfl h.ok

theorem pathGlob_none (h : fs.attributes path.name = noAttribs) :
    pathGlob fs path flags = ({ path with attribs := noAttribs }, false) := by
  rw [pathGlob]
  simp only [h, if_true]

variable {fs path} in
theorem diskFLookup_goesOn {handle : Nat} {target : List UInt16}
    (h : fs.read handle path.size = target) :
    GoesOn path.s (diskFLookup fs handle winFollow path) (linkPlace fs path.place path.base target)
      (fs.attributes (linkPlace fs path.place path.base target).name) := by
  subst h
  have hplace := path.place_wcpcpy
    (if secondCell fs.stale (fs.read handle path.size) = 58 ∨
      secondCell fs.stale (fs.read handle path.size) = 92 then 0 else path.base)
    (fs.zero_not_mem_read handle path.size)
  have hname := congrArg Place.name hplace
  rw [diskFLookup]
  simp only [flagSet_follow_issymlink, flagSet_follow_follow, Bool.not_true, if_false,
    Bool.false_eq_true]
  refine ⟨rfl, hplace, ?_, rfl⟩
  rw [linkPlace, ← hname]
  rfl

variable {fs path} in
theorem pipeFLookup_goesOn {handle : Nat} {target : List UInt16}
    (h : fs.read handle path.size = target) :
    GoesOn path.s (pipeFLookup fs handle winFollow path) ⟨target, path.r⟩ path.attribs := by
  subst h
  have hname := path.name_write 0 (fs.zero_not_mem_read handle path.size)
  have hsplice : splice path.name 0 (fs.read handle path.size) = fs.read handle path.size := by
    rw [splice, if_pos (Nat.zero_le _), List.take_zero, List.nil_append]
  exact ⟨rfl, congrArg₂ Place.mk (hname.trans hsplice) rfl, rfl, rfl⟩

theorem driveLookup_goesOn :
    GoesOn path.s (driveLookup path winFollow) (path.place.copy 0 (winDrivename path.tail))
      path.attribs := by
  have hplace := { path with mountId := mountIdOf (path.resolved.getD path.base 0) }.place_wcpcpy 0
    (zero_not_mem_winDrivename (zero_not_mem_text (path.resolved.drop path.base)))
  exact ⟨rfl, hplace, rfl, rfl⟩

variable {path} in
theorem diskLookup_goesOn (h : path.attribs = fs.attributes path.name) :
    GoesOn path.s (diskLookup fs path winFollow) (followNode fs path.place path.base).1
      (followNode fs path.place path.base).2 := by
  rw [diskLookup, flagSet_follow_lockleaf]
  cases hstat : fs.stat false path.name with
  | none =>
      have hnode : fs.node path.name = none := by rw [WinFs.node, hstat, Option.map_none]
      simp only [followNode, WinNameidata.place_name, hnode]
      exact ⟨rfl, rfl, h, rfl⟩
  | some found =>
      obtain ⟨iNode, handle⟩ := found
      have hnode : fs.node path.name = some (iNode.fsType, fs.read handle iNode.nameSize) := by
        rw [WinFs.node, hstat, Option.map_some]
      -- a disk and a pipe are asked for the link, and an object is no link
      rcases iNode.known with hdisk | hpipe | hpdo
      · rw [hdisk] at hnode
        simp only [followNode, WinNameidata.place_name, hnode, hdisk]
        let node := { path with
          deviceId := iNode.deviceId
          fileType := iNode.fileType
          fsType := WinFsType.disk
          size := iNode.nameSize }
        have hgoes : GoesOn node.s (diskFLookup fs handle winFollow node) _ _ :=
          diskFLookup_goesOn rfl
        exact hgoes
      · rw [hpipe] at hnode
        simp only [followNode, WinNameidata.place_name, hnode, hpipe]
        rw [← h]
        let node := { path with
          deviceId := iNode.deviceId
          fileType := iNode.fileType
          fsType := WinFsType.pipe
          size := iNode.nameSize }
        have hgoes : GoesOn node.s (pipeFLookup fs handle winFollow node) _ _ :=
          pipeFLookup_goesOn rfl
        exact hgoes
      · rw [hpdo] at hnode
        simp only [followNode, WinNameidata.place_name, hnode, hpdo]
        exact ⟨rfl, rfl, h, rfl⟩

theorem pathGlob_some {p : Place} {attribs : UInt32}
    (h : follow fs path.place path.base path.tail = some (p, attribs)) :
    GoesOn path.s (pathGlob fs path winFollow) p attribs := by
  rw [follow] at h
  rw [pathGlob]
  split_ifs at h with hmissing hnode hmount <;> rw [WinNameidata.place_name] at hmissing
  · rw [WinNameidata.place_name] at hnode
    obtain ⟨rfl, rfl⟩ := Prod.mk.inj (Option.some.inj h.symm)
    simp only [hmissing, hnode, if_false, if_true]
    let found : WinNameidata := { path with attribs := fs.attributes path.name }
    have hgoes : GoesOn found.s (diskLookup fs found winFollow) _ _ := diskLookup_goesOn fs rfl
    exact hgoes
  · rw [WinNameidata.place_name] at hmount
    obtain ⟨rfl, rfl⟩ := Prod.mk.inj (Option.some.inj h.symm)
    simp only [hmissing, hmount, if_false, if_true]
    let found : WinNameidata := { path with attribs := fs.attributes path.name }
    have hgoes : GoesOn found.s (driveLookup found winFollow) _ _ := driveLookup_goesOn found
    exact hgoes
  · rw [WinNameidata.place_name] at hnode hmount
    obtain ⟨rfl, rfl⟩ := Prod.mk.inj (Option.some.inj h.symm)
    simp only [hmissing, hnode, hmount, if_false]
    exact ⟨rfl, rfl, rfl, rfl⟩

theorem extend_write {typeName : List UInt16} (htype : 0 ∉ typeName) :
    (path.write path.r (typeName ++ [0])).place = path.place.extend typeName :=
  congrArg₂ Place.mk (path.name_write path.r htype) rfl

theorem extend_extend (p : Place) (w v : List UInt16) : (p.extend w).extend v = p.extend v :=
  congrArg₂ Place.mk (splice_splice p.name p.r w v) rfl

/-- An extension is put behind the name and taken off again. -/
theorem shGlobType_missing (typeName : List UInt16) (htype : 0 ∉ typeName)
    (h : fs.attributes (path.place.extend typeName).name = noAttribs) :
    ∃ probed, shGlobType fs typeName path = (probed, false) ∧
      probed.place = path.place.extend [] ∧ probed.attribs = path.attribs := by
  have hplace := extend_write path htype
  have hundone := extend_write (path.write path.r (typeName ++ [0])) (List.not_mem_nil (a := 0))
  rw [hplace, extend_extend] at hundone
  refine ⟨_, ?_, hundone, rfl⟩
  rw [shGlobType, if_pos]
  · rfl
  · rw [← WinNameidata.place_name, hplace, h]

/-- An extension is put behind the name, and there is such a file. -/
theorem shGlobType_found (typeName : List UInt16) (htype : 0 ∉ typeName)
    (h : fs.attributes (path.place.extend typeName).name ≠ noAttribs) :
    ∃ probed, shGlobType fs typeName path = (probed, true) ∧
      probed.place = path.place.extend typeName ∧
      probed.attribs = fs.attributes (path.place.extend typeName).name := by
  have hplace := extend_write path htype
  rw [← hplace, WinNameidata.place_name] at h
  refine ⟨{ path.write path.r (typeName ++ [0]) with
    attribs := fs.attributes (path.write path.r (typeName ++ [0])).name }, ?_, hplace, ?_⟩
  · rw [shGlobType, if_neg h]
  · rw [← hplace, WinNameidata.place_name]

theorem shellReadlink_none (h : winReadlink fs path.name = none) :
    shellReadlink fs path = (path, false) := by
  rw [shellReadlink, h]

theorem shellReadlink_some {attribs : UInt32} {buffer : LinkBuffer}
    (h : winReadlink fs path.name = some (attribs, buffer)) :
    ∃ linked, shellReadlink fs path = (linked, true) ∧
      linked.place = path.place.copy 0 (text buffer.text) ∧ linked.attribs = attribs := by
  rw [shellReadlink, h]
  exact ⟨_, rfl, path.place_wcpcpy 0 (zero_not_mem_text buffer.text), rfl⟩

theorem copy_zero (p : Place) (w : List UInt16) : p.copy 0 w = ⟨w, w.length⟩ := by
  rw [Place.copy, splice, if_pos (Nat.zero_le _), List.take_zero, List.nil_append, Nat.zero_add]

/-- A shell link that is followed. -/
theorem shGlobLink_outcome (h : path.attribs = noAttribs) :
    (shGlobLink fs path winFollow).1.outcome =
      if fs.attributes (path.place.extend lnkType).name = noAttribs then
        (path.place.extend [], noAttribs)
      else match winReadlink fs (path.place.extend lnkType).name with
        | none => (path.place.extend lnkType, fs.attributes (path.place.extend lnkType).name)
        | some (attribs, buffer) => (⟨text buffer.text, (text buffer.text).length⟩, attribs) := by
  by_cases hlnk : fs.attributes (path.place.extend lnkType).name = noAttribs
  · obtain ⟨probed, hprobed, hplace, hattribs⟩ :=
      shGlobType_missing fs path lnkType (by decide) hlnk
    rw [shGlobLink, hprobed, if_pos hlnk]
    exact congrArg₂ Prod.mk hplace (hattribs.trans h)
  · obtain ⟨probed, hprobed, hplace, hattribs⟩ :=
      shGlobType_found fs path lnkType (by decide) hlnk
    rw [shGlobLink, hprobed, if_neg hlnk]
    simp only [flagSet_follow_follow, if_true]
    rw [← hplace, WinNameidata.place_name]
    cases hlink : winReadlink fs probed.name with
    | none =>
        rw [shellReadlink_none fs probed hlink]
        refine congrArg₂ Prod.mk rfl ?_
        rw [hattribs, ← hplace, WinNameidata.place_name]
    | some found =>
        obtain ⟨attribs, buffer⟩ := found
        obtain ⟨linked, hlinked, hto, hattr⟩ := shellReadlink_some fs probed hlink
        rw [hlinked]
        refine congrArg₂ Prod.mk ?_ hattr
        rw [hto, copy_zero]

/-- Nothing is found under the name, but a program is. -/
theorem pathClose_exe (flags : UInt32) (h : fs.attributes path.name = noAttribs)
    {probed : WinNameidata}
    (hexe : shGlobType fs exeType { path with attribs := noAttribs } = (probed, true)) :
    (pathClose fs path flags).outcome = probed.outcome := by
  change (pathKind fs path flags).outcome = _
  rw [pathKind, pathGlob_none fs path h]
  simp only [hexe]
  rfl

/-- Nothing is found under the name, nor a program. -/
theorem pathClose_lnk (flags : UInt32) (h : fs.attributes path.name = noAttribs)
    {probed : WinNameidata}
    (hexe : shGlobType fs exeType { path with attribs := noAttribs } = (probed, false)) :
    (pathClose fs path flags).outcome = (shGlobLink fs probed flags).1.outcome := by
  change (pathKind fs path flags).outcome = _
  rw [pathKind, pathGlob_none fs path h]
  simp only [hexe]
  rcases shGlobLink fs probed flags with ⟨linked, ok⟩
  cases ok <;> rfl

/-- The last component of any lookup, when nothing is there. -/
theorem pathClose_missing (flags : UInt32) (h : fs.attributes path.name = noAttribs)
    (hexe : fs.attributes (path.place.extend exeType).name = noAttribs)
    (hlnk : fs.attributes (path.place.extend lnkType).name = noAttribs) :
    (pathClose fs path flags).outcome = (path.place.extend [], noAttribs) := by
  obtain ⟨probed, hprobed, hplace, hattribs⟩ :=
    shGlobType_missing fs { path with attribs := noAttribs } exeType (by decide) hexe
  have hlnk' : fs.attributes (probed.place.extend lnkType).name = noAttribs := by
    rw [hplace, extend_extend]
    exact hlnk
  obtain ⟨linked, hlinked, hplace', hattribs'⟩ :=
    shGlobType_missing fs probed lnkType (by decide) hlnk'
  rw [pathClose_lnk fs path flags h hprobed]
  simp only [shGlobLink, hlinked]
  refine congrArg₂ Prod.mk ?_ (hattribs'.trans hattribs)
  rw [hplace', hplace, extend_extend]
  rfl

/-- The last component of a lookup that follows links. -/
theorem pathClose_outcome :
    (pathClose fs path winFollow).outcome = close fs path.place path.base path.tail := by
  rw [close]
  cases hfollow : follow fs path.place path.base path.tail with
  | some found =>
      obtain ⟨p, attribs⟩ := found
      have hgoes := pathGlob_some fs path hfollow
      have houtcome : (pathGlob fs path winFollow).1.outcome = (p, attribs) :=
        congrArg₂ Prod.mk hgoes.place hgoes.attribs
      change (pathKind fs path winFollow).outcome = _
      rw [pathKind, hgoes.eq]
      simp only
      split_ifs
      · exact houtcome
      · exact houtcome
  | none =>
      have hmissing := (follow_eq_none_iff fs).mp hfollow
      by_cases hexe : fs.attributes (path.place.extend exeType).name = noAttribs
      · obtain ⟨probed, hprobed, hplace, hattribs⟩ :=
          shGlobType_missing fs { path with attribs := noAttribs } exeType (by decide) hexe
        have houtcome := shGlobLink_outcome fs probed hattribs
        rw [hplace, extend_extend, extend_extend] at houtcome
        rw [pathClose_lnk fs path winFollow hmissing hprobed, houtcome, closeMissing,
          if_neg (not_not_intro hexe)]
        rfl
      · obtain ⟨probed, hprobed, hplace, hattribs⟩ :=
          shGlobType_found fs { path with attribs := noAttribs } exeType (by decide) hexe
        rw [pathClose_exe fs path winFollow hmissing hprobed, closeMissing, if_pos hexe]
        exact congrArg₂ Prod.mk hplace hattribs

/-- What is left of the source is appended after another separator. -/
theorem pathRest_outcome (hs : 0 ∉ path.s) :
    (pathRest path).outcome = (path.place.enter (windowsName path.s), path.attribs) := by
  have hcells : 0 ∉ 92 :: windowsName path.s := by
    simpa using zero_not_mem_windowsName hs
  have hpoke : poke (poke path.resolved path.r [92]) (path.r + 1) (windowsName path.s ++ [0]) =
      poke path.resolved path.r (92 :: windowsName path.s ++ [0]) :=
    poke_poke path.resolved path.r [92] (windowsName path.s ++ [0])
  have hname : (pathRest path).name = splice path.name path.r (92 :: windowsName path.s) := by
    change text (poke (poke path.resolved path.r [92]) (path.r + 1)
      (windowsName path.s ++ [0])) = _
    rw [hpoke]
    exact path.name_write path.r hcells
  have hr : (pathRest path).r = path.r + (windowsName path.s).length.succ :=
    Nat.add_right_comm path.r 1 (windowsName path.s).length
  have hattribs : (pathRest path).attribs = path.attribs := by
    simp only [pathRest, pathCopy, WinNameidata.wcpcpy, WinNameidata.write]
  rw [WinNameidata.outcome, hattribs, WinNameidata.place, hname, hr]
  rfl

/-! ### Runs of the loop -/

theorem diskLookup_s (flags : UInt32) : (diskLookup fs path flags).1.s = path.s := by
  rw [diskLookup]
  split
  · rfl
  · split
    · rw [diskFLookup]
      split_ifs <;> rfl
    · rw [pipeFLookup]
      split_ifs <;> rfl
    · rw [pdoFLookup]
      split_ifs <;> rfl
    · rfl

theorem driveLookup_s (flags : UInt32) : (driveLookup path flags).1.s = path.s := by
  rw [driveLookup]
  split_ifs <;> rfl

@[simp] theorem pathGlob_s (flags : UInt32) : (pathGlob fs path flags).1.s = path.s := by
  rw [pathGlob]
  simp only
  split_ifs
  · rfl
  · exact diskLookup_s fs { path with attribs := fs.attributes path.name } flags
  · exact driveLookup_s { path with attribs := fs.attributes path.name } flags
  · rfl

/-- The loop does not run out of fuel. -/
theorem pathWalk_fuel (flags : UInt32) (n m : Nat) (hn : path.s.length < n)
    (hm : path.s.length < m) : pathWalk fs n path flags = pathWalk fs m path flags := by
  induction n generalizing m path with
  | zero => exact absurd hn (Nat.not_lt_zero _)
  | succ n ih =>
      obtain ⟨m, rfl⟩ : ∃ k, m = k + 1 := ⟨m - 1, by omega⟩
      rw [pathWalk, pathWalk]
      by_cases hc : (pathRead path flags).2 = 0
      · simp only [hc, if_true]
      · simp only [hc, if_false]
        have hlt := afterComponent_lt _ _ hc
        have hs : (pathGlob fs (pathRead path flags).1 winFollow).1.s = afterComponent path.s :=
          pathGlob_s fs _ winFollow
        split
        · rename_i globbed hglob
          rw [hglob] at hs
          exact ih globbed m (by rw [hs]; omega) (by rw [hs]; omega)
        · rfl

end

section
variable (fs : WinFs)

/-- Two turns from one place. -/
structure SameTurn (p q : WinNameidata) : Prop where
  place : p.place = q.place
  s : p.s = q.s

variable {p q : WinNameidata} (flags : UInt32)

/-- The last component that was read in two turns from one place. -/
structure SameRead (p q : WinNameidata) : Prop extends SameTurn p q where
  base : p.base = q.base
  tail : p.tail = q.tail

theorem SameTurn.read (h : SameTurn p q) (hs : 0 ∉ p.s) :
    SameRead (pathRead p flags).1 (pathRead q flags).1 where
  place := by rw [pathRead_place p flags hs, pathRead_place q flags (h.s ▸ hs), h.place, h.s]
  s := by rw [pathRead_s, pathRead_s, h.s]
  base := congrArg (· + 1) (congrArg Place.r h.place)
  tail := by rw [pathRead_tail p flags hs, pathRead_tail q flags (h.s ▸ hs), h.s]

theorem SameTurn.char (h : SameTurn p q) : (pathRead p flags).2 = (pathRead q flags).2 := by
  rw [pathRead, pathRead, h.s]

theorem SameRead.glob (h : SameRead p q) :
    (pathGlob fs p winFollow).2 = (pathGlob fs q winFollow).2 ∧
      (pathGlob fs p winFollow).1.outcome = (pathGlob fs q winFollow).1.outcome := by
  cases hfollow : follow fs p.place p.base p.tail with
  | none =>
      have hp := (follow_eq_none_iff fs).mp hfollow
      have hq : fs.attributes q.name = noAttribs := by
        rw [← q.place_name, ← h.place]
        exact hp
      rw [pathGlob_none fs p hp, pathGlob_none fs q hq]
      exact ⟨rfl, congrArg₂ Prod.mk h.place rfl⟩
  | some found =>
      obtain ⟨at', attribs⟩ := found
      have hfollow' := hfollow
      rw [h.place, h.base, h.tail] at hfollow'
      have hp := pathGlob_some fs p hfollow
      have hq := pathGlob_some fs q hfollow'
      exact ⟨hp.ok.trans hq.ok.symm,
        congrArg₂ Prod.mk (hp.place.trans hq.place.symm) (hp.attribs.trans hq.attribs.symm)⟩

theorem SameTurn.rest (h : SameTurn p q) (hattribs : p.attribs = q.attribs) (hs : 0 ∉ p.s) :
    (pathRest p).outcome = (pathRest q).outcome := by
  rw [pathRest_outcome p hs, pathRest_outcome q (h.s ▸ hs), h.place, h.s, hattribs]

end

/-- What a lookup does that copies its source. -/
theorem pathCopy_place {path : WinNameidata} (hstand : path.place.Standing) {s : List UInt16}
    (hs : 0 ∉ s) (flags : UInt32) :
    (pathCopy (pathOpen path s flags)).place.Standing ∧
      (pathCopy (pathOpen path s flags)).name = path.name ++ windowsName s := by
  have hplace : (pathCopy (pathOpen path s flags)).place = path.place.copy path.r (windowsName s) :=
    WinNameidata.place_wcpcpy (pathOpen path s flags) path.r (zero_not_mem_windowsName hs)
  have hr : path.r = path.name.length := hstand
  have hname : (path.place.copy path.r (windowsName s)).name = path.name ++ windowsName s := by
    show splice path.name path.r (windowsName s) = _
    rw [hr, splice_length]
  rw [hplace, ← WinNameidata.place_name, hplace, hname]
  refine ⟨?_, rfl⟩
  rw [Place.Standing, hname, List.length_append, ← hr]
  rfl

end MinC.Vfs
