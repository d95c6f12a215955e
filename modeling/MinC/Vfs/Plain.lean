import MinC.Vfs.Walk

/-!
Names that nothing leads away from.

Where no component is a link, a mount point or a pipe, a lookup appends the
source to the name it starts from, and at the end it may put the extension of a
program behind the name.
-/

namespace MinC.Vfs

open MinC.Lib MinC.Win

section
variable (fs : WinFs)

/-- A name that is neither a link in a file nor a mount point. -/
def NoLink (name : List UInt16) : Prop :=
  fileClass (fs.attributes name) ≠ fileClassMount ∧
    (fileClass (fs.attributes name) = fileClassInode →
      ∀ leaf found, fs.stat leaf name = some found → found.1.fsType ≠ .disk)

/-- A name that is not a pipe. -/
def NoPipe (name : List UInt16) : Prop :=
  fileClass (fs.attributes name) = fileClassInode →
    ∀ leaf found, fs.stat leaf name = some found → found.1.fsType ≠ .pipe

/-- A name that a link of Windows stands for, which has an extension. -/
def NoShortcut (name : List UInt16) : Prop :=
  fs.attributes name = noAttribs → fs.attributes (name ++ lnkType) = noAttribs

/-- The parts of a source that end with a component. -/
def Leads (part s : List UInt16) : Prop := part = s ∨ ∃ rest, s = part ++ 47 :: rest

/-- The name that a source has behind a name. -/
def nameBelow (start s : List UInt16) : List UInt16 := start ++ 92 :: windowsName s

/-- The parts of a source that a walk looks at: before them all was found. -/
def Met (start s part : List UInt16) : Prop :=
  Leads part s ∧ ∀ shorter rest, part = shorter ++ 47 :: rest →
    fs.attributes (nameBelow start shorter) ≠ noAttribs

/-- The source of a walk that strips a separator, which it does at the end. -/
def stripped (flags : UInt32) (s : List UInt16) : List UInt16 :=
  if flagSet flags winStripslashes ∧ s.getLast? = some 47 then s.dropLast else s

/-- The walk comes to the last component of its source: all others are found. -/
def reachesLast : Nat → WinNameidata → UInt32 → Bool
  | 0, _, _ => false
  | fuel + 1, path, flags =>
      let read := pathRead path flags
      let globbed := pathGlob fs read.1 winFollow
      read.2 == 0 || (globbed.2 && reachesLast fuel globbed.1 flags)

/-- A name, or the name of the program that is found in its place. -/
def FoundAs (name found : List UInt16) : Prop :=
  found = name ∨
    (found = name ++ exeType ∧ fs.attributes name = noAttribs ∧
      fs.attributes (name ++ exeType) ≠ noAttribs)

variable {fs} {path : WinNameidata} {flags : UInt32}

theorem diskLookup_stays
    (h : ∀ leaf found, fs.stat leaf path.name = some found →
      found.1.fsType ≠ .disk ∧ found.1.fsType ≠ .pipe) :
    (diskLookup fs path flags).2 = true ∧ (diskLookup fs path flags).1.place = path.place := by
  unfold diskLookup
  cases hstat : fs.stat (flagSet flags winLockleaf) path.name with
  | none => exact ⟨rfl, rfl⟩
  | some found =>
      obtain ⟨iNode, handle⟩ := found
      obtain ⟨hdisk, hpipe⟩ := h _ _ hstat
      rcases iNode.known with hknown | hknown | hknown
      · exact absurd hknown hdisk
      · exact absurd hknown hpipe
      · dsimp only
        rw [hknown]
        unfold pdoFLookup
        dsimp only
        split_ifs <;> exact ⟨rfl, rfl⟩

theorem pathGlob_stays (hlink : NoLink fs path.name) (hpipe : NoPipe fs path.name)
    (hfound : fs.attributes path.name ≠ noAttribs) :
    (pathGlob fs path flags).2 = true ∧ (pathGlob fs path flags).1.place = path.place := by
  unfold pathGlob
  dsimp only
  rw [if_neg hfound, if_neg hlink.1]
  split_ifs with hnode
  · let found : WinNameidata := { path with attribs := fs.attributes path.name }
    have hstays : (diskLookup fs found flags).2 = true ∧
        (diskLookup fs found flags).1.place = found.place :=
      diskLookup_stays fun leaf node hstat =>
        ⟨hlink.2 hnode leaf node hstat, hpipe hnode leaf node hstat⟩
    exact hstays
  · exact ⟨rfl, rfl⟩

/-- The last component is found under its name, or as a program, or not at
all. -/
theorem pathClose_foundAs (hstand : path.place.Standing) (hlink : NoLink fs path.name)
    (hpipe : NoPipe fs path.name) (hshort : NoShortcut fs path.name) :
    FoundAs fs path.name (pathClose fs path flags).name := by
  have hextend : ∀ typeName, (path.place.extend typeName).name = path.name ++ typeName :=
    fun typeName => congrArg Place.name (hstand.extend typeName)
  by_cases hmissing : fs.attributes path.name = noAttribs
  · by_cases hexe : fs.attributes (path.name ++ exeType) = noAttribs
    · left
      have hoff := pathClose_missing fs path flags hmissing (by rw [hextend]; exact hexe)
        (by rw [hextend]; exact hshort hmissing)
      calc (pathClose fs path flags).name = (path.place.extend []).name :=
            congrArg (fun found => found.1.name) hoff
        _ = path.name := (hextend []).trans (List.append_nil _)
    -- the name is missing, and is found as a program
    · right
      refine ⟨?_, hmissing, hexe⟩
      obtain ⟨probed, hprobed, hplace, -⟩ :=
        shGlobType_found fs { path with attribs := noAttribs } exeType (by decide)
          (by change fs.attributes (path.place.extend exeType).name ≠ _; rw [hextend]; exact hexe)
      have hfound := pathClose_exe fs path flags hmissing hprobed
      calc (pathClose fs path flags).name = probed.place.name :=
            congrArg (fun found => found.1.name) hfound
        _ = path.name ++ exeType := (congrArg Place.name hplace).trans (hextend exeType)
  · left
    have hstays : (pathGlob fs path flags).2 = true ∧
        (pathGlob fs path flags).1.place = path.place := pathGlob_stays hlink hpipe hmissing
    obtain ⟨hok, hplace⟩ := hstays
    change (pathKind fs path flags).name = _
    rw [pathKind, show pathGlob fs path flags = ((pathGlob fs path flags).1, true) from
      Prod.ext rfl hok]
    dsimp only
    split_ifs
    · exact congrArg Place.name hplace
    · exact congrArg Place.name hplace

/-! ### Parts of a source -/

theorem nameBelow_nameBelow (start k part : List UInt16) :
    nameBelow (nameBelow start k) part = nameBelow start (k ++ 47 :: part) := by
  rw [nameBelow, nameBelow, nameBelow, windowsName, windowsName, windowsName, List.map_append,
    List.map_cons, List.append_assoc]
  rfl

/-- The name of a source is that of what follows its first component, below that. -/
theorem nameBelow_afterComponent (start : List UInt16) {s : List UInt16} (h : 47 ∈ s) :
    nameBelow (nameBelow start (s.takeWhile (· ≠ 47))) (afterComponent s) = nameBelow start s := by
  rw [nameBelow_nameBelow, ← split_source h]

theorem Leads.behind {k part r : List UInt16} (h : Leads part r) :
    Leads (k ++ 47 :: part) (k ++ 47 :: r) := by
  rcases h with rfl | ⟨rest, rfl⟩
  · exact .inl rfl
  · refine .inr ⟨rest, ?_⟩
    rw [List.append_assoc, List.cons_append]

/-- What comes before a separator of a source is its first component, or goes on
behind it. -/
theorem split_behind {k part shorter rest : List UInt16} (hk : 47 ∉ k)
    (h : k ++ 47 :: part = shorter ++ 47 :: rest) :
    shorter = k ∨ ∃ more, shorter = k ++ 47 :: more ∧ part = more ++ 47 :: rest := by
  rcases List.append_eq_append_iff.mp h with ⟨between, hshorter, hpart⟩ | ⟨between, hk', hrest⟩
  · cases between with
    | nil => exact .inl (by rw [hshorter, List.append_nil])
    | cons c between =>
        obtain ⟨rfl, htail⟩ := List.cons.inj hpart
        exact .inr ⟨between, hshorter, htail⟩
  · cases between with
    | nil => exact .inl (by rw [hk', List.append_nil])
    | cons c between =>
        obtain ⟨rfl, -⟩ := List.cons.inj hrest
        exact absurd (by rw [hk']; exact List.mem_append_right _ List.mem_cons_self) hk

/-- What is met below a component that is found is met. -/
theorem Met.behind {start k part r : List UInt16} (hk : 47 ∉ k)
    (hfound : fs.attributes (nameBelow start k) ≠ noAttribs)
    (h : Met fs (nameBelow start k) r part) : Met fs start (k ++ 47 :: r) (k ++ 47 :: part) := by
  refine ⟨h.1.behind, fun shorter rest heq => ?_⟩
  rcases split_behind hk heq with rfl | ⟨more, rfl, rfl⟩
  · exact hfound
  · rw [← nameBelow_nameBelow]
    exact h.2 more rest rfl

/-- The first component is always met. -/
theorem Met.first {start k s : List UInt16} (hk : 47 ∉ k) (h : Leads k s) : Met fs start s k := by
  refine ⟨h, fun shorter rest heq => ?_⟩
  exact absurd (by rw [heq]; exact List.mem_append_right _ List.mem_cons_self) hk

theorem stripped_of_not_mem {s : List UInt16} (h : 47 ∉ s) : stripped flags s = s := by
  refine if_neg fun hslash => ?_
  exact h (List.mem_of_getLast? hslash.2)

theorem stripped_behind {k r : List UInt16} (hr : flagSet flags winStripslashes = true → r ≠ []) :
    stripped flags (k ++ 47 :: r) = k ++ 47 :: stripped flags r := by
  by_cases hflag : flagSet flags winStripslashes = true
  · obtain ⟨l, c, rfl⟩ := List.eq_nil_or_concat' r |>.resolve_left (hr hflag)
    have hlast : (k ++ 47 :: (l ++ [c])).getLast? = (l ++ [c]).getLast? := by
      rw [← List.cons_append, ← List.append_assoc, List.getLast?_concat, List.getLast?_concat]
    unfold stripped
    rw [hlast]
    split_ifs
    · rw [← List.cons_append, ← List.append_assoc, List.dropLast_concat, List.dropLast_concat]
    · rfl
  · rw [stripped, stripped, if_neg (fun h => hflag h.1), if_neg (fun h => hflag h.1)]

/-! ### One component -/

/-- The character behind the last component: what follows is at most a separator
that is stripped. -/
theorem stripped_last (hs : 0 ∉ path.s) (hc : (pathRead path flags).2 = 0) :
    Leads (path.s.takeWhile (· ≠ 47)) path.s ∧
      stripped flags path.s = path.s.takeWhile (· ≠ 47) := by
  have hafter := afterComponent_of_char path flags hs hc
  by_cases hmem : 47 ∈ path.s
  · have hsplit := split_source hmem
    rw [hafter] at hsplit
    refine ⟨.inr ⟨[], hsplit⟩, ?_⟩
    have hflag : flagSet flags winStripslashes = true := by
      by_contra hflag
      refine absurd hmem ((pathRead_char path).mp ?_)
      have hchar : (pathRead path flags).2 = (pathRead path winFollow).2 := if_neg hflag
      rw [← hchar, hc]
    rw [stripped, if_pos ⟨hflag, by rw [hsplit, List.getLast?_concat]⟩]
    conv_lhs => rw [hsplit]
    rw [List.dropLast_concat]
  · rw [takeWhile_of_not_mem hmem]
    exact ⟨.inl rfl, stripped_of_not_mem hmem⟩

/-- Behind any other component, what is stripped is stripped of the rest. -/
theorem stripped_rest (hc : (pathRead path flags).2 ≠ 0) :
    stripped flags path.s =
      path.s.takeWhile (· ≠ 47) ++ 47 :: stripped flags (afterComponent path.s) := by
  conv_lhs => rw [split_source (mem_of_char path flags hc)]
  apply stripped_behind
  intro hflag hnil
  have hchar : (pathRead path flags).2 = (afterComponent path.s).headD 0 := if_pos hflag
  rw [hnil] at hchar
  exact hc hchar

theorem pathRead_standing (hstand : path.place.Standing) (hs : 0 ∉ path.s) :
    (pathRead path flags).1.place.Standing := by
  rw [pathRead_place path flags hs]
  exact hstand.entered _

theorem pathRead_name (hstand : path.place.Standing) (hs : 0 ∉ path.s) :
    (pathRead path flags).1.name = nameBelow path.name (path.s.takeWhile (· ≠ 47)) := by
  have hk := not_mem_takeWhile path.s
  rw [← WinNameidata.place_name, pathRead_place path flags hs, hstand.enter, nameBelow,
    windowsName_of_not_mem hk, firstComponent, firstComponent, takeWhile_of_not_mem hk]
  rfl

/-- Where nothing is there, what is left is appended as it is. -/
theorem pathRest_missing {missing : WinNameidata} (hstand : missing.place.Standing)
    (hs : 0 ∉ missing.s) : (pathRest missing).name = nameBelow missing.name missing.s :=
  calc (pathRest missing).name = (missing.place.enter (windowsName missing.s)).name :=
        congrArg (fun found => found.1.name) (pathRest_outcome missing hs)
    _ = nameBelow missing.name missing.s := congrArg Place.name (hstand.enter _)

/-! ### The walk -/

/-- A walk that nothing leads away ends at the name that its source has, less a
separator that it strips. If something is missing on its way, it strips none. -/
theorem pathWalk_below (n : Nat) (hstand : path.place.Standing) (hs : 0 ∉ path.s)
    (hn : path.s.length < n)
    (hmet : ∀ part, Met fs path.name path.s part →
      NoLink fs (nameBelow path.name part) ∧ NoPipe fs (nameBelow path.name part))
    (hshort : NoShortcut fs (nameBelow path.name (stripped flags path.s))) :
    (reachesLast fs n path flags = true ∧
      FoundAs fs (nameBelow path.name (stripped flags path.s)) (pathWalk fs n path flags).name) ∨
    (reachesLast fs n path flags = false ∧
      (pathWalk fs n path flags).name = nameBelow path.name path.s) := by
  induction n generalizing path with
  | zero => exact absurd hn (Nat.not_lt_zero _)
  | succ n ih =>
      have hk := not_mem_takeWhile path.s
      have hname : (pathRead path flags).1.name = _ := pathRead_name hstand hs
      have hstands : (pathRead path flags).1.place.Standing := pathRead_standing hstand hs
      rw [pathWalk, reachesLast]
      by_cases hc : (pathRead path flags).2 = 0
      · -- the last component, which is closed
        left
        obtain ⟨hleads, hstripped⟩ := stripped_last hs hc
        obtain ⟨hlink, hpipe⟩ := hmet _ (Met.first hk hleads)
        rw [hstripped] at hshort ⊢
        rw [← hname] at hlink hpipe hshort ⊢
        simp only [hc, if_true, beq_self_eq_true, Bool.true_or]
        exact ⟨trivial, pathClose_foundAs hstands hlink hpipe hshort⟩
      · have hsplit := split_source (mem_of_char path flags hc)
        have hzero := zero_not_mem_afterComponent hs
        have hrest : nameBelow (pathRead path flags).1.name (afterComponent path.s) =
            nameBelow path.name path.s := by
          rw [hname, nameBelow_afterComponent _ (mem_of_char path flags hc)]
        have hgoes : ((pathRead path flags).2 == 0) = false := beq_eq_false_iff_ne.mpr hc
        simp only [hc, if_false, hgoes, Bool.false_or]
        by_cases hmissing : fs.attributes (pathRead path flags).1.name = noAttribs
        · right
          let missing : WinNameidata := { (pathRead path flags).1 with attribs := noAttribs }
          rw [pathGlob_none fs _ hmissing, ← hrest]
          have hplace : missing.place.Standing := hstands
          exact ⟨rfl, pathRest_missing hplace hzero⟩
        · -- what is there leads nowhere else, and the walk goes on below it
          obtain ⟨hlink, hpipe⟩ := hmet _ (Met.first hk (.inr ⟨_, hsplit⟩))
          rw [← hname] at hlink hpipe
          have hstays : (pathGlob fs (pathRead path flags).1 winFollow).2 = true ∧
              (pathGlob fs (pathRead path flags).1 winFollow).1.place =
                (pathRead path flags).1.place := pathGlob_stays hlink hpipe hmissing
          obtain ⟨hok, hplace⟩ := hstays
          have hleft : (pathGlob fs (pathRead path flags).1 winFollow).1.s = afterComponent path.s :=
            pathGlob_s fs _ winFollow
          have hstrip := stripped_rest hc
          rw [hstrip, ← nameBelow_nameBelow, ← hname] at hshort
          rw [hstrip, ← nameBelow_nameBelow, ← hname, ← hrest]
          rw [hname] at hmissing
          have hbelow : ∀ part, Met fs (pathRead path flags).1.name (afterComponent path.s) part →
              NoLink fs (nameBelow (pathRead path flags).1.name part) ∧
                NoPipe fs (nameBelow (pathRead path flags).1.name part) := by
            intro part hpart
            rw [hname] at hpart ⊢
            rw [nameBelow_nameBelow]
            apply hmet
            have hmore := hpart.behind hk hmissing
            rwa [← hsplit] at hmore
          rw [show pathGlob fs (pathRead path flags).1 winFollow =
            ((pathGlob fs (pathRead path flags).1 winFollow).1, true) from Prod.ext rfl hok]
          dsimp only
          rw [Bool.true_and]
          generalize (pathGlob fs (pathRead path flags).1 winFollow).1 = globbed at hplace hleft ⊢
          have hsame : globbed.name = (pathRead path flags).1.name := congrArg Place.name hplace
          have hlt := afterComponent_lt path flags hc
          rw [← hsame, ← hleft] at hbelow hshort ⊢
          exact ih (by rw [hplace]; exact hstands) (by rw [hleft]; exact hzero)
            (by rw [hleft]; omega) hbelow hshort

/-- A walk that nothing leads away ends at the name that its source has. -/
theorem pathWalk_foundAs (n : Nat) (hstand : path.place.Standing) (hs : 0 ∉ path.s)
    (hn : path.s.length < n) (hend : path.s.getLast? ≠ some 47)
    (hleads : ∀ part, Leads part path.s →
      NoLink fs (nameBelow path.name part) ∧ NoPipe fs (nameBelow path.name part))
    (hshort : NoShortcut fs (nameBelow path.name path.s)) :
    FoundAs fs (nameBelow path.name path.s) (pathWalk fs n path flags).name := by
  have hstripped : stripped flags path.s = path.s := if_neg fun h => hend h.2
  have hwalk := pathWalk_below n hstand hs hn (fun part hpart => hleads part hpart.1)
    (show NoShortcut fs (nameBelow path.name (stripped flags path.s)) by rwa [hstripped])
  rw [hstripped] at hwalk
  rcases hwalk with ⟨-, hfound⟩ | ⟨-, hname⟩
  · exact hfound
  · exact .inl hname

end

end MinC.Vfs
