import MinC.Sys.Descriptors
import MinC.Vfs.Walk

/-!
Names of the `*at` calls.

`pathatWin` chooses what a path is looked up from: the directory of a
descriptor, the root, a drive or the current directory. The choice is made in
this order, so that a descriptor is looked at before the path, and a query for
the name of a descriptor that fails leaves the path where it is.
-/

namespace MinC.Sys

open MinC.Lib MinC.Win MinC.Vfs

/-! ### What the caller brings -/

/-- What a task resolves paths with: its descriptors, its drive and the name of
its current directory. -/
structure NameiTask where
  node : Nat → WinVnode
  mountId : UInt32
  path : List UInt16
  zero_not_mem_path : 0 ∉ path

/-- The name of the object of a handle, and whether Windows tells it. -/
structure ObjectNames where
  name : Nat → List UInt16
  answers : Nat → Bool
  zero_not_mem_name : ∀ handle, 0 ∉ name handle

def atFdcwd : Int := -100
def atSymlinkNofollow : UInt32 := 2
def atRemovedir : UInt32 := 8
def atNocross : UInt32 := 0x10
def atNoslash : UInt32 := 0x20
def atSymlink : UInt32 := 0x40
def atObject : UInt32 := 0x80
def atLockleaf : UInt32 := 0x100

def devTypeRoot : UInt32 := 0x0A40

/-- `\\.\GLOBALROOT`, the root of all object names. -/
def globalRoot : List UInt16 := [92, 92, 46, 92, 71, 76, 79, 66, 65, 76, 82, 79, 79, 84]

/-- `PROCESS_ROOT`, the same with a separator. -/
def processRoot : List UInt16 := globalRoot ++ [92]

/-! ### Prefixes -/

/-- The flags of a lookup. -/
def flagsOfAt (atflags : UInt32) : UInt32 :=
  (if flagSet atflags atSymlinkNofollow then winNofollow else winFollow) |||
    (if flagSet atflags atNocross then winNocrossmount else 0) |||
    (if flagSet atflags atRemovedir then winRequiredir else 0) |||
    (if flagSet atflags atNoslash then winStripslashes else 0) |||
    (if flagSet atflags atSymlink then winIssymlink else 0) |||
    (if flagSet atflags atObject then winRequireobject else 0) |||
    (if flagSet atflags atLockleaf then winLockleaf else 0)

/-- A byte as the `char` it is, in a `WCHAR`. -/
def charUnit (b : UInt8) : UInt16 := if b < 128 then b.toUInt16 else b.toUInt16 + 0xFF00

/-- The path of an object by its name. -/
def objectPath (name : List UInt16) (node : WinVnode) (result : WinNameidata) : WinNameidata :=
  let named := (result.wcpcpy 0 globalRoot).wcpcpy globalRoot.length name
  { named with
    s := []
    base := named.r
    last := (named.r : Int) - 1
    fsType := node.fsType
    attribs := node.attribs
    fileType := node.fileType
    mountId := node.mountId
    object := node.object
    flags := 0 }

/-- The path of the object a descriptor is open on. -/
def vfsFGetpath (objects : ObjectNames) (node : WinVnode) (result : WinNameidata) :
    WinNameidata :=
  if objects.answers node.handle ∧ objects.name node.handle ≠ [] then
    objectPath (objects.name node.handle) node result
  else result

def rootWin (result : WinNameidata) (path : List UInt8) : WinNameidata × List UInt8 :=
  if path.take 6 = [47, 112, 114, 111, 99, 47] then
    (result.wcpcpy 0 processRoot, path.drop 6)
  else (result.wcpcpy 0 [46], path.drop 1)

/-- The number of the drive that a `char` names. -/
def mountIdOfByte (b : UInt8) : UInt32 :=
  if b < 128 then mountIdOf b.toUInt16 else 1 + (b.toUInt32 + 0xFFFFFF00) - 97

/-- A path with a drive; what follows the colon is skipped. -/
def driveWin (result : WinNameidata) (path : List UInt8) : WinNameidata × List UInt8 :=
  ({ result.write result.r [charUnit (path.getD 0 0), 58] with
      mountId := mountIdOfByte (path.getD 0 0)
      r := result.r + 2 },
    (path.drop 2).drop 1)

/-- What a path is looked up from, what is left of it, and the flags. -/
def prefixWin (task : NameiTask) (objects : ObjectNames) (result : WinNameidata) (dirfd : Int)
    (path : List UInt8) (flags : UInt32) : WinNameidata × List UInt8 × UInt32 :=
  let start := { result with
    mountId := 0
    deviceId := devTypeRoot
    fsType := .disk
    r := 0
    base := 0 }
  if 0 < dirfd ∧ dirfd < openMax then
    (vfsFGetpath objects (task.node dirfd.toNat) start, path, flags)
  else if path.getD 0 0 = 47 then
    ((rootWin start path).1, (rootWin start path).2, flags)
  else if path.getD 1 0 = 58 then
    ((driveWin start path).1, (driveWin start path).2, flags)
  else if dirfd = atFdcwd then
    ({ start.wcpcpy start.r task.path with mountId := task.mountId }, path, flags)
  else (start, path, flags ||| winPathcopy)

/-- The cells that are left for the source. A source that does not fit them
is not converted, and the buffer keeps what was in it. -/
def sourceWin (stale : List UInt16) (result : WinNameidata) (path : List UInt8) : List UInt16 :=
  (winMbstowcs path ((winPathMax : Int) - result.r)).getD stale

def pathatWin (fs : WinFs) (stale : List UInt16) (task : NameiTask) (objects : ObjectNames)
    (result : WinNameidata) (dirfd : Int) (path : List UInt8) (atflags : UInt32) : WinNameidata :=
  match prefixWin task objects result dirfd path (flagsOfAt atflags) with
  | (start, path, flags) => vfsLookup fs start (text (sourceWin stale start path)) flags

/-! ### A system in which nothing is found -/

def emptyFs : WinFs where
  attributes _ := noAttribs
  stat _ _ := none
  read _ _ := []
  shortcut _ := none
  stale := []
  zero_not_mem_read _ _ := List.not_mem_nil
  bounded := ⟨0, fun _ _ => rfl⟩

section
variable (path : WinNameidata) (flags : UInt32)

theorem pathClose_emptyFs : (pathClose emptyFs path flags).name = (path.place.extend []).name :=
  congrArg (fun found => found.1.name) (pathClose_missing emptyFs path flags rfl rfl rfl)

theorem pathRest_name (hs : 0 ∉ path.s) :
    (pathRest path).name = (path.place.enter (windowsName path.s)).name :=
  congrArg (fun found => found.1.name) (pathRest_outcome path hs)

/-- Where nothing is found, a source is appended as it is, but for a separator
at its end. -/
theorem vfsLookup_emptyFs {s : List UInt16} (hpath : path.place.Standing) (hs : 0 ∉ s)
    (hflags : flagSet flags winPathcopy = false) :
    ∃ x, (vfsLookup emptyFs path s flags).name = path.name ++ 92 :: x ∧
      (x = windowsName s ∨ (x = firstComponent s ∧ afterComponent s = [])) := by
  let opened := pathOpen path s flags
  have hread : (pathRead opened flags).1.place = path.place.enter (firstComponent s) :=
    pathRead_place opened flags hs
  have hopened : vfsLookup emptyFs path s flags = pathWalk emptyFs (s.length + 1) opened flags := by
    rw [vfsLookup, hflags]
    rfl
  rw [hopened, pathWalk]
  by_cases hc : (pathRead opened flags).2 = 0
  · simp only [hc, if_true]
    refine ⟨firstComponent s, ?_, .inr ⟨rfl, afterComponent_of_char opened flags hs hc⟩⟩
    rw [pathClose_emptyFs, hread, (hpath.entered (firstComponent s)).extend, hpath.enter]
    exact List.append_nil _
  · simp only [hc, if_false]
    refine ⟨windowsName s, ?_, .inl rfl⟩
    rw [pathGlob_none emptyFs _ rfl]
    let missing : WinNameidata := { (pathRead opened flags).1 with attribs := noAttribs }
    have hplace : missing.place = path.place.enter (firstComponent s) := hread
    have hs' : missing.s = afterComponent s := rfl
    have hmem : 47 ∈ s := mem_of_char opened flags hc
    have hzero : 0 ∉ missing.s := zero_not_mem_afterComponent hs
    change (pathRest missing).name = _
    rw [pathRest_name missing hzero, hplace, hs', enter_enter, ← windowsName_of_mem hmem,
      hpath.enter]
    rfl

/-- A source that is copied is appended without a separator. -/
theorem vfsLookup_emptyFs_copy {s : List UInt16} (hpath : path.place.Standing) (hs : 0 ∉ s)
    (hflags : flagSet flags winPathcopy = true) :
    (vfsLookup emptyFs path s flags).name = path.name ++ windowsName s := by
  obtain ⟨hstand, hname⟩ := pathCopy_place hpath hs flags
  have hopened : vfsLookup emptyFs path s flags =
      pathClose emptyFs (pathCopy (pathOpen path s flags)) flags := by
    rw [vfsLookup, hflags]
    rfl
  rw [hopened, pathClose_emptyFs, hstand.extend, List.append_nil, WinNameidata.place_name, hname]

/-- What can be told of a source that was appended. -/
theorem appended_length {s x : List UInt16}
    (h : x = windowsName s ∨ (x = firstComponent s ∧ afterComponent s = [])) :
    x.length ≤ s.length ∧ s.length ≤ x.length + 1 := by
  rcases h with rfl | ⟨rfl, hafter⟩
  · rw [windowsName, List.length_map]
    omega
  · rw [firstComponent, List.length_map]
    by_cases hmem : 47 ∈ s
    · have hlength := length_split_source hmem
      rw [hafter, List.length_nil] at hlength
      omega
    · rw [takeWhile_of_not_mem hmem]
      omega

theorem underscore_ne_colon (c : UInt16) : underscore c ≠ 58 := by
  rw [underscore, replace]
  split_ifs with h
  · decide
  · exact h

theorem colon_not_mem_appended {s x : List UInt16}
    (h : x = windowsName s ∨ (x = firstComponent s ∧ afterComponent s = [])) : 58 ∉ x := by
  intro hmem
  rcases h with rfl | ⟨rfl, _⟩
  · obtain ⟨c, _, hc⟩ := List.mem_map.mp hmem
    have hne := underscore_ne_colon c
    change backslash (underscore c) = 58 at hc
    rw [backslash, replace] at hc
    split_ifs at hc
    · exact absurd hc (by decide)
    · exact hne hc
  · obtain ⟨c, _, hc⟩ := List.mem_map.mp hmem
    exact underscore_ne_colon c hc

/-! ### A system in which everything is found -/

/-- Every name that is not too long is a plain file. -/
def plainFs (n : Nat) : WinFs where
  attributes name := if n < name.length then noAttribs else 0x20
  stat _ _ := none
  read _ _ := []
  shortcut _ := none
  stale := []
  zero_not_mem_read _ _ := List.not_mem_nil
  bounded := ⟨n, fun _ h => if_pos h⟩

theorem pathGlob_plainFs {n : Nat} (h : path.name.length ≤ n) :
    pathGlob (plainFs n) path flags = ({ path with attribs := 0x20 }, true) := by
  have hfound : (plainFs n).attributes path.name = 0x20 := if_neg (Nat.not_lt.mpr h)
  rw [pathGlob]
  simp only [hfound]
  rfl

theorem pathClose_plainFs {n : Nat} (h : path.name.length ≤ n) :
    (pathClose (plainFs n) path flags).attribs = 0x20 := by
  change (pathKind (plainFs n) path flags).attribs = 0x20
  rw [pathKind, pathGlob_plainFs path flags h]
  simp only
  split_ifs <;> rfl

theorem pathWalk_plainFs {n : Nat} (m : Nat) (hs : 0 ∉ path.s) (hm : path.s.length < m)
    (hn : path.r + path.s.length + 1 ≤ n) :
    (pathWalk (plainFs n) m path flags).attribs = 0x20 := by
  induction m generalizing path with
  | zero => exact absurd hm (Nat.not_lt_zero _)
  | succ m ih =>
      have hplace := pathRead_place path flags hs
      have hlen : (firstComponent path.s).length ≤ path.s.length := by
        rw [firstComponent, List.length_map]
        exact (List.takeWhile_prefix _).length_le
      have hr : (pathRead path flags).1.r = path.r + ((firstComponent path.s).length + 1) :=
        congrArg Place.r hplace
      have hname : (pathRead path flags).1.name.length ≤ n := by
        have hle := length_enter_le path.place (firstComponent path.s)
        rw [← hplace, WinNameidata.place_name, WinNameidata.place_r, hr] at hle
        omega
      rw [pathWalk]
      by_cases hc : (pathRead path flags).2 = 0
      · simp only [hc, if_true]
        exact pathClose_plainFs _ flags hname
      · simp only [hc, if_false]
        rw [pathGlob_plainFs _ winFollow hname]
        have hlt := afterComponent_lt path flags hc
        have hlength := length_split_source (mem_of_char path flags hc)
        rw [firstComponent, List.length_map] at hr
        refine ih _ (zero_not_mem_afterComponent hs) ?_ ?_
        · change (afterComponent path.s).length < m
          omega
        · change (pathRead path flags).1.r + (afterComponent path.s).length + 1 ≤ n
          omega

theorem vfsLookup_plainFs {s : List UInt16} (hs : 0 ∉ s) :
    (vfsLookup (plainFs (path.r + s.length + 1)) path s flags).attribs = 0x20 := by
  rw [vfsLookup]
  split_ifs with hcopy
  · refine pathClose_plainFs _ flags ?_
    have hplace : (pathCopy (pathOpen path s flags)).place = path.place.copy path.r (windowsName s) :=
      (pathOpen path s flags).place_wcpcpy path.r (zero_not_mem_windowsName hs)
    rw [← WinNameidata.place_name, hplace]
    change (splice path.name path.r (windowsName s)).length ≤ _
    rw [splice]
    split_ifs with hle
    · rw [List.length_append, List.length_take, windowsName, List.length_map]
      omega
    · change ¬ path.r ≤ path.name.length at hle
      omega
  · exact pathWalk_plainFs (pathOpen path s flags) flags (s.length + 1) hs (Nat.lt_succ_self _)
      (Nat.le_refl _)

end

/-! ### What the prefixes are -/

theorem flagsOfAt_pathcopy (atflags : UInt32) :
    flagSet (flagsOfAt atflags) winPathcopy = false ∧
      flagSet (flagsOfAt atflags ||| winPathcopy) winPathcopy = true := by
  rw [flagsOfAt]
  split_ifs <;> decide

theorem sourceWin_fits {stale : List UInt16} {start : WinNameidata} {path : List UInt8}
    (h : start.r + (wide path).length + 1 ≤ winPathMax) : sourceWin stale start path = wide path := by
  rw [sourceWin, winMbstowcs, if_pos (by omega)]
  rfl

theorem sourceWin_unfit {stale : List UInt16} {start : WinNameidata} {path : List UInt8}
    (h : ¬ start.r + (wide path).length + 1 ≤ winPathMax) : sourceWin stale start path = stale := by
  rw [sourceWin, winMbstowcs, if_neg (by omega)]
  rfl

theorem objectPath_place {name : List UInt16} (hname : 0 ∉ name) (node : WinVnode)
    (result : WinNameidata) :
    (objectPath name node result).place =
      ⟨globalRoot ++ name, globalRoot.length + name.length⟩ := by
  have hroot := result.place_wcpcpy 0 (w := globalRoot) (by decide)
  have hnamed := (result.wcpcpy 0 globalRoot).place_wcpcpy globalRoot.length hname
  rw [hroot, copy_zero, Place.copy, splice_length] at hnamed
  exact hnamed

/-! ### What a caller may expect -/

/-- A path that starts at the root or on a drive. -/
def Absolute (path : List UInt8) : Prop := path.getD 0 0 = 47 ∨ path.getD 1 0 = 58

instance (path : List UInt8) : Decidable (Absolute path) := inferInstanceAs (Decidable (_ ∨ _))

/-- The path every caller starts from. -/
def startPath : WinNameidata :=
  { WinNameidata.zero with deviceId := devTypeRoot, fsType := .disk }

/-- What an absolute path is looked up from without a descriptor. -/
def absoluteStart (path : List UInt8) : WinNameidata × List UInt8 :=
  if path.getD 0 0 = 47 then rootWin startPath path else driveWin startPath path

section
variable (task : NameiTask) (objects : ObjectNames) (dirfd : Int) (path : List UInt8)
  (atflags : UInt32)

/-- The slots `pathatWin` takes a directory from. -/
def Asked : Prop := 0 < dirfd ∧ dirfd < openMax

def IsOpen : Prop := 0 ≤ dirfd ∧ dirfd < openMax ∧ slotFree task.node dirfd.toNat = false

def IsDirectory : Prop := (task.node dirfd.toNat).fileType = .vdir

def resolved (fs : WinFs) (stale : List UInt16) (dirfd : Int) : WinNameidata :=
  pathatWin fs stale task objects WinNameidata.zero dirfd path atflags

/-- The path is looked up from the root or the drive, whatever the descriptor
is, and whatever was in the buffer. -/
def IgnoresDirfd : Prop :=
  ∀ fs stale stale', (resolved task objects path atflags fs stale dirfd).name =
    (resolved task objects path atflags fs stale' atFdcwd).name

/-- The path is looked up from the object the descriptor is open on. -/
def BelowDirfd : Prop :=
  ∀ fs stale, (resolved task objects path atflags fs stale dirfd).name =
    (vfsLookup fs (objectPath (objects.name (task.node dirfd.toNat).handle)
      (task.node dirfd.toNat) startPath) (wide path) (flagsOfAt atflags)).name

/-- Nothing is found. -/
def Refused : Prop :=
  ∀ fs stale, (resolved task objects path atflags fs stale dirfd).attribs = noAttribs

/-- The descriptor is honoured. -/
structure Honoured : Prop where
  absolute : Absolute path → IgnoresDirfd task objects dirfd path atflags
  below : ¬ Absolute path → IsOpen task dirfd → IsDirectory task dirfd →
    BelowDirfd task objects dirfd path atflags
  refused : ¬ Absolute path → dirfd ≠ atFdcwd → ¬ IsOpen task dirfd →
    Refused task objects dirfd path atflags

/-- A source fits the cells that are left behind a prefix. -/
def Fits (r : Nat) (source : List UInt8) : Prop := r + (wide source).length + 1 ≤ winPathMax

/-- The directory is told, and leaves room for the path. -/
def Told : Prop :=
  Asked dirfd ∧ objects.answers (task.node dirfd.toNat).handle = true ∧
    objects.name (task.node dirfd.toNat).handle ≠ [] ∧
    Fits (globalRoot.length + (objects.name (task.node dirfd.toNat).handle).length) path

/-- The descriptor is not in the way of the path. -/
def Usable : Prop :=
  (Absolute path ∧ ¬ Asked dirfd ∧ Fits (absoluteStart path).1.r (absoluteStart path).2) ∨
    (¬ Absolute path ∧ (dirfd = atFdcwd ∨
      (IsOpen task dirfd ∧ (IsDirectory task dirfd → Told task objects dirfd path))))

/-! ### Prefixes in use -/

variable {task objects dirfd path atflags}

theorem resolved_asked (h : Asked dirfd) (fs : WinFs) (stale : List UInt16) :
    resolved task objects path atflags fs stale dirfd =
      vfsLookup fs (vfsFGetpath objects (task.node dirfd.toNat) startPath)
        (text (sourceWin stale (vfsFGetpath objects (task.node dirfd.toNat) startPath) path))
        (flagsOfAt atflags) := by
  have hasked : 0 < dirfd ∧ dirfd < (openMax : Int) := h
  rw [resolved, pathatWin, prefixWin, if_pos hasked]
  rfl

variable (task objects) in
theorem resolved_absolute (h : ¬ Asked dirfd) (ha : Absolute path) (fs : WinFs)
    (stale : List UInt16) :
    resolved task objects path atflags fs stale dirfd =
      vfsLookup fs (absoluteStart path).1
        (text (sourceWin stale (absoluteStart path).1 (absoluteStart path).2))
        (flagsOfAt atflags) := by
  have hasked : ¬ (0 < dirfd ∧ dirfd < (openMax : Int)) := h
  rw [resolved, pathatWin, prefixWin, if_neg hasked, absoluteStart]
  by_cases hroot : path.getD 0 0 = 47
  · rw [if_pos hroot, if_pos hroot]
    rfl
  · rw [if_neg hroot, if_neg hroot, if_pos (ha.resolve_left hroot)]
    rfl

variable (task objects) in
theorem resolved_copy (h : ¬ Asked dirfd) (ha : ¬ Absolute path) (hcwd : dirfd ≠ atFdcwd)
    (fs : WinFs) (stale : List UInt16) :
    resolved task objects path atflags fs stale dirfd =
      vfsLookup fs startPath (text (sourceWin stale startPath path))
        (flagsOfAt atflags ||| winPathcopy) := by
  obtain ⟨hroot, hdrive⟩ := not_or.mp ha
  have hasked : ¬ (0 < dirfd ∧ dirfd < (openMax : Int)) := h
  rw [resolved, pathatWin, prefixWin, if_neg hasked, if_neg hroot, if_neg hdrive, if_neg hcwd]
  rfl

theorem zero_not_mem_source {path : List UInt8} (hpath : 0 ∉ path) {start : WinNameidata}
    (hfits : Fits start.r path) (stale : List UInt16) :
    text (sourceWin stale start path) = wide path := by
  rw [sourceWin_fits hfits, text_of_not_mem (zero_not_mem_wide hpath)]

/-- If the name that is found does not depend on what was in the buffer, the
source was converted. -/
theorem fits_of_settled {start : WinNameidata} (flags : UInt32) (hstart : start.place.Standing)
    (h : ∀ stale stale',
      (vfsLookup emptyFs start (text (sourceWin stale start path)) flags).name =
        (vfsLookup emptyFs start (text (sourceWin stale' start path)) flags).name) :
    Fits start.r path := by
  by_contra hunfit
  -- without room the buffer is read as it was, and an empty one is told from a letter
  have hname : ∀ s : List UInt16, 0 ∉ s → 47 ∉ s →
      ∃ sep, (vfsLookup emptyFs start s flags).name = start.name ++ sep ++ windowsName s ∧
        (sep = [] ∨ sep = [92]) ∧ (sep = [] ↔ flagSet flags winPathcopy = true) := by
    intro s hs hmem
    cases hcopy : flagSet flags winPathcopy with
    | true =>
        refine ⟨[], ?_, .inl rfl, by simp⟩
        rw [List.append_nil]
        exact vfsLookup_emptyFs_copy start flags hstart hs hcopy
    | false =>
        obtain ⟨x, hx, hcases⟩ := vfsLookup_emptyFs start flags hstart hs hcopy
        refine ⟨[92], ?_, .inr rfl, by simp⟩
        rw [hx, List.append_assoc]
        rcases hcases with rfl | ⟨rfl, _⟩
        · rfl
        · rw [windowsName_of_not_mem hmem]
          rfl
  have hsame := h [] [97]
  rw [sourceWin_unfit hunfit, sourceWin_unfit hunfit] at hsame
  obtain ⟨sep, hsep, _, hcopy⟩ := hname (text []) (by decide) (by decide)
  obtain ⟨sep', hsep', _, hcopy'⟩ := hname (text [97]) (by decide) (by decide)
  have hlen := congrArg List.length (hsep.symm.trans (hsame.trans hsep'))
  have hequal : sep.length = sep'.length := by
    by_cases hnil : sep = []
    · rw [hnil, hcopy'.mpr (hcopy.mp hnil)]
    · have hnil' : sep' ≠ [] := fun hn => hnil (hcopy.mpr (hcopy'.mp hn))
      simp_all
  simp only [List.length_append, hequal] at hlen
  revert hlen
  simp [windowsName, text]

theorem charUnit_ne_zero {b : UInt8} (hb : b ≠ 0) : charUnit b ≠ 0 := by
  have hne : b.toNat ≠ 0 := fun hzero => hb (UInt8.toNat_inj.mp hzero)
  have hlt : b.toNat < 256 := b.toNat_lt
  intro hzero
  have hnat := congrArg UInt16.toNat hzero
  rw [charUnit] at hnat
  split_ifs at hnat
  · exact hne (by simpa using hnat)
  · rw [UInt16.toNat_add, UInt8.toNat_toUInt16] at hnat
    change (b.toNat + 65280) % 65536 = 0 at hnat
    omega

/-- A drive is the letter in front of the colon. -/
theorem place_driveWin (hpath : 0 ∉ path) (hdrive : path.getD 1 0 = 58) :
    (driveWin startPath path).1.place = ⟨[charUnit (path.getD 0 0), 58], 2⟩ := by
  have hne : path.getD 0 0 ≠ 0 := by
    cases path with
    | nil => exact absurd hdrive (by decide)
    | cons b rest =>
        rintro hzero
        exact hpath (hzero ▸ List.mem_cons_self)
  have hcell := charUnit_ne_zero hne
  refine congrArg₂ Place.mk ?_ rfl
  change text (poke [] 0 [charUnit (path.getD 0 0), 58]) = _
  generalize charUnit (path.getD 0 0) = c at *
  rw [poke, front]
  simp [text, hcell]

theorem absoluteStart_cases (hpath : 0 ∉ path) (ha : Absolute path) :
    (∃ q, path = [47, 112, 114, 111, 99, 47] ++ q ∧
      (absoluteStart path).1.place = ⟨processRoot, processRoot.length⟩ ∧
        (absoluteStart path).2 = q) ∨
    (absoluteStart path).1.place = ⟨[46], 1⟩ ∨
    ∃ c, (absoluteStart path).1.place = ⟨[c, 58], 2⟩ := by
  rw [absoluteStart]
  by_cases hroot : path.getD 0 0 = 47
  · rw [if_pos hroot, rootWin]
    split_ifs with hproc
    · left
      refine ⟨path.drop 6, ?_, ?_, rfl⟩
      · rw [← hproc, List.take_append_drop]
      · rw [startPath.place_wcpcpy 0 (w := processRoot) (by decide), copy_zero]
    · right
      left
      rw [startPath.place_wcpcpy 0 (w := [46]) (by decide), copy_zero]
      rfl
  · right
    right
    rw [if_neg hroot]
    have hdrive := ha.resolve_left hroot
    exact ⟨_, place_driveWin hpath hdrive⟩

variable (objects) in
theorem vfsFGetpath_cases (node : WinVnode) :
    (vfsFGetpath objects node startPath = startPath ∧
      ¬(objects.answers node.handle = true ∧ objects.name node.handle ≠ [])) ∨
    (vfsFGetpath objects node startPath = objectPath (objects.name node.handle) node startPath ∧
      objects.answers node.handle = true ∧ objects.name node.handle ≠ []) := by
  rw [vfsFGetpath]
  split_ifs with h
  · exact .inr ⟨rfl, h.1, h.2⟩
  · exact .inl ⟨rfl, h⟩

theorem object_standing (objects : ObjectNames) (node : WinVnode) :
    (objectPath (objects.name node.handle) node startPath).place.Standing := by
  rw [objectPath_place (objects.zero_not_mem_name _), Place.Standing, List.length_append]

variable (objects) in
theorem vfsFGetpath_standing (node : WinVnode) :
    (vfsFGetpath objects node startPath).place.Standing := by
  rcases vfsFGetpath_cases objects node with ⟨h, _⟩ | ⟨h, _⟩
  · rw [h]
    rfl
  · rw [h]
    exact object_standing objects node

/-- A name that was looked up from a descriptor is not one that was looked up
from the root or a drive. -/
theorem asked_ne_absolute (hpath : 0 ∉ path) (ha : Absolute path) (node : WinVnode)
    {x y : List UInt16}
    (hx : x = windowsName (wide path) ∨
      (x = firstComponent (wide path) ∧ afterComponent (wide path) = []))
    (hy : y = windowsName (wide (absoluteStart path).2) ∨
      (y = firstComponent (wide (absoluteStart path).2) ∧
        afterComponent (wide (absoluteStart path).2) = [])) :
    (vfsFGetpath objects node startPath).name ++ 92 :: x ≠
      (absoluteStart path).1.name ++ 92 :: y := by
  intro hsame
  have hfrom : (vfsFGetpath objects node startPath).name = [] ∨
      (vfsFGetpath objects node startPath).name = globalRoot ++ objects.name node.handle := by
    rcases vfsFGetpath_cases objects node with ⟨h, _⟩ | ⟨h, _⟩
    · rw [h]
      exact .inl rfl
    · rw [h, ← WinNameidata.place_name, objectPath_place (objects.zero_not_mem_name _)]
      exact .inr rfl
  -- an absolute path is looked up from the root of processes, the dot or a drive
  rcases absoluteStart_cases hpath ha with ⟨q, hq, hplace, hrest⟩ | hplace | ⟨c, hplace⟩
  · have hname := congrArg Place.name hplace
    rw [WinNameidata.place_name] at hname
    have hwide : wide path = [47, 112, 114, 111, 99, 47] ++ wide q := by
      rw [hq]
      simp only [List.cons_append, List.nil_append]
      iterate 6 rw [wide_cons (by decide)]
      rfl
    rcases hfrom with hfrom | hfrom
    · rw [hfrom, hname] at hsame
      rcases hx with rfl | ⟨rfl, _⟩
      · rw [hwide] at hsame
        revert hsame
        simp [processRoot, globalRoot, windowsName, backslash, underscore, replace]
      · rw [hwide] at hsame
        revert hsame
        simp [processRoot, globalRoot, firstComponent]
    -- the lengths differ
    · have hlen := congrArg List.length hsame
      have hxlen := (appended_length hx).2
      have hylen := (appended_length hy).1
      rw [hwide] at hxlen
      rw [hrest] at hylen
      rw [hfrom, hname, processRoot] at hlen
      simp only [List.length_append, List.length_cons, List.length_nil] at hlen hxlen
      omega
  · have hname := congrArg Place.name hplace
    rw [WinNameidata.place_name] at hname
    rw [hname] at hsame
    rcases hfrom with hfrom | hfrom
    · rw [hfrom] at hsame
      exact absurd (List.cons.inj hsame).1 (by decide)
    · rw [hfrom] at hsame
      exact absurd (List.cons.inj hsame).1 (by decide)
  · have hname := congrArg Place.name hplace
    rw [WinNameidata.place_name] at hname
    rw [hname] at hsame
    rcases hfrom with hfrom | hfrom
    · rw [hfrom] at hsame
      have hcolon := (List.cons.inj hsame).2
      -- the colon of a drive is in no name
      refine colon_not_mem_appended hx ?_
      rw [hcolon]
      exact List.mem_cons_self
    · rw [hfrom] at hsame
      have hsecond := (List.cons.inj hsame).2
      exact absurd (List.cons.inj hsecond).1 (by decide)

theorem absoluteStart_standing (hpath : 0 ∉ path) (ha : Absolute path) :
    (absoluteStart path).1.place.Standing := by
  rcases absoluteStart_cases hpath ha with ⟨_, _, h, _⟩ | h | ⟨c, h⟩
  · rw [h]
    rfl
  · rw [h]
    rfl
  · rw [h]
    rfl

theorem zero_not_mem_rest (hpath : 0 ∉ path) : 0 ∉ (absoluteStart path).2 := by
  intro h
  refine hpath ?_
  rw [absoluteStart, rootWin, driveWin] at h
  split_ifs at h
  · exact List.mem_of_mem_drop h
  · exact List.mem_of_mem_drop h
  · exact List.mem_of_mem_drop (List.mem_of_mem_drop h)

theorem not_asked_fdcwd : ¬ Asked atFdcwd := by
  rintro ⟨h, _⟩
  exact absurd h (by decide)

/-! ### The descriptor is honoured -/

theorem usable_of_ignores (hpath : 0 ∉ path) (ha : Absolute path)
    (h : IgnoresDirfd task objects dirfd path atflags) :
    ¬ Asked dirfd ∧ Fits (absoluteStart path).1.r (absoluteStart path).2 := by
  have hcopy := (flagsOfAt_pathcopy atflags).1
  have hrest := zero_not_mem_rest hpath
  have hstand := absoluteStart_standing hpath ha
  have hfits : Fits (absoluteStart path).1.r (absoluteStart path).2 := by
    refine fits_of_settled (flagsOfAt atflags) hstand fun stale stale' => ?_
    rw [← resolved_absolute task objects not_asked_fdcwd ha,
      ← resolved_absolute task objects not_asked_fdcwd ha,
      ← h emptyFs [] stale, ← h emptyFs [] stale']
  refine ⟨fun hasked => ?_, hfits⟩
  have hfrom := vfsFGetpath_standing objects (task.node dirfd.toNat)
  have hfits' : Fits (vfsFGetpath objects (task.node dirfd.toNat) startPath).r path := by
    refine fits_of_settled (flagsOfAt atflags) hfrom fun stale stale' => ?_
    rw [← resolved_asked hasked, ← resolved_asked hasked, h emptyFs stale [],
      h emptyFs stale' []]
  have hsame := h emptyFs [] []
  rw [resolved_asked hasked, resolved_absolute task objects not_asked_fdcwd ha,
    zero_not_mem_source hpath hfits', zero_not_mem_source hrest hfits] at hsame
  obtain ⟨x, hname, hx⟩ := vfsLookup_emptyFs _ _ hfrom (zero_not_mem_wide hpath) hcopy
  obtain ⟨y, hname', hy⟩ := vfsLookup_emptyFs _ _ hstand (zero_not_mem_wide hrest) hcopy
  rw [hname, hname'] at hsame
  exact asked_ne_absolute hpath ha _ hx hy hsame

/-- What is looked up below an object is longer than the root of objects and the path. -/
theorem length_below_object (objects : ObjectNames) (hpath : 0 ∉ path) (node : WinVnode)
    (atflags : UInt32) :
    14 + (wide path).length ≤ (vfsLookup emptyFs (objectPath (objects.name node.handle) node
      startPath) (wide path) (flagsOfAt atflags)).name.length := by
  have hplace := objectPath_place (objects.zero_not_mem_name node.handle) node startPath
  have hlong := congrArg (fun p => p.name.length) hplace
  simp only [WinNameidata.place_name, List.length_append] at hlong
  obtain ⟨x, hname, hx⟩ := vfsLookup_emptyFs _ (flagsOfAt atflags) (object_standing objects node)
    (zero_not_mem_wide hpath) (flagsOfAt_pathcopy atflags).1
  have hxlen := (appended_length hx).2
  rw [hname, List.length_append, List.length_cons, hlong]
  change _ ≤ 14 + _ + _
  omega

/-- A descriptor that is not asked gives the path as it is, which is too short for what is
below an object. -/
theorem asked_of_below (hpath : 0 ∉ path) (ha : ¬ Absolute path) (hopen : IsOpen task dirfd)
    (h : BelowDirfd task objects dirfd path atflags) : Asked dirfd := by
  by_contra hasked
  have hcwd : dirfd ≠ atFdcwd := by
    rintro rfl
    exact absurd hopen.1 (by decide)
  have hfits : Fits startPath.r path := by
    refine fits_of_settled (flagsOfAt atflags ||| winPathcopy) rfl fun stale stale' => ?_
    rw [← resolved_copy task objects hasked ha hcwd, ← resolved_copy task objects hasked ha hcwd,
      h emptyFs stale, h emptyFs stale']
  have hsame := h emptyFs []
  rw [resolved_copy task objects hasked ha hcwd, zero_not_mem_source hpath hfits,
    vfsLookup_emptyFs_copy startPath _ rfl (zero_not_mem_wide hpath)
      (flagsOfAt_pathcopy atflags).2] at hsame
  have hlong := length_below_object objects hpath (task.node dirfd.toNat) atflags
  rw [← hsame, List.length_append, windowsName, List.length_map] at hlong
  change _ ≤ 0 + _ at hlong
  omega

theorem told_of_below (hpath : 0 ∉ path) (ha : ¬ Absolute path) (hopen : IsOpen task dirfd)
    (h : BelowDirfd task objects dirfd path atflags) : Told task objects dirfd path := by
  have hasked := asked_of_below hpath ha hopen h
  have hfits : Fits (vfsFGetpath objects (task.node dirfd.toNat) startPath).r path := by
    refine fits_of_settled (flagsOfAt atflags)
      (vfsFGetpath_standing objects (task.node dirfd.toNat)) fun stale stale' => ?_
    rw [← resolved_asked hasked, ← resolved_asked hasked, h emptyFs stale, h emptyFs stale']
  rcases vfsFGetpath_cases objects (task.node dirfd.toNat) with
    ⟨hstart, _⟩ | ⟨hstart, hanswers, hnonempty⟩
  · -- an object that does not answer leaves the lookup to start from nothing
    have hsame := h emptyFs []
    rw [resolved_asked hasked, zero_not_mem_source hpath hfits, hstart] at hsame
    obtain ⟨y, hname, hy⟩ := vfsLookup_emptyFs startPath (flagsOfAt atflags) rfl
      (zero_not_mem_wide hpath) (flagsOfAt_pathcopy atflags).1
    have hylen := (appended_length hy).1
    have hlong := length_below_object objects hpath (task.node dirfd.toNat) atflags
    rw [← hsame, hname, List.length_append, List.length_cons] at hlong
    change _ ≤ 0 + _ at hlong
    omega
  · refine ⟨hasked, hanswers, hnonempty, ?_⟩
    have hplace := objectPath_place (objects.zero_not_mem_name (task.node dirfd.toNat).handle)
      (task.node dirfd.toNat) startPath
    rw [hstart, show (objectPath _ _ startPath).r = _ from congrArg Place.r hplace] at hfits
    exact hfits

theorem not_refused (ha : ¬ Absolute path) (hcwd : dirfd ≠ atFdcwd) :
    ¬ Refused task objects dirfd path atflags := by
  intro h
  by_cases hasked : Asked dirfd
  · have hfound := vfsLookup_plainFs (vfsFGetpath objects (task.node dirfd.toNat) startPath)
      (flagsOfAt atflags) (zero_not_mem_text (sourceWin []
        (vfsFGetpath objects (task.node dirfd.toNat) startPath) path))
    rw [← resolved_asked hasked, h] at hfound
    exact absurd hfound (by decide)
  · have hfound := vfsLookup_plainFs startPath (flagsOfAt atflags ||| winPathcopy)
      (zero_not_mem_text (sourceWin [] startPath path))
    rw [← resolved_copy task objects hasked ha hcwd, h] at hfound
    exact absurd hfound (by decide)

/-- A descriptor is honoured if and only if the path is absolute, the
descriptor is not one that is asked for its directory and the path fits behind
its root; or the path is relative and the descriptor is the current directory,
or an open one that, if it is a directory, is told by Windows and leaves room
for the path. -/
theorem honoured_iff (hpath : 0 ∉ path) :
    Honoured task objects dirfd path atflags ↔ Usable task objects dirfd path := by
  constructor
  · intro h
    by_cases ha : Absolute path
    · exact .inl ⟨ha, usable_of_ignores hpath ha (h.absolute ha)⟩
    · refine .inr ⟨ha, ?_⟩
      by_cases hcwd : dirfd = atFdcwd
      · exact .inl hcwd
      · right
        have hopen : IsOpen task dirfd := by
          by_contra hclosed
          exact not_refused ha hcwd (h.refused ha hcwd hclosed)
        exact ⟨hopen, fun hdir => told_of_below hpath ha hopen (h.below ha hopen hdir)⟩
  · rintro (⟨ha, hasked, hfits⟩ | ⟨ha, hcases⟩)
    · refine ⟨fun _ fs stale stale' => ?_, fun hrel => absurd ha hrel, fun hrel => absurd ha hrel⟩
      have hrest := zero_not_mem_rest hpath
      rw [resolved_absolute task objects hasked ha, resolved_absolute task objects not_asked_fdcwd ha,
        zero_not_mem_source hrest hfits, zero_not_mem_source hrest hfits]
    · refine ⟨fun habs => absurd habs ha, fun _ hopen hdir fs stale => ?_,
        fun _ hcwd hclosed => ?_⟩
      · rcases hcases with rfl | ⟨_, htold⟩
        · exact absurd hopen.1 (by decide)
        · obtain ⟨hasked, hanswers, hnonempty, hfits⟩ := htold hdir
          -- the lookup starts at the name of the object, with room for the path behind it
          have hstart : vfsFGetpath objects (task.node dirfd.toNat) startPath =
              objectPath (objects.name (task.node dirfd.toNat).handle) (task.node dirfd.toNat)
                startPath := if_pos ⟨hanswers, hnonempty⟩
          have hplace := objectPath_place
            (objects.zero_not_mem_name (task.node dirfd.toNat).handle) (task.node dirfd.toNat)
            startPath
          have hr : (objectPath (objects.name (task.node dirfd.toNat).handle)
              (task.node dirfd.toNat) startPath).r = _ := congrArg Place.r hplace
          rw [resolved_asked hasked, hstart, zero_not_mem_source hpath (by rw [hr]; exact hfits)]
      · rcases hcases with hcwd' | ⟨hopen, _⟩
        · exact absurd hcwd' hcwd
        · exact absurd hopen hclosed

end

/-! ### An absolute path below a descriptor -/

/-- A task with a directory `d` of a volume `v` open as descriptor 3. -/
def dirTask : NameiTask where
  node fd := if fd = 3 then { WinVnode.zero with fileType := .vdir, access := 1, handle := 4 }
    else WinVnode.zero
  mountId := 3
  path := [99, 58]
  zero_not_mem_path := by decide

def dirNames : ObjectNames where
  name handle := if handle = 4 then [92, 118, 92, 100] else []
  answers handle := handle = 4
  zero_not_mem_name handle := by
    split_ifs <;> decide

theorem honoured_iff_dirTask :
    Honoured dirTask dirNames 3 [97] 0 ↔ Usable dirTask dirNames 3 [97] :=
  honoured_iff (by decide)

/-- `/a` is looked up below the directory. -/
theorem absolute_below_dirfd : ¬ Honoured dirTask dirNames 3 [47, 97] 0 := by
  intro h
  have hname := h.absolute (.inl rfl) emptyFs [] []
  revert hname
  decide

end MinC.Sys
