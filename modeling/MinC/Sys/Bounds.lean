import MinC.Sys.Namei
import MinC.Vfs.Lengths

/-!
Bounds of a resolution.

The cells that are left for the source are counted once, behind the prefix, and
the separators, the links and the drives that come in later are not. So the
lengths of the prefix and of the source have to leave room for these, and where
nothing leads away they have to leave room for a name with an extension.
-/

namespace MinC.Sys

open MinC.Lib MinC.Win MinC.Vfs

section
variable (fs : WinFs) (task : NameiTask) (objects : ObjectNames) (dirfd : Int)
  (path : List UInt8) (atflags : UInt32)

/-- The source was converted, so that what is read of it was written. -/
def Filled : Prop :=
  let start := prefixWin task objects startPath dirfd path (flagsOfAt atflags)
  winMbstowcs start.2.1 ((winPathMax : Int) - start.1.r) ≠ none

/-- Nothing is written outside of a buffer, and nothing is read that was not
filled. -/
structure Bounded (stale : List UInt16) : Prop where
  safe : (resolved task objects path atflags fs stale dirfd).Safe
  filled : Filled task objects dirfd path atflags

/-- The name of the directory of a descriptor. -/
def objectName : List UInt16 :=
  let handle := (task.node dirfd.toNat).handle
  if objects.answers handle then objects.name handle else []

/-- A path that is looked up from the current directory. -/
def FromCwd : Prop := ¬ Asked dirfd ∧ ¬ Absolute path ∧ dirfd = atFdcwd

/-- The place a path is looked up from, what is left of the path, and the
flags. -/
def lookedUpFrom : Place × List UInt8 × UInt32 :=
  let flags := flagsOfAt atflags
  if 0 < dirfd ∧ dirfd < openMax then
    if objectName task objects dirfd = [] then (⟨[], 0⟩, path, flags)
    else (⟨globalRoot ++ objectName task objects dirfd,
      globalRoot.length + (objectName task objects dirfd).length⟩, path, flags)
  else if path.getD 0 0 = 47 then
    if path.take 6 = [47, 112, 114, 111, 99, 47] then
      (⟨processRoot, processRoot.length⟩, path.drop 6, flags)
    else (⟨[46], 1⟩, path.drop 1, flags)
  else if path.getD 1 0 = 58 then (⟨[charUnit (path.getD 0 0), 58], 2⟩, (path.drop 2).drop 1, flags)
  else if dirfd = atFdcwd then (⟨task.path, task.path.length⟩, path, flags)
  else (⟨[], 0⟩, path, flags ||| winPathcopy)

/-- Every write has room: that of the directory, of the source, and those along
the lookup. -/
structure Roomy : Prop where
  directory : Asked dirfd → objectName task objects dirfd ≠ [] →
    RoomFor globalRoot.length (objectName task objects dirfd)
  cwd : FromCwd dirfd path → RoomFor 0 task.path
  source : Fits (lookedUpFrom task objects dirfd path atflags).1.r
    (lookedUpFrom task objects dirfd path atflags).2.1
  lookup : LookupFits fs (lookedUpFrom task objects dirfd path atflags).2.2
    (lookedUpFrom task objects dirfd path atflags).1
    (wide (lookedUpFrom task objects dirfd path atflags).2.1)

end

section
variable {fs : WinFs} {task : NameiTask} {objects : ObjectNames} {dirfd : Int}
  {path : List UInt8} {atflags : UInt32}

/-! ### Prefixes -/

/-- What a prefix leaves: a place, and a buffer that is safe if the prefix has
room. -/
structure Leaves (start : WinNameidata) (p : Place) (room : Prop) : Prop where
  place : start.place = p
  safe : start.Safe ↔ room

theorem startPath_leaves : Leaves startPath ⟨[], 0⟩ True :=
  ⟨rfl, iff_true_intro ⟨Nat.zero_le _, rfl⟩⟩

theorem wcpcpy_leaves {w : List UInt16} (hw : 0 ∉ w) :
    Leaves (startPath.wcpcpy 0 w) ⟨w, w.length⟩ (RoomFor 0 w) where
  place := by rw [startPath.place_wcpcpy 0 hw, copy_zero]
  safe := by rw [safe_wcpcpy, startPath_leaves.safe, true_and]

theorem object_leaves (name : List UInt16) (hname : 0 ∉ name) (node : WinVnode) :
    Leaves (objectPath name node startPath) ⟨globalRoot ++ name, globalRoot.length + name.length⟩
      (RoomFor globalRoot.length name) where
  place := objectPath_place hname node startPath
  safe := by
    have hroot : RoomFor 0 globalRoot := show 15 ≤ winPathMax by decide
    change ((startPath.wcpcpy 0 globalRoot).wcpcpy globalRoot.length name).Safe ↔ _
    rw [safe_wcpcpy, safe_wcpcpy, startPath_leaves.safe, true_and]
    exact and_iff_right hroot

theorem drive_leaves (hpath : 0 ∉ path) (hdrive : path.getD 1 0 = 58) :
    Leaves (driveWin startPath path).1 ⟨[charUnit (path.getD 0 0), 58], 2⟩ True where
  place := place_driveWin hpath hdrive
  safe := by
    change (startPath.write startPath.r [charUnit (path.getD 0 0), 58]).Safe ↔ _
    rw [safe_write, startPath_leaves.safe, true_and]
    exact iff_true_intro (show 2 ≤ winPathMax by decide)

variable (task objects path atflags) in
/-- A descriptor is asked for its directory, and Windows may not tell its name. -/
theorem asked_leaves (hasked : Asked dirfd) :
    ∃ start, prefixWin task objects startPath dirfd path (flagsOfAt atflags) =
        (start, (lookedUpFrom task objects dirfd path atflags).2) ∧
      Leaves start (lookedUpFrom task objects dirfd path atflags).1
        (objectName task objects dirfd ≠ [] →
          RoomFor globalRoot.length (objectName task objects dirfd)) := by
  have hin : 0 < dirfd ∧ dirfd < (openMax : Int) := hasked
  rw [prefixWin, lookedUpFrom, if_pos hin, if_pos hin, vfsFGetpath, objectName]
  by_cases hanswers : objects.answers (task.node dirfd.toNat).handle = true
  · simp only [hanswers, if_true, true_and]
    by_cases hname : objects.name (task.node dirfd.toNat).handle = []
    · refine ⟨startPath, ?_, ?_⟩
      · simp only [hname, ne_eq, not_true_eq_false, if_false, if_true]
        rfl
      · simp only [hname, ne_eq, not_true_eq_false, false_implies, if_true]
        exact startPath_leaves
    · refine ⟨objectPath (objects.name (task.node dirfd.toNat).handle)
        (task.node dirfd.toNat) startPath, ?_, ?_⟩
      · simp only [hname, ne_eq, not_false_eq_true, if_false, if_true]
        rfl
      · simp only [hname, ne_eq, not_false_eq_true, true_implies, if_false]
        exact object_leaves _ (objects.zero_not_mem_name _) _
  · refine ⟨startPath, ?_, ?_⟩
    · simp only [hanswers, Bool.false_eq_true, if_false, if_true, false_and]
      rfl
    · simp only [hanswers, Bool.false_eq_true, if_false, ne_eq, not_true_eq_false,
        false_implies, if_true]
      exact startPath_leaves

variable (task objects dirfd atflags) in
/-- The prefix of a path, by the place it leaves. -/
theorem prefixWin_leaves (hpath : 0 ∉ path) :
    ∃ start, prefixWin task objects startPath dirfd path (flagsOfAt atflags) =
        (start, (lookedUpFrom task objects dirfd path atflags).2) ∧
      Leaves start (lookedUpFrom task objects dirfd path atflags).1
        ((Asked dirfd → objectName task objects dirfd ≠ [] →
            RoomFor globalRoot.length (objectName task objects dirfd)) ∧
          (FromCwd dirfd path → RoomFor 0 task.path)) := by
  by_cases hasked : Asked dirfd
  · have hnocwd : ¬ FromCwd dirfd path := fun h => h.1 hasked
    simp only [hasked, hnocwd, true_implies, false_implies, and_true]
    exact asked_leaves task objects path atflags hasked
  · -- the root, a drive, the current directory, or nothing
    have hout : ¬(0 < dirfd ∧ dirfd < (openMax : Int)) := hasked
    rw [prefixWin, lookedUpFrom, if_neg hout, if_neg hout]
    simp only [hasked, false_implies, true_and]
    by_cases hroot : path.getD 0 0 = 47
    · have hnocwd : ¬ FromCwd dirfd path := fun h => h.2.1 (.inl hroot)
      rw [if_pos hroot, if_pos hroot]
      simp only [hnocwd, false_implies]
      rw [rootWin]
      split_ifs with hproc
      · refine ⟨startPath.wcpcpy 0 processRoot, rfl, ?_⟩
        have hleaves := wcpcpy_leaves (w := processRoot) (by decide)
        exact ⟨hleaves.place, hleaves.safe.trans (iff_true_intro (show 16 ≤ winPathMax by decide))⟩
      · refine ⟨startPath.wcpcpy 0 [46], rfl, ?_⟩
        have hleaves := wcpcpy_leaves (w := [46]) (by decide)
        exact ⟨hleaves.place, hleaves.safe.trans (iff_true_intro (show 2 ≤ winPathMax by decide))⟩
    · rw [if_neg hroot, if_neg hroot]
      by_cases hdrive : path.getD 1 0 = 58
      · have hnocwd : ¬ FromCwd dirfd path := fun h => h.2.1 (.inr hdrive)
        rw [if_pos hdrive, if_pos hdrive]
        simp only [hnocwd, false_implies]
        exact ⟨(driveWin startPath path).1, rfl, drive_leaves hpath hdrive⟩
      · rw [if_neg hdrive, if_neg hdrive]
        by_cases hcwd : dirfd = atFdcwd
        · have hfrom : FromCwd dirfd path := ⟨hasked, not_or.mpr ⟨hroot, hdrive⟩, hcwd⟩
          rw [if_pos hcwd, if_pos hcwd]
          simp only [hfrom, true_implies]
          have hleaves := wcpcpy_leaves task.zero_not_mem_path
          exact ⟨{ startPath.wcpcpy 0 task.path with mountId := task.mountId }, rfl,
            hleaves.place, hleaves.safe⟩
        · have hnocwd : ¬ FromCwd dirfd path := fun h => hcwd h.2.2
          rw [if_neg hcwd, if_neg hcwd]
          simp only [hnocwd, false_implies]
          exact ⟨startPath, rfl, startPath_leaves⟩

variable (task objects dirfd path atflags) in
theorem lookedUpFrom_rest :
    ∃ n, (lookedUpFrom task objects dirfd path atflags).2.1 = path.drop n := by
  rw [lookedUpFrom]
  split_ifs
  · exact ⟨0, rfl⟩
  · exact ⟨0, rfl⟩
  · exact ⟨6, rfl⟩
  · exact ⟨1, rfl⟩
  · exact ⟨3, List.drop_drop⟩
  · exact ⟨0, rfl⟩
  · exact ⟨0, rfl⟩

variable (fs task objects dirfd atflags) in
/-- The obligations of a resolution, in the order its writes are made. -/
theorem bounded_steps (hpath : 0 ∉ path) (stale : List UInt16) :
    ∃ start, Leaves start (lookedUpFrom task objects dirfd path atflags).1
        ((Asked dirfd → objectName task objects dirfd ≠ [] →
            RoomFor globalRoot.length (objectName task objects dirfd)) ∧
          (FromCwd dirfd path → RoomFor 0 task.path)) ∧
      (Filled task objects dirfd path atflags ↔
        Fits start.r (lookedUpFrom task objects dirfd path atflags).2.1) ∧
      (Fits start.r (lookedUpFrom task objects dirfd path atflags).2.1 →
        ((resolved task objects path atflags fs stale dirfd).Safe ↔
          start.Safe ∧ LookupFits fs (lookedUpFrom task objects dirfd path atflags).2.2
            (lookedUpFrom task objects dirfd path atflags).1
            (wide (lookedUpFrom task objects dirfd path atflags).2.1))) := by
  obtain ⟨start, hstart, hleaves⟩ := prefixWin_leaves task objects dirfd atflags hpath
  refine ⟨start, hleaves, ?_, fun hfits => ?_⟩
  · rw [Filled, hstart, ne_eq, winMbstowcs_eq_none_iff, Fits]
    simp only
    omega
  · have hrest : 0 ∉ (lookedUpFrom task objects dirfd path atflags).2.1 := by
      obtain ⟨n, hn⟩ := lookedUpFrom_rest task objects dirfd path atflags
      rw [hn]
      exact fun h => hpath (List.mem_of_mem_drop h)
    -- the path has room behind the prefix, so that it is looked up as it was given
    have hresolved : resolved task objects path atflags fs stale dirfd =
        vfsLookup fs start
          (text (sourceWin stale start (lookedUpFrom task objects dirfd path atflags).2.1))
          (lookedUpFrom task objects dirfd path atflags).2.2 := by
      have hprefix : prefixWin task objects WinNameidata.zero dirfd path (flagsOfAt atflags) =
          (start, (lookedUpFrom task objects dirfd path atflags).2) := hstart
      rw [resolved, pathatWin, hprefix]
    rw [hresolved, zero_not_mem_source hrest hfits,
      safe_vfsLookup fs start _ (zero_not_mem_wide hrest), hleaves.place]

theorem Roomy.bounded (hpath : 0 ∉ path) (h : Roomy fs task objects dirfd path atflags)
    (stale : List UInt16) : Bounded fs task objects dirfd path atflags stale := by
  obtain ⟨start, hleaves, hfilled, hsafe⟩ := bounded_steps fs task objects dirfd atflags
    hpath stale
  have hr : start.r = (lookedUpFrom task objects dirfd path atflags).1.r :=
    congrArg Place.r hleaves.place
  have hfits := h.source
  rw [← hr] at hfits
  exact ⟨(hsafe hfits).mpr ⟨hleaves.safe.mpr ⟨h.directory, h.cwd⟩, h.lookup⟩, hfilled.mpr hfits⟩

/-! ### Lengths -/

end

/-! ### A component that fills the buffer -/

end MinC.Sys
