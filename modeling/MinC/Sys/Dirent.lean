import MinC.Sys.Namei
import MinC.Vfs.Listing

/-!
Reading directories.

How far a directory was read is kept in the descriptor: the handle of the search
and an index. They are copied into the path before a call, and back after one
that has not failed. So a sequence of calls goes on with one search, and what
they return, put together, are records of the entries in their order.
-/

namespace MinC.Sys

open MinC.Lib MinC.Win MinC.Vfs

/-- A task with the searches of its process. -/
structure DirTask where
  task : NameiTask
  finds : Finds

/-- What a call returns, with the buffer and the task that it leaves. -/
structure GetdentsCall where
  result : Except Nat UInt32
  buffer : List UInt8
  task : DirTask

/-- A buffer, whether a search can be closed at the end, and what is left on the stack. -/
structure DirRequest where
  buffer : List UInt8
  closes : Bool
  stale : List UInt16

/-- `"*.*"`. -/
def allNames : List UInt8 := [42, 46, 42]

section
variable (fs : WinFs) (dir : List UInt16 → List Found) (objects : ObjectNames)

/-- The path of a descriptor with what is copied from the vnode. -/
def dirStream (s : DirTask) (fd : Int) (stale : List UInt16) : DirStream where
  path := pathatWin fs stale s.task objects WinNameidata.zero fd allNames atSymlinkNofollow
  index :=
    if (0 < fd ∧ fd < openMax) ∧ objects.answers (s.task.node fd.toNat).handle = true ∧
      objects.name (s.task.node fd.toNat).handle ≠ [] then (s.task.node fd.toNat).index else 0
  finds := s.finds

def NameiTask.update (task : NameiTask) (fd : Nat) (node : WinVnode) : NameiTask :=
  { task with node := Function.update task.node fd node }

/-- A call without a buffer has none. -/
def sysGetdents (s : DirTask) (fd : Int) (buf : Option (List UInt8)) (closes : Bool)
    (stale : List UInt16) : GetdentsCall :=
  if !inRange fd then ⟨.error ebadf, buf.getD [], s⟩
  else match buf with
  | none => ⟨.error efault, [], s⟩
  | some buffer =>
      let got := vfsGetdents ⟨fs, dir, closes⟩ buffer (dirStream fs objects s fd stale)
      match got.error with
      | some e => ⟨.error (errnoPosix e), got.buffer, { s with finds := got.stream.finds }⟩
      | none => ⟨.ok got.result, got.buffer,
          ⟨s.task.update fd.toNat { s.task.node fd.toNat with
            object := got.stream.path.object
            index := got.stream.index }, got.stream.finds⟩⟩

/-- The calls that are made one after the other. -/
def getdentsRun (fd : Int) : DirTask → List DirRequest → List GetdentsCall
  | _, [] => []
  | s, rq :: rqs =>
      let call := sysGetdents fs dir objects s fd (some rq.buffer) rq.closes rq.stale
      call :: getdentsRun fd call.task rqs

end

/-- What a call has returned. -/
def GetdentsCall.bytes (call : GetdentsCall) : List UInt8 :=
  match call.result with
  | .ok n => call.buffer.take n.toNat
  | .error _ => []

/-! ### Names with a star -/

section
variable {fs : WinFs} {path : WinNameidata}

/-- Windows has no attributes for a name with a star. -/
def NoStars (fs : WinFs) : Prop := ∀ name, 42 ∈ name → fs.attributes name = noAttribs

variable (path) in
theorem shGlobType_star (h : NoStars fs) (typeName : List UInt16) (htype : 0 ∉ typeName)
    (hstand : path.place.Standing) (hstar : 42 ∈ path.name) :
    ∃ probed : WinNameidata, shGlobType fs typeName path = (probed, false) ∧
      probed.place = path.place ∧ probed.object = path.object ∧ probed.fsType = path.fsType ∧
      probed.base = path.base := by
  have hplace := extend_write path htype
  have hname : (path.write path.r (typeName ++ [0])).name = path.name ++ typeName := by
    have := congrArg Place.name hplace
    rwa [hstand.extend] at this
  have hundone := extend_write (path.write path.r (typeName ++ [0])) (List.not_mem_nil (a := 0))
  rw [hplace, extend_extend] at hundone
  refine ⟨(path.write path.r (typeName ++ [0])).write path.r [0], ?_, ?_, rfl, rfl, rfl⟩
  · rw [shGlobType, if_pos]
    rw [hname]
    exact h _ (List.mem_append_left _ hstar)
  · exact hundone.trans (by rw [hstand.extend, List.append_nil])

/-- The last component stays as it is if it has a star. -/
theorem pathClose_star (h : NoStars fs) (flags : UInt32) (hstand : path.place.Standing)
    (hstar : 42 ∈ path.name) :
    (pathClose fs path flags).place = path.place ∧
      (pathClose fs path flags).object = path.object ∧
      (pathClose fs path flags).fsType = path.fsType ∧
      (pathClose fs path flags).base = path.base := by
  obtain ⟨probed, hprobed, hplace, hobject, hfsType, hbase⟩ :=
    shGlobType_star { path with attribs := noAttribs } h exeType (by decide) hstand hstar
  obtain ⟨linked, hlinked, hplace', hobject', hfsType', hbase'⟩ :=
    shGlobType_star probed h lnkType (by decide) (by rw [hplace]; exact hstand)
      (by rw [← WinNameidata.place_name, hplace]; exact hstar)
  have hkind : pathKind fs path flags = linked := by
    rw [pathKind, pathGlob_none fs path (h _ hstar)]
    simp only [hprobed, shGlobLink, hlinked]
  rw [pathClose, hkind]
  exact ⟨hplace'.trans hplace, hobject'.trans hobject, hfsType'.trans hfsType, hbase'.trans hbase⟩

end

/-! ### The path of a directory -/

section
variable {fs : WinFs} {dir : List UInt16 → List Found} {objects : ObjectNames} {s : DirTask}
  {fd : Int}

/-- The name of the directory that a handle is open on, with a separator. -/
def directoryName (objects : ObjectNames) (handle : Nat) : List UInt16 :=
  globalRoot ++ objects.name handle ++ [92]

theorem zero_not_mem_directoryName (handle : Nat) : 0 ∉ directoryName objects handle := by
  have hroot : 0 ∉ globalRoot := by decide
  simp only [directoryName, List.mem_append, List.mem_singleton, not_or]
  exact ⟨⟨hroot, objects.zero_not_mem_name handle⟩, by decide⟩

theorem wide_allNames : wide allNames = [42, 46, 42] := by
  rw [allNames, wide_cons (by decide), wide_cons (by decide), wide_cons (by decide)]
  rfl

theorem below_of_name {directory rest : List UInt16} {path : WinNameidata}
    (hname : path.name = directory ++ rest) (hbase : path.base = directory.length) :
    Below directory path := by
  have hlen : directory.length ≤ (text path.resolved).length := by
    change directory.length ≤ path.name.length
    rw [hname, List.length_append]
    exact Nat.le_add_right _ _
  refine ⟨hbase, ?_⟩
  rw [take_text hlen]
  change path.name.take directory.length = directory
  rw [hname, List.take_left' rfl]

/-- A source of one component with a star is appended as it is. -/
theorem vfsLookup_star (hstars : NoStars fs) {start : WinNameidata} (hstand : start.place.Standing)
    (flags : UInt32) (hcopy : flagSet flags winPathcopy = false)
    (hstrip : flagSet flags winStripslashes = false) :
    (vfsLookup fs start [42, 46, 42] flags).name = start.name ++ [92, 42, 46, 42] ∧
      (vfsLookup fs start [42, 46, 42] flags).base = start.r + 1 ∧
      (vfsLookup fs start [42, 46, 42] flags).object = start.object ∧
      (vfsLookup fs start [42, 46, 42] flags).fsType = start.fsType := by
  have hplace : (pathRead (pathOpen start [42, 46, 42] flags) flags).1.place =
      start.place.enter [42, 46, 42] :=
    pathRead_place _ flags (show (0 : UInt16) ∉ [42, 46, 42] by decide)
  have hlast : (pathRead (pathOpen start [42, 46, 42] flags) flags).2 = 0 := by
    rw [pathRead, hstrip]
    rfl
  have hclose : vfsLookup fs start [42, 46, 42] flags =
      pathClose fs (pathRead (pathOpen start [42, 46, 42] flags) flags).1 flags := by
    rw [vfsLookup, hcopy, if_neg Bool.false_ne_true, pathWalk]
    simp only [hlast, if_true]
  have hname : (pathRead (pathOpen start [42, 46, 42] flags) flags).1.name =
      start.name ++ [92, 42, 46, 42] := by
    rw [← WinNameidata.place_name, hplace, hstand.enter]
    rfl
  have hread : (pathRead (pathOpen start [42, 46, 42] flags) flags).1.place.Standing := by
    rw [hplace]
    exact hstand.entered _
  obtain ⟨hto, hobject, hfsType, hbase⟩ := pathClose_star hstars flags hread (by
    rw [hname]
    simp)
  rw [hclose]
  exact ⟨(congrArg Place.name hto).trans hname, hbase, hobject, hfsType⟩

/-- The path below the directory of a descriptor, with the search and the index that are in
the descriptor. -/
theorem dirStream_spec (hstars : NoStars fs) (htold : Told s.task objects fd allNames)
    (stale : List UInt16) :
    (dirStream fs objects s fd stale).path.name =
        directoryName objects (s.task.node fd.toNat).handle ++ [42, 46, 42] ∧
      Below (directoryName objects (s.task.node fd.toNat).handle)
        (dirStream fs objects s fd stale).path ∧
      (dirStream fs objects s fd stale).path.object = (s.task.node fd.toNat).object ∧
      (dirStream fs objects s fd stale).path.fsType = (s.task.node fd.toNat).fsType ∧
      (dirStream fs objects s fd stale).index = (s.task.node fd.toNat).index ∧
      (dirStream fs objects s fd stale).finds = s.finds := by
  obtain ⟨hasked, hanswers, hname, hfits⟩ := htold
  have hpath : (dirStream fs objects s fd stale).path =
      vfsLookup fs (objectPath (objects.name (s.task.node fd.toNat).handle)
        (s.task.node fd.toNat) startPath) [42, 46, 42] (flagsOfAt atSymlinkNofollow) := by
    have hstart : vfsFGetpath objects (s.task.node fd.toNat) startPath =
        objectPath (objects.name (s.task.node fd.toNat).handle) (s.task.node fd.toNat) startPath :=
      if_pos ⟨hanswers, hname⟩
    have hr : (objectPath (objects.name (s.task.node fd.toNat).handle) (s.task.node fd.toNat)
        startPath).r = globalRoot.length + (objects.name (s.task.node fd.toNat).handle).length :=
      congrArg Place.r (objectPath_place (objects.zero_not_mem_name _) (s.task.node fd.toNat)
        startPath)
    change resolved s.task objects allNames atSymlinkNofollow fs stale fd = _
    rw [resolved_asked hasked, hstart, zero_not_mem_source (by decide) (by rw [hr]; exact hfits),
      wide_allNames]
  -- the stars are looked up below the name of the directory
  obtain ⟨hfound, hbase, hobject, hfsType⟩ := vfsLookup_star hstars
    (object_standing objects (s.task.node fd.toNat)) (flagsOfAt atSymlinkNofollow) (by decide)
    (by decide)
  have hplace := objectPath_place (objects.zero_not_mem_name (s.task.node fd.toNat).handle)
    (s.task.node fd.toNat) startPath
  have hwhole : (dirStream fs objects s fd stale).path.name =
      directoryName objects (s.task.node fd.toNat).handle ++ [42, 46, 42] := by
    rw [hpath, hfound, ← WinNameidata.place_name, hplace, directoryName, List.append_assoc _ [92]]
    rfl
  refine ⟨hwhole, below_of_name hwhole ?_, ?_, ?_, ?_, rfl⟩
  · rw [hpath, hbase, ← WinNameidata.place_r, hplace, directoryName, List.length_append,
      List.length_append]
    rfl
  · rw [hpath, hobject]
    rfl
  · rw [hpath, hfsType]
    rfl
  · exact if_pos ⟨hasked, hanswers, hname⟩

/-! ### Calls -/

variable (fs dir objects) in
/-- The descriptor is open on a directory, of which the entries were not come to after so many
were returned. -/
structure Listing (s : DirTask) (fd : Int) (entries : List FindData) (returned : Nat) : Prop where
  told : Told s.task objects fd allNames
  fsType_eq : (s.task.node fd.toNat).fsType = .disk
  standing : At dir (directoryName objects (s.task.node fd.toNat).handle ++ [42, 46, 42]) s.finds
    (s.task.node fd.toNat).object (s.task.node fd.toNat).index entries returned
  listable : Listable fs (directoryName objects (s.task.node fd.toNat).handle) entries

/-- What a call returns, and the listing that it leaves. -/
theorem sysGetdents_spec (hstars : NoStars fs) {entries : List FindData} {returned : Nat}
    (h : Listing fs dir objects s fd entries returned) (hcount : returned < 4294967294)
    {buffer : List UInt8} (hbuffer : buffer.length < 4294967296) (closes : Bool)
    (stale : List UInt16) :
    ∃ n ds left, Batch dir (directoryName objects (s.task.node fd.toNat).handle ++ [42, 46, 42])
        buffer 0 entries returned
        (vfsGetdents ⟨fs, dir, closes⟩ buffer (dirStream fs objects s fd stale)) n ds left ∧
      (sysGetdents fs dir objects s fd (some buffer) closes stale).result = .ok (UInt32.ofNat n) ∧
      (sysGetdents fs dir objects s fd (some buffer) closes stale).buffer =
        (vfsGetdents ⟨fs, dir, closes⟩ buffer (dirStream fs objects s fd stale)).buffer ∧
      Listing fs dir objects (sysGetdents fs dir objects s fd (some buffer) closes stale).task fd
        left (returned + ds.length) := by
  obtain ⟨hname, hbelow, hobject, hfsType, hindex, hfinds⟩ := dirStream_spec hstars h.told stale
  have hdisk : vfsGetdents ⟨fs, dir, closes⟩ buffer (dirStream fs objects s fd stale) =
      diskGetdents ⟨fs, dir, closes⟩ buffer (dirStream fs objects s fd stale) := by
    rw [vfsGetdents, hfsType, h.fsType_eq]
  obtain ⟨n, ds, left, hbatch⟩ : ∃ n ds left,
      Batch dir (directoryName objects (s.task.node fd.toNat).handle ++ [42, 46, 42]) buffer 0
        entries returned
        (vfsGetdents ⟨fs, dir, closes⟩ buffer (dirStream fs objects s fd stale)) n ds left := by
    rw [hdisk]
    exact diskGetdents_spec ⟨fs, dir, closes⟩ (zero_not_mem_directoryName _) hbuffer hbelow
      (fun _ => hname)
      (by rw [hfinds, hobject, hindex]; exact h.standing) h.listable hcount
  have hin : inRange fd = true := by
    have hasked := h.told.1
    rw [Asked] at hasked
    simp only [inRange, Bool.and_eq_true, decide_eq_true_eq]
    exact ⟨Int.le_of_lt hasked.1, hasked.2⟩
  have hcall : sysGetdents fs dir objects s fd (some buffer) closes stale =
      ⟨.ok (vfsGetdents ⟨fs, dir, closes⟩ buffer (dirStream fs objects s fd stale)).result,
        (vfsGetdents ⟨fs, dir, closes⟩ buffer (dirStream fs objects s fd stale)).buffer,
        ⟨s.task.update fd.toNat { s.task.node fd.toNat with
          object := (vfsGetdents ⟨fs, dir, closes⟩ buffer
            (dirStream fs objects s fd stale)).stream.path.object
          index := (vfsGetdents ⟨fs, dir, closes⟩ buffer
            (dirStream fs objects s fd stale)).stream.index },
          (vfsGetdents ⟨fs, dir, closes⟩ buffer
            (dirStream fs objects s fd stale)).stream.finds⟩⟩ := by
    simp only [sysGetdents, hin, hbatch.error]
    rfl
  refine ⟨n, ds, left, hbatch, ?_, by rw [hcall], ?_⟩
  · rw [hcall, hbatch.result, UInt32.zero_add]
  · rw [hcall]
    -- the descriptor keeps what it is a directory of, and goes on where the batch has ended
    have hnode : ∀ node, (s.task.update fd.toNat node).node fd.toNat = node := fun node =>
      Function.update_self _ _ _
    refine ⟨?_, ?_, ?_, ?_⟩
    · have htold := h.told
      rw [Told] at htold ⊢
      simp only [hnode]
      exact htold
    · simp only [hnode]
      exact h.fsType_eq
    · simp only [hnode]
      exact hbatch.after
    · simp only [hnode]
      exact fun data hmem => h.listable data (hbatch.suffix.subset hmem)

/-! ### Runs -/

/-- What the calls return, put together, is records of the names in their order, and of all
of them once a call has returned nothing, or as many calls were made as there are names. -/
structure Listed (rqs : List DirRequest) (expected : List (List UInt8))
    (calls : List GetdentsCall) : Prop where
  buffers : calls.map (fun call => call.buffer.length) = rqs.map fun rq => rq.buffer.length
  sizes : ∀ call ∈ calls, ∃ n ds, call.result = .ok n ∧ records readDirent call.bytes = some ds ∧
    totalSize ds = n.toNat ∧ n.toNat ≤ call.buffer.length
  names : ∃ ds left, records readDirent (calls.flatMap GetdentsCall.bytes) = some ds ∧
    ds.map Dirent.name ++ left = expected ∧
    ((∃ call ∈ calls, call.result = .ok 0) ∨ expected.length ≤ calls.length → left = [])

variable (fs dir objects) in
/-- What is left of the names after a run. -/
theorem getdentsRun_spec (hstars : NoStars fs) {entries : List FindData} {returned : Nat}
    {s : DirTask} (h : Listing fs dir objects s fd entries returned)
    (hcount : returned + (shownNames entries).length < 4294967294) (rqs : List DirRequest)
    (hrqs : ∀ rq ∈ rqs, 280 ≤ rq.buffer.length ∧ rq.buffer.length < 4294967296) :
    ((getdentsRun fs dir objects fd s rqs).map (fun call => call.buffer.length) =
        rqs.map fun rq => rq.buffer.length) ∧
      (∀ call ∈ getdentsRun fs dir objects fd s rqs, ∃ n ds, call.result = .ok n ∧
        records readDirent call.bytes = some ds ∧ totalSize ds = n.toNat ∧
          n.toNat ≤ call.buffer.length) ∧
      ∃ ds left, Records readDirent
          ((getdentsRun fs dir objects fd s rqs).flatMap GetdentsCall.bytes) ds ∧
        ds.map Dirent.name ++ left = shownNames entries ∧
        ((∃ call ∈ getdentsRun fs dir objects fd s rqs, call.result = .ok 0) ∨
          (shownNames entries).length ≤ rqs.length → left = []) := by
  induction rqs generalizing s entries returned with
  | nil =>
      refine ⟨rfl, fun _ hmem => absurd hmem List.not_mem_nil, [], shownNames entries, .nil, rfl, ?_⟩
      rintro (⟨_, hmem, _⟩ | hle)
      · exact absurd hmem List.not_mem_nil
      · exact List.length_eq_zero_iff.mp (Nat.le_zero.mp hle)
  | cons rq rqs ih =>
      obtain ⟨hroom, hlt⟩ := hrqs rq List.mem_cons_self
      obtain ⟨n, ds, left, hbatch, hresult, hbuffer, hnext⟩ :=
        sysGetdents_spec hstars h (by omega) hlt rq.closes rq.stale
      have hn : (UInt32.ofNat n).toNat = n :=
        UInt32.toNat_ofNat_of_lt' (Nat.lt_of_le_of_lt hbatch.le hlt)
      have hbytes : (sysGetdents fs dir objects s fd (some rq.buffer) rq.closes rq.stale).bytes =
          (vfsGetdents ⟨fs, dir, rq.closes⟩ rq.buffer
            (dirStream fs objects s fd rq.stale)).buffer.take n := by
        rw [GetdentsCall.bytes, hresult, hbuffer]
        dsimp only
        rw [hn]
      have hlen : (sysGetdents fs dir objects s fd (some rq.buffer) rq.closes
          rq.stale).buffer.length = rq.buffer.length := by
        rw [hbuffer, hbatch.length]
      have hsplit : ds.length + (shownNames left).length = (shownNames entries).length := by
        rw [← hbatch.names, List.length_append, List.length_map]
      obtain ⟨hbuffers, hsizes, es, rest, hrecords, hnames, hall⟩ :=
        ih hnext (by omega) fun rq hmem => hrqs rq (List.mem_cons_of_mem _ hmem)
      refine ⟨?_, ?_, ds ++ es, rest, ?_, ?_, ?_⟩
      · rw [getdentsRun, List.map_cons, List.map_cons, hbuffers, hlen]
      · intro call hmem
        rcases List.mem_cons.mp hmem with rfl | hmem
        · refine ⟨UInt32.ofNat n, ds, hresult, ?_, hbatch.size.trans hn.symm, ?_⟩
          · rw [hbytes]
            exact records_of_records hbatch.records
          · rw [hn, hlen]
            exact hbatch.le
        · exact hsizes call hmem
      · rw [getdentsRun, List.flatMap_cons, hbytes]
        exact hbatch.records.append hrecords
      · rw [List.map_append, List.append_assoc, hnames, hbatch.names]
      · -- nothing is left behind a call that has returned nothing
        have hend : ds = [] → rest = [] := fun hds => by
          rw [hbatch.progress hroom hds] at hnames
          exact (List.append_eq_nil_iff.mp hnames).2
        rintro (⟨call, hmem, hzero⟩ | hle)
        · rcases List.mem_cons.mp hmem with rfl | hmem
          · rw [hresult] at hzero
            have hzero' : n = 0 := by
              rw [← hn, Except.ok.inj hzero]
              rfl
            have hrecords := hbatch.records
            rw [hzero', List.take_zero] at hrecords
            exact hend hrecords.eq_nil
          · exact hall (.inl ⟨call, hmem, hzero⟩)
        · cases ds with
          | nil => exact hend rfl
          | cons d ds =>
              refine hall (.inr ?_)
              rw [List.length_cons] at hsplit hle
              omega

end

/-- A descriptor that was opened on a directory and not read. -/
structure FreshDirectory (fs : WinFs) (dir : List UInt16 → List Found) (objects : ObjectNames)
    (s : DirTask) (fd : Int) (entries : List FindData) : Prop where
  told : Told s.task objects fd allNames
  fsType_eq : (s.task.node fd.toNat).fsType = .disk
  object_eq : (s.task.node fd.toNat).object = 0
  index_eq : (s.task.node fd.toNat).index = 0
  found : dir (directoryName objects (s.task.node fd.toNat).handle ++ [42, 46, 42]) =
    entries.map .entry

/-- The calls return the entries that are not hidden, links of the shell without the extension,
if all their names fit and their nodes are known. -/
theorem getdents_listed {fs : WinFs} {dir : List UInt16 → List Found} {objects : ObjectNames}
    {s : DirTask} {fd : Int} {entries : List FindData} (hstars : NoStars fs)
    (h : FreshDirectory fs dir objects s fd entries)
    (hlist : Listable fs (directoryName objects (s.task.node fd.toNat).handle) entries)
    (hcount : (shownNames entries).length < 4294967294) (rqs : List DirRequest)
    (hrqs : ∀ rq ∈ rqs, 280 ≤ rq.buffer.length ∧ rq.buffer.length < 4294967296) :
    Listed rqs (shownNames entries) (getdentsRun fs dir objects fd s rqs) := by
  have hlisting : Listing fs dir objects s fd entries 0 :=
    ⟨h.told, h.fsType_eq, .inl (.inl ⟨h.object_eq, h.index_eq, rfl, h.found⟩), hlist⟩
  obtain ⟨hbuffers, hsizes, ds, left, hrecords, hnames, hall⟩ :=
    getdentsRun_spec fs dir objects hstars hlisting (by omega) rqs hrqs
  have hlength : (getdentsRun fs dir objects fd s rqs).length = rqs.length := by
    have hlen := congrArg List.length hbuffers
    rwa [List.length_map, List.length_map] at hlen
  exact ⟨hbuffers, hsizes, ds, left, records_of_records hrecords, hnames, by
    rw [hlength]
    exact hall⟩

theorem zero_not_mem_shortcut : (0 : UInt16) ∉ [97, 46, 108, 110, 107] := by decide

theorem length_shortcut : [(97 : UInt16), 46, 108, 110, 107].length ≤ 255 := by decide

/-- `a.lnk`, a file. -/
def shortcutEntry : FindData :=
  ⟨0x20, [97, 46, 108, 110, 107], zero_not_mem_shortcut, length_shortcut⟩

theorem zero_not_mem_longest : (0 : UInt16) ∉ List.replicate 255 97 := by
  rw [List.mem_replicate]
  exact fun h => absurd h.2 (by decide)

theorem length_longest : (List.replicate 255 (97 : UInt16)).length ≤ 255 :=
  Nat.le_of_eq List.length_replicate

/-- A file with a name as long as names get. -/
def longestEntry : FindData :=
  ⟨0x20, List.replicate 255 97, zero_not_mem_longest, length_longest⟩

theorem zero_not_mem_volume (handle : Nat) :
    (0 : UInt16) ∉ (fun _ : Nat => [92, 100]) handle := by
  change (0 : UInt16) ∉ [92, 100]
  decide

/-- Every handle is one of a directory `\d`. -/
def oneDirectory : ObjectNames := ⟨fun _ => [92, 100], fun _ => true, zero_not_mem_volume⟩

/-- Descriptor 3 is a directory. -/
def readerTask : DirTask where
  task := ⟨fun _ => { WinVnode.zero with fsType := .disk, handle := 8 }, 0, [], List.not_mem_nil⟩
  finds := ⟨0, fun _ => []⟩

def smallRequest : DirRequest := ⟨List.replicate 280 0, true, []⟩

/-- What one call returns for a directory of one entry. -/
def readOne (data : FindData) : List GetdentsCall :=
  getdentsRun emptyFs (fun _ => [.entry data]) oneDirectory 3 readerTask [smallRequest]

theorem readerTask_fresh (data : FindData) :
    FreshDirectory emptyFs (fun _ => [.entry data]) oneDirectory readerTask 3 [data] where
  told := by
    refine ⟨by rw [Asked, openMax]; decide, rfl, List.cons_ne_nil _ _, ?_⟩
    rw [Fits, wide_allNames]
    decide
  fsType_eq := rfl
  object_eq := rfl
  index_eq := rfl
  found := rfl

theorem getdents_listed_shortcut :
    Listed [smallRequest] (shownNames [shortcutEntry]) (readOne shortcutEntry) :=
  getdents_listed (fun _ _ => rfl) (readerTask_fresh shortcutEntry)
    (fun data hmem _ => by
      obtain rfl := List.mem_singleton.mp hmem
      exact ⟨fun _ _ _ hstat => (by cases hstat), by decide +kernel⟩)
    (by decide +kernel) [smallRequest] (fun rq hmem => by
      obtain rfl := List.mem_singleton.mp hmem
      exact ⟨by decide +kernel, by decide +kernel⟩)

theorem readOne_shortcut :
    (records readDirent ((readOne shortcutEntry).flatMap GetdentsCall.bytes)).map
      (List.map Dirent.name) = some [[97]] := by
  decide +kernel

theorem readOne_longest :
    records readDirent ((readOne longestEntry).flatMap GetdentsCall.bytes) = none := by
  decide +kernel

/-- A link of the shell is named without its extension, and a name of 255 bytes is not
converted. -/
theorem full_names_not_listed :
    (FreshDirectory emptyFs (fun _ => [.entry shortcutEntry]) oneDirectory readerTask 3
        [shortcutEntry] ∧
      ¬Listed [smallRequest] [narrow shortcutEntry.fileName] (readOne shortcutEntry)) ∧
      FreshDirectory emptyFs (fun _ => [.entry longestEntry]) oneDirectory readerTask 3
          [longestEntry] ∧
        ¬Listed [smallRequest] [narrow longestEntry.fileName] (readOne longestEntry) := by
  refine ⟨⟨readerTask_fresh shortcutEntry, ?_⟩, readerTask_fresh longestEntry, ?_⟩
  · rintro ⟨_, _, ds, left, hrecords, hnames, _⟩
    have hshown := readOne_shortcut
    rw [hrecords, Option.map_some, Option.some_inj] at hshown
    rw [hshown] at hnames
    exact absurd (List.cons.inj hnames).1 (by decide +kernel)
  · rintro ⟨_, _, ds, left, hrecords, _⟩
    rw [readOne_longest] at hrecords
    cases hrecords

end MinC.Sys
