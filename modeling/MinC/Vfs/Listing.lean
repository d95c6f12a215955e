import MinC.Lib.Bits
import MinC.Vfs.Dirent

/-!
What a read of a directory returns.

A stream is at those entries that its search has not come to. A turn of the loop
takes the first of them, and what it writes is read as a record with the name of
that entry. So the records of a call have the names of the entries that it has
taken and that are not hidden, and the stream is at the others. A call with room
for a record that returns none has come to the end.
-/

namespace MinC.Vfs

open MinC.Lib MinC.Win

/-! ### Records -/

theorem direntRecsize_toNat {n : Nat} (h : n ≤ 254) :
    (direntRecsize (UInt32.ofNat n)).toNat = (n + 32) / 8 * 8 := by
  have hn : (UInt32.ofNat n).toNat = n := UInt32.toNat_ofNat_of_lt' (by
    change n < 4294967296
    omega)
  have hsum : (24 + UInt32.ofNat n + 1 + 7 : UInt32).toNat = n + 32 := by
    simp only [UInt32.toNat_add, hn, UInt32.reduceToNat]
    omega
  rw [direntRecsize, u32_and_multiple_eight, hsum]

theorem length_direntHead (index recSize : UInt32) (fileType nameSize : UInt8) :
    (direntHead index recSize fileType nameSize).length = 20 := by
  simp [direntHead]

/-- The record of a name: the head, what was in the padding, the name and what was behind. -/
theorem isRecord_dirent {index recSize : UInt32} {fileType nameSize : UInt8}
    {pad name rest : List UInt8} (hpad : pad.length = 4) (hname : 0 ∉ name)
    (hsize : 25 + name.length + rest.length = recSize.toNat) (hlt : recSize.toNat < 65536) :
    IsRecord readDirent (direntHead index recSize fileType nameSize ++ (pad ++ (name ++ 0 :: rest)))
      ⟨recSize.toNat, fileType, nameSize, name⟩ := by
  have hhead := length_direntHead index recSize fileType nameSize
  have hlen : (direntHead index recSize fileType nameSize ++
      (pad ++ (name ++ 0 :: rest))).length = recSize.toNat := by
    simp only [List.length_append, List.length_cons, hhead, hpad]
    omega
  refine ⟨List.ne_nil_of_length_pos (by omega), fun l => ?_⟩
  have hstored : leNat (((direntHead index recSize fileType nameSize ++
      (pad ++ (name ++ 0 :: rest)) ++ l).drop 16).take 2) = recSize.toNat := by
    have hbytes : ((direntHead index recSize fileType nameSize ++
        (pad ++ (name ++ 0 :: rest)) ++ l).drop 16).take 2 = leBytes 2 recSize.toNat := by
      simp [direntHead, List.append_assoc, List.drop_append, List.take_append]
    rw [hbytes, leNat_leBytes_two hlt]
  have hcells : ((direntHead index recSize fileType nameSize ++ (pad ++ (name ++ 0 :: rest)) ++
      l).take recSize.toNat).drop fileNameOffset = name ++ 0 :: rest := by
    rw [← hlen, List.take_left' rfl, ← List.append_assoc]
    exact List.drop_left' (by simp [fileNameOffset, hhead, hpad])
  have hfits : ¬((direntHead index recSize fileType nameSize ++ (pad ++ (name ++ 0 :: rest)) ++
      l).length < recSize.toNat ∨ 0 ∉ name ++ 0 :: rest) := by
    rw [List.length_append, hlen]
    simp
  rw [readDirent, hstored, hcells, if_neg hfits, text_append_zero hname, hlen]
  simp [direntHead, List.getElem?_append]

theorem take_named {head pad name tail : List UInt8} {n : Nat}
    (h : head.length + pad.length + name.length < n) :
    (head ++ (pad ++ (name ++ 0 :: tail))).take n =
      head ++ (pad ++ (name ++ 0 ::
        tail.take (n - (head.length + pad.length + name.length + 1)))) := by
  obtain ⟨k, rfl⟩ := Nat.exists_eq_add_of_lt h
  have htail : head.length + pad.length + name.length + k + 1 -
      (head.length + pad.length + name.length + 1) = k := by omega
  have hwhole : head.length + pad.length + name.length + k + 1 =
      head.length + (pad.length + (name.length + (k + 1))) := by omega
  rw [htail, hwhole, List.take_length_add_append, List.take_length_add_append,
    List.take_length_add_append, List.take_succ_cons]

/-- A name that is converted is written into a record that is read as that name. -/
theorem direntWrite_spec (index : UInt32) (fileType : WinVtype) {name buffer : List UInt8}
    (hname : 0 ∉ name) (hlength : name.length ≤ 254) (hbuffer : 280 ≤ buffer.length) :
    (direntWrite index fileType (some name) buffer).2.toNat = (name.length + 32) / 8 * 8 ∧
      (direntWrite index fileType (some name) buffer).1.length = buffer.length ∧
      IsRecord readDirent
        ((direntWrite index fileType (some name) buffer).1.take ((name.length + 32) / 8 * 8))
        ⟨(name.length + 32) / 8 * 8, dtypePosix fileType, UInt8.ofNat name.length, name⟩ := by
  have hsize := direntRecsize_toNat hlength
  have hcells : (name ++ [0]).length = name.length + 1 := by simp
  -- the name is written behind 24 bytes, of which the head then takes 20
  have hnamed : poke buffer fileNameOffset (name ++ [0]) =
      buffer.take 20 ++ ((buffer.drop 20).take 4 ++ (name ++ 0 :: buffer.drop (25 + name.length))) := by
    have hsplit : buffer.take 24 = buffer.take 20 ++ (buffer.drop 20).take 4 := by
      rw [← List.take_add]
    have hzero : fileNameOffset - buffer.length = 0 := by
      rw [fileNameOffset]
      omega
    rw [poke, front, hzero, hcells]
    simp [fileNameOffset, hsplit, List.append_assoc, Nat.add_comm]
  have hpoke : (direntWrite index fileType (some name) buffer).1 =
      direntHead index (direntRecsize (UInt32.ofNat name.length)) (dtypePosix fileType)
          (UInt8.ofNat name.length) ++
        ((buffer.drop 20).take 4 ++ (name ++ 0 :: buffer.drop (25 + name.length))) := by
    have hn : (UInt32.ofNat name.length).toNat = name.length := UInt32.toNat_ofNat_of_lt' (by
      change name.length < 4294967296
      omega)
    have hdrop : (poke buffer fileNameOffset (name ++ [0])).drop 20 =
        (buffer.drop 20).take 4 ++ (name ++ 0 :: buffer.drop (25 + name.length)) := by
      rw [hnamed]
      exact List.drop_left' (List.length_take_of_le (by omega))
    rw [direntWrite, Option.map_some, Option.map_some, Option.getD_some, Option.getD_some, hn,
      poke, length_direntHead, Nat.zero_add, hdrop]
    simp [front]
  have hpad : ((buffer.drop 20).take 4).length = 4 := by
    rw [List.length_take, List.length_drop]
    omega
  refine ⟨hsize, ?_, ?_⟩
  · rw [hpoke]
    simp only [List.length_append, List.length_cons, length_direntHead, hpad, List.length_drop]
    omega
  · rw [hpoke, take_named (by rw [length_direntHead, hpad]; omega), ← hsize]
    refine isRecord_dirent hpad hname ?_ ?_
    · rw [hsize, List.length_take, List.length_drop, length_direntHead, hpad]
      omega
    · rw [hsize]
      omega

/-! ### Entries -/

namespace FindData

variable (data : FindData)

/-- The entry is a link of the shell, which is found without the extension. -/
def IsShortcut : Prop :=
  data.fileAttributes ≠ fileClassInode ∧
    flagSet data.fileAttributes fileAttributeDirectory = false ∧
    data.fileName.drop (winTypename data.fileName) = lnkType

instance : Decidable data.IsShortcut := inferInstanceAs (Decidable (_ ∧ _ ∧ _))

/-- The name that the entry has for a caller. -/
def shownName : List UInt16 :=
  if data.IsShortcut then data.fileName.take (winTypename data.fileName) else data.fileName

def visible : Bool := !flagSet data.fileAttributes fileAttributeHidden

/-- The inode of the entry, if it is one, is of a kind that files, pipes or devices have. -/
def Known (fs : WinFs) (directory : List UInt16) : Prop :=
  data.fileAttributes = fileClassInode →
    ∀ iNode handle, fs.stat false (directory ++ data.fileName) = some (iNode, handle) →
      iNode.fsType = .disk ∨ iNode.fsType = .pipe ∨ iNode.fsType = .pdo

theorem zero_not_mem_narrow_shownName : 0 ∉ narrow data.shownName := by
  refine zero_not_mem_narrow fun h => data.zero_not_mem ?_
  rw [shownName] at h
  split_ifs at h
  · exact List.mem_of_mem_take h
  · exact h

end FindData

/-- The names that a caller is to be told. -/
def shownNames (entries : List FindData) : List (List UInt8) :=
  (entries.filter FindData.visible).map fun data => narrow data.shownName

theorem shownNames_hidden {data : FindData} (h : data.visible = false)
    (entries : List FindData) : shownNames (data :: entries) = shownNames entries := by
  rw [shownNames, List.filter_cons_of_neg (by simp [h]), shownNames]

theorem shownNames_visible {data : FindData} (h : data.visible = true)
    (entries : List FindData) :
    shownNames (data :: entries) = narrow data.shownName :: shownNames entries := by
  rw [shownNames, List.filter_cons_of_pos h, List.map_cons, shownNames]

/-- The path is below a directory. -/
structure Below (directory : List UInt16) (path : WinNameidata) : Prop where
  base : path.base = directory.length
  taken : path.resolved.take directory.length = directory

section
variable {env : DirEnv} {directory : List UInt16} {path : WinNameidata}

theorem Below.length_le (h : Below directory path) : directory.length ≤ path.resolved.length := by
  have hlen := congrArg List.length h.taken
  rw [List.length_take] at hlen
  omega

theorem Below.poke (h : Below directory path) (cells : List UInt16) :
    MinC.Lib.poke path.resolved path.base cells =
      directory ++ cells ++ path.resolved.drop (path.base + cells.length) := by
  rw [MinC.Lib.poke, front, h.base, h.taken, Nat.sub_eq_zero_of_le h.length_le,
    List.replicate_zero, List.append_nil]

theorem Below.write (h : Below directory path) (cells : List UInt16) :
    Below directory (path.write path.base cells) := by
  refine ⟨h.base, ?_⟩
  change (MinC.Lib.poke path.resolved path.base cells).take directory.length = directory
  rw [h.poke, List.append_assoc, List.take_left' rfl]

theorem Below.name (h : Below directory path) (hzero : 0 ∉ directory) {name : List UInt16}
    (hname : 0 ∉ name) : (path.write path.base (name ++ [0])).name = directory ++ name := by
  have hcells : 0 ∉ directory ++ name := by
    rw [List.mem_append]
    exact not_or.mpr ⟨hzero, hname⟩
  change text (MinC.Lib.poke path.resolved path.base (name ++ [0])) = _
  rw [h.poke, ← List.append_assoc, List.append_assoc _ [0]]
  exact text_append_zero hcells _

/-- Without flags, a node that is known is found, and the path stays. -/
theorem diskLookup_known (fs : WinFs) (path : WinNameidata)
    (h : ∀ iNode handle, fs.stat false path.name = some (iNode, handle) →
      iNode.fsType = .disk ∨ iNode.fsType = .pipe ∨ iNode.fsType = .pdo) :
    (diskLookup fs path 0).2 = true ∧ (diskLookup fs path 0).1.base = path.base ∧
      (diskLookup fs path 0).1.resolved = path.resolved ∧
      (diskLookup fs path 0).1.object = path.object := by
  have hflags : ∀ flag, flagSet 0 flag = false := by
    intro flag
    simp [flagSet]
  rw [diskLookup, hflags]
  cases hstat : fs.stat false path.name with
  | none => exact ⟨rfl, rfl, rfl, rfl⟩
  | some found =>
      obtain ⟨iNode, handle⟩ := found
      dsimp only
      rcases h iNode handle hstat with htype | htype | htype
      · simp [htype, diskFLookup, hflags]
      · simp [htype, pipeFLookup, hflags]
      · simp [htype, pdoFLookup, hflags]

theorem entityKind_snd (data : FindData) : (entityKind env data path).2 = data.shownName := by
  simp only [entityKind, FindData.shownName, FindData.IsShortcut]
  split_ifs <;> simp_all

theorem entityKind_spec {data : FindData} (h : Below directory path) (hzero : 0 ∉ directory)
    (hknown : data.Known env.fs directory) :
    (entityKind env data path).1.2 = true ∧ Below directory (entityKind env data path).1.1 ∧
      (entityKind env data path).1.1.object = path.object := by
  rw [entityKind]
  split_ifs with hinode
  · obtain ⟨hfound, hbase, hresolved, hobject⟩ :=
      diskLookup_known env.fs (path.write path.base (data.fileName ++ [0])) (by
        rw [h.name hzero data.zero_not_mem]
        exact hknown hinode)
    refine ⟨hfound, ⟨?_, ?_⟩, hobject⟩
    · rw [hbase]
      exact h.base
    · rw [hresolved]
      exact (h.write _).taken
  · exact ⟨rfl, ⟨h.base, h.taken⟩, rfl⟩
  · exact ⟨rfl, ⟨h.base, h.taken⟩, rfl⟩
  · exact ⟨rfl, ⟨h.base, h.taken⟩, rfl⟩

/-- An entry whose name fits goes into the buffer as a record of that name. -/
theorem diskGetEntity_spec {data : FindData} (index : UInt32) {buffer : List UInt8}
    (h : Below directory path) (hzero : 0 ∉ directory) (hknown : data.Known env.fs directory)
    (hfits : (narrow data.shownName).length ≤ 254) (hbuffer : 280 ≤ buffer.length) :
    (diskGetEntity env data path index buffer).error = none ∧
      (diskGetEntity env data path index buffer).size.toNat =
        ((narrow data.shownName).length + 32) / 8 * 8 ∧
      (diskGetEntity env data path index buffer).buffer.length = buffer.length ∧
      (∃ d : Dirent, IsRecord readDirent
        ((diskGetEntity env data path index buffer).buffer.take
          (((narrow data.shownName).length + 32) / 8 * 8)) d ∧
        d.recSize = ((narrow data.shownName).length + 32) / 8 * 8 ∧
        d.name = narrow data.shownName) ∧
      Below directory (diskGetEntity env data path index buffer).path ∧
      (diskGetEntity env data path index buffer).path.object = path.object := by
  obtain ⟨hfound, hbelow, hobject⟩ := entityKind_spec h hzero hknown
  have hname : winWcstombs data.shownName winMaxnamlen = some (narrow data.shownName) := by
    rw [winWcstombs, winMaxnamlen, if_pos (by omega)]
  obtain ⟨hsize, hlength, hrecord⟩ := direntWrite_spec index
    (entityKind env data path).1.1.fileType data.zero_not_mem_narrow_shownName hfits hbuffer
  rw [diskGetEntity]
  simp only [entityKind_snd, hname, hfound, if_true]
  exact ⟨trivial, hsize, hlength, ⟨_, hrecord, rfl, rfl⟩, hbelow, hobject⟩

end

/-! ### Streams -/

/-- The sizes of the records. -/
def totalSize (ds : List Dirent) : Nat := ds.foldr (fun d n => d.recSize + n) 0

section
variable (dir : List UInt16 → List Found) (pattern : List UInt16)

/-- A search that was begun, with the entries that it has not come to, after so many were
returned. -/
structure Begun (finds : Finds) (object : Nat) (index : UInt32) (entries : List FindData)
    (returned : Nat) : Prop where
  object_ne_zero : object ≠ 0
  index_eq : index = UInt32.ofNat (returned + 1)
  rest_eq : finds.rest object = entries.map .entry

/-- A search that is yet to be begun. -/
structure Unbegun (object : Nat) (index : UInt32) (entries : List FindData) (returned : Nat) :
    Prop where
  object_eq : object = 0
  index_eq : index = 0
  returned_eq : returned = 0
  dir_eq : dir pattern = entries.map .entry

structure Ended (object : Nat) (index : UInt32) (entries : List FindData) : Prop where
  object_eq : object = 0
  index_eq : index = 0xFFFFFFFF
  entries_eq : entries = []

def Opened (finds : Finds) (object : Nat) (index : UInt32) (entries : List FindData)
    (returned : Nat) : Prop :=
  Unbegun dir pattern object index entries returned ∨ Begun finds object index entries returned

/-- Where a stream can be between two calls. -/
def At (finds : Finds) (object : Nat) (index : UInt32) (entries : List FindData)
    (returned : Nat) : Prop :=
  Opened dir pattern finds object index entries returned ∨ Ended object index entries

/-- A call has returned the records, and has left the entries behind them. -/
structure Batch (buffer : List UInt8) (dwResult : UInt32) (entries : List FindData)
    (returned : Nat) (g : Getdents) (n : Nat) (ds : List Dirent) (left : List FindData) :
    Prop where
  error : g.error = none
  length : g.buffer.length = buffer.length
  result : g.result = dwResult + UInt32.ofNat n
  le : n ≤ buffer.length
  records : Records readDirent (g.buffer.take n) ds
  size : totalSize ds = n
  names : ds.map Dirent.name ++ shownNames left = shownNames entries
  progress : 280 ≤ buffer.length → ds = [] → shownNames left = []
  suffix : left <:+ entries
  after : At dir pattern g.stream.finds g.stream.path.object g.stream.index left
    (returned + ds.length)

variable {dir pattern} {env : DirEnv} {buffer : List UInt8} {dwResult : UInt32} {s : DirStream}
  {entries : List FindData} {returned : Nat}

/-- Nothing is returned if there is no room or nothing more to come to. -/
theorem Batch.nil {s' : DirStream} (hnone : 280 ≤ buffer.length → shownNames entries = [])
    (h : At dir pattern s'.finds s'.path.object s'.index entries returned) :
    Batch dir pattern buffer dwResult entries returned ⟨buffer, dwResult, none, s'⟩ 0 []
      entries where
  error := rfl
  length := rfl
  result := (UInt32.add_zero dwResult).symm
  le := Nat.zero_le _
  records := .nil
  size := rfl
  names := List.nil_append _
  progress := fun h _ => hnone h
  suffix := List.suffix_refl entries
  after := h

/-- The end of the entries, which closes the search if it was begun. -/
theorem diskReaddir_nil (h : Opened env.dir pattern s.finds s.path.object s.index [] returned)
    (hname : s.path.object = 0 → s.path.name = pattern) :
    (diskReaddir env s).1 = none ∧
      At env.dir pattern (diskReaddir env s).2.finds (diskReaddir env s).2.path.object
        (diskReaddir env s).2.index [] returned := by
  rcases h with h | h
  · have hdir : env.dir s.path.name = [] := by
      rw [hname h.object_eq]
      exact h.dir_eq
    simp only [diskReaddir, if_pos h.object_eq, diskRewinddir, Finds.findFirstFile, hdir]
    exact ⟨trivial, .inl (.inl h)⟩
  · have hrest : s.finds.rest s.path.object = [] := h.rest_eq
    simp only [diskReaddir, if_neg h.object_ne_zero, Finds.findNextFile, hrest]
    cases env.closes with
    | false => exact ⟨rfl, .inl (.inr h)⟩
    | true => exact ⟨rfl, .inr ⟨rfl, rfl, rfl⟩⟩

/-- The next entry. -/
theorem diskReaddir_cons {data : FindData}
    (h : Opened env.dir pattern s.finds s.path.object s.index (data :: entries) returned)
    (hname : s.path.object = 0 → s.path.name = pattern) :
    ∃ s', diskReaddir env s = (some data, s') ∧
      Begun s'.finds s'.path.object s'.index entries returned ∧
      s'.path.base = s.path.base ∧ s'.path.resolved = s.path.resolved := by
  rcases h with h | h
  · have hdir : env.dir s.path.name = .entry data :: entries.map .entry := by
      rw [hname h.object_eq]
      exact h.dir_eq
    simp only [diskReaddir, if_pos h.object_eq, diskRewinddir, Finds.findFirstFile, hdir]
    refine ⟨_, rfl, ⟨Nat.succ_ne_zero _, ?_, Function.update_self _ _ _⟩, rfl, rfl⟩
    rw [h.returned_eq]
    rfl
  · have hrest : s.finds.rest s.path.object = .entry data :: entries.map .entry := h.rest_eq
    simp only [diskReaddir, if_neg h.object_ne_zero, Finds.findNextFile, hrest]
    exact ⟨_, rfl, ⟨h.object_ne_zero, h.index_eq, Function.update_self _ _ _⟩, rfl, rfl⟩

theorem Batch.hidden {data : FindData} {g : Getdents} {n : Nat} {ds : List Dirent}
    {left : List FindData} (hdata : data.visible = false)
    (h : Batch dir pattern buffer dwResult entries returned g n ds left) :
    Batch dir pattern buffer dwResult (data :: entries) returned g n ds left :=
  { h with
    names := by
      rw [shownNames_hidden hdata]
      exact h.names
    suffix := h.suffix.trans (List.suffix_cons data entries) }

/-- A record in front of those of the turns that follow. -/
theorem Batch.cons {data : FindData} {written : List UInt8} {size : UInt32} {g : Getdents}
    {n : Nat} {d : Dirent} {ds : List Dirent} {left : List FindData}
    (hdata : data.visible = true) (hlength : written.length = buffer.length)
    (hsize : size.toNat ≤ buffer.length)
    (hrecord : IsRecord readDirent (written.take size.toNat) d) (hrec : d.recSize = size.toNat)
    (hname : d.name = narrow data.shownName)
    (h : Batch dir pattern (written.drop size.toNat) (dwResult + size) entries (returned + 1) g n ds
      left) :
    Batch dir pattern buffer dwResult (data :: entries) returned
      { g with buffer := written.take size.toNat ++ g.buffer } (size.toNat + n) (d :: ds) left where
  error := h.error
  length := by
    have hrest := h.length
    rw [List.length_drop] at hrest
    change (written.take size.toNat ++ g.buffer).length = buffer.length
    rw [List.length_append, List.length_take, hrest]
    omega
  result := by
    change g.result = _
    rw [h.result, UInt32.ofNat_add, UInt32.ofNat_toNat, UInt32.add_assoc]
  le := by
    have hrest := h.le
    rw [List.length_drop] at hrest
    omega
  records := by
    have htaken : (written.take size.toNat).length = size.toNat :=
      List.length_take_of_le (by omega)
    -- the record comes first, and what was written behind it has its own records
    have hsplit : (written.take size.toNat ++ g.buffer).take (size.toNat + n) =
        written.take size.toNat ++ g.buffer.take n := by
      rw [List.take_append, htaken, List.take_of_length_le (by omega), Nat.add_sub_cancel_left]
    change Records readDirent ((written.take size.toNat ++ g.buffer).take (size.toNat + n)) _
    rw [hsplit]
    exact .cons hrecord h.records
  size := by
    have hrest := h.size
    rw [totalSize] at hrest
    rw [totalSize, List.foldr_cons, hrest, hrec]
  names := by
    rw [shownNames_visible hdata, List.map_cons, List.cons_append, h.names, hname]
  progress := fun _ hnil => absurd hnil (List.cons_ne_nil _ _)
  suffix := h.suffix.trans (List.suffix_cons data entries)
  after := by
    rw [List.length_cons, Nat.add_comm ds.length 1, ← Nat.add_assoc]
    exact h.after

/-- The names of the entries that are shown fit, and their nodes are known. -/
def Listable (fs : WinFs) (directory : List UInt16) (entries : List FindData) : Prop :=
  ∀ data ∈ entries, data.visible = true →
    data.Known fs directory ∧ (narrow data.shownName).length ≤ 254

/-- The loop returns the records of the entries that it comes to. -/
theorem getdentsLoop_spec {directory : List UInt16} (hzero : 0 ∉ directory) (fuel : Nat)
    {lSize : UInt32} (hfuel : entries.length < fuel) (hsize : lSize.toNat = buffer.length)
    (hbelow : Below directory s.path) (hname : s.path.object = 0 → s.path.name = pattern)
    (h : Opened env.dir pattern s.finds s.path.object s.index entries returned)
    (hlist : Listable env.fs directory entries) :
    ∃ n ds left, Batch env.dir pattern buffer dwResult entries returned
      (getdentsLoop env fuel lSize buffer dwResult s) n ds left := by
  -- on the turns: each but the last takes an entry off
  induction fuel generalizing entries s returned buffer lSize dwResult with
  | zero => exact absurd hfuel (Nat.not_lt_zero _)
  | succ fuel ih =>
      rw [getdentsLoop]
      by_cases hroom : lSize < winDirentSize
      · rw [if_pos hroom]
        have hlt : lSize.toNat < 280 := UInt32.lt_iff_toNat_lt.mp hroom
        exact ⟨0, [], entries, .nil (fun hle => by omega) (.inl h)⟩
      · rw [if_neg hroom]
        have hle : 280 ≤ lSize.toNat := Nat.le_of_not_lt fun hlt =>
          hroom (UInt32.lt_iff_toNat_lt.mpr hlt)
        cases entries with
        | nil =>
            obtain ⟨hnone, hafter⟩ := diskReaddir_nil h hname
            obtain ⟨s', hread⟩ : ∃ s', diskReaddir env s = (none, s') :=
              ⟨_, Prod.ext hnone rfl⟩
            rw [hread] at hafter ⊢
            exact ⟨0, [], [], .nil (fun _ => rfl) hafter⟩
        | cons data entries =>
            obtain ⟨s', hread, hbegun, hbase, hresolved⟩ := diskReaddir_cons h hname
            have hbelow' : Below directory s'.path :=
              ⟨hbase.trans hbelow.base, by rw [hresolved]; exact hbelow.taken⟩
            have hlist' : Listable env.fs directory entries := fun data hmem =>
              hlist data (List.mem_cons_of_mem _ hmem)
            rw [List.length_cons] at hfuel
            rw [hread]
            dsimp only
            cases hhidden : flagSet data.fileAttributes fileAttributeHidden with
            | true =>
                rw [if_pos rfl]
                obtain ⟨n, ds, left, hbatch⟩ : ∃ n ds left, Batch env.dir pattern buffer dwResult
                    entries returned (getdentsLoop env fuel lSize buffer dwResult s') n ds left :=
                  ih (by omega) hsize hbelow' (fun h0 => absurd h0 hbegun.object_ne_zero)
                    (.inr hbegun) hlist'
                exact ⟨n, ds, left, hbatch.hidden (by rw [FindData.visible, hhidden]; rfl)⟩
            | false =>
                have hvisible : data.visible = true := by
                  rw [FindData.visible, hhidden]
                  rfl
                obtain ⟨hknown, hfits⟩ := hlist data List.mem_cons_self hvisible
                obtain ⟨herror, hrecSize, hlength, ⟨d, hrecord, hrec, hdname⟩, hbelow'', hobject⟩ :=
                  diskGetEntity_spec s'.index hbelow' hzero hknown hfits
                    (Nat.le_trans hle (Nat.le_of_eq hsize))
                rw [if_neg Bool.false_ne_true, herror]
                dsimp only
                rw [← hrecSize] at hrecord hrec
                have hsub : (lSize - (diskGetEntity env data s'.path s'.index buffer).size).toNat =
                    ((diskGetEntity env data s'.path s'.index buffer).buffer.drop
                      (diskGetEntity env data s'.path s'.index buffer).size.toNat).length := by
                  rw [List.length_drop, hlength, UInt32.toNat_sub_of_le _ _
                    (UInt32.le_iff_toNat_le.mpr (by omega)), hsize]
                have hbegun' : Begun s'.finds
                    (diskGetEntity env data s'.path s'.index buffer).path.object (s'.index + 1)
                    entries (returned + 1) := by
                  rw [hobject]
                  refine ⟨hbegun.object_ne_zero, ?_, hbegun.rest_eq⟩
                  rw [hbegun.index_eq, UInt32.ofNat_add (returned + 1) 1]
                  rfl
                obtain ⟨n, ds, left, hbatch⟩ := @ih _
                  (dwResult + (diskGetEntity env data s'.path s'.index buffer).size)
                  { s' with
                    path := (diskGetEntity env data s'.path s'.index buffer).path
                    index := s'.index + 1 }
                  entries (returned + 1) _ (by omega) hsub hbelow''
                    (fun h0 => absurd h0 hbegun'.object_ne_zero)
                  (.inr hbegun') hlist'
                exact ⟨_, d :: ds, left, hbatch.cons hvisible hlength (by omega) hrecord hrec hdname⟩

variable (env) in
/-- A call returns the records of the entries that it comes to. The index is less than the
mark of the end as long as no more were returned. -/
theorem diskGetdents_spec {directory : List UInt16} (hzero : 0 ∉ directory)
    (hbuffer : buffer.length < 4294967296) (hbelow : Below directory s.path)
    (hname : s.path.object = 0 → s.path.name = pattern)
    (h : At env.dir pattern s.finds s.path.object s.index entries returned)
    (hlist : Listable env.fs directory entries) (hcount : returned < 4294967294) :
    ∃ n ds left, Batch env.dir pattern buffer 0 entries returned (diskGetdents env buffer s) n ds
      left := by
  rw [diskGetdents]
  rcases h with h | h
  · have hindex : s.index ≠ 0xFFFFFFFF := by
      rcases h with h | h
      · rw [h.index_eq]
        decide
      -- the index never gets to the one that marks the end, as there are not so many entries
      · intro hend
        have htoNat : (UInt32.ofNat (returned + 1)).toNat = returned + 1 :=
          UInt32.toNat_ofNat_of_lt' (by
            change returned + 1 < 4294967296
            omega)
        rw [h.index_eq] at hend
        rw [hend] at htoNat
        change 4294967295 = returned + 1 at htoNat
        omega
    have hrest : (s.rest env).length = entries.length := by
      rw [DirStream.rest]
      rcases h with h | h
      · rw [if_pos h.object_eq, hname h.object_eq, h.dir_eq, List.length_map]
      · rw [if_neg h.object_ne_zero, h.rest_eq, List.length_map]
    rw [if_neg hindex, hrest]
    exact getdentsLoop_spec hzero _ (Nat.lt_succ_self _) (UInt32.toNat_ofNat_of_lt' hbuffer) hbelow
      hname h hlist
  · obtain rfl := h.entries_eq
    rw [if_pos h.index_eq]
    exact ⟨0, [], [], .nil (fun _ => rfl) (.inr h)⟩

end

end MinC.Vfs
