import MinC.Lib.Cells

/-!
Blocks of memory.

A block is as large as its header says, which counts itself and whole pages.
Windows moves a block that is to grow, or refuses; what it adds holds whatever
it holds. A write outside of a block has no result. Lengths are those of
strings in one process, and do not reach the sizes at which a `ULONG` or an
`int` wraps.
-/

namespace MinC.Win

open MinC.Lib

/-- What memory is asked from: the size of a page, the sizes `LocalReAlloc`
grants, and what it adds when it grants one. -/
structure WinHeap where
  pageSize : Nat
  grants : Nat → Bool
  added : Nat → Nat → UInt8
  pageSize_pos : 0 < pageSize

/-- The same heap with other memory to add. -/
def WinHeap.adding (heap : WinHeap) (added : Nat → Nat → UInt8) : WinHeap :=
  { heap with added := added }

/-- The cells of a block behind its header. -/
structure Block where
  bytes : List UInt8

/-- `sizeof(ULONG)`, the header of a block. -/
def headerSize : Nat := 4

/-- The size that is kept in the header. -/
def Block.size (block : Block) : Nat := block.bytes.length + headerSize

/-- Write cells, which only has a result inside of the block. -/
def Block.write (block : Block) (i : Nat) (cells : List UInt8) : Option Block :=
  if i + cells.length ≤ block.bytes.length then some ⟨poke block.bytes i cells⟩ else none

section
variable (heap : WinHeap)

/-- The loop that adds pages to a size until another one is reached. A page is
not empty, so that the size to reach is fuel enough. -/
def addPages : Nat → Nat → Nat → Nat
  | 0, _, ulSize => ulSize
  | n + 1, size, ulSize => if ulSize < size then addPages n size (ulSize + heap.pageSize) else ulSize

/-- A size in whole pages, beginning with one. -/
def pagesFrom (ulSize size : Nat) : Nat := addPages heap size size ulSize

def winMalloc (size : Nat) : Block :=
  ⟨List.replicate (pagesFrom heap 0 (size + headerSize) - headerSize) 0⟩

/-- The size of a block after a request, if it is granted. -/
def grown (ulSize size : Nat) : Option Nat :=
  if ulSize < size + headerSize then
    if heap.grants (pagesFrom heap ulSize (size + headerSize)) then
      some (pagesFrom heap ulSize (size + headerSize))
    else none
  else some ulSize

/-- A block that was moved: what is behind the end of the old one was not
written. -/
def Block.moved (block : Block) (ulSize : Nat) : Block :=
  ⟨block.bytes ++ (List.range (ulSize - block.size)).map (heap.added ulSize)⟩

def winRealloc (size : Nat) (block : Block) : Option Block :=
  (grown heap block.size size).map fun ulSize => block.moved heap ulSize

/-! ### Sizes -/

/-- A size, rounded up to whole pages. -/
def pages (size : Nat) : Nat := heap.pageSize * ((size + (heap.pageSize - 1)) / heap.pageSize)

@[simp] theorem pages_adding (added : Nat → Nat → UInt8) (size : Nat) :
    pages (heap.adding added) size = pages heap size := rfl

theorem pages_dvd (size : Nat) : heap.pageSize ∣ pages heap size := Nat.dvd_mul_right _ _

/-- The rounded size is the least one in whole pages. -/
theorem pages_le_iff {size ulSize : Nat} (h : heap.pageSize ∣ ulSize) :
    pages heap size ≤ ulSize ↔ size ≤ ulSize := by
  obtain ⟨k, rfl⟩ := h
  have hpos := heap.pageSize_pos
  calc pages heap size ≤ heap.pageSize * k
      ↔ (size + (heap.pageSize - 1)) / heap.pageSize ≤ k := Nat.mul_le_mul_left_iff hpos
    _ ↔ size + (heap.pageSize - 1) ≤ heap.pageSize * k + (heap.pageSize - 1) :=
        Nat.div_le_iff_le_mul_add_pred hpos
    _ ↔ size ≤ heap.pageSize * k := Nat.add_le_add_iff_right

theorem le_pages (size : Nat) : size ≤ pages heap size :=
  (pages_le_iff heap (pages_dvd heap size)).mp (Nat.le_refl _)

theorem addPages_eq (n : Nat) {size ulSize : Nat} (h : heap.pageSize ∣ ulSize)
    (hn : size ≤ ulSize + n) : addPages heap n size ulSize = max ulSize (pages heap size) := by
  induction n generalizing ulSize with
  | zero => exact (Nat.max_eq_left ((pages_le_iff heap h).mpr hn)).symm
  | succ n ih =>
      have hpos := heap.pageSize_pos
      rw [addPages]
      split_ifs with hlt
      · have hnext : heap.pageSize ∣ ulSize + heap.pageSize := Nat.dvd_add_self_right.mpr h
        have hover : ulSize < pages heap size := Nat.lt_of_lt_of_le hlt (le_pages heap size)
        have hpage : ulSize + heap.pageSize ≤ pages heap size := by
          obtain ⟨k, rfl⟩ := h
          obtain ⟨m, hm⟩ := pages_dvd heap size
          rw [hm] at hover ⊢
          rw [← Nat.mul_succ]
          exact Nat.mul_le_mul_left _ (Nat.lt_of_mul_lt_mul_left hover)
        rw [ih hnext (by omega), Nat.max_eq_right hpage, Nat.max_eq_right (Nat.le_of_lt hover)]
      · exact (Nat.max_eq_left ((pages_le_iff heap h).mpr (Nat.le_of_not_lt hlt))).symm

theorem pagesFrom_eq {size ulSize : Nat} (h : heap.pageSize ∣ ulSize) :
    pagesFrom heap ulSize size = max ulSize (pages heap size) :=
  addPages_eq heap size h (Nat.le_add_left _ _)

/-- A request is granted that the block has room for, or that Windows grants. -/
def Granted (ulSize size : Nat) : Prop :=
  size + headerSize ≤ ulSize ∨ heap.grants (pages heap (size + headerSize)) = true

theorem grown_eq_some_iff {ulSize size ulSize' : Nat} (h : heap.pageSize ∣ ulSize) :
    grown heap ulSize size = some ulSize' ↔
      Granted heap ulSize size ∧ ulSize' = max ulSize (pages heap (size + headerSize)) := by
  rw [grown, Granted, pagesFrom_eq heap h]
  by_cases hlt : ulSize < size + headerSize
  · have hmax : max ulSize (pages heap (size + headerSize)) = pages heap (size + headerSize) :=
      Nat.max_eq_right (Nat.le_trans (Nat.le_of_lt hlt) (le_pages heap _))
    rw [if_pos hlt, hmax]
    simp only [Nat.not_le.mpr hlt, false_or]
    split_ifs with hgrants
    · rw [Option.some_inj]
      exact ⟨fun hsame => ⟨hgrants, hsame.symm⟩, fun h => h.2.symm⟩
    · simp [hgrants]
  · have hle := Nat.le_of_not_lt hlt
    have hmax : max ulSize (pages heap (size + headerSize)) = ulSize :=
      Nat.max_eq_left ((pages_le_iff heap h).mpr hle)
    rw [if_neg hlt, hmax, Option.some_inj]
    exact ⟨fun hsame => ⟨.inl hle, hsame.symm⟩, fun h => h.2.symm⟩

/-! ### Blocks -/

theorem winMalloc_size (size : Nat) :
    (winMalloc heap size).size = pages heap (size + headerSize) := by
  have hle := le_pages heap (size + headerSize)
  rw [Block.size, winMalloc, pagesFrom_eq heap (Nat.dvd_zero _), Nat.zero_max,
    List.length_replicate]
  omega

theorem winRealloc_size {size : Nat} {block block' : Block} (hpages : heap.pageSize ∣ block.size)
    (h : winRealloc heap size block = some block') :
    grown heap block.size size = some block'.size ∧ heap.pageSize ∣ block'.size := by
  obtain ⟨ulSize, hgrown, rfl⟩ := Option.map_eq_some_iff.mp h
  obtain ⟨_, hmax⟩ := (grown_eq_some_iff heap hpages).mp hgrown
  have hsize : (block.moved heap ulSize).size = ulSize := by
    have hle : block.size ≤ ulSize := hmax ▸ Nat.le_max_left _ _
    rw [Block.size, Block.moved, List.length_append, List.length_map, List.length_range]
    rw [Block.size] at hle ⊢
    omega
  refine ⟨hsize.symm ▸ hgrown, ?_⟩
  rw [hsize, hmax]
  rcases Nat.le_total block.size (pages heap (size + headerSize)) with hle | hle
  · exact (Nat.max_eq_right hle).symm ▸ pages_dvd heap _
  · exact (Nat.max_eq_left hle).symm ▸ hpages

end

theorem Block.write_eq_some_iff {block block' : Block} {i : Nat} {cells : List UInt8} :
    block.write i cells = some block' ↔
      i + cells.length ≤ block.bytes.length ∧ block' = ⟨poke block.bytes i cells⟩ := by
  rw [Block.write]
  split_ifs with h
  · simp [h, eq_comm]
  · simp [h]

theorem Block.write_bind_isSome {α : Type*} (block : Block) (i : Nat) (cells : List UInt8)
    (f : Block → Option α) :
    ((block.write i cells).bind f).isSome ↔
      i + cells.length ≤ block.bytes.length ∧ (f ⟨poke block.bytes i cells⟩).isSome := by
  rw [Block.write]
  split_ifs with h
  · exact (and_iff_right h).symm
  · exact iff_of_false Bool.false_ne_true fun hroom => h hroom.1

theorem Block.write_size {block block' : Block} {i : Nat} {cells : List UInt8}
    (h : block.write i cells = some block') : block'.size = block.size := by
  obtain ⟨hle, rfl⟩ := Block.write_eq_some_iff.mp h
  rw [Block.size, Block.size, length_poke hle]

end MinC.Win
