import MinC.Lib.Counters
import MinC.Lib.Runs
import MinC.Win.Stdlib

/-!
Blocks of memory whose sizes are words.

The size of a block is added up in a `ULONG`, beginning with the size of the
header. Both additions wrap. A request that wraps gets a block of a page, or the
one it has already, and one whose pages do not fit into a `ULONG` is never done
with. Every other is a request of `Stdlib`, where sizes are numbers.
-/

namespace MinC.Win

open MinC.Lib

/-- What memory is asked from, for every call: the size of a page, which divides the
addresses, the sizes `LocalAlloc` and `LocalReAlloc` grant, and what is added when the
latter grants one. -/
structure LocalHeap where
  pageSize : UInt32
  grants : Nat → UInt32 → Bool
  added : Nat → Nat → Nat → UInt8
  pageSize_dvd : pageSize.toNat ∣ 0x100000000

/-- A block: what is written in its header, and the cells behind the header. -/
structure HLocal where
  header : UInt32
  bytes : List UInt8

/-- How a call ends. It may tell the caller that there is no block; or write the header of
one that there is not; or not end. -/
inductive Ending
  | returned (block : HLocal)
  | failed
  | crashed
  | hung

namespace LocalHeap

/-- As many turns as a `ULONG` has values. A loop that has not ended after that does not
end. -/
def turns : Nat := 0x100000000

section
variable (heap : LocalHeap)

/-- The loop that adds pages to a size until another one is reached. -/
def addPages (size : UInt32) : Nat → UInt32 → Option UInt32
  | 0, _ => none
  | n + 1, ulSize =>
      if ulSize < size then addPages size n (ulSize + heap.pageSize) else some ulSize

/-- The `k`-th call. A block without bytes has its header behind its end. -/
def winMalloc (k : Nat) (size : UInt32) : Ending :=
  match heap.addPages (size + 4) turns 0 with
  | none => .hung
  | some ulSize =>
      if heap.grants k ulSize then
        .returned ⟨ulSize, List.replicate (ulSize.toNat - headerSize) 0⟩
      else .crashed

/-- What a block is after `LocalReAlloc`: what is behind the end of the old one was not
written. -/
def moved (k : Nat) (block : HLocal) (ulSize : UInt32) : HLocal where
  header := ulSize
  bytes := block.bytes ++
    (List.range (ulSize.toNat - headerSize - block.bytes.length)).map (heap.added k ulSize.toNat)

/-- The block is the one that is behind the caller's pointer. -/
def winRealloc (k : Nat) (size : UInt32) (block : HLocal) : Ending :=
  if block.header < size + 4 then
    match heap.addPages (size + 4) turns block.header with
    | none => .hung
    | some ulSize =>
        if heap.grants k ulSize then .returned (heap.moved k block ulSize) else .failed
  else .returned block

end

end LocalHeap

/-! ### Runs -/

/-- A process with its blocks. One that crashed, or is caught in a loop, makes no call. -/
structure HeapProcess where
  calls : Nat
  blocks : List HLocal
  running : Bool

def HeapProcess.start : HeapProcess := ⟨0, [], true⟩

/-- A call, or a store into a block by whoever asked for it. -/
inductive HeapCall
  | malloc (size : UInt32)
  | realloc (i : Nat) (size : UInt32)
  | store (i offset : Nat) (cell : UInt8)

def HLocal.store (offset : Nat) (cell : UInt8) (block : HLocal) : HLocal :=
  { block with bytes := block.bytes.set offset cell }

/-- The process after a call, with the blocks that it has if there is one. -/
def HeapProcess.after (p : HeapProcess) (blocks : HLocal → List HLocal) : Ending → HeapProcess
  | .returned block => { p with calls := p.calls + 1, blocks := blocks block }
  | .failed => { p with calls := p.calls + 1 }
  | .crashed => { p with running := false }
  | .hung => { p with running := false }

namespace LocalHeap

variable (heap : LocalHeap)

/-- A call of the process. There is no call for a block that it does not have. -/
def call (p : HeapProcess) : HeapCall → HeapProcess
  | .malloc size => p.after (fun block => p.blocks ++ [block]) (heap.winMalloc p.calls size)
  | .realloc i size =>
      match p.blocks[i]? with
      | none => p
      | some block => p.after (p.blocks.set i) (heap.winRealloc p.calls size block)
  | .store i offset cell => { p with blocks := p.blocks.modify i (HLocal.store offset cell) }

def step (p : HeapProcess) (c : HeapCall) : HeapProcess := if p.running then heap.call p c else p

end LocalHeap

/-! ### What a call is for -/

/-- There is room for so many bytes, and the header counts them and itself. -/
structure HLocal.Holds (block : HLocal) (size : UInt32) : Prop where
  room : size.toNat ≤ block.bytes.length
  header : block.header.toNat = headerSize + block.bytes.length

namespace LocalHeap

variable (heap : LocalHeap)

/-- There is a `ULONG` that is a number of pages, and has room for the header and so many
bytes. -/
def Representable (size : UInt32) : Prop :=
  ∃ ulSize : UInt32, heap.pageSize.toNat ∣ ulSize.toNat ∧
    size.toNat + headerSize ≤ ulSize.toNat

/-- A call for so many bytes ends, with a block that holds them if it succeeds, and with a
failure if there is no such block. -/
structure Serves (size : UInt32) (ending : Ending) : Prop where
  ends : ending ≠ .hung
  holds : ∀ block, ending = .returned block → block.Holds size
  fails : ¬heap.Representable size → ending = .failed

/-- Calls for a block serve whoever makes them, and a block that is to be larger keeps what
was in it. -/
def CallServes (p : HeapProcess) (c : HeapCall) : Prop :=
  p.running = true →
    match c with
    | .malloc size => heap.Serves size (heap.winMalloc p.calls size)
    | .realloc i size => ∀ block, p.blocks[i]? = some block →
        heap.Serves size (heap.winRealloc p.calls size block) ∧
          ∀ block', heap.winRealloc p.calls size block = .returned block' →
            block.bytes <+: block'.bytes
    | .store _ _ _ => True

/-- The header, the bytes and a page are no more than a `ULONG` can count. -/
def Fits (size : UInt32) : Prop :=
  size.toNat + headerSize + heap.pageSize.toNat ≤ 0x100000000

/-- What is asked for in a call, if there is one, fits. -/
def CallFits (p : HeapProcess) (c : HeapCall) : Prop :=
  p.running = true →
    match c with
    | .malloc size => heap.Fits size
    | .realloc i size => i < p.blocks.length → heap.Fits size
    | .store _ _ _ => True

end LocalHeap

/-! ### Adding up pages -/

namespace LocalHeap

section
variable (heap : LocalHeap)

theorem pageSize_pos : 0 < heap.pageSize.toNat :=
  Nat.pos_of_dvd_of_pos heap.pageSize_dvd (by decide)

/-- No page is a number of pages. -/
theorem pages_zero : heap.pageSize.toNat ∣ (0 : UInt32).toNat := Nat.dvd_zero _

theorem addPages_toNat (size : UInt32) (n : Nat) (ulSize : UInt32) :
    (heap.addPages size n ulSize).map UInt32.toNat =
      countUp 0x100000000 heap.pageSize.toNat size.toNat n ulSize.toNat := by
  induction n generalizing ulSize with
  | zero => rfl
  | succ n ih =>
      rw [addPages, countUp]
      by_cases hlt : ulSize < size
      · rw [if_pos hlt, if_pos (UInt32.lt_iff_toNat_lt.mp hlt), ih, UInt32.toNat_add]
      · rw [if_neg hlt, if_neg (mt UInt32.lt_iff_toNat_lt.mpr hlt)]
        rfl

/-- A size that is not too large is reached, at the first number of pages. -/
theorem addPages_ends (size : UInt32) {ulSize : UInt32} (hpages : heap.pageSize.toNat ∣ ulSize.toNat)
    (hsize : size.toNat + heap.pageSize.toNat ≤ 0x100000000) :
    ∃ r, heap.addPages size turns ulSize = some r ∧
      IsLeast (Reached heap.pageSize.toNat size.toNat ulSize.toNat) r.toNat := by
  have hlt := size.toNat_lt
  obtain ⟨m, hm, hleast⟩ := countUp_ends (n := turns - 1) heap.pageSize_pos hpages hsize
    (by simp only [turns]; omega)
  rw [show turns - 1 + 1 = turns from rfl, ← addPages_toNat] at hm
  obtain ⟨r, hr, rfl⟩ := Option.map_eq_some_iff.mp hm
  exact ⟨r, hr, hleast⟩

/-- Any other is not, however many turns are made. -/
theorem addPages_never {size ulSize : UInt32} (hpages : heap.pageSize.toNat ∣ ulSize.toNat)
    (hsize : 0x100000000 < size.toNat + heap.pageSize.toNat) (n : Nat) :
    heap.addPages size n ulSize = none := by
  have hnever := countUp_never heap.pageSize_dvd hpages ulSize.toNat_lt hsize n
  rw [← addPages_toNat] at hnever
  exact Option.map_eq_none_iff.mp hnever

/-- The turns are enough to know that a loop does not end. -/
theorem addPages_turns_eq_none_iff {size ulSize : UInt32}
    (hpages : heap.pageSize.toNat ∣ ulSize.toNat) :
    heap.addPages size turns ulSize = none ↔ ∀ n, heap.addPages size n ulSize = none := by
  refine ⟨fun h => ?_, fun h => h turns⟩
  by_cases hsize : size.toNat + heap.pageSize.toNat ≤ 0x100000000
  · obtain ⟨r, hr, _⟩ := heap.addPages_ends size hpages hsize
    rw [hr] at h
    cases h
  · exact heap.addPages_never hpages (Nat.lt_of_not_le hsize)

/-! ### The header -/

theorem toNat_add_header {size : UInt32} (h : size.toNat + headerSize < 0x100000000) :
    (size + 4).toNat = size.toNat + headerSize := by
  rw [UInt32.toNat_add]
  exact Nat.mod_eq_of_lt h

/-- A size that fits does not wrap. -/
theorem Fits.toNat_add {size : UInt32} (h : heap.Fits size) :
    (size + 4).toNat = size.toNat + headerSize := by
  have hpos := heap.pageSize_pos
  rw [Fits] at h
  exact toNat_add_header (by omega)

/-- A size that wraps is smaller than the header. -/
theorem toNat_add_header_lt {size : UInt32} (h : 0x100000000 ≤ size.toNat + headerSize) :
    (size + 4).toNat < headerSize := by
  have hlt := size.toNat_lt
  have hfour : (4 : UInt32).toNat = 4 := rfl
  rw [headerSize] at h ⊢
  rw [UInt32.toNat_add, hfour]
  omega

/-! ### One call -/

/-- The header counts the block and itself, in whole pages. -/
structure Sound (block : HLocal) : Prop where
  header : block.header.toNat = headerSize + block.bytes.length
  pages : heap.pageSize.toNat ∣ block.header.toNat

/-- A request that fits is for the first number of pages that has room for it, from whatever
the size of the block is on. -/
theorem addPages_fits {size ulSize : UInt32} (hpages : heap.pageSize.toNat ∣ ulSize.toNat)
    (hfits : heap.Fits size) :
    ∃ r, heap.addPages (size + 4) turns ulSize = some r ∧
      IsLeast (Reached heap.pageSize.toNat (size.toNat + headerSize) ulSize.toNat) r.toNat := by
  have hsize := hfits.toNat_add
  rw [← hsize]
  refine heap.addPages_ends (size + 4) hpages ?_
  rw [hsize]
  exact hfits

theorem representable_iff_fits (size : UInt32) : heap.Representable size ↔ heap.Fits size := by
  constructor
  · rintro ⟨ulSize, hpages, hroom⟩
    have hle := add_step_le heap.pageSize_dvd hpages ulSize.toNat_lt
    rw [Fits]
    omega
  · intro hfits
    obtain ⟨r, -, ⟨-, hroom, hpages⟩, -⟩ :=
      heap.addPages_fits heap.pages_zero hfits
    exact ⟨r, hpages, hroom⟩

theorem winMalloc_returned {k : Nat} {size : UInt32} {block : HLocal} (hfits : heap.Fits size)
    (h : heap.winMalloc k size = .returned block) :
    size.toNat ≤ block.bytes.length ∧ heap.Sound block := by
  obtain ⟨r, hr, ⟨-, hroom, hpages⟩, -⟩ :=
    heap.addPages_fits heap.pages_zero hfits
  rw [winMalloc, hr] at h
  dsimp only at h
  split_ifs at h with hgrant
  cases h
  have hlength : (List.replicate (r.toNat - headerSize) (0 : UInt8)).length =
      r.toNat - headerSize := List.length_replicate
  refine ⟨?_, ?_, hpages⟩
  · dsimp only
    omega
  · dsimp only
    omega

theorem winMalloc_serves_iff (k : Nat) (size : UInt32) :
    heap.Serves size (heap.winMalloc k size) ↔ heap.Fits size := by
  constructor
  · intro h
    by_contra hfits
    -- it does not fail, whatever it is asked for
    have hfails := h.fails (mt (heap.representable_iff_fits size).mp hfits)
    rw [winMalloc] at hfails
    split at hfails
    · cases hfails
    · split_ifs at hfails
  · intro hfits
    refine ⟨?_, fun block h => ?_, fun h => ?_⟩
    · obtain ⟨r, hr, -⟩ := heap.addPages_fits heap.pages_zero hfits
      rw [winMalloc, hr]
      dsimp only
      split_ifs <;> exact Ending.noConfusion
    · obtain ⟨hroom, hsound⟩ := heap.winMalloc_returned hfits h
      exact ⟨hroom, hsound.header⟩
    · exact absurd ((heap.representable_iff_fits size).mpr hfits) h

theorem moved_length {k : Nat} {block : HLocal} {ulSize : UInt32}
    (hheader : block.header.toNat = headerSize + block.bytes.length)
    (hle : block.header.toNat ≤ ulSize.toNat) :
    headerSize + (heap.moved k block ulSize).bytes.length = ulSize.toNat := by
  rw [moved, List.length_append, List.length_map, List.length_range]
  omega

/-- A request that fits is granted, with all that was in the block, or refused. -/
theorem winRealloc_fits {size : UInt32} {block : HLocal} (hsound : heap.Sound block)
    (hfits : heap.Fits size) (k : Nat) :
    heap.winRealloc k size block = .failed ∨
      ∃ block', heap.winRealloc k size block = .returned block' ∧
        size.toNat ≤ block'.bytes.length ∧ heap.Sound block' ∧ block.bytes <+: block'.bytes := by
  obtain ⟨hheader, hpages⟩ := hsound
  obtain ⟨r, hr, ⟨hle, hroom, hpages'⟩, -⟩ := heap.addPages_fits hpages hfits
  rw [winRealloc]
  by_cases hlt : block.header < size + 4
  · rw [if_pos hlt, hr]
    dsimp only
    by_cases hgrant : heap.grants k r = true
    · have hlength := heap.moved_length (k := k) hheader hle
      rw [if_pos hgrant]
      exact .inr ⟨_, rfl, by omega, ⟨hlength.symm, hpages'⟩, List.prefix_append _ _⟩
    · rw [if_neg hgrant]
      exact .inl rfl
  · rw [if_neg hlt]
    rw [UInt32.lt_iff_toNat_lt, hfits.toNat_add] at hlt
    exact .inr ⟨block, rfl, by omega, ⟨hheader, hpages⟩, List.prefix_refl _⟩

/-- A request that does not fit is never done with, or, if the header is what wraps, is
granted as it is. -/
theorem winRealloc_unfit {size : UInt32} {block : HLocal} (hsound : heap.Sound block)
    (hfits : ¬heap.Fits size) (k : Nat) :
    heap.winRealloc k size block = .hung ∨ heap.winRealloc k size block = .returned block := by
  obtain ⟨hheader, hpages⟩ := hsound
  rw [Fits] at hfits
  rw [winRealloc]
  by_cases hwrap : size.toNat + headerSize < 0x100000000
  · have hsize := toNat_add_header hwrap
    have hle := add_step_le heap.pageSize_dvd hpages block.header.toNat_lt
    have hlt : block.header < size + 4 := by
      rw [UInt32.lt_iff_toNat_lt]
      omega
    rw [if_pos hlt, heap.addPages_never hpages (by omega)]
    exact .inl rfl
  · have hsmall := toNat_add_header_lt (Nat.le_of_not_lt hwrap)
    have hlt : ¬block.header < size + 4 := by
      rw [UInt32.lt_iff_toNat_lt]
      omega
    rw [if_neg hlt]
    exact .inr rfl

theorem winRealloc_serves_iff {size : UInt32} {block : HLocal} (hsound : heap.Sound block)
    (k : Nat) :
    (heap.Serves size (heap.winRealloc k size block) ∧
      ∀ block', heap.winRealloc k size block = .returned block' →
        block.bytes <+: block'.bytes) ↔ heap.Fits size := by
  constructor
  · rintro ⟨hserves, -⟩
    by_contra hfits
    have hfails := hserves.fails (mt (heap.representable_iff_fits size).mp hfits)
    rcases heap.winRealloc_unfit hsound hfits k with h | h
    · rw [h] at hfails
      cases hfails
    · rw [h] at hfails
      cases hfails
  · intro hfits
    have hrepr := (heap.representable_iff_fits size).mpr hfits
    rcases heap.winRealloc_fits hsound hfits k with h | ⟨block', h, hroom, hsound', hkept⟩
    · rw [h]
      refine ⟨⟨Ending.noConfusion, ?_, fun _ => rfl⟩, ?_⟩ <;> rintro _ ⟨⟩
    · rw [h]
      refine ⟨⟨Ending.noConfusion, ?_, fun h => absurd hrepr h⟩, ?_⟩
      · rintro _ ⟨⟩
        exact ⟨hroom, hsound'.header⟩
      · rintro _ ⟨⟩
        exact hkept

/-! ### Sizes that are numbers -/

/-- The heap as the `k`-th call finds it, with sizes that are numbers. -/
def atCall (k : Nat) : WinHeap where
  pageSize := heap.pageSize.toNat
  grants := fun n => heap.grants k (UInt32.ofNat n)
  added := heap.added k
  pageSize_pos := heap.pageSize_pos

theorem isLeast_pages (winHeap : WinHeap) {ulSize : Nat} (hpages : winHeap.pageSize ∣ ulSize)
    (size : Nat) :
    IsLeast (Reached winHeap.pageSize size ulSize) (max ulSize (pages winHeap size)) := by
  refine ⟨⟨Nat.le_max_left _ _, ?_, ?_⟩, fun m h => ?_⟩
  · exact Nat.le_trans (le_pages winHeap size) (Nat.le_max_right _ _)
  · rcases Nat.le_total ulSize (pages winHeap size) with hle | hle
    · exact (Nat.max_eq_right hle).symm ▸ pages_dvd winHeap size
    · exact (Nat.max_eq_left hle).symm ▸ hpages
  · exact Nat.max_le.mpr ⟨h.1, (pages_le_iff winHeap h.2.2).mpr h.2.1⟩

/-- The words are added up as the numbers are. -/
theorem addPages_eq_pagesFrom (k : Nat) {size ulSize : UInt32}
    (hpages : heap.pageSize.toNat ∣ ulSize.toNat) (hfits : heap.Fits size) :
    ∃ r, heap.addPages (size + 4) turns ulSize = some r ∧
      r.toNat = pagesFrom (heap.atCall k) ulSize.toNat (size.toNat + headerSize) := by
  obtain ⟨r, hr, hleast⟩ := heap.addPages_fits hpages hfits
  refine ⟨r, hr, ?_⟩
  rw [pagesFrom_eq (heap.atCall k) hpages]
  exact hleast.unique (isLeast_pages (heap.atCall k) hpages _)

theorem winMalloc_eq (k : Nat) {size : UInt32} (hfits : heap.Fits size) :
    heap.winMalloc k size = .crashed ∨ ∃ block, heap.winMalloc k size = .returned block ∧
      block.bytes = (MinC.Win.winMalloc (heap.atCall k) size.toNat).bytes := by
  obtain ⟨r, hr, hpagesFrom⟩ := heap.addPages_eq_pagesFrom k heap.pages_zero hfits
  rw [winMalloc, hr]
  dsimp only
  split_ifs
  · exact .inr ⟨_, rfl, by rw [hpagesFrom]; rfl⟩
  · exact .inl rfl

/-- A block that is moved is what it is with sizes that are numbers. -/
theorem moved_eq (k : Nat) {block : HLocal} {ulSize : UInt32}
    (hheader : block.header.toNat = headerSize + block.bytes.length)
    (hle : block.header.toNat ≤ ulSize.toNat) :
    (⟨UInt32.ofNat (Block.moved (heap.atCall k) ⟨block.bytes⟩ ulSize.toNat).size,
      (Block.moved (heap.atCall k) ⟨block.bytes⟩ ulSize.toNat).bytes⟩ : HLocal) =
      heap.moved k block ulSize := by
  have hbytes : (Block.moved (heap.atCall k) ⟨block.bytes⟩ ulSize.toNat).bytes =
      (heap.moved k block ulSize).bytes := by
    rw [Block.moved, moved, Block.size, Nat.sub_sub, Nat.add_comm headerSize]
    rfl
  have hsize : (Block.moved (heap.atCall k) ⟨block.bytes⟩ ulSize.toNat).size = ulSize.toNat := by
    rw [Block.size, hbytes, Nat.add_comm, heap.moved_length hheader hle]
  rw [hbytes, hsize, UInt32.ofNat_toNat]
  rfl

theorem moved_header (k : Nat) {block : HLocal}
    (hheader : block.header.toNat = headerSize + block.bytes.length) :
    heap.moved k block block.header = block := by
  rw [moved, hheader, Nat.add_sub_cancel_left, Nat.sub_self, List.range_zero, List.map_nil,
    List.append_nil]

theorem winRealloc_eq (k : Nat) {size : UInt32} {block : HLocal} (hsound : heap.Sound block)
    (hfits : heap.Fits size) :
    heap.winRealloc k size block =
      (MinC.Win.winRealloc (heap.atCall k) size.toNat ⟨block.bytes⟩).elim .failed
        fun block' => .returned ⟨UInt32.ofNat block'.size, block'.bytes⟩ := by
  obtain ⟨hheader, hpages⟩ := hsound
  obtain ⟨r, hr, hpagesFrom⟩ := heap.addPages_eq_pagesFrom k hpages hfits
  have hsize : Block.size ⟨block.bytes⟩ = block.header.toNat := by
    rw [Block.size, hheader, Nat.add_comm]
  have hword := hfits.toNat_add
  rw [winRealloc, MinC.Win.winRealloc, grown, hsize]
  -- without a wrap, the words compare as the numbers do
  by_cases hlt : block.header < size + 4
  · have hle : block.header.toNat ≤ r.toNat := by
      rw [hpagesFrom, pagesFrom_eq (heap.atCall k) hpages]
      exact Nat.le_max_left _ _
    have hnat : block.header.toNat < size.toNat + headerSize := hword ▸ UInt32.lt_iff_toNat_lt.mp hlt
    have hgrants : (heap.atCall k).grants r.toNat = heap.grants k r :=
      congrArg (heap.grants k) (UInt32.ofNat_toNat)
    rw [if_pos hlt, hr, if_pos hnat, ← hpagesFrom, hgrants]
    dsimp only
    split_ifs with hgrant
    · exact congrArg Ending.returned (heap.moved_eq k hheader hle).symm
    · rfl
  · have hnat : ¬block.header.toNat < size.toNat + headerSize := by
      rw [← hword]
      exact mt UInt32.lt_iff_toNat_lt.mpr hlt
    have hmoved := heap.moved_eq k hheader (Nat.le_refl _)
    rw [heap.moved_header k hheader] at hmoved
    rw [if_neg hlt, if_neg hnat]
    exact congrArg Ending.returned hmoved.symm

/-! ### Runs of calls -/

/-- All the blocks of the process are sound. -/
def AllSound (p : HeapProcess) : Prop := ∀ block ∈ p.blocks, heap.Sound block

variable {heap}

theorem Sound.store {block : HLocal} (h : heap.Sound block) (offset : Nat) (cell : UInt8) :
    heap.Sound (block.store offset cell) := by
  refine ⟨?_, h.pages⟩
  rw [HLocal.store, List.length_set]
  exact h.header

theorem AllSound.after {p : HeapProcess} (hp : heap.AllSound p) {blocks : HLocal → List HLocal}
    {ending : Ending}
    (h : ∀ block, ending = .returned block → ∀ b ∈ blocks block, heap.Sound b) :
    heap.AllSound (p.after blocks ending) := by
  cases ending with
  | returned block => exact h block rfl
  | failed => exact hp
  | crashed => exact hp
  | hung => exact hp

/-- Calls for what fits leave the blocks sound. -/
theorem allSound_step {p : HeapProcess} {c : HeapCall} (hp : heap.AllSound p)
    (hfits : heap.CallFits p c) : heap.AllSound (heap.step p c) := by
  refine guarded hp fun hrunning => ?_
  have hcall := hfits hrunning
  -- a call adds or replaces the block it returns, and a store is behind the header
  cases c with
  | malloc size =>
      refine hp.after fun block h b hb => ?_
      rcases List.mem_append.mp hb with hold | hnew
      · exact hp b hold
      · rw [List.mem_singleton.mp hnew]
        exact (heap.winMalloc_returned hcall h).2
  | realloc i size =>
      rw [call]
      split
      · exact hp
      · rename_i block hblock
        have hi := (List.getElem?_eq_some_iff.mp hblock).1
        refine hp.after fun block' h b hb => ?_
        rcases List.mem_or_eq_of_mem_set hb with hold | hnew
        · exact hp b hold
        · rw [hnew]
          have hsound := hp block (List.mem_of_getElem? hblock)
          rcases heap.winRealloc_fits hsound (hcall hi) p.calls with hfailed | ⟨_, hret, -, hs, -⟩
          · rw [hfailed] at h
            cases h
          · rw [hret] at h
            cases h
            exact hs
  | store i offset cell =>
      intro b hb
      obtain ⟨j, hj⟩ := List.mem_iff_getElem?.mp hb
      rw [call, List.getElem?_modify] at hj
      obtain ⟨old, hold, rfl⟩ := Option.map_eq_some_iff.mp hj
      have hsound := hp old (List.mem_of_getElem? hold)
      split_ifs
      · exact hsound.store offset cell
      · exact hsound

theorem callServes_iff {p : HeapProcess} (hp : heap.AllSound p) (c : HeapCall) :
    heap.CallServes p c ↔ heap.CallFits p c := by
  refine imp_congr_right fun _ => ?_
  cases c with
  | malloc size => exact heap.winMalloc_serves_iff p.calls size
  | realloc i size =>
      constructor
      · intro h hi
        have hblock := List.getElem?_eq_getElem hi
        have hsound := hp _ (List.getElem_mem hi)
        exact (heap.winRealloc_serves_iff hsound p.calls).mp (h _ hblock)
      · intro h block hblock
        have hsound := hp block (List.mem_of_getElem? hblock)
        exact (heap.winRealloc_serves_iff hsound p.calls).mpr
          (h (List.getElem?_eq_some_iff.mp hblock).1)
  | store i offset cell => exact Iff.rfl

end

end LocalHeap

theorem allSound_start (heap : LocalHeap) : heap.AllSound HeapProcess.start :=
  fun _ h => absurd h List.not_mem_nil

/-- A loop that has not ended after the turns that are counted never ends, and requests that
fit are served as those of a heap whose sizes are numbers. -/
structure LocalHeap.Counted (heap : LocalHeap) : Prop where
  turns : ∀ size ulSize : UInt32, heap.pageSize.toNat ∣ ulSize.toNat →
    (heap.addPages size LocalHeap.turns ulSize = none ↔ ∀ n, heap.addPages size n ulSize = none)
  malloc : ∀ (k : Nat) (size : UInt32), heap.Fits size → heap.winMalloc k size = .crashed ∨
    ∃ block, heap.winMalloc k size = .returned block ∧
      block.bytes = (MinC.Win.winMalloc (heap.atCall k) size.toNat).bytes
  realloc : ∀ (k : Nat) (size : UInt32) (block : HLocal), heap.Sound block → heap.Fits size →
    heap.winRealloc k size block =
      (MinC.Win.winRealloc (heap.atCall k) size.toNat ⟨block.bytes⟩).elim .failed
        fun block' => .returned ⟨UInt32.ofNat block'.size, block'.bytes⟩

theorem LocalHeap.counted (heap : LocalHeap) : heap.Counted where
  turns _ _ := heap.addPages_turns_eq_none_iff
  malloc k _ := heap.winMalloc_eq k
  realloc k _ _ := heap.winRealloc_eq k

/-- In a run of calls every call serves, exactly when what is asked for in every call, the
header and a page are no more than a `ULONG` can count. -/
theorem heapCalls_serve_iff (heap : LocalHeap) (calls : List HeapCall) :
    (Along heap.step heap.CallServes HeapProcess.start calls ↔
      Along heap.step heap.CallFits HeapProcess.start calls) ∧ heap.Counted :=
  ⟨along_congr_of_kept (I := heap.AllSound) (fun _ _ => LocalHeap.allSound_step)
    (fun _ c hp => LocalHeap.callServes_iff hp c) (allSound_start heap) calls, heap.counted⟩

/-- A heap that grants everything, in pages of four kilobytes. -/
def pagedHeap : LocalHeap where
  pageSize := 4096
  grants := fun _ _ => true
  added := fun _ _ _ => 0
  pageSize_dvd := by decide

theorem pagedHeap_onePage {size : UInt32} (hpos : 0 < size + 4) (hle : size + 4 ≤ 4096) (k : Nat) :
    pagedHeap.winMalloc k size = .returned ⟨4096, List.replicate 4092 0⟩ := by
  have hpage : ¬0 + pagedHeap.pageSize < size + 4 := UInt32.not_lt.mpr hle
  have hpages : pagedHeap.addPages (size + 4) LocalHeap.turns 0 = some 4096 := by
    rw [show LocalHeap.turns = 0xFFFFFFFE + 1 + 1 from rfl, LocalHeap.addPages, if_pos hpos,
      LocalHeap.addPages, if_neg hpage]
    rfl
  rw [LocalHeap.winMalloc, hpages]
  rfl

/-- The largest sizes get a page, or what they have, and those before them nothing. -/
theorem heapCalls_not_served :
    pagedHeap.winMalloc 0 0xFFFFFFFF = .returned ⟨4096, List.replicate 4092 0⟩ ∧
      pagedHeap.winMalloc 0 0xFFFFF000 = .hung ∧
      pagedHeap.winRealloc 1 0xFFFFFFFE ⟨4096, List.replicate 4092 0⟩ =
        .returned ⟨4096, List.replicate 4092 0⟩ ∧
      ¬Along pagedHeap.step pagedHeap.CallServes HeapProcess.start [.malloc 0xFFFFFFFF] ∧
      ¬Along pagedHeap.step pagedHeap.CallServes HeapProcess.start [.malloc 0xFFFFF000] ∧
      ¬Along pagedHeap.step pagedHeap.CallServes HeapProcess.start
        [.malloc 1, .realloc 0 0xFFFFFFFE] := by
  have hone : pagedHeap.step HeapProcess.start (.malloc 1) =
      ⟨1, [⟨4096, List.replicate 4092 0⟩], true⟩ := by
    have hrunning : HeapProcess.start.running = true := rfl
    rw [LocalHeap.step, if_pos hrunning, LocalHeap.call,
      pagedHeap_onePage (by decide) (by decide)]
    rfl
  have hunfit : ∀ {size : UInt32}, 0xFFFFEFFC < size → ¬pagedHeap.Fits size := by
    intro size hsize hfits
    have hlt : 0xFFFFEFFC < size.toNat := hsize
    have hle : size.toNat + 4 + 4096 ≤ 0x100000000 := hfits
    omega
  refine ⟨pagedHeap_onePage (by decide) (by decide) 0, ?_, rfl, fun h => ?_, fun h => ?_, ?_⟩
  · rw [LocalHeap.winMalloc, pagedHeap.addPages_never (by decide) (by decide)]
  · exact hunfit (by decide) ((pagedHeap.winMalloc_serves_iff 0 _).mp (h.1 rfl))
  · exact hunfit (by decide) ((pagedHeap.winMalloc_serves_iff 0 _).mp (h.1 rfl))
  · rintro ⟨-, hserves, -⟩
    rw [hone] at hserves
    have hroom := ((hserves rfl _ rfl).1.holds _ rfl).room
    rw [List.length_replicate] at hroom
    exact absurd hroom (by decide)

end MinC.Win
