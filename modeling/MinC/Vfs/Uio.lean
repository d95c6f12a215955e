import MinC.Vfs.Unistd
import MinC.Win.Stdlib

/-!
Vectors of buffers.

Reading asks for each buffer on its own and adds up the counts. Only a read that
fails ends the loop; one that leaves the count alone is counted with the count
of the read before it. Writing puts the buffers one behind the other into a
block, which grows and may move with every one of them, and then writes once.
-/

namespace MinC.Vfs

open MinC.Lib MinC.Win

/-- `WIN_IOVEC`, a buffer whose length is a `DWORD`. -/
structure WinIovec where
  buffer : List UInt8
  length_lt : buffer.length < 0x100000000

def WinIovec.length (data : WinIovec) : UInt32 := UInt32.ofNat data.buffer.length

@[simp] theorem WinIovec.toNat_length (data : WinIovec) :
    data.length.toNat = data.buffer.length := UInt32.toNat_ofNat_of_lt' data.length_lt

/-! ### Reading -/

/-- What a reading of a vector leaves: its error, unless it is done, the number
it tells, what is in the buffers, and what the single reads left. -/
structure Readv where
  error : Option UInt32
  result : UInt32
  buffers : List (List UInt8)
  replies : List ReadReply

section
variable {σ : Type*} (read : UInt32 → σ → Option (ReadReply × σ))

/-- The loop, with the sum so far and the count that the last read left. -/
def readvLoop (result count : UInt32) : List WinIovec → σ → Option (Readv × σ)
  | [], s => some (⟨none, result, [], []⟩, s)
  | data :: rest, s =>
      (read data.length s).bind fun (reply, s) =>
        let count := reply.count.getD count
        let filled := poke data.buffer 0 reply.bytes
        if reply.error.isSome then
          some (⟨reply.error, result, filled :: rest.map WinIovec.buffer, [reply]⟩, s)
        else
          (readvLoop (result + count) count rest s).map fun (out, s) =>
            ({ out with buffers := filled :: out.buffers, replies := reply :: out.replies }, s)

def vfsReadv (data : List WinIovec) (s : σ) : Option (Readv × σ) := readvLoop read 0 0 data s

/-! ### What is asked for -/

/-- The replies if every buffer is asked for in turn, until a read fails. -/
def repliesTo : List WinIovec → σ → Option (List ReadReply)
  | [], _ => some []
  | data :: rest, s =>
      (read data.length s).bind fun (reply, s) =>
        if reply.error.isSome then some [reply] else (repliesTo rest s).map (reply :: ·)

end

/-- The error a loop ends with. -/
def finalError : List ReadReply → Option UInt32
  | [] => none
  | reply :: replies => if reply.error.isSome then reply.error else finalError replies

/-- The sum of the counts behind one that was left. -/
def sumOfCounts : UInt32 → List ReadReply → UInt32
  | _, [] => 0
  | count, reply :: replies =>
      if reply.error.isSome then 0
      else reply.count.getD count + sumOfCounts (reply.count.getD count) replies

/-- The buffers with what was put into them. -/
def filledBy : List (List UInt8) → List ReadReply → List (List UInt8)
  | buffer :: buffers, reply :: replies => poke buffer 0 reply.bytes :: filledBy buffers replies
  | buffers, _ => buffers

/-- A loop does what its replies say. -/
theorem readvLoop_eq {σ : Type*} (read : UInt32 → σ → Option (ReadReply × σ))
    (result count : UInt32) (data : List WinIovec) (s : σ) :
    (readvLoop read result count data s).map Prod.fst =
      (repliesTo read data s).map fun replies =>
        ⟨finalError replies, result + sumOfCounts count replies,
          filledBy (data.map WinIovec.buffer) replies, replies⟩ := by
  induction data generalizing result count s with
  | nil => simp [readvLoop, repliesTo, finalError, sumOfCounts, filledBy]
  | cons data rest ih =>
      rw [readvLoop, repliesTo]
      cases read data.length s with
      | none => rfl
      | some out =>
          obtain ⟨reply, s'⟩ := out
          dsimp only [Option.bind_some]
          -- an error ends the loop, and what was counted before is the result
          by_cases herror : reply.error.isSome = true
          · simp [if_pos herror, finalError, sumOfCounts, filledBy]
          · rw [if_neg herror, if_neg herror, Option.map_map]
            have hrest := ih (result + reply.count.getD count) (reply.count.getD count) s'
            cases hloop : readvLoop read (result + reply.count.getD count)
                (reply.count.getD count) rest s' with
            | none =>
                rw [hloop] at hrest
                cases hreplies : repliesTo read rest s' with
                | none => rfl
                | some replies => rw [hreplies] at hrest; cases hrest
            | some looped =>
                obtain ⟨out, s''⟩ := looped
                rw [hloop] at hrest
                cases hreplies : repliesTo read rest s' with
                | none => rw [hreplies] at hrest; cases hrest
                | some replies =>
                    rw [hreplies] at hrest
                    obtain rfl := Option.some.inj hrest
                    simp [finalError, sumOfCounts, filledBy, herror, UInt32.add_assoc]

/-! ### What was read -/

/-- The bytes that were taken from the stream. -/
def bytesRead (replies : List ReadReply) : List UInt8 := replies.flatMap ReadReply.bytes

@[simp] theorem bytesRead_cons (reply : ReadReply) (replies : List ReadReply) :
    bytesRead (reply :: replies) = reply.bytes ++ bytesRead replies := List.flatMap_cons

/-- Every read but the last fills its buffer. -/
def FullButLast : List (List UInt8) → List ReadReply → Prop
  | buffer :: buffers, reply :: next :: replies =>
      reply.bytes.length = buffer.length ∧ FullButLast buffers (next :: replies)
  | _, _ => True

/-- The counts that are found again, behind one that was left. -/
def countsFoundAgain : UInt32 → List ReadReply → Nat
  | _, [] => 0
  | count, reply :: replies =>
      match reply.count with
      | some n => countsFoundAgain n replies
      | none => count.toNat + countsFoundAgain count replies

/-- Sound replies to the buffers in turn, of which only the last may be a failure. -/
inductive Answered : List WinIovec → List ReadReply → Prop
  | nil : Answered [] []
  | failed {data : WinIovec} {rest : List WinIovec} {reply : ReadReply} :
      reply.Sound data.length → reply.error.isSome = true → Answered (data :: rest) [reply]
  | cons {data : WinIovec} {rest : List WinIovec} {reply : ReadReply} {replies : List ReadReply} :
      reply.Sound data.length → reply.error = none → Answered rest replies →
        Answered (data :: rest) (reply :: replies)

theorem answered_of_repliesTo {σ : Type*} {read : UInt32 → σ → Option (ReadReply × σ)}
    (hread : ∀ size s out, read size s = some out → out.1.Sound size) {data : List WinIovec}
    {s : σ} {replies : List ReadReply} (h : repliesTo read data s = some replies) :
    Answered data replies := by
  induction data generalizing s replies with
  | nil =>
      cases h
      exact .nil
  | cons data rest ih =>
      rw [repliesTo] at h
      obtain ⟨⟨reply, s'⟩, hreply, hnext⟩ := Option.bind_eq_some_iff.mp h
      have hsound := hread _ _ _ hreply
      dsimp only at hnext
      by_cases herror : reply.error.isSome = true
      · rw [if_pos herror] at hnext
        cases hnext
        exact .failed hsound herror
      · rw [if_neg herror] at hnext
        obtain ⟨replies, hreplies, rfl⟩ := Option.map_eq_some_iff.mp hnext
        exact .cons hsound (Option.not_isSome_iff_eq_none.mp herror) (ih hreplies)

variable {data : List WinIovec} {replies : List ReadReply}

theorem finalError_cons {reply : ReadReply} (h : reply.error = none) (replies : List ReadReply) :
    finalError (reply :: replies) = finalError replies := by
  rw [finalError, if_neg (by rw [h]; exact Bool.false_ne_true)]

theorem finalError_failed {reply : ReadReply} (h : reply.error.isSome = true) :
    finalError [reply] ≠ none := by
  intro hdone
  rw [finalError, if_pos h] at hdone
  rw [hdone] at h
  exact absurd h Bool.false_ne_true

/-- Of a loop that is done, the counts add up to the bytes and the counts that
were found again. -/
theorem toNat_sumOfCounts (h : Answered data replies) (hdone : finalError replies = none)
    (count : UInt32) :
    (sumOfCounts count replies).toNat =
      ((bytesRead replies).length + countsFoundAgain count replies) % 0x100000000 := by
  induction h generalizing count with
  | nil => rfl
  | failed _ herror =>
      exact absurd hdone (finalError_failed herror)
  | @cons data rest reply replies hsound herror hrest ih =>
      rw [finalError_cons herror] at hdone
      rw [sumOfCounts, if_neg (by rw [herror]; exact Bool.false_ne_true), UInt32.toNat_add,
        ih hdone, countsFoundAgain, bytesRead_cons, List.length_append]
      cases hcount : reply.count with
      | none =>
          rw [hsound.silent hcount]
          dsimp only [Option.getD_none, List.length_nil]
          omega
      | some n =>
          rw [← hsound.counted n hcount]
          dsimp only [Option.getD_some]
          omega

theorem filledBy_nil (h : ∀ reply ∈ replies, reply.bytes = []) (buffers : List (List UInt8)) :
    filledBy buffers replies = buffers := by
  induction replies generalizing buffers with
  | nil => cases buffers <;> rfl
  | cons reply replies ih =>
      obtain ⟨hreply, hreplies⟩ := List.forall_mem_cons.mp h
      cases buffers with
      | nil => rfl
      | cons buffer buffers =>
          rw [filledBy, ih hreplies, hreply, poke_zero]
          rfl

/-- If every read but the last fills its buffer, what was read is in the
beginning of the buffers. -/
theorem flatten_filledBy (h : Answered data replies) (hdone : finalError replies = none)
    (hfull : FullButLast (data.map WinIovec.buffer) replies) :
    (filledBy (data.map WinIovec.buffer) replies).flatten =
      bytesRead replies ++
        (data.map WinIovec.buffer).flatten.drop (bytesRead replies).length := by
  induction h with
  | nil => rfl
  | failed _ herror =>
      exact absurd hdone (finalError_failed herror)
  | @cons data rest reply replies hsound herror hrest ih =>
      rw [finalError_cons herror] at hdone
      cases replies with
      | nil =>
          cases hrest
          simp [filledBy, bytesRead, poke_zero]
      | cons next replies =>
          obtain ⟨hlength, hfull⟩ := hfull
          rw [List.map_cons, filledBy, List.flatten_cons, ih hdone hfull, poke_zero, hlength,
            List.drop_length, List.append_nil, bytesRead_cons reply, List.flatten_cons,
            List.length_append, hlength, List.drop_length_add_append, List.append_assoc]

/-! ### Writing -/

section
variable (heap : WinHeap)

/-- The loop of `vfsWritev`, with the block and the bytes that are in it. Without
memory for a buffer it ends; a copy that would leave the block has no result. -/
def gather : Block → UInt32 → List WinIovec → Option (Block × UInt32)
  | block, size, [] => some (block, size)
  | block, size, data :: rest =>
      match winRealloc heap (size + data.length).toNat block with
      | none => some (block, size)
      | some moved =>
          (moved.write size.toNat data.buffer).bind fun written =>
            gather written (size + data.length) rest

/-- `write` is what the bytes and their number are handed to. -/
def vfsWritev {α : Type*} (write : List UInt8 → UInt32 → α) (data : List WinIovec) : Option α :=
  (gather heap (winMalloc heap 1) 0 data).map fun (block, size) =>
    write (block.bytes.take size.toNat) size

/-- What was gathered is in the beginning of a block of whole pages. -/
structure Gathered (block : Block) (size : UInt32) (bytes : List UInt8) : Prop where
  counted : size.toNat = bytes.length
  begins : bytes <+: block.bytes
  inPages : heap.pageSize ∣ block.size

theorem gathered_nil : Gathered heap (winMalloc heap 1) 0 [] where
  counted := rfl
  begins := List.nil_prefix
  inPages := by
    rw [winMalloc_size]
    exact pages_dvd heap _

variable {heap}

/-- A block that grows keeps what is in it, and has room for what was asked. -/
theorem winRealloc_granted (hgrants : ∀ ulSize, heap.grants ulSize = true) {block : Block}
    (hpages : heap.pageSize ∣ block.size) (size : Nat) :
    ∃ moved, winRealloc heap size block = some moved ∧ block.bytes <+: moved.bytes ∧
      size ≤ moved.bytes.length ∧ heap.pageSize ∣ moved.size := by
  have hgrown := (grown_eq_some_iff heap hpages).mpr
    ⟨show Granted heap block.size size from .inr (hgrants _), rfl⟩
  have hmoved : winRealloc heap size block =
      some (block.moved heap (max block.size (pages heap (size + headerSize)))) := by
    rw [winRealloc, hgrown]
    rfl
  obtain ⟨hsize, hpages'⟩ := winRealloc_size heap hpages hmoved
  obtain ⟨-, hmax⟩ := (grown_eq_some_iff heap hpages).mp hsize
  refine ⟨_, hmoved, List.prefix_append _ _, ?_, hpages'⟩
  have hle := Nat.le_trans (le_pages heap (size + headerSize)) (Nat.le_max_right block.size _)
  rw [← hmax] at hle
  exact Nat.le_of_add_le_add_right hle

/-- Bytes that are written behind a beginning. -/
theorem poke_prefix {bytes cells l : List UInt8} (h : bytes <+: cells) :
    bytes ++ l <+: poke cells bytes.length l := by
  obtain ⟨rest, rfl⟩ := h
  have hfront : front (bytes ++ rest) bytes.length = bytes := by
    rw [front, List.take_left, List.length_append, Nat.sub_eq_zero_of_le (Nat.le_add_right _ _)]
    exact List.append_nil _
  rw [poke, hfront]
  exact List.prefix_append _ _

/-- One buffer is copied inside of the block, behind those before it. -/
theorem Gathered.next (hgrants : ∀ ulSize, heap.grants ulSize = true) {block : Block}
    {size : UInt32} {bytes : List UInt8} (h : Gathered heap block size bytes) {data : WinIovec}
    (hlt : bytes.length + data.buffer.length < 0x100000000) :
    ∃ moved written, winRealloc heap (size + data.length).toNat block = some moved ∧
      moved.write size.toNat data.buffer = some written ∧
      Gathered heap written (size + data.length) (bytes ++ data.buffer) := by
  have hsum : (size + data.length).toNat = bytes.length + data.buffer.length := by
    rw [UInt32.toNat_add, h.counted, WinIovec.toNat_length]
    exact Nat.mod_eq_of_lt hlt
  obtain ⟨moved, hmoved, hkept, hroom, hpages⟩ :=
    winRealloc_granted hgrants h.inPages (size + data.length).toNat
  rw [hsum] at hroom
  have hinside : size.toNat + data.buffer.length ≤ moved.bytes.length := by
    rw [h.counted]
    exact hroom
  have hwritten := Block.write_eq_some_iff.mpr ⟨hinside, rfl⟩
  refine ⟨moved, _, hmoved, hwritten, ?_, ?_, ?_⟩
  · rw [hsum, List.length_append]
  · rw [h.counted]
    exact poke_prefix (h.begins.trans hkept)
  · rw [Block.write_size hwritten]
    exact hpages

/-- All buffers are copied, each behind those before it. -/
theorem Gathered.all (hgrants : ∀ ulSize, heap.grants ulSize = true) (data : List WinIovec)
    {block : Block} {size : UInt32} {bytes : List UInt8} (h : Gathered heap block size bytes)
    (hlt : (bytes ++ (data.map WinIovec.buffer).flatten).length < 0x100000000) :
    ∃ block' size', gather heap block size data = some (block', size') ∧
      Gathered heap block' size' (bytes ++ (data.map WinIovec.buffer).flatten) := by
  induction data generalizing block size bytes with
  | nil =>
      refine ⟨block, size, rfl, ?_⟩
      rw [List.map_nil, List.flatten_nil, List.append_nil]
      exact h
  | cons data rest ih =>
      rw [List.map_cons, List.flatten_cons, ← List.append_assoc] at hlt ⊢
      have hone : bytes.length + data.buffer.length < 0x100000000 := by
        rw [List.length_append, List.length_append] at hlt
        omega
      obtain ⟨moved, written, hmoved, hwritten, hnext⟩ := h.next hgrants hone
      obtain ⟨block', size', hrest, hall⟩ := ih hnext hlt
      refine ⟨block', size', ?_, hall⟩
      rw [gather, hmoved]
      dsimp only
      rw [hwritten]
      exact hrest

/-- With enough memory no copy leaves the block, and what is written, once, are
the buffers one behind the other. -/
theorem vfsWritev_eq {α : Type*} (hgrants : ∀ ulSize, heap.grants ulSize = true)
    {data : List WinIovec} (hlt : (data.map WinIovec.buffer).flatten.length < 0x80000000)
    (write : List UInt8 → UInt32 → α) :
    vfsWritev heap write data =
      some (write (data.map WinIovec.buffer).flatten
        (UInt32.ofNat (data.map WinIovec.buffer).flatten.length)) := by
  obtain ⟨block, size, hgather, hcounted, hbegins, -⟩ :=
    (gathered_nil heap).all hgrants data (Nat.lt_trans hlt (by decide))
  rw [List.nil_append] at hcounted hbegins
  have hsize : size = UInt32.ofNat (data.map WinIovec.buffer).flatten.length := by
    rw [← hcounted, UInt32.ofNat_toNat]
  have hbytes : block.bytes.take size.toNat = (data.map WinIovec.buffer).flatten := by
    rw [hcounted]
    exact (List.prefix_iff_eq_take.mp hbegins).symm
  rw [vfsWritev, hgather, Option.map_some]
  dsimp only
  rw [hbytes, hsize]

end

/-- Pages of 16 bytes, all of which are granted. -/
def smallPages : WinHeap := ⟨16, fun _ => true, fun _ _ => 0, by decide⟩

/-- A block that has to grow for the second buffer. -/
theorem vfsWritev_eq_two :
    vfsWritev smallPages Prod.mk [⟨[1, 2, 3], by decide⟩, ⟨List.replicate 40 7, by decide⟩] =
      some ([1, 2, 3] ++ List.replicate 40 7, 43) :=
  vfsWritev_eq (fun _ => rfl) (by decide) Prod.mk

end MinC.Vfs
