import MinC.Win.Error
import MinC.Win.Stdlib
import Mathlib.Data.List.SplitLengths

/-!
Messages over local sockets.

A local socket is a pipe. The buffers of a message and its control data are put
together in a block, and the block is written to the pipe without their lengths.
Whoever receives the message has a block as large as all of the buffers, and
takes it apart by the lengths that those have. So a message that does not fill
the buffers is cut in other places than it was put together.
-/

namespace MinC.Vfs

open MinC.Lib MinC.Win

/-! ### Pipes -/

/-- A pipe, as it is between the two ends of a socket: what was written and not
read, whether reading goes message by message, whether there is still a reader,
and how much the pipe takes where writing does not wait. -/
structure LocalPipe where
  pending : List (List UInt8)
  byMessage : Bool
  connected : Bool
  room : Option Nat

/-- Read as many bytes as there are, across messages. -/
def readBytes : Nat → List (List UInt8) → List UInt8 × List (List UInt8)
  | _, [] => ([], [])
  | n, bytes :: pending =>
      if n < bytes.length then (bytes.take n, bytes.drop n :: pending)
      else
        let rest := readBytes (n - bytes.length) pending
        (bytes ++ rest.1, rest.2)

namespace LocalPipe

/-- A pipe that does not wait takes all of a message, or else none of it, which is no
error. -/
def fifoWrite (pipe : LocalPipe) (bytes : List UInt8) : Except UInt32 Nat × LocalPipe :=
  if !pipe.connected then (.error errorPipeNotConnected, pipe)
  else match pipe.room with
  | none => (.ok bytes.length, { pipe with pending := pipe.pending ++ [bytes] })
  | some room =>
      if bytes.length ≤ room then
        (.ok bytes.length,
          { pipe with pending := pipe.pending ++ [bytes], room := some (room - bytes.length) })
      else (.ok 0, pipe)

/-- A message that is longer than what is asked for is an error where messages are read.
With no writer left, there is nothing to read any more. -/
def fifoRead (pipe : LocalPipe) (size : Nat) : Except UInt32 (List UInt8) × LocalPipe :=
  match pipe.pending with
  | [] => (if pipe.connected then .error errorMoreData else .ok [], pipe)
  | bytes :: pending =>
      if pipe.byMessage then
        if size < bytes.length then
          (.error errorMoreData, { pipe with pending := bytes.drop size :: pending })
        else (.ok bytes, { pipe with pending := pending })
      else
        let read := readBytes size pipe.pending
        (.ok read.1, { pipe with pending := read.2 })

/-- The pipe takes a message of a size. -/
def Takes (pipe : LocalPipe) (size : Nat) : Prop :=
  pipe.connected = true ∧ ∀ room, pipe.room = some room → size ≤ room

end LocalPipe

/-! ### Messages -/

/-- `WSAMSG`, with what is in its buffers. All of them are in the memory of one
process. -/
structure WsaMsg where
  lpBuffers : List (List UInt8)
  control : List UInt8
  fits : lpBuffers.flatten.length + control.length < 4294967296

namespace WsaMsg

def data (message : WsaMsg) : List UInt8 := message.lpBuffers.flatten

theorem length_data_lt (message : WsaMsg) :
    message.data.length + message.control.length < 4294967296 :=
  message.fits

theorem toNat_length_data (message : WsaMsg) :
    (UInt32.ofNat message.data.length).toNat = message.data.length :=
  UInt32.toNat_ofNat_of_lt' (Nat.lt_of_le_of_lt (Nat.le_add_right _ _) message.length_data_lt)

theorem toNat_length_control (message : WsaMsg) :
    (UInt32.ofNat message.control.length).toNat = message.control.length :=
  UInt32.toNat_ofNat_of_lt' (Nat.lt_of_le_of_lt (Nat.le_add_left _ _) message.length_data_lt)

theorem toNat_length (message : WsaMsg) :
    (UInt32.ofNat (message.data.length + message.control.length)).toNat =
      message.data.length + message.control.length :=
  UInt32.toNat_ofNat_of_lt' message.length_data_lt

end WsaMsg

section
variable (heap : WinHeap)

/-- `PipeAllocData`: the block, its size, and that of the data. -/
def pipeAllocData (message : WsaMsg) : Block × UInt32 × UInt32 :=
  let dwResult := message.lpBuffers.foldl (fun dwSize buffer =>
    dwSize + UInt32.ofNat buffer.length) 0
  let dwSize := dwResult + UInt32.ofNat message.control.length
  (winMalloc heap dwSize.toNat, dwSize, dwResult)

/-- `PipePushDatagram`: the block, and where the next buffer goes. -/
def pipePushDatagram (block : Block) (data : Nat) : List (List UInt8) → Option (Block × Nat)
  | [] => some (block, data)
  | buffer :: buffers => (block.write data buffer).bind fun block =>
      pipePushDatagram block (data + buffer.length) buffers

/-- `PipePopDatagram`: the buffers with what they have room for, and where the next one
is taken from. Outside of the block there is nothing to take. -/
def pipePopDatagram (block : Block) (data : Nat) :
    List (List UInt8) → Option (List (List UInt8) × Nat)
  | [] => some ([], data)
  | buffer :: buffers =>
      if data + buffer.length ≤ block.bytes.length then
        (pipePopDatagram block (data + buffer.length) buffers).map fun popped =>
          ((block.bytes.drop data).take buffer.length :: popped.1, popped.2)
      else none

/-- `pipe_sendmsg`. What is sent is not compared with what there was to send. -/
def pipeSendmsg (pipe : LocalPipe) (message : WsaMsg) :
    Option (Except UInt32 UInt32 × LocalPipe) :=
  let (block, dwSize, dwResult) := pipeAllocData heap message
  (pipePushDatagram block 0 message.lpBuffers).bind fun (block, data) =>
    (pipePushDatagram block data [message.control]).map fun (block, _) =>
      let (written, pipe) := pipe.fifoWrite (block.bytes.take dwSize.toNat)
      (written.map fun _ => dwResult, pipe)

/-- What there is after `pipe_recvmsg`: the number that is returned, the buffers, the
control data with its length, and how far behind its start the block is freed. -/
structure Received where
  result : UInt32
  buffers : List (List UInt8)
  control : List UInt8
  controlLen : UInt32
  freed : Nat

/-- `pipe_recvmsg`. -/
def pipeRecvmsg (pipe : LocalPipe) (message : WsaMsg) :
    Option (Except UInt32 Received × LocalPipe) :=
  let (block, dwSize, dwResult) := pipeAllocData heap message
  match pipe.fifoRead dwSize.toNat with
  | (.error e, pipe) => some (.error e, pipe)
  | (.ok bytes, pipe) =>
      (block.write 0 bytes).bind fun block =>
        (pipePopDatagram block 0 message.lpBuffers).bind fun (buffers, data) =>
          (pipePopDatagram block data [message.control]).map fun (control, _) =>
            (.ok
              { result := dwResult
                buffers := buffers
                control := control.flatten
                controlLen := UInt32.ofNat message.control.length
                freed := data },
              pipe)

/-! ### Sizes -/

theorem pipeAllocData_eq (message : WsaMsg) :
    pipeAllocData heap message =
      (winMalloc heap (message.data.length + message.control.length),
        UInt32.ofNat (message.data.length + message.control.length),
        UInt32.ofNat message.data.length) := by
  have hsum : ∀ (buffers : List (List UInt8)) (start : Nat),
      buffers.foldl (fun dwSize buffer => dwSize + UInt32.ofNat buffer.length)
          (UInt32.ofNat start) =
        UInt32.ofNat (start + buffers.flatten.length) := by
    intro buffers
    induction buffers with
    | nil => exact fun start => rfl
    | cons buffer buffers ih =>
        intro start
        rw [List.foldl_cons, ← UInt32.ofNat_add, ih, List.flatten_cons, List.length_append,
          Nat.add_assoc]
  have hdata := hsum message.lpBuffers 0
  rw [Nat.zero_add] at hdata
  unfold pipeAllocData
  dsimp only
  rw [show (0 : UInt32) = UInt32.ofNat 0 from rfl, hdata, ← UInt32.ofNat_add]
  exact congrArg (fun n => (winMalloc heap n, _, _)) message.toNat_length

/-- A new block has room for what was asked for, and zeros in it. -/
theorem exists_winMalloc (size : Nat) :
    ∃ n, size ≤ n ∧ (winMalloc heap size).bytes = List.replicate n 0 := by
  refine ⟨pagesFrom heap 0 (size + headerSize) - headerSize, ?_, rfl⟩
  have hpages := le_pages heap (size + headerSize)
  rw [pagesFrom_eq heap (Nat.dvd_zero _), Nat.zero_max]
  omega

/-! ### Putting together and taking apart -/

theorem pipePushDatagram_append (buffers : List (List UInt8)) (before after : List UInt8)
    (hroom : buffers.flatten.length ≤ after.length) :
    pipePushDatagram ⟨before ++ after⟩ before.length buffers =
      some (⟨(before ++ buffers.flatten) ++ after.drop buffers.flatten.length⟩,
        (before ++ buffers.flatten).length) := by
  induction buffers generalizing before after with
  | nil => rw [pipePushDatagram, List.flatten_nil, List.append_nil, List.length_nil, List.drop_zero]
  | cons buffer buffers ih =>
      rw [List.flatten_cons, List.length_append] at hroom
      have hwrite : Block.write ⟨before ++ after⟩ before.length buffer =
          some ⟨(before ++ buffer) ++ after.drop buffer.length⟩ := by
        have hinside : before.length + buffer.length ≤ (before ++ after).length := by
          rw [List.length_append]
          omega
        rw [Block.write, if_pos hinside, poke_append, List.append_assoc]
      rw [pipePushDatagram, hwrite, Option.bind_some, ← List.length_append,
        ih (before ++ buffer) (after.drop buffer.length)
          (by rw [List.length_drop]; omega),
        List.flatten_cons, List.append_assoc before, List.drop_drop, ← List.length_append]

theorem pipePopDatagram_eq (block : Block) (buffers : List (List UInt8)) (data : Nat)
    (hinside : data + buffers.flatten.length ≤ block.bytes.length) :
    pipePopDatagram block data buffers =
      some ((buffers.map List.length).splitLengths (block.bytes.drop data),
        data + buffers.flatten.length) := by
  induction buffers generalizing data with
  | nil => rfl
  | cons buffer buffers ih =>
      rw [List.flatten_cons, List.length_append] at hinside
      rw [pipePopDatagram, if_pos (by omega), ih (data + buffer.length) (by omega),
        Option.map_some, List.map_cons, List.splitLengths_cons, List.drop_drop,
        List.flatten_cons, List.length_append, Nat.add_assoc]

/-- What is sent is the data and the control data behind it. -/
theorem pipeSendmsg_eq (pipe : LocalPipe) (message : WsaMsg) :
    pipeSendmsg heap pipe message =
      some ((pipe.fifoWrite (message.data ++ message.control)).1.map
          (fun _ => UInt32.ofNat message.data.length),
        (pipe.fifoWrite (message.data ++ message.control)).2) := by
  obtain ⟨n, hn, hblock⟩ := exists_winMalloc heap (message.data.length + message.control.length)
  have hdata := pipePushDatagram_append message.lpBuffers [] (List.replicate n 0)
    (by rw [List.length_replicate]; exact Nat.le_trans (Nat.le_add_right _ _) hn)
  have hcontrol := pipePushDatagram_append [message.control] message.data
    ((List.replicate n 0).drop message.data.length)
    (by
      rw [List.flatten_singleton, List.length_drop, List.length_replicate]
      omega)
  rw [List.flatten_singleton] at hcontrol
  have hempty : winMalloc heap (message.data.length + message.control.length) =
      ⟨[] ++ List.replicate n 0⟩ := congrArg Block.mk hblock
  unfold pipeSendmsg
  rw [pipeAllocData_eq]
  dsimp only
  rw [hempty, show pipePushDatagram ⟨[] ++ List.replicate n 0⟩ 0 message.lpBuffers = _ from hdata,
    Option.bind_some, List.nil_append, show message.lpBuffers.flatten = message.data from rfl]
  dsimp only
  rw [hcontrol, Option.map_some]
  dsimp only
  rw [message.toNat_length, ← List.length_append, List.take_left' rfl]

/-- What is received are the bytes that were read, with zeros behind them, cut by the
lengths of the buffers. -/
theorem pipeRecvmsg_ok {pipe pipe' : LocalPipe} {message : WsaMsg} {bytes : List UInt8}
    (h : pipe.fifoRead (message.data.length + message.control.length) = (.ok bytes, pipe'))
    (hle : bytes.length ≤ message.data.length + message.control.length) :
    ∃ n, pipeRecvmsg heap pipe message = some (.ok
      { result := UInt32.ofNat message.data.length
        buffers := (message.lpBuffers.map List.length).splitLengths (bytes ++ List.replicate n 0)
        control := ((bytes ++ List.replicate n 0).drop message.data.length).take
          message.control.length
        controlLen := UInt32.ofNat message.control.length
        freed := message.data.length }, pipe') ∧
      message.data.length + message.control.length ≤ bytes.length + n := by
  obtain ⟨n, hn, hblock⟩ := exists_winMalloc heap (message.data.length + message.control.length)
  -- the block is larger than what is read into it, and has zeros behind it
  have hwrite : (winMalloc heap (message.data.length + message.control.length)).write 0 bytes =
      some ⟨bytes ++ List.replicate (n - bytes.length) 0⟩ := by
    have hinside : 0 + bytes.length ≤ (List.replicate n (0 : UInt8)).length := by
      rw [List.length_replicate]
      omega
    have hpoke := poke_append [] (List.replicate n 0) bytes
    rw [List.nil_append, List.length_nil, List.nil_append, List.drop_replicate] at hpoke
    rw [Block.write, hblock, if_pos hinside, hpoke]
  refine ⟨n - bytes.length, ?_, by omega⟩
  have hlength : (bytes ++ List.replicate (n - bytes.length) (0 : UInt8)).length = n := by
    rw [List.length_append, List.length_replicate]
    omega
  have hbuffers := pipePopDatagram_eq ⟨bytes ++ List.replicate (n - bytes.length) 0⟩
    message.lpBuffers 0
    (by rw [hlength, Nat.zero_add]; exact Nat.le_trans (Nat.le_add_right _ _) hn)
  have hcontrol := pipePopDatagram_eq ⟨bytes ++ List.replicate (n - bytes.length) 0⟩
    [message.control] message.data.length
    (by rw [hlength, List.flatten_singleton]; exact hn)
  rw [Nat.zero_add, List.drop_zero] at hbuffers
  unfold pipeRecvmsg
  rw [pipeAllocData_eq]
  dsimp only
  rw [message.toNat_length, h]
  dsimp only
  rw [hwrite, Option.bind_some, hbuffers, Option.bind_some,
    show message.lpBuffers.flatten.length = message.data.length from rfl, hcontrol,
    Option.map_some]
  simp

/-- The number that is returned and the length of the control data are those of the
receiver, whatever was received. -/
theorem pipeRecvmsg_result {pipe pipe' : LocalPipe} {message : WsaMsg} {received : Received}
    (h : pipeRecvmsg heap pipe message = some (.ok received, pipe')) :
    received.result = UInt32.ofNat message.data.length ∧
      received.controlLen = UInt32.ofNat message.control.length := by
  unfold pipeRecvmsg at h
  rw [pipeAllocData_eq] at h
  dsimp only at h
  split at h
  · cases h
  · obtain ⟨block, _, hbuffers⟩ := Option.bind_eq_some_iff.mp h
    obtain ⟨popped, _, hcontrol⟩ := Option.bind_eq_some_iff.mp hbuffers
    obtain ⟨rest, _, hreceived⟩ := Option.map_eq_some_iff.mp hcontrol
    cases hreceived
    exact ⟨rfl, rfl⟩

/-! ### There and back -/

/-- What a receiver has of a message: the data in its buffers, the control data, the
numbers of both, and what was in the buffers behind the data. -/
structure Delivered (message receiver : WsaMsg) (sent : UInt32) (received : Received) : Prop where
  sent : sent.toNat = message.data.length
  result : received.result.toNat = message.data.length
  lengths : received.buffers.map List.length = receiver.lpBuffers.map List.length
  data : received.buffers.flatten = message.data ++ receiver.data.drop message.data.length
  control : received.control.take message.control.length = message.control
  controlLen : received.controlLen.toNat = message.control.length

theorem flatten_splitLengths_take {α β : Type*} (buffers : List (List β)) (l : List α) :
    ((buffers.map List.length).splitLengths l).flatten = l.take buffers.flatten.length := by
  induction buffers generalizing l with
  | nil => rfl
  | cons buffer buffers ih =>
      rw [List.map_cons, List.splitLengths_cons, List.flatten_cons, ih, List.flatten_cons,
        List.length_append, List.take_add]

/-- All of a message that was written is read if that is what is asked for. -/
theorem fifoRead_all (pipe : LocalPipe) (bytes : List UInt8) (hpending : pipe.pending = [bytes]) :
    pipe.fifoRead bytes.length = (.ok bytes, { pipe with pending := [] }) := by
  unfold LocalPipe.fifoRead
  rw [hpending]
  dsimp only
  rw [if_neg (Nat.lt_irrefl _)]
  split
  · rfl
  · rw [readBytes, if_neg (Nat.lt_irrefl _), Nat.sub_self, readBytes]
    dsimp only
    rw [List.append_nil]

theorem fifoWrite_of_takes {pipe : LocalPipe} {bytes : List UInt8}
    (htakes : pipe.Takes bytes.length) :
    (pipe.fifoWrite bytes).1 = .ok bytes.length ∧
      (pipe.fifoWrite bytes).2.pending = pipe.pending ++ [bytes] := by
  unfold LocalPipe.fifoWrite
  rw [htakes.1, if_neg (by decide)]
  cases hroom : pipe.room with
  | none => exact ⟨rfl, rfl⟩
  | some room =>
      dsimp only
      rw [if_pos (htakes.2 room hroom)]
      exact ⟨rfl, rfl⟩

/-- What a pipe does not take is not there to read. -/
theorem fifoWrite_of_not_takes {pipe : LocalPipe} {bytes : List UInt8} {n : Nat}
    (htakes : ¬ pipe.Takes bytes.length) (h : (pipe.fifoWrite bytes).1 = .ok n) :
    pipe.connected = true ∧ (pipe.fifoWrite bytes).2 = pipe := by
  unfold LocalPipe.fifoWrite at h ⊢
  cases hconnected : pipe.connected with
  | false =>
      rw [hconnected, if_pos (by decide)] at h
      cases h
  | true =>
      rw [if_neg (by decide)]
      cases hroom : pipe.room with
      | none =>
          exact absurd ⟨hconnected, fun room h => by rw [hroom] at h; cases h⟩ htakes
      | some room =>
          dsimp only
          split_ifs with hle
          · refine absurd ⟨hconnected, fun room' h => ?_⟩ htakes
            rw [hroom] at h
            cases h
            exact hle
          · exact ⟨rfl, rfl⟩

/-- What the pipe does not take leaves it empty, and then nothing is received. -/
theorem not_received {pipe between after : LocalPipe} (hempty : pipe.pending = [])
    {message receiver : WsaMsg} (htakes : ¬ pipe.Takes (message.data ++ message.control).length)
    {sent : UInt32} (hsent : pipeSendmsg heap pipe message = some (.ok sent, between))
    {received : Received} :
    pipeRecvmsg heap between receiver ≠ some (.ok received, after) := by
  intro hreceived
  rw [pipeSendmsg_eq, Option.some_inj, Prod.mk.injEq] at hsent
  cases hwritten : (pipe.fifoWrite (message.data ++ message.control)).1 with
  | error e =>
      rw [hwritten] at hsent
      cases hsent.1
  | ok n =>
      obtain ⟨hconnected, hkept⟩ := fifoWrite_of_not_takes htakes hwritten
      have hread : between.fifoRead (receiver.data.length + receiver.control.length) =
          (.error errorMoreData, between) := by
        rw [← hsent.2, hkept]
        unfold LocalPipe.fifoRead
        rw [hempty, hconnected]
        rfl
      have hfailed : pipeRecvmsg heap between receiver = some (.error errorMoreData, between) := by
        unfold pipeRecvmsg
        rw [pipeAllocData_eq]
        dsimp only
        rw [receiver.toNat_length, hread]
      rw [hfailed] at hreceived
      cases hreceived

/-- What is behind the message in the block that is received does not matter, if there
is room for exactly the data and exactly the control data. -/
theorem delivered_of_room {message receiver : WsaMsg}
    (hdata : receiver.data.length = message.data.length)
    (hcontrol : receiver.control.length = message.control.length) (behind : List UInt8) :
    Delivered message receiver (UInt32.ofNat message.data.length)
      { result := UInt32.ofNat receiver.data.length
        buffers := (receiver.lpBuffers.map List.length).splitLengths
          (message.data ++ message.control ++ behind)
        control := ((message.data ++ message.control ++ behind).drop receiver.data.length).take
          receiver.control.length
        controlLen := UInt32.ofNat receiver.control.length
        freed := receiver.data.length } where
  sent := message.toNat_length_data
  result := by
    dsimp only
    rw [hdata]
    exact message.toNat_length_data
  lengths := by
    have hsum : receiver.lpBuffers.flatten.length = message.data.length := hdata
    refine List.map_splitLengths_length _ _ ?_
    rw [← List.length_flatten, hsum, List.length_append, List.length_append, Nat.add_assoc]
    exact Nat.le_add_right _ _
  data := by
    have hsum : receiver.lpBuffers.flatten.length = message.data.length := hdata
    dsimp only
    rw [flatten_splitLengths_take, hsum, ← hdata, List.drop_length, List.append_nil, hdata,
      List.append_assoc, List.take_left' rfl]
  control := by
    dsimp only
    rw [hdata, List.append_assoc, List.drop_left' rfl, hcontrol, List.take_left' rfl,
      List.take_of_length_le (Nat.le_refl _)]
  controlLen := by
    dsimp only
    rw [hcontrol]
    exact message.toNat_length_control

/-- The pipe takes the message, and there is room for exactly the data and exactly the control
data. -/
structure Carries (pipe : LocalPipe) (message receiver : WsaMsg) : Prop where
  takes : pipe.Takes (message.data.length + message.control.length)
  data : receiver.data.length = message.data.length
  control : receiver.control.length = message.control.length

/-- A receiver who is told the numbers of a message had room for it. -/
theorem carries_of_received {pipe between after : LocalPipe} (hempty : pipe.pending = [])
    {message receiver : WsaMsg} {sent : UInt32} {received : Received}
    (hsent : pipeSendmsg heap pipe message = some (.ok sent, between))
    (hreceived : pipeRecvmsg heap between receiver = some (.ok received, after))
    (hdata : received.result.toNat = message.data.length)
    (hcontrol : received.controlLen.toNat = message.control.length) :
    Carries pipe message receiver := by
  obtain ⟨hresult, hlen⟩ := pipeRecvmsg_result heap hreceived
  rw [hresult, receiver.toNat_length_data] at hdata
  rw [hlen, receiver.toNat_length_control] at hcontrol
  refine ⟨?_, hdata, hcontrol⟩
  by_contra htakes
  rw [← List.length_append] at htakes
  exact not_received heap hempty htakes hsent hreceived

/-- A message goes over a socket with nothing else on its way, if there is room for it. -/
theorem received_of_carries {pipe : LocalPipe} (hempty : pipe.pending = [])
    {message receiver : WsaMsg} (h : Carries pipe message receiver) :
    ∃ sent between received after,
      pipeSendmsg heap pipe message = some (.ok sent, between) ∧
        pipeRecvmsg heap between receiver = some (.ok received, after) ∧
          Delivered message receiver sent received ∧
            received.control.length = message.control.length := by
  have htakes := h.takes
  rw [← List.length_append] at htakes
  obtain ⟨hwritten, hpending⟩ := fifoWrite_of_takes htakes
  rw [hempty, List.nil_append] at hpending
  have hread := fifoRead_all (pipe.fifoWrite (message.data ++ message.control)).2 _ hpending
  rw [List.length_append, ← h.data, ← h.control] at hread
  obtain ⟨n, hreceived, -⟩ := pipeRecvmsg_ok heap hread
    (by rw [List.length_append, h.data, h.control])
  refine ⟨UInt32.ofNat message.data.length, _, _, _, ?_, hreceived,
    delivered_of_room h.data h.control _, ?_⟩
  · rw [pipeSendmsg_eq, hwritten]
    rfl
  · dsimp only
    rw [List.length_take, List.length_drop, List.length_append, List.length_append, h.data,
      h.control]
    omega

end

end MinC.Vfs
