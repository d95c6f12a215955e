import MinC.Sys.ControlData
import MinC.Vfs.Socket

/-!
Messages between two tasks.

A local socket carries the control data of a message as bytes. The task that sends
has translated the control messages in them, and the one that receives translates
what it finds back, with descriptors and tables of its own. The data are cut by the
lengths of the receiver's buffers, and the control data are what is left behind.
-/

namespace MinC.Sys

open MinC.Lib MinC.Win MinC.Vfs

section
variable (macros : CmsgMacros)

/-! ### Calls -/

def memoryOf (bytes : List UInt8) : Memory := fun b => bytes.getD b 0

def bytesOf (mem : Memory) (n : Nat) : List UInt8 := (List.range n).map mem

@[simp] theorem length_bytesOf (mem : Memory) (n : Nat) : (bytesOf mem n).length = n := by
  rw [bytesOf, List.length_map, List.length_range]

theorem withControl_fits (message : WsaMsg) (mem : Memory) :
    message.lpBuffers.flatten.length + (bytesOf mem message.control.length).length <
      4294967296 := by
  rw [length_bytesOf]
  exact message.fits

/-- The message with other bytes in its control data. -/
def withControl (message : WsaMsg) (mem : Memory) : WsaMsg :=
  ⟨message.lpBuffers, bytesOf mem message.control.length, withControl_fits message mem⟩

variable (heap : WinHeap)

/-- `sys_sendmsg` on a local socket. -/
def sendmsgLocal (env : SocketEnv) (fuel : Nat) (s : TaskFds) (pipe : LocalPipe)
    (message : WsaMsg) : Option (Except Nat UInt32 × LocalPipe) :=
  (cmsghdrWinAt macros env message.control.length fuel s
      (memoryOf message.control)).bind fun (mem, s) =>
    (pipeSendmsg heap pipe (withControl message mem)).bind fun (sent, pipe) =>
      match sent with
      | .error e => some (.error (errnoPosix e), pipe)
      | .ok n =>
          (cmsghdrPosixAt macros env message.control.length fuel s mem).map fun _ => (.ok n, pipe)

/-- `sys_recvmsg` on a local socket. -/
def recvmsgLocal (env : SocketEnv) (fuel : Nat) (s : TaskFds) (pipe : LocalPipe)
    (receiver : WsaMsg) : Option (Except Nat Received × LocalPipe) :=
  (pipeRecvmsg heap pipe receiver).bind fun (received, pipe) =>
    match received with
    | .error e => some (.error (errnoPosix e), pipe)
    | .ok received =>
        (cmsghdrPosixAt macros env received.controlLen.toNat fuel s
          (memoryOf received.control)).map fun (mem, _) =>
            (.ok { received with control := bytesOf mem received.controlLen.toNat }, pipe)

/-- A message is sent, and then received, each call coming to its end. -/
def Arrives (env env' : SocketEnv) (s s' : TaskFds) (pipe : LocalPipe)
    (message receiver : WsaMsg) : Prop :=
  ∃ fuel sent between received after,
    sendmsgLocal macros heap env fuel s pipe message = some (.ok sent, between) ∧
      recvmsgLocal macros heap env' fuel s' between receiver = some (.ok received, after) ∧
        Delivered message receiver sent received

end

/-! ### There and back -/

section
variable (macros : CmsgMacros) (heap : WinHeap)

/-- A message is sent if its control data are gone through, and the pipe takes what they were
translated to. -/
theorem sendmsgLocal_ok {env : SocketEnv} {fuel : Nat} {s : TaskFds} {pipe between : LocalPipe}
    {message : WsaMsg} {sent : UInt32} :
    sendmsgLocal macros heap env fuel s pipe message = some (.ok sent, between) ↔
      ∃ mem s₁, cmsghdrWinAt macros env message.control.length fuel s
            (memoryOf message.control) = some (mem, s₁) ∧
        pipeSendmsg heap pipe (withControl message mem) = some (.ok sent, between) ∧
        (cmsghdrPosixAt macros env message.control.length fuel s₁ mem).isSome = true := by
  unfold sendmsgLocal
  constructor
  · intro h
    obtain ⟨⟨mem, s₁⟩, hloop, h⟩ := Option.bind_eq_some_iff.mp h
    obtain ⟨⟨result, pipe'⟩, hpipe, h⟩ := Option.bind_eq_some_iff.mp h
    cases result with
    | error e => cases h
    | ok n =>
        obtain ⟨back, hback, heq⟩ := Option.map_eq_some_iff.mp h
        cases heq
        exact ⟨mem, s₁, hloop, hpipe, by rw [hback]; rfl⟩
  · rintro ⟨mem, s₁, hloop, hpipe, hback⟩
    obtain ⟨back, hback⟩ := Option.isSome_iff_exists.mp hback
    rw [hloop, Option.bind_some]
    dsimp only
    rw [hpipe, Option.bind_some]
    dsimp only
    rw [hback]
    rfl

/-- What is received is what the pipe gives, with the control data translated. -/
theorem recvmsgLocal_ok {env : SocketEnv} {fuel : Nat} {s : TaskFds} {pipe after : LocalPipe}
    {receiver : WsaMsg} {received : Received} :
    recvmsgLocal macros heap env fuel s pipe receiver = some (.ok received, after) ↔
      ∃ taken mem s₁, pipeRecvmsg heap pipe receiver = some (.ok taken, after) ∧
        cmsghdrPosixAt macros env taken.controlLen.toNat fuel s
          (memoryOf taken.control) = some (mem, s₁) ∧
        received = { taken with control := bytesOf mem taken.controlLen.toNat } := by
  unfold recvmsgLocal
  constructor
  · intro h
    obtain ⟨⟨result, pipe'⟩, hpipe, h⟩ := Option.bind_eq_some_iff.mp h
    cases result with
    | error e => cases h
    | ok taken =>
        obtain ⟨⟨mem, s₁⟩, hloop, heq⟩ := Option.map_eq_some_iff.mp h
        cases heq
        exact ⟨taken, mem, s₁, hpipe, hloop, rfl⟩
  · rintro ⟨taken, mem, s₁, hpipe, hloop, rfl⟩
    rw [hpipe, Option.bind_some]
    dsimp only
    rw [hloop]
    rfl

theorem carries_withControl {pipe : LocalPipe} {message receiver : WsaMsg} (mem : Memory) :
    Carries pipe (withControl message mem) receiver ↔ Carries pipe message receiver := by
  have hlen : (withControl message mem).control.length = message.control.length :=
    length_bytesOf mem _
  exact ⟨fun h => ⟨hlen ▸ h.takes, h.data, hlen ▸ h.control⟩,
    fun h => ⟨hlen ▸ h.takes, h.data, hlen ▸ h.control⟩⟩

variable {macros heap} {env env' : SocketEnv} {s s' : TaskFds} {pipe : LocalPipe}
  {message receiver : WsaMsg}

theorem Arrives.carries (hempty : pipe.pending = [])
    (h : Arrives macros heap env env' s s' pipe message receiver) :
    Carries pipe message receiver := by
  obtain ⟨fuel, sent, between, received, after, hsent, hreceived, hdelivered⟩ := h
  obtain ⟨mem, s₁, -, hpipe, -⟩ := (sendmsgLocal_ok macros heap).mp hsent
  obtain ⟨taken, mem', s₂, htaken, -, rfl⟩ := (recvmsgLocal_ok macros heap).mp hreceived
  have hlen := hdelivered.controlLen
  rw [← length_bytesOf mem message.control.length] at hlen
  exact (carries_withControl mem).mp
    (carries_of_received heap hempty hpipe htaken hdelivered.result hlen)

theorem bytesOf_eq_iff {mem : Memory} {bytes : List UInt8} :
    bytesOf mem bytes.length = bytes ↔ ∀ b < bytes.length, mem b = memoryOf bytes b := by
  constructor
  · intro h b hb
    have hget := congrArg (fun l => l.getD b 0) h
    dsimp only [bytesOf] at hget
    rw [List.getD_eq_getElem _ _ (by rw [List.length_map, List.length_range]; exact hb),
      List.getElem_map, List.getElem_range] at hget
    exact hget
  · intro h
    refine List.ext_getElem (length_bytesOf mem _) fun b _ hb => ?_
    rw [List.getElem_of_eq (show bytesOf mem bytes.length = (List.range bytes.length).map mem
      from rfl), List.getElem_map, List.getElem_range, h b hb, memoryOf,
      List.getD_eq_getElem _ _ hb]

theorem memoryOf_bytesOf (mem : Memory) {n b : Nat} (hb : b < n) :
    memoryOf (bytesOf mem n) b = mem b := by
  rw [memoryOf, List.getD_eq_getElem _ _ (by rw [length_bytesOf]; exact hb)]
  simp only [bytesOf, List.getElem_map, List.getElem_range]

/-- The control data that are taken from the pipe are those that were put into it, and the loop
over them ends. -/
theorem taken_control {mem : Memory} {sent : UInt32} {taken : Received}
    (hdelivered : Delivered (withControl message mem) receiver sent taken)
    (hlen : taken.control.length = (withControl message mem).control.length) :
    taken.control = bytesOf mem message.control.length ∧
      taken.controlLen.toNat = message.control.length := by
  have hlength : (withControl message mem).control.length = message.control.length :=
    length_bytesOf mem _
  refine ⟨?_, hdelivered.controlLen.trans hlength⟩
  rw [← List.take_of_length_le (Nat.le_of_eq hlen)]
  exact hdelivered.control

variable {offsets : List Nat}
  (hsep : Separate macros message.control.length (memoryOf message.control) offsets
    (macros.firsthdr message.control.length))
include hsep

/-- What was put into the pipe is gone through as it was before. -/
theorem taken_separate (env : SocketEnv) (s : TaskFds) :
    Separate macros message.control.length
      (memoryOf (bytesOf (storeAll macros (cmsgWin env) 0 s (memoryOf message.control) offsets).1
        message.control.length)) offsets (macros.firsthdr message.control.length) := by
  have hthere := hsep.storeAll (translates_cmsgWin env) 0 s
  exact hthere.congr fun o hat b _ hhigh =>
    memoryOf_bytesOf _ (Nat.lt_of_lt_of_le hhigh (hthere.inside o hat))

theorem arrives_of_comes (hempty : pipe.pending = []) (hcarries : Carries pipe message receiver)
    (hcomes : AllCome env env' 0 s s' (offsets.map (cmsgAt macros (memoryOf message.control)))) :
    Arrives macros heap env env' s s' pipe message receiver := by
  obtain ⟨sent, between, taken, after, hpipe, htaken, hdelivered, hlen⟩ :=
    received_of_carries heap hempty ((carries_withControl
      (storeAll macros (cmsgWin env) 0 s (memoryOf message.control) offsets).1).mpr hcarries)
  obtain ⟨hcontrol, hcontrolLen⟩ := taken_control hdelivered hlen
  have hsent : sendmsgLocal macros heap env offsets.length s pipe message =
      some (.ok sent, between) := by
    refine (sendmsgLocal_ok macros heap).mpr ⟨_, _, cmsgLoop_length hsep _ 0 s, hpipe, ?_⟩
    rw [cmsghdrPosixAt, cmsgLoop_length (hsep.storeAll (translates_cmsgWin env) 0 s)]
    rfl
  have hback := cmsgLoop_length (taken_separate hsep env s) (fun _ => cmsgPosix env') 0 s'
  rw [← hcontrol, ← hcontrolLen] at hback
  refine ⟨offsets.length, sent, between, _, after, hsent,
    (recvmsgLocal_ok macros heap).mpr ⟨taken, _, _, htaken, hback, rfl⟩, ?_⟩
  refine ⟨hdelivered.sent, hdelivered.result, hdelivered.lengths, hdelivered.data, ?_,
    hcontrolLen⟩
  dsimp only
  rw [hcontrolLen, List.take_of_length_le (Nat.le_of_eq (length_bytesOf _ _)), bytesOf_eq_iff,
    hcontrol]
  exact (control_kept_iff env env' macros hsep s s' fun b hb => memoryOf_bytesOf _ hb).mpr hcomes

theorem Arrives.comes (hempty : pipe.pending = [])
    (h : Arrives macros heap env env' s s' pipe message receiver) :
    AllCome env env' 0 s s' (offsets.map (cmsgAt macros (memoryOf message.control))) := by
  have hcarries := h.carries hempty
  obtain ⟨fuel, sent, between, received, after, hsent, hreceived, hdelivered⟩ := h
  obtain ⟨mem, s₁, hloop, hpipe, -⟩ := (sendmsgLocal_ok macros heap).mp hsent
  obtain ⟨taken, mem', s₂, htaken, hback, rfl⟩ := (recvmsgLocal_ok macros heap).mp hreceived
  -- what the loops leave is known where the messages are apart
  rw [cmsghdrWinAt, cmsgLoop_eq hsep] at hloop
  split_ifs at hloop with hfuel
  obtain ⟨rfl, rfl⟩ := Prod.mk.inj (Option.some.inj hloop)
  obtain ⟨sent', between', taken', after', hpipe', htaken', hdelivered', hlen⟩ :=
    received_of_carries heap hempty ((carries_withControl
      (storeAll macros (cmsgWin env) 0 s (memoryOf message.control) offsets).1).mpr hcarries)
  obtain ⟨-, rfl⟩ := Prod.mk.inj (Option.some.inj (hpipe.symm.trans hpipe'))
  obtain ⟨htake, -⟩ := Prod.mk.inj (Option.some.inj (htaken.symm.trans htaken'))
  cases htake
  obtain ⟨hcontrol, hcontrolLen⟩ := taken_control hdelivered' hlen
  rw [cmsghdrPosixAt, hcontrol, hcontrolLen, cmsgLoop_eq (taken_separate hsep env s),
    if_pos hfuel] at hback
  obtain ⟨rfl, -⟩ := Prod.mk.inj (Option.some.inj hback)
  have hkept := hdelivered.control
  dsimp only at hkept
  rw [hcontrolLen, List.take_of_length_le (Nat.le_of_eq (length_bytesOf _ _)),
    bytesOf_eq_iff] at hkept
  exact (control_kept_iff env env' macros hsep s s' fun b hb => memoryOf_bytesOf _ hb).mp hkept

end

/-- The control messages at the offsets are all there are, and they are apart. -/
def ControlApart (macros : CmsgMacros) (control : List UInt8) (offsets : List Nat) : Prop :=
  Separate macros control.length (memoryOf control) offsets (macros.firsthdr control.length)

/-- The control messages at the offsets come to a task as they went from another one. -/
def ControlComes (macros : CmsgMacros) (env env' : SocketEnv) (s s' : TaskFds)
    (control : List UInt8) (offsets : List Nat) : Prop :=
  AllCome env env' 0 s s' (offsets.map (cmsgAt macros (memoryOf control)))

/-- A message arrives over a socket with nothing else on its way, if there is room for exactly its
data and exactly its control data, and the control messages, which are apart, come as they went.
One that arrives had this room, and its control messages come, if they are apart. -/
theorem message_arrives_iff (macros : CmsgMacros) (heap : WinHeap) (env env' : SocketEnv)
    (s s' : TaskFds) {pipe : LocalPipe} (hempty : pipe.pending = []) (message receiver : WsaMsg) :
    ((Carries pipe message receiver ∧ ∃ offsets, ControlApart macros message.control offsets ∧
        ControlComes macros env env' s s' message.control offsets) →
      Arrives macros heap env env' s s' pipe message receiver) ∧
    (Arrives macros heap env env' s s' pipe message receiver →
      Carries pipe message receiver ∧
        ∀ offsets, ControlApart macros message.control offsets →
          ControlComes macros env env' s s' message.control offsets) :=
  ⟨fun ⟨hcarries, _, hapart, hcomes⟩ => arrives_of_comes hapart hempty hcarries hcomes,
    fun h => ⟨h.carries hempty, fun _ hapart => h.comes hapart hempty⟩⟩

/-! ### Two messages -/

/-- Messages at multiples of four bytes. -/
def wordMacros : CmsgMacros where
  firsthdr := fun size => if 12 ≤ size then some 0 else none
  nxthdr := fun size o len =>
    if size < o + (len.toNat + 3) / 4 * 4 + 12 then none else some (o + (len.toNat + 3) / 4 * 4)
  data := 12
  le_data := Nat.le_refl 12

/-- A heap with small pages. -/
def smallHeap : WinHeap where
  pageSize := 16
  grants := fun _ => true
  added := fun _ _ => 0
  pageSize_pos := Nat.succ_pos 15

/-- A pipe that waits, with nothing in it. -/
def quietPipe : LocalPipe := ⟨[], true, true, none⟩

theorem oneByte_fits : [[(7 : UInt8)]].flatten.length + [(9 : UInt8)].length < 4294967296 := by
  decide

theorem twoBytes_fits :
    [[(0 : UInt8)], [0]].flatten.length + [(0 : UInt8)].length < 4294967296 := by
  decide

theorem passing_fits (fd : UInt8) :
    [[(7 : UInt8)]].flatten.length +
      [16, 0, 0, 0, 255, 255, 0, 0, 1, 0, 0, 0, fd, 0, 0, 0].length < 4294967296 :=
  show 1 + 16 < 4294967296 by decide

/-- A byte of data and one of control data. -/
def oneByte : WsaMsg := ⟨[[7]], [9], oneByte_fits⟩

/-- Room for two bytes of data and one of control data. -/
def twoBytes : WsaMsg := ⟨[[0], [0]], [0], twoBytes_fits⟩

/-- A byte of data and a control message that passes a descriptor. -/
def passing (fd : UInt8) : WsaMsg :=
  ⟨[[7]], [16, 0, 0, 0, 255, 255, 0, 0, 1, 0, 0, 0, fd, 0, 0, 0], passing_fits fd⟩

theorem passing_carries (fd fd' : UInt8) : Carries quietPipe (passing fd) (passing fd') :=
  ⟨⟨rfl, fun _ h => by cases h⟩, rfl, rfl⟩

theorem passing_next (fd : UInt8) :
    wordMacros.nxthdr (passing fd).control.length 0
      (wordAt (memoryOf (passing fd).control) 0) = none := by
  rw [show (passing fd).control.length = 16 from rfl,
    show wordAt (memoryOf (passing fd).control) 0 = 16 from rfl]
  decide

theorem passing_rights (fd : UInt8) :
    (cmsgAt wordMacros (memoryOf (passing fd).control) 0).Rights := by
  rw [cmsgAt_rights, wordAt, wordAt,
    show loadWord (memoryOf (passing fd).control) (0 + 4) = leNat [255, 255, 0, 0] from rfl,
    show loadWord (memoryOf (passing fd).control) (0 + 8) = leNat [1, 0, 0, 0] from rfl]
  decide

theorem passing_apart (fd : UInt8) : ControlApart wordMacros (passing fd).control [0] where
  walk := ⟨rfl, passing_next fd⟩
  inside := fun o hat => by
    rw [List.mem_singleton.mp hat, Cmsghdr.extent, if_pos (passing_rights fd)]
    exact Nat.le_refl 16
  apart := List.pairwise_singleton _ _

/-- The lowest descriptor is passed to a task that has no files. -/
theorem message_arrives_iff_passing :
    Arrives wordMacros smallHeap fullSocket fullSocket noFiles noFiles quietPipe (passing 0)
      (passing 0) :=
  (message_arrives_iff wordMacros smallHeap fullSocket fullSocket noFiles noFiles
    (show quietPipe.pending = [] from rfl) (passing 0) (passing 0)).1
    ⟨passing_carries 0 0, [0], passing_apart 0,
      ⟨fun _ => .inl ⟨Nat.le_refl 0, by decide, rfl, fun i _ hi => absurd hi (Nat.not_lt_zero i)⟩,
        fun h => absurd h (by decide), fun h => absurd h (by decide)⟩, trivial⟩

/-- A receiver with room for one more byte has the control data in it, and is told that
there are two bytes of data. And another descriptor comes to a task without files as its lowest
one. -/
theorem control_in_data :
    (oneByte.data.length ≤ twoBytes.data.length ∧
      oneByte.control.length = twoBytes.control.length ∧
      (∃ between after,
        sendmsgLocal wordMacros smallHeap fullSocket 0 noFiles quietPipe oneByte =
          some (.ok 1, between) ∧
        recvmsgLocal wordMacros smallHeap fullSocket 0 noFiles between twoBytes =
          some (.ok ⟨2, [[7], [9]], [0], 1, 2⟩, after)) ∧
      ¬ Arrives wordMacros smallHeap fullSocket fullSocket noFiles noFiles quietPipe oneByte
        twoBytes) ∧
    ¬ Arrives wordMacros smallHeap fullSocket fullSocket noFiles noFiles quietPipe (passing 5)
      (passing 5) := by
  refine ⟨⟨by decide, by decide, ⟨_, _, rfl, rfl⟩, fun h => ?_⟩, fun h => ?_⟩
  · exact absurd (h.carries rfl).data (by decide)
  · have hcomes := h.comes (passing_apart 5) rfl
    rcases hcomes.1.rights (by decide) with hlow | ⟨hfull, -⟩
    · exact absurd (hlow.least 0 (Nat.zero_le 0) (by decide)) (by decide)
    · exact absurd (hfull 0 (by decide)) (by decide)

end MinC.Sys
