import MinC.Sys.Descriptors

/-!
Headers of messages.

The structures of a caller are translated where they are. Of an entry of the
vector, the two words change places, and a control message gets another type, or
a handle in the place of a descriptor. They are translated back after a transfer
that was done. After one that was not they are left as they are, and the control
messages are translated before it is known whether there is a socket at all.
-/

namespace MinC.Sys

open MinC.Lib MinC.Win MinC.Vfs

/-! ### Structures -/

/-- `struct iovec`. -/
structure Iovec where
  iovBase : UInt32
  iovLen : UInt32
  deriving DecidableEq

/-- `WSABUF`. -/
structure Wsabuf where
  len : UInt32
  buf : UInt32
  deriving DecidableEq

/-- What is in the first word of an entry, and in the second, read as a `WSABUF`. -/
def Iovec.toWsabuf (vec : Iovec) : Wsabuf := ⟨vec.iovBase, vec.iovLen⟩

/-- A control message, with the first word of its data and the bytes behind it. -/
structure Cmsghdr where
  level : UInt32
  type : UInt32
  word : UInt32
  rest : List UInt8
  deriving DecidableEq

/-- `struct msghdr`, with the entries of its vector and the control messages in the order
they are gone through. -/
structure Msghdr where
  iov : List Iovec
  control : List Cmsghdr
  controllen : UInt32
  deriving DecidableEq

def solSocket : UInt32 := 0xFFFF
def ipprotoIp : UInt32 := 0
def ipprotoIpv6 : UInt32 := 41

def scmRights : UInt32 := 1

/-! ### Types of control messages -/

def inSockoptWin : List UInt32 :=
  [0, 1, 2, 3, 4, 0, 0, 0, 0, 9, 10, 11, 12, 13, 0, 0, 0, 0, 0, 0xFFFFFFFF, 0, 0, 0, 0, 0, 0, 0, 0,
    0, 0, 24, 21, 0, 0, 0, 0, 0, 0, 0, 0, 0, 0]

def inSockoptPosix : List UInt32 :=
  [0, 1, 2, 3, 4, 0, 0, 0, 0, 9, 10, 11, 12, 13, 0, 0, 0, 0, 0, 0, 0, 31, 0, 0, 30, 0, 0, 0, 0, 0,
    0, 0, 0, 0, 0, 0, 0, 0, 0, 0, 0, 0]

def in6SockoptWin : List UInt32 :=
  [0, 0, 0, 0, 4, 0, 0, 0, 0, 9, 10, 11, 12, 13, 0xFFFFFFFF, 0, 0, 0, 0xFFFFFFFF, 0, 0, 0, 0, 0, 0,
    0, 0, 26, 27, 0, 0, 0, 0, 0, 0, 0, 19, 21, 38, 0xFFFFFFFF, 0xFFFFFFFF, 0, 0xFFFFFFFF, 0, 0, 0,
    19, 21, 0, 1, 0, 0, 0, 0, 0, 0, 0, 0, 0, 0, 0, 0]

def in6SockoptPosix : List UInt32 :=
  [0, 0, 0, 0, 4, 0, 0, 0, 0, 9, 10, 11, 12, 13, 0, 0, 0, 0, 0, 46, 0, 47, 0, 0, 0, 0, 26, 27, 0, 0,
    0, 0, 0, 0, 0, 0, 0, 0, 38, 0, 0, 0, 0, 0, 0, 0, 0, 0, 0, 0, 0, 0, 0, 0, 0, 0, 0, 0, 0, 0, 0, 0]

/-- What the calls find: the devices, the answers to the duplication for a control
message, what is found about a handle, what is behind the end of a table, and the
outcomes of the transfers. A transfer that receives leaves control messages and a
length, whether it is done or not. -/
structure SocketEnv where
  devices : UInt32 → WinDevice
  dup : Nat → DupAnswers
  namei : UInt32 → WinVnode
  behind : List UInt32 → UInt32 → UInt32
  send : WinVnode → List Wsabuf → List Cmsghdr → UInt32 → Except UInt32 UInt32
  recv : WinVnode → List Wsabuf → UInt32 → Except UInt32 UInt32 × List Cmsghdr × UInt32

section
variable (env : SocketEnv)

def sockopt (table : List UInt32) (type : UInt32) : UInt32 :=
  (table[type.toNat]?).getD (env.behind table type)

/-! ### There -/

/-- The vnode that a descriptor in a control message is duplicated to. -/
def passed (k : Nat) (s : TaskFds) (fd : UInt32) : WinVnode × Handles :=
  (vfsFDupfd env.devices (env.dup k) s.handles (s.node fd.toNat) false WinVnode.zero).2

def soSockoptWin (k : Nat) (s : TaskFds) (cmsg : Cmsghdr) : Cmsghdr × TaskFds :=
  if cmsg.type = scmRights then
    ({ cmsg with word := UInt32.ofNat (passed env k s cmsg.word).1.handle },
      { s with handles := (passed env k s cmsg.word).2 })
  else (cmsg, s)

/-- A control message of the header, the `k`-th that has been gone through. -/
def cmsgWin (k : Nat) (s : TaskFds) (cmsg : Cmsghdr) : Cmsghdr × TaskFds :=
  if cmsg.level = solSocket then soSockoptWin env k s cmsg
  else if cmsg.level = ipprotoIp then
    ({ cmsg with type := sockopt env inSockoptWin cmsg.type }, s)
  else if cmsg.level = ipprotoIpv6 then
    ({ cmsg with type := sockopt env in6SockoptWin cmsg.type }, s)
  else (cmsg, s)

def cmsghdrWin (k : Nat) (s : TaskFds) : List Cmsghdr → List Cmsghdr × TaskFds
  | [] => ([], s)
  | cmsg :: control =>
      let translated := cmsgWin env k s cmsg
      let rest := cmsghdrWin (k + 1) translated.2 control
      (translated.1 :: rest.1, rest.2)

/-- `iovec_swap`. -/
def iovecSwap (iov : List Iovec) : List Iovec := iov.map fun vec => ⟨vec.iovLen, vec.iovBase⟩

/-! ### Back -/

def soSockoptPosix (s : TaskFds) (cmsg : Cmsghdr) : Cmsghdr × TaskFds :=
  if cmsg.type = scmRights then
    let (fd, node) := fdPosix s.node (env.namei cmsg.word) 0
    ({ cmsg with word := UInt32.ofInt fd }, { s with node := node })
  else (cmsg, s)

def cmsgPosix (s : TaskFds) (cmsg : Cmsghdr) : Cmsghdr × TaskFds :=
  if cmsg.level = solSocket then soSockoptPosix env s cmsg
  else if cmsg.level = ipprotoIp then
    ({ cmsg with type := sockopt env inSockoptPosix cmsg.type }, s)
  else if cmsg.level = ipprotoIpv6 then
    ({ cmsg with type := sockopt env in6SockoptPosix cmsg.type }, s)
  else (cmsg, s)

def cmsghdrPosix (s : TaskFds) : List Cmsghdr → List Cmsghdr × TaskFds
  | [] => ([], s)
  | cmsg :: control =>
      let translated := cmsgPosix env s cmsg
      let rest := cmsghdrPosix translated.2 control
      (translated.1 :: rest.1, rest.2)

/-! ### Calls -/

/-- What a call returns, a number of bytes or else of an error, with the header and the
task that it leaves. -/
structure MessageCall where
  result : Except Nat UInt32
  msg : Msghdr
  task : TaskFds

def sysSendmsg (s : TaskFds) (sockfd : Int) (msg : Msghdr) (flags : UInt32) : MessageCall :=
  let (control, s) := cmsghdrWin env 0 s msg.control
  let msg := { msg with control := control }
  if !inRange sockfd then ⟨.error ebadf, msg, s⟩
  else
    let msg := { msg with iov := iovecSwap msg.iov }
    match env.send (s.node sockfd.toNat) (msg.iov.map Iovec.toWsabuf) msg.control flags with
    | .error e => ⟨.error (errnoPosix e), msg, s⟩
    | .ok n =>
        let msg := { msg with iov := iovecSwap msg.iov }
        let (control, s) := cmsghdrPosix env s msg.control
        ⟨.ok n, { msg with control := control }, s⟩

def sysRecvmsg (s : TaskFds) (sockfd : Int) (msg : Msghdr) (flags : UInt32) : MessageCall :=
  if !inRange sockfd then ⟨.error ebadf, msg, s⟩
  else
    let msg := { msg with iov := iovecSwap msg.iov }
    match env.recv (s.node sockfd.toNat) (msg.iov.map Iovec.toWsabuf) flags with
    | (.error e, control, _) => ⟨.error (errnoPosix e), { msg with control := control }, s⟩
    | (.ok n, control, controllen) =>
        let msg := { msg with controllen := controllen, iov := iovecSwap msg.iov }
        let (control, s) := cmsghdrPosix env s control
        ⟨.ok n, { msg with control := control }, s⟩

end

/-! ### What is left to the caller -/

/-- The two words of the entry are one. -/
def Iovec.Same (vec : Iovec) : Prop := vec.iovBase = vec.iovLen

theorem iovecSwap_iovecSwap (iov : List Iovec) : iovecSwap (iovecSwap iov) = iov := by
  rw [iovecSwap, iovecSwap, List.map_map]
  exact List.map_id iov

theorem iovecSwap_eq_self_iff {iov : List Iovec} :
    iovecSwap iov = iov ↔ ∀ vec ∈ iov, vec.Same := by
  induction iov with
  | nil => simp [iovecSwap]
  | cons vec iov ih =>
      have hvec : (⟨vec.iovLen, vec.iovBase⟩ : Iovec) = vec ↔ vec.Same := by
        rw [Iovec.Same, Iovec.mk.injEq]
        exact ⟨fun h => h.2, fun h => ⟨h.symm, h⟩⟩
      rw [List.forall_mem_cons, ← ih, ← hvec]
      exact List.cons_eq_cons

section
variable (env : SocketEnv)

/-- The message is its own translation: the handle in the place of a descriptor is the
number of that descriptor, and the tables have the type for itself. -/
def Cmsghdr.Same (k : Nat) (s : TaskFds) (cmsg : Cmsghdr) : Prop :=
  if cmsg.level = solSocket then
    cmsg.type = scmRights → UInt32.ofNat (passed env k s cmsg.word).1.handle = cmsg.word
  else if cmsg.level = ipprotoIp then sockopt env inSockoptWin cmsg.type = cmsg.type
  else if cmsg.level = ipprotoIpv6 then sockopt env in6SockoptWin cmsg.type = cmsg.type
  else True

/-- All are their own translation, each at the state in which it is come to. -/
def Untranslated : Nat → TaskFds → List Cmsghdr → Prop
  | _, _, [] => True
  | k, s, cmsg :: control =>
      cmsg.Same env k s ∧ Untranslated (k + 1) (cmsgWin env k s cmsg).2 control

theorem Cmsghdr.with_word {cmsg : Cmsghdr} {word : UInt32} :
    { cmsg with word := word } = cmsg ↔ word = cmsg.word := by
  cases cmsg
  simp

theorem Cmsghdr.with_type {cmsg : Cmsghdr} {type : UInt32} :
    { cmsg with type := type } = cmsg ↔ type = cmsg.type := by
  cases cmsg
  simp

theorem cmsgWin_eq_self_iff {k : Nat} {s : TaskFds} {cmsg : Cmsghdr} :
    (cmsgWin env k s cmsg).1 = cmsg ↔ cmsg.Same env k s := by
  rw [cmsgWin, Cmsghdr.Same]
  split_ifs with hsocket hip hipv6
  · rw [soSockoptWin]
    split_ifs with hrights
    · rw [Cmsghdr.with_word]
      exact ⟨fun h _ => h, fun h => h hrights⟩
    · exact ⟨fun _ h => absurd h hrights, fun _ => rfl⟩
  · exact Cmsghdr.with_type
  · exact Cmsghdr.with_type
  · exact ⟨fun _ => trivial, fun _ => rfl⟩

theorem cmsghdrWin_eq_self_iff {k : Nat} {s : TaskFds} {control : List Cmsghdr} :
    (cmsghdrWin env k s control).1 = control ↔ Untranslated env k s control := by
  induction control generalizing k s with
  | nil => exact ⟨fun _ => trivial, fun _ => rfl⟩
  | cons cmsg control ih =>
      rw [Untranslated, ← ih, ← cmsgWin_eq_self_iff env]
      exact List.cons_eq_cons

variable (s : TaskFds) (sockfd : Int) (msg : Msghdr) (flags : UInt32)

/-- There is a socket, and it does not take the message. -/
def SendFails : Prop :=
  inRange sockfd = true ∧ ∃ e,
    env.send ((cmsghdrWin env 0 s msg.control).2.node sockfd.toNat)
      ((iovecSwap msg.iov).map Iovec.toWsabuf) (cmsghdrWin env 0 s msg.control).1 flags = .error e

/-- There is a socket, and it has no message to give. -/
def RecvFails : Prop :=
  inRange sockfd = true ∧ ∃ e,
    (env.recv (s.node sockfd.toNat) ((iovecSwap msg.iov).map Iovec.toWsabuf) flags).1 = .error e

/-- A call to send leaves the vector as it was, and one that fails the control messages. -/
def SendKeeps : Prop :=
  (sysSendmsg env s sockfd msg flags).msg.iov = msg.iov ∧
    ∀ e, (sysSendmsg env s sockfd msg flags).result = .error e →
      (sysSendmsg env s sockfd msg flags).msg.control = msg.control

/-- A call to receive leaves the vector as it was. -/
def RecvKeeps : Prop := (sysRecvmsg env s sockfd msg flags).msg.iov = msg.iov

variable {env s sockfd msg flags}

theorem sysSendmsg_bad (hin : inRange sockfd = false) :
    sysSendmsg env s sockfd msg flags =
      ⟨.error ebadf, { msg with control := (cmsghdrWin env 0 s msg.control).1 },
        (cmsghdrWin env 0 s msg.control).2⟩ := by
  simp [sysSendmsg, hin]

theorem sysSendmsg_error {e : UInt32} (hin : inRange sockfd = true)
    (hsend : env.send ((cmsghdrWin env 0 s msg.control).2.node sockfd.toNat)
      ((iovecSwap msg.iov).map Iovec.toWsabuf) (cmsghdrWin env 0 s msg.control).1 flags =
        .error e) :
    sysSendmsg env s sockfd msg flags =
      ⟨.error (errnoPosix e),
        { msg with iov := iovecSwap msg.iov, control := (cmsghdrWin env 0 s msg.control).1 },
        (cmsghdrWin env 0 s msg.control).2⟩ := by
  simp [sysSendmsg, hin, hsend]

theorem sysSendmsg_ok {n : UInt32} (hin : inRange sockfd = true)
    (hsend : env.send ((cmsghdrWin env 0 s msg.control).2.node sockfd.toNat)
      ((iovecSwap msg.iov).map Iovec.toWsabuf) (cmsghdrWin env 0 s msg.control).1 flags = .ok n) :
    (sysSendmsg env s sockfd msg flags).result = .ok n ∧
      (sysSendmsg env s sockfd msg flags).msg.iov = msg.iov := by
  simp [sysSendmsg, hin, hsend, iovecSwap_iovecSwap]

theorem sendKeeps_iff :
    SendKeeps env s sockfd msg flags ↔
      (SendFails env s sockfd msg flags → ∀ vec ∈ msg.iov, vec.Same) ∧
        (inRange sockfd = false ∨ SendFails env s sockfd msg flags →
          Untranslated env 0 s msg.control) := by
  rw [← iovecSwap_eq_self_iff, ← cmsghdrWin_eq_self_iff env]
  cases hin : inRange sockfd with
  | false =>
      have hfails : ¬SendFails env s sockfd msg flags := fun h => absurd (hin ▸ h.1) (by decide)
      rw [SendKeeps, sysSendmsg_bad hin]
      exact ⟨fun h => ⟨fun h' => absurd h' hfails, fun _ => h.2 ebadf rfl⟩,
        fun h => ⟨rfl, fun _ _ => h.2 (.inl rfl)⟩⟩
  | true =>
      cases hsend : env.send ((cmsghdrWin env 0 s msg.control).2.node sockfd.toNat)
          ((iovecSwap msg.iov).map Iovec.toWsabuf) (cmsghdrWin env 0 s msg.control).1 flags with
      | error e =>
          have hfails : SendFails env s sockfd msg flags := ⟨hin, e, hsend⟩
          rw [SendKeeps, sysSendmsg_error hin hsend]
          exact ⟨fun h => ⟨fun _ => h.1, fun _ => h.2 _ rfl⟩,
            fun h => ⟨h.1 hfails, fun _ _ => h.2 (.inr hfails)⟩⟩
      | ok n =>
          have hfails : ¬SendFails env s sockfd msg flags := by
            rintro ⟨-, e, he⟩
            rw [hsend] at he
            cases he
          obtain ⟨hresult, hiov⟩ := sysSendmsg_ok hin hsend
          refine iff_of_true ⟨hiov, fun e he => ?_⟩ ⟨fun h => absurd h hfails, fun h => ?_⟩
          · rw [hresult] at he
            cases he
          · exact absurd (h.resolve_left (by decide)) hfails

theorem recvKeeps_iff :
    RecvKeeps env s sockfd msg flags ↔
      (RecvFails env s sockfd msg flags → ∀ vec ∈ msg.iov, vec.Same) := by
  rw [← iovecSwap_eq_self_iff]
  cases hin : inRange sockfd with
  | false =>
      have hfails : ¬RecvFails env s sockfd msg flags := fun h => absurd (hin ▸ h.1) (by decide)
      refine iff_of_true ?_ fun h => absurd h hfails
      simp [RecvKeeps, sysRecvmsg, hin]
  | true =>
      obtain ⟨⟨reply, control, controllen⟩, hrecv⟩ : ∃ reply,
          env.recv (s.node sockfd.toNat) ((iovecSwap msg.iov).map Iovec.toWsabuf) flags = reply :=
        ⟨_, rfl⟩
      cases reply with
      | error e =>
          have hfails : RecvFails env s sockfd msg flags := ⟨hin, e, by rw [hrecv]⟩
          have hiov : (sysRecvmsg env s sockfd msg flags).msg.iov = iovecSwap msg.iov := by
            simp [sysRecvmsg, hin, hrecv]
          rw [RecvKeeps, hiov]
          exact ⟨fun h _ => h, fun h => h hfails⟩
      | ok n =>
          have hfails : ¬RecvFails env s sockfd msg flags := by
            rintro ⟨-, e, he⟩
            rw [hrecv] at he
            cases he
          refine iff_of_true ?_ fun h => absurd h hfails
          simp [RecvKeeps, sysRecvmsg, hin, hrecv, iovecSwap_iovecSwap]

end

/-- Both calls leave to the caller what was the caller's, exactly when no transfer fails over a
vector that swapping changes, and no call to send fails over a control message that is not its
own translation. -/
theorem messageKept_iff (env : SocketEnv) (s : TaskFds) (sockfd : Int) (msg : Msghdr)
    (flags : UInt32) :
    (SendKeeps env s sockfd msg flags ↔
      (SendFails env s sockfd msg flags → ∀ vec ∈ msg.iov, vec.Same) ∧
        (inRange sockfd = false ∨ SendFails env s sockfd msg flags →
          Untranslated env 0 s msg.control)) ∧
      (RecvKeeps env s sockfd msg flags ↔
        (RecvFails env s sockfd msg flags → ∀ vec ∈ msg.iov, vec.Same)) :=
  ⟨sendKeeps_iff, recvKeeps_iff⟩

/-- A socket whose buffers are full, and no control message to pass a descriptor. -/
def fullSocket : SocketEnv where
  devices := fun _ => ⟨.vnon, 0, 0, .unknown, 0, 0, 0, 0, 0⟩
  dup := fun _ => ⟨.fail errorInvalidHandle, .fail errorInvalidHandle⟩
  namei := fun _ => WinVnode.zero
  behind := fun _ _ => 0
  send := fun _ _ _ _ => .error wsaewouldblock
  recv := fun _ _ _ => (.error wsaewouldblock, [], 0)

/-- Five bytes at an address, for which the receiver is to learn the interface. -/
def fiveBytes : Msghdr where
  iov := [⟨0x1000, 5⟩]
  control := [⟨ipprotoIp, 30, 1, []⟩]
  controllen := 16

def noFiles : TaskFds where
  node := fun i => { WinVnode.zero with fileId := i }
  handles := fun _ _ => none

theorem fiveBytes_not_kept :
    (sysSendmsg fullSocket noFiles 3 fiveBytes 0).result = .error eagain ∧
      (sysSendmsg fullSocket noFiles 3 fiveBytes 0).msg.iov = [⟨5, 0x1000⟩] ∧
      (sysSendmsg fullSocket noFiles 3 fiveBytes 0).msg.control = [⟨ipprotoIp, 24, 1, []⟩] ∧
      (sysSendmsg fullSocket noFiles (-1) fiveBytes 0).result = .error ebadf ∧
      (sysSendmsg fullSocket noFiles (-1) fiveBytes 0).msg.control = [⟨ipprotoIp, 24, 1, []⟩] ∧
      (sysRecvmsg fullSocket noFiles 3 fiveBytes 0).msg.iov = [⟨5, 0x1000⟩] ∧
      ¬SendKeeps fullSocket noFiles 3 fiveBytes 0 ∧
      ¬SendKeeps fullSocket noFiles (-1) fiveBytes 0 ∧
      ¬RecvKeeps fullSocket noFiles 3 fiveBytes 0 := by
  refine ⟨rfl, by decide, by decide, rfl, by decide, by decide, ?_, ?_, ?_⟩
  · exact fun h => absurd h.1 (by decide)
  · exact fun h => absurd (h.2 ebadf rfl) (by decide)
  · intro h
    rw [RecvKeeps] at h
    exact absurd h (by decide)

end MinC.Sys
