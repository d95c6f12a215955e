import MinC.Sys.Socket

/-!
Numbers of options.

Options of two levels have other numbers with Windows. The numbers are looked up
in tables, at an index that comes from the caller, or else with a message, and
a descriptor that is passed is looked up where the open files are. A call that
may only look up what is there has no result where the index leaves a table, and
else the result of the call. What an index has to be like is then read off the
places at which there is no result. A number that Windows does not have is minus
one, which is not one to come back from.
-/

namespace MinC.Sys

open MinC.Lib MinC.Win MinC.Vfs

/-! ### Options of sockets -/

section
variable (env : SocketEnv)

def sockoptWin (level name : UInt32) : UInt32 :=
  if level = ipprotoIp then sockopt env inSockoptWin name
  else if level = ipprotoIpv6 then sockopt env in6SockoptWin name
  else name

/-- The answer to an option: an error, if there is one, and the vnode that is left. -/
structure OptionSet where
  error : Option UInt32
  node : WinVnode

variable (set : WinVnode → UInt32 → UInt32 → List UInt8 → OptionSet)

/-- What the call leaves of an answer about the socket of a descriptor. -/
def settled (s : TaskFds) (fd : Nat) (answer : OptionSet) : Int × TaskFds :=
  (match answer.error with
    | none => 0
    | some e => -(errnoPosix e : Int),
    { s with node := Function.update s.node fd answer.node })

def sysSetsockopt (s : TaskFds) (sockfd : Int) (level optname : UInt32) (optval : List UInt8) :
    Int × TaskFds :=
  if !inRange sockfd then (-(ebadf : Int), s)
  else
    settled s sockfd.toNat
      (set (s.node sockfd.toNat) level (sockoptWin env level optname) optval)

end

/-! ### Calls that only look up what is there -/

namespace Checked

/-- An entry of a table. -/
def entry (table : List UInt32) (index : UInt32) : Option UInt32 := table[index.toNat]?

/-- The vnode of a descriptor. -/
def nodeOf (s : TaskFds) (fd : UInt32) : Option WinVnode :=
  if fd.toNat < openMax then some (s.node fd.toNat) else none

section
variable (env : SocketEnv)

def sockoptWin (level name : UInt32) : Option UInt32 :=
  if level = ipprotoIp then entry inSockoptWin name
  else if level = ipprotoIpv6 then entry in6SockoptWin name
  else some name

/-! ### There -/

def soSockoptWin (k : Nat) (s : TaskFds) (cmsg : Cmsghdr) : Option (Cmsghdr × TaskFds) :=
  if cmsg.type = scmRights then do
    let node ← nodeOf s cmsg.word
    let dup := (vfsFDupfd env.devices (env.dup k) s.handles node false WinVnode.zero).2
    return ({ cmsg with word := UInt32.ofNat dup.1.handle }, { s with handles := dup.2 })
  else some (cmsg, s)

def cmsgWin (k : Nat) (s : TaskFds) (cmsg : Cmsghdr) : Option (Cmsghdr × TaskFds) :=
  if cmsg.level = solSocket then soSockoptWin env k s cmsg
  else if cmsg.level = ipprotoIp then do
    let type ← entry inSockoptWin cmsg.type
    return ({ cmsg with type := type }, s)
  else if cmsg.level = ipprotoIpv6 then do
    let type ← entry in6SockoptWin cmsg.type
    return ({ cmsg with type := type }, s)
  else some (cmsg, s)

def cmsghdrWin (k : Nat) (s : TaskFds) : List Cmsghdr → Option (List Cmsghdr × TaskFds)
  | [] => some ([], s)
  | cmsg :: control => do
      let translated ← cmsgWin env k s cmsg
      let rest ← cmsghdrWin (k + 1) translated.2 control
      return (translated.1 :: rest.1, rest.2)

/-! ### Back -/

def cmsgPosix (s : TaskFds) (cmsg : Cmsghdr) : Option (Cmsghdr × TaskFds) :=
  if cmsg.level = solSocket then some (soSockoptPosix env s cmsg)
  else if cmsg.level = ipprotoIp then do
    let type ← entry inSockoptPosix cmsg.type
    return ({ cmsg with type := type }, s)
  else if cmsg.level = ipprotoIpv6 then do
    let type ← entry in6SockoptPosix cmsg.type
    return ({ cmsg with type := type }, s)
  else some (cmsg, s)

def cmsghdrPosix (s : TaskFds) : List Cmsghdr → Option (List Cmsghdr × TaskFds)
  | [] => some ([], s)
  | cmsg :: control => do
      let translated ← cmsgPosix env s cmsg
      let rest ← cmsghdrPosix translated.2 control
      return (translated.1 :: rest.1, rest.2)

/-! ### Calls -/

def sysSetsockopt (set : WinVnode → UInt32 → UInt32 → List UInt8 → OptionSet) (s : TaskFds)
    (sockfd : Int) (level optname : UInt32) (optval : List UInt8) : Option (Int × TaskFds) :=
  if !inRange sockfd then some (-(ebadf : Int), s)
  else do
    let name ← sockoptWin level optname
    return settled s sockfd.toNat (set (s.node sockfd.toNat) level name optval)

def sysSendmsg (s : TaskFds) (sockfd : Int) (msg : Msghdr) (flags : UInt32) :
    Option MessageCall := do
  let (control, s) ← cmsghdrWin env 0 s msg.control
  let msg := { msg with control := control }
  if !inRange sockfd then return ⟨.error ebadf, msg, s⟩
  else
    let msg := { msg with iov := iovecSwap msg.iov }
    match env.send (s.node sockfd.toNat) (msg.iov.map Iovec.toWsabuf) msg.control flags with
    | .error e => return ⟨.error (errnoPosix e), msg, s⟩
    | .ok n =>
        let msg := { msg with iov := iovecSwap msg.iov }
        let (control, s) ← cmsghdrPosix env s msg.control
        return ⟨.ok n, { msg with control := control }, s⟩

def sysRecvmsg (s : TaskFds) (sockfd : Int) (msg : Msghdr) (flags : UInt32) :
    Option MessageCall :=
  if !inRange sockfd then some ⟨.error ebadf, msg, s⟩
  else
    let msg := { msg with iov := iovecSwap msg.iov }
    match env.recv (s.node sockfd.toNat) (msg.iov.map Iovec.toWsabuf) flags with
    | (.error e, control, _) => some ⟨.error (errnoPosix e), { msg with control := control }, s⟩
    | (.ok n, control, controllen) => do
        let msg := { msg with controllen := controllen, iov := iovecSwap msg.iov }
        let (control, s) ← cmsghdrPosix env s control
        return ⟨.ok n, { msg with control := control }, s⟩

end

end Checked

/-! ### What an index has to be like -/

/-- The tables of the level have the number, those for the way there as those for the
way back. -/
def InTable (level name : UInt32) : Prop :=
  (level = ipprotoIp → name.toNat < 42) ∧ (level = ipprotoIpv6 → name.toNat < 62)

instance decidableInTable (level name : UInt32) : Decidable (InTable level name) :=
  inferInstanceAs (Decidable (_ ∧ _))

/-- The number is none of those that stand as minus one in the table. -/
def Numbered (level name : UInt32) : Prop :=
  (level = ipprotoIp → name ≠ 19) ∧ (level = ipprotoIpv6 → name ∉ [14, 18, 39, 40, 42])

instance decidableNumbered (level name : UInt32) : Decidable (Numbered level name) :=
  inferInstanceAs (Decidable (_ ∧ _))

/-- The descriptor that is passed, if there is one, is one that a task may have. -/
def Cmsghdr.Passes (cmsg : Cmsghdr) : Prop :=
  cmsg.level = solSocket → cmsg.type = scmRights → cmsg.word.toNat < openMax

instance decidablePasses (cmsg : Cmsghdr) : Decidable cmsg.Passes :=
  inferInstanceAs (Decidable (_ → _))

theorem inTable_of_other {level name : UInt32} (hip : level ≠ ipprotoIp)
    (hipv6 : level ≠ ipprotoIpv6) : InTable level name :=
  ⟨fun h => absurd h hip, fun h => absurd h hipv6⟩

theorem inTable_ip {name : UInt32} : InTable ipprotoIp name ↔ name.toNat < 42 :=
  ⟨fun h => h.1 rfl, fun h => ⟨fun _ => h, fun hlevel => absurd hlevel (by decide)⟩⟩

theorem inTable_ipv6 {name : UInt32} : InTable ipprotoIpv6 name ↔ name.toNat < 62 :=
  ⟨fun h => h.2 rfl, fun h => ⟨fun hlevel => absurd hlevel (by decide), fun _ => h⟩⟩

theorem numbered_ip {name : UInt32} : Numbered ipprotoIp name ↔ name ≠ 19 :=
  ⟨fun h => h.1 rfl, fun h => ⟨fun _ => h, fun hlevel => absurd hlevel (by decide)⟩⟩

theorem numbered_ipv6 {name : UInt32} :
    Numbered ipprotoIpv6 name ↔ name ∉ [14, 18, 39, 40, 42] :=
  ⟨fun h => h.2 rfl, fun h => ⟨fun hlevel => absurd hlevel (by decide), fun _ => h⟩⟩

theorem numbered_of_other {level name : UInt32} (hip : level ≠ ipprotoIp)
    (hipv6 : level ≠ ipprotoIpv6) : Numbered level name :=
  ⟨fun h => absurd h hip, fun h => absurd h hipv6⟩

theorem passes_of_other {cmsg : Cmsghdr} (h : cmsg.level ≠ solSocket) : cmsg.Passes :=
  fun hlevel => absurd hlevel h

/-! ### What is looked up -/

namespace Checked

section
variable (env : SocketEnv)

theorem entry_eq (table : List UInt32) (index : UInt32) :
    entry table index =
      if index.toNat < table.length then some (sockopt env table index) else none := by
  rw [entry, sockopt]
  split_ifs with h
  · rw [List.getElem?_eq_getElem h, Option.getD_some]
  · exact List.getElem?_eq_none (Nat.le_of_not_lt h)

/-- Of two tables, one for each level, the one that is looked up has the number exactly if
the level has it. -/
theorem byLevel_eq {α : Type} (ip ipv6 : List UInt32) (hip : ip.length = 42)
    (hipv6 : ipv6.length = 62) (level name : UInt32) (f : UInt32 → α) (other : α) :
    (if level = ipprotoIp then (entry ip name).bind fun type => some (f type)
      else if level = ipprotoIpv6 then (entry ipv6 name).bind fun type => some (f type)
      else some other) =
    if InTable level name then
      some (if level = ipprotoIp then f (sockopt env ip name)
        else if level = ipprotoIpv6 then f (sockopt env ipv6 name)
        else other)
    else none := by
  rw [entry_eq env, entry_eq env, hip, hipv6]
  by_cases h4 : level = ipprotoIp
  · subst h4
    rw [if_pos rfl, if_pos rfl, if_congr inTable_ip rfl rfl]
    split_ifs <;> rfl
  · rw [if_neg h4, if_neg h4]
    by_cases h6 : level = ipprotoIpv6
    · subst h6
      rw [if_pos rfl, if_pos rfl, if_congr inTable_ipv6 rfl rfl]
      split_ifs <;> rfl
    · rw [if_neg h6, if_neg h6, if_pos (inTable_of_other h4 h6)]

theorem sockoptWin_eq (level name : UInt32) :
    sockoptWin level name =
      if InTable level name then some (MinC.Sys.sockoptWin env level name) else none := by
  have h := byLevel_eq env inSockoptWin in6SockoptWin rfl rfl level name id name
  simp only [id, Option.bind_fun_some] at h
  exact h

/-- Of a message it is the type that is looked up, and the descriptor that it passes. -/
theorem cmsgWin_eq (k : Nat) (s : TaskFds) (cmsg : Cmsghdr) :
    cmsgWin env k s cmsg =
      if InTable cmsg.level cmsg.type ∧ cmsg.Passes then some (MinC.Sys.cmsgWin env k s cmsg)
      else none := by
  rw [cmsgWin, MinC.Sys.cmsgWin]
  by_cases hsocket : cmsg.level = solSocket
  · have htable : InTable cmsg.level cmsg.type := by
      rw [hsocket]
      exact inTable_of_other (by decide) (by decide)
    rw [if_pos hsocket, if_pos hsocket, soSockoptWin, MinC.Sys.soSockoptWin]
    by_cases hrights : cmsg.type = scmRights
    · have hpasses : InTable cmsg.level cmsg.type ∧ cmsg.Passes ↔ cmsg.word.toNat < openMax :=
        ⟨fun h => h.2 hsocket hrights, fun h => ⟨htable, fun _ _ => h⟩⟩
      rw [if_pos hrights, if_pos hrights, nodeOf, if_congr hpasses rfl rfl]
      split_ifs <;> rfl
    · rw [if_neg hrights, if_neg hrights, if_pos ⟨htable, fun _ h => absurd h hrights⟩]
  · rw [if_neg hsocket, if_neg hsocket,
      if_congr (and_iff_left (passes_of_other hsocket)) rfl rfl]
    exact byLevel_eq env inSockoptWin in6SockoptWin rfl rfl _ _
      (fun type => ({ cmsg with type := type }, s)) _

theorem cmsgPosix_eq (s : TaskFds) (cmsg : Cmsghdr) :
    cmsgPosix env s cmsg =
      if InTable cmsg.level cmsg.type then some (MinC.Sys.cmsgPosix env s cmsg) else none := by
  rw [cmsgPosix, MinC.Sys.cmsgPosix]
  by_cases hsocket : cmsg.level = solSocket
  · have htable : InTable cmsg.level cmsg.type := by
      rw [hsocket]
      exact inTable_of_other (by decide) (by decide)
    rw [if_pos hsocket, if_pos hsocket, if_pos htable]
  · rw [if_neg hsocket, if_neg hsocket]
    exact byLevel_eq env inSockoptPosix in6SockoptPosix rfl rfl _ _
      (fun type => ({ cmsg with type := type }, s)) _

/-- All messages have to be found, whatever the ones before them left. -/
theorem cmsghdrWin_eq (k : Nat) (s : TaskFds) (control : List Cmsghdr) :
    cmsghdrWin env k s control =
      if ∀ cmsg ∈ control, InTable cmsg.level cmsg.type ∧ cmsg.Passes then
        some (MinC.Sys.cmsghdrWin env k s control)
      else none := by
  induction control generalizing k s with
  | nil => rfl
  | cons cmsg control ih =>
      rw [cmsghdrWin, cmsgWin_eq, if_congr List.forall_mem_cons rfl rfl]
      by_cases hcmsg : InTable cmsg.level cmsg.type ∧ cmsg.Passes
      · rw [if_pos hcmsg, if_congr (and_iff_right hcmsg) rfl rfl, Option.bind_eq_bind,
          Option.bind_some, ih]
        split_ifs <;> rfl
      · rw [if_neg hcmsg, if_neg fun h => hcmsg h.1]
        rfl

theorem cmsghdrPosix_eq (s : TaskFds) (control : List Cmsghdr) :
    cmsghdrPosix env s control =
      if ∀ cmsg ∈ control, InTable cmsg.level cmsg.type then
        some (MinC.Sys.cmsghdrPosix env s control)
      else none := by
  induction control generalizing s with
  | nil => rfl
  | cons cmsg control ih =>
      rw [cmsghdrPosix, cmsgPosix_eq, if_congr List.forall_mem_cons rfl rfl]
      by_cases hcmsg : InTable cmsg.level cmsg.type
      · rw [if_pos hcmsg, if_congr (and_iff_right hcmsg) rfl rfl, Option.bind_eq_bind,
          Option.bind_some, ih]
        split_ifs <;> rfl
      · rw [if_neg hcmsg, if_neg fun h => hcmsg h.1]
        rfl

end

end Checked

/-! ### What comes back -/

section
variable (env : SocketEnv)

/-- The way back finds what the way there gave, unless it was minus one. -/
theorem inTable_ip_iff {name : UInt32} (h : name.toNat < 42) :
    (sockopt env inSockoptWin name).toNat < 42 ↔ name ≠ 19 := by
  have htable : ∀ i < 42, (inSockoptWin.getD i 0).toNat < 42 ↔ i ≠ 19 := by decide
  have hentry : sockopt env inSockoptWin name = inSockoptWin.getD name.toNat 0 := by
    rw [sockopt, List.getD_eq_getElem?_getD, List.getElem?_eq_getElem h]
    rfl
  rw [hentry, htable _ h, Ne, Ne, ← UInt32.toNat_inj]
  rfl

theorem inTable_ipv6_iff {name : UInt32} (h : name.toNat < 62) :
    (sockopt env in6SockoptWin name).toNat < 62 ↔ name ∉ [14, 18, 39, 40, 42] := by
  have htable : ∀ i < 62, (in6SockoptWin.getD i 0).toNat < 62 ↔
      UInt32.ofNat i ∉ [14, 18, 39, 40, 42] := by decide +kernel
  have hentry : sockopt env in6SockoptWin name = in6SockoptWin.getD name.toNat 0 := by
    rw [sockopt, List.getD_eq_getElem?_getD, List.getElem?_eq_getElem h]
    rfl
  rw [hentry, htable _ h, UInt32.ofNat_toNat]

theorem inTable_cmsgWin_iff (k : Nat) (s : TaskFds) {cmsg : Cmsghdr}
    (h : InTable cmsg.level cmsg.type) :
    InTable (cmsgWin env k s cmsg).1.level (cmsgWin env k s cmsg).1.type ↔
      Numbered cmsg.level cmsg.type := by
  rw [cmsgWin]
  by_cases hsocket : cmsg.level = solSocket
  · have hlevel : (soSockoptWin env k s cmsg).1.level = solSocket := by
      rw [soSockoptWin]
      split_ifs <;> exact hsocket
    rw [if_pos hsocket, hlevel, hsocket]
    exact iff_of_true (inTable_of_other (by decide) (by decide))
      (numbered_of_other (by decide) (by decide))
  · rw [if_neg hsocket]
    by_cases hip : cmsg.level = ipprotoIp
    · rw [if_pos hip]
      dsimp only
      rw [hip] at h ⊢
      rw [inTable_ip, numbered_ip, inTable_ip_iff env (inTable_ip.mp h)]
    · rw [if_neg hip]
      by_cases hipv6 : cmsg.level = ipprotoIpv6
      · rw [if_pos hipv6]
        dsimp only
        rw [hipv6] at h ⊢
        rw [inTable_ipv6, numbered_ipv6, inTable_ipv6_iff env (inTable_ipv6.mp h)]
      · rw [if_neg hipv6]
        exact iff_of_true h (numbered_of_other hip hipv6)

theorem inTable_cmsghdrWin_iff (k : Nat) (s : TaskFds) {control : List Cmsghdr}
    (h : ∀ cmsg ∈ control, InTable cmsg.level cmsg.type) :
    (∀ cmsg ∈ (cmsghdrWin env k s control).1, InTable cmsg.level cmsg.type) ↔
      ∀ cmsg ∈ control, Numbered cmsg.level cmsg.type := by
  induction control generalizing k s with
  | nil => exact iff_of_true (List.forall_mem_nil _) (List.forall_mem_nil _)
  | cons cmsg control ih =>
      obtain ⟨hcmsg, hcontrol⟩ := List.forall_mem_cons.mp h
      rw [cmsghdrWin, List.forall_mem_cons, List.forall_mem_cons, inTable_cmsgWin_iff env k s hcmsg,
        ih _ _ hcontrol]

/-! ### Calls -/

variable (s : TaskFds) (sockfd : Int) (msg : Msghdr) (flags : UInt32)

/-- There is a socket, and it takes the message. -/
def Sent : Prop :=
  inRange sockfd = true ∧ ∃ n,
    env.send ((cmsghdrWin env 0 s msg.control).2.node sockfd.toNat)
      ((iovecSwap msg.iov).map Iovec.toWsabuf) (cmsghdrWin env 0 s msg.control).1 flags = .ok n

/-- The control messages that come with a message that is received. -/
def Receives (control : List Cmsghdr) : Prop :=
  inRange sockfd = true ∧ ∃ n controllen,
    env.recv (s.node sockfd.toNat) ((iovecSwap msg.iov).map Iovec.toWsabuf) flags =
      (.ok n, control, controllen)

end

/-- A call in which a number of an option is looked up. -/
inductive SockoptCall
  | setsockopt (sockfd : Int) (level optname : UInt32) (optval : List UInt8)
  | sendmsg (sockfd : Int) (msg : Msghdr) (flags : UInt32)
  | recvmsg (sockfd : Int) (msg : Msghdr) (flags : UInt32)

section
variable (env : SocketEnv) (set : WinVnode → UInt32 → UInt32 → List UInt8 → OptionSet)
  (s : TaskFds)

/-- Nothing is looked up that is not there. -/
def SockoptCall.InBounds : SockoptCall → Prop
  | setsockopt sockfd level optname optval =>
      (Checked.sysSetsockopt set s sockfd level optname optval).isSome
  | sendmsg sockfd msg flags => (Checked.sysSendmsg env s sockfd msg flags).isSome
  | recvmsg sockfd msg flags => (Checked.sysRecvmsg env s sockfd msg flags).isSome

/-- What is looked up on the way there is there, and what is looked up on the way back of a
message that was sent, or that is received. -/
def SockoptCall.Suits : SockoptCall → Prop
  | setsockopt sockfd level optname _ => inRange sockfd = true → InTable level optname
  | sendmsg sockfd msg flags =>
      (∀ cmsg ∈ msg.control, InTable cmsg.level cmsg.type ∧ cmsg.Passes) ∧
        (Sent env s sockfd msg flags → ∀ cmsg ∈ msg.control, Numbered cmsg.level cmsg.type)
  | recvmsg sockfd msg flags => ∀ control, Receives env s sockfd msg flags control →
      ∀ cmsg ∈ control, InTable cmsg.level cmsg.type

theorem setsockopt_of_suits {sockfd : Int} {level optname : UInt32} {optval : List UInt8}
    (h : inRange sockfd = true → InTable level optname) :
    Checked.sysSetsockopt set s sockfd level optname optval =
      some (sysSetsockopt env set s sockfd level optname optval) := by
  rw [Checked.sysSetsockopt, sysSetsockopt]
  cases hin : inRange sockfd with
  | false => rfl
  | true =>
      rw [Checked.sockoptWin_eq env, if_pos (h hin)]
      rfl

include env in
theorem suits_of_setsockopt {sockfd : Int} {level optname : UInt32} {optval : List UInt8}
    (h : (Checked.sysSetsockopt set s sockfd level optname optval).isSome)
    (hin : inRange sockfd = true) : InTable level optname := by
  by_contra htable
  rw [Checked.sysSetsockopt, hin, Checked.sockoptWin_eq env, if_neg htable] at h
  exact Bool.false_ne_true h

variable {sockfd : Int} {msg : Msghdr} {flags : UInt32}

theorem sendmsg_of_suits
    (hthere : ∀ cmsg ∈ msg.control, InTable cmsg.level cmsg.type ∧ cmsg.Passes)
    (hback : Sent env s sockfd msg flags →
      ∀ cmsg ∈ msg.control, Numbered cmsg.level cmsg.type) :
    Checked.sysSendmsg env s sockfd msg flags = some (sysSendmsg env s sockfd msg flags) := by
  rw [Checked.sysSendmsg, sysSendmsg, Checked.cmsghdrWin_eq, if_pos hthere]
  cases hin : inRange sockfd with
  | false => rfl
  | true =>
      cases hsend : env.send ((cmsghdrWin env 0 s msg.control).2.node sockfd.toNat)
          ((iovecSwap msg.iov).map Iovec.toWsabuf) (cmsghdrWin env 0 s msg.control).1 flags with
      | error e => simp [hsend]
      | ok n =>
          have htable := (inTable_cmsghdrWin_iff env 0 s fun cmsg h => (hthere cmsg h).1).mpr
            (hback ⟨hin, n, hsend⟩)
          simp [hsend, Checked.cmsghdrPosix_eq, if_pos htable]

theorem suits_of_sendmsg (h : (Checked.sysSendmsg env s sockfd msg flags).isSome) :
    (∀ cmsg ∈ msg.control, InTable cmsg.level cmsg.type ∧ cmsg.Passes) ∧
      (Sent env s sockfd msg flags →
        ∀ cmsg ∈ msg.control, Numbered cmsg.level cmsg.type) := by
  rw [Checked.sysSendmsg, Checked.cmsghdrWin_eq] at h
  by_cases hthere : ∀ cmsg ∈ msg.control, InTable cmsg.level cmsg.type ∧ cmsg.Passes
  · refine ⟨hthere, ?_⟩
    rintro ⟨hin, n, hsend⟩
    rw [if_pos hthere] at h
    refine (inTable_cmsghdrWin_iff env 0 s fun cmsg hcmsg => (hthere cmsg hcmsg).1).mp ?_
    by_contra htable
    simp [hin, hsend, Checked.cmsghdrPosix_eq, if_neg htable] at h
  · rw [if_neg hthere] at h
    exact absurd h Bool.false_ne_true

theorem recvmsg_of_suits
    (h : ∀ control, Receives env s sockfd msg flags control →
      ∀ cmsg ∈ control, InTable cmsg.level cmsg.type) :
    Checked.sysRecvmsg env s sockfd msg flags = some (sysRecvmsg env s sockfd msg flags) := by
  rw [Checked.sysRecvmsg, sysRecvmsg]
  cases hin : inRange sockfd with
  | false => rfl
  | true =>
      obtain ⟨⟨reply, control, controllen⟩, hrecv⟩ : ∃ reply,
          env.recv (s.node sockfd.toNat) ((iovecSwap msg.iov).map Iovec.toWsabuf) flags = reply :=
        ⟨_, rfl⟩
      cases reply with
      | error e => simp [hrecv]
      | ok n =>
          have htable := h control ⟨hin, n, controllen, hrecv⟩
          simp [hrecv, Checked.cmsghdrPosix_eq, if_pos htable]

theorem suits_of_recvmsg (h : (Checked.sysRecvmsg env s sockfd msg flags).isSome)
    {control : List Cmsghdr} (hrecv : Receives env s sockfd msg flags control) :
    ∀ cmsg ∈ control, InTable cmsg.level cmsg.type := by
  obtain ⟨hin, n, controllen, hanswer⟩ := hrecv
  by_contra htable
  simp [Checked.sysRecvmsg, hin, hanswer, Checked.cmsghdrPosix_eq, if_neg htable] at h

end

/-- Nothing is looked up that is not there, exactly when the tables of the level have the
option that is set; when they have the type of every control message of a message that is
sent, the descriptors that are passed are within the table of open files, and, if it is
sent, none of the types stands as minus one; and when the tables have the type of every
control message that is received. -/
theorem sockopt_inBounds_iff (env : SocketEnv)
    (set : WinVnode → UInt32 → UInt32 → List UInt8 → OptionSet) (s : TaskFds)
    (call : SockoptCall) : call.InBounds env set s ↔ call.Suits env s := by
  cases call with
  | setsockopt sockfd level optname optval =>
      refine ⟨suits_of_setsockopt env set s, fun h => ?_⟩
      rw [SockoptCall.InBounds, setsockopt_of_suits env set s h]
      rfl
  | sendmsg sockfd msg flags =>
      refine ⟨suits_of_sendmsg env s, fun h => ?_⟩
      rw [SockoptCall.InBounds, sendmsg_of_suits env s h.1 h.2]
      rfl
  | recvmsg sockfd msg flags =>
      refine ⟨fun h control => suits_of_recvmsg env s h, fun h => ?_⟩
      rw [SockoptCall.InBounds, recvmsg_of_suits env s h]
      rfl

/-- A socket that takes every message, and gives one with a control message of the type
`IP_ECN`, which is 50. -/
def ecnSocket : SocketEnv :=
  { fullSocket with
    send := fun _ _ _ _ => .ok 0
    recv := fun _ _ _ => (.ok 0, [⟨ipprotoIp, 50, 0, []⟩], 16) }

def anyOption (node : WinVnode) (_ _ : UInt32) (_ : List UInt8) : OptionSet := ⟨none, node⟩

def oneControl (level type word : UInt32) : Msghdr := ⟨[], [⟨level, type, word, []⟩], 16⟩

/-- The numbers 1000 and minus one of an option, the descriptor 64, the option of a range of
ports on its way back, and a type that the caller never asked for. -/
theorem sockopt_out_of_bounds :
    ¬(SockoptCall.setsockopt 3 ipprotoIp 1000 []).InBounds ecnSocket anyOption noFiles ∧
      ¬(SockoptCall.setsockopt 3 ipprotoIpv6 0xFFFFFFFF []).InBounds ecnSocket anyOption noFiles ∧
      ¬(SockoptCall.sendmsg 3 (oneControl solSocket scmRights 64) 0).InBounds ecnSocket
        anyOption noFiles ∧
      ¬(SockoptCall.sendmsg (-1) (oneControl ipprotoIp 42 0) 0).InBounds ecnSocket anyOption
        noFiles ∧
      ¬(SockoptCall.sendmsg 3 (oneControl ipprotoIp 19 0) 0).InBounds ecnSocket anyOption
        noFiles ∧
      ¬(SockoptCall.recvmsg 3 ⟨[], [], 16⟩ 0).InBounds ecnSocket anyOption noFiles := by
  refine ⟨?_, ?_, ?_, ?_, ?_, ?_⟩
  all_goals
    rw [SockoptCall.InBounds]
    decide

end MinC.Sys
