import MinC.Lib.Bits
import MinC.Vfs.Node
import Mathlib.Tactic.SplitIfs
import Mathlib.Tactic.ByContra

/-!
Polling one node.

Each kind of device has a poll routine that asks the device for its status,
keeps the part of it the caller is interested in, stores it into the entry of
the caller's array, and adds one to a count if that is not zero. The console is
two devices, an input and a screen, and its routine calls theirs in turn on the
same entry.
-/

namespace MinC.Vfs

open MinC.Lib MinC.Win

def pollIn : UInt16 := 0x0001
def pollOut : UInt16 := 0x0004
def pollErr : UInt16 := 0x0008
def pollHup : UInt16 := 0x0010
def pollNval : UInt16 := 0x0020
def pollRdband : UInt16 := 0x0080
def pollWrband : UInt16 := 0x0100
def pollRemove : UInt16 := 0x0200
def pollIgnore : UInt16 := pollErr ||| pollHup ||| pollNval

def devTypeConsole : UInt32 := 0x0501
def devTypeInput : UInt32 := 0x0504
def devTypeScreen : UInt32 := 0x0505
def devTypePty : UInt32 := 0x0508

def mailslotNoMessage : UInt32 := 0xFFFFFFFF

/-- The code of a failing call, which is reported as an error. -/
abbrev Failure := { error : UInt32 // errnoPosix error ≠ 0 }

structure PollFd where
  fd : Int
  events : UInt16
  revents : UInt16
  deriving DecidableEq

/-- What the console has next in its queue. -/
inductive InputRecord
  | key (down : Bool) (char : UInt8) (vk : UInt16)
  | bufferSize
  | mouse
  | focus
  | menu
  | other
  deriving DecidableEq

/-- What a poll routine finds when it is called: what the emulator has pending,
the fields of the node that earlier calls may have changed, and the answers to
the calls it makes. -/
structure PollAnswers where
  input : Bool
  clipboard : Bool
  peekInput : Except Failure (Option InputRecord)
  sizeRaised : Bool
  readInput : Except Failure Unit
  mailslot : Except Failure UInt32
  peekPipe : Except UInt32 (UInt32 × UInt32)
  overlapped : Bool
  pending : UInt16
  eventSelect : Answer
  networkEvents : Except Failure UInt32
  available : Except Failure UInt32

/-- What a poll routine leaves: an error if it failed, the entry, whether it has
stored into the entry, and what it added to the count. -/
structure Polled where
  error : Option Failure
  entry : PollFd
  stored : Bool
  count : Nat

/-- Store a status into the entry and count it. -/
def store (error : Option Failure) (info : PollFd) (status : UInt16) : Polled where
  error := error
  entry := { info with revents := status }
  stored := true
  count := if status ≠ 0 then 1 else 0

/-! ### Input and screen -/

/-- The keys that send a sequence of their own. -/
def ansiCursor (vk : UInt16) : Bool := (0x21 ≤ vk && vk ≤ 0x28) || vk == 0x2D || vk == 0x2E

def ansiFunction (vk : UInt16) : Bool := 0x70 ≤ vk && vk ≤ 0x87

def isAnsi (down : Bool) (char : UInt8) (vk : UInt16) : Bool :=
  if !down then false
  else if char ≠ 0 then true
  else if vk ≤ 0x1F then false
  else if vk ≤ 0x2F then ansiCursor vk
  else if vk ≤ 0x5F then false
  else if vk ≤ 0x6F then false
  else if vk ≤ 0x8F then ansiFunction vk
  else false

def inputPollAnsi (down : Bool) (char : UInt8) (vk : UInt16) : UInt16 :=
  if isAnsi down char vk then pollIn else pollRemove

def failIoDevice : Failure := ⟨errorIoDevice, by decide⟩

def failSignalPending : Failure := ⟨errorSignalPending, by decide⟩

def inputPollEvent (sizeRaised : Bool) : InputRecord → Option Failure × UInt16
  | .key down char vk => (none, inputPollAnsi down char vk)
  | .bufferSize =>
      (if sizeRaised then some failSignalPending else none, pollRemove ||| pollErr)
  | .mouse => (none, pollRemove)
  | .focus => (none, pollRemove)
  | .menu => (none, pollRemove)
  | .other => (some failIoDevice, pollRemove ||| pollErr)

/-- What is next in the queue, unless something is pending already. -/
def inputPeek (os : PollAnswers) : Option Failure × UInt16 :=
  if os.input || os.clipboard then (none, pollIn)
  else match os.peekInput with
  | .error e => (some e, 0)
  | .ok none => (none, 0)
  | .ok (some record) => inputPollEvent os.sizeRaised record

/-- Removing an event decides whether the routine fails, whatever peeking did. -/
def inputStatus (os : PollAnswers) : Option Failure × UInt16 :=
  let s := inputPeek os
  if s.2 &&& pollRemove ≠ 0 then
    match os.readInput with
    | .error e => (some e, s.2)
    | .ok () => (none, s.2)
  else s

/-- What the routines that keep errors and hang-ups in any case have in common. -/
def settle (s : Option Failure × UInt16) (info : PollFd) : Polled :=
  store s.1 info (s.2 &&& (info.events ||| pollIgnore))

def inputPoll (os : PollAnswers) (info : PollFd) : Polled := settle (inputStatus os) info

/-- A screen is always ready. What the entry held before is kept. -/
def screenPoll (info : PollFd) : Polled :=
  store none info ((info.revents ||| pollOut) &&& info.events)

/-- The two parts of a console add to the same count. -/
def conPoll (os : PollAnswers) (info : PollFd) : Polled :=
  let input := inputPoll os info
  match input.error with
  | some _ => input
  | none =>
      let screen := screenPoll input.entry
      { screen with count := input.count + screen.count }

/-! ### Mailslots, files, pipes and sockets -/

def mailStatus (os : PollAnswers) : Option Failure × UInt16 :=
  match os.mailslot with
  | .error e => (some e, pollErr)
  | .ok size =>
      if size = mailslotNoMessage then (none, pollOut)
      else if size ≠ 0 then (none, pollOut ||| pollIn)
      else (none, 0)

def mailPoll (os : PollAnswers) (info : PollFd) : Polled := settle (mailStatus os) info

def diskPoll (info : PollFd) : Polled := store none info (pollIn &&& info.events)

def fdRead : UInt32 := 1
def fdAccept : UInt32 := 8
def fdConnect : UInt32 := 16
def fdClose : UInt32 := 32

/-- The status of a socket. What it has pending from now on is read by later
calls only. -/
def wsaPollEvents (pending : UInt16) (events : UInt32) : UInt16 :=
  let status := if events &&& fdRead ≠ 0 then pending ||| pollIn else pending
  let status := if events &&& fdConnect ≠ 0 then status ||| pollWrband else status
  let status := if events &&& fdAccept ≠ 0 then status ||| pollIn else status
  if events &&& fdClose ≠ 0 then status ||| pollHup else status

/-- A blocking socket is made non-blocking, and has no status yet. -/
def wsaUnblock (os : PollAnswers) : UInt16 :=
  match os.eventSelect with
  | .fail _ => pollErr
  | .ok => 0

def ws2Status (os : PollAnswers) : Option Failure × UInt16 :=
  if !os.overlapped then (none, wsaUnblock os)
  else match os.networkEvents with
  | .error e => (some e, pollErr)
  | .ok events =>
      if events ≠ 0 then (none, wsaPollEvents os.pending events)
      else match os.available with
      | .error e => (some e, pollErr)
      | .ok count => if count ≠ 0 then (none, pollIn) else (none, os.pending)

def ws2Poll (os : PollAnswers) (info : PollFd) : Polled := settle (ws2Status os) info

def sockPollError (error : UInt32) : UInt16 :=
  if error = errorBrokenPipe then pollHup
  else if error = errorBadPipe then pollRdband
  else pollErr

def fifoPollError (error : UInt32) : UInt16 :=
  if error = errorBrokenPipe then pollHup
  else if error = errorAccessDenied then pollOut
  else pollErr

/-- What sockets and fifos have in common: they differ in what an error of the
pipe means. -/
def peekStatus (pollError : UInt32 → UInt16) (os : PollAnswers) : Option Failure × UInt16 :=
  match os.peekPipe with
  | .error e => (none, pollError e)
  | .ok (avail, remain) => (none, if avail ≠ 0 ∨ remain ≠ 0 then pollIn else pollOut)

def sockPoll (os : PollAnswers) (info : PollFd) : Polled :=
  settle (peekStatus sockPollError os) info

def fifoPoll (os : PollAnswers) (info : PollFd) : Polled :=
  settle (peekStatus fifoPollError os) info

/-! ### The dispatch -/

def refuse (error : Failure) (info : PollFd) : Polled where
  error := some error
  entry := info
  stored := false
  count := 0

def failBadDevice : Failure := ⟨errorBadDevice, by decide⟩
def failBadPipe : Failure := ⟨errorBadPipe, by decide⟩
def failBadFileType : Failure := ⟨errorBadFileType, by decide⟩

def charPoll (os : PollAnswers) (node : WinVnode) (info : PollFd) : Polled :=
  if node.deviceType = devTypeConsole ∨ node.deviceType = devTypePty then conPoll os info
  else if node.deviceType = devTypeInput then inputPoll os info
  else if node.deviceType = devTypeScreen then screenPoll info
  else refuse failBadDevice info

def pipePoll (os : PollAnswers) (node : WinVnode) (info : PollFd) : Polled :=
  match node.fileType with
  | .vsock => sockPoll os info
  | .vchr => sockPoll os info
  | .vfifo => fifoPoll os info
  | _ => refuse failBadPipe info

def pdoPoll (os : PollAnswers) (device : WinDevice) (info : PollFd) : Polled :=
  match device.fsType with
  | .char => inputPoll os info
  | .mailslot => mailPoll os info
  | _ => refuse failBadDevice info

def pollNode (devices : UInt32 → WinDevice) (os : PollAnswers) (node : WinVnode)
    (info : PollFd) : Polled :=
  match node.fsType with
  | .char => charPoll os node info
  | .pipe => pipePoll os node info
  | .pdo => pdoPoll os (devices node.deviceId) info
  | .mailslot => mailPoll os info
  | .disk => diskPoll info
  | .winsock => ws2Poll os info
  | _ => refuse failBadFileType info

/-! ### What is waited for -/

def maximumWaitObjects : Nat := 64

/-- The vector of a wait begins with the event that interrupts it. -/
def pollGetObjects (interrupt : Nat) (nodes : List WinVnode) : List Nat :=
  interrupt :: nodes.map WinVnode.event

/-- A vector fits into an array for the most that can be waited for, and is as
long as a wait accepts. -/
structure Waitable (objects : List Nat) : Prop where
  fits : ∀ i < objects.length, i < maximumWaitObjects
  accepted : 0 < objects.length ∧ objects.length ≤ maximumWaitObjects

/-- The event that interrupts a wait leaves room for one less. -/
theorem waitable_cons_iff (interrupt : Nat) (objects : List Nat) :
    Waitable (interrupt :: objects) ↔ objects.length < maximumWaitObjects := by
  constructor
  · intro h
    have hle := h.accepted.2
    rwa [List.length_cons] at hle
  · intro h
    refine ⟨fun i hi => ?_, ?_, ?_⟩
    · rw [List.length_cons] at hi
      omega
    · exact Nat.succ_pos _
    · rwa [List.length_cons]

/-! ### What a poll routine does -/

/-- The routine that the dispatch ends in. -/
inductive PollKind
  | input | screen | console | mail | disk | socket | sock | fifo
  deriving DecidableEq

def pollKind (devices : UInt32 → WinDevice) (node : WinVnode) : Option PollKind :=
  match node.fsType with
  | .char =>
      if node.deviceType = devTypeConsole ∨ node.deviceType = devTypePty then some .console
      else if node.deviceType = devTypeInput then some .input
      else if node.deviceType = devTypeScreen then some .screen
      else none
  | .pipe =>
      match node.fileType with
      | .vsock => some .sock
      | .vchr => some .sock
      | .vfifo => some .fifo
      | _ => none
  | .pdo =>
      match (devices node.deviceId).fsType with
      | .char => some .input
      | .mailslot => some .mail
      | _ => none
  | .mailslot => some .mail
  | .disk => some .disk
  | .winsock => some .socket
  | _ => none

namespace PollKind

/-- What a device says of itself, whatever the caller is interested in. -/
def status (os : PollAnswers) : PollKind → Option Failure × UInt16
  | input => inputStatus os
  | screen => (none, pollOut)
  | console => inputStatus os
  | mail => mailStatus os
  | disk => (none, pollIn)
  | socket => ws2Status os
  | sock => peekStatus sockPollError os
  | fifo => peekStatus fifoPollError os

/-- The input of a console has something the caller is told of. -/
def InputReady (os : PollAnswers) (kind : PollKind) (info : PollFd) : Prop :=
  kind = console ∧ (inputStatus os).2 &&& (info.events ||| pollIgnore) ≠ 0

instance (os : PollAnswers) (kind : PollKind) (info : PollFd) :
    Decidable (InputReady os kind info) :=
  inferInstanceAs (Decidable (_ ∧ _))

/-- A device has something the caller is told of. -/
def Ready (os : PollAnswers) (info : PollFd) : PollKind → Prop
  | screen => (info.revents ||| pollOut) &&& info.events ≠ 0
  | disk => pollIn &&& info.events ≠ 0
  | console =>
      InputReady os console info ∨ pollOut &&& info.events ≠ 0
  | kind => (kind.status os).2 &&& (info.events ||| pollIgnore) ≠ 0

end PollKind

/-- Polling a node fails: there is no routine for it, or its device cannot be
asked. -/
def PollFails (devices : UInt32 → WinDevice) (os : PollAnswers) (node : WinVnode) : Prop :=
  match pollKind devices node with
  | none => True
  | some kind => (kind.status os).1 ≠ none

namespace PollKind

/-- The routine that a kind stands for. -/
def poll (os : PollAnswers) (info : PollFd) : PollKind → Polled
  | input => inputPoll os info
  | screen => screenPoll info
  | console => conPoll os info
  | mail => mailPoll os info
  | disk => diskPoll info
  | socket => ws2Poll os info
  | sock => sockPoll os info
  | fifo => fifoPoll os info

end PollKind

theorem pollNode_of_some {devices : UInt32 → WinDevice} {node : WinVnode} {kind : PollKind}
    (h : pollKind devices node = some kind) (os : PollAnswers) (info : PollFd) :
    pollNode devices os node info = kind.poll os info := by
  unfold pollKind at h
  unfold pollNode
  cases hfs : node.fsType <;> rw [hfs] at h <;> simp only at h ⊢
  case char =>
    unfold charPoll
    split_ifs at h ⊢ <;> cases h <;> rfl
  case pipe =>
    unfold pipePoll
    cases hft : node.fileType <;> rw [hft] at h <;> cases h <;> rfl
  case pdo =>
    unfold pdoPoll
    cases hdev : (devices node.deviceId).fsType <;> rw [hdev] at h <;> cases h <;> rfl
  all_goals cases h <;> rfl

theorem pollNode_of_none {devices : UInt32 → WinDevice} {node : WinVnode}
    (h : pollKind devices node = none) (os : PollAnswers) (info : PollFd) :
    ∃ error, pollNode devices os node info = refuse error info := by
  unfold pollKind at h
  unfold pollNode
  cases hfs : node.fsType <;> rw [hfs] at h <;> simp only at h ⊢
  case char =>
    unfold charPoll
    split_ifs at h ⊢
    exact ⟨_, rfl⟩
  case pipe =>
    unfold pipePoll
    cases hft : node.fileType <;> rw [hft] at h <;> cases h <;> exact ⟨_, rfl⟩
  case pdo =>
    unfold pdoPoll
    cases hdev : (devices node.deviceId).fsType <;> rw [hdev] at h <;> cases h <;> exact ⟨_, rfl⟩
  all_goals first | exact ⟨_, rfl⟩ | cases h

namespace PollKind

variable {os : PollAnswers} {info : PollFd}

theorem conPoll_eq (os : PollAnswers) (info : PollFd) :
    conPoll os info =
      match (inputStatus os).1 with
      | some _ => inputPoll os info
      | none =>
          { screenPoll (inputPoll os info).entry with
            count := (inputPoll os info).count + (screenPoll (inputPoll os info).entry).count } :=
  rfl

theorem poll_error (os : PollAnswers) (info : PollFd) (kind : PollKind) :
    (kind.poll os info).error = (kind.status os).1 := by
  cases kind with
  | console =>
      show (conPoll os info).error = (inputStatus os).1
      rw [conPoll_eq]
      cases h : (inputStatus os).1 with
      | none => rfl
      | some e => exact h
  | _ => rfl

theorem poll_stored (os : PollAnswers) (info : PollFd) (kind : PollKind) :
    (kind.poll os info).stored = true := by
  cases kind with
  | console =>
      show (conPoll os info).stored = true
      rw [conPoll_eq]
      split <;> rfl
  | _ => rfl

/-- A routine changes nothing but the result in the entry. -/
theorem poll_entry (os : PollAnswers) (info : PollFd) (kind : PollKind) :
    (kind.poll os info).entry =
      { info with revents := (kind.poll os info).entry.revents } := by
  cases kind with
  | console =>
      show (conPoll os info).entry = { info with revents := (conPoll os info).entry.revents }
      rw [conPoll_eq]
      split <;> rfl
  | _ => rfl

/-- The count is that of the entry, and that of the input of a console. -/
theorem poll_count {kind : PollKind} (h : (kind.status os).1 = none) :
    (kind.poll os info).count =
      (if (kind.poll os info).entry.revents ≠ 0 then 1 else 0) +
        if kind.InputReady os info then 1 else 0 := by
  cases kind with
  | console =>
      have hs : (inputStatus os).1 = none := h
      simp only [poll, conPoll_eq, hs, InputReady, true_and]
      rw [Nat.add_comm]
      rfl
  | _ =>
      rw [if_neg (show ¬ InputReady os _ info from fun hr => by cases hr.1)]
      rfl

/-- A device has something exactly when the entry says so or the input of a
console was counted. -/
theorem ready_iff {kind : PollKind} (h : (kind.status os).1 = none) :
    kind.Ready os info ↔
      (kind.poll os info).entry.revents ≠ 0 ∨ kind.InputReady os info := by
  cases kind with
  | console =>
      have hs : (inputStatus os).1 = none := h
      have hrev : (poll os info console).entry.revents =
          (((inputStatus os).2 &&& (info.events ||| pollIgnore)) ||| pollOut) &&&
            info.events := by
        show (conPoll os info).entry.revents = _
        rw [conPoll_eq, hs]
        rfl
      by_cases hin : (inputStatus os).2 &&& (info.events ||| pollIgnore) = 0
      · rw [hrev, hin, UInt16.zero_or]
        exact Or.comm
      · exact ⟨fun _ => .inr ⟨rfl, hin⟩, fun _ => .inl ⟨rfl, hin⟩⟩
  | _ =>
      constructor
      · exact .inl
      · rintro (hready | hin)
        · exact hready
        · cases hin.1

/-- The count is not zero exactly when the device has something. -/
theorem poll_count_ne_zero_iff {kind : PollKind} (h : (kind.status os).1 = none) :
    (kind.poll os info).count ≠ 0 ↔ kind.Ready os info := by
  rw [poll_count h, ready_iff h]
  split_ifs <;> simp_all

/-- What a device tells the caller even if it was not asked. Screens tell
nothing, and what is behind a screen in a console is masked with it. -/
def raised (os : PollAnswers) (kind : PollKind) : UInt16 :=
  match kind with
  | screen => 0
  | console => 0
  | disk => 0
  | kind => (kind.status os).2 &&& pollIgnore

/-- The bits of a result that were not asked for. -/
theorem poll_unasked {kind : PollKind} (h : (kind.status os).1 = none) {flags : UInt16}
    (hflags : info.events &&& flags = 0) :
    (kind.poll os info).entry.revents &&& flags = kind.raised os &&& flags := by
  have hand : ∀ a : UInt16, a &&& info.events &&& flags = 0 &&& flags := by
    intro a
    rw [UInt16.and_assoc, hflags, UInt16.and_zero, UInt16.zero_and]
  have hor : ∀ a : UInt16,
      a &&& (info.events ||| pollIgnore) &&& flags = a &&& pollIgnore &&& flags := by
    intro a
    rw [u16_and_or_left, u16_and_or_right, hand, UInt16.zero_and,
      UInt16.zero_or]
  cases kind with
  | screen => exact hand _
  | disk => exact hand _
  | console =>
      have hs : (inputStatus os).1 = none := h
      change (conPoll os info).entry.revents &&& flags = _
      rw [conPoll_eq, hs]
      exact hand _
  | _ => exact hor _

end PollKind

end MinC.Vfs
