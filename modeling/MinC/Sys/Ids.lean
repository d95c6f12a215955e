import MinC.Lib.Runs
import MinC.Win.Error
import MinC.Win.Sid

/-!
The set-id calls and the ids they are read back as.

A task has two identifiers that Windows knows, `userSid` and `groupSid`, and
four numbers that only this library knows. The effective ids are always
computed from the identifiers, the real ones only while nothing else was
stored for them, and the saved ones are stored and never used. Id zero is an
alias of the machine's system account, and which side of the alias a value is
on differs from call to call, so every alias is written where the source has
it.

Whether Windows changes the token is not the library's decision. A request
therefore carries the answers of the calls that would be made for it, and the
last error of the thread as the call finds it.
-/

namespace MinC.Sys

open MinC.Lib MinC.Win

/-! ### State -/

/-- The identity fields of a task and the last error of the calling thread. -/
structure Creds where
  userSid : SID8
  groupSid : SID8
  realUid : UInt32
  savedUid : UInt32
  realGid : UInt32
  savedGid : UInt32
  lastError : UInt32
  deriving DecidableEq

/-- The answers to the calls that put on another user's token. -/
structure UserAnswers where
  getpwuid : Answer
  capInit : Answer
  capSetuid : Answer
  setThreadToken : Answer
  closeHandle : Answer
  deriving DecidableEq

/-- The answers to the calls that change the primary group. -/
structure GroupAnswers where
  capGetProc : Answer
  capSetgid : Answer
  closeHandle : Answer
  deriving DecidableEq

/-! ### Ids -/

/-- The id shown for a number: the system's own id is shown as zero. -/
def unroot (root id : UInt32) : UInt32 := if id = root then 0 else id

/-- The number meant by an id: zero means the system's own id. -/
def enroot (root id : UInt32) : UInt32 := if id = 0 then root else id

def getuid (machine : SID8) (c : Creds) : UInt32 :=
  unroot rootUid (if c.realUid = 0 then ridPosix machine c.userSid else c.realUid)

def geteuid (machine : SID8) (c : Creds) : UInt32 :=
  unroot rootUid (ridPosix machine c.userSid)

def getgid (machine : SID8) (c : Creds) : UInt32 :=
  unroot rootGid (if c.realGid = 0 then ridPosix machine c.groupSid else c.realGid)

def getegid (machine : SID8) (c : Creds) : UInt32 :=
  unroot rootGid (ridPosix machine c.groupSid)

/-- The three ids of a kind. -/
structure IdTriple where
  real : UInt32
  effective : UInt32
  saved : UInt32
  deriving DecidableEq

def sysGetresuid (machine : SID8) (c : Creds) : IdTriple :=
  ⟨getuid machine c, geteuid machine c, c.savedUid⟩

def sysGetresgid (machine : SID8) (c : Creds) : IdTriple :=
  ⟨getgid machine c, getegid machine c, c.savedGid⟩

/-! ### User ids -/

/-- The user's identifier is taken over before the token's handle is closed,
and a handle that does not close makes the whole call a failure. -/
def vfsSeteuid (os : UserAnswers) (c : Creds) (sid : SID8) : Bool × Creds :=
  if sid = c.userSid then (true, c)
  else match os.getpwuid with
  | .fail e => (false, { c with lastError := e })
  | .ok => match os.capInit with
    | .fail e => (false, { c with lastError := e })
    | .ok => match os.capSetuid with
      | .fail e => (false, { c with lastError := e })
      | .ok => match os.setThreadToken with
        | .fail e => (false, { c with lastError := e })
        | .ok => match os.closeHandle with
          | .fail e => (false, { c with userSid := sid, lastError := e })
          | .ok => (true, { c with userSid := sid })

def seteuid (machine : SID8) (os : UserAnswers) (c : Creds) (uid : UInt32) : Int × Creds :=
  let uid := enroot rootUid uid
  if uid = ridPosix machine c.userSid then (0, c)
  else if geteuid machine c ≠ 0 then (-(eperm : Int), c)
  else match vfsSeteuid os c (ridWin machine uid) with
    | (true, c') => (0, c')
    | (false, c') => (-(errnoPosix c'.lastError : Int), c')

def setuid (machine : SID8) (os : UserAnswers) (c : Creds) (uid : UInt32) : Int × Creds :=
  match seteuid machine os c uid with
  | (r, c') =>
      if r = 0 then (0, { c' with realUid := ridPosix machine c'.userSid }) else (-(eperm : Int), c')

/-- The effective id asked for is passed on only when the real one is already
in force; otherwise the real one is set for both. -/
def setreuid (machine : SID8) (os : UserAnswers) (c : Creds) (ruid euid : UInt32) :
    Int × Creds :=
  let ruid := enroot rootUid ruid
  if ruid = getuid machine c then seteuid machine os c euid
  else setuid machine os c ruid

def sysSetresuid (machine : SID8) (os : UserAnswers) (c : Creds) (ruid euid suid : UInt32) :
    Int × Creds :=
  let suid := enroot rootUid suid
  match setreuid machine os c ruid euid with
  | (r, c') => if r = 0 then (0, { c' with savedUid := suid }) else (-(eperm : Int), c')

/-! ### Group ids -/

/-- Unlike the user's token the process token is closed whatever happened, and
a handle that does not close is only heard of through its error code. -/
def vfsSetegid (os : GroupAnswers) (c : Creds) (sid : SID8) : Bool × Creds :=
  let closed (c : Creds) : Creds :=
    match os.closeHandle with
    | .fail e => { c with lastError := e }
    | .ok => c
  if sid = c.groupSid then (true, c)
  else match os.capGetProc with
  | .fail e => (false, { c with lastError := e })
  | .ok => match os.capSetgid with
    | .fail e => (false, closed { c with lastError := e })
    | .ok => (true, closed { c with groupSid := sid })

def setegid (machine : SID8) (os : GroupAnswers) (c : Creds) (gid : UInt32) : Int × Creds :=
  let gid := enroot rootGid gid
  if gid = ridPosix machine c.groupSid then (0, c)
  else if geteuid machine c ≠ 0 then (-(eperm : Int), c)
  else match vfsSetegid os c (ridWin machine gid) with
    | (true, c') => (0, c')
    | (false, c') => (-(errnoPosix c'.lastError : Int), c')

/-- A failure is reported through the last error, which a call that was
refused for want of privilege has not set. -/
def setgid (machine : SID8) (os : GroupAnswers) (c : Creds) (gid : UInt32) : Int × Creds :=
  match setegid machine os c gid with
  | (r, c') =>
      if r = 0 then (0, { c' with realGid := ridPosix machine c'.groupSid })
      else (-(errnoPosix c'.lastError : Int), c')

def setregid (machine : SID8) (os : GroupAnswers) (c : Creds) (rgid egid : UInt32) :
    Int × Creds :=
  if rgid = c.realGid then setegid machine os c egid
  else setgid machine os c rgid

def sysSetresgid (machine : SID8) (os : GroupAnswers) (c : Creds) (rgid egid sgid : UInt32) :
    Int × Creds :=
  let sgid := enroot rootGid sgid
  match setregid machine os c rgid egid with
  | (r, c') => if r = 0 then (0, { c' with savedGid := sgid }) else (-(eperm : Int), c')

/-! ### Calls -/

inductive SetIdCall
  | seteuid (euid : UInt32)
  | setuid (uid : UInt32)
  | setreuid (ruid euid : UInt32)
  | setresuid (ruid euid suid : UInt32)
  | setegid (egid : UInt32)
  | setgid (gid : UInt32)
  | setregid (rgid egid : UInt32)
  | setresgid (rgid egid sgid : UInt32)
  deriving DecidableEq

/-- A call, with what it will find: the thread's last error and the answers
Windows will give. -/
structure SetIdRequest where
  call : SetIdCall
  lastError : UInt32
  user : UserAnswers
  group : GroupAnswers
  deriving DecidableEq

/-- The state in which the call is entered. -/
def SetIdRequest.enter (rq : SetIdRequest) (c : Creds) : Creds :=
  { c with lastError := rq.lastError }

def SetIdRequest.exec (machine : SID8) (c : Creds) (rq : SetIdRequest) : Int × Creds :=
  match rq.call with
  | .seteuid euid => seteuid machine rq.user (rq.enter c) euid
  | .setuid uid => setuid machine rq.user (rq.enter c) uid
  | .setreuid ruid euid => setreuid machine rq.user (rq.enter c) ruid euid
  | .setresuid ruid euid suid => sysSetresuid machine rq.user (rq.enter c) ruid euid suid
  | .setegid egid => setegid machine rq.group (rq.enter c) egid
  | .setgid gid => setgid machine rq.group (rq.enter c) gid
  | .setregid rgid egid => setregid machine rq.group (rq.enter c) rgid egid
  | .setresgid rgid egid sgid => sysSetresgid machine rq.group (rq.enter c) rgid egid sgid

def stepIds (machine : SID8) (c : Creds) (rq : SetIdRequest) : Creds :=
  (rq.exec machine c).2

end MinC.Sys
