import MinC.Sys.Ids
import Mathlib.Tactic.SplitIfs

/-!
What the set-id calls establish.

A set-id call should be all or nothing: a zero reply means that every id the
call was given reads back as asked, any other reply is negative and nothing
reads back differently. `Honest` says this of one call. It does not hold of
every call, and `SetIdRequest.Meets` is the condition under which it does,
read off the state and the request alone.

Everything rests on one equation for each kind of id, `seteuid_eq` and
`setegid_eq`, which lists the ways such a call can end; the six other calls
only choose between these two and store numbers.
-/

namespace MinC.Sys

open MinC.Lib MinC.Win

/-! ### How a token change ends -/

/-- The ways putting on another token can end. -/
inductive Switch
  | granted
  | refused (error : UInt32)
  | unclosed (error : UInt32)
  deriving DecidableEq

def UserAnswers.switch (os : UserAnswers) : Switch :=
  match os.getpwuid, os.capInit, os.capSetuid, os.setThreadToken, os.closeHandle with
  | .fail e, _, _, _, _ => .refused e
  | .ok, .fail e, _, _, _ => .refused e
  | .ok, .ok, .fail e, _, _ => .refused e
  | .ok, .ok, .ok, .fail e, _ => .refused e
  | .ok, .ok, .ok, .ok, .fail e => .unclosed e
  | .ok, .ok, .ok, .ok, .ok => .granted

/-- The error left by a refused change of group, if it is refused. -/
def GroupAnswers.refusal (os : GroupAnswers) : Option UInt32 :=
  match os.capGetProc, os.capSetgid, os.closeHandle with
  | .fail e, _, _ => some e
  | .ok, .fail _, .fail e => some e
  | .ok, .fail e, .ok => some e
  | .ok, .ok, _ => none

theorem vfsSeteuid_eq (os : UserAnswers) (c : Creds) (sid : SID8) :
    vfsSeteuid os c sid =
      if sid = c.userSid then (true, c)
      else match os.switch with
        | .granted => (true, { c with userSid := sid })
        | .refused e => (false, { c with lastError := e })
        | .unclosed e => (false, { c with userSid := sid, lastError := e }) := by
  obtain ⟨getpwuid, capInit, capSetuid, setThreadToken, closeHandle⟩ := os
  unfold vfsSeteuid UserAnswers.switch
  cases getpwuid <;> cases capInit <;> cases capSetuid <;> cases setThreadToken <;>
    cases closeHandle <;> rfl

/-- The last error a granted change of group leaves: that of the handle, if it
did not close. -/
def GroupAnswers.left (os : GroupAnswers) (c : Creds) : UInt32 :=
  match os.closeHandle with
  | .fail e => e
  | .ok => c.lastError

theorem vfsSetegid_eq (os : GroupAnswers) (c : Creds) (sid : SID8) :
    vfsSetegid os c sid =
      if sid = c.groupSid then (true, c)
      else match os.refusal with
        | none => (true, { c with groupSid := sid, lastError := os.left c })
        | some e => (false, { c with lastError := e }) := by
  obtain ⟨capGetProc, capSetgid, closeHandle⟩ := os
  unfold vfsSetegid GroupAnswers.refusal GroupAnswers.left
  cases capGetProc <;> cases capSetgid <;> cases closeHandle <;> rfl

/-! ### One equation for each kind of id -/

section
variable (machine : SID8)

/-- The effective user id that reads back once the identifier of an id is put on. -/
def uidOf (uid : UInt32) : UInt32 :=
  unroot rootUid (ridPosix machine (ridWin machine (enroot rootUid uid)))

/-- The effective group id that reads back once the identifier of an id is put on. -/
def gidOf (gid : UInt32) : UInt32 :=
  unroot rootGid (ridPosix machine (ridWin machine (enroot rootGid gid)))

theorem seteuid_eq (os : UserAnswers) (c : Creds) (uid : UInt32) :
    seteuid machine os c uid =
      if enroot rootUid uid = ridPosix machine c.userSid then (0, c)
      else if geteuid machine c ≠ 0 then (-(eperm : Int), c)
      else if ridWin machine (enroot rootUid uid) = c.userSid then (0, c)
      else match os.switch with
        | .granted => (0, { c with userSid := ridWin machine (enroot rootUid uid) })
        | .refused e => (-(errnoPosix e : Int), { c with lastError := e })
        | .unclosed e =>
            (-(errnoPosix e : Int),
              { c with userSid := ridWin machine (enroot rootUid uid), lastError := e }) := by
  simp only [seteuid, vfsSeteuid_eq]
  split_ifs
  · rfl
  · rfl
  · rfl
  · cases os.switch <;> rfl

theorem setegid_eq (os : GroupAnswers) (c : Creds) (gid : UInt32) :
    setegid machine os c gid =
      if enroot rootGid gid = ridPosix machine c.groupSid then (0, c)
      else if geteuid machine c ≠ 0 then (-(eperm : Int), c)
      else if ridWin machine (enroot rootGid gid) = c.groupSid then (0, c)
      else match os.refusal with
        | none =>
            (0, { c with
              groupSid := ridWin machine (enroot rootGid gid), lastError := os.left c })
        | some e => (-(errnoPosix e : Int), { c with lastError := e }) := by
  simp only [setegid, vfsSetegid_eq]
  split_ifs
  · rfl
  · rfl
  · rfl
  · cases os.refusal <;> rfl


/-! ### What a call is asked for -/

/-- The id that asks for nothing. -/
def noId : UInt32 := 0xFFFFFFFF

/-- The id reads back as it was asked for, up to the alias of the system's own
id; an id that asks for nothing always does. -/
def ReadsAs (root asked id : UInt32) : Prop := asked = noId ∨ unroot root id = unroot root asked

/-- The ids a call was asked to set read back as asked. -/
def SetIdCall.Established (call : SetIdCall) (c : Creds) : Prop :=
  let u := sysGetresuid machine c
  let g := sysGetresgid machine c
  match call with
  | .seteuid euid => unroot rootUid u.effective = unroot rootUid euid
  | .setuid uid =>
      unroot rootUid u.real = unroot rootUid uid ∧ unroot rootUid u.effective = unroot rootUid uid
  | .setreuid ruid euid => ReadsAs rootUid ruid u.real ∧ ReadsAs rootUid euid u.effective
  | .setresuid ruid euid suid =>
      ReadsAs rootUid ruid u.real ∧ ReadsAs rootUid euid u.effective ∧ ReadsAs rootUid suid u.saved
  | .setegid egid => unroot rootGid g.effective = unroot rootGid egid
  | .setgid gid =>
      unroot rootGid g.real = unroot rootGid gid ∧ unroot rootGid g.effective = unroot rootGid gid
  | .setregid rgid egid => ReadsAs rootGid rgid g.real ∧ ReadsAs rootGid egid g.effective
  | .setresgid rgid egid sgid =>
      ReadsAs rootGid rgid g.real ∧ ReadsAs rootGid egid g.effective ∧ ReadsAs rootGid sgid g.saved

/-- All ids read back the same in two states. -/
def SameIds (c c' : Creds) : Prop :=
  sysGetresuid machine c' = sysGetresuid machine c ∧
    sysGetresgid machine c' = sysGetresgid machine c

/-- The call is all or nothing. -/
def Honest (c : Creds) (rq : SetIdRequest) : Prop :=
  AllOrNothing (rq.exec machine c).1
    (rq.call.Established machine (rq.exec machine c).2)
    (SameIds machine c (rq.exec machine c).2)

/-! ### When a call is all or nothing -/

/-- The condition on a change of the effective user id. `met` says of an
effective id whether a zero reply that leaves it in force is right. -/
def EuidMeets (os : UserAnswers) (c : Creds) (uid : UInt32) (met : UInt32 → Prop) : Prop :=
  if enroot rootUid uid = ridPosix machine c.userSid then met (geteuid machine c)
  else if geteuid machine c ≠ 0 then True
  else if ridWin machine (enroot rootUid uid) = c.userSid then met (geteuid machine c)
  else match os.switch with
    | .granted => met (uidOf machine uid)
    | .refused e => errnoPosix e = 0 → met (geteuid machine c)
    | .unclosed e =>
        if errnoPosix e = 0 then met (uidOf machine uid)
        else uidOf machine uid = geteuid machine c

/-- The real user id that reads back while another effective id is in force. -/
def ruidUnder (c : Creds) (euid : UInt32) : UInt32 :=
  if c.realUid = 0 then euid else getuid machine c

def SetreuidMeets (os : UserAnswers) (c : Creds) (ruid euid : UInt32) : Prop :=
  if enroot rootUid ruid = getuid machine c then
    EuidMeets machine os c euid fun x =>
      ReadsAs rootUid ruid (ruidUnder machine c x) ∧ ReadsAs rootUid euid x
  else
    EuidMeets machine os c ruid fun x => ReadsAs rootUid ruid x ∧ ReadsAs rootUid euid x

/-- The condition on a change of the effective group id. `denied` is what a
reply to a caller without privilege has to satisfy. -/
def EgidMeets (os : GroupAnswers) (c : Creds) (gid : UInt32) (denied : Prop)
    (met : UInt32 → Prop) : Prop :=
  if enroot rootGid gid = ridPosix machine c.groupSid then met (getegid machine c)
  else if geteuid machine c ≠ 0 then denied
  else if ridWin machine (enroot rootGid gid) = c.groupSid then met (getegid machine c)
  else match os.refusal with
    | none => met (gidOf machine gid)
    | some e => errnoPosix e = 0 → met (getegid machine c)

/-- The real group id that reads back while another effective id is in force. -/
def rgidUnder (c : Creds) (egid : UInt32) : UInt32 :=
  if c.realGid = 0 then egid else getgid machine c

def SetregidMeets (os : GroupAnswers) (c : Creds) (rgid egid : UInt32) : Prop :=
  if rgid = c.realGid then
    EgidMeets machine os c egid True fun x =>
      ReadsAs rootGid rgid (rgidUnder machine c x) ∧ ReadsAs rootGid egid x
  else
    EgidMeets machine os c rgid
      (errnoPosix c.lastError = 0 →
        ReadsAs rootGid rgid (getgid machine c) ∧ ReadsAs rootGid egid (getegid machine c))
      fun x => ReadsAs rootGid rgid x ∧ ReadsAs rootGid egid x

/-- The condition under which a request is served all or nothing. -/
def SetIdRequest.Meets (rq : SetIdRequest) (c : Creds) : Prop :=
  let c := rq.enter c
  match rq.call with
  | .seteuid euid => EuidMeets machine rq.user c euid (· = unroot rootUid euid)
  | .setuid uid => EuidMeets machine rq.user c uid (· = unroot rootUid uid)
  | .setreuid ruid euid => SetreuidMeets machine rq.user c ruid euid
  | .setresuid ruid euid _ => SetreuidMeets machine rq.user c ruid euid
  | .setegid egid => EgidMeets machine rq.group c egid True (· = unroot rootGid egid)
  | .setgid gid =>
      EgidMeets machine rq.group c gid
        (errnoPosix c.lastError = 0 →
          getgid machine c = unroot rootGid gid ∧ getegid machine c = unroot rootGid gid)
        (· = unroot rootGid gid)
  | .setregid rgid egid => SetregidMeets machine rq.group c rgid egid
  | .setresgid rgid egid _ => SetregidMeets machine rq.group c rgid egid

/-! ### Small facts about the aliases -/

@[simp] theorem unroot_unroot (root id : UInt32) :
    unroot root (unroot root id) = unroot root id := by
  unfold unroot
  split_ifs with h h0 <;> simp_all

@[simp] theorem unroot_zero (root : UInt32) : unroot root 0 = 0 := by
  simp [unroot]

@[simp] theorem unroot_enroot (root id : UInt32) :
    unroot root (enroot root id) = unroot root id := by
  by_cases h : id = 0 <;> simp [enroot, unroot, h]

@[simp] theorem enroot_enroot_rootUid (id : UInt32) :
    enroot rootUid (enroot rootUid id) = enroot rootUid id := by
  have hroot : rootUid ≠ 0 := by decide
  by_cases h : id = 0 <;> simp [enroot, h, hroot]

theorem readsAs_enroot (root id : UInt32) : ReadsAs root id (enroot root id) := by
  simp [ReadsAs]

/-- Once the number of the identifier in force is stored, the real id is the
effective one. -/
theorem getuid_stored (c : Creds) :
    getuid machine { c with realUid := ridPosix machine c.userSid } = geteuid machine c := by
  unfold getuid geteuid
  split_ifs with h <;> simp

theorem getgid_stored (c : Creds) :
    getgid machine { c with realGid := ridPosix machine c.groupSid } = getegid machine c := by
  unfold getgid getegid
  split_ifs with h <;> simp

/-! ### The two token changes -/

theorem seteuid_nonpos (os : UserAnswers) (c : Creds) (uid : UInt32) :
    (seteuid machine os c uid).1 ≤ 0 := by
  rw [seteuid_eq]
  split_ifs
  · simp
  · simp
  · simp
  · cases os.switch <;> simp

theorem setegid_nonpos (os : GroupAnswers) (c : Creds) (gid : UInt32) :
    (setegid machine os c gid).1 ≤ 0 := by
  rw [setegid_eq]
  split_ifs
  · simp
  · simp
  · simp
  · cases os.refusal <;> simp

/-- A change of the effective user id is all or nothing under its condition,
whatever is asked of the state it leaves, as long as that depends on the user's
identifier through the effective id alone. -/
theorem seteuid_allOrNothing (os : UserAnswers) (c : Creds) (uid : UInt32)
    (done undone : Creds → Prop) (met : UInt32 → Prop)
    (hdone : ∀ sid e, done { c with userSid := sid, lastError := e } ↔
      met (unroot rootUid (ridPosix machine sid)))
    (hundone : ∀ sid e, undone { c with userSid := sid, lastError := e } ↔
      unroot rootUid (ridPosix machine sid) = geteuid machine c) :
    AllOrNothing (seteuid machine os c uid).1 (done (seteuid machine os c uid).2)
      (undone (seteuid machine os c uid).2) ↔ EuidMeets machine os c uid met := by
  have hkept : undone c := (hundone c.userSid c.lastError).2 rfl
  have hdone_c : done c ↔ met (geteuid machine c) := hdone c.userSid c.lastError
  rw [seteuid_eq]
  unfold EuidMeets
  split_ifs with halias hpriv hsame
  · simpa using hdone_c
  · simpa [allOrNothing_of_neg (show -(eperm : Int) < 0 by decide)] using hkept
  · simpa using hdone_c
  · cases os.switch with
    | granted =>
        simpa [uidOf] using hdone (ridWin machine (enroot rootUid uid)) c.lastError
    | refused e =>
        have hdone_e : done { c with lastError := e } ↔ met (geteuid machine c) :=
          hdone c.userSid e
        have hkept_e : undone { c with lastError := e } := (hundone c.userSid e).2 rfl
        by_cases he : errnoPosix e = 0
        · simpa [allOrNothing_errno, he] using hdone_e
        · simpa [allOrNothing_errno, he] using hkept_e
    | unclosed e =>
        simp only [allOrNothing_errno, hdone, hundone]
        rfl

/-- The same for the effective group id, where nothing is left half done. -/
theorem setegid_allOrNothing (os : GroupAnswers) (c : Creds) (gid : UInt32)
    (done undone : Creds → Prop) (met : UInt32 → Prop)
    (hdone : ∀ sid e, done { c with groupSid := sid, lastError := e } ↔
      met (unroot rootGid (ridPosix machine sid)))
    (hundone : ∀ e, undone { c with lastError := e }) :
    AllOrNothing (setegid machine os c gid).1 (done (setegid machine os c gid).2)
      (undone (setegid machine os c gid).2) ↔ EgidMeets machine os c gid True met := by
  have hkept : undone c := hundone c.lastError
  have hdone_c : done c ↔ met (getegid machine c) := hdone c.groupSid c.lastError
  rw [setegid_eq]
  unfold EgidMeets
  split_ifs with halias hpriv hsame
  · simpa using hdone_c
  · simpa [allOrNothing_of_neg (show -(eperm : Int) < 0 by decide)] using hkept
  · simpa using hdone_c
  · cases os.refusal with
    | none =>
        simpa [gidOf] using hdone (ridWin machine (enroot rootGid gid)) (os.left c)
    | some e =>
        have hdone_e : done { c with lastError := e } ↔ met (getegid machine c) :=
          hdone c.groupSid e
        have hkept_e : undone { c with lastError := e } := hundone e
        by_cases he : errnoPosix e = 0
        · simpa [allOrNothing_errno, he] using hdone_e
        · simpa [allOrNothing_errno, he] using hkept_e

/-- `setgid` reports a refusal through the last error. A caller without
privilege is therefore told that all is well whenever nothing was in it. -/
theorem setgid_allOrNothing (os : GroupAnswers) (c : Creds) (gid : UInt32)
    (done undone : Creds → Prop) (met : UInt32 → Prop)
    (hdone : ∀ sid e, done { c with
        groupSid := sid, lastError := e, realGid := ridPosix machine sid } ↔
      met (unroot rootGid (ridPosix machine sid)))
    (hundone : ∀ e, undone { c with lastError := e }) :
    AllOrNothing (setgid machine os c gid).1 (done (setgid machine os c gid).2)
        (undone (setgid machine os c gid).2) ↔
      EgidMeets machine os c gid (errnoPosix c.lastError = 0 → done c) met := by
  have hkept : undone c := hundone c.lastError
  have hdone_c : done { c with realGid := ridPosix machine c.groupSid } ↔
      met (getegid machine c) := hdone c.groupSid c.lastError
  unfold setgid
  rw [setegid_eq]
  unfold EgidMeets
  split_ifs with halias hpriv hsame
  · simpa using hdone_c
  · by_cases he : errnoPosix c.lastError = 0
    · simp [eperm, he]
    · simpa [eperm, allOrNothing_errno, he] using hkept
  · simpa using hdone_c
  · cases os.refusal with
    | none =>
        simpa [gidOf] using hdone (ridWin machine (enroot rootGid gid)) (os.left c)
    | some e =>
        have hdone_e : done { c with
            lastError := e, realGid := ridPosix machine c.groupSid } ↔
            met (getegid machine c) := hdone c.groupSid e
        have hkept_e : undone { c with lastError := e } := hundone e
        by_cases he : errnoPosix e = 0
        · simpa [he] using hdone_e
        · simpa [allOrNothing_errno, he] using hkept_e

theorem setuid_allOrNothing (os : UserAnswers) (c : Creds) (uid : UInt32)
    (done undone : Creds → Prop) (met : UInt32 → Prop)
    (hdone : ∀ sid e, done { c with
        userSid := sid, lastError := e, realUid := ridPosix machine sid } ↔
      met (unroot rootUid (ridPosix machine sid)))
    (hundone : ∀ sid e, undone { c with userSid := sid, lastError := e } ↔
      unroot rootUid (ridPosix machine sid) = geteuid machine c) :
    AllOrNothing (setuid machine os c uid).1 (done (setuid machine os c uid).2)
      (undone (setuid machine os c uid).2) ↔ EuidMeets machine os c uid met :=
  (allOrNothing_then (seteuid machine os c uid)
      (fun c' => { c' with realUid := ridPosix machine c'.userSid }) done undone
      (seteuid_nonpos machine os c uid) (show -(eperm : Int) < 0 by decide)).trans
    (seteuid_allOrNothing machine os c uid
      (fun c' => done { c' with realUid := ridPosix machine c'.userSid }) undone met hdone hundone)

theorem euidMeets_enroot (os : UserAnswers) (c : Creds) (uid : UInt32) (met : UInt32 → Prop) :
    EuidMeets machine os c (enroot rootUid uid) met ↔ EuidMeets machine os c uid met := by
  simp only [EuidMeets, uidOf, enroot_enroot_rootUid]

/-- What a pair of a real and an effective id asks for, of a state whose ids
are read back. -/
theorem setreuid_allOrNothing (os : UserAnswers) (c : Creds) (ruid euid : UInt32)
    (done undone : Creds → Prop)
    (hdone : ∀ sid e ruid', done { c with
        userSid := sid, lastError := e, realUid := ruid' } ↔
      ReadsAs rootUid ruid (getuid machine { c with userSid := sid, realUid := ruid' }) ∧
        ReadsAs rootUid euid (unroot rootUid (ridPosix machine sid)))
    (hundone : ∀ sid e, undone { c with userSid := sid, lastError := e } ↔
      unroot rootUid (ridPosix machine sid) = geteuid machine c) :
    AllOrNothing (setreuid machine os c ruid euid).1 (done (setreuid machine os c ruid euid).2)
        (undone (setreuid machine os c ruid euid).2) ↔
      SetreuidMeets machine os c ruid euid := by
  unfold setreuid SetreuidMeets
  dsimp only
  split_ifs with hreal
  · refine seteuid_allOrNothing machine os c euid _ _ _ (fun sid e => ?_) hundone
    have hread : getuid machine { c with userSid := sid } =
        ruidUnder machine c (unroot rootUid (ridPosix machine sid)) := by
      unfold ruidUnder getuid
      split_ifs <;> rfl
    rw [← hread]
    exact hdone sid e c.realUid
  · rw [← euidMeets_enroot]
    refine setuid_allOrNothing machine os c _ _ _ _ (fun sid e => ?_) hundone
    have hread : getuid machine { c with userSid := sid, realUid := ridPosix machine sid } =
        unroot rootUid (ridPosix machine sid) := getuid_stored machine { c with userSid := sid }
    rw [← hread]
    simpa only [hread] using hdone sid e (ridPosix machine sid)

theorem setreuid_nonpos (os : UserAnswers) (c : Creds) (ruid euid : UInt32) :
    (setreuid machine os c ruid euid).1 ≤ 0 := by
  unfold setreuid setuid
  dsimp only
  split_ifs
  · exact seteuid_nonpos machine os c euid
  · simp
  · simp

theorem setresuid_allOrNothing (os : UserAnswers) (c : Creds) (ruid euid suid : UInt32)
    (done undone : Creds → Prop)
    (hdone : ∀ sid e ruid', done { c with
        userSid := sid, lastError := e, realUid := ruid', savedUid := enroot rootUid suid } ↔
      ReadsAs rootUid ruid (getuid machine { c with userSid := sid, realUid := ruid' }) ∧
        ReadsAs rootUid euid (unroot rootUid (ridPosix machine sid)))
    (hundone : ∀ sid e, undone { c with userSid := sid, lastError := e } ↔
      unroot rootUid (ridPosix machine sid) = geteuid machine c) :
    AllOrNothing (sysSetresuid machine os c ruid euid suid).1
        (done (sysSetresuid machine os c ruid euid suid).2)
        (undone (sysSetresuid machine os c ruid euid suid).2) ↔
      SetreuidMeets machine os c ruid euid :=
  (allOrNothing_then (setreuid machine os c ruid euid)
      (fun c' => { c' with savedUid := enroot rootUid suid }) done undone
      (setreuid_nonpos machine os c ruid euid) (show -(eperm : Int) < 0 by decide)).trans
    (setreuid_allOrNothing machine os c ruid euid
      (fun c' => done { c' with savedUid := enroot rootUid suid }) undone hdone hundone)

theorem setregid_allOrNothing (os : GroupAnswers) (c : Creds) (rgid egid : UInt32)
    (done undone : Creds → Prop)
    (hdone : ∀ sid e rgid', done { c with
        groupSid := sid, lastError := e, realGid := rgid' } ↔
      ReadsAs rootGid rgid (getgid machine { c with groupSid := sid, realGid := rgid' }) ∧
        ReadsAs rootGid egid (unroot rootGid (ridPosix machine sid)))
    (hundone : ∀ e, undone { c with lastError := e }) :
    AllOrNothing (setregid machine os c rgid egid).1 (done (setregid machine os c rgid egid).2)
        (undone (setregid machine os c rgid egid).2) ↔
      SetregidMeets machine os c rgid egid := by
  unfold setregid SetregidMeets
  split_ifs with hreal
  · refine setegid_allOrNothing machine os c egid _ _ _ (fun sid e => ?_) hundone
    have hread : getgid machine { c with groupSid := sid } =
        rgidUnder machine c (unroot rootGid (ridPosix machine sid)) := by
      unfold rgidUnder getgid
      split_ifs <;> rfl
    rw [← hread]
    exact hdone sid e c.realGid
  · have hkept : done c ↔ ReadsAs rootGid rgid (getgid machine c) ∧
        ReadsAs rootGid egid (getegid machine c) := hdone c.groupSid c.lastError c.realGid
    rw [← hkept]
    refine setgid_allOrNothing machine os c rgid _ _ _ (fun sid e => ?_) hundone
    have hread : getgid machine { c with groupSid := sid, realGid := ridPosix machine sid } =
        unroot rootGid (ridPosix machine sid) := getgid_stored machine { c with groupSid := sid }
    rw [← hread]
    simpa only [hread] using hdone sid e (ridPosix machine sid)

theorem setregid_nonpos (os : GroupAnswers) (c : Creds) (rgid egid : UInt32) :
    (setregid machine os c rgid egid).1 ≤ 0 := by
  unfold setregid setgid
  dsimp only
  split_ifs
  · exact setegid_nonpos machine os c egid
  · simp
  · simp

theorem setresgid_allOrNothing (os : GroupAnswers) (c : Creds) (rgid egid sgid : UInt32)
    (done undone : Creds → Prop)
    (hdone : ∀ sid e rgid', done { c with
        groupSid := sid, lastError := e, realGid := rgid', savedGid := enroot rootGid sgid } ↔
      ReadsAs rootGid rgid (getgid machine { c with groupSid := sid, realGid := rgid' }) ∧
        ReadsAs rootGid egid (unroot rootGid (ridPosix machine sid)))
    (hundone : ∀ e, undone { c with lastError := e }) :
    AllOrNothing (sysSetresgid machine os c rgid egid sgid).1
        (done (sysSetresgid machine os c rgid egid sgid).2)
        (undone (sysSetresgid machine os c rgid egid sgid).2) ↔
      SetregidMeets machine os c rgid egid :=
  (allOrNothing_then (setregid machine os c rgid egid)
      (fun c' => { c' with savedGid := enroot rootGid sgid }) done undone
      (setregid_nonpos machine os c rgid egid) (show -(eperm : Int) < 0 by decide)).trans
    (setregid_allOrNothing machine os c rgid egid
      (fun c' => done { c' with savedGid := enroot rootGid sgid }) undone hdone hundone)

/-! ### Calls and runs -/

theorem sameIds_userSid (c : Creds) (sid : SID8) (e : UInt32) :
    SameIds machine c { c with userSid := sid, lastError := e } ↔
      unroot rootUid (ridPosix machine sid) = geteuid machine c := by
  constructor
  · intro h
    exact congrArg IdTriple.effective h.1
  · intro h
    have hreal : getuid machine { c with userSid := sid, lastError := e } = getuid machine c := by
      unfold getuid
      split_ifs
      · exact h
      · rfl
    refine ⟨?_, rfl⟩
    simpa [sysGetresuid, hreal, geteuid] using h

theorem getuid_of_stored (c : Creds) (sid : SID8) (e s : UInt32) :
    getuid machine { c with
      userSid := sid, lastError := e, realUid := ridPosix machine sid, savedUid := s } =
      unroot rootUid (ridPosix machine sid) :=
  getuid_stored machine { c with userSid := sid, lastError := e, savedUid := s }

theorem getgid_of_stored (c : Creds) (sid : SID8) (e s : UInt32) :
    getgid machine { c with
      groupSid := sid, lastError := e, realGid := ridPosix machine sid, savedGid := s } =
      unroot rootGid (ridPosix machine sid) :=
  getgid_stored machine { c with groupSid := sid, lastError := e, savedGid := s }

/-- A request is served all or nothing exactly under its condition. -/
theorem honest_iff_meets (c : Creds) (rq : SetIdRequest) :
    Honest machine c rq ↔ rq.Meets machine c := by
  have huser : ∀ sid e, SameIds machine c { rq.enter c with userSid := sid, lastError := e } ↔
      unroot rootUid (ridPosix machine sid) = geteuid machine (rq.enter c) :=
    fun sid e => sameIds_userSid machine c sid e
  have hgroup : ∀ e, SameIds machine c { rq.enter c with lastError := e } :=
    fun e => ⟨rfl, rfl⟩
  obtain ⟨call, lastError, user, group⟩ := rq
  -- what each call establishes is what its own rule says of the sid it stores
  cases call with
  | seteuid euid =>
      refine seteuid_allOrNothing machine user _ euid
        ((SetIdCall.seteuid euid).Established machine) _ (· = unroot rootUid euid) ?_ huser
      intro sid e
      simp [SetIdCall.Established, sysGetresuid, geteuid]
  | setuid uid =>
      refine setuid_allOrNothing machine user _ uid
        ((SetIdCall.setuid uid).Established machine) _ (· = unroot rootUid uid) ?_ huser
      intro sid e
      simp [SetIdCall.Established, sysGetresuid, geteuid, getuid_of_stored]
  | setreuid ruid euid =>
      exact setreuid_allOrNothing machine user _ ruid euid
        ((SetIdCall.setreuid ruid euid).Established machine) _ (fun _ _ _ => Iff.rfl) huser
  | setresuid ruid euid suid =>
      refine setresuid_allOrNothing machine user _ ruid euid suid
        ((SetIdCall.setresuid ruid euid suid).Established machine) _ ?_ huser
      intro sid e ruid'
      have hsaved : ReadsAs rootUid suid (enroot rootUid suid) := readsAs_enroot rootUid suid
      simp only [SetIdCall.Established, sysGetresuid, hsaved, and_true]
      exact Iff.rfl
  | setegid egid =>
      refine setegid_allOrNothing machine group _ egid
        ((SetIdCall.setegid egid).Established machine) _ (· = unroot rootGid egid) ?_ hgroup
      intro sid e
      simp [SetIdCall.Established, sysGetresgid, getegid]
  | setgid gid =>
      have hkept : ∀ c : Creds, (SetIdCall.setgid gid).Established machine c ↔
          getgid machine c = unroot rootGid gid ∧ getegid machine c = unroot rootGid gid := by
        intro c
        simp [SetIdCall.Established, sysGetresgid, getgid, getegid]
      refine (setgid_allOrNothing machine group _ gid
        ((SetIdCall.setgid gid).Established machine) _ (· = unroot rootGid gid) ?_ hgroup).trans ?_
      · intro sid e
        simp [SetIdCall.Established, sysGetresgid, getegid, getgid_of_stored]
      · rw [hkept]
        exact Iff.rfl
  | setregid rgid egid =>
      exact setregid_allOrNothing machine group _ rgid egid
        ((SetIdCall.setregid rgid egid).Established machine) _ (fun _ _ _ => Iff.rfl) hgroup
  | setresgid rgid egid sgid =>
      refine setresgid_allOrNothing machine group _ rgid egid sgid
        ((SetIdCall.setresgid rgid egid sgid).Established machine) _ ?_ hgroup
      intro sid e rgid'
      have hsaved : ReadsAs rootGid sgid (enroot rootGid sgid) := readsAs_enroot rootGid sgid
      simp only [SetIdCall.Established, sysGetresgid, hsaved, and_true]
      exact Iff.rfl

/-- In every run of set-id calls every call is all or nothing if and only if
every call of the run is made under its condition. -/
theorem setIds_honest_iff (c : Creds) (rqs : List SetIdRequest) :
    Along (stepIds machine) (Honest machine) c rqs ↔
      Along (stepIds machine) (fun c rq => rq.Meets machine c) c rqs :=
  along_congr (honest_iff_meets machine) c rqs

end

/-! ### A call that is not

An ordinary user asks for the system's group while the last error is clear. The
request is denied, reported as error zero, and taken for granted. -/

def sampleMachine : SID8 := mkSid 5 [21, 11, 12, 13, 500] (by simp)

def plainUser : Creds where
  userSid := mkSid 5 [21, 11, 12, 13, 1000] (by simp)
  groupSid := mkSid 5 [21, 11, 12, 13, 513] (by simp)
  realUid := 0
  savedUid := 0
  realGid := 0
  savedGid := 0
  lastError := 0

def askRootGroup : SetIdRequest where
  call := .setgid 0
  lastError := errorSuccess
  user := ⟨.ok, .ok, .ok, .ok, .ok⟩
  group := ⟨.ok, .ok, .ok⟩

theorem setgid_denied_looks_granted :
    ¬ Along (stepIds sampleMachine) (Honest sampleMachine) plainUser [askRootGroup] := by
  rintro ⟨hhonest, -⟩
  have hreply : (askRootGroup.exec sampleMachine plainUser).1 = 0 := by decide
  have hread : getegid sampleMachine (askRootGroup.exec sampleMachine plainUser).2 ≠ 0 := by
    decide
  obtain ⟨-, hgroup⟩ := hhonest.ok hreply
  apply hread
  simpa [sysGetresgid, getegid] using hgroup

end MinC.Sys
