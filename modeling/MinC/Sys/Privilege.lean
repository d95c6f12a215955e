import MinC.Sys.SetIds

/-!
A task that is not the system's never becomes it.

The stored numbers of a task are written by calls that anyone may make, and
they are compared with the arguments of other calls. None of this matters: the
two identifiers Windows knows are only ever changed behind a test of the
effective user id, and that id is computed from one of them. Nothing stored
takes part in the test, so it stays closed over whole runs.
-/

namespace MinC.Sys

open MinC.Lib MinC.Win

variable (machine : SID8)

/-- The state has the same two identifiers. -/
def SameSids (c c' : Creds) : Prop := c'.userSid = c.userSid ∧ c'.groupSid = c.groupSid

theorem SameSids.geteuid {c c' : Creds} (h : SameSids c c') :
    geteuid machine c' = geteuid machine c := by
  simp [MinC.Sys.geteuid, h.1]

section
variable {machine} {c : Creds} (h : geteuid machine c ≠ 0)
include h

theorem seteuid_unprivileged (os : UserAnswers) (uid : UInt32) :
    (seteuid machine os c uid).2 = c := by
  rw [seteuid_eq]
  split_ifs <;> rfl

theorem setegid_unprivileged (os : GroupAnswers) (gid : UInt32) :
    (setegid machine os c gid).2 = c := by
  rw [setegid_eq]
  split_ifs <;> rfl

theorem setuid_sameSids (os : UserAnswers) (uid : UInt32) :
    SameSids c (setuid machine os c uid).2 := by
  unfold setuid
  dsimp only
  rw [seteuid_unprivileged h]
  split_ifs <;> exact ⟨rfl, rfl⟩

theorem setreuid_sameSids (os : UserAnswers) (ruid euid : UInt32) :
    SameSids c (setreuid machine os c ruid euid).2 := by
  unfold setreuid
  dsimp only
  split_ifs
  · rw [seteuid_unprivileged h]
    exact ⟨rfl, rfl⟩
  · exact setuid_sameSids h os _

theorem setresuid_sameSids (os : UserAnswers) (ruid euid suid : UInt32) :
    SameSids c (sysSetresuid machine os c ruid euid suid).2 := by
  obtain ⟨huser, hgroup⟩ := setreuid_sameSids h os ruid euid
  unfold sysSetresuid
  dsimp only
  split_ifs <;> exact ⟨huser, hgroup⟩

theorem setgid_sameSids (os : GroupAnswers) (gid : UInt32) :
    SameSids c (setgid machine os c gid).2 := by
  unfold setgid
  dsimp only
  rw [setegid_unprivileged h]
  split_ifs <;> exact ⟨rfl, rfl⟩

theorem setregid_sameSids (os : GroupAnswers) (rgid egid : UInt32) :
    SameSids c (setregid machine os c rgid egid).2 := by
  unfold setregid
  split_ifs
  · rw [setegid_unprivileged h]
    exact ⟨rfl, rfl⟩
  · exact setgid_sameSids h os rgid

theorem setresgid_sameSids (os : GroupAnswers) (rgid egid sgid : UInt32) :
    SameSids c (sysSetresgid machine os c rgid egid sgid).2 := by
  obtain ⟨huser, hgroup⟩ := setregid_sameSids h os rgid egid
  unfold sysSetresgid
  dsimp only
  split_ifs <;> exact ⟨huser, hgroup⟩

/-- One call of a task without privilege leaves both identifiers alone. -/
theorem stepIds_sameSids (rq : SetIdRequest) : SameSids c (stepIds machine c rq) := by
  have henter : geteuid machine (rq.enter c) ≠ 0 := h
  unfold stepIds SetIdRequest.exec
  cases rq.call with
  | seteuid euid =>
      simp only [seteuid_unprivileged henter]
      exact ⟨rfl, rfl⟩
  | setuid uid => exact setuid_sameSids henter rq.user uid
  | setreuid ruid euid => exact setreuid_sameSids henter rq.user ruid euid
  | setresuid ruid euid suid => exact setresuid_sameSids henter rq.user ruid euid suid
  | setegid egid =>
      simp only [setegid_unprivileged henter]
      exact ⟨rfl, rfl⟩
  | setgid gid => exact setgid_sameSids henter rq.group gid
  | setregid rgid egid => exact setregid_sameSids henter rq.group rgid egid
  | setresgid rgid egid sgid => exact setresgid_sameSids henter rq.group rgid egid sgid

end

/-- Over any run of set-id calls a task without privilege keeps both
identifiers, and with them its lack of privilege. -/
theorem unprivileged_forever (c : Creds) (h : geteuid machine c ≠ 0)
    (rqs : List SetIdRequest) :
    (run (stepIds machine) c rqs).userSid = c.userSid ∧
      (run (stepIds machine) c rqs).groupSid = c.groupSid ∧
        geteuid machine (run (stepIds machine) c rqs) ≠ 0 := by
  have hstep : ∀ c' rq, SameSids c c' → SameSids c (stepIds machine c' rq) := by
    intro c' rq hsame
    have hpriv : geteuid machine c' ≠ 0 := by
      rw [hsame.geteuid machine]
      exact h
    obtain ⟨huser, hgroup⟩ := stepIds_sameSids hpriv rq
    exact ⟨huser.trans hsame.1, hgroup.trans hsame.2⟩
  have hrun : SameSids c (run (stepIds machine) c rqs) := run_invariant hstep ⟨rfl, rfl⟩ rqs
  refine ⟨hrun.1, hrun.2, ?_⟩
  rw [hrun.geteuid machine]
  exact h

/-- An ordinary user may ask for anything, in any order. -/
theorem unprivileged_forever_plainUser :
    geteuid sampleMachine plainUser ≠ 0 ∧
      geteuid sampleMachine
        (run (stepIds sampleMachine) plainUser [askRootGroup, askRootGroup]) ≠ 0 :=
  ⟨by decide,
    (unprivileged_forever sampleMachine plainUser (by decide) [askRootGroup, askRootGroup]).2.2⟩

end MinC.Sys
