import MinC.Sys.Signal

/-!
How a task ends, and how its end is read.

A status word has the exit status above the signal that ended the task, and no
signal means that the task exited. What a signal does by default is decided by
two masks: those that stop a task, and those that do nothing. All others end
the task, and they do so by the same exit that a program calls.
-/

namespace MinC.Sys

open MinC.Lib MinC.Win MinC.Vfs

/-! ### The exit -/

/-- `__exit`, as far as the task is concerned, and up to the end of its thread. -/
def exitTask (status : Int) (task : WinTask) : WinTask := exitBegin (exitStatus status task)

def sysExit (status : Int) (task : WinTask) : WinTask := exitTask status task

/-! ### What signals do -/

def sigmask (signum : Nat) : UInt32 := 1 <<< UInt32.ofNat (signum - 1)

def bitSigurg : UInt32 := 0x00008000
def bitSigstop : UInt32 := 0x00010000
def bitSigtstp : UInt32 := 0x00020000
def bitSigcont : UInt32 := 0x00040000
def bitSigchld : UInt32 := 0x00080000
def bitSigttin : UInt32 := 0x00100000
def bitSigttou : UInt32 := 0x00200000
def bitSigio : UInt32 := 0x00400000
def bitSigwinch : UInt32 := 0x08000000
def bitSiginfo : UInt32 := 0x10000000

def sigmaskStop : UInt32 := bitSigstop ||| bitSigtstp ||| bitSigttin ||| bitSigttou ||| bitSigcont

def sigmaskIgnore : UInt32 :=
  bitSigwinch ||| bitSigchld ||| bitSigurg ||| bitSiginfo ||| bitSigio

/-- How the handling of a signal ends: not at all, for the thread has, or with a
result. -/
inductive SigDone
  | exited
  | returned (result : Int)
  deriving DecidableEq

/-- What is done by default. A task that stops waits for a message before the
result is returned. -/
def sigprocDefault (signum : Nat) (task : WinTask) : SigDone × WinTask :=
  if sigmask signum &&& sigmaskStop ≠ 0 then (.returned (-1), sigStop task)
  else if sigmask signum &&& ~~~ sigmaskIgnore ≠ 0 then
    (.exited, exitTask 127 (sigTerminate signum task))
  else (.returned (-1), task)

inductive SigHandler
  | dfl | err | ign | function
  deriving DecidableEq

/-- What a task does with a signal, apart from what a function of the program
does to the task. -/
def sigprocPosix (handler : SigHandler) (restart : Bool) (error : UInt32) (signum : Nat)
    (task : WinTask) : SigDone × WinTask :=
  match handler with
  | .dfl => sigprocDefault signum task
  | .err => (.returned (if restart then -1 else 0),
      { task with status := error * 0x100 + UInt32.ofNat signum })
  | .ign => (.returned (-1), task)
  | .function => (.returned (if restart then -1 else 0), task)

/-- What a task does with a control event, unless the event is not in the table. -/
def sigprocWin (handler : Nat → SigHandler) (restart : Nat → Bool) (error : UInt32)
    (event : UInt32) (task : WinTask) : Option (SigDone × WinTask) :=
  (sigPosix event).map fun signum =>
    sigprocPosix (handler signum) (restart signum) error signum task

/-- The default action of the signal is to end the task. -/
def Terminates (signum : Nat) : Prop :=
  (0 < signum ∧ signum < nsig) ∧ sigmask signum &&& sigmaskStop = 0 ∧
    sigmask signum &&& ~~~ sigmaskIgnore ≠ 0

instance (signum : Nat) : Decidable (Terminates signum) := inferInstanceAs (Decidable (_ ∧ _))

/-- Which signals end a task. -/
theorem terminates_iff (signum : Nat) :
    Terminates signum ↔ (0 < signum ∧ signum < nsig) ∧
      signum ∉ [sigstop, sigtstp, sigttin, sigttou, sigcont] ∧
      signum ∉ [sigwinch, sigchld, sigurg, siginfo, sigio] := by
  apply and_congr_right
  intro h
  have hall : ∀ n < nsig, 0 < n →
      (sigmask n &&& sigmaskStop = 0 ∧ sigmask n &&& ~~~ sigmaskIgnore ≠ 0 ↔
        n ∉ [sigstop, sigtstp, sigttin, sigttou, sigcont] ∧
        n ∉ [sigwinch, sigchld, sigurg, siginfo, sigio]) := by decide
  exact hall signum h.2 h.1

theorem sigprocDefault_terminates {signum : Nat} (h : Terminates signum) (task : WinTask) :
    sigprocDefault signum task = (.exited, exitTask 127 (sigTerminate signum task)) := by
  rw [sigprocDefault, if_neg (by rw [h.2.1]; exact not_not_intro rfl), if_pos h.2.2]

/-- A signal that ends a task does so where it arrives, if it is not handled. -/
theorem sigprocWin_terminates {signum : Nat} (h : Terminates signum) {handler : Nat → SigHandler}
    (hhandler : handler signum = .dfl) (restart : Nat → Bool) (error : UInt32) (task : WinTask) :
    ∃ event, sigWin signum = some event ∧ sigprocWin handler restart error event task =
      some (.exited, exitTask 127 (sigTerminate signum task)) := by
  obtain ⟨event, hwin, hposix⟩ := sigPosix_sigWin
    (show (0 : Int) < signum by exact_mod_cast h.1.1) (by exact_mod_cast h.1.2)
  refine ⟨event, hwin, ?_⟩
  rw [sigprocWin, hposix, Option.map_some, Int.toNat_natCast, hhandler, sigprocPosix,
    sigprocDefault_terminates h]

/-! ### How a status is read -/

def wstatus (status : UInt32) : UInt32 := status &&& 0x7F

def wifexited (status : UInt32) : Bool := wstatus status == 0

def wexitstatus (status : UInt32) : UInt32 := (status >>> 8) &&& 0xFF

def wifsignaled (status : UInt32) : Bool := wstatus status != wstopped && wstatus status != 0

def wtermsig (status : UInt32) : UInt32 := wstatus status

/-- The word that an exit stores. -/
def exitWord (status : Int) : UInt32 := UInt32.ofInt (status * 0x100)

theorem exitWord_eq (status : Int) : exitWord status = UInt32.ofInt status * 0x100 := by
  rw [exitWord, UInt32.ofInt_mul]
  rfl

/-- There is no signal in the word of an exit, whatever the status. -/
theorem wstatus_exitWord (status : Int) : wstatus (exitWord status) = 0 := by
  rw [exitWord_eq, wstatus]
  generalize UInt32.ofInt status = word
  apply UInt32.toNat_inj.mp
  rw [u32_and_ones _ (show (0x7F : UInt32).toNat = 2 ^ 7 - 1 from rfl), UInt32.toNat_mul]
  show word.toNat * 256 % 4294967296 % 128 = 0
  omega

theorem wifexited_exitWord (status : Int) : wifexited (exitWord status) = true := by
  rw [wifexited, wstatus_exitWord]
  rfl

theorem wifsignaled_exitWord (status : Int) : wifsignaled (exitWord status) = false := by
  rw [wifsignaled, wstatus_exitWord]
  rfl

/-- Eight bits of the status are read back. -/
theorem wexitstatus_exitWord (status : Int) :
    wexitstatus (exitWord status) = UInt32.ofInt status &&& 0xFF := by
  rw [exitWord_eq, wexitstatus]
  generalize UInt32.ofInt status = word
  apply UInt32.toNat_inj.mp
  have hlow (x : UInt32) : (x &&& 0xFF).toNat = x.toNat % 2 ^ 8 := u32_and_ones x rfl
  rw [hlow, hlow, UInt32.toNat_shiftRight, UInt32.toNat_mul, Nat.shiftRight_eq_div_pow]
  show word.toNat * 256 % 4294967296 / 256 % 256 = word.toNat % 256
  omega

end MinC.Sys
