import Mathlib.Logic.Function.Basic

/-!
Handle tables.

Every process has a table from handle values to what is open under them. A
handle value means nothing outside of its process, and nothing any more after
it was dropped; the same value may then be given out again.
-/

namespace MinC.Lib

variable {π ε : Type*} [DecidableEq π]

/-- What is open under the handles of each process. -/
abbrev HandleTables (π ε : Type*) := π → Nat → Option ε

namespace HandleTables

/-- Open something under a handle of a process. -/
def put (t : HandleTables π ε) (p : π) (h : Nat) (e : ε) : HandleTables π ε :=
  Function.update t p (Function.update (t p) h (some e))

/-- Drop a handle of a process. -/
def drop (t : HandleTables π ε) (p : π) (h : Nat) : HandleTables π ε :=
  Function.update t p (Function.update (t p) h none)

@[simp] theorem put_same (t : HandleTables π ε) (p : π) (h : Nat) (e : ε) :
    t.put p h e p h = some e := by
  simp [put]

@[simp] theorem put_of_ne (t : HandleTables π ε) (p : π) {h h' : Nat} (e : ε) (hne : h' ≠ h) :
    t.put p h e p h' = t p h' := by
  simp [put, hne]

@[simp] theorem put_other (t : HandleTables π ε) {p p' : π} (h : Nat) (e : ε) (hne : p' ≠ p) :
    t.put p h e p' = t p' := by
  simp [put, hne]

@[simp] theorem drop_same (t : HandleTables π ε) (p : π) (h : Nat) : t.drop p h p h = none := by
  simp [drop]

@[simp] theorem drop_of_ne (t : HandleTables π ε) (p : π) {h h' : Nat} (hne : h' ≠ h) :
    t.drop p h p h' = t p h' := by
  simp [drop, hne]

@[simp] theorem drop_other (t : HandleTables π ε) {p p' : π} (h : Nat) (hne : p' ≠ p) :
    t.drop p h p' = t p' := by
  simp [drop, hne]

/-- What is open under a handle stays open when something is put where nothing
was. -/
theorem put_keeps {t : HandleTables π ε} {p : π} {h h' : Nat} {e e' : ε}
    (hfree : t p h = none) (hopen : t p h' = some e') : t.put p h e p h' = some e' := by
  have hne : h' ≠ h := by
    rintro rfl
    simp [hfree] at hopen
  rw [put_of_ne t p e hne]
  exact hopen

end HandleTables

end MinC.Lib
