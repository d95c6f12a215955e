import Mathlib.Logic.Function.Basic

/-!
Entries that name objects, and what it is to rename one.

A state is a function from entries to the objects they name. Two entries may
name one object. Renaming is described by what it does to the states before
and after, not by how it is done, so that it applies to a rename that is one
step and to one that is put together from removals and moves.
-/

namespace MinC.Lib

/-- The objects that entries name. -/
abbrev Names (κ α : Type*) := κ → Option α

variable {κ α : Type*}

namespace Names

variable [DecidableEq κ]

/-- The entry names nothing any more. -/
def unlink (fs : Names κ α) (p : κ) : Names κ α := Function.update fs p none

/-- The second entry names what the first one named, and the first nothing. -/
def move (fs : Names κ α) (p q : κ) : Names κ α :=
  Function.update (Function.update fs p none) q (fs p)

@[simp] theorem unlink_self (fs : Names κ α) (p : κ) : fs.unlink p p = none := by
  simp [unlink]

@[simp] theorem unlink_of_ne (fs : Names κ α) {p q : κ} (h : q ≠ p) :
    fs.unlink p q = fs q := by
  simp [unlink, h]

@[simp] theorem move_target (fs : Names κ α) (p q : κ) : fs.move p q q = fs p := by
  simp [move]

@[simp] theorem move_source (fs : Names κ α) {p q : κ} (h : p ≠ q) : fs.move p q p = none := by
  simp [move, h]

@[simp] theorem move_of_ne (fs : Names κ α) {p q e : κ} (hp : e ≠ p) (hq : e ≠ q) :
    fs.move p q e = fs e := by
  simp [move, hp, hq]

end Names

/-- From one state to another, an entry was renamed to a second one, or was
not and nothing was lost. -/
structure Renames (fs fs' : Names κ α) (ok : Prop) (p q : κ) : Prop where
  /-- A failure leaves both entries alone. -/
  failed : ¬ ok → fs' p = fs p ∧ fs' q = fs q
  /-- An object that both entries name stays where it was to be. -/
  same : fs p ≠ none → fs p = fs q → fs' q = fs q
  /-- A success between two entries moves the object from one to the other. -/
  moved : ok → p ≠ q → fs p ≠ none ∧ fs' q = fs p ∧ fs' p = none

variable {fs fs' : Names κ α} {ok : Prop} {p q : κ}

/-- To fail without a trace is a rename. -/
theorem renames_failed (hok : ¬ ok) : Renames fs fs ok p q :=
  ⟨fun _ => ⟨rfl, rfl⟩, fun _ _ => rfl, fun h => absurd h hok⟩

/-- To succeed between an entry and itself, leaving it, is a rename. -/
theorem renames_self : Renames fs fs ok p p :=
  ⟨fun _ => ⟨rfl, rfl⟩, fun _ _ => rfl, fun _ h => absurd rfl h⟩

/-- A move between two entries is a rename, also when it follows the removal
of the target. -/
theorem renames_move (hok : ok) (hp : fs p ≠ none) (hfs : fs' q = fs p)
    (hgone : fs' p = none) : Renames fs fs' ok p q :=
  ⟨fun h => absurd hok h, fun _ hsame => hfs.trans hsame, fun _ _ => ⟨hp, hfs, hgone⟩⟩

/-- A failure that removed the target is not. -/
theorem not_renames_of_lost (hok : ¬ ok) (hq : fs q ≠ none) (hlost : fs' q = none) :
    ¬ Renames fs fs' ok p q := by
  intro h
  have hkept : fs' q = fs q := (h.failed hok).2
  exact hq (hkept.symm.trans hlost)

end MinC.Lib
