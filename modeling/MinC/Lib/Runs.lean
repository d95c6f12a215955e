import Mathlib.Data.Int.Order.Basic
import Mathlib.Data.List.Basic
import Mathlib.Tactic.SplitIfs

/-!
Runs of a deterministic machine that is fed a list of inputs.

A property of a run is of one of two kinds. Either it is a property of the
states it goes through, and then it is an invariant; or it is a property of
each of its steps, read at the state the step starts from, and then it is
`Along`. The rules below move between the two: an invariant that the steps
keep, perhaps only those steps that meet a condition, gives a property of
every step, and a property that one step has exactly when it meets a
condition is had by all the steps of a run exactly when they all meet it.

A step may be a call that answers with a C integer: zero for success, a negative
number for failure. Such a call is all or nothing when a zero reply means that
what was asked for is done and any other reply is negative and means that
nothing was.
-/

namespace MinC.Lib

variable {σ ι : Type*}

/-- The state a machine is in after the inputs, in their order. -/
def run (step : σ → ι → σ) (s : σ) (inputs : List ι) : σ :=
  inputs.foldl step s

@[simp] theorem run_nil (step : σ → ι → σ) (s : σ) : run step s [] = s := rfl

@[simp] theorem run_cons (step : σ → ι → σ) (s : σ) (i : ι) (is : List ι) :
    run step s (i :: is) = run step (step s i) is := rfl

/-- Every step of a run has the property, at the state it starts from. -/
def Along (step : σ → ι → σ) (P : σ → ι → Prop) : σ → List ι → Prop
  | _, [] => True
  | s, i :: is => P s i ∧ Along step P (step s i) is

@[simp] theorem along_nil (step : σ → ι → σ) (P : σ → ι → Prop) (s : σ) :
    Along step P s [] := trivial

@[simp] theorem along_cons (step : σ → ι → σ) (P : σ → ι → Prop) (s : σ) (i : ι)
    (is : List ι) :
    Along step P s (i :: is) ↔ P s i ∧ Along step P (step s i) is := Iff.rfl

theorem run_append (step : σ → ι → σ) (s : σ) (before after : List ι) :
    run step s (before ++ after) = run step (run step s before) after :=
  List.foldl_append

theorem along_append {step : σ → ι → σ} {P : σ → ι → Prop} {s : σ} {before after : List ι} :
    Along step P s (before ++ after) ↔
      Along step P s before ∧ Along step P (run step s before) after := by
  induction before generalizing s with
  | nil => simp
  | cons i before ih => simp [ih, and_assoc]

instance decidableAlong (step : σ → ι → σ) (P : σ → ι → Prop) [∀ s i, Decidable (P s i)] :
    ∀ s is, Decidable (Along step P s is)
  | _, [] => isTrue trivial
  | s, i :: is =>
      have := decidableAlong step P (step s i) is
      inferInstanceAs (Decidable (P s i ∧ Along step P (step s i) is))

/-- A step that is taken only if something holds keeps an invariant if it keeps
it where it is taken. -/
theorem guarded {I : σ → Prop} {s next : σ} {taken : Prop} [Decidable taken] (hs : I s)
    (hnext : taken → I next) : I (if taken then next else s) := by
  split_ifs with htaken
  · exact hnext htaken
  · exact hs

/-- An invariant of the steps is an invariant of the runs. -/
theorem run_invariant {step : σ → ι → σ} {I : σ → Prop}
    (hstep : ∀ s i, I s → I (step s i)) {s : σ} (hs : I s) (is : List ι) :
    I (run step s is) := by
  induction is generalizing s with
  | nil => exact hs
  | cons i is ih => exact ih (hstep s i hs)

/-- Properties that agree step by step agree along every run. -/
theorem along_congr {step : σ → ι → σ} {P Q : σ → ι → Prop}
    (h : ∀ s i, P s i ↔ Q s i) (s : σ) (is : List ι) :
    Along step P s is ↔ Along step Q s is := by
  induction is generalizing s with
  | nil => simp
  | cons i is ih => simp [h s i, ih]

/-- Properties that agree wherever an invariant holds agree along every run, if
the steps that have one of them keep the invariant. -/
theorem along_congr_of_kept {step : σ → ι → σ} {I : σ → Prop} {P Q : σ → ι → Prop}
    (hkeep : ∀ s i, I s → Q s i → I (step s i)) (h : ∀ s i, I s → (P s i ↔ Q s i)) {s : σ} (hs : I s)
    (is : List ι) : Along step P s is ↔ Along step Q s is := by
  induction is generalizing s with
  | nil => exact Iff.rfl
  | cons i is ih =>
      rw [along_cons, along_cons, h s i hs]
      exact and_congr_right fun hq => ih (hkeep s i hs hq)

/-- Properties that agree wherever an invariant holds agree along every run. -/
theorem along_congr_of_invariant {step : σ → ι → σ} {I : σ → Prop} {P Q : σ → ι → Prop}
    (hstep : ∀ s i, I s → I (step s i)) (h : ∀ s i, I s → (P s i ↔ Q s i)) {s : σ} (hs : I s)
    (is : List ι) : Along step P s is ↔ Along step Q s is :=
  along_congr_of_kept (fun s i hi _ => hstep s i hi) h hs is

/-- If the steps that meet a condition keep an invariant and have a property
wherever the invariant holds, a run whose steps all meet the condition has the
property at every step and ends in the invariant. -/
theorem along_of_invariant {step : σ → ι → σ} {I : σ → Prop} {C P : σ → ι → Prop}
    (hkeep : ∀ s i, I s → C s i → I (step s i))
    (hhave : ∀ s i, I s → C s i → P s i)
    {s : σ} (hs : I s) {is : List ι} (h : Along step C s is) :
    Along step P s is ∧ I (run step s is) := by
  induction is generalizing s with
  | nil => exact ⟨trivial, hs⟩
  | cons i is ih =>
      obtain ⟨hc, hrest⟩ := h
      obtain ⟨hp, hi⟩ := ih (hkeep s i hs hc) hrest
      exact ⟨⟨hhave s i hs hc, hp⟩, hi⟩

/-- If the steps that meet one condition keep an invariant exactly when they
meet another, a run of such steps stays in the invariant exactly when they all
meet the other. -/
theorem along_keeps_iff {step : σ → ι → σ} {I : σ → Prop} {C P : σ → ι → Prop}
    (hstep : ∀ s i, I s → C s i → (I (step s i) ↔ P s i))
    {s : σ} (hs : I s) {is : List ι} (h : Along step C s is) :
    Along step (fun s i => I (step s i)) s is ↔ Along step P s is := by
  induction is generalizing s with
  | nil => simp
  | cons i is ih =>
      obtain ⟨hc, hrest⟩ := h
      rw [along_cons, along_cons, hstep s i hs hc]
      exact and_congr_right fun hp => ih ((hstep s i hs hc).mpr hp) hrest

/-- A run has a property at every step exactly when it has it at every split of
its inputs. -/
theorem along_iff_split {step : σ → ι → σ} {P : σ → ι → Prop} {s : σ} {is : List ι} :
    Along step P s is ↔ ∀ before i after, is = before ++ i :: after → P (run step s before) i := by
  induction is generalizing s with
  | nil => simp
  | cons i is ih =>
      rw [along_cons, ih]
      constructor
      · rintro ⟨hp, hrest⟩ before j after heq
        cases before with
        | nil =>
            obtain ⟨rfl, -⟩ := List.cons.inj heq
            exact hp
        | cons b before =>
            obtain ⟨rfl, htail⟩ := List.cons.inj heq
            exact hrest before j after htail
      · intro h
        exact ⟨h [] i is rfl, fun before j after heq =>
          h (i :: before) j after (by rw [heq, List.cons_append])⟩

/-- A flag that each step keeps up exactly when it has a property is up at the
end exactly when every step has it. -/
theorem run_flag {step : σ → ι → σ} {I : σ → Prop} {P : σ → ι → Prop}
    (hstep : ∀ s i, I (step s i) ↔ I s ∧ P s i) {s : σ} (is : List ι) :
    I (run step s is) ↔ I s ∧ Along step P s is := by
  induction is generalizing s with
  | nil => simp
  | cons i is ih => rw [run_cons, ih, hstep, along_cons, and_assoc]

/-! ### Calls that are all or nothing -/

/-- The reply is zero and the work is done, or it is negative and the work is
undone. The two properties are kept apart because on a failed call a caller
may not rely on the first and on a successful one not on the second. -/
structure AllOrNothing (reply : Int) (done undone : Prop) : Prop where
  ok : reply = 0 → done
  failed : reply ≠ 0 → reply < 0 ∧ undone

section
variable {done undone : Prop}

@[simp] theorem allOrNothing_zero : AllOrNothing 0 done undone ↔ done :=
  ⟨fun h => h.ok rfl, fun h => ⟨fun _ => h, fun h0 => absurd rfl h0⟩⟩

theorem allOrNothing_of_neg {reply : Int} (h : reply < 0) :
    AllOrNothing reply done undone ↔ undone :=
  ⟨fun hr => (hr.failed (Int.ne_of_lt h)).2,
    fun hu => ⟨fun h0 => absurd h0 (Int.ne_of_lt h), fun _ => ⟨h, hu⟩⟩⟩

/-- A reply rebuilt from an error number is a failure only if that number is
not zero. -/
theorem allOrNothing_errno (n : Nat) :
    AllOrNothing (-(n : Int)) done undone ↔ if n = 0 then done else undone := by
  by_cases hn : n = 0
  · subst hn
    simp
  · rw [if_neg hn]
    exact allOrNothing_of_neg (by omega)

/-- A call that does one more thing after a call that succeeded, and that gives
its own error after one that failed. -/
theorem allOrNothing_then {σ : Type*} (p : Int × σ) (next : σ → σ) (done undone : σ → Prop)
    {error : Int} (hp : p.1 ≤ 0) (herror : error < 0) :
    let r := if p.1 = 0 then (0, next p.2) else (error, p.2)
    AllOrNothing r.1 (done r.2) (undone r.2) ↔
      AllOrNothing p.1 (done (next p.2)) (undone p.2) := by
  by_cases h : p.1 = 0
  · simp [h]
  · have hneg : p.1 < 0 := by omega
    simp only [h, if_false]
    rw [allOrNothing_of_neg herror, allOrNothing_of_neg hneg]

end

end MinC.Lib
