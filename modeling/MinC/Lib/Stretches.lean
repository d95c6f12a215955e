import Mathlib.Computability.Language

/-!
Stretches of a text, and languages.

A matcher works on two places of a text, and asks whether what stands between them
is in a language. Where the language is a product, the places in between have to be
tried; where it is an iteration, only pieces that are not empty need to be.
-/

namespace MinC.Lib

open Computability

/-! ### Stretches -/

section
variable {α : Type*}

/-- What stands between two places. -/
def stretch (t : List α) (i j : Nat) : List α := (t.drop i).take (j - i)

variable {t : List α} {i j m : Nat}

@[simp] theorem stretch_self (t : List α) (i : Nat) : stretch t i i = [] := by
  rw [stretch, Nat.sub_self, List.take_zero]

theorem length_stretch (hj : j ≤ t.length) : (stretch t i j).length = j - i := by
  rw [stretch, List.length_take, List.length_drop]
  omega

theorem stretch_all (t : List α) : stretch t 0 t.length = t := by
  rw [stretch, List.drop_zero, Nat.sub_zero, List.take_length]

theorem stretch_append (hi : i ≤ m) (hm : m ≤ j) :
    stretch t i m ++ stretch t m j = stretch t i j := by
  have hj : j - i = (m - i) + (j - m) := by omega
  have hdrop : i + (m - i) = m := by omega
  rw [stretch, stretch, stretch, hj, List.take_add, List.drop_drop, hdrop]

theorem stretch_cons (d : α) (hi : i < j) (hj : j ≤ t.length) :
    stretch t i j = t.getD i d :: stretch t (i + 1) j := by
  have hlt : i < t.length := hi.trans_le hj
  have hsub : j - i = (j - (i + 1)) + 1 := by omega
  rw [stretch, stretch, hsub, List.drop_eq_getElem_cons hlt, List.take_succ_cons,
    List.getElem_eq_getD d]

theorem stretch_eq_nil (hi : i ≤ j) (hj : j ≤ t.length) : stretch t i j = [] ↔ i = j := by
  rw [← List.length_eq_zero_iff, length_stretch hj]
  omega

theorem of_stretch_eq_cons (d : α) {c : α} {l : List α} (hi : i ≤ j) (hj : j ≤ t.length)
    (h : stretch t i j = c :: l) : i < j ∧ t.getD i d = c ∧ stretch t (i + 1) j = l := by
  rcases Nat.eq_or_lt_of_le hi with rfl | hlt
  · rw [stretch_self] at h
    cases h
  · rw [stretch_cons d hlt hj] at h
    exact ⟨hlt, (List.cons.inj h).1, (List.cons.inj h).2⟩

theorem of_stretch_eq_append {l l' : List α} (hi : i ≤ j) (hj : j ≤ t.length)
    (h : stretch t i j = l ++ l') :
    i + l.length ≤ j ∧ stretch t i (i + l.length) = l ∧ stretch t (i + l.length) j = l' := by
  have hlen := congrArg List.length h
  rw [length_stretch hj, List.length_append] at hlen
  have hle : i + l.length ≤ j := by omega
  rw [← stretch_append (Nat.le_add_right i l.length) hle] at h
  have hlen' : (stretch t i (i + l.length)).length = l.length := by
    rw [length_stretch (hle.trans hj), Nat.add_sub_cancel_left]
  exact ⟨hle, List.append_inj h hlen'⟩

theorem stretch_mem_mul {L M : Language α} (hi : i ≤ j) (hj : j ≤ t.length) :
    stretch t i j ∈ L * M ↔
      ∃ m, i ≤ m ∧ m ≤ j ∧ stretch t i m ∈ L ∧ stretch t m j ∈ M := by
  rw [Language.mem_mul]
  constructor
  · rintro ⟨a, ha, b, hb, hab⟩
    obtain ⟨hle, hfirst, hrest⟩ := of_stretch_eq_append hi hj hab.symm
    refine ⟨i + a.length, Nat.le_add_right _ _, hle, ?_, ?_⟩
    · rwa [hfirst]
    · rwa [hrest]
  · rintro ⟨m, him, hmj, ha, hb⟩
    exact ⟨_, ha, _, hb, stretch_append him hmj⟩

end

/-! ### Iterations -/

section
variable {α : Type*} {L R : Language α} {w : List α}

theorem nonempty_of_mem_kstar (h : w ∈ L∗) (hne : w ≠ []) :
    ∃ a b, a ≠ [] ∧ a ∈ L ∧ b ∈ L∗ ∧ a ++ b = w := by
  obtain ⟨S, rfl, hS⟩ := Language.mem_kstar_iff_exists_nonempty.mp h
  cases S with
  | nil => exact absurd rfl hne
  | cons a S =>
      obtain ⟨ha, hne⟩ := hS a (List.mem_cons_self ..)
      exact ⟨a, S.flatten, hne, ha,
        Language.join_mem_kstar fun y hy => (hS y (List.mem_cons_of_mem _ hy)).1, rfl⟩

theorem kstar_mul (L R : Language α) : L∗ * R = R + L * L∗ * R := by
  rw [← Language.one_add_self_mul_kstar_eq_kstar, add_mul, one_mul,
    Language.one_add_self_mul_kstar_eq_kstar]

/-- After a piece that is not empty the iteration may go on. -/
theorem mem_iterated (L R : Language α) (w : List α) :
    w ∈ L * L∗ * R ↔
      ∃ a b, a ++ b = w ∧ a ∈ L ∧ (b ∈ R ∨ a ≠ [] ∧ b ∈ L * L∗ * R) := by
  have hgoes : ∀ {a b : List α}, a ≠ [] → b ∈ L∗ * R → b ∈ R ∨ a ≠ [] ∧ b ∈ L * L∗ * R := by
    intro a b hne hb
    rw [kstar_mul, Language.mem_add] at hb
    exact hb.imp_right fun hb => ⟨hne, hb⟩
  constructor
  · intro h
    rw [mul_assoc, Language.mem_mul] at h
    obtain ⟨a, ha, b, hb, rfl⟩ := h
    by_cases hne : a = []
    · -- an empty piece is left out
      subst hne
      obtain ⟨c, hc, r, hr, rfl⟩ := Language.mem_mul.mp hb
      by_cases hnil : c = []
      · subst hnil
        exact ⟨[], r, rfl, ha, .inl hr⟩
      · obtain ⟨a', c', hne', ha', hc', rfl⟩ := nonempty_of_mem_kstar hc hnil
        refine ⟨a', c' ++ r, ?_, ha', hgoes hne' (Language.append_mem_mul hc' hr)⟩
        rw [List.nil_append, List.append_assoc]
    · exact ⟨a, b, rfl, ha, hgoes hne hb⟩
  · rintro ⟨a, b, rfl, ha, hb | ⟨_, hb⟩⟩
    · rw [mul_assoc]
      refine Language.append_mem_mul ha ?_
      rw [kstar_mul, Language.mem_add]
      exact .inl hb
    · rw [mul_assoc]
      refine Language.append_mem_mul ha ?_
      rw [kstar_mul, Language.mem_add]
      exact .inr hb

theorem stretch_mem_iterated {t : List α} {i j : Nat} (hi : i ≤ j) (hj : j ≤ t.length) :
    stretch t i j ∈ L * L∗ * R ↔
      ∃ m, i ≤ m ∧ m ≤ j ∧ stretch t i m ∈ L ∧
        (stretch t m j ∈ R ∨ i ≠ m ∧ stretch t m j ∈ L * L∗ * R) := by
  rw [mem_iterated]
  constructor
  · rintro ⟨a, b, hab, ha, hb⟩
    obtain ⟨hle, hfirst, hrest⟩ := of_stretch_eq_append hi hj hab.symm
    refine ⟨i + a.length, Nat.le_add_right _ _, hle, ?_, ?_⟩
    · rwa [hfirst]
    · rw [hrest]
      refine hb.imp_right fun ⟨hne, hb⟩ => ⟨fun h => hne ?_, hb⟩
      exact List.eq_nil_of_length_eq_zero (by omega)
  · rintro ⟨m, him, hmj, ha, hb⟩
    refine ⟨_, _, stretch_append him hmj, ha, hb.imp_right fun ⟨hne, hb⟩ => ⟨fun h => hne ?_, hb⟩⟩
    exact (stretch_eq_nil him (hmj.trans hj)).mp h

end

end MinC.Lib
