import Mathlib.Data.List.TakeWhile
import Mathlib.Tactic.IntervalCases

/-!
Numbers as texts.

A number is read from the digits in front, behind blanks and a sign, and is
printed digit by digit. What is printed is read as the number that it was.
-/

namespace MinC.Lib

def isSpace (ch : UInt8) : Bool := (9 ≤ ch && ch ≤ 13) || ch == 32

def isDigit (ch : UInt8) : Bool := 48 ≤ ch && ch ≤ 57

def digits (s : List UInt8) : Nat :=
  (s.takeWhile isDigit).foldl (fun n ch => 10 * n + (ch.toNat - 48)) 0

/-- `atoi`, which stops at the largest number of its sign. -/
def atoi (s : List UInt8) : Int :=
  let n : Int := match s.dropWhile isSpace with
    | 45 :: s => -(digits s : Int)
    | 43 :: s => digits s
    | s => digits s
  max (-0x80000000) (min n 0x7FFFFFFF)

def decimalAux : Nat → Nat → List UInt8
  | 0, _ => []
  | fuel + 1, n =>
      (if n < 10 then [] else decimalAux fuel (n / 10)) ++ [UInt8.ofNat (48 + n % 10)]

/-- A number of at most twenty digits, as `%d` prints it. -/
def decimal (n : Int) : List UInt8 :=
  if n < 0 then 45 :: decimalAux 20 n.natAbs else decimalAux 20 n.natAbs

/-! ### Texts of digits -/

/-- A text of digits, perhaps an empty one. -/
def Numeral (p : List UInt8) : Prop := ∀ ch ∈ p, isDigit ch = true

instance decidableNumeral (p : List UInt8) : Decidable (Numeral p) :=
  inferInstanceAs (Decidable (∀ ch ∈ p, isDigit ch = true))

theorem numeral_nil : Numeral [] := fun _ hch => absurd hch List.not_mem_nil

theorem numeral_none : ∀ q ∈ ([] : List (List UInt8)), Numeral q :=
  fun _ hq => absurd hq List.not_mem_nil

theorem numeral_single {p : List UInt8} (hp : Numeral p) : ∀ q ∈ [p], Numeral q := by
  intro q hq
  rw [List.mem_singleton.mp hq]
  exact hp

theorem numeral_cons {ch : UInt8} {p : List UInt8} (h : isDigit ch = true) (hp : Numeral p) :
    Numeral (ch :: p) :=
  List.forall_mem_cons.mpr ⟨h, hp⟩

theorem Numeral.lt {p : List UInt8} (hp : Numeral p) {ch : UInt8} (h : ch ∈ p) : ch < 128 := by
  have hdigit := hp ch h
  simp only [isDigit, Bool.and_eq_true, decide_eq_true_eq] at hdigit
  exact UInt8.lt_of_le_of_lt hdigit.2 (by decide)

theorem takeWhile_numeral {p : List UInt8} (hp : Numeral p) {ch : UInt8}
    (hch : isDigit ch = false) (rest : List UInt8) :
    (p ++ ch :: rest).takeWhile isDigit = p := by
  rw [List.takeWhile_append_of_pos hp,
    List.takeWhile_cons_of_neg (by rw [hch]; exact Bool.false_ne_true),
    List.append_nil]

theorem digits_append {p : List UInt8} (hp : Numeral p) {ch : UInt8} (hch : isDigit ch = false)
    (rest : List UInt8) : digits (p ++ ch :: rest) = digits p := by
  have htake : p.takeWhile isDigit = p := List.takeWhile_eq_self_iff.mpr hp
  rw [digits, takeWhile_numeral hp hch, digits, htake]

/-- A text that starts with a digit, or with a byte that is neither a blank nor
a sign, is read from its first byte on. -/
theorem atoi_eq {s : List UInt8} (hspace : s.head?.all (fun ch => !isSpace ch) = true)
    (hminus : s.head? ≠ some 45) (hplus : s.head? ≠ some 43) :
    atoi s = min (digits s : Int) 0x7FFFFFFF := by
  have hdrop : s.dropWhile isSpace = s := by
    cases s with
    | nil => rfl
    | cons ch s =>
        have hch : isSpace ch = false := by simpa using hspace
        rw [List.dropWhile_cons_of_neg (by rw [hch]; exact Bool.false_ne_true)]
  unfold atoi
  rw [hdrop]
  dsimp only
  split
  · exact absurd rfl hminus
  · exact absurd rfl hplus
  · omega

theorem digits_concat {p : List UInt8} (hp : Numeral p) {n : Nat} (hn : n < 10) :
    digits (p ++ [UInt8.ofNat (48 + n)]) = 10 * digits p + n := by
  have hdigit : isDigit (UInt8.ofNat (48 + n)) = true := by interval_cases n <;> rfl
  have hunit : (UInt8.ofNat (48 + n)).toNat - 48 = n := by interval_cases n <;> rfl
  have htake : (p ++ [UInt8.ofNat (48 + n)]).takeWhile isDigit = p ++ [UInt8.ofNat (48 + n)] := by
    refine List.takeWhile_eq_self_iff.mpr fun ch hch => ?_
    rcases List.mem_append.mp hch with hch | hch
    · exact hp ch hch
    · rw [List.mem_singleton.mp hch]
      exact hdigit
  have hself : p.takeWhile isDigit = p := List.takeWhile_eq_self_iff.mpr hp
  rw [digits, digits, htake, hself, List.foldl_append, List.foldl_cons, List.foldl_nil, hunit]

/-- A numeral says which number it is. -/
theorem decimalAux_spec (fuel n : Nat) (hn : n < 10 ^ fuel) :
    Numeral (decimalAux fuel n) ∧ digits (decimalAux fuel n) = n ∧
      (decimalAux fuel n).length ≤ fuel := by
  induction fuel generalizing n with
  | zero =>
      have hzero : n = 0 := by omega
      subst hzero
      exact ⟨fun ch hch => absurd hch List.not_mem_nil, rfl, Nat.le_refl 0⟩
  | succ fuel ih =>
      have hunit : n % 10 < 10 := Nat.mod_lt n (by decide)
      have hdigit : isDigit (UInt8.ofNat (48 + n % 10)) = true := by
        generalize n % 10 = unit at hunit
        interval_cases unit <;> rfl
      obtain ⟨hfront, hdigits, hlen⟩ : Numeral (if n < 10 then [] else decimalAux fuel (n / 10)) ∧
          digits (if n < 10 then [] else decimalAux fuel (n / 10)) = n / 10 ∧
          (if n < 10 then [] else decimalAux fuel (n / 10)).length ≤ fuel := by
        by_cases hsmall : n < 10
        · rw [if_pos hsmall, Nat.div_eq_of_lt hsmall]
          exact ⟨fun ch hch => absurd hch List.not_mem_nil, rfl, Nat.zero_le _⟩
        · rw [if_neg hsmall]
          exact ih (n / 10) (by rw [Nat.pow_succ] at hn; omega)
      rw [decimalAux]
      refine ⟨fun ch hch => ?_, ?_, ?_⟩
      · rcases List.mem_append.mp hch with hch | hch
        · exact hfront ch hch
        · rw [List.mem_singleton.mp hch]
          exact hdigit
      · rw [digits_concat hfront hunit, hdigits]
        omega
      · rw [List.length_append, List.length_singleton]
        omega

theorem decimal_natCast (n : Nat) : decimal n = decimalAux 20 n := by
  rw [decimal, if_neg (by omega), Int.natAbs_natCast]

end MinC.Lib
