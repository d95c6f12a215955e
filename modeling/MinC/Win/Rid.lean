import MinC.Win.Sid
import Mathlib.Tactic.SplitIfs

/-!
Numbers of accounts.

An identifier has a number with the authority, the first and the last
subauthority side by side in decimal digits. There are six digits for the last,
two for the first and two for the authority, of which a number has no more than
twenty-one. An identifier that needs more digits has the number of another one.
-/

namespace MinC.Win

/-- The identifier of the machine, as Windows makes it: what is last was counted
without being written. -/
structure SID8.IsMachine (machine : SID8) : Prop where
  identifierAuthority : machine.identifierAuthority = #v[0, 0, 0, 0, 0, 5]
  subAuthority : ∃ a b c x, machine.subAuthority = [securityMachineDomainRid, a, b, c, x]

/-- Whom a number is made for: an account or a group of the machine, one of the
built-in domain, or somebody with a single subauthority. -/
inductive Principal
  | account (rid : UInt32)
  | builtin (rid : UInt32)
  | wellKnown (authority : UInt8) (subAuthority : UInt32)
  deriving DecidableEq

theorem length_single_le (a : UInt32) : [a].length ≤ 8 := by simp

theorem length_pair_le (a b : UInt32) : [a, b].length ≤ 8 := by simp

namespace Principal

def sid (machine : SID8) : Principal → SID8
  | account rid => machine.setRid rid
  | builtin rid => mkSid 5 [securityBuiltinDomain, rid] (length_pair_le _ _)
  | wellKnown authority subAuthority => mkSid authority [subAuthority] (length_single_le _)

/-- There are digits enough. -/
def Fits : Principal → Prop
  | account rid => rid < 1000000
  | builtin rid => rid < 1000000
  | wellKnown authority subAuthority => authority ≠ 0 ∧ authority ≤ 21 ∧
      subAuthority < 1000000 ∧ subAuthority ≠ securityMachineDomainRid

instance decidableFits : DecidablePred Fits
  | account rid => inferInstanceAs (Decidable (rid < 1000000))
  | builtin rid => inferInstanceAs (Decidable (rid < 1000000))
  | wellKnown authority subAuthority => inferInstanceAs (Decidable (authority ≠ 0 ∧
      authority ≤ 21 ∧ subAuthority < 1000000 ∧ subAuthority ≠ securityMachineDomainRid))

end Principal

section
variable {machine : SID8} (hmachine : machine.IsMachine)
include hmachine

theorem subAuthority_account (rid : UInt32) :
    ∃ a b c, (machine.setRid rid).subAuthority = [securityMachineDomainRid, a, b, c, rid] := by
  obtain ⟨a, b, c, x, hsub⟩ := hmachine.subAuthority
  refine ⟨a, b, c, ?_⟩
  rw [SID8.setRid]
  dsimp only
  rw [hsub]
  rfl

theorem equalPrefix_account (rid : UInt32) :
    equalPrefixSid (machine.setRid rid) machine = true := by
  obtain ⟨a, b, c, x, hsub⟩ := hmachine.subAuthority
  simp [equalPrefixSid, SID8.setRid, hsub]

theorem Principal.sid_injective {p q : Principal} (h : p.sid machine = q.sid machine) : p = q := by
  have hsub := congrArg SID8.subAuthority h
  have hauthority := congrArg SID8.identifierAuthority h
  cases p with
  | account rid =>
      obtain ⟨a, b, c, hrid⟩ := subAuthority_account hmachine rid
      rw [Principal.sid, hrid] at hsub
      cases q with
      | account rid' =>
          obtain ⟨a', b', c', hrid'⟩ := subAuthority_account hmachine rid'
          rw [Principal.sid, hrid'] at hsub
          simp only [List.cons.injEq, and_true] at hsub
          rw [hsub.2.2.2.2]
      | builtin rid' => simp [Principal.sid, mkSid] at hsub
      | wellKnown authority subAuthority => simp [Principal.sid, mkSid] at hsub
  | builtin rid =>
      cases q with
      | account rid' =>
          obtain ⟨a', b', c', hrid'⟩ := subAuthority_account hmachine rid'
          simp [Principal.sid, mkSid, hrid'] at hsub
      | builtin rid' =>
          simp only [Principal.sid, mkSid, List.cons.injEq, and_true, true_and] at hsub
          rw [hsub]
      | wellKnown authority subAuthority => simp [Principal.sid, mkSid] at hsub
  | wellKnown authority subAuthority =>
      cases q with
      | account rid' =>
          obtain ⟨a', b', c', hrid'⟩ := subAuthority_account hmachine rid'
          simp [Principal.sid, mkSid, hrid'] at hsub
      | builtin rid' => simp [Principal.sid, mkSid] at hsub
      | wellKnown authority' subAuthority' =>
          simp only [Principal.sid, mkSid, List.cons.injEq, and_true] at hsub
          simp only [Principal.sid, mkSid] at hauthority
          -- the authority is the last of the six bytes
          have hlast := congrArg (fun v : Vector UInt8 6 => v[5]) hauthority
          rw [hsub, show authority = authority' from hlast]

/-! ### There -/

theorem ridPosix_account (rid : UInt32) :
    ridPosix machine (machine.setRid rid) = 521000000 + rid := by
  obtain ⟨a, b, c, hsub⟩ := subAuthority_account hmachine rid
  have hauthority : (machine.setRid rid).identifierAuthority[5] = 5 := by
    show machine.identifierAuthority[5] = 5
    rw [hmachine.identifierAuthority]
    rfl
  unfold ridPosix
  rw [hsub, hauthority]
  dsimp only
  rw [if_pos rfl, if_pos (equalPrefix_account hmachine rid)]
  rfl

omit hmachine in
theorem ridPosix_builtin (rid : UInt32) :
    ridPosix machine (Principal.sid machine (.builtin rid)) = 532000000 + rid := by
  unfold ridPosix Principal.sid mkSid
  dsimp only
  rw [if_neg (by decide), if_neg (List.cons_ne_nil _ _), if_neg (by decide)]
  exact congrArg (· + rid) (by decide)

omit hmachine in
theorem ridPosix_wellKnown (authority : UInt8) {subAuthority : UInt32}
    (h : subAuthority ≠ securityMachineDomainRid) :
    ridPosix machine (Principal.sid machine (.wellKnown authority subAuthority)) =
      authority.toUInt32 * 100000000 + subAuthority := by
  unfold ridPosix Principal.sid mkSid
  dsimp only
  rw [if_neg h, if_pos rfl, UInt32.zero_mul, UInt32.add_zero]
  rfl

/-! ### Back -/

/-- The digits of a number that is not negative. -/
structure Digits (n : UInt32) (authority sub rid : Nat) : Prop where
  eq : n.toNat = authority * 100000000 + sub * 1000000 + rid
  authority_pos : 0 < authority
  sub_lt : sub < 100
  rid_lt : rid < 1000000
  positive : n.toNat < 0x80000000

omit hmachine in
theorem ridWin_of_digits {n : UInt32} {authority sub rid : Nat} (h : Digits n authority sub rid) :
    ridWin machine n =
      (if sub = 0 then mkSid (UInt8.ofNat authority) [n % 100000000] (length_single_le _)
      else if sub = 21 then machine.setRid (UInt32.ofNat rid)
      else if sub = 32 then
        mkSid 5 [securityBuiltinDomain, UInt32.ofNat rid] (length_pair_le _ _)
      else mkSid (UInt8.ofNat authority) [UInt32.ofNat sub, UInt32.ofNat rid]
        (length_pair_le _ _)) := by
  obtain ⟨heq, hpos, hsub, hrid, hsign⟩ := h
  have hauthority : (n / 100000000).toUInt8 = UInt8.ofNat authority := by
    rw [← UInt8.toNat_inj, UInt32.toNat_toUInt8, UInt32.toNat_div, UInt8.toNat_ofNat']
    simp only [UInt32.reduceToNat]
    omega
  have hmiddle : n / 1000000 % 100 = UInt32.ofNat sub := by
    rw [← UInt32.toNat_inj, UInt32.toNat_mod, UInt32.toNat_div, UInt32.toNat_ofNat']
    simp only [UInt32.reduceToNat]
    omega
  have hlast : n % 1000000 = UInt32.ofNat rid := by
    rw [← UInt32.toNat_inj, UInt32.toNat_mod, UInt32.toNat_ofNat']
    simp only [UInt32.reduceToNat]
    omega
  have hinstaller : n ≠ domainNtServiceRidInstaller := by
    rw [Ne, ← UInt32.toNat_inj]
    simp only [domainNtServiceRidInstaller, UInt32.reduceToNat]
    omega
  have hsomebody : ¬ (0x80000000 ≤ n ∨ UInt8.ofNat authority = 0) := by
    rw [UInt32.le_iff_toNat_le, ← UInt8.toNat_inj, UInt8.toNat_ofNat']
    simp only [UInt32.reduceToNat, UInt8.toNat_zero]
    omega
  -- two digits are told apart as words as they are as numbers
  have hof : ∀ k : Nat, k < 100 → (UInt32.ofNat sub = UInt32.ofNat k ↔ sub = k) := fun k hk => by
    rw [← UInt32.toNat_inj, UInt32.toNat_ofNat', UInt32.toNat_ofNat']
    omega
  unfold ridWin
  dsimp only
  rw [hauthority, hmiddle, hlast, if_neg hinstaller, if_neg hsomebody]
  simp only [show (0 : UInt32) = UInt32.ofNat 0 from rfl,
    show securityMachineDomainRid = UInt32.ofNat 21 from rfl,
    show securityBuiltinDomain = UInt32.ofNat 32 from rfl, hof 0 (by decide), hof 21 (by decide),
    hof 32 (by decide)]

omit hmachine in
/-- A number with no digits for an authority, or a negative one, is that of no one but the
installer. -/
theorem ridWin_of_none {n : UInt32}
    (h : 0x80000000 ≤ n.toNat ∨ n.toNat < 100000000) :
    ridWin machine n = sidTrustedInstaller ∨ ridWin machine n = machine.setRid 513 := by
  have hnobody : 0x80000000 ≤ n ∨ (n / 100000000).toUInt8 = 0 := by
    rw [UInt32.le_iff_toNat_le, ← UInt8.toNat_inj, UInt32.toNat_toUInt8, UInt32.toNat_div]
    simp only [UInt32.reduceToNat, UInt8.toNat_zero]
    omega
  unfold ridWin
  dsimp only
  split_ifs
  · exact .inl rfl
  · exact .inr rfl

omit hmachine in
theorem exists_digits {n : UInt32} (hsign : n.toNat < 0x80000000) (hpos : 100000000 ≤ n.toNat) :
    ∃ authority sub rid, authority ≤ 21 ∧ Digits n authority sub rid :=
  ⟨n.toNat / 100000000, n.toNat / 1000000 % 100, n.toNat % 1000000, by omega,
    by omega, by omega, by omega, by omega, hsign⟩

/-- The installer is none of those numbers are made for. -/
theorem sidTrustedInstaller_ne (p : Principal) : sidTrustedInstaller ≠ p.sid machine := by
  intro h
  have hlength := congrArg (fun sid => sid.subAuthority.length) h
  cases p with
  | account rid =>
      obtain ⟨a, b, c, hrid⟩ := subAuthority_account hmachine rid
      simp [sidTrustedInstaller, mkSid, Principal.sid, hrid] at hlength
  | builtin rid => simp [sidTrustedInstaller, mkSid, Principal.sid] at hlength
  | wellKnown authority subAuthority =>
      simp [sidTrustedInstaller, mkSid, Principal.sid] at hlength

/-- Two subauthorities, of which the first is not that of the built-in domain, are
nobody's. -/
theorem sid_ne_two {authority sub rid : Nat} (hsub : sub < 100) (hbuiltin : sub ≠ 32)
    (p : Principal) :
    mkSid (UInt8.ofNat authority) [UInt32.ofNat sub, UInt32.ofNat rid] (length_pair_le _ _) ≠
      p.sid machine := by
  intro h
  have hsubs := congrArg SID8.subAuthority h
  cases p with
  | account rid' =>
      obtain ⟨a, b, c, hrid'⟩ := subAuthority_account hmachine rid'
      simp [mkSid, Principal.sid, hrid'] at hsubs
  | builtin rid' =>
      simp only [mkSid, Principal.sid, List.cons.injEq, and_true] at hsubs
      have hfirst := congrArg UInt32.toNat hsubs.1
      rw [UInt32.toNat_ofNat'] at hfirst
      simp only [securityBuiltinDomain, UInt32.reduceToNat] at hfirst
      omega
  | wellKnown authority' subAuthority' => simp [mkSid, Principal.sid] at hsubs

/-- Whoever a number is for has digits enough. -/
theorem fits_of_ridWin {n : UInt32} {p : Principal} (h : ridWin machine n = p.sid machine)
    (hp : ∀ authority, p ≠ .wellKnown authority securityMachineDomainRid) : p.Fits := by
  -- a number without digits is the installer's or nobody's
  have hnone : ridWin machine n = sidTrustedInstaller ∨ ridWin machine n = machine.setRid 513 →
      p.Fits := by
    rintro (hinstaller | hnobody)
    · exact absurd (hinstaller.symm.trans h) (sidTrustedInstaller_ne hmachine p)
    · have heq : Principal.account 513 = p :=
        Principal.sid_injective hmachine (hnobody.symm.trans h)
      rw [← heq]
      decide
  by_cases hsign : n.toNat < 0x80000000
  · by_cases hpos : 100000000 ≤ n.toNat
    · obtain ⟨authority, sub, rid, hle, hdigits⟩ := exists_digits hsign hpos
      have hrid : UInt32.ofNat rid < 1000000 := by
        rw [UInt32.lt_iff_toNat_lt, UInt32.toNat_ofNat']
        simp only [UInt32.reduceToNat]
        have := hdigits.rid_lt
        omega
      rw [ridWin_of_digits hdigits] at h
      -- which kind it is can be seen from the two digits in the middle
      split_ifs at h with hzero hmach hbuiltin
      · have heq : Principal.wellKnown (UInt8.ofNat authority) (n % 100000000) = p :=
          Principal.sid_injective hmachine h
        have hlast : n % 100000000 < 1000000 := by
          rw [UInt32.lt_iff_toNat_lt, UInt32.toNat_mod]
          simp only [UInt32.reduceToNat]
          have := hdigits.eq
          have := hdigits.rid_lt
          omega
        have hauthority : UInt8.ofNat authority ≠ 0 ∧ UInt8.ofNat authority ≤ 21 := by
          rw [Ne, ← UInt8.toNat_inj, UInt8.le_iff_toNat_le, UInt8.toNat_ofNat']
          simp only [UInt8.reduceToNat]
          have := hdigits.authority_pos
          omega
        rw [← heq] at hp ⊢
        exact ⟨hauthority.1, hauthority.2, hlast, fun h21 => hp _ (by rw [h21])⟩
      · rw [← (Principal.sid_injective hmachine h :
          Principal.account (UInt32.ofNat rid) = p)]
        exact hrid
      · rw [← (Principal.sid_injective hmachine h :
          Principal.builtin (UInt32.ofNat rid) = p)]
        exact hrid
      · exact absurd h (sid_ne_two hmachine hdigits.sub_lt hbuiltin p)
    · exact hnone (ridWin_of_none (.inr (Nat.lt_of_not_le hpos)))
  · exact hnone (ridWin_of_none (.inl (Nat.le_of_not_lt hsign)))

/-! ### There and back -/

omit hmachine in
/-- The digits of a number that is put together from a base and a last part. -/
theorem digits_add {base rid : UInt32} {authority sub : Nat}
    (hbase : base.toNat = authority * 100000000 + sub * 1000000) (hauthority : 0 < authority)
    (hmost : authority ≤ 21) (hsub : sub < 47) (hrid : rid < 1000000) :
    Digits (base + rid) authority sub rid.toNat := by
  have hlast : rid.toNat < 1000000 := by simpa using UInt32.lt_iff_toNat_lt.mp hrid
  have heq : (base + rid).toNat = authority * 100000000 + sub * 1000000 + rid.toNat := by
    rw [UInt32.toNat_add, hbase]
    omega
  exact ⟨heq, hauthority, by omega, hlast, by omega⟩

theorem ridWin_ridPosix_account {rid : UInt32} (h : rid < 1000000) :
    ridWin machine (ridPosix machine (Principal.sid machine (.account rid))) =
      Principal.sid machine (.account rid) := by
  have hdigits : Digits (521000000 + rid) 5 21 rid.toNat :=
    digits_add rfl (by decide) (by decide) (by decide) h
  rw [Principal.sid, ridPosix_account hmachine, ridWin_of_digits hdigits, UInt32.ofNat_toNat]
  rfl

omit hmachine in
theorem ridWin_ridPosix_builtin {rid : UInt32} (h : rid < 1000000) :
    ridWin machine (ridPosix machine (Principal.sid machine (.builtin rid))) =
      Principal.sid machine (.builtin rid) := by
  have hdigits : Digits (532000000 + rid) 5 32 rid.toNat :=
    digits_add rfl (by decide) (by decide) (by decide) h
  rw [ridPosix_builtin, ridWin_of_digits hdigits, UInt32.ofNat_toNat]
  rfl

omit hmachine in
theorem ridWin_ridPosix_wellKnown {authority : UInt8} {subAuthority : UInt32}
    (h : (Principal.wellKnown authority subAuthority).Fits) :
    ridWin machine (ridPosix machine (Principal.sid machine (.wellKnown authority subAuthority))) =
      Principal.sid machine (.wellKnown authority subAuthority) := by
  obtain ⟨hzero, hle, hlast, h21⟩ := h
  have hpos : 0 < authority.toNat := by
    rw [Ne, ← UInt8.toNat_inj] at hzero
    exact Nat.pos_of_ne_zero hzero
  have hmax : authority.toNat ≤ 21 := by simpa using UInt8.le_iff_toNat_le.mp hle
  have hbase : (authority.toUInt32 * 100000000).toNat = authority.toNat * 100000000 + 0 * 1000000 := by
    rw [UInt32.toNat_mul, UInt8.toNat_toUInt32]
    simp only [UInt32.reduceToNat]
    omega
  have hdigits : Digits (authority.toUInt32 * 100000000 + subAuthority) authority.toNat 0
      subAuthority.toNat := digits_add hbase hpos hmax (by decide) hlast
  have hmod : (authority.toUInt32 * 100000000 + subAuthority) % 100000000 = subAuthority := by
    have hrid := hdigits.rid_lt
    rw [← UInt32.toNat_inj, UInt32.toNat_mod, hdigits.eq]
    simp only [UInt32.reduceToNat]
    omega
  rw [ridPosix_wellKnown authority h21, ridWin_of_digits hdigits, if_pos rfl, hmod,
    UInt8.ofNat_toNat]
  rfl

/-- Somebody whose subauthority is that of a machine, but who is no account of this
one. -/
theorem ridPosix_machineDomain (authority : UInt8) :
    ridPosix machine (Principal.sid machine (.wellKnown authority 21)) = 621000021 := by
  have hauthority : equalPrefixSid (Principal.sid machine (.wellKnown authority 21)) machine =
      false := by
    obtain ⟨a, b, c, x, hsub⟩ := hmachine.subAuthority
    simp [equalPrefixSid, Principal.sid, mkSid, hsub]
  unfold ridPosix
  rw [hauthority]
  unfold Principal.sid mkSid
  dsimp only
  rw [if_pos (by decide), if_neg Bool.false_ne_true]
  decide

/-- The number of somebody is theirs alone if there are digits enough. -/
theorem ridWin_ridPosix_iff (p : Principal) :
    ridWin machine (ridPosix machine (p.sid machine)) = p.sid machine ↔ p.Fits := by
  constructor
  · intro h
    refine fits_of_ridWin hmachine h ?_
    rintro authority rfl
    -- the number is that of an account
    have hdigits : Digits 621000021 6 21 21 := ⟨by decide, by decide, by decide, by decide, by decide⟩
    rw [show securityMachineDomainRid = 21 from rfl, ridPosix_machineDomain hmachine,
      ridWin_of_digits hdigits] at h
    have heq : Principal.account 21 = .wellKnown authority 21 := Principal.sid_injective hmachine h
    cases heq
  · intro hfits
    cases p with
    | account rid => exact ridWin_ridPosix_account hmachine hfits
    | builtin rid => exact ridWin_ridPosix_builtin hfits
    | wellKnown authority subAuthority => exact ridWin_ridPosix_wellKnown hfits

/-- Two of them have different numbers, and each the number that leads back to
them, if there are digits enough for both. -/
theorem ridPosix_injective_iff (p q : Principal) :
    ((p.sid machine ≠ q.sid machine →
        ridPosix machine (p.sid machine) ≠ ridPosix machine (q.sid machine)) ∧
      ridWin machine (ridPosix machine (p.sid machine)) = p.sid machine ∧
      ridWin machine (ridPosix machine (q.sid machine)) = q.sid machine) ↔
      p.Fits ∧ q.Fits := by
  rw [← ridWin_ridPosix_iff hmachine p, ← ridWin_ridPosix_iff hmachine q]
  refine ⟨fun h => h.2, fun h => ⟨fun hne heq => hne ?_, h⟩⟩
  rw [← h.1, ← h.2, heq]

end

def oneMachine : SID8 := mkSid 5 [21, 1, 2, 3, 0] (by simp)

theorem oneMachine_isMachine : oneMachine.IsMachine := ⟨rfl, 1, 2, 3, 0, rfl⟩

/-- The administrators and the first account of a machine have numbers of their own. -/
theorem ridPosix_injective_iff_first :
    (Principal.sid oneMachine (.account 1000) ≠ Principal.sid oneMachine (.builtin 544) →
      ridPosix oneMachine (Principal.sid oneMachine (.account 1000)) ≠
        ridPosix oneMachine (Principal.sid oneMachine (.builtin 544))) ∧
    ridWin oneMachine (ridPosix oneMachine (Principal.sid oneMachine (.account 1000))) =
      Principal.sid oneMachine (.account 1000) ∧
    ridWin oneMachine (ridPosix oneMachine (Principal.sid oneMachine (.builtin 544))) =
      Principal.sid oneMachine (.builtin 544) :=
  (ridPosix_injective_iff oneMachine_isMachine (.account 1000) (.builtin 544)).mpr (by decide)

/-- An account of the machine has the number of the administrators. -/
theorem account_is_admins :
    oneMachine.IsMachine ∧
      Principal.sid oneMachine (.account 11000544) ≠ Principal.sid oneMachine (.builtin 544) ∧
      ridPosix oneMachine (Principal.sid oneMachine (.account 11000544)) =
        ridPosix oneMachine (Principal.sid oneMachine (.builtin 544)) := by
  refine ⟨oneMachine_isMachine, by decide, ?_⟩
  rw [Principal.sid, ridPosix_account oneMachine_isMachine, ridPosix_builtin]
  decide

end MinC.Win
