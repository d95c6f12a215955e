import MinC.Lib.Handles
import MinC.Win.Error

/-!
Handles of the running process and of one it has just created.

A handle gives access to one end of a kernel object. Windows chooses the
values of new handles; all that is relied on is that they are neither null nor
the invalid value and that nothing is open under them. A request therefore
carries the value it would be given, and a value that Windows would not choose
makes the call fail.
-/

namespace MinC.Win

open MinC.Lib

def nullHandle : Nat := 0

/-- `INVALID_HANDLE_VALUE`, also the pseudo handle of the process itself. -/
def invalidHandle : Nat := 0xFFFFFFFF

/-- The end of a kernel object a handle gives access to. Every handle grants
some access. -/
structure ObjectEnd where
  object : Nat
  access : UInt32
  granted : access ≠ 0
  deriving DecidableEq

structure HandleEntry where
  what : ObjectEnd
  inherit : Bool
  deriving DecidableEq

/-- The processes whose handles are in play. -/
inductive Proc
  | current
  | created
  deriving DecidableEq

abbrev Handles := HandleTables Proc HandleEntry

/-- What is open under a handle. -/
def opened (t : Handles) (p : Proc) (h : Nat) : Option HandleEntry :=
  if h = nullHandle then none else t p h

/-- The end a handle gives access to. -/
def endOf (t : Handles) (p : Proc) (h : Nat) : Option ObjectEnd := (opened t p h).map (·.what)

/-- Windows could choose the value for a new handle. -/
structure Fresh (t : Handles) (p : Proc) (h : Nat) : Prop where
  ne_null : h ≠ nullHandle
  ne_invalid : h ≠ invalidHandle
  unused : t p h = none

instance (t : Handles) (p : Proc) (h : Nat) : Decidable (Fresh t p h) :=
  decidable_of_iff (h ≠ nullHandle ∧ h ≠ invalidHandle ∧ (t p h).isNone = true)
    ⟨fun ⟨h0, hi, hu⟩ => ⟨h0, hi, by simpa using hu⟩, fun hf => ⟨hf.1, hf.2, by simp [hf.3]⟩⟩

/-- The answer to a request for a new handle. -/
inductive HandleAnswer
  | handle (h : Nat)
  | fail (error : UInt32)
  deriving DecidableEq

/-- The tables once a source has been given up, where that is asked for. The
pseudo handle stays. -/
def surrender (t : Handles) (closeSource : Bool) (source : Nat) : Handles :=
  if closeSource = true ∧ source ≠ invalidHandle then t.drop .current source else t

theorem surrender_keeps (t : Handles) {closeSource : Bool} (source : Nat) {p : Proc}
    (hp : closeSource = true → p ≠ .current) : surrender t closeSource source p = t p := by
  unfold surrender
  split
  · rename_i hclose
    exact HandleTables.drop_other t source (hp hclose.1)
  · rfl

/-- A refusal leaves a code that is reported as a failure. -/
def HandleAnswer.Reported : HandleAnswer → Prop
  | .handle _ => True
  | .fail e => errnoPosix e ≠ 0

/-- `DuplicateHandle` with the same access. The source is closed, where that
is asked for, whether or not the call succeeds. -/
def duplicateHandle (t : Handles) (source : Nat) (target : Proc) (inherit closeSource : Bool)
    (answer : HandleAnswer) : Except UInt32 Nat × Handles :=
  match opened t .current source with
  | none => (.error errorInvalidHandle, t)
  | some entry =>
      let t := surrender t closeSource source
      match answer with
      | .fail e => (.error e, t)
      | .handle h =>
          if Fresh t target h then (.ok h, t.put target h { entry with inherit := inherit })
          else (.error errorInvalidHandle, t)

/-- `CloseHandle`. Closing the pseudo handle does nothing. -/
def closeHandle (t : Handles) (h : Nat) (answer : Answer) : Except UInt32 Unit × Handles :=
  match answer with
  | .fail e => (.error e, t)
  | .ok =>
      if h = invalidHandle then (.ok (), t)
      else match opened t .current h with
      | none => (.error errorInvalidHandle, t)
      | some _ => (.ok (), t.drop .current h)

/-- `GrantedAccess`, or all ones for a handle that cannot be queried. -/
def winFGetfl (t : Handles) (h : Nat) : UInt32 :=
  match opened t .current h with
  | some entry => entry.what.access
  | none => 0xFFFFFFFF

/-- The handle flags, of which only `HANDLE_FLAG_INHERIT` is looked at. -/
def winFGetfd (t : Handles) (h : Nat) : UInt32 :=
  match opened t .current h with
  | some entry => if entry.inherit then 1 else 0
  | none => 0xFFFFFFFF

theorem winFGetfl_ne_zero (t : Handles) (h : Nat) : winFGetfl t h ≠ 0 := by
  unfold winFGetfl
  cases opened t .current h with
  | none => decide
  | some entry => exact entry.what.granted

/-! ### Duplicates -/

/-- A duplication goes through and gives a handle: the source is open and
Windows has the value for the new handle. -/
structure Duplicable (t : Handles) (source : Nat) (target : Proc) (closeSource : Bool)
    (answer : HandleAnswer) (h : Nat) : Prop where
  isOpen : opened t .current source ≠ none
  offered : answer = .handle h
  fresh : Fresh (surrender t closeSource source) target h

theorem Duplicable.eq {t : Handles} {source h : Nat} {target : Proc} {closeSource : Bool}
    {answer : HandleAnswer} (hdup : Duplicable t source target closeSource answer h)
    (inherit : Bool) :
    ∃ entry, opened t .current source = some entry ∧
      duplicateHandle t source target inherit closeSource answer =
        (.ok h, (surrender t closeSource source).put target h { entry with inherit := inherit }) := by
  obtain ⟨hopen, rfl, hfresh⟩ := hdup
  obtain ⟨entry, hentry⟩ := Option.ne_none_iff_exists'.mp hopen
  exact ⟨entry, hentry, by simp [duplicateHandle, hentry, hfresh]⟩

theorem duplicable_of_ok {t t' : Handles} {source h : Nat} {target : Proc}
    {inherit closeSource : Bool} {answer : HandleAnswer}
    (hdup : duplicateHandle t source target inherit closeSource answer = (.ok h, t')) :
    Duplicable t source target closeSource answer h := by
  have hfst := congrArg Prod.fst hdup
  unfold duplicateHandle at hfst
  cases hopen : opened t .current source with
  | none => simp [hopen] at hfst
  | some entry =>
      cases answer with
      | fail e => simp [hopen] at hfst
      | handle h' =>
          by_cases hfresh : Fresh (surrender t closeSource source) target h'
          · have heq : h' = h := by simpa [hopen, hfresh] using hfst
            subst heq
            exact ⟨by simp [hopen], rfl, hfresh⟩
          · simp [hopen, hfresh] at hfst

theorem duplicateHandle_error {t t' : Handles} {source : Nat} {target : Proc}
    {inherit closeSource : Bool} {answer : HandleAnswer} {e : UInt32} (hrep : answer.Reported)
    (hdup : duplicateHandle t source target inherit closeSource answer = (.error e, t')) :
    errnoPosix e ≠ 0 := by
  have hfst := congrArg Prod.fst hdup
  have hinvalid : errnoPosix errorInvalidHandle ≠ 0 := by decide
  unfold duplicateHandle at hfst
  cases hopen : opened t .current source with
  | none =>
      have he : errorInvalidHandle = e := by simpa [hopen] using hfst
      exact he ▸ hinvalid
  | some entry =>
      cases answer with
      | fail e' =>
          have he : e' = e := by simpa [hopen] using hfst
          exact he ▸ hrep
      | handle h =>
          by_cases hfresh : Fresh (surrender t closeSource source) target h
          · simp [hopen, hfresh] at hfst
          · have he : errorInvalidHandle = e := by simpa [hopen, hfresh] using hfst
            exact he ▸ hinvalid

/-- A new handle gives access to the end its source gave access to. -/
theorem duplicateHandle_ends {t t' : Handles} {source h : Nat} {target : Proc}
    {inherit closeSource : Bool} {answer : HandleAnswer}
    (hdup : duplicateHandle t source target inherit closeSource answer = (.ok h, t')) :
    endOf t' target h = endOf t .current source ∧ endOf t .current source ≠ none := by
  have hok := duplicable_of_ok hdup
  obtain ⟨entry, hentry, heq⟩ := hok.eq inherit
  have ht : t' = (surrender t closeSource source).put target h { entry with inherit := inherit } :=
    congrArg Prod.snd (hdup.symm.trans heq)
  subst ht
  have hsource : endOf t .current source = some entry.what := by simp [endOf, hentry]
  rw [hsource]
  exact ⟨by simp [endOf, opened, hok.fresh.ne_null], by simp⟩

/-! ### What stays open -/

/-- More is open in a process, and what was open is as it was. -/
def Grows (t t' : Handles) (p : Proc) : Prop := ∀ x e, t p x = some e → t' p x = some e

theorem Grows.refl (t : Handles) (p : Proc) : Grows t t p := fun _ _ h => h

theorem Grows.trans {t1 t2 t3 : Handles} {p : Proc} (h : Grows t1 t2 p) (h' : Grows t2 t3 p) :
    Grows t1 t3 p := fun x e hx => h' x e (h x e hx)

theorem Grows.opened {t t' : Handles} {p : Proc} (h : Grows t t' p) {x : Nat} {e : HandleEntry}
    (hopen : opened t p x = some e) : opened t' p x = some e := by
  unfold MinC.Win.opened at *
  split at hopen
  · simp at hopen
  · rename_i hnull
    rw [if_neg hnull]
    exact h x e hopen

theorem Grows.endOf {t t' : Handles} {p : Proc} (h : Grows t t' p) {x : Nat}
    (hopen : endOf t p x ≠ none) : endOf t' p x = endOf t p x := by
  unfold MinC.Win.endOf at *
  cases hx : MinC.Win.opened t p x with
  | none => simp [hx] at hopen
  | some e => rw [h.opened hx]

/-- Where no source is given up, a duplication only adds to the table of a
process. -/
theorem grows_duplicateHandle {t : Handles} {target p : Proc} {closeSource : Bool}
    (hp : closeSource = true → p ≠ .current) (source : Nat) (inherit : Bool)
    (answer : HandleAnswer) :
    Grows t (duplicateHandle t source target inherit closeSource answer).2 p := by
  have hsurrender : Grows t (surrender t closeSource source) p := by
    intro x e hx
    rw [surrender_keeps t source hp]
    exact hx
  unfold duplicateHandle
  cases opened t .current source with
  | none => exact Grows.refl t p
  | some entry =>
      cases answer with
      | fail e => exact hsurrender
      | handle h =>
          by_cases hfresh : Fresh (surrender t closeSource source) target h
          · simp only [hfresh, if_true]
            intro x e hx
            have hkept := hsurrender x e hx
            by_cases hpt : p = target
            · subst hpt
              exact HandleTables.put_keeps hfresh.unused hkept
            · rw [HandleTables.put_other _ h _ hpt]
              exact hkept
          · simp only [hfresh, if_false]
            exact hsurrender

/-! ### Closing -/

theorem closeHandle_ok {t t' : Handles} {h : Nat} {answer : Answer}
    (hclose : closeHandle t h answer = (.ok (), t')) :
    t' = t ∨ t' = t.drop .current h := by
  unfold closeHandle at hclose
  cases answer with
  | fail e => simp at hclose
  | ok =>
      by_cases hinvalid : h = invalidHandle
      · left
        simpa [hinvalid] using (congrArg Prod.snd hclose).symm
      · cases hopen : opened t .current h with
        | none => simp [hinvalid, hopen] at hclose
        | some e =>
            right
            simpa [hinvalid, hopen] using (congrArg Prod.snd hclose).symm

theorem closeHandle_kept {t t' : Handles} {h : Nat} {answer : Answer} {e : UInt32}
    (hclose : closeHandle t h answer = (.error e, t')) : t = t' := by
  unfold closeHandle at hclose
  split at hclose
  · exact (Prod.mk.inj hclose).2
  · split at hclose
    · simp at hclose
    · split at hclose
      · exact (Prod.mk.inj hclose).2
      · simp at hclose

theorem closeHandle_error {t t' : Handles} {h : Nat} {answer : Answer} {e : UInt32}
    (hrep : answer.Reported) (hclose : closeHandle t h answer = (.error e, t')) :
    errnoPosix e ≠ 0 := by
  unfold closeHandle at hclose
  cases answer with
  | fail e' =>
      have he : e' = e := by simpa using congrArg Prod.fst hclose
      exact he ▸ hrep
  | ok =>
      by_cases hinvalid : h = invalidHandle
      · simp [hinvalid] at hclose
      · cases hopen : opened t .current h with
        | none =>
            have he : errorInvalidHandle = e := by
              simpa [hinvalid, hopen] using congrArg Prod.fst hclose
            exact he ▸ (by decide : errnoPosix errorInvalidHandle ≠ 0)
        | some entry => simp [hinvalid, hopen] at hclose

/-- A handle is closed: Windows lets it, and it is open or the pseudo handle. -/
def Closes (t : Handles) (h : Nat) (answer : Answer) : Prop :=
  answer = .ok ∧ (h = invalidHandle ∨ opened t .current h ≠ none)

theorem closeHandle_of_closes {t : Handles} {h : Nat} {answer : Answer} (hc : Closes t h answer) :
    ∃ t', closeHandle t h answer = (.ok (), t') := by
  obtain ⟨rfl, hh⟩ := hc
  by_cases hinvalid : h = invalidHandle
  · exact ⟨t, by simp [closeHandle, hinvalid]⟩
  · obtain ⟨e, he⟩ := Option.ne_none_iff_exists'.mp (hh.resolve_left hinvalid)
    exact ⟨t.drop .current h, by simp [closeHandle, hinvalid, he]⟩

theorem closes_of_closeHandle {t t' : Handles} {h : Nat} {answer : Answer}
    (hclose : closeHandle t h answer = (.ok (), t')) : Closes t h answer := by
  unfold closeHandle at hclose
  cases answer with
  | fail e => simp at hclose
  | ok =>
      refine ⟨rfl, ?_⟩
      by_cases hinvalid : h = invalidHandle
      · exact .inl hinvalid
      · right
        intro hnone
        simp [hinvalid, hnone] at hclose

theorem closeHandle_dropped {t t' : Handles} {h : Nat} {answer : Answer}
    (hinvalid : h ≠ invalidHandle) (hclose : closeHandle t h answer = (.ok (), t')) :
    t' = t.drop .current h := by
  obtain ⟨rfl, hopen⟩ := closes_of_closeHandle hclose
  obtain ⟨e, he⟩ := Option.ne_none_iff_exists'.mp (hopen.resolve_left hinvalid)
  simpa [closeHandle, hinvalid, he] using (congrArg Prod.snd hclose).symm

/-- Closing one handle leaves what is behind another. -/
theorem endOf_closed {t t' : Handles} {h x : Nat} {answer : Answer}
    (hclose : closeHandle t h answer = (.ok (), t')) (hx : x ≠ h) (p : Proc) :
    endOf t' p x = endOf t p x := by
  rcases closeHandle_ok hclose with rfl | rfl
  · rfl
  · by_cases hp : p = .current
    · subst hp
      simp [endOf, opened, hx]
    · simp [endOf, opened, HandleTables.drop_other t h hp]

end MinC.Win
