import MinC.Vfs.Inheritance

/-!
Which descriptors survive.

What is asked of a new process is decided by the table of its parent, the handles
that are open there and the answers of Windows. Windows gives out no value that
is in use. A fork only adds handles, so that every slot can be judged by what the
parent has open. An execution also gives handles up, and a slot is judged by what
the slots before it leave. On a table that holds no value that Windows gives out
for another slot, nothing else makes a slot come out right.
-/

namespace MinC.Vfs

open MinC.Lib MinC.Win

/-! ### What Windows offers -/

section
variable (duplicating : Nat → DupAnswers) (nodes : Nat → WinVnode)

/-- A handle that Windows offers for a used slot. -/
def OffersAt (i x : Nat) : Prop := (nodes i).access ≠ 0 ∧ Offers (duplicating i) (nodes i) x

/-- Windows gives out no value that is in use in the process it is for. -/
structure FreshAnswers (t : Handles) (p : Proc) : Prop where
  fresh : ∀ i x, i < winOpenMax → OffersAt duplicating nodes i x → Fresh t p x
  apart : ∀ i j x, i < j → j < winOpenMax →
    OffersAt duplicating nodes i x → ¬ OffersAt duplicating nodes j x
  pair : ∀ i x, i < winOpenMax → Paired (nodes i) →
    (duplicating i).handle = .handle x → (duplicating i).event ≠ .handle x

/-- The handles of a process before the turn of a slot: those it had, and some that were
offered for slots before. -/
structure Before (t s : Handles) (p : Proc) (fd : Nat) : Prop where
  grows : Grows t s p
  offered : ∀ x, opened s p x ≠ none →
    opened t p x ≠ none ∨ ∃ i, i < fd ∧ OffersAt duplicating nodes i x

variable {duplicating nodes} {t s s' : Handles} {p : Proc} {fd : Nat}

theorem Before.start : Before duplicating nodes t t p fd :=
  ⟨Grows.refl t p, fun _ => .inl⟩

theorem Before.next (h : Before duplicating nodes t s p fd) (hgrows : Grows s s' p)
    (hoffered : ∀ x, opened s' p x ≠ none →
      opened s p x ≠ none ∨ OffersAt duplicating nodes fd x) :
    Before duplicating nodes t s' p (fd + 1) := by
  refine ⟨h.grows.trans hgrows, fun x hx => ?_⟩
  rcases hoffered x hx with hold | hnew
  · exact (h.offered x hold).imp id fun ⟨i, hi, hoff⟩ => ⟨i, by omega, hoff⟩
  · exact .inr ⟨fd, Nat.lt_succ_self fd, hnew⟩

/-- What is offered for a slot is not in use at its turn. -/
theorem Before.fresh (h : Before duplicating nodes t s p fd)
    (hanswers : FreshAnswers duplicating nodes t p) (hfd : fd < winOpenMax) {x : Nat}
    (hoff : OffersAt duplicating nodes fd x) : Fresh s p x := by
  have hx := hanswers.fresh fd x hfd hoff
  refine ⟨hx.ne_null, hx.ne_invalid, ?_⟩
  by_contra hused
  rcases h.offered x (by simpa [opened, hx.ne_null] using hused) with hopen | ⟨i, hi, hearlier⟩
  · exact hopen (by simp [opened, hx.ne_null, hx.unused])
  · exact hanswers.apart i fd x hi hfd hearlier hoff

/-- What was not offered is as it was. -/
theorem Before.same (h : Before duplicating nodes t s p fd) {x : Nat}
    (hnot : ∀ i, i < fd → ¬ OffersAt duplicating nodes i x) : opened s p x = opened t p x := by
  cases hx : opened t p x with
  | some e => exact h.grows.opened hx
  | none =>
      by_contra hopen
      rcases h.offered x hopen with hold | ⟨i, hi, hoff⟩
      · exact hold hx
      · exact hnot i hi hoff

/-- What is open or null is not offered. -/
theorem not_offered_of_fine (hanswers : FreshAnswers duplicating nodes t p) {x i : Nat}
    (hx : EventFine t p x) (hi : i < winOpenMax) : ¬ OffersAt duplicating nodes i x := by
  intro hoff
  have hfresh := hanswers.fresh i x hi hoff
  rcases hx with hnull | hopen
  · exact hfresh.ne_null hnull
  · exact hopen (by simp [opened, hfresh.ne_null, hfresh.unused])

theorem goes_at {target : Proc} {closeSource : Bool} {devices : UInt32 → WinDevice}
    {fileId : Nat} (hproc : closeSource = true → target ≠ .current)
    (h : Before duplicating nodes t s target fd)
    (hanswers : FreshAnswers duplicating nodes t target) (hfd : fd < winOpenMax)
    (hused : (nodes fd).access ≠ 0)
    (hdup : Duplicates s closeSource (duplicating fd) devices (nodes fd) fileId) :
    Goes s target closeSource (duplicating fd) devices (nodes fd) fileId :=
  goes_of_duplicates hproc (fun _ hx => h.fresh hanswers hfd ⟨hused, hx⟩)
    (fun hpaired x => hanswers.pair fd x hfd hpaired) hdup

end

/-! ### The conditions -/

section
variable (searches : Nat → Bool) (devices : UInt32 → WinDevice) (duplicating : Nat → DupAnswers)
  (closing : Nat → CloseAnswers) (nodes : Nat → WinVnode) (t : Handles)

/-- What a duplicate for a child is made of is what its slot gives access to. -/
structure ForkSource (fd : Nat) : Prop where
  object : (endOf t .current (dupSource devices (nodes fd) fd)).map .handle =
    openObject devices t .current fd (nodes fd)
  access : (nodes fd).fsType = .mailslot →
    winFGetfl t (dupSource devices (nodes fd) fd) = (nodes fd).access
  event : ∀ event, eventKept devices (nodes fd) = some event → EventFine t .current event

/-- A used slot of a parent that forks: it is open, with its object. It is duplicated from
what it gives access to, or if it cannot be duplicated, the event that is copied is open and
what it would be made of is not given out meanwhile. -/
structure ForkFine (fd : Nat) : Prop where
  isOpen : openObject devices t .current fd (nodes fd) ≠ none
  held : ObjectFine searches t .current (nodes fd)
  made : Duplicates t false (duplicating fd) devices (nodes fd) fd → ForkSource devices nodes t fd
  kept : ¬ Duplicates t false (duplicating fd) devices (nodes fd) fd →
    EventFine t .current (nodes fd).event ∧
      (EventFine t .current (dupSource devices (nodes fd) fd) ∨
        ∀ i, i < fd → ¬ OffersAt duplicating nodes i (dupSource devices (nodes fd) fd))

/-- A slot gives a handle up on the way to a new image. -/
def givesUp (i x : Nat) : Bool :=
  (nodes i).access ≠ 0 && x ≠ invalidHandle &&
    if (nodes i).closeExec then closesUp (closing i) (nodes i) x
    else !(nodes i).inherits && handsUp t (duplicating i) devices (nodes i) x

/-- What the slots before one leave open. -/
def leftOpen (fd : Nat) : Handles := fun p x =>
  if p = .current ∧ ∃ i, i < fd ∧ givesUp devices duplicating closing nodes t i x = true then none
  else t p x

/-- A slot is handed down from what it gives access to. -/
structure HandedFine (fd : Nat) : Prop where
  made : Duplicates (leftOpen devices duplicating closing nodes t fd) true (duplicating fd) devices
    (nodes fd) (nodes fd).fileId
  object : (endOf t .current (dupSource devices (nodes fd) (nodes fd).fileId)).map .handle =
    openObject devices t .current fd (nodes fd)
  access : (nodes fd).fsType = .mailslot → ∀ h, (duplicating fd).handle = .handle h →
    winFGetfl (surrender (leftOpen devices duplicating closing nodes t fd) true
      (dupSource devices (nodes fd) (nodes fd).fileId)) h = (nodes fd).access
  event : ∀ event, eventKept devices (nodes fd) = some event →
    EventFine (createProcess t) .created event
  held : ObjectFine searches (createProcess t) .created (nodes fd)

/-- A slot is not handed down, but Windows has passed on what it gives access to. -/
structure KeptFine (fd : Nat) : Prop where
  not : ¬ Duplicates (leftOpen devices duplicating closing nodes t fd) true (duplicating fd) devices
    (nodes fd) (nodes fd).fileId
  gives : GivesAccess searches devices (createProcess t) .created fd
    (openObject devices t .current fd (nodes fd)) (nodes fd).access (nodes fd)
  unbound : Paired (nodes fd) → (nodes fd).handle = invalidHandle

/-- A slot of a parent that executes. A free slot holds nothing. One that is to be closed can
be, or is cleared anyway. One that is left to Windows is passed on. The others are open, and
are handed down from what they give access to, or are good as they are. -/
def ExecFine (fd : Nat) : Prop :=
  if (nodes fd).access = 0 then NotStale searches (createProcess t) .created (nodes fd)
  else if (nodes fd).closeExec = true then
    (nodes fd).handle ≠ nullHandle ∧ (ClearedAnyway (nodes fd) ∨
      Closable (leftOpen devices duplicating closing nodes t fd) (closing fd) (nodes fd))
  else
    openObject devices t .current fd (nodes fd) ≠ none ∧
      if (nodes fd).inherits = true then
        GivesAccess searches devices (createProcess t) .created fd
          (openObject devices t .current fd (nodes fd)) (nodes fd).access (nodes fd)
      else HandedFine searches devices duplicating closing nodes t fd ∨
        KeptFine searches devices duplicating closing nodes t fd

/-- A value that a slot holds, itself or as a side of its device. -/
def HoldsValue (fd x : Nat) : Prop :=
  x = (nodes fd).handle ∨ x = (nodes fd).event ∨ x = (nodes fd).object ∨
    x = (devices (nodes fd).deviceId).side fd ∨
    x = (devices (nodes fd).deviceId).side (nodes fd).fileId ∨
    x = (devices (nodes fd).deviceId).event

/-- No value a slot holds is given out for another. -/
def NoReuse : Prop :=
  ∀ i fd x, i < winOpenMax → fd < winOpenMax → HoldsValue devices nodes fd x →
    ¬ OffersAt duplicating nodes i x

/-- What the slots of a pair say of inheritance is so. -/
def PairsFlagged : Prop :=
  ∀ fd, fd < winOpenMax → Paired (nodes fd) → (nodes fd).inherits ≠ true →
    (nodes fd).handle ≠ invalidHandle → opened (createProcess t) .created (nodes fd).handle = none

end

/-! ### Forking -/

section
variable {searches : Nat → Bool} {devices : UInt32 → WinDevice} {duplicating : Nat → DupAnswers}
  {closing : Nat → CloseAnswers} {nodes : Nat → WinVnode} {t : Handles} {s : Channels} {fd : Nat}

theorem Duplicates.mono {t t' : Handles} {closeSource : Bool} {os : DupAnswers} {node : WinVnode}
    {fileId : Nat} (hgrows : Grows t t' .current)
    (h : Duplicates t closeSource os devices node fileId) :
    Duplicates t' closeSource os devices node fileId :=
  ⟨h.kind, h.granted, opened_ne_none_mono hgrows h.source, fun hpaired =>
    ⟨(h.event hpaired).1, opened_ne_none_mono hgrows (h.event hpaired).2.1,
      (h.event hpaired).2.2⟩⟩

theorem Duplicates.of_opened {t t' : Handles} {closeSource : Bool} {os : DupAnswers}
    {node : WinVnode} {fileId : Nat} (h : Duplicates t closeSource os devices node fileId)
    (hsource : opened t .current (dupSource devices node fileId) ≠ none →
      opened t' .current (dupSource devices node fileId) ≠ none)
    (hevent : opened t .current node.event ≠ none → opened t' .current node.event ≠ none) :
    Duplicates t' closeSource os devices node fileId :=
  ⟨h.kind, h.granted, hsource h.source, fun hpaired =>
    ⟨(h.event hpaired).1, hevent (h.event hpaired).2.1, (h.event hpaired).2.2⟩⟩

theorem GivesAccess.of_opened {t t' : Handles} {p : Proc} {object : Option OpenObject}
    {access : UInt32} (h : GivesAccess searches devices t p fd object access (nodes fd))
    (hsame : ∀ x, HoldsValue devices nodes fd x → opened t p x = opened t' p x) :
    GivesAccess searches devices t' p fd object access (nodes fd) := by
  have hend : ∀ x, HoldsValue devices nodes fd x → endOf t' p x = endOf t p x := fun x hx => by
    rw [endOf, endOf, hsame x hx]
  have hhandle : HoldsValue devices nodes fd (nodes fd).handle := by simp [HoldsValue]
  have hevent : HoldsValue devices nodes fd (nodes fd).event := by simp [HoldsValue]
  have hobject : HoldsValue devices nodes fd (nodes fd).object := by simp [HoldsValue]
  have hside : HoldsValue devices nodes fd ((devices (nodes fd).deviceId).side fd) := by
    simp [HoldsValue]
  refine ⟨Eq.trans ?_ h.object, h.access, h.event.imp id fun ho => hsame _ hevent ▸ ho,
    h.held.of_opened fun ho => hsame _ hobject ▸ ho⟩
  simp only [openObject, hend _ hhandle, hend _ hside]

/-- A duplicate within the process has the access of its source. -/
theorem winFGetfl_duplicate {t : Handles} {source h : Nat} {inherit : Bool}
    {answer : HandleAnswer} (hdup : Duplicable t source .current false answer h) :
    winFGetfl (duplicateHandle t source .current inherit false answer).2 h =
      winFGetfl t source := by
  obtain ⟨entry, hentry, heq⟩ := hdup.eq inherit
  have hnew : opened ((surrender t false source).put .current h { entry with inherit := inherit })
      .current h = some { entry with inherit := inherit } := by
    simp [opened, hdup.fresh.ne_null]
  rw [heq]
  simp only [winFGetfl, hnew, hentry]

theorem winFGetfl_mono {t t' : Handles} (hgrows : Grows t t' .current) {x : Nat}
    (hx : opened t .current x ≠ none) : winFGetfl t' x = winFGetfl t x := by
  obtain ⟨e, he⟩ := Option.ne_none_iff_exists'.mp hx
  simp [winFGetfl, he, hgrows.opened he]

theorem dupChannel_before (h : Before duplicating nodes t s.handles .current fd) :
    Before duplicating nodes t (dupChannel devices duplicating nodes s fd).handles .current
      (fd + 1) := by
  refine h.next (dupChannel_grows fd) fun x hx => ?_
  by_cases hfree : (nodes fd).access = 0
  · rw [dupChannel_free hfree] at hx
    exact .inl hx
  · rw [dupChannel_used hfree] at hx
    exact (offered_of_dupByType (by simp) _ hx).imp id fun hoff => ⟨hfree, hoff⟩

theorem sweep_before (n : Nat) :
    Before duplicating nodes t
      (sweep (dupChannel devices duplicating nodes) (forked t) n).handles .current n :=
  sweep_invariant (fun n (s : Channels) => Before duplicating nodes t s.handles .current n)
    (fun _ _ => dupChannel_before) Before.start n

section
variable (hanswers : FreshAnswers duplicating nodes t .current) (hfd : fd < winOpenMax)
  (hbefore : Before duplicating nodes t s.handles .current fd)
include hanswers hfd hbefore

/-- A slot whose duplication would not go through at first is not duplicated at its turn. -/
theorem ForkFine.duplicates (hused : (nodes fd).access ≠ 0)
    (h : ForkFine searches devices duplicating nodes t fd)
    (hgoes : Goes s.handles .current false (duplicating fd) devices (nodes fd) fd) :
    Duplicates t false (duplicating fd) devices (nodes fd) fd := by
  by_contra hnot
  obtain ⟨hevent, hsource⟩ := h.kept hnot
  have hdup : Duplicates s.handles false (duplicating fd) devices (nodes fd) fd := by
    refine duplicates_of_goes (by simp) (fun _ hoff => ?_) hgoes
    exact not_offered_of_fine hanswers hevent hfd ⟨hused, .inl hoff⟩
  have hfine : ∀ x, EventFine t .current x → opened s.handles .current x = opened t .current x :=
    fun x hx => hbefore.same fun i hi => not_offered_of_fine hanswers hx (by omega)
  refine hnot (hdup.of_opened (fun hopen => ?_) fun hopen => hfine _ hevent ▸ hopen)
  rcases hsource with hsource | hsource
  · exact hfine _ hsource ▸ hopen
  · exact hbefore.same hsource ▸ hopen

theorem ForkFine.meets
    (h : (nodes fd).access ≠ 0 → ForkFine searches devices duplicating nodes t fd) :
    ForkMeets searches devices duplicating nodes t s fd := by
  intro hused
  have hfine := h hused
  have hmono := hbefore.grows
  refine ⟨hfine.isOpen, fun hgoes => ?_, fun hnot => ?_⟩
  · have hdup := hfine.duplicates hanswers hfd hbefore hused hgoes
    obtain ⟨hobject, haccess, hevent⟩ := hfine.made hdup
    refine ⟨?_, ?_, fun event hkept => .inl ((hevent event hkept).mono hmono),
      .inl (hfine.held.mono hmono)⟩
    · rw [hmono.endOf (by simpa [endOf] using hdup.source), hobject]
    · unfold accessClaimed
      cases hfs : (nodes fd).fsType <;> try rfl
      obtain ⟨h, hanswer⟩ := hdup.granted
      have hsource : opened s.handles .current (dupSource devices (nodes fd) fd) ≠ none :=
        opened_ne_none_mono hmono hdup.source
      have hcan : Duplicable s.handles (dupSource devices (nodes fd) fd) .current false
          (.handle h) h := duplicable_of_fresh (by simp) hsource rfl
            (hbefore.fresh hanswers hfd ⟨hused, .inl hanswer⟩)
      have hclaimed := @winFGetfl_duplicate s.handles _ h true (.handle h) hcan
      rw [winFGetfl_mono hmono hdup.source, haccess hfs] at hclaimed
      simp only [hanswer]
      simpa only [dupSource, hfs] using hclaimed
  · have hnone : ¬ Duplicates t false (duplicating fd) devices (nodes fd) fd := fun hdup =>
      hnot (goes_at (by simp) hbefore hanswers hfd hused (hdup.mono hmono))
    have hhalf : Grows t (halfway s.handles .current false (duplicating fd) (nodes fd)) .current :=
      hmono.trans (grows_halfway _ _ (by simp))
    exact ⟨(hfine.kept hnone).1.mono hhalf, hfine.held.mono hhalf⟩

/-- Where no value is given out again, a slot whose turn leaves what is asked was fine. -/
theorem forkFine_of_meets (hused : (nodes fd).access ≠ 0)
    (hreuse : NoReuse devices duplicating nodes)
    (h : ForkMeets searches devices duplicating nodes t s fd) :
    ForkFine searches devices duplicating nodes t fd := by
  obtain ⟨hopen, hmade, hkept⟩ := h hused
  have hgrows := hbefore.grows
  have hsame : ∀ x, HoldsValue devices nodes fd x →
      opened s.handles .current x = opened t .current x := fun x hx =>
    hbefore.same fun i hi => hreuse i fd x (by omega) hfd hx
  have hhalf : ∀ x, HoldsValue devices nodes fd x →
      opened (halfway s.handles .current false (duplicating fd) (nodes fd)) .current x ≠ none →
      opened t .current x ≠ none := fun x hx hopened =>
    hsame x hx ▸ (offered_of_halfway (by simp) hopened).resolve_right fun hoff =>
      hreuse fd fd x hfd hfd hx ⟨hused, hoff⟩
  have hsource : HoldsValue devices nodes fd (dupSource devices (nodes fd) fd) := by
    unfold dupSource HoldsValue
    cases (nodes fd).fsType <;> simp
  have hdup : Goes s.handles .current false (duplicating fd) devices (nodes fd) fd ↔
      Duplicates t false (duplicating fd) devices (nodes fd) fd := by
    refine ⟨fun hgoes => ?_, fun hdup =>
      goes_at (by simp) hbefore hanswers hfd hused (hdup.mono hgrows)⟩
    have hat : Duplicates s.handles false (duplicating fd) devices (nodes fd) fd :=
      duplicates_of_goes (by simp) (fun _ hoff =>
        hreuse fd fd _ hfd hfd (by simp [HoldsValue]) ⟨hused, .inl hoff⟩) hgoes
    exact hat.of_opened (fun ho => hsame _ hsource ▸ ho)
      fun ho => hsame (nodes fd).event (by simp [HoldsValue]) ▸ ho
  have hobject : HoldsValue devices nodes fd (nodes fd).object := by simp [HoldsValue]
  refine ⟨hopen, ?_, fun hcan => ?_, fun hnot => ?_⟩
  · by_cases hgoes : Goes s.handles .current false (duplicating fd) devices (nodes fd) fd
    · rcases (hmade hgoes).held with hheld | ⟨-, hoff⟩
      · exact hheld.of_opened fun ho => hsame _ hobject ▸ ho
      · exact absurd ⟨hused, hoff⟩ (hreuse fd fd _ hfd hfd hobject)
    · exact (hkept hgoes).2.of_opened (hhalf _ hobject)
  · obtain ⟨hgood, haccess, hevent, -⟩ := hmade (hdup.mpr hcan)
    refine ⟨?_, fun hfs => ?_, fun event hev => ?_⟩
    · rwa [hgrows.endOf (by simpa [endOf] using hcan.source)] at hgood
    · obtain ⟨h, hanswer⟩ := hcan.granted
      have hduplicable : Duplicable s.handles (dupSource devices (nodes fd) fd) .current false
          (.handle h) h := duplicable_of_fresh (by simp)
            (opened_ne_none_mono hgrows hcan.source) rfl
            (hbefore.fresh hanswers hfd ⟨hused, .inl hanswer⟩)
      have hclaimed := @winFGetfl_duplicate s.handles _ h true (.handle h) hduplicable
      rw [winFGetfl_mono hgrows hcan.source] at hclaimed
      simp only [accessClaimed, hfs, hanswer] at haccess
      rw [← hclaimed]
      simpa only [dupSource, hfs] using haccess
    · have hholds : HoldsValue devices nodes fd event := by
        unfold eventKept at hev
        unfold HoldsValue
        cases hfs : (nodes fd).fsType <;> simp_all
      rcases hevent event hev with hfine | hoff
      · exact hfine.imp id fun ho => hsame _ hholds ▸ ho
      · exact absurd ⟨hused, .inl hoff⟩ (hreuse fd fd _ hfd hfd hholds)
  · refine ⟨(hkept (mt hdup.mp hnot)).1.imp id (hhalf _ (by simp [HoldsValue])),
      .inr fun i hi => ?_⟩
    exact hreuse i fd _ (by omega) hfd hsource

end

/-! ### Executing -/

theorem Duplicates.congr {t t' : Handles} {closeSource : Bool} {os : DupAnswers}
    {node : WinVnode} {fileId : Nat} (h : ∀ x, opened t .current x = opened t' .current x) :
    Duplicates t closeSource os devices node fileId ↔
      Duplicates t' closeSource os devices node fileId :=
  ⟨fun hdup => hdup.of_opened (fun ho => h _ ▸ ho) fun ho => h _ ▸ ho,
    fun hdup => hdup.of_opened (fun ho => (h _).symm ▸ ho) fun ho => (h _).symm ▸ ho⟩

theorem Closable.congr {t t' : Handles} {os : CloseAnswers} {node : WinVnode}
    (h : ∀ x, opened t .current x = opened t' .current x) :
    Closable t os node ↔ Closable t' os node := by
  simp only [Closable, Closes, h]

theorem opened_left_zero (x : Nat) :
    opened (leftOpen devices duplicating closing nodes t 0) .current x = opened t .current x := by
  simp [opened, leftOpen]

theorem opened_left_succ (x : Nat) :
    opened (leftOpen devices duplicating closing nodes t (fd + 1)) .current x =
      if givesUp devices duplicating closing nodes t fd x = true then none
      else opened (leftOpen devices duplicating closing nodes t fd) .current x := by
  have hsplit : (∃ i, i < fd + 1 ∧ givesUp devices duplicating closing nodes t i x = true) ↔
      (∃ i, i < fd ∧ givesUp devices duplicating closing nodes t i x = true) ∨
        givesUp devices duplicating closing nodes t fd x = true := by
    constructor
    · rintro ⟨i, hi, hgives⟩
      rcases Nat.lt_succ_iff_lt_or_eq.mp hi with hlt | rfl
      · exact .inl ⟨i, hlt, hgives⟩
      · exact .inr hgives
    · rintro (⟨i, hi, hgives⟩ | hgives)
      · exact ⟨i, by omega, hgives⟩
      · exact ⟨fd, by omega, hgives⟩
  unfold opened leftOpen
  by_cases hnull : x = nullHandle
  · rw [if_pos hnull, if_pos hnull, ite_self]
  rw [if_neg hnull, if_neg hnull]
  by_cases hnow : givesUp devices duplicating closing nodes t fd x = true
  · rw [if_pos ⟨rfl, hsplit.mpr (.inr hnow)⟩, if_pos hnow]
  · rw [if_neg hnow]
    refine if_congr (and_congr_right fun _ => ?_) rfl rfl
    rw [hsplit, or_iff_left hnow]

/-- The pseudo handle is never given up. -/
theorem opened_left_invalid (n : Nat) :
    opened (leftOpen devices duplicating closing nodes t n) .current invalidHandle =
      opened t .current invalidHandle := by
  simp [opened, leftOpen, givesUp]

theorem opened_of_left {n x : Nat}
    (hx : opened (leftOpen devices duplicating closing nodes t n) .current x ≠ none) :
    opened (leftOpen devices duplicating closing nodes t n) .current x = opened t .current x := by
  unfold opened leftOpen at hx ⊢
  split_ifs at hx ⊢ <;> first | rfl | exact absurd rfl hx

/-- The state before the turn of a slot, if the slots before were fine. -/
structure ExecBefore (devices : UInt32 → WinDevice) (duplicating : Nat → DupAnswers)
    (closing : Nat → CloseAnswers) (nodes : Nat → WinVnode) (t : Handles) (s : Channels)
    (fd : Nat) : Prop where
  created : Before duplicating nodes (createProcess t) s.handles .created fd
  current : ∀ x, opened s.handles .current x =
    opened (leftOpen devices duplicating closing nodes t fd) .current x
  node : ∀ i, fd ≤ i → s.node i = nodes i

theorem ExecBefore.start :
    ExecBefore devices duplicating closing nodes t (executed nodes t) 0 :=
  ⟨Before.start, fun x => by rw [opened_left_zero]; simp [executed, createProcess, opened],
    fun _ _ => rfl⟩

section
variable (hanswers : FreshAnswers duplicating nodes (createProcess t) .created)
  (hfd : fd < winOpenMax) (hbefore : ExecBefore devices duplicating closing nodes t s fd)
include hanswers hfd hbefore

theorem ExecBefore.opened_next
    (hfine : ExecFine searches devices duplicating closing nodes t fd) (x : Nat) :
    opened (inheritChannel devices duplicating closing s fd).handles .current x =
      if givesUp devices duplicating closing nodes t fd x = true then none
      else opened s.handles .current x := by
  have hslot := hbefore.node fd (Nat.le_refl fd)
  unfold ExecFine at hfine
  by_cases hfree : (nodes fd).access = 0
  · rw [inheritChannel_leaves (.inl (hslot ▸ hfree))]
    simp [givesUp, hfree]
  rw [if_neg hfree] at hfine
  have hused : (s.node fd).access ≠ 0 := hslot ▸ hfree
  by_cases hexec : (nodes fd).closeExec = true
  · rw [if_pos hexec, ← Closable.congr hbefore.current] at hfine
    rw [inheritChannel_closes hused (hslot ▸ hexec), hslot]
    refine (opened_vfsClose hfine.1 hfine.2 x).trans (if_congr ?_ rfl rfl)
    simp [givesUp, hfree, hexec, and_comm]
  rw [if_neg hexec] at hfine
  by_cases hinherits : (nodes fd).inherits = true
  · rw [inheritChannel_leaves (.inr ⟨hslot ▸ hexec, hslot ▸ hinherits⟩)]
    simp [givesUp, hexec, hinherits]
  rw [if_neg hinherits] at hfine
  have hoffered : ∀ h, (duplicating fd).handle = .handle h → Fresh s.handles .created h :=
    fun h hanswer => hbefore.created.fresh hanswers hfd ⟨hfree, .inl hanswer⟩
  have hfirst : Paired (nodes fd) → (nodes fd).handle ≠ invalidHandle →
      ∃ h, Duplicable s.handles (nodes fd).handle .created true (duplicating fd).handle h := by
    intro hpaired hinvalid
    rcases hfine.2 with hhanded | hkept
    · have hdup := (Duplicates.congr hbefore.current).mpr hhanded.made
      obtain ⟨h, hanswer⟩ := hdup.granted
      have hsource : dupSource devices (nodes fd) (nodes fd).fileId = (nodes fd).handle := by
        rcases hpaired with hfs | hfs <;> simp [dupSource, hfs]
      exact ⟨h, duplicable_of_fresh (by simp) (hsource ▸ hdup.source) hanswer
        (hoffered h hanswer)⟩
    · exact absurd (hkept.unbound hpaired) hinvalid
  have hhands : handsUp s.handles (duplicating fd) devices (nodes fd) x =
      handsUp t (duplicating fd) devices (nodes fd) x := by
    unfold handsUp
    rw [hbefore.current, opened_left_invalid]
  rw [inheritChannel_hands hused (hslot ▸ hexec) (hslot ▸ hinherits), hslot]
  refine (opened_handed hfirst hoffered x).trans (if_congr ?_ rfl rfl)
  rw [hhands]
  simp [givesUp, hfree, hexec, hinherits, and_comm]

theorem ExecBefore.next (hfine : ExecFine searches devices duplicating closing nodes t fd) :
    ExecBefore devices duplicating closing nodes t
      (inheritChannel devices duplicating closing s fd) (fd + 1) := by
  have hslot := hbefore.node fd (Nat.le_refl fd)
  refine ⟨hbefore.created.next (inheritChannel_grows fd) fun x hx => ?_, fun x => ?_,
    fun i hi => ?_⟩
  · by_cases hleaves : (s.node fd).access = 0 ∨
        ((s.node fd).closeExec ≠ true ∧ (s.node fd).inherits = true)
    · rw [inheritChannel_leaves hleaves] at hx
      exact .inl hx
    · rw [not_or, not_and] at hleaves
      obtain ⟨hused, hhands⟩ := hleaves
      by_cases hexec : (s.node fd).closeExec = true
      · rw [inheritChannel_closes hused hexec] at hx
        left
        simpa only [opened, vfsClose_other _ _ _ (show Proc.created ≠ .current by decide)] using hx
      · rw [inheritChannel_hands hused hexec (hhands hexec), hslot] at hx
        exact (offered_of_dupByType (fun _ => by decide) _ hx).imp id fun hoff =>
          ⟨hslot ▸ hused, hoff⟩
  · rw [hbefore.opened_next hanswers hfd hfine, opened_left_succ, hbefore.current]
  · rw [inheritChannel_other (by omega)]
    exact hbefore.node i (by omega)

/-- A duplication goes through at the turn of its slot exactly when it would with what the
slots before it leave. -/
theorem ExecBefore.goes_iff (hused : (nodes fd).access ≠ 0) :
    Goes s.handles .created true (duplicating fd) devices (nodes fd) (nodes fd).fileId ↔
      Duplicates (leftOpen devices duplicating closing nodes t fd) true (duplicating fd) devices
        (nodes fd) (nodes fd).fileId := by
  rw [← Duplicates.congr hbefore.current]
  exact ⟨duplicates_of_goes (by simp) (by simp),
    goes_at (by simp) hbefore.created hanswers hfd hused⟩

omit hanswers hfd in
theorem ExecBefore.source_opened
    (hdup : Duplicates (leftOpen devices duplicating closing nodes t fd) true (duplicating fd)
      devices (nodes fd) (nodes fd).fileId) :
    endOf s.handles .current (dupSource devices (nodes fd) (nodes fd).fileId) =
      endOf t .current (dupSource devices (nodes fd) (nodes fd).fileId) := by
  unfold endOf
  rw [hbefore.current, opened_of_left hdup.source]

omit hanswers hfd in
/-- The access that a mail slot asks the running process for. -/
theorem ExecBefore.access_claimed {h : Nat} (hfs : (nodes fd).fsType = .mailslot)
    (hanswer : (duplicating fd).handle = .handle h) :
    accessClaimed s.handles .created true (duplicating fd).handle devices (nodes fd)
        (nodes fd).fileId =
      winFGetfl (surrender (leftOpen devices duplicating closing nodes t fd) true
        (dupSource devices (nodes fd) (nodes fd).fileId)) h := by
  simp only [accessClaimed, hfs, hanswer, winFGetfl, opened_duplicateHandle_current,
    opened_surrender, hbefore.current, dupSource]

omit hfd hbefore in
/-- The states of a loop whose first slots are fine. -/
theorem exec_before {n : Nat}
    (hfine : ∀ i, i < n → ExecFine searches devices duplicating closing nodes t i)
    (hn : n ≤ winOpenMax) :
    ∀ fd, fd ≤ n → ExecBefore devices duplicating closing nodes t
      (sweep (inheritChannel devices duplicating closing) (executed nodes t) fd) fd := by
  intro fd
  induction fd with
  | zero => exact fun _ => ExecBefore.start
  | succ fd ih =>
      intro hfd
      exact (ih (by omega)).next hanswers (by omega) (hfine fd (by omega))

theorem ExecFine.meets (hfine : ExecFine searches devices duplicating closing nodes t fd) :
    ExecMeets searches devices duplicating closing nodes t s fd := by
  have hgrows := hbefore.created.grows
  unfold ExecFine at hfine
  unfold ExecMeets
  by_cases hfree : (nodes fd).access = 0
  · rw [if_pos hfree] at hfine ⊢
    exact hfine.mono hgrows
  rw [if_neg hfree] at hfine ⊢
  by_cases hexec : (nodes fd).closeExec = true
  · rw [if_pos hexec] at hfine ⊢
    rwa [Closable.congr hbefore.current]
  rw [if_neg hexec] at hfine ⊢
  refine ⟨hfine.1, ?_⟩
  have hopen := hfine.1
  by_cases hinherits : (nodes fd).inherits = true
  · rw [if_pos hinherits] at hfine ⊢
    exact hfine.2.mono hgrows hopen
  rw [if_neg hinherits] at hfine ⊢
  rw [hbefore.goes_iff hanswers hfd hfree]
  rcases hfine.2 with hhanded | hkept
  · refine ⟨fun hdup => ?_, fun hnot => absurd hhanded.made hnot⟩
    refine ⟨?_, ?_, fun event hevent => .inl ((hhanded.event event hevent).mono hgrows),
      .inl (hhanded.held.mono hgrows)⟩
    · rw [hbefore.source_opened hdup, hhanded.object]
    · by_cases hfs : (nodes fd).fsType = .mailslot
      · obtain ⟨h, hanswer⟩ := hdup.granted
        rw [hbefore.access_claimed hfs hanswer, hhanded.access hfs h hanswer]
      · unfold accessClaimed
        cases h : (nodes fd).fsType <;> first | rfl | exact absurd h hfs
  · refine ⟨fun hdup => absurd hdup hkept.not, fun _ => ?_⟩
    exact hkept.gives.mono (hgrows.trans (grows_halfway _ _ fun _ => by decide)) hopen

/-- Where no value is given out again, a slot whose turn leaves what is asked was fine. -/
theorem execFine_of_meets (hreuse : NoReuse devices duplicating nodes)
    (hflagged : PairsFlagged nodes t)
    (h : ExecMeets searches devices duplicating closing nodes t s fd) :
    ExecFine searches devices duplicating closing nodes t fd := by
  have hproc : true = true → Proc.created ≠ .current := fun _ => by decide
  have hsame : ∀ x, HoldsValue devices nodes fd x →
      opened s.handles .created x = opened (createProcess t) .created x :=
    fun x hx => hbefore.created.same fun i hi => hreuse i fd x (by omega) hfd hx
  have hhandle : HoldsValue devices nodes fd (nodes fd).handle := by simp [HoldsValue]
  have hevent : HoldsValue devices nodes fd (nodes fd).event := by simp [HoldsValue]
  have hobject : HoldsValue devices nodes fd (nodes fd).object := by simp [HoldsValue]
  unfold ExecMeets at h
  unfold ExecFine
  by_cases hfree : (nodes fd).access = 0
  · rw [if_pos hfree] at h ⊢
    exact ⟨h.handle.imp id (Or.imp id fun ho => hsame _ hhandle ▸ ho),
      h.event.imp id fun ho => hsame _ hevent ▸ ho, h.held.of_opened fun ho => hsame _ hobject ▸ ho⟩
  rw [if_neg hfree] at h ⊢
  by_cases hexec : (nodes fd).closeExec = true
  · rw [if_pos hexec] at h ⊢
    rwa [← Closable.congr hbefore.current]
  rw [if_neg hexec] at h ⊢
  obtain ⟨hopen, h⟩ := h
  refine ⟨hopen, ?_⟩
  by_cases hinherits : (nodes fd).inherits = true
  · rw [if_pos hinherits] at h ⊢
    exact h.of_opened hsame
  rw [if_neg hinherits] at h ⊢
  rw [hbefore.goes_iff hanswers hfd hfree] at h
  by_cases hdup : Duplicates (leftOpen devices duplicating closing nodes t fd) true (duplicating fd)
      devices (nodes fd) (nodes fd).fileId
  · left
    obtain ⟨hgood, haccess, hev, hheld⟩ := h.1 hdup
    refine ⟨hdup, ?_, fun hfs x hanswer => ?_, fun event hkept => ?_, ?_⟩
    · rwa [hbefore.source_opened hdup] at hgood
    · rwa [hbefore.access_claimed hfs hanswer] at haccess
    · have hholds : HoldsValue devices nodes fd event := by
        unfold eventKept at hkept
        unfold HoldsValue
        cases hfs : (nodes fd).fsType <;> simp_all
      rcases hev event hkept with hfine | hoff
      · exact hfine.imp id fun ho => hsame _ hholds ▸ ho
      · exact absurd ⟨hfree, .inl hoff⟩ (hreuse fd fd _ hfd hfd hholds)
    · rcases hheld with hheld | ⟨-, hoff⟩
      · exact hheld.of_opened fun ho => hsame _ hobject ▸ ho
      · exact absurd ⟨hfree, hoff⟩ (hreuse fd fd _ hfd hfd hobject)
  · right
    -- a handle that was made on the way is none of those the slot holds
    have hhalf : ∀ x, HoldsValue devices nodes fd x →
        opened (halfway s.handles .created true (duplicating fd) (nodes fd)) .created x =
          opened (createProcess t) .created x := by
      intro x hx
      have hnext : Before duplicating nodes (createProcess t)
          (halfway s.handles .created true (duplicating fd) (nodes fd)) .created (fd + 1) :=
        hbefore.created.next (grows_halfway _ _ hproc) fun y hy =>
          (offered_of_halfway hproc hy).imp id fun hoff => ⟨hfree, hoff⟩
      exact hnext.same fun i hi => hreuse i fd x (by omega) hfd hx
    have hgives := (h.2 hdup).of_opened hhalf
    refine ⟨hdup, hgives, fun hpaired => ?_⟩
    by_contra hinvalid
    have hnone := hflagged fd hfd hpaired hinherits hinvalid
    have hnot := hgives.object
    unfold openObject at hnot
    rw [if_neg hinvalid] at hnot
    refine hopen (hnot.symm.trans ?_)
    simp [endOf, hnone]

end

/-! ### New processes -/

/-- A child has what is asked in every slot if every used slot of its parent is fine, and a
new image if every slot is. Where no value is given out again, nothing else makes them have
it. -/
theorem descriptors_survive_iff (searches : Nat → Bool) (devices : UInt32 → WinDevice)
    (duplicating : Nat → DupAnswers) (closing : Nat → CloseAnswers) (nodes : Nat → WinVnode)
    (t : Handles) :
    (FreshAnswers duplicating nodes t .current →
      ((∀ fd, fd < winOpenMax → (nodes fd).access ≠ 0 →
          ForkFine searches devices duplicating nodes t fd) →
        ForkKeeps searches devices duplicating nodes t ∧ ∀ fd, fd < winOpenMax →
          ForkSlot searches devices nodes t (procDup devices duplicating nodes t) fd) ∧
      (NoReuse devices duplicating nodes → ForkKeeps searches devices duplicating nodes t →
        ∀ fd, fd < winOpenMax → (nodes fd).access ≠ 0 →
          ForkFine searches devices duplicating nodes t fd)) ∧
    (FreshAnswers duplicating nodes (createProcess t) .created →
      ((∀ fd, fd < winOpenMax → ExecFine searches devices duplicating closing nodes t fd) →
        ExecKeeps searches devices duplicating closing nodes t ∧ ∀ fd, fd < winOpenMax →
          ExecSlot searches devices nodes t (procExecve devices duplicating closing nodes t) fd) ∧
      (NoReuse devices duplicating nodes → PairsFlagged nodes t →
        ExecKeeps searches devices duplicating closing nodes t →
        ∀ fd, fd < winOpenMax → ExecFine searches devices duplicating closing nodes t fd)) := by
  refine ⟨fun hanswers => ⟨fun hfine => ?_, fun hreuse hkeeps fd hfd hused => ?_⟩,
    fun hanswers => ⟨fun hfine => ?_, fun hreuse hflagged hkeeps => ?_⟩⟩
  · have hkeeps : ForkKeeps searches devices duplicating nodes t := fork_iff.mpr fun fd hfd =>
      ForkFine.meets hanswers hfd (sweep_before fd) (hfine fd hfd)
    exact ⟨hkeeps, fun fd => hkeeps.procDup⟩
  · exact forkFine_of_meets hanswers hfd (sweep_before fd) hused hreuse
      (fork_iff.mp hkeeps fd hfd)
  · have hbefore := exec_before hanswers hfine (Nat.le_refl winOpenMax)
    have hkeeps : ExecKeeps searches devices duplicating closing nodes t := exec_iff.mpr
      fun fd hfd => (hfine fd hfd).meets hanswers hfd (hbefore fd (Nat.le_of_lt hfd))
    exact ⟨hkeeps, fun fd => hkeeps.procExecve⟩
  · -- the slots before a slot are fine, so that its state is known
    intro fd
    induction fd using Nat.strongRecOn with
    | ind fd ih =>
        intro hfd
        have hbefore := exec_before hanswers (fun i hi => ih i hi (by omega)) (Nat.le_of_lt hfd)
        exact execFine_of_meets hanswers hfd (hbefore fd (Nat.le_refl fd)) hreuse hflagged
          (exec_iff.mp hkeeps fd hfd)

end

section OneFile

def noSearches (_ : Nat) : Bool := false

def noDevice (_ : UInt32) : WinDevice := ⟨.vnon, 0, 0, .unknown, 0, 0, 0, 0, 0⟩

/-- A file in slot 0, under a handle that is not inheritable. -/
def oneFile (fd : Nat) : WinVnode :=
  if fd = 0 then
    { WinVnode.zero with
      fsType := .disk
      fileType := .vreg
      handle := 8
      access := 0x80000000 }
  else { WinVnode.zero with fileId := fd }

/-- A directory in slot 0 that is being read. -/
def readDirectory (fd : Nat) : WinVnode :=
  if fd = 0 then { oneFile 0 with fileType := .vdir, object := 16 } else oneFile fd

def oneFileHandles : Handles := fun p h =>
  if p = .current ∧ h = 8 then some ⟨⟨1, 0x80000000, by decide⟩, false⟩ else none

/-- `DuplicateHandle` has no memory. -/
def noMemory (_ : Nat) : DupAnswers :=
  ⟨.fail errorNotEnoughMemory, .fail errorNotEnoughMemory⟩

def givesTwelve (_ : Nat) : DupAnswers := ⟨.handle 12, .fail errorNotEnoughMemory⟩

def closesAll (_ : Nat) : CloseAnswers := ⟨.ok, .ok, .ok, .ok, .ok⟩

theorem oneFile_offers {i x : Nat} (h : OffersAt givesTwelve oneFile i x) : i = 0 ∧ x = 12 := by
  obtain ⟨hused, hhandle | ⟨-, hevent⟩⟩ := h
  · refine ⟨?_, by simpa [givesTwelve, eq_comm] using hhandle⟩
    by_contra hi
    exact hused (by simp [oneFile, hi, WinVnode.zero])
  · simp [givesTwelve] at hevent

theorem oneFile_answers {p : Proc} {t : Handles} (ht : t p 12 = none) :
    FreshAnswers givesTwelve oneFile t p := by
  refine ⟨fun i x _ hoff => ?_, fun i j x hij _ hi hj => ?_, fun i x _ _ _ hevent => ?_⟩
  · obtain ⟨-, rfl⟩ := oneFile_offers hoff
    exact ⟨by decide, by decide, ht⟩
  · have := (oneFile_offers hi).1
    have := (oneFile_offers hj).1
    omega
  · simp [givesTwelve] at hevent

/-- The file is in a child and in a new image, where the duplication goes through. -/
theorem descriptors_survive_iff_oneFile :
    ForkKeeps noSearches noDevice givesTwelve oneFile oneFileHandles ∧
      ExecKeeps noSearches noDevice givesTwelve closesAll oneFile oneFileHandles := by
  have hsurvive := descriptors_survive_iff noSearches noDevice givesTwelve closesAll oneFile
    oneFileHandles
  refine ⟨((hsurvive.1 (oneFile_answers rfl)).1 fun fd _ hused => ?_).1,
    ((hsurvive.2 (oneFile_answers rfl)).1 fun fd _ => ?_).1⟩
  · obtain rfl : fd = 0 := by
      by_contra hi
      exact hused (by simp [oneFile, hi, WinVnode.zero])
    refine ⟨by decide, .inl rfl, fun _ => ⟨by decide, by decide, fun event hevent => ?_⟩,
      fun _ => ⟨.inl rfl, .inr fun i hi => absurd hi (Nat.not_lt_zero i)⟩⟩
    exact .inl (by simpa [eventKept, oneFile, WinVnode.zero, nullHandle] using hevent.symm)
  · by_cases hi : fd = 0
    · subst hi
      rw [ExecFine, if_neg (by decide), if_neg (by decide), if_neg (by decide)]
      refine ⟨by decide, .inl ⟨⟨.inr (.inr (.inr (.inl rfl))), ⟨12, rfl⟩, ?_, ?_⟩, by decide,
        fun hfs => absurd hfs (by decide), fun event hevent => ?_, .inl rfl⟩⟩
      · rw [show dupSource noDevice (oneFile 0) (oneFile 0).fileId = 8 from rfl, opened_left_zero]
        decide
      · rintro (h | h) <;> simp [oneFile] at h
      · exact .inl (by simpa [eventKept, oneFile, WinVnode.zero, nullHandle] using hevent.symm)
    · rw [ExecFine, if_pos (by simp [oneFile, hi, WinVnode.zero])]
      exact ⟨.inl (by simp [oneFile, hi, WinVnode.zero, nullHandle]),
        .inl (by simp [oneFile, hi, WinVnode.zero, nullHandle]),
        .inl (by simp [oneFile, hi, WinVnode.zero])⟩

/-- Where the slots after the first are free, it alone is handed down. -/
theorem procExecve_first {devices : UInt32 → WinDevice} {duplicating : Nat → DupAnswers}
    {nodes : Nat → WinVnode} {t : Handles} (hfree : ∀ fd, fd ≠ 0 → (nodes fd).access = 0) :
    procExecve devices duplicating closesAll nodes t =
      inheritChannel devices duplicating closesAll (executed nodes t) 0 := by
  let s1 : Channels := inheritChannel devices duplicating closesAll (executed nodes t) 0
  let I : Nat → Channels → Prop := fun j s => if j = 0 then s = executed nodes t else s = s1
  have hturn : ∀ j s, I j s → I (j + 1) (inheritChannel devices duplicating closesAll s j) := by
    intro j s hs
    by_cases hj : j = 0
    · subst hj
      simp only [I, if_true] at hs
      simp [I, s1, hs]
    · simp only [I, if_neg hj] at hs
      subst hs
      have hother : s1.node j = nodes j := inheritChannel_other hj
      simpa [I] using inheritChannel_leaves (.inl (hother ▸ hfree j hj))
  have hlast := sweep_invariant I hturn (show I 0 (executed nodes t) from rfl) winOpenMax
  simp only [I, if_neg (show winOpenMax ≠ 0 by decide)] at hlast
  exact hlast

/-- A file that cannot be handed down is lost: the new image has a used slot with a value
that is not open there. So is the search of a directory, whatever can be handed down. -/
theorem procExecve_leaves_stale :
    (¬ ∀ fd, fd < winOpenMax → ExecSlot noSearches noDevice oneFile oneFileHandles
      (procExecve noDevice noMemory closesAll oneFile oneFileHandles) fd) ∧
    ∀ searches, ¬ ∀ fd, fd < winOpenMax → ExecSlot searches noDevice readDirectory oneFileHandles
      (procExecve noDevice givesTwelve closesAll readDirectory oneFileHandles) fd := by
  refine ⟨fun hall => ?_, fun searches hall => ?_⟩
  · have hslot := hall 0 (by decide)
    rw [procExecve_first fun fd hfd => by simp [oneFile, hfd, WinVnode.zero]] at hslot
    rw [ExecSlot, if_neg (by decide)] at hslot
    exact absurd hslot.gives.object (by decide)
  · have hslot := hall 0 (by decide)
    rw [procExecve_first fun fd hfd => by
      simp [readDirectory, oneFile, hfd, WinVnode.zero]] at hslot
    rw [ExecSlot, if_neg (by decide)] at hslot
    rcases hslot.gives.held with h | h | h
    · exact absurd h (by decide)
    · exact absurd h (by decide)
    · rw [if_pos (by decide)] at h
      exact absurd h.1 (by decide)

end OneFile

end MinC.Vfs
