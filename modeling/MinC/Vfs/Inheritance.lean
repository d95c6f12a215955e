import MinC.Vfs.Channels

/-!
What a new process has of the descriptors.

Windows gives out no handle that is open, so a duplication goes through if its
sources are open and Windows does not refuse it. A fork closes nothing, and what
was open before it is open at every turn. An execution gives handles up on its
way: those of the slots it closes, and those it hands down. So a slot is handed
down from what the slots before it have left, and what it keeps of its own values
is good in the new image only if Windows passed it on.
-/

namespace MinC.Vfs

open MinC.Lib MinC.Win

/-! ### Duplications that go through -/

/-- The file systems whose vnodes can be duplicated. -/
def Dispatched (node : WinVnode) : Prop :=
  node.fsType = .winsock ∨ node.fsType = .pipe ∨ node.fsType = .char ∨ node.fsType = .disk ∨
    node.fsType = .pdo ∨ node.fsType = .mailslot

/-- Windows has a handle to give. -/
def hasHandle : HandleAnswer → Bool
  | .handle _ => true
  | .fail _ => false

/-- The sources of a duplicate are open, and Windows does not refuse it. -/
structure Duplicates (t : Handles) (closeSource : Bool) (os : DupAnswers)
    (devices : UInt32 → WinDevice) (node : WinVnode) (fileId : Nat) : Prop where
  kind : Dispatched node
  granted : ∃ h, os.handle = .handle h
  source : opened t .current (dupSource devices node fileId) ≠ none
  event : Paired node → (∃ h, os.event = .handle h) ∧ opened t .current node.event ≠ none ∧
    (closeSource = true → node.event = node.handle → node.handle = invalidHandle)

theorem opened_surrender (t : Handles) (source x : Nat) :
    opened (surrender t true source) .current x =
      if x = source ∧ x ≠ invalidHandle then none else opened t .current x := by
  unfold surrender
  by_cases hinvalid : source = invalidHandle
  · subst hinvalid
    rw [if_neg (by simp), if_neg fun h => h.2 h.1]
  · rw [if_pos ⟨rfl, hinvalid⟩]
    by_cases hx : x = source
    · subst hx
      rw [if_pos ⟨rfl, hinvalid⟩]
      simp [opened]
    · rw [if_neg fun h => hx h.1]
      simp [opened, hx]

section
variable {t : Handles} {target : Proc} {closeSource : Bool} {os : DupAnswers}
  {devices : UInt32 → WinDevice} {node : WinVnode} {fileId : Nat}
  (hproc : closeSource = true → target ≠ .current)
include hproc

theorem duplicable_of_fresh {source h : Nat} {answer : HandleAnswer}
    (hopen : opened t .current source ≠ none) (hoffer : answer = .handle h)
    (hfresh : Fresh t target h) : Duplicable t source target closeSource answer h := by
  have hsame := surrender_keeps t source hproc
  exact ⟨hopen, hoffer, hfresh.ne_null, hfresh.ne_invalid, by rw [hsame]; exact hfresh.unused⟩

/-- What is open in the process once a first handle was duplicated. -/
theorem opened_after_first {source h : Nat} {inherit : Bool} {answer : HandleAnswer}
    (hdup : Duplicable t source target closeSource answer h) (x : Nat) :
    opened (duplicateHandle t source target inherit closeSource answer).2 .current x ≠ none ↔
      (opened t .current x ≠ none ∧ (closeSource = true → x = source → x = invalidHandle)) ∨
        target = .current ∧ x = h := by
  obtain ⟨entry, -, heq⟩ := hdup.eq inherit
  rw [heq]
  dsimp only
  by_cases htarget : target = .current
  · have hkeep : closeSource = false := by
      by_contra hclose
      exact hproc (by simpa using hclose) htarget
    subst hkeep htarget
    have hnull := hdup.fresh.ne_null
    by_cases hx : x = h
    · subst hx
      simp [opened, hnull, surrender]
    · simp [opened, hx, surrender]
  · have hother : ∀ e, opened ((surrender t closeSource source).put target h e) .current x =
        opened (surrender t closeSource source) .current x := fun e => by
      simp only [opened]
      rw [HandleTables.put_other _ h e (Ne.symm htarget)]
    rw [hother]
    cases closeSource with
    | false => simp [surrender, htarget]
    | true =>
        rw [opened_surrender]
        by_cases hgone : x = source ∧ x ≠ invalidHandle
        · rw [if_pos hgone]
          simp only [ne_eq, not_true_eq_false, htarget, false_and, or_false, false_iff, not_and,
            forall_true_left, Classical.not_imp]
          exact fun _ => hgone
        · rw [if_neg hgone]
          simp only [htarget, false_and, or_false, forall_true_left]
          exact (and_iff_left fun hx => by
            by_contra hne
            exact hgone ⟨hx, hne⟩).symm

theorem goes_of_duplicates (hfresh : ∀ x, Offers os node x → Fresh t target x)
    (hapart : Paired node → ∀ x, os.handle = .handle x → os.event ≠ .handle x)
    (h : Duplicates t closeSource os devices node fileId) :
    Goes t target closeSource os devices node fileId := by
  obtain ⟨hResult, hhandle⟩ := h.granted
  have hfirst := duplicable_of_fresh hproc h.source hhandle (hfresh hResult (.inl hhandle))
  have hpair : Paired node → dupSource devices node fileId = node.handle →
      PairDuplicable t target closeSource os node := by
    intro hpaired hsource
    rw [hsource] at hfirst
    obtain ⟨⟨hEvent, hevent⟩, hopen, hne⟩ := h.event hpaired
    refine ⟨⟨hResult, hfirst⟩, hEvent, duplicable_of_fresh hproc ?_ hevent ?_⟩
    · refine (opened_after_first hproc hfirst node.event).mpr (.inl ⟨hopen, fun hclose hsame => ?_⟩)
      rw [hsame]
      exact hne hclose hsame
    · have hoffered := hfresh hEvent (.inr ⟨hpaired, hevent⟩)
      obtain ⟨entry, -, heq⟩ := hfirst.eq node.inherits
      refine ⟨hoffered.ne_null, hoffered.ne_invalid, ?_⟩
      have hother : hEvent ≠ hResult := fun hsame => hapart hpaired hEvent (hsame ▸ hhandle) hevent
      rw [heq]
      dsimp only
      rw [HandleTables.put_of_ne _ _ _ hother, surrender_keeps t node.handle hproc]
      exact hoffered.unused
  have hkind := h.kind
  unfold Goes
  unfold dupSource at hfirst hpair
  cases hfs : node.fsType <;> simp only [hfs] at hfirst hpair ⊢
  case winsock => exact hpair (.inl hfs) trivial
  case pipe => exact hpair (.inr hfs) trivial
  case char => exact ⟨hResult, hfirst⟩
  case disk => exact ⟨hResult, hfirst⟩
  case pdo => exact ⟨hResult, hfirst⟩
  case mailslot => exact ⟨hResult, hfirst⟩
  all_goals simp [Dispatched, hfs] at hkind

theorem duplicates_of_goes (hevent : target = .current → os.handle ≠ .handle node.event)
    (h : Goes t target closeSource os devices node fileId) :
    Duplicates t closeSource os devices node fileId := by
  have hsingle : ∀ {source : Nat}, Dispatched node → ¬ Paired node →
      dupSource devices node fileId = source →
      (∃ h, Duplicable t source target closeSource os.handle h) →
      Duplicates t closeSource os devices node fileId := by
    rintro source hkind hnot rfl ⟨h, hdup⟩
    exact ⟨hkind, ⟨h, hdup.offered⟩, hdup.isOpen, fun hpaired => absurd hpaired hnot⟩
  have hpair : Paired node → Dispatched node → dupSource devices node fileId = node.handle →
      PairDuplicable t target closeSource os node →
      Duplicates t closeSource os devices node fileId := by
    rintro hpaired hkind hsource ⟨⟨h, hfirst⟩, hEvent, hsecond⟩
    refine ⟨hkind, ⟨h, hfirst.offered⟩, hsource ▸ hfirst.isOpen,
      fun _ => ⟨⟨hEvent, hsecond.offered⟩, ?_⟩⟩
    rcases (opened_after_first hproc hfirst node.event).mp hsecond.isOpen with
      ⟨hopen, hne⟩ | ⟨htarget, hsame⟩
    · exact ⟨hopen, fun hclose hsame => hsame ▸ hne hclose hsame⟩
    · exact absurd (hsame ▸ hfirst.offered) (hevent htarget)
  unfold Goes at h
  cases hfs : node.fsType <;> simp only [hfs] at h
  case winsock => exact hpair (.inl hfs) (by simp [Dispatched, hfs]) (by simp [dupSource, hfs]) h
  case pipe => exact hpair (.inr hfs) (by simp [Dispatched, hfs]) (by simp [dupSource, hfs]) h
  all_goals
    exact hsingle (by simp [Dispatched, hfs]) (by simp [Paired, hfs]) (by simp [dupSource, hfs]) h

/-! ### What is open afterwards -/

/-- However it ends, what a duplication opens in its target was offered. -/
theorem opened_duplicateHandle_target {source x : Nat} {inherit : Bool} {answer : HandleAnswer}
    (hx : opened (duplicateHandle t source target inherit closeSource answer).2 target x ≠ none) :
    opened t target x ≠ none ∨ answer = .handle x := by
  rcases hdup : duplicateHandle t source target inherit closeSource answer with ⟨e | h, t'⟩
  · rw [hdup] at hx
    left
    simpa only [opened, duplicateHandle_failed hproc hdup] using hx
  · rw [hdup] at hx
    exact (opened_after hproc hdup x).mp hx

theorem offered_of_halfway {x : Nat}
    (hx : opened (halfway t target closeSource os node) target x ≠ none) :
    opened t target x ≠ none ∨ Offers os node x := by
  unfold halfway at hx
  cases hfs : node.fsType <;> simp only [hfs] at hx
  case winsock => exact (opened_duplicateHandle_target hproc hx).imp id .inl
  case pipe => exact (opened_duplicateHandle_target hproc hx).imp id .inl
  all_goals exact .inl hx

theorem offered_of_dupByType (result : WinVnode) {x : Nat}
    (hx : opened (dupByType t target closeSource os devices node result).2.2 target x ≠ none) :
    opened t target x ≠ none ∨ Offers os node x := by
  by_cases hgoes : Goes t target closeSource os devices node result.fileId
  · obtain ⟨v, t', hdup⟩ : ∃ v t', dupByType t target closeSource os devices node result =
        (.ok (), v, t') := dupByType_ok_iff.mpr hgoes
    rw [hdup] at hx
    exact (opened_of_goes hproc hdup x).mp hx
  · obtain ⟨-, htable⟩ := dupByType_fails hproc result hgoes
    refine offered_of_halfway hproc ?_
    simpa only [opened, htable] using hx

end

section
variable {t : Handles} {devices : UInt32 → WinDevice} {node : WinVnode}

theorem opened_closeHandle (h : Nat) (answer : Answer) (x : Nat) :
    opened (closeHandle t h answer).2 .current x =
      if x = h ∧ x ≠ invalidHandle ∧ answer = .ok then none else opened t .current x := by
  unfold closeHandle
  cases answer with
  | fail e => simp
  | ok =>
      by_cases hinvalid : h = invalidHandle
      · rw [if_pos hinvalid, if_neg fun hx => hx.2.1 (hx.1.trans hinvalid)]
      · rw [if_neg hinvalid]
        by_cases hx : x = h
        · subst hx
          rw [if_pos ⟨rfl, hinvalid, rfl⟩]
          cases hopen : opened t .current x with
          | none => exact hopen
          | some entry => simp [opened]
        · rw [if_neg fun h => hx h.1]
          cases hopen : opened t .current h with
          | none => rfl
          | some entry => simp [opened, hx]

/-- Handing a handle down gives it up, if it was open. -/
theorem opened_duplicateHandle_current (source : Nat) (inherit : Bool) (answer : HandleAnswer)
    (x : Nat) :
    opened (duplicateHandle t source .created inherit true answer).2 .current x =
      if x = source ∧ x ≠ invalidHandle then none else opened t .current x := by
  unfold duplicateHandle
  cases hopen : opened t .current source with
  | none =>
      by_cases hx : x = source
      · subst hx
        simp [hopen]
      · rw [if_neg fun h => hx h.1]
  | some entry =>
      cases answer with
      | fail e => exact opened_surrender t source x
      | handle h =>
          by_cases hfresh : Fresh (surrender t true source) .created h
          · simp only [hfresh, if_true]
            refine Eq.trans ?_ (opened_surrender t source x)
            simp [opened]
          · simp only [hfresh, if_false]
            exact opened_surrender t source x

/-- A handle is given up when the slot of a vnode is closed. -/
def closesUp (os : CloseAnswers) (node : WinVnode) (x : Nat) : Bool :=
  match node.fsType with
  | .winsock => x = node.event || x = node.handle
  | _ => x = node.handle && os.closeHandle = .ok

theorem opened_vfsClose {os : CloseAnswers} (hnull : node.handle ≠ nullHandle)
    (hcan : ClearedAnyway node ∨ Closable t os node) (x : Nat) :
    opened (vfsClose t os node).2.2 .current x =
      if closesUp os node x = true ∧ x ≠ invalidHandle then none else opened t .current x := by
  have hrelease : ∀ (closed : Except UInt32 Unit × Handles) (kept : WinVnode),
      (release closed kept).2.2 = closed.2 := by
    rintro ⟨e | u, t1⟩ kept <;> rfl
  have hset : ∀ t1 : Handles, (setEvent t1 os.setEvent).2 = t1 := by
    intro t1
    unfold setEvent
    split <;> rfl
  -- most types close their handle, if they have one, and nothing else
  have hone : node.fsType ≠ .winsock →
      (if x = node.handle ∧ x ≠ invalidHandle ∧ os.closeHandle = .ok then none
        else opened t .current x) =
      if closesUp os node x = true ∧ x ≠ invalidHandle then none else opened t .current x := by
    intro hfs
    have hgives : closesUp os node x = (x = node.handle && os.closeHandle = .ok) := by
      unfold closesUp
      cases h : node.fsType <;> first | rfl | exact absurd h hfs
    simp only [hgives, Bool.and_eq_true, decide_eq_true_eq]
    exact if_congr ⟨fun h => ⟨⟨h.1, h.2.2⟩, h.2.1⟩, fun h => ⟨h.1.1, h.2, h.1.2⟩⟩ rfl rfl
  have hinvalidKeeps : node.handle = invalidHandle →
      (if x = node.handle ∧ x ≠ invalidHandle ∧ os.closeHandle = .ok then none
        else opened t .current x) = opened t .current x :=
    fun hinvalid => if_neg fun h => h.2.1 (h.1.trans hinvalid)
  have hfile : (fileClose t os node).2.2 = (closeHandle t node.handle os.closeHandle).2 :=
    hrelease _ _
  have hdisk : node.fsType ≠ .winsock → ¬ ClearedAnyway node →
      opened (diskClose t os node).2.2 .current x =
        if closesUp os node x = true ∧ x ≠ invalidHandle then none else opened t .current x := by
    intro hfs hkind
    have hcalls := (hcan.resolve_left hkind).resolve_left hnull
    have hfind : node.fileType = .vdir → node.object ≠ 0 → os.findClose = .ok := by
      simp only [ClearedAnyway, not_or] at hkind
      cases h : node.fsType <;> simp only [h] at hcalls
      case pipe => exact absurd h hkind.1
      case winsock => exact absurd h hfs
      case pdo => exact absurd h hkind.2
      all_goals exact hcalls.2
    have htable : (diskClose t os node).2.2 = (closeHandle t node.handle os.closeHandle).2 := by
      unfold diskClose dirClose
      split
      · rename_i hdir
        by_cases hobject : node.object = 0
        · rw [if_pos hobject, hfile]
        · rw [if_neg hobject, hfind hdir hobject, hfile]
      · exact hfile
    rw [htable, opened_closeHandle]
    exact hone hfs
  unfold vfsClose
  rw [if_neg hnull]
  cases hfs : node.fsType <;> dsimp only
  case pipe =>
    refine Eq.trans ?_ (hone (by simp [hfs]))
    unfold pipeClose
    by_cases hinvalid : node.handle = invalidHandle
    · rw [if_pos hinvalid, hinvalidKeeps hinvalid]
    · rw [if_neg hinvalid, ← opened_closeHandle]
      rcases closeHandle t node.handle os.closeHandle with ⟨e | u, t1⟩
      · rfl
      · simp only [hrelease, hset]
  case pdo =>
    refine Eq.trans ?_ (hone (by simp [hfs]))
    unfold pdoClose
    by_cases hinvalid : node.handle = invalidHandle
    · rw [if_pos hinvalid, hinvalidKeeps hinvalid]
    · rw [if_neg hinvalid, ← opened_closeHandle, hrelease]
  case winsock =>
    have hcalls := (hcan.resolve_left (by simp [ClearedAnyway, hfs])).resolve_left hnull
    simp only [hfs] at hcalls
    obtain ⟨⟨hevent, hopen⟩, ⟨hsocket, -⟩, -⟩ := hcalls
    have htable : (ws2Close t os node).2.2 =
        (closeHandle (closeHandle t node.event os.wsaCloseEvent).2 node.handle
          os.closesocket).2 := by
      obtain ⟨t1, ht1⟩ := closeHandle_of_closes ⟨hevent, hopen⟩
      unfold ws2Close
      rw [ht1]
      exact hrelease _ _
    rw [htable, opened_closeHandle, opened_closeHandle, hevent, hsocket]
    simp only [closesUp, hfs, Bool.or_eq_true, decide_eq_true_eq]
    by_cases hx : x = node.handle ∧ x ≠ invalidHandle
    · rw [if_pos ⟨hx.1, hx.2, trivial⟩, if_pos ⟨.inr hx.1, hx.2⟩]
    · rw [if_neg fun h => hx ⟨h.1, h.2.1⟩]
      exact if_congr ⟨fun h => ⟨.inl h.1, h.2.1⟩,
        fun h => ⟨h.1.resolve_right fun hh => hx ⟨hh, h.2⟩, h.2, trivial⟩⟩ rfl rfl
  all_goals exact hdisk (by simp [hfs]) (by simp [ClearedAnyway, hfs])

/-- A handle is given up when the slot of a vnode is handed down. The second handle of
a pair is not looked at when there is nothing under the first one. -/
def handsUp (t : Handles) (os : DupAnswers) (devices : UInt32 → WinDevice) (node : WinVnode)
    (x : Nat) : Bool :=
  let both := x = node.handle || x = node.event &&
    (node.handle ≠ invalidHandle || (opened t .current invalidHandle).isSome &&
      hasHandle os.handle)
  match node.fsType with
  | .winsock => both
  | .pipe => both
  | .char => x = node.handle
  | .disk => x = node.handle
  | .pdo => x = (devices node.deviceId).side node.fileId
  | .mailslot => x = (devices node.deviceId).side node.fileId
  | _ => false

theorem opened_handedPair {os : DupAnswers}
    (hfirst : node.handle ≠ invalidHandle →
      ∃ h, Duplicable t node.handle .created true os.handle h)
    (hfresh : ∀ h, os.handle = .handle h → Fresh t .created h) (x : Nat) :
    opened (pipeFDupfd t .created true os node node).2.2 .current x =
      if (x = node.handle ∨ x = node.event ∧ (node.handle ≠ invalidHandle ∨
        opened t .current invalidHandle ≠ none ∧ hasHandle os.handle = true)) ∧ x ≠ invalidHandle
      then none else opened t .current x := by
  have hmade : (∃ h, Duplicable t node.handle .created true os.handle h) ↔
      node.handle ≠ invalidHandle ∨
        opened t .current invalidHandle ≠ none ∧ hasHandle os.handle = true := by
    constructor
    · rintro ⟨h, hdup⟩
      by_cases hinvalid : node.handle = invalidHandle
      · exact .inr ⟨hinvalid ▸ hdup.isOpen, by rw [hdup.offered]; rfl⟩
      · exact .inl hinvalid
    · rintro (hinvalid | ⟨hopen, hgranted⟩)
      · exact hfirst hinvalid
      · by_cases hinvalid : node.handle = invalidHandle
        · cases hanswer : os.handle with
          | fail e => simp [hasHandle, hanswer] at hgranted
          | handle h =>
              rw [hinvalid]
              exact ⟨h, duplicable_of_fresh (by simp) hopen rfl (hfresh h hanswer)⟩
        · exact hfirst hinvalid
  unfold pipeFDupfd
  rcases hdup : duplicateHandle t node.handle .created node.inherits true os.handle with
    ⟨e | h, t1⟩
  · have hnot : ¬ ∃ h, Duplicable t node.handle .created true os.handle h := by
      rintro ⟨h, hcan⟩
      obtain ⟨entry, -, heq⟩ := hcan.eq node.inherits
      simp [heq] at hdup
    have htable := @opened_duplicateHandle_current t node.handle node.inherits os.handle x
    rw [hdup] at htable
    refine htable.trans (if_congr ?_ rfl rfl)
    exact and_congr_left fun _ => (or_iff_left fun h => hnot (hmade.mpr h.2)).symm
  · have hcan := hmade.mp ⟨h, duplicable_of_ok hdup⟩
    have htable := @opened_duplicateHandle_current t node.handle node.inherits os.handle x
    rw [hdup] at htable
    simp only [adopt_table]
    rw [opened_duplicateHandle_current, htable]
    simp only [hcan, and_true]
    grind

/-- What handing a slot down gives up. -/
theorem opened_handed {os : DupAnswers}
    (hfirst : Paired node → node.handle ≠ invalidHandle →
      ∃ h, Duplicable t node.handle .created true os.handle h)
    (hfresh : ∀ h, os.handle = .handle h → Fresh t .created h) (x : Nat) :
    opened (dupByType t .created true os devices node node).2.2 .current x =
      if handsUp t os devices node x = true ∧ x ≠ invalidHandle then none
      else opened t .current x := by
  have hpair : Paired node → opened (pipeFDupfd t .created true os node node).2.2 .current x = _ :=
    fun hpaired => opened_handedPair (hfirst hpaired) hfresh x
  have hdevice : ∀ own, opened (deviceFDupfd t .created true os (devices node.deviceId) node
      own).2.2 .current x =
      if x = (devices node.deviceId).side node.fileId ∧ x ≠ invalidHandle then none
      else opened t .current x := by
    intro own
    unfold deviceFDupfd
    by_cases hnull : (devices node.deviceId).side node.fileId = nullHandle
    · rw [if_pos hnull, hnull]
      by_cases hx : x = nullHandle
      · simp [hx, opened]
      · rw [if_neg fun h => hx h.1]
    · rw [if_neg hnull, adopt_table, opened_duplicateHandle_current]
  unfold dupByType handsUp
  cases hfs : node.fsType <;> dsimp only
  case winsock => simpa [Option.isSome_iff_ne_none] using hpair (.inl hfs)
  case pipe => simpa [Option.isSome_iff_ne_none] using hpair (.inr hfs)
  case char => simp [charFDupfd, adopt_table, opened_duplicateHandle_current]
  case disk => simp [diskFDupfd, adopt_table, opened_duplicateHandle_current]
  case pdo => simpa [pdoFDupfd] using hdevice _
  case mailslot => simpa [mailFDupfd] using hdevice _
  all_goals simp

end

end MinC.Vfs
