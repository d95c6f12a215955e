import MinC.Vfs.Node

/-!
What closing leaves.

A close that goes through leaves a cleared vnode with the number of its slot.
One that fails leaves either the vnode as it was or a cleared one: pipes and
pseudo devices are cleared in any case, and then nothing remembers the handle
that is still open.
-/

namespace MinC.Vfs

open MinC.Lib MinC.Win

section
variable {t t' : Handles} {os : CloseAnswers} {node node' : WinVnode} {e : UInt32}

/-- The answers of the closing calls are reported when they are failures. -/
structure CloseAnswers.Reported (os : CloseAnswers) : Prop where
  closeHandle : os.closeHandle.Reported
  setEvent : os.setEvent.Reported
  findClose : os.findClose.Reported
  wsaCloseEvent : os.wsaCloseEvent.Reported
  closesocket : os.closesocket.Reported

theorem release_ok {closed : Except UInt32 Unit × Handles} {kept : WinVnode}
    (h : release closed kept = (.ok (), node', t')) :
    node' = .zero ∧ closed = (.ok (), t') := by
  obtain ⟨e | u, t1⟩ := closed
  · simp [release] at h
  · simp only [release, Prod.mk.injEq, true_and] at h
    obtain ⟨rfl, rfl⟩ := h
    exact ⟨rfl, rfl⟩

theorem release_error {closed : Except UInt32 Unit × Handles} {kept : WinVnode}
    (h : release closed kept = (.error e, node', t')) :
    node' = kept ∧ closed = (.error e, t') := by
  obtain ⟨e1 | u, t1⟩ := closed
  · simp only [release, Prod.mk.injEq, Except.error.injEq] at h
    obtain ⟨rfl, rfl, rfl⟩ := h
    exact ⟨rfl, rfl⟩
  · simp [release] at h

/-! ### A close that goes through -/

/-- What a successful close does: the vnode is cleared, and of the handles only
those of the vnode are closed. -/
structure Closed (t t' : Handles) (node node' : WinVnode) : Prop where
  cleared : node' = .zero
  keeps : ∀ x p, x ≠ node.handle → (node.fsType = .winsock → x ≠ node.event) →
    endOf t' p x = endOf t p x

theorem fileClose_ok (h : fileClose t os node = (.ok (), node', t')) : Closed t t' node node' := by
  obtain ⟨rfl, hclose⟩ := release_ok h
  exact ⟨rfl, fun x p hx _ => endOf_closed hclose hx p⟩

theorem diskClose_ok (h : diskClose t os node = (.ok (), node', t')) : Closed t t' node node' := by
  unfold diskClose dirClose at h
  split at h
  · split at h
    · exact fileClose_ok h
    · split at h
      · simp at h
      · exact fileClose_ok h
  · exact fileClose_ok h

theorem pdoClose_ok (h : pdoClose t os node = (.ok (), node', t')) : Closed t t' node node' := by
  unfold pdoClose at h
  by_cases hinvalid : node.handle = invalidHandle
  · simp only [hinvalid, if_true, Prod.mk.injEq, true_and] at h
    obtain ⟨rfl, rfl⟩ := h
    exact ⟨rfl, fun _ _ _ _ => rfl⟩
  · rw [if_neg hinvalid] at h
    obtain ⟨rfl, hclose⟩ := release_ok h
    exact ⟨rfl, fun x p hx _ => endOf_closed hclose hx p⟩

theorem pipeClose_ok (h : pipeClose t os node = (.ok (), node', t')) : Closed t t' node node' := by
  unfold pipeClose at h
  by_cases hinvalid : node.handle = invalidHandle
  · simp only [hinvalid, if_true, Prod.mk.injEq, true_and] at h
    obtain ⟨rfl, rfl⟩ := h
    exact ⟨rfl, fun _ _ _ _ => rfl⟩
  · rw [if_neg hinvalid] at h
    rcases hclose : closeHandle t node.handle os.closeHandle with ⟨e1 | u, t1⟩
    · simp [hclose] at h
    · simp only [hclose] at h
      obtain ⟨rfl, hevent⟩ := release_ok h
      have ht : t1 = t' := by
        unfold setEvent at hevent
        cases hset : os.setEvent with
        | ok => simpa [hset] using hevent
        | fail e1 => simp [hset] at hevent
      subst ht
      exact ⟨rfl, fun x p hx _ => endOf_closed hclose hx p⟩

theorem ws2Close_ok (hfs : node.fsType = .winsock)
    (h : ws2Close t os node = (.ok (), node', t')) : Closed t t' node node' := by
  unfold ws2Close at h
  rcases hevent : closeHandle t node.event os.wsaCloseEvent with ⟨e1 | u, t1⟩
  · simp [hevent] at h
  · simp only [hevent] at h
    obtain ⟨rfl, hclose⟩ := release_ok h
    refine ⟨rfl, fun x p hx hxe => ?_⟩
    rw [endOf_closed hclose hx p, endOf_closed hevent (hxe hfs) p]

theorem vfsClose_ok (h : vfsClose t os node = (.ok (), node', t')) :
    (node.handle = nullHandle ∧ node' = node ∧ t' = t) ∨
      (node' = { WinVnode.zero with fileId := node.fileId } ∧
        ∀ x p, x ≠ node.handle → (node.fsType = .winsock → x ≠ node.event) →
          endOf t' p x = endOf t p x) := by
  unfold vfsClose at h
  by_cases hnull : node.handle = nullHandle
  · left
    simp only [hnull, if_true, Prod.mk.injEq, true_and] at h
    exact ⟨hnull, h.1.symm, h.2.symm⟩
  · right
    rw [if_neg hnull] at h
    have hclosed : ∀ closed : Except UInt32 Unit × WinVnode × Handles,
        (∀ v t1, closed = (.ok (), v, t1) → Closed t t1 node v) →
        (closed.1, { closed.2.1 with fileId := node.fileId }, closed.2.2) =
          ((.ok (), node', t') : Except UInt32 Unit × WinVnode × Handles) →
        node' = { WinVnode.zero with fileId := node.fileId } ∧
          ∀ x p, x ≠ node.handle → (node.fsType = .winsock → x ≠ node.event) →
            endOf t' p x = endOf t p x := by
      rintro ⟨r, v, t1⟩ hspec heq
      simp only [Prod.mk.injEq] at heq
      obtain ⟨rfl, rfl, rfl⟩ := heq
      obtain ⟨rfl, hkeeps⟩ := hspec v t1 rfl
      exact ⟨rfl, hkeeps⟩
    cases hfs : node.fsType <;> simp only [hfs] at h
    case pipe => exact hfs ▸ hclosed _ (fun _ _ => pipeClose_ok) h
    case winsock => exact hfs ▸ hclosed _ (fun _ _ => ws2Close_ok hfs) h
    case pdo => exact hfs ▸ hclosed _ (fun _ _ => pdoClose_ok) h
    all_goals exact hfs ▸ hclosed _ (fun _ _ => diskClose_ok) h

/-! ### A close that fails -/

/-- A vnode that is cleared also when it could not be closed. -/
def ClearedAnyway (node : WinVnode) : Prop := node.fsType = .pipe ∨ node.fsType = .pdo

/-- A vnode was not closed: it is as it was, and where the answers report their
failures, so does the error. -/
def Kept (os : CloseAnswers) (node node' : WinVnode) (e : UInt32) : Prop :=
  node' = node ∧ (os.Reported → errnoPosix e ≠ 0)

theorem fileClose_error (h : fileClose t os node = (.error e, node', t')) :
    Kept os node node' e := by
  obtain ⟨hsame, hclose⟩ := release_error h
  exact ⟨hsame, fun hrep => closeHandle_error hrep.closeHandle hclose⟩

theorem diskClose_error (h : diskClose t os node = (.error e, node', t')) :
    Kept os node node' e := by
  unfold diskClose dirClose at h
  split at h
  · split at h
    · exact fileClose_error h
    · split at h
      · rename_i e1 hfind
        simp only [Prod.mk.injEq, Except.error.injEq] at h
        obtain ⟨rfl, rfl, rfl⟩ := h
        refine ⟨rfl, fun hrep => ?_⟩
        have hreported := hrep.findClose
        rw [hfind] at hreported
        exact hreported
      · exact fileClose_error h
  · exact fileClose_error h

theorem ws2Close_error (h : ws2Close t os node = (.error e, node', t')) :
    Kept os node node' e := by
  unfold ws2Close at h
  rcases hevent : closeHandle t node.event os.wsaCloseEvent with ⟨e1 | u, t1⟩
  · simp only [hevent, Prod.mk.injEq, Except.error.injEq] at h
    obtain ⟨rfl, rfl, rfl⟩ := h
    exact ⟨rfl, fun hrep => closeHandle_error hrep.wsaCloseEvent hevent⟩
  · simp only [hevent] at h
    obtain ⟨hsame, hclose⟩ := release_error h
    exact ⟨hsame, fun hrep => closeHandle_error hrep.closesocket hclose⟩

/-- Apart from those that are cleared anyway, a vnode that could not be closed
is left as it was, and the failure is reported. -/
theorem vfsClose_error (hkind : ¬ ClearedAnyway node)
    (h : vfsClose t os node = (.error e, node', t')) : Kept os node node' e := by
  unfold vfsClose at h
  by_cases hnull : node.handle = nullHandle
  · simp [hnull] at h
  · rw [if_neg hnull] at h
    have hsame : ∀ closed : Except UInt32 Unit × WinVnode × Handles,
        (∀ v t1, closed = (.error e, v, t1) → Kept os node v e) →
        (closed.1, { closed.2.1 with fileId := node.fileId }, closed.2.2) =
          ((.error e, node', t') : Except UInt32 Unit × WinVnode × Handles) →
        Kept os node node' e := by
      rintro ⟨r, v, t1⟩ hspec heq
      simp only [Prod.mk.injEq] at heq
      obtain ⟨rfl, rfl, rfl⟩ := heq
      obtain ⟨rfl, he⟩ := hspec v t1 rfl
      exact ⟨rfl, he⟩
    cases hfs : node.fsType <;> simp only [hfs] at h
    case pipe => exact absurd (Or.inl hfs) hkind
    case pdo => exact absurd (Or.inr hfs) hkind
    case winsock => exact hsame _ (fun _ _ => ws2Close_error) h
    all_goals exact hsame _ (fun _ _ => diskClose_error) h

/-- Those that are cleared anyway are, whatever Windows answers. -/
theorem vfsClose_cleared (hkind : ClearedAnyway node) (hused : node.handle ≠ nullHandle) :
    (vfsClose t os node).2.1 = { WinVnode.zero with fileId := node.fileId } := by
  have hrelease : ∀ closed : Except UInt32 Unit × Handles,
      (release closed .zero).2.1 = .zero := by
    rintro ⟨e | u, t1⟩ <;> rfl
  have hpipe : (pipeClose t os node).2.1 = .zero := by
    unfold pipeClose
    split
    · rfl
    · split
      · rfl
      · exact hrelease _
  have hpdo : (pdoClose t os node).2.1 = .zero := by
    unfold pdoClose
    split
    · rfl
    · exact hrelease _
  unfold vfsClose
  rw [if_neg hused]
  rcases hkind with hfs | hfs
  · simp only [hfs, hpipe]
  · simp only [hfs, hpdo]

/-! ### What closing does to other processes -/

theorem closeHandle_other (t : Handles) (h : Nat) (answer : Answer) {p : Proc}
    (hp : p ≠ .current) : (closeHandle t h answer).2 p = t p := by
  rcases hclose : closeHandle t h answer with ⟨e | u, t'⟩
  · rw [← closeHandle_kept hclose]
  · rcases closeHandle_ok hclose with rfl | rfl
    · rfl
    · exact HandleTables.drop_other t h hp

/-- Closing concerns the running process alone. -/
theorem vfsClose_other (t : Handles) (os : CloseAnswers) (node : WinVnode) {p : Proc}
    (hp : p ≠ .current) : (vfsClose t os node).2.2 p = t p := by
  have hrelease : ∀ (closed : Except UInt32 Unit × Handles) (kept : WinVnode),
      (release closed kept).2.2 = closed.2 := by
    rintro ⟨e | u, t1⟩ kept <;> rfl
  have hset : ∀ t : Handles, (setEvent t os.setEvent).2 = t := by
    intro t
    unfold setEvent
    split <;> rfl
  -- every type closes handles of the current process alone
  have hfile : (fileClose t os node).2.2 p = t p := by
    rw [fileClose, hrelease]
    exact closeHandle_other t node.handle os.closeHandle hp
  have hdisk : (diskClose t os node).2.2 p = t p := by
    unfold diskClose dirClose
    split
    · split
      · exact hfile
      · split
        · rfl
        · exact hfile
    · exact hfile
  have hpipe : (pipeClose t os node).2.2 p = t p := by
    have hclose := closeHandle_other t node.handle os.closeHandle hp
    unfold pipeClose
    split
    · rfl
    · split
      · rename_i h
        rwa [h] at hclose
      · rename_i h
        rw [hrelease, hset]
        rwa [h] at hclose
  have hpdo : (pdoClose t os node).2.2 p = t p := by
    unfold pdoClose
    split
    · rfl
    · rw [hrelease]
      exact closeHandle_other t node.handle os.closeHandle hp
  have hws2 : (ws2Close t os node).2.2 p = t p := by
    have hclose := closeHandle_other t node.event os.wsaCloseEvent hp
    unfold ws2Close
    split
    · rename_i h
      rwa [h] at hclose
    · rename_i h
      rw [hrelease, closeHandle_other _ node.handle os.closesocket hp]
      rwa [h] at hclose
  unfold vfsClose
  split
  · rfl
  · cases node.fsType <;> simp only
    case pipe => exact hpipe
    case winsock => exact hws2
    case pdo => exact hpdo
    all_goals exact hdisk

/-! ### When a close goes through -/

/-- The calls that closing a vnode makes go through. -/
def Closable (t : Handles) (os : CloseAnswers) (node : WinVnode) : Prop :=
  node.handle = nullHandle ∨
    match node.fsType with
    | .pipe => node.handle = invalidHandle ∨
        (Closes t node.handle os.closeHandle ∧ os.setEvent = .ok)
    | .winsock => Closes t node.event os.wsaCloseEvent ∧ Closes t node.handle os.closesocket ∧
        (node.event = node.handle → node.handle = invalidHandle)
    | .pdo => node.handle = invalidHandle ∨ Closes t node.handle os.closeHandle
    | _ => Closes t node.handle os.closeHandle ∧
        (node.fileType = .vdir → node.object ≠ 0 → os.findClose = .ok)

/-- Closing stays possible when more handles are opened. -/
theorem Closable.mono {t1 : Handles} (hmore : Grows t t1 .current) (h : Closable t os node) :
    Closable t1 os node := by
  have hcloses : ∀ x a, Closes t x a → Closes t1 x a := by
    rintro x a ⟨ha, hx⟩
    refine ⟨ha, hx.imp id fun hopen => ?_⟩
    obtain ⟨e, he⟩ := Option.ne_none_iff_exists'.mp hopen
    simp [hmore.opened he]
  unfold Closable at h ⊢
  refine h.imp id fun hcalls => ?_
  cases hfs : node.fsType <;> simp only [hfs] at hcalls ⊢
  case pipe => exact hcalls.imp id fun h => ⟨hcloses _ _ h.1, h.2⟩
  case winsock => exact ⟨hcloses _ _ hcalls.1, hcloses _ _ hcalls.2.1, hcalls.2.2⟩
  case pdo => exact hcalls.imp id (hcloses _ _)
  all_goals exact ⟨hcloses _ _ hcalls.1, hcalls.2⟩

theorem diskClose_of_closes (hclose : Closes t node.handle os.closeHandle)
    (hfind : node.fileType = .vdir → node.object ≠ 0 → os.findClose = .ok) :
    ∃ v t', diskClose t os node = (.ok (), v, t') := by
  obtain ⟨t', ht⟩ := closeHandle_of_closes hclose
  have hfile : fileClose t os node = (.ok (), .zero, t') := by simp [fileClose, release, ht]
  refine ⟨.zero, t', ?_⟩
  unfold diskClose dirClose
  split
  · rename_i hdir
    by_cases hobject : node.object = 0
    · rw [if_pos hobject]
      exact hfile
    · rw [if_neg hobject, hfind hdir hobject]
      exact hfile
  · exact hfile

theorem vfsClose_of_closable (h : Closable t os node) :
    ∃ v t', vfsClose t os node = (.ok (), v, t') := by
  unfold vfsClose
  by_cases hnull : node.handle = nullHandle
  · exact ⟨node, t, by simp [hnull]⟩
  · rw [if_neg hnull]
    have hcalls := h.resolve_left hnull
    have hclosed : ∀ closed : Except UInt32 Unit × WinVnode × Handles,
        (∃ v t', closed = (.ok (), v, t')) →
        ∃ v t', (closed.1, { closed.2.1 with fileId := node.fileId }, closed.2.2) =
          ((.ok (), v, t') : Except UInt32 Unit × WinVnode × Handles) := by
      rintro closed ⟨v, t', rfl⟩
      exact ⟨_, _, rfl⟩
    cases hfs : node.fsType <;> simp only [hfs] at hcalls ⊢
    case pipe =>
      refine hclosed _ ?_
      unfold pipeClose
      by_cases hinvalid : node.handle = invalidHandle
      · exact ⟨.zero, t, by simp [hinvalid]⟩
      · obtain ⟨hclose, hset⟩ := hcalls.resolve_left hinvalid
        obtain ⟨t', ht⟩ := closeHandle_of_closes hclose
        exact ⟨.zero, t', by simp [hinvalid, ht, hset, setEvent, release]⟩
    case pdo =>
      refine hclosed _ ?_
      unfold pdoClose
      by_cases hinvalid : node.handle = invalidHandle
      · exact ⟨.zero, t, by simp [hinvalid]⟩
      · obtain ⟨t', ht⟩ := closeHandle_of_closes (hcalls.resolve_left hinvalid)
        exact ⟨.zero, t', by simp [hinvalid, ht, release]⟩
    case winsock =>
      refine hclosed _ ?_
      obtain ⟨hevent, ⟨hanswer, hopen⟩, hne⟩ := hcalls
      obtain ⟨t1, ht1⟩ := closeHandle_of_closes hevent
      -- the event is closed first, which leaves the handle as it was unless they are the same
      have hclose1 : Closes t1 node.handle os.closesocket := by
        refine ⟨hanswer, ?_⟩
        by_cases hsame : node.event = node.handle
        · exact .inl (hne hsame)
        · refine hopen.imp id fun ho hnone => ho ?_
          have hends := endOf_closed ht1 (Ne.symm hsame) .current
          simpa [endOf, hnone] using hends.symm
      obtain ⟨t2, ht2⟩ := closeHandle_of_closes hclose1
      exact ⟨.zero, t2, by simp [ws2Close, ht1, ht2, release]⟩
    all_goals exact hclosed _ (diskClose_of_closes hcalls.1 hcalls.2)

theorem closes_of_fileClose (h : fileClose t os node = (.ok (), node', t')) :
    Closes t node.handle os.closeHandle :=
  closes_of_closeHandle (release_ok h).2

theorem closes_of_diskClose (h : diskClose t os node = (.ok (), node', t')) :
    Closes t node.handle os.closeHandle ∧
      (node.fileType = .vdir → node.object ≠ 0 → os.findClose = .ok) := by
  unfold diskClose dirClose at h
  split at h
  · rename_i hdir
    split at h
    · rename_i hobject
      exact ⟨closes_of_fileClose h, fun _ hne => absurd hobject hne⟩
    · split at h
      · simp at h
      · rename_i hfind
        exact ⟨closes_of_fileClose h, fun _ _ => hfind⟩
  · rename_i hdir
    exact ⟨closes_of_fileClose h, fun hvdir => absurd hvdir hdir⟩

theorem closable_of_pipeClose (h : pipeClose t os node = (.ok (), node', t')) :
    node.handle = invalidHandle ∨ (Closes t node.handle os.closeHandle ∧ os.setEvent = .ok) := by
  unfold pipeClose at h
  by_cases hinvalid : node.handle = invalidHandle
  · exact .inl hinvalid
  · rw [if_neg hinvalid] at h
    rcases hclose : closeHandle t node.handle os.closeHandle with ⟨e1 | u, t1⟩
    · simp [hclose] at h
    · simp only [hclose] at h
      have hset := (release_ok h).2
      refine .inr ⟨closes_of_closeHandle hclose, ?_⟩
      cases hanswer : os.setEvent with
      | ok => rfl
      | fail e1 => simp [setEvent, hanswer] at hset

theorem closable_of_ws2Close (h : ws2Close t os node = (.ok (), node', t')) :
    Closes t node.event os.wsaCloseEvent ∧ Closes t node.handle os.closesocket ∧
      (node.event = node.handle → node.handle = invalidHandle) := by
  unfold ws2Close at h
  rcases hevent : closeHandle t node.event os.wsaCloseEvent with ⟨e1 | u, t1⟩
  · simp [hevent] at h
  · simp only [hevent] at h
    have hsocket := closes_of_closeHandle (release_ok h).2
    have hsame : node.event = node.handle → node.handle = invalidHandle := by
      intro heq
      by_contra hinvalid
      have hdropped : t1 = t.drop .current node.handle := by
        rw [heq] at hevent
        exact closeHandle_dropped hinvalid hevent
      apply hsocket.2.resolve_left hinvalid
      simp [opened, hdropped]
    refine ⟨closes_of_closeHandle hevent, ⟨hsocket.1, ?_⟩, hsame⟩
    by_cases heq : node.event = node.handle
    · exact .inl (hsame heq)
    · refine hsocket.2.imp id fun ho hnone => ho ?_
      have hends := endOf_closed hevent (Ne.symm heq) .current
      simpa [endOf, hnone] using hends

/-- A close goes through exactly when the calls it makes do. -/
theorem vfsClose_ok_iff :
    (∃ v t', vfsClose t os node = (.ok (), v, t')) ↔ Closable t os node := by
  refine ⟨?_, vfsClose_of_closable⟩
  rintro ⟨v, t', h⟩
  unfold vfsClose at h
  by_cases hnull : node.handle = nullHandle
  · exact .inl hnull
  · right
    rw [if_neg hnull] at h
    have hclosed : ∀ closed : Except UInt32 Unit × WinVnode × Handles,
        (closed.1, { closed.2.1 with fileId := node.fileId }, closed.2.2) =
          ((.ok (), v, t') : Except UInt32 Unit × WinVnode × Handles) →
        closed = (.ok (), closed.2.1, t') := by
      rintro ⟨r, v1, t1⟩ heq
      simp only [Prod.mk.injEq] at heq
      obtain ⟨rfl, -, rfl⟩ := heq
      rfl
    cases hfs : node.fsType <;> simp only [hfs] at h ⊢
    case pipe => exact closable_of_pipeClose (hclosed _ h)
    case winsock => exact closable_of_ws2Close (hclosed _ h)
    case pdo =>
      have hpdo := hclosed _ h
      unfold pdoClose at hpdo
      by_cases hinvalid : node.handle = invalidHandle
      · exact .inl hinvalid
      · rw [if_neg hinvalid] at hpdo
        exact .inr (closes_of_closeHandle (release_ok hpdo).2)
    all_goals exact closes_of_diskClose (hclosed _ h)

end

end MinC.Vfs
