import MinC.Lib.Runs
import MinC.Sys.Descriptors
import MinC.Vfs.Duplicate

/-!
Calls that hand out two descriptors: `pipe`, `socketpair` and the request for a
pseudo terminal.

All three make both ends first and then put them into the table, one after the
other. They do not look at the numbers they get for them. A number that is no
descriptor is stored like any other, and the reply is zero.
-/

namespace MinC.Sys

open MinC.Lib MinC.Win MinC.Vfs

/-! ### Making the ends -/

def devClassCpu : UInt32 := 0x0100

def pipeReadmodeByte : UInt32 := 0
def pipeReadmodeMessage : UInt32 := 2

/-- The answer to the creation of an anonymous pipe, with what the new handles
are to. -/
inductive PipeAnswer
  | handles (input output : Nat × HandleEntry)
  | fail (error : UInt32)
  deriving DecidableEq

def createPipe (t : Handles) (answer : PipeAnswer) : Except UInt32 (Nat × Nat) × Handles :=
  match answer with
  | .fail e => (.error e, t)
  | .handles (hInput, input) (hOutput, output) =>
      if Fresh t .current hInput ∧ Fresh t .current hOutput ∧ hInput ≠ hOutput then
        (.ok (hInput, hOutput), (t.put .current hInput input).put .current hOutput output)
      else (.error errorInvalidHandle, t)

/-- What the two ends of an anonymous pipe have in common. -/
def pipeEnd (t : Handles) (pipeEvent h : Nat) : WinVnode :=
  { WinVnode.zero with
    handle := h
    event := pipeEvent
    fsType := .pipe
    fileType := .vfifo
    deviceType := devClassCpu
    access := winFGetfl t h
    attribs := fileAttributeNormal }

def vfsPipe (pipeEvent : Nat) (t : Handles) (answer : PipeAnswer) :
    Except UInt32 (WinVnode × WinVnode) × Handles :=
  match createPipe t answer with
  | (.error e, t) => (.error e, t)
  | (.ok (hInput, hOutput), t) => (.ok (pipeEnd t pipeEvent hInput, pipeEnd t pipeEvent hOutput), t)

/-- What creating and opening a named pipe have in common. -/
def namedPipe (t : Handles) (attribs : UInt32) (event : Nat) (answer : CreateAnswer) :
    Except UInt32 WinVnode × Handles :=
  match createFile t answer with
  | (.error e, t) => (.error e, t)
  | (.ok h, t) =>
      (.ok { WinVnode.zero with
        handle := h
        event := event
        fsType := .pipe
        attribs := attribs
        access := winFGetfl t h
        flags := winFGetfd t h }, t)

def pipeCreateFile (t : Handles) (attribs : UInt32) (event : Nat) (answer : CreateAnswer) :
    Except UInt32 WinVnode × Handles :=
  namedPipe t (attribs &&& 0xFFFF0000) event answer

def pipeOpenFile (t : Handles) (event : Nat) (answer : CreateAnswer) :
    Except UInt32 WinVnode × Handles :=
  namedPipe t fileAttributeNormal event answer

/-- The two ends of a named pipe, which are then told what they are. -/
def namedPair (t : Handles) (attribs : UInt32) (event : Nat) (creating opening : CreateAnswer)
    (identify : WinVnode → WinVnode) : Except UInt32 (WinVnode × WinVnode) × Handles :=
  match pipeCreateFile t attribs event creating with
  | (.error e, t) => (.error e, t)
  | (.ok first, t) =>
      match pipeOpenFile t event opening with
      | (.error e, t) => (.error e, t)
      | (.ok second, t) => (.ok (identify first, identify second), t)

/-- The answer to the creation of an event, which nobody checks. -/
def createEvent (t : Handles) (answer : CreateAnswer) : Nat × Handles :=
  match createFile t answer with
  | (.error _, t) => (nullHandle, t)
  | (.ok h, t) => (h, t)

def pipeSocketpair (t : Handles) (mode : UInt32) (event creating opening : CreateAnswer) :
    Except UInt32 (WinVnode × WinVnode) × Handles :=
  let (hEvent, t) := createEvent t event
  namedPair t mode hEvent creating opening fun v =>
    { v with fileType := .vsock, deviceType := devClassCpu }

/-- The address families, in the numbers of the caller and of Windows. -/
def afLocal : UInt8 := 1
def afRoute : UInt8 := 17
def afInet6 : UInt8 := 24
def wsAfLocal : UInt32 := 1
def wsAfInet6 : UInt32 := 23
def wsAfRoute : UInt32 := 24

def afWin (family : UInt8) : UInt32 :=
  if family = afRoute then wsAfRoute
  else if family = afInet6 then wsAfInet6
  else family.toUInt32

def vfsSocketpair (t : Handles) (family attribs : UInt32)
    (event creating opening : CreateAnswer) :
    Except UInt32 (WinVnode × WinVnode) × Handles :=
  if family = wsAfLocal then pipeSocketpair t attribs event creating opening
  else (.error wsaepfnosupport, t)

/-- Both ends of a pseudo terminal are on the terminal of the node. -/
def vfsPtmget (node : WinVnode) (t : Handles) (creating opening : CreateAnswer) :
    Except UInt32 (WinVnode × WinVnode) × Handles :=
  namedPair t pipeReadmodeByte node.event creating opening fun v =>
    { v with
      index := node.index
      fileType := node.fileType
      deviceType := node.deviceType
      deviceId := node.deviceId }

/-! ### The calls -/

/-- What a call leaves: its reply, the two numbers it has stored, and the state. -/
structure PairReply where
  result : Int
  stored : Option (Int × Int)
  state : TaskFds

/-- Put both ends into the table, and store what comes back. -/
def handOut (s : TaskFds) (made : Except UInt32 (WinVnode × WinVnode) × Handles) : PairReply :=
  match made with
  | (.error e, t) => ⟨failed e, none, { s with handles := t }⟩
  | (.ok (first, second), t) =>
      let (fd0, node) := fdPosix s.node first 0
      let (fd1, node) := fdPosix node second 0
      ⟨0, some (fd0, fd1), ⟨node, t⟩⟩

/-- `pipe`, to an array or to a null pointer. -/
def sysPipe (pipeEvent : Nat) (s : TaskFds) (pipefd : Bool) (creating : PipeAnswer) : PairReply :=
  if pipefd = false then ⟨-(efault : Int), none, s⟩
  else handOut s (vfsPipe pipeEvent s.handles creating)

def sockDgram : Int := 2

def sysSocketpair (s : TaskFds) (domain : UInt8) (type : Int)
    (event creating opening : CreateAnswer) : PairReply :=
  let dwAttribs := if type = sockDgram then pipeReadmodeMessage else pipeReadmodeByte
  handOut s (vfsSocketpair s.handles (afWin domain) dwAttribs event creating opening)

def termPtmget (s : TaskFds) (node : WinVnode) (creating opening : CreateAnswer) : PairReply :=
  handOut s (vfsPtmget node s.handles creating opening)

/-- `ioctl` with `PTMGET`. -/
def sysIoctlPtmget (s : TaskFds) (fd : Int) (creating opening : CreateAnswer) : PairReply :=
  if inRange fd = false then ⟨-(ebadf : Int), none, s⟩
  else if (s.node fd.toNat).access = 0 then ⟨-(ebadf : Int), none, s⟩
  else termPtmget s (s.node fd.toNat) creating opening

inductive PairRequest
  | pipe (pipeEvent : Nat) (pipefd : Bool) (creating : PipeAnswer)
  | socketpair (domain : UInt8) (type : Int) (event creating opening : CreateAnswer)
  | ptmget (fd : Int) (creating opening : CreateAnswer)

def PairRequest.exec (s : TaskFds) : PairRequest → PairReply
  | .pipe pipeEvent pipefd creating => sysPipe pipeEvent s pipefd creating
  | .socketpair domain type event creating opening =>
      sysSocketpair s domain type event creating opening
  | .ptmget fd creating opening => sysIoctlPtmget s fd creating opening

/-! ### What is asked of the calls -/

/-- A slot is used, and what it holds is open. -/
structure OpenSlot (s : TaskFds) (fd : Nat) : Prop where
  lt : fd < openMax
  used : slotFree s.node fd = false
  isOpen : endOf s.handles .current (s.node fd).handle ≠ none

/-- Two distinct descriptors were handed out, both to open slots. -/
def PairReply.HandsOut (reply : PairReply) : Prop :=
  ∃ fd0 fd1 : Nat, reply.stored = some ((fd0 : Int), (fd1 : Int)) ∧ fd0 ≠ fd1 ∧
    OpenSlot reply.state fd0 ∧ OpenSlot reply.state fd1

/-- Both descriptors were handed out, or the table is as it was. -/
def PairRequest.Fair (s : TaskFds) (rq : PairRequest) : Prop :=
  AllOrNothing (rq.exec s).result (rq.exec s).HandsOut ((rq.exec s).state.node = s.node)

def TwoFree (node : Nat → WinVnode) : Prop :=
  ∃ i j, i < j ∧ j < openMax ∧ slotFree node i = true ∧ slotFree node j = true

/-- If the ends can be made there are slots for both, and if not, the error is
reported as one. -/
def Placeable (node : Nat → WinVnode) (made : Except UInt32 (WinVnode × WinVnode)) : Prop :=
  match made with
  | .error e => errnoPosix e ≠ 0
  | .ok _ => TwoFree node

/-- The condition under which a call is fair. A call that is refused at once
always is. -/
def PairRequest.Meets (s : TaskFds) : PairRequest → Prop
  | .pipe pipeEvent pipefd creating =>
      pipefd = true → Placeable s.node (vfsPipe pipeEvent s.handles creating).1
  | .socketpair domain type event creating opening =>
      Placeable s.node (vfsSocketpair s.handles (afWin domain)
        (if type = sockDgram then pipeReadmodeMessage else pipeReadmodeByte)
        event creating opening).1
  | .ptmget fd creating opening =>
      inRange fd = true → (s.node fd.toNat).access ≠ 0 →
        Placeable s.node (vfsPtmget (s.node fd.toNat) s.handles creating opening).1

/-! ### The ends are open -/

/-- A vnode gives access, and its handle is open. -/
structure OpenEnd (t : Handles) (v : WinVnode) : Prop where
  used : v.access ≠ 0
  isOpen : endOf t .current v.handle ≠ none

section
variable {t t' : Handles}

theorem OpenEnd.mono {v : WinVnode} (hgrows : Grows t t' .current) (h : OpenEnd t v) :
    OpenEnd t' v :=
  ⟨h.used, by rw [hgrows.endOf h.isOpen]; exact h.isOpen⟩

theorem endOf_put_ne_none {h : Nat} (hnull : h ≠ nullHandle) (entry : HandleEntry) :
    endOf (t.put .current h entry) .current h ≠ none := by
  simp [endOf, opened, hnull]

theorem createFile_spec {answer : CreateAnswer} {h : Nat}
    (hcreate : createFile t answer = (.ok h, t')) :
    Grows t t' .current ∧ endOf t' .current h ≠ none := by
  unfold createFile at hcreate
  split at hcreate
  · simp at hcreate
  · split at hcreate
    · rename_i entry hfresh
      simp only [Prod.mk.injEq, Except.ok.injEq] at hcreate
      obtain ⟨rfl, rfl⟩ := hcreate
      exact ⟨fun x e hx => HandleTables.put_keeps hfresh.unused hx,
        endOf_put_ne_none hfresh.ne_null entry⟩
    · simp at hcreate

theorem namedPipe_spec {attribs : UInt32} {event : Nat} {answer : CreateAnswer} {v : WinVnode}
    (hpipe : namedPipe t attribs event answer = (.ok v, t')) :
    Grows t t' .current ∧ OpenEnd t' v := by
  unfold namedPipe at hpipe
  rcases hcreate : createFile t answer with ⟨e | h, t1⟩
  · simp [hcreate] at hpipe
  · simp only [hcreate, Prod.mk.injEq, Except.ok.injEq] at hpipe
    obtain ⟨rfl, rfl⟩ := hpipe
    obtain ⟨hgrows, hopen⟩ := createFile_spec hcreate
    exact ⟨hgrows, winFGetfl_ne_zero _ h, hopen⟩

theorem namedPair_open {attribs : UInt32} {event : Nat} {creating opening : CreateAnswer}
    {identify : WinVnode → WinVnode} {first second : WinVnode}
    (hidentify : ∀ t v, OpenEnd t v → OpenEnd t (identify v))
    (hpair : namedPair t attribs event creating opening identify = (.ok (first, second), t')) :
    OpenEnd t' first ∧ OpenEnd t' second := by
  unfold namedPair at hpair
  rcases hcreate : pipeCreateFile t attribs event creating with ⟨e | v, t1⟩
  · simp [hcreate] at hpair
  · rcases hopen : pipeOpenFile t1 event opening with ⟨e | w, t2⟩
    · simp [hcreate, hopen] at hpair
    · simp only [hcreate, hopen, Prod.mk.injEq, Except.ok.injEq] at hpair
      obtain ⟨⟨rfl, rfl⟩, rfl⟩ := hpair
      obtain ⟨-, hv⟩ := namedPipe_spec hcreate
      obtain ⟨hgrows, hw⟩ := namedPipe_spec hopen
      exact ⟨hidentify _ _ (hv.mono hgrows), hidentify _ _ hw⟩

theorem vfsPipe_open {pipeEvent : Nat} {creating : PipeAnswer} {first second : WinVnode}
    (hpipe : vfsPipe pipeEvent t creating = (.ok (first, second), t')) :
    OpenEnd t' first ∧ OpenEnd t' second := by
  unfold vfsPipe createPipe at hpipe
  cases creating with
  | fail e => simp at hpipe
  | handles input output =>
      by_cases hfresh : Fresh t .current input.1 ∧ Fresh t .current output.1 ∧ input.1 ≠ output.1
      · simp only [hfresh, if_true, Prod.mk.injEq, Except.ok.injEq, ne_eq, not_false_eq_true,
          and_self] at hpipe
        obtain ⟨⟨rfl, rfl⟩, rfl⟩ := hpipe
        have hinput : endOf ((t.put .current input.1 input.2).put .current output.1 output.2)
            .current input.1 ≠ none := by
          simp [endOf, opened, hfresh.1.ne_null, hfresh.2.2]
        exact ⟨⟨winFGetfl_ne_zero _ _, hinput⟩,
          ⟨winFGetfl_ne_zero _ _, endOf_put_ne_none hfresh.2.1.ne_null _⟩⟩
      · simp [hfresh] at hpipe

theorem vfsSocketpair_open {family attribs : UInt32} {event creating opening : CreateAnswer}
    {first second : WinVnode}
    (hpair : vfsSocketpair t family attribs event creating opening =
      (.ok (first, second), t')) : OpenEnd t' first ∧ OpenEnd t' second := by
  unfold vfsSocketpair at hpair
  split at hpair
  · refine namedPair_open ?_ hpair
    exact fun _ _ h => ⟨h.used, h.isOpen⟩
  · simp at hpair

theorem vfsPtmget_open {node : WinVnode} {creating opening : CreateAnswer}
    {first second : WinVnode}
    (hpair : vfsPtmget node t creating opening = (.ok (first, second), t')) :
    OpenEnd t' first ∧ OpenEnd t' second := by
  refine namedPair_open ?_ hpair
  exact fun _ _ h => ⟨h.used, h.isOpen⟩

end

/-! ### Handing them out -/

theorem slotFree_update {node : Nat → WinVnode} {fd : Nat} {v : WinVnode} (hv : v.access ≠ 0)
    (i : Nat) : slotFree (Function.update node fd { v with fileId := fd }) i = true ↔
      i ≠ fd ∧ slotFree node i = true := by
  by_cases hi : i = fd
  · subst hi
    simp [slotFree, hv]
  · simp [slotFree, hi]

theorem openSlot_update {node : Nat → WinVnode} {t : Handles} {fd : Nat} {v : WinVnode}
    (hfd : fd < openMax) (hv : OpenEnd t v) :
    OpenSlot ⟨Function.update node fd { v with fileId := fd }, t⟩ fd := by
  refine ⟨hfd, ?_, ?_⟩
  · simp [slotFree, hv.used]
  · simpa using hv.isOpen

/-- Two open ends are handed out exactly when there are two slots to put them
in. -/
theorem handsOut_iff {s : TaskFds} {first second : WinVnode} {t : Handles}
    (hfirst : OpenEnd t first) (hsecond : OpenEnd t second) :
    (handOut s (.ok (first, second), t)).HandsOut ↔ TwoFree s.node := by
  have hemfile : ∀ fd : Nat, -(emfile : Int) ≠ fd := by
    intro fd
    have : (0 : Int) < emfile := by decide
    omega
  rcases fdPosix_cases s.node first 0 with ⟨fd0, hlow0, heq0⟩ | ⟨hfull, heq0⟩
  · have hfree := @slotFree_update s.node fd0 first hfirst.used
    rcases fdPosix_cases (Function.update s.node fd0 { first with fileId := fd0 }) second 0 with
      ⟨fd1, hlow1, heq1⟩ | ⟨hfull, heq1⟩
    · obtain ⟨hne, hfree1⟩ := (hfree fd1).mp hlow1.isFree
      constructor
      · rintro -
        rcases Nat.lt_or_gt_of_ne hne with hlt | hgt
        · exact ⟨fd1, fd0, hlt, hlow0.lt_high, hfree1, hlow0.isFree⟩
        · exact ⟨fd0, fd1, hgt, hlow1.lt_high, hlow0.isFree, hfree1⟩
      · rintro -
        have hreply : handOut s (.ok (first, second), t) =
            ⟨0, some ((fd0 : Int), (fd1 : Int)),
              ⟨Function.update (Function.update s.node fd0 { first with fileId := fd0 }) fd1
                { second with fileId := fd1 }, t⟩⟩ := by
          simp only [handOut, heq0, heq1]
        rw [hreply]
        refine ⟨fd0, fd1, rfl, hne.symm, ?_, openSlot_update hlow1.lt_high hsecond⟩
        have hslot0 : OpenSlot _ fd0 := @openSlot_update s.node t fd0 first hlow0.lt_high hfirst
        refine ⟨hslot0.lt, ?_, ?_⟩
        · simpa [slotFree, hne.symm] using hslot0.used
        · simpa [hne.symm] using hslot0.isOpen
    · -- The first end has taken the only free slot.
      constructor
      · rintro ⟨i, j, hstored, -⟩
        simp only [handOut, heq0, heq1, Option.some.injEq, Prod.mk.injEq] at hstored
        exact absurd hstored.2 (hemfile j)
      · rintro ⟨i, j, hij, hj, hi0, hj0⟩
        by_cases hi : i = fd0
        · have hstill := (hfree j).mpr ⟨by omega, hj0⟩
          rw [hfull j (Nat.zero_le j) hj] at hstill
          exact absurd hstill (by decide)
        · have hstill := (hfree i).mpr ⟨hi, hi0⟩
          rw [hfull i (Nat.zero_le i) (by omega)] at hstill
          exact absurd hstill (by decide)
  · constructor
    · rintro ⟨i, j, hstored, -⟩
      simp only [handOut, heq0, Option.some.injEq, Prod.mk.injEq] at hstored
      exact absurd hstored.1 (hemfile i)
    · rintro ⟨i, j, hij, hj, hi0, -⟩
      rw [hfull i (Nat.zero_le i) (by omega)] at hi0
      exact absurd hi0 (by decide)

/-- What the calls have in common is all or nothing exactly when the ends are
placeable. -/
theorem handOut_fair_iff {s : TaskFds}
    {made : Except UInt32 (WinVnode × WinVnode) × Handles}
    (hopen : ∀ first second t, made = (.ok (first, second), t) →
      OpenEnd t first ∧ OpenEnd t second) :
    AllOrNothing (handOut s made).result (handOut s made).HandsOut
        ((handOut s made).state.node = s.node) ↔ Placeable s.node made.1 := by
  obtain ⟨e | ⟨first, second⟩, t⟩ := made
  · have hnot : ¬ (handOut s (.error e, t)).HandsOut := by
      rintro ⟨i, j, hstored, -⟩
      simp [handOut] at hstored
    have hresult : (handOut s (.error e, t)).result = -(errnoPosix e : Int) := rfl
    rw [hresult, allOrNothing_errno]
    by_cases he : errnoPosix e = 0
    · rw [if_pos he]
      exact iff_of_false hnot fun h => h he
    · rw [if_neg he]
      exact iff_of_true rfl he
  · obtain ⟨hfirst, hsecond⟩ := hopen first second t rfl
    have hresult : (handOut s (.ok (first, second), t)).result = 0 := rfl
    rw [hresult, allOrNothing_zero]
    exact handsOut_iff hfirst hsecond

/-- A call that is refused at once is fair. -/
theorem fair_of_refused {s : TaskFds} {rq : PairRequest} {n : Nat} (hn : 0 < n)
    (hexec : rq.exec s = ⟨-(n : Int), none, s⟩) : rq.Fair s := by
  unfold PairRequest.Fair
  rw [hexec, allOrNothing_of_neg (by dsimp only; omega)]

/-- `pipe`, `socketpair` and the request for a pseudo terminal are all or nothing
exactly when they meet the condition. -/
theorem pairs_fair_iff (s : TaskFds) (rq : PairRequest) : rq.Fair s ↔ rq.Meets s := by
  cases rq with
  | pipe pipeEvent pipefd creating =>
      cases pipefd with
      | false =>
          have hfair : (PairRequest.pipe pipeEvent false creating).Fair s :=
            fair_of_refused (show 0 < efault by decide) rfl
          exact iff_of_true hfair fun h => absurd h (by decide)
      | true =>
          have hmeets : (PairRequest.pipe pipeEvent true creating).Meets s ↔
              Placeable s.node (vfsPipe pipeEvent s.handles creating).1 := by
            simp [PairRequest.Meets]
          rw [hmeets]
          exact handOut_fair_iff fun _ _ _ h => vfsPipe_open h
  | socketpair domain type event creating opening =>
      exact handOut_fair_iff fun _ _ _ h => vfsSocketpair_open h
  | ptmget fd creating opening =>
      by_cases hfd : inRange fd = true
      · by_cases hused : (s.node fd.toNat).access = 0
        -- a descriptor that is not open has no terminal
        · have hexec : (PairRequest.ptmget fd creating opening).exec s =
              ⟨-(ebadf : Int), none, s⟩ := by
            simp [PairRequest.exec, sysIoctlPtmget, hfd, hused]
          exact iff_of_true (fair_of_refused (show 0 < ebadf by decide) hexec)
            fun _ h => absurd hused h
        · have hexec : (PairRequest.ptmget fd creating opening).exec s =
              handOut s (vfsPtmget (s.node fd.toNat) s.handles creating opening) := by
            simp [PairRequest.exec, sysIoctlPtmget, termPtmget, hfd, hused]
          have hmeets : (PairRequest.ptmget fd creating opening).Meets s ↔
              Placeable s.node (vfsPtmget (s.node fd.toNat) s.handles creating opening).1 := by
            simp [PairRequest.Meets, hfd, hused]
          rw [PairRequest.Fair, hexec, hmeets]
          exact handOut_fair_iff fun _ _ _ h => vfsPtmget_open h
      · have hexec : (PairRequest.ptmget fd creating opening).exec s =
            ⟨-(ebadf : Int), none, s⟩ := by
          simp [PairRequest.exec, sysIoctlPtmget, hfd]
        exact iff_of_true (fair_of_refused (show 0 < ebadf by decide) hexec)
          fun h => absurd h hfd

section OneSlot

/-- Slot 63 is the only free one; the others hold unbound sockets. -/
def lastSlotFree : TaskFds where
  node := fun i =>
    if i = 63 then { WinVnode.zero with fileId := 63 }
    else { WinVnode.zero with
      fsType := .pipe
      fileType := .vsock
      handle := invalidHandle
      access := genericRead
      fileId := i }
  handles := fun _ _ => none

theorem genericRead_ne_zero : genericRead ≠ 0 := by decide

theorem genericWrite_ne_zero : genericWrite ≠ 0 := by decide

def pipeHandles : PipeAnswer :=
  .handles (8, ⟨⟨1, genericRead, genericRead_ne_zero⟩, false⟩)
    (12, ⟨⟨1, genericWrite, genericWrite_ne_zero⟩, false⟩)

/-- With one slot left, `pipe` succeeds and stores an error number in the place
of the second descriptor. -/
theorem pipe_stores_error : ¬ (PairRequest.pipe 4 true pipeHandles).Fair lastSlotFree := by
  intro hfair
  obtain ⟨fd0, fd1, hstored, -⟩ := hfair.ok rfl
  have hreply : ((PairRequest.pipe 4 true pipeHandles).exec lastSlotFree).stored =
      some (63, -(emfile : Int)) := by decide
  rw [hreply, Option.some.injEq, Prod.mk.injEq] at hstored
  have : (0 : Int) < emfile := by decide
  omega

end OneSlot

end MinC.Sys
