import MinC.Sys.Descriptors
import MinC.Vfs.Uio

/-!
Calls with vectors of buffers.

What was read before a read failed is in the buffers of the caller, who gets
the error instead of a number. A buffer that is filled only partly does not end
the transfer, so that the next bytes go into the next buffer.
-/

namespace MinC.Sys

open MinC.Lib MinC.Win MinC.Vfs

def iovMax : Nat := 1024

/-- A number as the `ssize_t` of the same bits. -/
def ssize (n : UInt32) : Int :=
  if n.toNat < 0x80000000 then n.toNat else (n.toNat : Int) - 0x100000000

/-- What a call returns, by the error it ends with and the number it tells. -/
def returned (error : Option UInt32) (result : UInt32) : Int :=
  match error with
  | some error => -(errnoPosix error : Int)
  | none => ssize result

/-- What a call leaves: what it returns, the buffers of the caller, and what the
single reads left. -/
structure ReadvCall where
  result : Int
  buffers : List (List UInt8)
  replies : List ReadReply

section
variable {σ : Type*} (read : WinVnode → UInt32 → σ → Option (ReadReply × σ))
  (node : Nat → WinVnode)

def sysReadv (fd : Int) (iov : List WinIovec) (s : σ) : Option (ReadvCall × σ) :=
  if iovMax ≤ iov.length then some (⟨-(einval : Int), iov.map WinIovec.buffer, []⟩, s)
  else if !inRange fd then some (⟨-(ebadf : Int), iov.map WinIovec.buffer, []⟩, s)
  else
    (vfsReadv (read (node fd.toNat)) iov s).map fun (out, s) =>
      (⟨returned out.error out.result, out.buffers, out.replies⟩, s)

end

/-! ### What a caller may expect -/

/-- Of a call that returns a number, so many bytes of the stream are in the
beginning of the buffers. A buffer that is filled only partly is the last one
that is read into, and a call that fails has not taken any bytes before. -/
structure ReadsInOrder (before : List (List UInt8)) (call : ReadvCall) : Prop where
  filled : 0 ≤ call.result →
    ((bytesRead call.replies).length : Int) = call.result ∧
      call.buffers.flatten =
        bytesRead call.replies ++ before.flatten.drop (bytesRead call.replies).length
  ends : FullButLast before call.replies
  kept : call.result < 0 → ∀ reply ∈ call.replies, reply.error = none → reply.bytes = []

/-- Replies that suit the loop. -/
structure SuitsLoop (before : List (List UInt8)) (replies : List ReadReply) : Prop where
  full : FullButLast before replies
  failed : ∀ error, finalError replies = some error →
    ∀ reply ∈ replies, reply.error = none ∨ errnoPosix error = 0 → reply.bytes = []
  counted : finalError replies = none →
    countsFoundAgain 0 replies % 0x100000000 = 0 ∧ (bytesRead replies).length < 0x80000000

theorem ssize_nonneg_iff (n : UInt32) : 0 ≤ ssize n ↔ n.toNat < 0x80000000 := by
  have hlt := n.toNat_lt
  unfold ssize
  split_ifs <;> omega

theorem ssize_of_lt {n : UInt32} (h : n.toNat < 0x80000000) : ssize n = n.toNat := if_pos h

/-- Reads that took nothing do not add to the sum. -/
theorem sumOfCounts_eq_zero {iov : List WinIovec} {replies : List ReadReply}
    (h : Answered iov replies) (hnone : ∀ reply ∈ replies, reply.bytes = []) :
    sumOfCounts 0 replies = 0 := by
  induction h with
  | nil => rfl
  | failed _ herror => rw [sumOfCounts, if_pos herror]
  | @cons data rest reply replies hsound herror hrest ih =>
      obtain ⟨hreply, hreplies⟩ := List.forall_mem_cons.mp hnone
      have hcount : reply.count.getD 0 = 0 := by
        cases hcount : reply.count with
        | none => rfl
        | some n =>
            have hn := hsound.counted n hcount
            rw [hreply] at hn
            exact UInt32.toNat_inj.mp hn
      rw [sumOfCounts, if_neg (by rw [herror]; exact Bool.false_ne_true), hcount, ih hreplies]
      rfl

/-- What the loop leaves for some replies. -/
def callOf (iov : List WinIovec) (replies : List ReadReply) : ReadvCall :=
  ⟨returned (finalError replies) (0 + sumOfCounts 0 replies),
    filledBy (iov.map WinIovec.buffer) replies, replies⟩

theorem bytesRead_eq_nil_iff (replies : List ReadReply) :
    bytesRead replies = [] ↔ ∀ reply ∈ replies, reply.bytes = [] := List.flatMap_eq_nil_iff

theorem error_of_finalError {replies : List ReadReply} (h : finalError replies = none) :
    ∀ reply ∈ replies, reply.error = none := by
  induction replies with
  | nil => exact fun _ hreply => absurd hreply List.not_mem_nil
  | cons reply replies ih =>
      rw [finalError] at h
      split_ifs at h with herror
      · rw [h] at herror
        cases herror
      · exact List.forall_mem_cons.mpr ⟨Option.not_isSome_iff_eq_none.mp herror, ih h⟩

/-- A loop that a read ended has kept what was taken exactly if nothing was. -/
theorem readsInOrder_failed {iov : List WinIovec} {replies : List ReadReply} {error : UInt32}
    (herror : finalError replies = some error) :
    ReadsInOrder (iov.map WinIovec.buffer) (callOf iov replies) ↔
      SuitsLoop (iov.map WinIovec.buffer) replies := by
  have hresult : (callOf iov replies).result = -(errnoPosix error : Int) := by
    rw [callOf, herror]
    rfl
  constructor
  · rintro ⟨hfilled, hends, hkept⟩
    refine ⟨hends, fun e he reply hreply hcase => ?_, fun hnone => ?_⟩
    · cases herror.symm.trans he
      -- an error without a number looks like the end of the file
      by_cases hzero : errnoPosix error = 0
      · rw [hresult, hzero] at hfilled
        have hlength := (hfilled (Int.le_refl 0)).1
        have hnil : bytesRead replies = [] :=
          List.length_eq_zero_iff.mp (Int.natCast_eq_zero.mp hlength)
        exact (bytesRead_eq_nil_iff replies).mp hnil reply hreply
      · exact hkept (by omega) reply hreply (hcase.resolve_right hzero)
    · rw [herror] at hnone
      cases hnone
  · rintro ⟨hfull, hfailed, -⟩
    refine ⟨fun hnonneg => ?_, hfull, fun _ reply hreply hdone =>
      hfailed error herror reply hreply (.inl hdone)⟩
    have hzero : errnoPosix error = 0 := by omega
    have hnone := fun reply hreply => hfailed error herror reply hreply (.inr hzero)
    have hbytes : bytesRead (callOf iov replies).replies = [] :=
      (bytesRead_eq_nil_iff replies).mpr hnone
    have hbuffers : (callOf iov replies).buffers = iov.map WinIovec.buffer :=
      filledBy_nil hnone _
    rw [hresult, hzero, hbytes, hbuffers]
    exact ⟨rfl, rfl⟩

/-- A loop that is done tells the number of bytes exactly if no count was found
again, and they are few enough. -/
theorem readsInOrder_done {iov : List WinIovec} {replies : List ReadReply}
    (h : Answered iov replies) (hdone : finalError replies = none) :
    ReadsInOrder (iov.map WinIovec.buffer) (callOf iov replies) ↔
      SuitsLoop (iov.map WinIovec.buffer) replies := by
  have hresult : (callOf iov replies).result = ssize (sumOfCounts 0 replies) := by
    rw [callOf, hdone, UInt32.zero_add]
    rfl
  have hsum := toNat_sumOfCounts h hdone 0
  constructor
  · rintro ⟨hfilled, hends, hkept⟩
    refine ⟨hends, fun error herror => ?_, fun _ => ?_⟩
    · rw [hdone] at herror
      cases herror
    · rw [hresult] at hfilled hkept
      -- if the result were negative nothing would be read, and nothing adds up to zero
      have hnonneg : 0 ≤ ssize (sumOfCounts 0 replies) := by
        by_contra hneg
        have hall : ∀ reply ∈ replies, reply.bytes = [] := fun reply hreply =>
          hkept (Int.not_le.mp hneg) reply hreply (error_of_finalError hdone reply hreply)
        rw [sumOfCounts_eq_zero h hall] at hneg
        exact hneg (by decide)
      have hlt := (ssize_nonneg_iff _).mp hnonneg
      have hlength := (hfilled hnonneg).1
      rw [ssize_of_lt hlt] at hlength
      change ((bytesRead replies).length : Int) = _ at hlength
      omega
  · rintro ⟨hfull, -, hcounted⟩
    obtain ⟨hagain, hlt⟩ := hcounted hdone
    have hcount : (sumOfCounts 0 replies).toNat = (bytesRead replies).length := by omega
    have hsize : ssize (sumOfCounts 0 replies) = (bytesRead replies).length := by
      rw [ssize_of_lt (by omega), hcount]
    refine ⟨fun _ => ⟨?_, flatten_filledBy h hdone hfull⟩, hfull, fun hneg => ?_⟩
    · rw [hresult, hsize]
      rfl
    · rw [hresult, hsize] at hneg
      omega

theorem readsInOrder_iff {iov : List WinIovec} {replies : List ReadReply}
    (h : Answered iov replies) :
    ReadsInOrder (iov.map WinIovec.buffer) (callOf iov replies) ↔
      SuitsLoop (iov.map WinIovec.buffer) replies := by
  cases hfinal : finalError replies with
  | none => exact readsInOrder_done h hfinal
  | some error => exact readsInOrder_failed hfinal

/-- Nothing is asked for of a call that is refused. -/
theorem readsInOrder_refused (buffers : List (List UInt8)) {result : Int} (h : result < 0) :
    ReadsInOrder buffers ⟨result, buffers, []⟩ where
  filled := fun hnonneg => absurd h (Int.not_lt.mpr hnonneg)
  ends := by cases buffers <;> trivial
  kept := fun _ _ hreply => absurd hreply List.not_mem_nil

/-- What a call that is not refused leaves. -/
theorem sysReadv_eq {σ : Type*} (read : WinVnode → UInt32 → σ → Option (ReadReply × σ))
    (node : Nat → WinVnode) {fd : Int} {iov : List WinIovec} (hlength : iov.length < iovMax)
    (hfd : inRange fd = true) (s : σ) :
    (sysReadv read node fd iov s).map Prod.fst =
      (repliesTo (read (node fd.toNat)) iov s).map (callOf iov) := by
  have hloop := readvLoop_eq (read (node fd.toNat)) 0 0 iov s
  have hcall := congrArg (Option.map fun out : Readv =>
    ReadvCall.mk (returned out.error out.result) out.buffers out.replies) hloop
  rw [Option.map_map, Option.map_map] at hcall
  rw [sysReadv, if_neg (Nat.not_le.mpr hlength), if_neg (by rw [hfd]; decide), Option.map_map]
  exact hcall

/-- A call reads as it should exactly when its reads suit the loop. -/
theorem sysReadv_readsInOrder_iff {σ : Type*} (d : ReadDevices σ) (devices : UInt32 → WinDevice)
    (turns : Nat) (node : Nat → WinVnode) (fd : Int) (iov : List WinIovec) (s : σ) :
    (∀ call ∈ (sysReadv (vfsRead d devices turns) node fd iov s).map Prod.fst,
        ReadsInOrder (iov.map WinIovec.buffer) call) ↔
      (iov.length < iovMax → inRange fd = true →
        ∀ replies ∈ repliesTo (vfsRead d devices turns (node fd.toNat)) iov s,
          SuitsLoop (iov.map WinIovec.buffer) replies) := by
  by_cases hlength : iov.length < iovMax
  · by_cases hfd : inRange fd = true
    · rw [sysReadv_eq _ _ hlength hfd]
      simp only [hlength, hfd, forall_const, Option.forall_mem_map]
      refine forall₂_congr fun replies hreplies => readsInOrder_iff ?_
      exact answered_of_repliesTo (fun _ _ _ => vfsRead_sound) hreplies
    · refine iff_of_true (fun call hcall => ?_) fun _ h => absurd h hfd
      rw [sysReadv, if_neg (Nat.not_le.mpr hlength), if_pos (by simpa using hfd)] at hcall
      cases hcall
      exact readsInOrder_refused _ (by decide)
  · refine iff_of_true (fun call hcall => ?_) fun h => absurd h hlength
    rw [sysReadv, if_pos (Nat.not_lt.mp hlength)] at hcall
    cases hcall
    exact readsInOrder_refused _ (by decide)

/-! ### A pipe that delivers what it is told to -/

/-- What comes next, as much of it as is asked for. -/
def scriptRead (size : UInt32) : List Delivery → Delivery × List Delivery
  | [] => (⟨none, []⟩, [])
  | delivery :: rest => (⟨delivery.error, delivery.bytes.take size.toNat⟩, rest)

theorem scriptRead_le (size : UInt32) (s : List Delivery) :
    (scriptRead size s).1.bytes.length ≤ size.toNat := by
  cases s with
  | nil => exact Nat.zero_le _
  | cons delivery rest => exact List.length_take_le _ _

def script : ReadDevices (List Delivery) where
  readFile := scriptRead
  inputRead := scriptRead
  randRead := scriptRead
  pipeFionread := fun s => (if s = [] then none else some 1, s)
  ws2Poll := fun s => (.ok true, s)
  sockSelect := fun s => (none, s)
  procPoll := fun s => (none, s)
  readFile_le := scriptRead_le
  inputRead_le := scriptRead_le
  randRead_le := scriptRead_le

/-- Descriptor 0 is one end of a local socket. -/
def socketTable (fd : Nat) : WinVnode :=
  if fd = 0 then { WinVnode.zero with fsType := .pipe, fileType := .vsock } else WinVnode.zero

def twoCells : WinIovec := ⟨[0, 0], by decide⟩

/-- The call for two buffers of two cells. -/
def readTwo (s : List Delivery) : Option ReadvCall :=
  (sysReadv (vfsRead script (fun _ => ⟨.vnon, 0, 0, .unknown, 0, 0, 0, 0, 0⟩) 1) socketTable 0
    [twoCells, twoCells] s).map Prod.fst

/-- Each buffer gets a byte. Two bytes that were read are lost if the next read
fails; and if the other end is gone, they are counted twice. -/
theorem buffers_not_in_order :
    (¬ ∀ call ∈ readTwo [⟨none, [97]⟩, ⟨none, [98]⟩],
      ReadsInOrder ([twoCells, twoCells].map WinIovec.buffer) call) ∧
    (¬ ∀ call ∈ readTwo [⟨none, [97, 98]⟩, ⟨some errorMoreData, []⟩],
      ReadsInOrder ([twoCells, twoCells].map WinIovec.buffer) call) ∧
    (¬ ∀ call ∈ readTwo [⟨none, [97, 98]⟩],
      ReadsInOrder ([twoCells, twoCells].map WinIovec.buffer) call) := by
  refine ⟨fun h => ?_, fun h => ?_, fun h => ?_⟩
  · have hends := (h _ rfl).ends
    exact absurd hends.1 (by decide)
  · have hkept := (h _ rfl).kept (by decide) _ List.mem_cons_self rfl
    exact absurd hkept (by decide)
  · have hfilled := ((h _ rfl).filled (by decide)).1
    exact absurd hfilled (by decide)

end MinC.Sys
