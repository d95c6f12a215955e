import MinC.Vfs.Replies
import MinC.Vfs.Queue

/-!
A terminal that is typed at, written to and read from.

What it should be is a queue: what is fetched goes into it when it is empty,
replies go to its end, and reads take from its front. The buffer of the input
is that queue as long as every reply is printed in step with what is pending,
and what is fetched into it ends with a zero of its own.
-/

namespace MinC.Vfs

open MinC.Lib

/-! ### The terminal -/

/-- What is done at a terminal: something is typed, to be waited for, or a
process writes or reads. -/
inductive Action
  | type (wait : Wait)
  | write (bytes : List UInt8)
  | read (attribs : Termio) (size : UInt32)

/-- The size that a read has as a `LONG`. -/
def readSize (size : UInt32) : Nat := if size < 0x80000000 then size.toNat else 0

/-- The screen when nothing that was stored with the input is remembered. -/
def Screen.unmarked {κ : Type} (s : Screen κ) : Screen κ :=
  { s with replies := { s.replies with inside := true } }

/-- The emulator and the input, what was typed and not waited for yet, what was
delivered, and whether all replies were stored inside of the buffer. -/
structure Terminal (κ : Type) where
  screen : Screen κ
  clipboard : Option (List UInt16)
  waits : List Wait
  delivered : List UInt8
  kept : Bool

namespace Terminal

variable {κ : Type} (c : Console κ) (spill : List UInt16 → List UInt8)

def boot (con : κ) (tty : Tty) : Terminal κ where
  screen := Screen.boot con tty
  clipboard := none
  waits := []
  delivered := []
  kept := true

def input (t : Terminal κ) : Input := ⟨t.screen.replies, t.clipboard⟩

def step (t : Terminal κ) : Action → Terminal κ
  | .type wait => { t with waits := t.waits ++ [wait] }
  | .write bytes =>
      let s := (t.screen.unmarked.write c bytes).1
      { t with screen := s, kept := t.kept && s.replies.inside }
  | .read attribs size =>
      let o := inputRead spill attribs size t.waits t.input
      { t with
        screen := { t.screen with replies := o.2.1.buffer }
        clipboard := o.2.1.clipboard
        waits := o.2.2
        delivered := t.delivered ++ o.1.bytes }

/-- The replies to the queries of a write. -/
def answers (t : Terminal κ) (bytes : List UInt8) : List (List UInt8) :=
  t.screen.unmarked.replyTexts c bytes

end Terminal

/-! ### The ideal terminal -/

/-- A terminal that is only a queue. -/
structure Ideal where
  queue : Queue
  waits : List Wait
  delivered : List UInt8

namespace Ideal

variable (spill : List UInt16 → List UInt8)

def boot : Ideal := ⟨⟨[], none⟩, [], []⟩

/-- A write is the replies to its queries. -/
def step (i : Ideal) (answers : List UInt8 → List (List UInt8)) : Action → Ideal
  | .type wait => { i with waits := i.waits ++ [wait] }
  | .write bytes =>
      { i with queue := { i.queue with bytes := i.queue.bytes ++ (answers bytes).flatten } }
  | .read attribs size =>
      let o := i.queue.read spill attribs (readSize size) i.waits
      { queue := o.2.1, waits := o.2.2, delivered := i.delivered ++ o.1.bytes }

end Ideal

/-- A terminal and the ideal one, side by side. -/
structure Session (κ : Type) where
  terminal : Terminal κ
  ideal : Ideal

namespace Session

variable {κ : Type} (c : Console κ) (spill : List UInt16 → List UInt8)

def boot (con : κ) (tty : Tty) : Session κ := ⟨.boot con tty, .boot⟩

def step (p : Session κ) (a : Action) : Session κ :=
  ⟨p.terminal.step c spill a, p.ideal.step spill (p.terminal.answers c) a⟩

/-- The terminal has delivered, and has to be read, what the ideal one has, and
no reply was stored outside of the buffer. -/
structure Agrees (p : Session κ) : Prop where
  delivered_eq : p.terminal.delivered = p.ideal.delivered
  queue_eq : p.terminal.input.queue = p.ideal.queue
  waits_eq : p.terminal.waits = p.ideal.waits
  kept_eq : p.terminal.kept = true

end Session

/-! ### When the terminal is the ideal one -/

namespace Terminal

variable {κ : Type}

/-- A read finds something pending, or all that it may fetch ends with a zero. -/
def Orderly (t : Terminal κ) : Action → Prop
  | .type _ => True
  | .write _ => True
  | .read attribs _ =>
      t.screen.replies.pending ≠ [] ∨ t.input.Fits ∧ ∀ w ∈ t.waits, Sound attribs w

/-- A write has no queries, or it is answered in step with what is pending and
there is room for the answers. -/
def InTime (c : Console κ) (t : Terminal κ) : Action → Prop
  | .type _ => True
  | .write bytes =>
      t.answers c bytes = [] ∨
        t.screen.replies.InStep ∧
          t.screen.replies.input + t.screen.replies.index + (t.answers c bytes).flatten.length <
            inputBufSize
  | .read _ _ => True

end Terminal

namespace Session

variable {κ : Type} {c : Console κ} {spill : List UInt16 → List UInt8} {p : Session κ}

theorem agrees_type (h : p.Agrees) (wait : Wait) : (p.step c spill (.type wait)).Agrees where
  delivered_eq := h.delivered_eq
  queue_eq := h.queue_eq
  waits_eq := congrArg (· ++ [wait]) h.waits_eq
  kept_eq := h.kept_eq

theorem agrees_write (h : p.Agrees) (bytes : List UInt8) :
    (p.step c spill (.write bytes)).Agrees ↔ p.terminal.InTime c (.write bytes) := by
  have hreplies := Screen.write_replies (c := c) p.terminal.screen.unmarked bytes
  have hanswers : ∀ reply ∈ p.terminal.answers c bytes, IsReply reply :=
    fun reply hreply => Writer.isReply_of_mem hreply
  have hinside : (p.terminal.screen.unmarked.write c bytes).1.replies.inside = true ↔ _ :=
    hreplies ▸ InputBuffer.inside_replies
  have hbytes : p.terminal.screen.replies.pending = p.ideal.queue.bytes :=
    congrArg Queue.bytes h.queue_eq
  constructor
  · rintro ⟨-, hqueue, -, hkept⟩
    have hstored := (hinside.mp (Bool.and_eq_true_iff.mp hkept).2).2
    have hpending : (p.terminal.screen.unmarked.write c bytes).1.replies.pending =
        p.terminal.screen.replies.pending ++ (p.terminal.answers c bytes).flatten := by
      rw [hbytes]
      exact congrArg Queue.bytes hqueue
    rw [hreplies] at hpending
    -- what is answered stands behind what is pending only if the buffer is in step
    by_cases hnone : p.terminal.answers c bytes = []
    · exact .inl hnone
    · have hstep : p.terminal.screen.unmarked.replies.InStep :=
        InputBuffer.inStep_of_pending hanswers hnone hpending
      exact .inr ⟨hstep, hstored.resolve_left hnone⟩
  · intro htime
    refine ⟨h.delivered_eq, ?_, h.waits_eq, ?_⟩
    · have hpending : (p.terminal.screen.unmarked.write c bytes).1.replies.pending =
          p.ideal.queue.bytes ++ (p.terminal.answers c bytes).flatten := by
        rw [hreplies, ← hbytes]
        rcases htime with hnone | ⟨hstep, -⟩
        · rw [show p.terminal.screen.unmarked.replyTexts c bytes = [] from hnone, hnone,
            List.flatten_nil, List.append_nil]
          rfl
        · exact InputBuffer.pending_replies hstep hanswers
      exact congrArg₂ Queue.mk hpending (congrArg Queue.clipboard h.queue_eq)
    · exact Bool.and_eq_true_iff.mpr ⟨h.kept_eq, hinside.mpr ⟨rfl, htime.imp_right And.right⟩⟩

theorem agrees_read (h : p.Agrees) {attribs : Termio} {size : UInt32}
    (horderly : p.terminal.Orderly (.read attribs size)) :
    (p.step c spill (.read attribs size)).Agrees := by
  have hread : (inputRead spill attribs size p.terminal.waits p.terminal.input).1 =
        (p.ideal.queue.read spill attribs (readSize size) p.ideal.waits).1 ∧
      (inputRead spill attribs size p.terminal.waits p.terminal.input).2.1.queue =
        (p.ideal.queue.read spill attribs (readSize size) p.ideal.waits).2.1 ∧
      (inputRead spill attribs size p.terminal.waits p.terminal.input).2.2 =
        (p.ideal.queue.read spill attribs (readSize size) p.ideal.waits).2.2 := by
    rw [← h.queue_eq, ← h.waits_eq, inputRead_eq]
    rcases horderly with hpending | ⟨hfits, hsound⟩
    · exact queue_readLoop_of_pending spill attribs _ _ hpending
    · exact queue_readLoop spill _ hsound hfits
  obtain ⟨houtcome, hqueue, hwaits⟩ := hread
  exact ⟨congrArg₂ (fun d o => d ++ Outcome.bytes o) h.delivered_eq houtcome, hqueue, hwaits,
    h.kept_eq⟩

/-- Of the steps that are orderly, those that are in time keep the terminal
what it should be. -/
theorem agrees_step (h : p.Agrees) {a : Action} (horderly : p.terminal.Orderly a) :
    (p.step c spill a).Agrees ↔ p.terminal.InTime c a := by
  cases a with
  | type wait => exact iff_of_true (agrees_type h wait) trivial
  | write bytes => exact agrees_write h bytes
  | read attribs size => exact iff_of_true (agrees_read h horderly) trivial

theorem agrees_boot (con : κ) (tty : Tty) : (Session.boot con tty).Agrees := ⟨rfl, rfl, rfl, rfl⟩

/-- In a run of orderly steps, what is delivered after each of them is what was
pending and the replies in their order, exactly if all its writes are in
time. -/
theorem agrees_along_iff (c : Console κ) (spill : List UInt16 → List UInt8) (con : κ) (tty : Tty)
    {actions : List Action}
    (h : Along (Session.step c spill) (fun p a => p.terminal.Orderly a) (.boot con tty) actions) :
    Along (Session.step c spill) (fun p a => (p.step c spill a).Agrees) (.boot con tty) actions ↔
      Along (Session.step c spill) (fun p a => p.terminal.InTime c a) (.boot con tty) actions :=
  along_keeps_iff (I := Agrees) (fun _ _ hp ha => agrees_step hp ha) (agrees_boot con tty) h

end Session

/-- The query for the position of the cursor. -/
def queryCursor : List UInt8 := [27, 91, 54, 110]

def Session.start : Session Store := .boot Store.empty Screen.start.tty

theorem agrees_along_iff_one :
    Along (Session.step Store.console fun _ => []) (fun p a => p.terminal.Orderly a) .start
        [.write queryCursor, .read ⟨0, 0⟩ 32] ∧
      (Along (Session.step Store.console fun _ => [])
          (fun p a => (p.step Store.console (fun _ => []) a).Agrees) .start
          [.write queryCursor, .read ⟨0, 0⟩ 32] ↔
        Along (Session.step Store.console fun _ => [])
          (fun p a => p.terminal.InTime Store.console a) .start
          [.write queryCursor, .read ⟨0, 0⟩ 32]) := by
  have h : Along (Session.step Store.console fun _ => []) (fun p a => p.terminal.Orderly a)
      .start [.write queryCursor, .read ⟨0, 0⟩ 32] := by
    refine ⟨trivial, .inr ⟨fun clip hclip => ?_, fun w hw => ?_⟩, trivial⟩
    · cases hclip
    · cases hw
  exact ⟨h, Session.agrees_along_iff Store.console (fun _ => []) _ _ h⟩

/-- When a reply was read, the next one is printed behind the zero and is never
read. -/
theorem second_reply_lost :
    ¬ Along (Session.step Store.console fun _ => [])
      (fun p a => (p.step Store.console (fun _ => []) a).Agrees) .start
      [.write queryCursor, .read ⟨0, 0⟩ 32, .write queryCursor] := by
  rintro ⟨-, -, h, -⟩
  have hbytes := congrArg Queue.bytes h.queue_eq
  exact absurd hbytes (by decide)

end MinC.Vfs
