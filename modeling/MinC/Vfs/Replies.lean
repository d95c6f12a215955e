import MinC.Vfs.ScreenRuns
import MinC.Vfs.Input

/-!
The replies of the emulator.

A query is answered into the buffer that input is read from, at an index that
is counted from the byte that is read next. What a write prints there is the
replies to the queries in what was written, one after the other. They come
behind what is pending if the index is the number of pending bytes, and then it
is that number again; if it is not, something is overwritten or the replies are
behind the zero and are never seen.
-/

namespace MinC.Vfs

open MinC.Lib

/-! ### What a write prints -/

namespace Screen

variable {κ : Type} {c : Console κ} {s : Screen κ}

theorem replies_ansi (char : UInt8) (size : Nat) :
    (s.ansi c char size).replies =
      (s.sequenceReply char).elim s.replies s.replies.sprintf := by
  rw [← (replies_ansiSequence (c := c) char size).2]
  unfold ansi
  dsimp only
  split_ifs <;> rfl

end Screen

namespace Writer

variable {κ : Type} (c : Console κ)

/-- The reply to a query that ends with the byte. -/
def reply (w : Writer κ) (char : UInt8) : Option (List UInt8) :=
  match w.screen.escape with
  | some n =>
      if Screen.turn c w.screen.seq.csi char = .runs then
        ((w.screen.withChar char).stored n char).sequenceReply char
      else none
  | none => none

/-- The replies to the queries in what is written. -/
def replyTexts : Writer κ → List UInt8 → List (List UInt8)
  | _, [] => []
  | w, char :: rest => (w.reply c char).toList ++ replyTexts (w.step c char) rest

variable {c} {w : Writer κ} {char : UInt8}

theorem reply_of_none (h : w.screen.escape = none) : w.reply c char = none := by
  rw [reply, h]

theorem reply_of_runs {n : Nat} (h : w.screen.escape = some n)
    (hturn : Screen.turn c w.screen.seq.csi char = .runs) :
    w.reply c char = ((w.screen.withChar char).stored n char).sequenceReply char := by
  rw [reply, h]
  exact if_pos hturn

theorem reply_of_ne {n : Nat} (h : w.screen.escape = some n)
    (hturn : Screen.turn c w.screen.seq.csi char ≠ .runs) : w.reply c char = none := by
  rw [reply, h]
  exact if_neg hturn

/-- A byte prints its reply and nothing else. -/
theorem step_replies :
    (w.step c char).screen.replies =
      (w.reply c char).toList.foldl InputBuffer.sprintf w.screen.replies := by
  cases hesc : w.screen.escape with
  | some n =>
      have hfollows := Screen.follows_escapeAt (c := c) (w.screen.withChar char) n char
      rw [step_escape hesc]
      -- only the character that ends a sequence is answered
      cases hturn : Screen.turn c w.screen.seq.csi char with
      | drops =>
          rw [show Screen.turn c (w.screen.withChar char).seq.csi char = _ from hturn] at hfollows
          rw [reply_of_ne hesc (by rw [hturn]; decide), hfollows]
          rfl
      | runs =>
          rw [show Screen.turn c (w.screen.withChar char).seq.csi char = _ from hturn] at hfollows
          rw [reply_of_runs hesc hturn, show Screen.escapeAt c _ n char = _ from hfollows]
          refine (Screen.replies_ansi char (n + 1)).trans ?_
          cases ((w.screen.withChar char).stored n char).sequenceReply char <;> rfl
      | goesOn csi =>
          rw [show Screen.turn c (w.screen.withChar char).seq.csi char = _ from hturn] at hfollows
          obtain ⟨seq, heq, -⟩ := hfollows
          rw [reply_of_ne hesc (by rw [hturn]; exact fun h => by cases h), heq]
          rfl
  | none =>
      rw [reply_of_none hesc]
      by_cases hchar : char < 32
      · rw [step_control hesc hchar]
        cases hcontrol : ((w.screen.withChar char).putString c w.held).control c char with
        | none => rfl
        | some s =>
            rcases Screen.control_cases hcontrol with ⟨-, rfl⟩ | ⟨-, -, hkeeps⟩
            · rfl
            · exact hkeeps.2
      · rw [step_print hesc hchar]
        rfl

theorem run_replies (w : Writer κ) (bytes : List UInt8) :
    (run (step c) w bytes).screen.replies =
      (w.replyTexts c bytes).foldl InputBuffer.sprintf w.screen.replies := by
  induction bytes generalizing w with
  | nil => rfl
  | cons char rest ih => rw [run_cons, ih, replyTexts, List.foldl_append, step_replies]

theorem flush_replies : (w.flush c).replies = w.screen.replies := by
  unfold flush
  split_ifs <;> rfl

end Writer

namespace Screen

variable {κ : Type} {c : Console κ}

/-- The replies to the queries in what is written. -/
def replyTexts (c : Console κ) (s : Screen κ) (bytes : List UInt8) : List (List UInt8) :=
  Writer.replyTexts c ⟨s.renderWindow c, []⟩ bytes

theorem write_replies (s : Screen κ) (bytes : List UInt8) :
    (s.write c bytes).1.replies = (s.replyTexts c bytes).foldl InputBuffer.sprintf s.replies := by
  rw [Writer.write_eq, Writer.flush_replies, Writer.run_replies]
  rfl

end Screen

/-! ### The texts of the replies -/

theorem zero_not_mem_decimalAux (fuel n : Nat) : 0 ∉ decimalAux fuel n := by
  induction fuel generalizing n with
  | zero => exact List.not_mem_nil
  | succ fuel ih =>
      have hdigit : (0 : UInt8) ≠ UInt8.ofNat (48 + n % 10) := by
        intro h
        have hnat := congrArg UInt8.toNat h
        rw [UInt8.toNat_ofNat_of_lt' (show _ < 256 by omega)] at hnat
        exact absurd hnat (by show ¬ 0 = _; omega)
      rw [decimalAux, List.mem_append, not_or, List.mem_singleton]
      refine ⟨?_, hdigit⟩
      split_ifs
      · exact List.not_mem_nil
      · exact ih _

theorem zero_not_mem_decimal (n : Int) : 0 ∉ decimal n := by
  unfold decimal
  split_ifs
  · rw [List.mem_cons, not_or]
    exact ⟨by decide, zero_not_mem_decimalAux _ _⟩
  · exact zero_not_mem_decimalAux _ _

/-- A reply has bytes, and none of them is zero. -/
def IsReply (text : List UInt8) : Prop := text ≠ [] ∧ 0 ∉ text

namespace Screen

variable {κ : Type} {c : Console κ} {s : Screen κ}

theorem isReply_cursorReport (s : Screen κ) : IsReply s.cursorReport := by
  constructor
  · exact List.append_ne_nil_of_right_ne_nil _ (List.cons_ne_nil _ _)
  · unfold cursorReport
    simp only [List.mem_append, not_or]
    refine ⟨⟨⟨⟨by decide, zero_not_mem_decimal _⟩, by decide⟩, zero_not_mem_decimal _⟩, by decide⟩

theorem isReply_of_sequenceReply {char : UInt8} {text : List UInt8}
    (h : s.sequenceReply char = some text) : IsReply text := by
  unfold sequenceReply controlReply at h
  split_ifs at h
  · cases h
    exact ⟨List.cons_ne_nil _ _, by decide⟩
  · cases h
    exact isReply_cursorReport s

end Screen

namespace Writer

variable {κ : Type} {c : Console κ}

theorem isReply_of_mem {w : Writer κ} {bytes text : List UInt8}
    (h : text ∈ w.replyTexts c bytes) : IsReply text := by
  induction bytes generalizing w with
  | nil => exact absurd h List.not_mem_nil
  | cons char rest ih =>
      rw [replyTexts, List.mem_append, Option.mem_toList] at h
      rcases h with h | h
      · unfold reply at h
        split at h
        · split_ifs at h
          exact Screen.isReply_of_sequenceReply h
        · cases h
      · exact ih h

end Writer

/-! ### Printing behind what is pending -/

namespace InputBuffer

variable {b : InputBuffer} {reply : List UInt8}

/-- The next reply is printed right behind what is pending. -/
def InStep (b : InputBuffer) : Prop := b.index = b.pending.length

theorem pending_sprintf_eq (b : InputBuffer) (reply : List UInt8) :
    (b.sprintf reply).pending = text (poke (b.buf.drop b.input) b.index (reply ++ [0])) := by
  show text ((poke b.buf (b.input + b.index) (reply ++ [0])).drop b.input) = _
  rw [drop_poke_add]

theorem pending_sprintf (h : b.index ≤ b.pending.length) (hreply : IsReply reply) :
    (b.sprintf reply).pending = b.pending.take b.index ++ reply := by
  rw [pending_sprintf_eq]
  exact text_poke h hreply.2

theorem inStep_sprintf (h : b.index ≤ b.pending.length) (hreply : IsReply reply) :
    (b.sprintf reply).InStep := by
  rw [InStep, pending_sprintf h hreply, List.length_append, List.length_take,
    Nat.min_eq_left h]
  rfl

/-- Behind the zero a reply is not seen. -/
theorem pending_sprintf_of_lt (h : b.pending.length < b.index) :
    (b.sprintf reply).pending = b.pending := by
  rw [pending_sprintf_eq]
  exact text_poke_of_lt h _

variable {replies : List (List UInt8)}

/-- Replies that are printed in step are what is pending next. -/
theorem pending_replies (h : b.InStep) (hreplies : ∀ reply ∈ replies, IsReply reply) :
    (replies.foldl sprintf b).pending = b.pending ++ replies.flatten := by
  induction replies generalizing b with
  | nil => exact (List.append_nil _).symm
  | cons reply replies ih =>
      have hreply := hreplies reply List.mem_cons_self
      have hle : b.index ≤ b.pending.length := Nat.le_of_eq h
      rw [List.foldl_cons, ih (inStep_sprintf hle hreply) fun other hother =>
          hreplies other (List.mem_cons_of_mem _ hother),
        pending_sprintf hle hreply, List.take_of_length_le (Nat.le_of_eq h.symm), List.flatten_cons,
        List.append_assoc]

theorem pending_replies_of_lt (h : b.pending.length < b.index) :
    (replies.foldl sprintf b).pending = b.pending := by
  induction replies generalizing b with
  | nil => rfl
  | cons reply replies ih =>
      have hsame : (b.sprintf reply).pending = b.pending := pending_sprintf_of_lt h
      have hlt : (b.sprintf reply).pending.length < (b.sprintf reply).index := by
        rw [hsame]
        exact Nat.lt_of_lt_of_le h (Nat.le_add_right _ _)
      rw [List.foldl_cons, ih hlt, hsame]

/-- Replies are what is pending next only if they are printed in step. -/
theorem inStep_of_pending (hreplies : ∀ reply ∈ replies, IsReply reply) (hne : replies ≠ [])
    (h : (replies.foldl sprintf b).pending = b.pending ++ replies.flatten) : b.InStep := by
  have hlen := congrArg List.length h
  rw [List.length_append] at hlen
  cases replies with
  | nil => exact absurd rfl hne
  | cons reply replies =>
      have hreply := hreplies reply List.mem_cons_self
      have hpos : 0 < reply.length := List.length_pos_iff.mpr hreply.1
      rw [List.flatten_cons, List.length_append] at hlen
      rcases Nat.lt_trichotomy b.index b.pending.length with hlt | heq | hgt
      · -- The first reply overwrites what is pending.
        have hle := Nat.le_of_lt hlt
        rw [List.foldl_cons, pending_replies (inStep_sprintf hle hreply) fun other hother =>
            hreplies other (List.mem_cons_of_mem _ hother),
          pending_sprintf hle hreply, List.length_append, List.length_append, List.length_take,
          Nat.min_eq_left hle] at hlen
        omega
      · exact heq
      · rw [pending_replies_of_lt hgt] at hlen
        omega

/-- Replies are stored inside of the buffer if the last one is. -/
theorem inside_replies :
    (replies.foldl sprintf b).inside = true ↔
      b.inside = true ∧
        (replies = [] ∨ b.input + b.index + replies.flatten.length < inputBufSize) := by
  induction replies generalizing b with
  | nil => simp
  | cons reply replies ih =>
      have hinside : (b.sprintf reply).inside = true ↔
          b.inside = true ∧ b.input + b.index + reply.length < inputBufSize := by
        show (b.inside && decide _) = true ↔ _
        rw [Bool.and_eq_true, decide_eq_true_eq, Nat.succ_le_iff]
      have hindex : (b.sprintf reply).input + (b.sprintf reply).index =
          b.input + b.index + reply.length := (Nat.add_assoc _ _ _).symm
      rw [List.foldl_cons, ih, hinside, hindex, List.flatten_cons, List.length_append, and_assoc]
      refine and_congr_right fun _ => ⟨fun h => .inr ?_, fun h => ?_⟩
      · rcases h with ⟨hfirst, rfl | hrest⟩
        · exact hfirst
        · omega
      · have hall := h.resolve_left (List.cons_ne_nil _ _)
        exact ⟨by omega, .inr (by omega)⟩

end InputBuffer

end MinC.Vfs
