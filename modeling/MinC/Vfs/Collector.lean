import MinC.Vfs.ScreenRuns
import Mathlib.Data.List.Induction

/-!
The bounds of the escape collector.

How many bytes of a sequence have been collected is a matter of the bytes
alone: of a sequence, only the introducer decides which byte ends it. What the
collector stores is within its buffer exactly as long as no sequence is longer
than the buffer, where one that is rejected needs one more byte for the zero it
is ended with. Nothing in the collector sees to that.
-/

namespace MinC.Vfs

open MinC.Lib

/-- The introducer of the sequence that goes on, and how many bytes of it there
are. -/
def collect {κ : Type} (c : Console κ) : Option (UInt8 × Nat) → UInt8 → Option (UInt8 × Nat)
  | none, char => if char = 27 then some (0, 0) else none
  | some (csi, n), char =>
      match Screen.turn c csi char with
      | .goesOn csi => some (csi, n + 1)
      | _ => none

/-- The sequence that goes on after the bytes. -/
def collected {κ : Type} (c : Console κ) (bytes : List UInt8) : Option (UInt8 × Nat) :=
  run (collect c) none bytes

namespace Screen

variable {κ : Type} {c : Console κ} {s : Screen κ}

/-- The byte ends the sequence, and the emulator does nothing with it. -/
def Rejects (c : Console κ) (s : Screen κ) (n : Nat) (char : UInt8) : Prop :=
  turn c s.seq.csi char = .runs ∧
    (((s.withChar char).stored n char).ansiSequence c char (n + 1)).1 = false

/-- The bytes that a byte of a sequence makes the collector store are within
its buffer. -/
def Room (c : Console κ) (s : Screen κ) (n : Nat) (char : UInt8) : Prop :=
  n < ansiBufSize ∧ (Rejects c s n char → n + 1 < ansiBufSize)

/-- What the collector shows of a state. -/
def Shows (s : Screen κ) (q : Option (UInt8 × Nat)) : Prop :=
  s.escape = q.map Prod.snd ∧ ∀ csi n, q = some (csi, n) → s.seq.csi = csi

theorem inside_ansi (char : UInt8) (size : Nat) :
    (s.ansi c char size).seq.inside = true ↔
      s.seq.inside = true ∧ ((s.ansiSequence c char size).1 = false → size < ansiBufSize) := by
  have hseq : (s.ansiSequence c char size).2.seq = s.seq := (replies_ansiSequence char size).1
  unfold ansi
  cases hresult : (s.ansiSequence c char size).1 with
  | true =>
      simp only [hresult, if_true]
      rw [hseq]
      exact ⟨fun h => ⟨h, fun h' => by cases h'⟩, fun h => h.1⟩
  | false =>
      simp only [hresult, Bool.false_eq_true, if_false]
      show ((s.ansiSequence c char size).2.seq.inside && decide (size < ansiBufSize)) = true ↔ _
      rw [hseq, Bool.and_eq_true, decide_eq_true_eq]
      exact and_congr_right fun _ => ⟨fun h _ => h, fun h => h trivial⟩

theorem inside_stored (n : Nat) (char : UInt8) :
    (s.stored n char).seq.inside = true ↔ s.seq.inside = true ∧ n < ansiBufSize := by
  show (s.seq.inside && decide (n < ansiBufSize)) = true ↔ _
  rw [Bool.and_eq_true, decide_eq_true_eq]

theorem inside_escapeAt (n : Nat) (char : UInt8) :
    ((s.withChar char).escapeAt c n char).seq.inside = true ↔
      s.seq.inside = true ∧ Room c s n char := by
  have hfollows := follows_escapeAt (c := c) (s.withChar char) n char
  have hstored := inside_stored (s := s.withChar char) n char
  unfold Room Rejects
  cases hturn : turn c s.seq.csi char with
  | drops =>
      rw [show turn c (s.withChar char).seq.csi char = _ from hturn] at hfollows
      rw [show (s.withChar char).escapeAt c n char = _ from hfollows]
      exact hstored.trans (and_congr_right fun _ => ⟨fun h => ⟨h, fun h' => by cases h'.1⟩, And.left⟩)
  | runs =>
      rw [show turn c (s.withChar char).seq.csi char = _ from hturn] at hfollows
      rw [show (s.withChar char).escapeAt c n char = _ from hfollows, inside_ansi, hstored,
        and_assoc]
      exact and_congr_right fun _ => and_congr_right fun _ =>
        ⟨fun h h' => h h'.2, fun h h' => h ⟨rfl, h'⟩⟩
  | goesOn csi =>
      rw [show turn c (s.withChar char).seq.csi char = _ from hturn] at hfollows
      obtain ⟨seq, heq, -, hinside⟩ := hfollows
      rw [heq]
      show seq.inside = true ↔ _
      rw [hinside]
      exact hstored.trans (and_congr_right fun _ => ⟨fun h => ⟨h, fun h' => by cases h'.1⟩, And.left⟩)

theorem shows_escapeAt {csi : UInt8} {n : Nat} {char : UInt8} (hcsi : s.seq.csi = csi) :
    Shows ((s.withChar char).escapeAt c n char) (collect c (some (csi, n)) char) := by
  have hfollows := follows_escapeAt (c := c) (s.withChar char) n char
  rw [show (s.withChar char).seq.csi = csi from hcsi] at hfollows
  show Shows _ (match turn c csi char with
    | .goesOn csi => some (csi, n + 1)
    | _ => none)
  cases hturn : turn c csi char with
  | drops =>
      rw [hturn] at hfollows
      rw [show (s.withChar char).escapeAt c n char = _ from hfollows]
      exact ⟨rfl, fun _ _ h => by cases h⟩
  | runs =>
      rw [hturn] at hfollows
      rw [show (s.withChar char).escapeAt c n char = _ from hfollows]
      exact ⟨rfl, fun _ _ h => by cases h⟩
  | goesOn csi' =>
      rw [hturn] at hfollows
      obtain ⟨seq, heq, hseq, -⟩ := hfollows
      rw [heq]
      refine ⟨rfl, fun csi'' n' h => ?_⟩
      cases h
      exact hseq

end Screen

namespace Writer

variable {κ : Type} {c : Console κ} {w : Writer κ}

/-- The byte finds room in the collector, if a sequence goes on. -/
def Room (c : Console κ) (w : Writer κ) (char : UInt8) : Prop :=
  ∀ n, w.screen.escape = some n → w.screen.Room c n char

theorem step_inside (w : Writer κ) (char : UInt8) :
    (w.step c char).screen.seq.inside = true ↔
      w.screen.seq.inside = true ∧ w.Room c char := by
  unfold Room
  cases hesc : w.screen.escape with
  | some n =>
      rw [step_escape hesc, Screen.inside_escapeAt]
      refine and_congr_right fun _ => ⟨fun h n' hn => ?_, fun h => h n rfl⟩
      cases hn
      exact h
  | none =>
      have hroom : ∀ n, none = some n → Screen.Room c w.screen n char := fun n h => by cases h
      rw [and_iff_left hroom]
      by_cases hchar : char < 32
      · rw [step_control hesc hchar]
        cases hcontrol : ((w.screen.withChar char).putString c w.held).control c char with
        | none => exact Iff.rfl
        | some s =>
            rcases Screen.control_cases hcontrol with ⟨-, rfl⟩ | ⟨-, -, hkeeps⟩
            · exact Iff.rfl
            · show s.seq.inside = true ↔ _
              rw [hkeeps.1]
              exact Iff.rfl
      · rw [step_print hesc hchar]
        exact Iff.rfl

theorem step_shows {q : Option (UInt8 × Nat)} (hw : w.screen.Shows q) (char : UInt8) :
    (w.step c char).screen.Shows (collect c q char) := by
  obtain ⟨hescape, hcsi⟩ := hw
  cases q with
  | some open' =>
      obtain ⟨csi, n⟩ := open'
      rw [step_escape hescape]
      exact Screen.shows_escapeAt (hcsi csi n rfl)
  | none =>
      have hnone : ∀ s : Screen κ, s.escape = none → char ≠ 27 →
          s.Shows (collect c none char) := by
        intro s hs hne
        rw [show collect c none char = none from if_neg hne]
        exact ⟨hs, fun _ _ h => by cases h⟩
      by_cases hchar : char < 32
      · rw [step_control hescape hchar]
        cases hcontrol : ((w.screen.withChar char).putString c w.held).control c char with
        | none => exact hnone _ hescape (Screen.ne_escape_of_control hcontrol)
        | some s =>
            rcases Screen.control_cases hcontrol with ⟨rfl, rfl⟩ | ⟨hne, hs, -⟩
            · refine ⟨rfl, fun csi n h => ?_⟩
              cases h
              rfl
            · exact hnone _ (hs.trans hescape) hne
      · rw [step_print hescape hchar]
        refine hnone _ hescape ?_
        rintro rfl
        exact hchar (by decide)

theorem run_shows {q : Option (UInt8 × Nat)} (hw : w.screen.Shows q) (bytes : List UInt8) :
    (run (step c) w bytes).screen.Shows (run (collect c) q bytes) := by
  induction bytes generalizing w q with
  | nil => exact hw
  | cons char bytes ih => exact ih (step_shows hw char)

/-- While a sequence goes on, flushing does nothing. -/
theorem flush_of_escape {n : Nat} (hw : w.Settled c) (h : w.screen.escape = some n) :
    w.flush c = w.screen := by
  obtain ⟨hheld, -⟩ := hw (by rw [h]; exact Option.some_ne_none n)
  unfold flush
  rw [if_pos hheld]

theorem flush_seq (w : Writer κ) : (w.flush c).seq = w.screen.seq := by
  unfold flush
  split_ifs <;> rfl

end Writer

namespace Screen

variable {κ : Type} {c : Console κ}

/-- Any number of calls. -/
def writeAll (c : Console κ) (s : Screen κ) (chunks : List (List UInt8)) : Screen κ :=
  chunks.foldl (fun s chunk => (s.write c chunk).1) s

theorem write_renderWindow (s : Screen κ) (bytes : List UInt8) :
    ((s.renderWindow c).write c bytes).1 = (s.write c bytes).1 := by
  rw [Writer.write_eq, Writer.write_eq]
  rfl

/-- Any number of calls do what one call with all the bytes does, but for the
record that the last one may have read. -/
theorem writeAll_renderWindow (s : Screen κ) (chunks : List (List UInt8)) :
    (s.writeAll c chunks).renderWindow c = ((s.write c chunks.flatten).1).renderWindow c := by
  induction chunks using List.reverseRecOn with
  | nil =>
      rw [List.flatten_nil, Writer.write_eq]
      rfl
  | append_singleton chunks chunk ih =>
      have hlast : s.writeAll c (chunks ++ [chunk]) =
          ((s.writeAll c chunks).write c chunk).1 := by
        unfold writeAll
        rw [List.foldl_append]
        rfl
      rw [hlast, ← write_renderWindow, ih, write_renderWindow, write_append,
        List.flatten_append, List.flatten_singleton]
      split_ifs <;> rfl

theorem writeAll_seq (s : Screen κ) (chunks : List (List UInt8)) :
    (s.writeAll c chunks).seq = (s.write c chunks.flatten).1.seq := by
  have h := congrArg Screen.seq (writeAll_renderWindow (c := c) s chunks)
  exact h

section
variable (c : Console κ) (con : κ) (tty : Tty)

/-- The machine of a process that has written nothing. -/
def bootWriter : Writer κ := ⟨(boot con tty).renderWindow c, []⟩

theorem shows_bootWriter (before : List UInt8) :
    (run (Writer.step c) (bootWriter c con tty) before).screen.Shows (collected c before) :=
  Writer.run_shows ⟨rfl, fun _ _ h => by cases h⟩ before

/-- All stores of the collector are within its buffer exactly when each byte
finds room. -/
theorem inside_iff_room (chunks : List (List UInt8)) :
    ((boot con tty).writeAll c chunks).seq.inside = true ↔
      Along (Writer.step c) (Writer.Room c) (bootWriter c con tty) chunks.flatten := by
  have hflag := run_flag (I := fun w : Writer κ => w.screen.seq.inside = true)
    (Writer.step_inside (c := c)) (s := bootWriter c con tty) chunks.flatten
  rw [writeAll_seq, Writer.write_eq, Writer.flush_seq]
  exact hflag.trans (and_iff_right rfl)

/-- However the bytes are written, all stores of the collector are within its
buffer exactly when no sequence grows longer than it. -/
theorem inside_iff (chunks : List (List UInt8)) :
    ((boot con tty).writeAll c chunks).seq.inside = true ↔
      ∀ before char after csi n, chunks.flatten = before ++ char :: after →
        collected c before = some (csi, n) →
          n < ansiBufSize ∧
            (Rejects c ((boot con tty).write c before).1 n char → n + 1 < ansiBufSize) := by
  have hshows := shows_bootWriter c con tty
  have hscreen : ∀ before n,
      (run (Writer.step c) (bootWriter c con tty) before).screen.escape = some n →
      ((boot con tty).write c before).1 =
        (run (Writer.step c) (bootWriter c con tty) before).screen := by
    intro before n hn
    rw [Writer.write_eq]
    exact Writer.flush_of_escape
      (Writer.run_settled (Writer.settled_renderWindow _) before) hn
  rw [inside_iff_room, along_iff_split]
  constructor
  · intro h before char after csi n heq hcollected
    have hescape : (run (Writer.step c) (bootWriter c con tty) before).screen.escape = some n := by
      rw [(hshows before).1, hcollected]
      rfl
    rw [hscreen before n hescape]
    exact h before char after heq n hescape
  · intro h before char after heq n hescape
    have hsome := hescape
    rw [(hshows before).1] at hsome
    obtain ⟨⟨csi, n'⟩, hcollected, rfl⟩ := Option.map_eq_some_iff.mp hsome
    have hroom := h before char after csi n' heq hcollected
    rw [hscreen before _ hescape] at hroom
    exact hroom

end

end Screen

theorem collect_title (n k : Nat) :
    run (collect Store.console) (some (93, n)) (List.replicate k 97) = some (93, n + k) := by
  induction k generalizing n with
  | zero => rfl
  | succ k ih =>
      rw [List.replicate_succ, run_cons,
        show collect Store.console (some (93, n)) 97 = some (93, n + 1) from rfl, ih]
      congr 2
      omega

theorem split_title (k : Nat) :
    [27 :: 93 :: List.replicate (k + 1) (97 : UInt8)].flatten =
      (27 :: 93 :: List.replicate k 97) ++ 97 :: [] := by
  rw [List.flatten_singleton, List.replicate_succ']
  rfl

/-- The introducer and `k` letters are in the buffer when the next letter is
stored behind them. -/
theorem title_room {k : Nat}
    (h : (Screen.start.writeAll Store.console
      [27 :: 93 :: List.replicate (k + 1) 97]).seq.inside = true) :
    k + 1 < ansiBufSize := by
  have hstart : Screen.start = Screen.boot Store.empty Screen.start.tty := rfl
  rw [hstart, Screen.inside_iff_room, along_iff_split] at h
  have hroom := h _ _ _ (split_title k)
  have hshows := Screen.shows_bootWriter Store.console Store.empty
    Screen.start.tty (27 :: 93 :: List.replicate k 97)
  have hcollected : collected Store.console (27 :: 93 :: List.replicate k 97) =
      some (93, 1 + k) := collect_title 1 k
  rw [hcollected] at hshows
  have hlt := (hroom (1 + k) hshows.1).1
  omega

/-- `ESC ]` and 128 letters, which are ignored and collected. -/
theorem long_title_overruns :
    ¬ (Screen.start.writeAll Store.console
      [27 :: 93 :: List.replicate (127 + 1) 97]).seq.inside = true :=
  fun h => absurd (title_room h) (by decide)

end MinC.Vfs
