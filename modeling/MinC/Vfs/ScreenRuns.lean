import MinC.Vfs.Screen
import MinC.Lib.Runs

/-!
Writing in pieces.

The loop of `screen_write` is a machine that is fed one byte at a time, and
that is flushed at the end of the call. Its state is the screen and the run it
holds back. A call that starts in the middle of what is written finds a screen
whose run has been flushed and whose record has been read again; from the next
byte on, the two machines cannot be told apart but for the run, because the
record is not used before it is read once more. The one exception is a call
that writes nothing: there is no next byte, and the record stays as read.
-/

namespace MinC.Vfs

open MinC.Lib

/-- The state of the loop: the screen, and the run that is held back. -/
structure Writer (κ : Type) where
  screen : Screen κ
  held : List UInt8

namespace Writer

variable {κ : Type} (c : Console κ)

def flush (w : Writer κ) : Screen κ :=
  if w.held = [] then w.screen else w.screen.putString c w.held

def step (w : Writer κ) (char : UInt8) : Writer κ :=
  let s := w.screen.withChar char
  match s.escape with
  | some n => ⟨s.escapeAt c n char, []⟩
  | none =>
      if char < 32 then
        let s := s.putString c w.held
        match s.control c char with
        | some s => ⟨s, []⟩
        | none => ⟨s, [char]⟩
      else ⟨s, w.held ++ [char]⟩

end Writer

namespace Screen

variable {κ : Type} {c : Console κ} {s : Screen κ}

/-! ### The record -/

/-- The record as it is read from the console. -/
def record (c : Console κ) (k : κ) : ConsoleScreenBufferInfo :=
  let info := c.getScreenBufferInfo k
  { info with window := { info.window with left := 0, right := info.size.x - 1 } }

/-- The record is what would be read. -/
def Fresh (c : Console κ) (s : Screen κ) : Prop := s.info = record c s.con

theorem renderWindow_eq (c : Console κ) (s : Screen κ) :
    s.renderWindow c = s.withInfo (record c s.con) := rfl

theorem renderWindow_of_fresh (h : s.Fresh c) : s.renderWindow c = s := by
  rw [renderWindow_eq, ← h]
  rfl

theorem fresh_putString (s : Screen κ) (run : List UInt8) : (s.putString c run).Fresh c := rfl

theorem putString_nil (s : Screen κ) : s.putString c [] = s.renderWindow c := by
  unfold putString
  rw [c.writeFile_nil]

theorem putString_putString (s : Screen κ) (a b : List UInt8) :
    (s.putString c a).putString c b = s.putString c (a ++ b) := by
  have hcon : (s.putString c a).con = c.writeFile s.con a := rfl
  unfold putString
  rw [c.writeFile_append]
  rfl

/-! ### What leaves the collector alone -/

theorem escape_lineFeed : (s.lineFeed c).2.escape = s.escape := by
  unfold lineFeed
  dsimp only
  split_ifs <;> rfl

/-- A control character starts a sequence or leaves the collector alone. -/
theorem control_cases {char : UInt8} {s' : Screen κ} (h : s.control c char = some s') :
    (char = 27 ∧ s' = s.startEscape) ∨ (char ≠ 27 ∧ s'.escape = s.escape ∧ s.Keeps s') := by
  by_cases hesc : char = 27
  · subst hesc
    cases h
    exact .inl ⟨rfl, rfl⟩
  · right
    unfold control at h
    rw [if_neg hesc] at h
    split_ifs at h
    all_goals cases h
    · exact ⟨hesc, rfl, keeps_refl s⟩
    · exact ⟨hesc, rfl, keeps_refl s⟩
    · exact ⟨hesc, rfl, keeps_moveTo _⟩
    · exact ⟨hesc, escape_lineFeed, keeps_lineFeed⟩
    · exact ⟨hesc, rfl, keeps_carriageReturn⟩
    · exact ⟨hesc, rfl, keeps_withCon _⟩
    · exact ⟨hesc, rfl, keeps_withCon _⟩

theorem ne_escape_of_control {char : UInt8} (h : s.control c char = none) : char ≠ 27 := by
  rintro rfl
  cases h

/-- While a sequence goes on, nothing is done with the console. -/
theorem escapeAt_goes_on {n m : Nat} {char : UInt8}
    (h : (s.escapeAt c n char).escape = some m) :
    m = n + 1 ∧ (s.escapeAt c n char).con = s.con ∧ (s.escapeAt c n char).tty = s.tty := by
  have hfollows := follows_escapeAt (c := c) s n char
  cases hturn : turn c s.seq.csi char with
  | drops =>
      rw [hturn] at hfollows
      rw [show s.escapeAt c n char = _ from hfollows] at h
      cases h
  | runs =>
      rw [hturn] at hfollows
      rw [show s.escapeAt c n char = _ from hfollows] at h
      cases h
  | goesOn csi =>
      rw [hturn] at hfollows
      obtain ⟨seq, heq, -⟩ := hfollows
      rw [heq] at h ⊢
      cases h
      exact ⟨rfl, rfl, rfl⟩

end Screen

namespace Writer

variable {κ : Type} {c : Console κ}

/-- While a sequence goes on, no run is held back and the record is fresh. -/
def Settled (c : Console κ) (w : Writer κ) : Prop :=
  w.screen.escape ≠ none → w.held = [] ∧ w.screen.Fresh c

theorem settled_of_escape {w : Writer κ} (h : w.screen.escape = none) : w.Settled c :=
  fun hne => absurd h hne

theorem settled_renderWindow (s : Screen κ) : Settled c ⟨s.renderWindow c, []⟩ :=
  fun _ => ⟨rfl, rfl⟩

section
variable {w : Writer κ} {char : UInt8}

theorem step_escape {n : Nat} (h : w.screen.escape = some n) :
    w.step c char = ⟨(w.screen.withChar char).escapeAt c n char, []⟩ := by
  have hchar : (w.screen.withChar char).escape = some n := h
  unfold step
  dsimp only
  rw [hchar]

theorem step_print (h : w.screen.escape = none) (hchar : ¬ char < 32) :
    w.step c char = ⟨w.screen.withChar char, w.held ++ [char]⟩ := by
  have hesc : (w.screen.withChar char).escape = none := h
  unfold step
  dsimp only
  rw [hesc]
  exact if_neg hchar

theorem step_control (h : w.screen.escape = none) (hchar : char < 32) :
    w.step c char =
      match ((w.screen.withChar char).putString c w.held).control c char with
      | some s => ⟨s, []⟩
      | none => ⟨(w.screen.withChar char).putString c w.held, [char]⟩ := by
  have hesc : (w.screen.withChar char).escape = none := h
  unfold step
  dsimp only
  rw [hesc]
  exact if_pos hchar

theorem step_settled (hw : w.Settled c) : (w.step c char).Settled c := by
  cases hesc : w.screen.escape with
  | some n =>
      obtain ⟨-, hfresh⟩ := hw (by rw [hesc]; exact Option.some_ne_none n)
      rw [step_escape hesc]
      intro hne
      obtain ⟨m, hm⟩ := Option.ne_none_iff_exists'.mp hne
      obtain ⟨-, hcon, htty⟩ := Screen.escapeAt_goes_on hm
      refine ⟨rfl, ?_⟩
      unfold Screen.Fresh Screen.info
      rw [hcon, htty]
      exact hfresh
  | none =>
      by_cases hchar : char < 32
      · rw [step_control hesc hchar]
        cases hcontrol : ((w.screen.withChar char).putString c w.held).control c char with
        | none => exact settled_of_escape hesc
        | some s =>
            rcases Screen.control_cases hcontrol with ⟨-, rfl⟩ | ⟨-, hs, -⟩
            · exact fun _ => ⟨rfl, rfl⟩
            · exact settled_of_escape (hs.trans hesc)
      · rw [step_print hesc hchar]
        exact settled_of_escape hesc

end

/-- The loop of `screen_write` is the machine, flushed at the end. -/
theorem writeLoop_eq (w : Writer κ) (hw : w.Settled c) (rest : List UInt8) :
    w.screen.writeLoop c rest.length (w.held ++ rest) w.held.length =
      (run (step c) w rest).flush c := by
  induction rest generalizing w with
  | nil =>
      unfold flush
      rw [run_nil, List.append_nil, List.length_nil, Screen.writeLoop, List.take_length]
      cases w.held <;> rfl
  | cons char rest ih =>
      have hget : (w.held ++ char :: rest).getD w.held.length 0 = char := by simp
      have htake : (w.held ++ char :: rest).take w.held.length = w.held := by simp
      have hdrop : (w.held ++ char :: rest).drop w.held.length = char :: rest := by simp
      rw [List.length_cons, Screen.writeLoop, hget, htake, hdrop, run_cons]
      dsimp only
      have hnext := fun w' (hs : w.step c char = w') => ih w' (hs ▸ step_settled hw)
      -- within a sequence, at a control character, or at one that is held to be printed
      cases hesc : w.screen.escape with
      | some n =>
          obtain ⟨hheld, -⟩ := hw (by rw [hesc]; exact Option.some_ne_none n)
          have hstep : w.step c char = _ := step_escape hesc
          have hchar : (w.screen.withChar char).escape = some n := hesc
          rw [hchar, hstep, hheld]
          exact hnext _ hstep
      | none =>
          have hnone : (w.screen.withChar char).escape = none := hesc
          rw [hnone]
          by_cases hchar : char < 32
          · have hstep : w.step c char = _ := step_control hesc hchar
            rw [if_pos hchar]
            cases hcontrol : ((w.screen.withChar char).putString c w.held).control c char with
            | none =>
                rw [hcontrol] at hstep
                dsimp only at hstep
                rw [hstep]
                exact hnext _ hstep
            | some s =>
                rw [hcontrol] at hstep
                dsimp only at hstep
                rw [hstep]
                exact hnext _ hstep
          · have hstep : w.step c char = _ := step_print hesc hchar
            have hlist : w.held ++ char :: rest = (w.held ++ [char]) ++ rest := by simp
            have hlen : w.held.length + 1 = (w.held ++ [char]).length := by simp
            rw [if_neg hchar, hstep, hlist, hlen]
            exact hnext _ hstep

theorem write_eq (s : Screen κ) (buffer : List UInt8) :
    (s.write c buffer).1 = (run (step c) ⟨s.renderWindow c, []⟩ buffer).flush c := by
  unfold Screen.write
  rw [if_neg (screenMode_virtual _)]
  exact writeLoop_eq ⟨s.renderWindow c, []⟩ (settled_renderWindow s) buffer

/-! ### Two machines, one of which was flushed -/

/-- The second machine is the first one, but that part of the run the first
holds back has been printed. -/
def Flushed (c : Console κ) (w w' : Writer κ) : Prop :=
  ∃ run, w.held = run ++ w'.held ∧ w'.screen = w.screen.putString c run

theorem flushed_start (w : Writer κ) : Flushed c w ⟨w.screen.putString c w.held, []⟩ :=
  ⟨w.held, (List.append_nil _).symm, rfl⟩

/-- If no sequence goes on, the next byte is held back by both or makes them
the same. -/
theorem step_flushed {w w' : Writer κ} {char : UInt8} (hw : w.screen.escape = none)
    (h : Flushed c w w') :
    w.step c char = w'.step c char ∨
      ((w.step c char).screen.escape = none ∧ (w'.step c char).held ≠ [] ∧
        Flushed c (w.step c char) (w'.step c char)) := by
  obtain ⟨run, hheld, hscreen⟩ := h
  have hw' : w'.screen.escape = none := by rw [hscreen]; exact hw
  by_cases hchar : char < 32
  · left
    have hprint : (w.screen.withChar char).putString c w.held =
        (w'.screen.withChar char).putString c w'.held := by
      rw [hscreen, hheld, ← Screen.putString_putString]
      rfl
    rw [step_control hw hchar, step_control hw' hchar, hprint]
  · right
    rw [step_print hw hchar, step_print hw' hchar]
    refine ⟨hw, by simp, run, ?_, ?_⟩
    · show w.held ++ [char] = run ++ (w'.held ++ [char])
      rw [hheld, List.append_assoc]
    · show (w'.screen.withChar char) = (w.screen.withChar char).putString c run
      rw [hscreen]
      rfl

theorem flush_flushed {w w' : Writer κ} (h : Flushed c w w') (hne : w'.held ≠ []) :
    w.flush c = w'.flush c := by
  obtain ⟨run, hheld, hscreen⟩ := h
  have hne' : w.held ≠ [] := by
    rw [hheld]
    exact fun hnil => hne (List.append_eq_nil_iff.mp hnil).2
  unfold flush
  rw [if_neg hne, if_neg hne', hscreen, hheld, Screen.putString_putString]

/-- Two machines that hold back something of the same run end the same. -/
theorem run_flushed {w w' : Writer κ} (hw : w.screen.escape = none) (h : Flushed c w w')
    (hne : w'.held ≠ []) (rest : List UInt8) :
    (run (step c) w rest).flush c = (run (step c) w' rest).flush c := by
  induction rest generalizing w w' with
  | nil => exact flush_flushed h hne
  | cons char rest ih =>
      rw [run_cons, run_cons]
      rcases step_flushed hw h with heq | ⟨hesc, hheld, hflushed⟩
      · rw [heq]
      · exact ih hesc hflushed hheld

/-- A machine that goes on ends like one that starts again. -/
theorem run_restart {w : Writer κ} (hw : w.Settled c) (char : UInt8) (rest : List UInt8) :
    (run (step c) w (char :: rest)).flush c =
      (run (step c) ⟨(w.flush c).renderWindow c, []⟩ (char :: rest)).flush c := by
  have hstart : (w.flush c).renderWindow c = w.screen.putString c w.held := by
    unfold flush
    split_ifs with hheld
    · rw [hheld, Screen.putString_nil]
    · exact Screen.renderWindow_of_fresh (Screen.fresh_putString _ _)
  rw [hstart]
  cases hesc : w.screen.escape with
  | some n =>
      obtain ⟨hheld, hfresh⟩ := hw (by rw [hesc]; exact Option.some_ne_none n)
      rw [hheld, Screen.putString_nil, Screen.renderWindow_of_fresh hfresh, ← hheld]
  | none =>
      rw [run_cons, run_cons]
      rcases step_flushed hesc (flushed_start w) with heq | ⟨hnone, hne, hflushed⟩
      · rw [heq]
      · exact run_flushed hnone hflushed hne rest

theorem run_settled {w : Writer κ} (hw : w.Settled c) (bytes : List UInt8) :
    (run (step c) w bytes).Settled c :=
  run_invariant (I := Settled c) (fun _ _ h => step_settled h) hw bytes

end Writer

namespace Screen

variable {κ : Type} (c : Console κ)

/-- Two calls do what one call with all the bytes does, and a call without
bytes reads the record again. -/
theorem write_append (s : Screen κ) (a b : List UInt8) :
    ((s.write c a).1.write c b).1 =
      if b = [] then (s.write c (a ++ b)).1.renderWindow c else (s.write c (a ++ b)).1 := by
  have hwhole : (s.write c (a ++ b)).1 =
      (run (Writer.step c) (run (Writer.step c) ⟨s.renderWindow c, []⟩ a) b).flush c := by
    rw [Writer.write_eq, run, run, run, List.foldl_append]
  cases b with
  | nil =>
      rw [if_pos rfl, hwhole, Writer.write_eq, Writer.write_eq]
      rfl
  | cons char rest =>
      have hsettled : (run (Writer.step c) ⟨s.renderWindow c, []⟩ a).Settled c :=
        Writer.run_settled (Writer.settled_renderWindow s) a
      rw [if_neg (List.cons_ne_nil _ _), hwhole, Writer.run_restart hsettled, Writer.write_eq,
        Writer.write_eq s a]

end Screen

/-! ### A console that keeps what it is told -/

structure Store where
  info : ConsoleScreenBufferInfo
  cells : Coord → UInt8 × UInt16
  mode : UInt32
  visible : Bool
  codePage : UInt32

namespace Store

def put (k : Store) (char : UInt8) : Store :=
  let pos := k.info.cursorPosition
  { k with
    cells := Function.update k.cells pos (char, k.info.attributes)
    info := { k.info with
      cursorPosition :=
        if pos.x = k.info.size.x - 1 then { x := 0, y := pos.y + 1 } else { pos with x := pos.x + 1 } } }

def within (rect : SmallRect) (pos : Coord) : Bool :=
  rect.left ≤ pos.x && pos.x ≤ rect.right && rect.top ≤ pos.y && pos.y ≤ rect.bottom

/-- The cells of a rectangle are moved, and those it leaves are filled. -/
def scroll (k : Store) (rect : SmallRect) (clip : Option SmallRect) (dest : Coord)
    (fill : UInt8 × UInt16) : Store :=
  let dx := dest.x - rect.left
  let dy := dest.y - rect.top
  { k with cells := fun pos =>
      let source : Coord := { x := pos.x - dx, y := pos.y - dy }
      if clip.any (fun r => !within r pos) then k.cells pos
      else if within rect source then k.cells source
      else if within rect pos then fill
      else k.cells pos }

/-- The place of a cell in the order that the screen is filled in. -/
def place (k : Store) (pos : Coord) : Int := pos.y.toInt * k.info.size.x.toInt + pos.x.toInt

def fill (k : Store) (cell : UInt8 × UInt16 → UInt8 × UInt16) (size : UInt32) (start : Coord) :
    Store :=
  { k with cells := fun pos =>
      if k.place start ≤ k.place pos ∧ k.place pos < k.place start + size.toNat
      then cell (k.cells pos) else k.cells pos }

def console : Console Store where
  getScreenBufferInfo := info
  writeFile := fun k bytes => bytes.foldl put k
  printf := fun k bytes => bytes.foldl put k
  setCursorPosition := fun k pos =>
    (true, { k with info := { k.info with cursorPosition := pos } })
  setTextAttribute := fun k attributes =>
    (true, { k with info := { k.info with attributes := attributes &&& 0xFF } })
  scrollScreenBuffer := fun k rect clip dest cell => (true, k.scroll rect clip dest cell)
  fillOutputAttribute := fun k attributes size start =>
    k.fill (fun cell => (cell.1, attributes)) size start
  fillOutputCharacter := fun k char size start =>
    (true, k.fill (fun cell => (char, cell.2)) size start)
  getMode := fun k => some k.mode
  setMode := fun k mode => (true, { k with mode := mode })
  setCursorInfo := fun k visible => (true, { k with visible := visible })
  setOutputCP := fun k codePage => (true, { k with codePage := codePage })
  acp := 1252
  oemcp := 437
  isCharAlpha := fun char => (65 ≤ char && char ≤ 90) || (97 ≤ char && char ≤ 122)
  isCharAlphaNumeric := fun char =>
    (48 ≤ char && char ≤ 57) || (65 ≤ char && char ≤ 90) || (97 ≤ char && char ≤ 122)
  writeFile_nil := fun _ => rfl
  writeFile_append := fun _ _ _ => List.foldl_append

/-- An empty screen of 80 columns and 25 rows. -/
def empty : Store where
  info :=
    { size := { x := 80, y := 25 }
      cursorPosition := { x := 0, y := 0 }
      attributes := 7
      window := { left := 0, top := 0, right := 79, bottom := 24 } }
  cells := fun _ => (32, 7)
  mode := 3
  visible := true
  codePage := 437

end Store

def Screen.start : Screen Store :=
  Screen.boot Store.empty
    { oFlags := 3
      scrollRate := 1
      vEdit := false
      cursor := { x := 0, y := 0 }
      info := Store.empty.info }

/-- An empty screen of so many columns, with the cursor in a cell. -/
def Screen.startAt (columns : Int16) (cursor : Coord) : Screen Store :=
  let info :=
    { Store.empty.info with
      size := { x := columns, y := 25 }
      cursorPosition := cursor
      window := { left := 0, top := 0, right := columns - 1, bottom := 24 } }
  Screen.boot { Store.empty with info := info }
    { oFlags := 3
      scrollRate := 1
      vEdit := false
      cursor := cursor
      info := info }

/-- Writing `ESC [ 2 ; 5 r` and then nothing loses the margins. -/
theorem write_nil_loses_margins :
    ((Screen.start.write Store.console [27, 91, 50, 59, 53, 114]).1.write Store.console []).1 ≠
      (Screen.start.write Store.console ([27, 91, 50, 59, 53, 114] ++ [])).1 := by
  intro h
  have htop := congrArg (fun s : Screen Store => s.info.window.top) h
  exact absurd htop (by decide)

end MinC.Vfs
