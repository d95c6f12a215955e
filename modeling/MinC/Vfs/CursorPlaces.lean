import MinC.Vfs.ControlSequence

/-!
Where the cursor is put.

A row and a column are numbers from one on, counted from the corner of the
window. `CUP` and `HVP` take the row from the register that a semicolon fills,
and the column from what is behind it, so a single parameter is a column to
them. `CHA` puts the cursor in a column; `VPA` takes its parameter off the row
that the cursor is in.
-/

namespace MinC.Vfs

open MinC.Lib

/-! ### Numbers of 16 bits -/

/-- What is left of a number in 16 bits with a sign. -/
def wrap16 (n : Int) : Int := (n + 0x8000) % 0x10000 - 0x8000

theorem bmod_eq_wrap16 (n : Int) : n.bmod 65536 = wrap16 n := by
  rw [Int.bmod_def, wrap16]
  split_ifs <;> omega

theorem toInt_word (n : Int) : (word n).toInt16.toInt = wrap16 n := by
  have h : (word n).toInt16 = Int16.ofInt n := by
    apply Int16.toBitVec.inj
    apply BitVec.eq_of_toNat_eq
    show (UInt16.ofNat (n % 2 ^ 16).toNat).toNat = (BitVec.ofInt 16 n).toNat
    rw [BitVec.toNat_ofInt, UInt16.toNat_ofNat']
    omega
  rw [h, ← bmod_eq_wrap16]
  exact Int16.toInt_ofInt

theorem toInt_add (a b : Int16) : (a + b).toInt = wrap16 (a.toInt + b.toInt) :=
  (Int16.toInt_add a b).trans (bmod_eq_wrap16 _)

theorem toInt_sub (a b : Int16) : (a - b).toInt = wrap16 (a.toInt - b.toInt) :=
  (Int16.toInt_sub a b).trans (bmod_eq_wrap16 _)

theorem toInt_bounds (a : Int16) : -0x8000 ≤ a.toInt ∧ a.toInt < 0x8000 :=
  ⟨Int16.le_toInt a, Int16.toInt_lt a⟩

/-- A number of a coordinate, as it is written in a sequence. -/
theorem decimal_spec {n : Nat} (hpos : 1 ≤ n) (hn : n < 0x8000) :
    Numeral (decimal n) ∧ number (decimal n) = n ∧ (decimal n).length ≤ 20 := by
  obtain ⟨hnumeral, hdigits, hlen⟩ := decimalAux_spec 20 n (Nat.lt_of_lt_of_le hn (by decide))
  rw [decimal_natCast]
  refine ⟨hnumeral, ?_, hlen⟩
  rw [number, hdigits, if_neg (by omega)]
  omega

/-! ### What a console does with a position -/

def OnScreen (size pos : Coord) : Prop :=
  0 ≤ pos.x ∧ pos.x < size.x ∧ 0 ≤ pos.y ∧ pos.y < size.y

instance decidableOnScreen (size pos : Coord) : Decidable (OnScreen size pos) :=
  inferInstanceAs (Decidable (0 ≤ pos.x ∧ pos.x < size.x ∧ 0 ≤ pos.y ∧ pos.y < size.y))

/-- A console has its cursor where it was last put on the screen. What it does
with a position that is not on the screen is not said, nor whether it moves its
window. -/
structure Console.MovesCursor {κ : Type} (c : Console κ) : Prop where
  setCursorPosition : ∀ k pos, OnScreen (c.getScreenBufferInfo k).size pos →
    (c.setCursorPosition k pos).1 = true ∧
      (c.getScreenBufferInfo (c.setCursorPosition k pos).2).cursorPosition = pos ∧
      (c.getScreenBufferInfo (c.setCursorPosition k pos).2).size = (c.getScreenBufferInfo k).size

/-- The rows of the window are on the screen, and so is the cursor. -/
structure ConsoleScreenBufferInfo.Sound (info : ConsoleScreenBufferInfo) : Prop where
  top : 0 ≤ info.window.top
  rows : info.window.top ≤ info.window.bottom
  bottom : info.window.bottom < info.size.y
  cursor : OnScreen info.size info.cursorPosition

namespace Screen

variable {κ : Type} {c : Console κ} {s u : Screen κ}

/-- The cell in a row and a column of a window. -/
def cell (window : SmallRect) (y x : Int) : Coord where
  x := window.left + ((word x).toInt16 - 1)
  y := window.top + ((word y).toInt16 - 1)

/-- The window as the emulator reads it. -/
def window (c : Console κ) (s : Screen κ) : SmallRect := (record c s.con).window

/-- The cursor of the console. -/
def cursor (c : Console κ) (s : Screen κ) : Coord :=
  (c.getScreenBufferInfo s.con).cursorPosition

/-- Both the emulator and the console have the cursor there. -/
def At (c : Console κ) (pos : Coord) (s : Screen κ) : Prop :=
  s.info.cursorPosition = pos ∧ (c.getScreenBufferInfo s.con).cursorPosition = pos

/-- The emulator has the cursor there, and so has the console if the position
is on its screen. -/
structure Moves (c : Console κ) (s : Screen κ) (pos : Coord) (s' : Screen κ) : Prop where
  info : s'.info.cursorPosition = pos
  con : OnScreen (c.getScreenBufferInfo s.con).size pos → s'.At c pos
  size : OnScreen (c.getScreenBufferInfo s.con).size pos →
    (c.getScreenBufferInfo s'.con).size = (c.getScreenBufferInfo s.con).size

/-- A sequence that moves the cursor. -/
theorem ansi_moveTo (hc : c.MovesCursor) {p : List UInt8} {ps : List (List UInt8)} {char : UInt8}
    (hu : Ready s p ps char u) {size : Nat} {pos : Coord}
    (hcontrol : u.ansiControl c char size = u.moveTo c pos) :
    s.Moves c pos (u.ansi c char size) := by
  have hsequence : u.ansiSequence c char size = u.moveTo c pos :=
    hu.ansiSequence.trans hcontrol
  have hinfo : (u.ansi c char size).info.cursorPosition = pos := by
    show (u.ansi c char size).tty.info.cursorPosition = pos
    rw [tty_ansi, hsequence]
    rfl
  have hcon : OnScreen (c.getScreenBufferInfo s.con).size pos →
      (u.ansi c char size).con = (c.setCursorPosition s.con pos).2 := by
    intro hon
    have haccepted : (u.ansiSequence c char size).1 = true := by
      rw [hsequence]
      show (c.setCursorPosition u.con pos).1 = true
      rw [hu.con]
      exact (hc.setCursorPosition s.con pos hon).1
    rw [ansi_of_done haccepted, hsequence]
    show (c.setCursorPosition u.con pos).2 = _
    rw [hu.con]
  refine ⟨hinfo, fun hon => ⟨hinfo, ?_⟩, fun hon => ?_⟩
  · rw [hcon hon]
    exact (hc.setCursorPosition s.con pos hon).2.1
  · rw [hcon hon]
    exact (hc.setCursorPosition s.con pos hon).2.2

/-- A call that writes a sequence that moves the cursor. -/
theorem write_moveTo (ha : c.Ascii) (hc : c.MovesCursor) (hs : s.escape = none) {p : List UInt8}
    {ps : List (List UInt8)} (hp : Numeral p) (hps : ∀ q ∈ ps, Numeral q) {char : UInt8}
    (hchar : isLetter char = true) {pos : Coord}
    (h : ∀ u, Ready (s.renderWindow c) p ps char u →
      u.ansiControl c char (sequenceSize p ps) = u.moveTo c pos) :
    s.Moves c pos (s.write c (controlSequence p ps char)).1 := by
  obtain ⟨u, hwrite, hu⟩ := write_controlSequence ha hs hp hps hchar
  have hmoves := ansi_moveTo hc hu (h u hu)
  rw [hwrite]
  exact ⟨hmoves.info, hmoves.con, hmoves.size⟩

theorem info_ready {p : List UInt8} {ps : List (List UInt8)} {char : UInt8}
    (hu : Ready (s.renderWindow c) p ps char u) : u.info = record c s.con :=
  congrArg Tty.info hu.tty

/-- A cursor on the screen is not behind the right edge. -/
theorem ansiRenderCursor_of_onScreen
    (hon : OnScreen (c.getScreenBufferInfo s.con).size (s.cursor c))
    (hinfo : u.info = record c s.con) : u.ansiRenderCursor = s.cursor c := by
  obtain ⟨hx, hwidth, -, -⟩ := hon
  have hright : ¬ (record c s.con).window.right < (record c s.con).cursorPosition.x := by
    show ¬ (c.getScreenBufferInfo s.con).size.x - 1 < (s.cursor c).x
    rw [Int16.lt_iff_toInt_lt] at hwidth
    rw [Int16.le_iff_toInt_le] at hx
    have hsize := toInt_bounds (c.getScreenBufferInfo s.con).size.x
    rw [Int16.lt_iff_toInt_lt, toInt_sub]
    change (0 : Int) ≤ _ at hx
    change ¬ wrap16 ((c.getScreenBufferInfo s.con).size.x.toInt - 1) < _
    unfold wrap16
    omega
  unfold ansiRenderCursor
  rw [hinfo, if_neg hright]
  rfl

/-! ### What the sequences do -/

section

variable (ha : c.Ascii) (hc : c.MovesCursor) (hs : s.escape = none)

include ha hc hs

/-- `CUP` and `HVP`. -/
theorem write_ansiCursorPosition {p : List UInt8} {ps : List (List UInt8)} (hp : Numeral p)
    (hps : ∀ q ∈ ps, Numeral q) {char : UInt8} (hchar : char = 72 ∨ char = 102) :
    s.Moves c (cell (s.window c) (firstArgument 1 p ps) (number (lastParameter p ps)))
      (s.write c (controlSequence p ps char)).1 := by
  refine write_moveTo ha hc hs hp hps (by rcases hchar with rfl | rfl <;> rfl) fun u hu => ?_
  have hcontrol : u.ansiControl c char (sequenceSize p ps) =
      u.ansiCursorPosition c (word u.seq.arg1) (word u.argsToInt) := by
    rcases hchar with rfl | rfl <;> rfl
  rw [hcontrol, hu.arg1, hu.args]
  unfold ansiCursorPosition cell
  rw [info_ready hu, Int16.add_comm (_ - 1) (record c s.con).window.top]
  congr 2
  exact (Int16.zero_add _).symm

variable (hon : OnScreen (c.getScreenBufferInfo s.con).size (s.cursor c))

include hon

/-- `VPA`, which takes the number off the row. -/
theorem write_ansiVerticalPositionAbsolute {p : List UInt8} (hp : Numeral p) :
    s.Moves c { s.cursor c with y := (s.cursor c).y - (word (number p)).toInt16 }
      (s.write c (controlSequence p [] 100)).1 := by
  refine write_moveTo ha hc hs hp (fun q hq => absurd hq List.not_mem_nil) (by decide)
    fun u hu => ?_
  show u.ansiVerticalPositionAbsolute c (word u.argsToInt) = _
  rw [hu.args]
  unfold ansiVerticalPositionAbsolute
  rw [ansiRenderCursor_of_onScreen hon (info_ready hu)]
  rfl

/-- `CHA`. -/
theorem write_ansiCursorHorizontalAbsolute {p : List UInt8} (hp : Numeral p) :
    s.Moves c { s.cursor c with x := (word (number p)).toInt16 - 1 }
      (s.write c (controlSequence p [] 71)).1 := by
  refine write_moveTo ha hc hs hp (fun q hq => absurd hq List.not_mem_nil) (by decide)
    fun u hu => ?_
  show u.ansiCursorHorizontalAbsolute c (word u.argsToInt) = _
  rw [hu.args]
  unfold ansiCursorHorizontalAbsolute
  rw [ansiRenderCursor_of_onScreen hon (info_ready hu)]
  rfl

end

/-! ### The same cell -/

/-- The row is one of the window, and the column one of the screen. -/
structure InWindow (c : Console κ) (s : Screen κ) (y x : Nat) : Prop where
  row : 1 ≤ y
  rows : (y : Int) ≤ (s.window c).bottom.toInt - (s.window c).top.toInt + 1
  column : 1 ≤ x
  columns : (x : Int) ≤ (s.window c).right.toInt - (s.window c).left.toInt + 1

theorem window_width (hi : (c.getScreenBufferInfo s.con).Sound) :
    (s.window c).right.toInt - (s.window c).left.toInt + 1 =
      (c.getScreenBufferInfo s.con).size.x.toInt := by
  have hcursor := hi.cursor
  obtain ⟨hx, hwidth, -, -⟩ := hcursor
  rw [Int16.lt_iff_toInt_lt] at hwidth
  rw [Int16.le_iff_toInt_le] at hx
  change (0 : Int) ≤ _ at hx
  have hsize := toInt_bounds (c.getScreenBufferInfo s.con).size.x
  show ((c.getScreenBufferInfo s.con).size.x - 1).toInt - 0 + 1 = _
  rw [toInt_sub]
  change wrap16 ((c.getScreenBufferInfo s.con).size.x.toInt - 1) - 0 + 1 = _
  unfold wrap16
  omega

theorem toInt_word_sub_one {n : Nat} (hpos : 1 ≤ n) (hn : n < 0x8000) :
    ((word n).toInt16 - 1).toInt = n - 1 := by
  rw [toInt_sub, toInt_word]
  change wrap16 (wrap16 n - 1) = _
  unfold wrap16
  omega

theorem toInt_cell_x (y : Int) {n : Nat} (hpos : 1 ≤ n) (hn : n < 0x8000) :
    (cell (s.window c) y n).x.toInt = n - 1 := by
  show (0 + ((word n).toInt16 - 1)).toInt = _
  rw [Int16.zero_add, toInt_word_sub_one hpos hn]

/-- The rows of the window are rows of the screen. -/
theorem window_rows (hi : (c.getScreenBufferInfo s.con).Sound) :
    0 ≤ (s.window c).top.toInt ∧
      (s.window c).bottom.toInt < (c.getScreenBufferInfo s.con).size.y.toInt :=
  ⟨Int16.le_iff_toInt_le.mp hi.top, Int16.lt_iff_toInt_lt.mp hi.bottom⟩

theorem InWindow.bounds {y x : Nat} (hi : (c.getScreenBufferInfo s.con).Sound)
    (h : s.InWindow c y x) : y < 0x8000 ∧ x < 0x8000 := by
  have hrows := h.rows
  have hcolumns := h.columns
  rw [window_width hi] at hcolumns
  have hsize := toInt_bounds (c.getScreenBufferInfo s.con).size.x
  have hbottom := toInt_bounds (s.window c).bottom
  have hheight := toInt_bounds (c.getScreenBufferInfo s.con).size.y
  obtain ⟨htop, hlast⟩ := window_rows hi
  omega

/-- The cells of the window are on the screen. -/
theorem InWindow.onScreen {y x : Nat} (hi : (c.getScreenBufferInfo s.con).Sound)
    (h : s.InWindow c y x) :
    OnScreen (c.getScreenBufferInfo s.con).size (cell (s.window c) y x) := by
  obtain ⟨hylt, hxlt⟩ := h.bounds hi
  have hrows := h.rows
  have hcolumns := h.columns
  rw [window_width hi] at hcolumns
  obtain ⟨htop, hlast⟩ := window_rows hi
  have hheight := toInt_bounds (c.getScreenBufferInfo s.con).size.y
  have hx : (cell (s.window c) y x).x.toInt = x - 1 := toInt_cell_x _ h.column hxlt
  have hy : (cell (s.window c) y x).y.toInt = (s.window c).top.toInt + (y - 1) := by
    show ((s.window c).top + ((word y).toInt16 - 1)).toInt = _
    rw [toInt_add, toInt_word_sub_one h.row hylt]
    unfold wrap16
    omega
  have hcol := h.column
  have hrow := h.row
  refine ⟨?_, ?_, ?_, ?_⟩
  · rw [Int16.le_iff_toInt_le, hx]
    change (0 : Int) ≤ _
    omega
  · rw [Int16.lt_iff_toInt_lt, hx]
    omega
  · rw [Int16.le_iff_toInt_le, hy]
    change (0 : Int) ≤ _
    omega
  · rw [Int16.lt_iff_toInt_lt, hy]
    omega

/-- `CUP`, `HVP`, and `VPA` with `CHA`, put the cursor on the same cell, and a
parameter that is left out counts as one. -/
structure SameCell (c : Console κ) (s : Screen κ) (y x : Nat) : Prop where
  cup : (s.write c (controlSequence (decimal y) [decimal x] 72)).1.At c (cell (s.window c) y x)
  hvp : (s.write c (controlSequence (decimal y) [decimal x] 102)).1.At c (cell (s.window c) y x)
  vpaCha : (s.write c (controlSequence (decimal y) [] 100 ++ controlSequence (decimal x) [] 71)).1.At
    c (cell (s.window c) y x)
  cupRow : (s.write c (controlSequence (decimal y) [] 72)).1.At c (cell (s.window c) y 1)
  hvpRow : (s.write c (controlSequence (decimal y) [] 102)).1.At c (cell (s.window c) y 1)
  cupColumn : (s.write c (controlSequence [] [decimal x] 72)).1.At c (cell (s.window c) 1 x)
  hvpColumn : (s.write c (controlSequence [] [decimal x] 102)).1.At c (cell (s.window c) 1 x)
  cupHome : (s.write c (controlSequence [] [] 72)).1.At c (cell (s.window c) 1 1)
  hvpHome : (s.write c (controlSequence [] [] 102)).1.At c (cell (s.window c) 1 1)
  vpa : (s.write c (controlSequence [] [] 100)).1.At c { s.cursor c with y := (s.window c).top }
  cha : (s.write c (controlSequence [] [] 71)).1.At c { s.cursor c with x := (s.window c).left }

theorem escape_write (ha : c.Ascii) (hs : s.escape = none) {p : List UInt8}
    {ps : List (List UInt8)} (hp : Numeral p) (hps : ∀ q ∈ ps, Numeral q) {char : UInt8}
    (hchar : isLetter char = true) : (s.write c (controlSequence p ps char)).1.escape = none := by
  obtain ⟨u, hwrite, -⟩ := write_controlSequence ha hs hp hps hchar
  rw [hwrite]
  rfl

theorem write_two (s : Screen κ) (a p : List UInt8) (ps : List (List UInt8)) (char : UInt8) :
    (s.write c (a ++ controlSequence p ps char)).1 =
      ((s.write c a).1.write c (controlSequence p ps char)).1 :=
  ((write_append c s a _).trans (if_neg (List.cons_ne_nil _ _))).symm

section

variable {y x : Nat}

theorem corner_onScreen (hi : (c.getScreenBufferInfo s.con).Sound) (hin : s.InWindow c y x) :
    OnScreen (c.getScreenBufferInfo s.con).size (cell (s.window c) 1 1) := by
  refine InWindow.onScreen (y := 1) (x := 1) hi ⟨Nat.le_refl 1, ?_, Nat.le_refl 1, ?_⟩
  · exact Int.le_trans (Int.ofNat_le.mpr hin.row) hin.rows
  · exact Int.le_trans (Int.ofNat_le.mpr hin.column) hin.columns

theorem firstRow_onScreen (hi : (c.getScreenBufferInfo s.con).Sound) (hin : s.InWindow c y x) :
    OnScreen (c.getScreenBufferInfo s.con).size (cell (s.window c) 1 x) :=
  InWindow.onScreen (y := 1) hi
    ⟨Nat.le_refl 1, Int.le_trans (Int.ofNat_le.mpr hin.row) hin.rows, hin.column, hin.columns⟩

variable (ha : c.Ascii) (hc : c.MovesCursor) (hs : s.escape = none)
  (hi : (c.getScreenBufferInfo s.con).Sound) (hin : s.InWindow c y x)

include ha hc hs hi hin

/-- `CUP` and `HVP` with both parameters put the cursor on the cell. -/
theorem cup_at {char : UInt8} (hchar : char = 72 ∨ char = 102) :
    (s.write c (controlSequence (decimal y) [decimal x] char)).1.At c (cell (s.window c) y x) := by
  obtain ⟨hylt, hxlt⟩ := hin.bounds hi
  obtain ⟨hy, hynumber, -⟩ := decimal_spec hin.row hylt
  obtain ⟨hx, hxnumber, -⟩ := decimal_spec hin.column hxlt
  have hmoves := write_ansiCursorPosition ha hc hs hy (numeral_single hx) hchar
  rw [show firstArgument 1 (decimal y) [decimal x] = y from hynumber,
    show number (lastParameter (decimal y) [decimal x]) = x from hxnumber] at hmoves
  exact hmoves.con (hin.onScreen hi)

theorem cup_column_at {char : UInt8} (hchar : char = 72 ∨ char = 102) :
    (s.write c (controlSequence [] [decimal x] char)).1.At c (cell (s.window c) 1 x) := by
  obtain ⟨hx, hxnumber, -⟩ := decimal_spec hin.column (hin.bounds hi).2
  have hmoves := write_ansiCursorPosition ha hc hs numeral_nil (numeral_single hx) hchar
  rw [show number (lastParameter [] [decimal x]) = x from hxnumber] at hmoves
  exact hmoves.con (firstRow_onScreen hi hin)

theorem cup_home_at {char : UInt8} (hchar : char = 72 ∨ char = 102) :
    (s.write c (controlSequence [] [] char)).1.At c (cell (s.window c) 1 1) :=
  (write_ansiCursorPosition ha hc hs numeral_nil numeral_none hchar).con (corner_onScreen hi hin)

/-- The single parameter of `CUP` is its column, and no row. -/
theorem cup_row_at_iff {char : UInt8} (hchar : char = 72 ∨ char = 102) :
    (s.write c (controlSequence (decimal y) [] char)).1.At c (cell (s.window c) y 1) ↔ y = 1 := by
  have hylt := (hin.bounds hi).1
  obtain ⟨hy, hynumber, -⟩ := decimal_spec hin.row hylt
  have hmoves := write_ansiCursorPosition ha hc hs hy numeral_none hchar
  rw [show number (lastParameter (decimal y) []) = y from hynumber] at hmoves
  constructor
  · intro h
    have hcolumn : (cell (s.window c) 1 y).x.toInt = (cell (s.window c) y 1).x.toInt :=
      congrArg (fun pos : Coord => pos.x.toInt) (hmoves.info.symm.trans h.1)
    have hleft := toInt_cell_x (c := c) (s := s) 1 hin.row hylt
    have hright : (cell (s.window c) y 1).x.toInt = (1 : Nat) - 1 :=
      toInt_cell_x (n := 1) y (Nat.le_refl 1) (by decide)
    omega
  · rintro rfl
    exact hmoves.con (corner_onScreen hi hin)

/-- From the row below the first one, `VPA` gets to the first one. -/
theorem vpa_up (hcursor : (s.cursor c).y.toInt = (s.window c).top.toInt + 1) {p : List UInt8}
    (hp : Numeral p) (hnumber : number p = 1) :
    s.Moves c { s.cursor c with y := (s.window c).top } (s.write c (controlSequence p [] 100)).1 ∧
      OnScreen (c.getScreenBufferInfo s.con).size { s.cursor c with y := (s.window c).top } := by
  have hfirst : (s.cursor c).y - (word 1).toInt16 = (s.window c).top := by
    apply Int16.toInt_inj.mp
    rw [toInt_sub, toInt_word, hcursor]
    have htop := toInt_bounds (s.window c).top
    unfold wrap16
    omega
  have hmoves := write_ansiVerticalPositionAbsolute ha hc hs hi.cursor hp
  rw [hnumber, hfirst] at hmoves
  refine ⟨hmoves, ?_⟩
  obtain ⟨hx0, hxw, -, -⟩ := hi.cursor
  obtain ⟨-, -, hy0, hyh⟩ := corner_onScreen hi hin
  have hcorner : (cell (s.window c) 1 1).y = (s.window c).top := Int16.add_zero _
  rw [hcorner] at hy0 hyh
  exact ⟨hx0, hxw, hy0, hyh⟩

theorem vpa_at_iff :
    (s.write c (controlSequence [] [] 100)).1.At c { s.cursor c with y := (s.window c).top } ↔
      (s.cursor c).y.toInt = (s.window c).top.toInt + 1 := by
  constructor
  · intro h
    have hmoves := write_ansiVerticalPositionAbsolute ha hc hs hi.cursor numeral_nil
    have hrow : ((s.cursor c).y - 1).toInt = (s.window c).top.toInt :=
      congrArg (fun pos : Coord => pos.y.toInt) (hmoves.info.symm.trans h.1)
    rw [toInt_sub] at hrow
    change wrap16 ((s.cursor c).y.toInt - 1) = _ at hrow
    have hbounds := toInt_bounds (s.cursor c).y
    have hlow := hi.cursor.2.2.1
    rw [Int16.le_iff_toInt_le] at hlow
    change (0 : Int) ≤ (s.cursor c).y.toInt at hlow
    unfold wrap16 at hrow
    omega
  · intro hcursor
    obtain ⟨hmoves, hon⟩ := vpa_up ha hc hs hi hin hcursor numeral_nil rfl
    exact hmoves.con hon

theorem cha_at :
    (s.write c (controlSequence [] [] 71)).1.At c
      { s.cursor c with x := (s.window c).left } := by
  refine (write_ansiCursorHorizontalAbsolute ha hc hs hi.cursor numeral_nil).con ?_
  obtain ⟨-, -, hy0, hyh⟩ := hi.cursor
  obtain ⟨hx0, hxw, -, -⟩ := corner_onScreen hi hin
  have hfirst : (cell (s.window c) 1 1).x = (word (number [])).toInt16 - 1 := Int16.zero_add _
  rw [hfirst] at hx0 hxw
  exact ⟨hx0, hxw, hy0, hyh⟩

/-- `VPA` and then `CHA`, where `VPA` gets to the row. -/
theorem vpaCha_at (hone : y = 1)
    (hcursor : (s.cursor c).y.toInt = (s.window c).top.toInt + 1) :
    (s.write c (controlSequence (decimal y) [] 100 ++ controlSequence (decimal x) [] 71)).1.At c
      (cell (s.window c) y x) := by
  subst hone
  obtain ⟨hx, hxnumber, -⟩ := decimal_spec hin.column (hin.bounds hi).2
  have hy : Numeral (decimal (1 : Nat)) := numeral_cons rfl numeral_nil
  obtain ⟨hmoves, hrow⟩ := vpa_up ha hc hs hi hin hcursor hy rfl
  have hat := hmoves.con hrow
  have hsize := hmoves.size hrow
  have hescape := escape_write ha hs hy numeral_none (rfl : isLetter 100 = true)
  rw [write_two]
  generalize (s.write c (controlSequence (decimal (1 : Nat)) [] 100)).1 = s' at hat hsize hescape
  have hplace : s'.cursor c = { s.cursor c with y := (s.window c).top } := hat.2
  have hon : OnScreen (c.getScreenBufferInfo s'.con).size (s'.cursor c) := by
    rw [hplace, hsize]
    exact hrow
  have hcha := write_ansiCursorHorizontalAbsolute ha hc hescape hon hx
  have htarget : ({ s'.cursor c with x := (word (number (decimal x))).toInt16 - 1 } : Coord) =
      cell (s.window c) 1 x := by
    rw [hplace, hxnumber]
    exact congrArg₂ Coord.mk (Int16.zero_add _).symm (Int16.add_zero _).symm
  rw [htarget] at hcha
  refine hcha.con ?_
  rw [hsize]
  exact hin.onScreen hi

/-- The cell is the same, whichever way it is asked for, for the first row only
and only from the row below it. -/
theorem sameCell_iff :
    s.SameCell c y x ↔ y = 1 ∧ (s.cursor c).y.toInt = (s.window c).top.toInt + 1 := by
  constructor
  · intro h
    exact ⟨(cup_row_at_iff ha hc hs hi hin (.inl rfl)).mp h.cupRow,
      (vpa_at_iff ha hc hs hi hin).mp h.vpa⟩
  · rintro ⟨hone, hcursor⟩
    exact
      { cup := cup_at ha hc hs hi hin (.inl rfl)
        hvp := cup_at ha hc hs hi hin (.inr rfl)
        vpaCha := vpaCha_at ha hc hs hi hin hone hcursor
        cupRow := (cup_row_at_iff ha hc hs hi hin (.inl rfl)).mpr hone
        hvpRow := (cup_row_at_iff ha hc hs hi hin (.inr rfl)).mpr hone
        cupColumn := cup_column_at ha hc hs hi hin (.inl rfl)
        hvpColumn := cup_column_at ha hc hs hi hin (.inr rfl)
        cupHome := cup_home_at ha hc hs hi hin (.inl rfl)
        hvpHome := cup_home_at ha hc hs hi hin (.inr rfl)
        vpa := (vpa_at_iff ha hc hs hi hin).mpr hcursor
        cha := cha_at ha hc hs hi hin }

end

end Screen

theorem Store.movesCursor : Store.console.MovesCursor where
  setCursorPosition := fun _ _ _ => ⟨rfl, rfl, rfl⟩

/-- `ESC [ 5 ; 5 H` and the ways to say the same, from the corner of the screen. -/
theorem row_five_from_corner : ¬ Screen.start.SameCell Store.console 5 5 := by
  intro h
  exact absurd h.cupRow.1 (by decide)

/-- The second row, from the corner of the screen, and the fifth column of the first row, from the
second one. -/
theorem sameCell_iff_second :
    (Screen.start.SameCell Store.console 2 1 ↔
      2 = 1 ∧ (Screen.start.cursor Store.console).y.toInt =
        (Screen.start.window Store.console).top.toInt + 1) ∧
    (Screen.startAt 80 ⟨0, 1⟩).SameCell Store.console 1 5 :=
  ⟨Screen.sameCell_iff Store.ascii Store.movesCursor rfl
      ⟨by decide, by decide, by decide, by decide⟩ ⟨by decide, by decide, by decide, by decide⟩,
    (Screen.sameCell_iff Store.ascii Store.movesCursor rfl
      ⟨by decide, by decide, by decide, by decide⟩
      ⟨by decide, by decide, by decide, by decide⟩).mpr ⟨rfl, by decide⟩⟩

end MinC.Vfs
