import MinC.Lib.Bits
import MinC.Vfs.CursorMoves
import Mathlib.Tactic.Linarith
import Mathlib.Tactic.Ring

/-!
What is erased.

The cells of a screen are counted along its rows, and a fill takes a number of
them from a position on. Each function works out that number from the window
and the cursor. Whether a cell is erased is asked whatever the screen holds: an
erased cell is blank afterwards, a cell that is kept holds what it held.
-/

namespace MinC.Vfs

open MinC.Lib

/-- The place of a cell in the order that the screen is filled in. -/
def place (size pos : Coord) : Int := pos.y.toInt * size.x.toInt + pos.x.toInt

/-- The cell is one of `n` from the start on. -/
def Covers (size start : Coord) (n : UInt32) (pos : Coord) : Prop :=
  place size start ≤ place size pos ∧ place size pos < place size start + n.toNat

instance decidableCovers (size start : Coord) (n : UInt32) (pos : Coord) :
    Decidable (Covers size start n pos) :=
  inferInstanceAs (Decidable (place size start ≤ place size pos ∧
    place size pos < place size start + n.toNat))

/-- The cells of a console. Anything can be painted on its screen, and what is
filled goes on from one row to the next and ends with the screen. -/
structure Console.Cells {κ : Type} (c : Console κ) where
  cell : κ → Coord → UInt8 × UInt16
  paint : κ → (Coord → UInt8 × UInt16) → κ
  info_paint : ∀ k f, c.getScreenBufferInfo (paint k f) = c.getScreenBufferInfo k
  cell_paint : ∀ k f pos, OnScreen (c.getScreenBufferInfo k).size pos → cell (paint k f) pos = f pos
  cell_setCursorPosition : ∀ k dest pos, cell (c.setCursorPosition k dest).2 pos = cell k pos
  info_fillOutputAttribute : ∀ k attributes n start,
    c.getScreenBufferInfo (c.fillOutputAttribute k attributes n start) = c.getScreenBufferInfo k
  cell_fillOutputAttribute : ∀ k attributes n start pos,
    OnScreen (c.getScreenBufferInfo k).size start → OnScreen (c.getScreenBufferInfo k).size pos →
    cell (c.fillOutputAttribute k attributes n start) pos =
      if Covers (c.getScreenBufferInfo k).size start n pos then ((cell k pos).1, attributes)
      else cell k pos
  fillOutputCharacter : ∀ k char n start, OnScreen (c.getScreenBufferInfo k).size start →
    (c.fillOutputCharacter k char n start).1 = true
  cell_fillOutputCharacter : ∀ k char n start pos,
    OnScreen (c.getScreenBufferInfo k).size start → OnScreen (c.getScreenBufferInfo k).size pos →
    cell (c.fillOutputCharacter k char n start).2 pos =
      if Covers (c.getScreenBufferInfo k).size start n pos then (char, (cell k pos).2)
      else cell k pos

/-- A space in the colours in force. -/
def Blank (attributes : UInt16) (cell : UInt8 × UInt16) : Prop :=
  cell.1 = 32 ∧ cell.2 &&& 0xFF = attributes &&& 0xFF

/-! ### Places -/

section

variable {size a b pos : Coord}

/-- The cells are counted in the order of reading. -/
theorem place_le_iff (ha : OnScreen size a) (hb : OnScreen size b) :
    place size a ≤ place size b ↔ ReadBefore a b := by
  have hax : 0 ≤ a.x.toInt := Int16.le_iff_toInt_le.mp ha.1
  have hax' := Int16.lt_iff_toInt_lt.mp ha.2.1
  have hbx : 0 ≤ b.x.toInt := Int16.le_iff_toInt_le.mp hb.1
  have hbx' := Int16.lt_iff_toInt_lt.mp hb.2.1
  unfold place ReadBefore
  rcases Int.lt_trichotomy a.y.toInt b.y.toInt with hlt | heq | hgt
  · refine iff_of_true ?_ (.inl hlt)
    nlinarith
  · rw [heq]
    omega
  · refine iff_of_false ?_ (by omega)
    nlinarith

theorem row_le_place_iff (hpos : OnScreen size pos) (row : Int) :
    row * size.x.toInt ≤ place size pos ↔ row ≤ pos.y.toInt := by
  have hx : 0 ≤ pos.x.toInt := Int16.le_iff_toInt_le.mp hpos.1
  have hx' := Int16.lt_iff_toInt_lt.mp hpos.2.1
  unfold place
  constructor
  · intro h
    by_contra hlt
    nlinarith
  · intro h
    nlinarith

theorem place_lt_row_iff (hpos : OnScreen size pos) (row : Int) :
    place size pos < row * size.x.toInt ↔ pos.y.toInt < row := by
  rw [← Int.not_le, row_le_place_iff hpos, Int.not_le]

theorem place_start (row : Int16) :
    place size { x := 0, y := row } = row.toInt * size.x.toInt :=
  Int.add_zero _

theorem covers_iff {start : Coord} {v : Int} (h0 : 0 ≤ v) (hlt : v < 0x100000000) :
    Covers size start (UInt32.ofInt v) pos ↔
      place size start ≤ place size pos ∧ place size pos < place size start + v := by
  have hv : ((UInt32.ofInt v).toNat : Int) = v := by
    rw [Lib.u32_toNat_ofInt]
    exact Int.emod_eq_of_lt h0 hlt
  unfold Covers
  rw [hv]

/-- A screen has fewer cells than a `DWORD` counts. -/
theorem area_le (rows width : Int) (h0 : 0 ≤ rows) (hrows : rows ≤ 0x8000) (hw : 0 ≤ width)
    (hwidth : width ≤ 0x8000) : 0 ≤ rows * width ∧ rows * width ≤ 0x40000000 := by
  refine ⟨Int.mul_nonneg h0 hw, ?_⟩
  calc rows * width ≤ 0x8000 * 0x8000 := Int.mul_le_mul hrows hwidth hw (by decide)
    _ = 0x40000000 := by decide

end

namespace Screen

variable {κ : Type} {c : Console κ} (cells : c.Cells) (s : Screen κ)

def painted (f : Coord → UInt8 × UInt16) : Screen κ := { s with con := cells.paint s.con f }

/-- What a cell holds after the bytes were written on a painted screen. -/
def after (bytes : List UInt8) (f : Coord → UInt8 × UInt16) (pos : Coord) : UInt8 × UInt16 :=
  cells.cell ((s.painted cells f).write c bytes).1.con pos

def Erased (bytes : List UInt8) (pos : Coord) : Prop :=
  ∀ f, Blank (c.getScreenBufferInfo s.con).attributes (s.after cells bytes f pos)

def Kept (bytes : List UInt8) (pos : Coord) : Prop := ∀ f, s.after cells bytes f pos = f pos

/-- The bytes erase these cells and no others. -/
def Erases (bytes : List UInt8) (E : Coord → Prop) : Prop :=
  ∀ pos, OnScreen (c.getScreenBufferInfo s.con).size pos →
    (E pos → s.Erased cells bytes pos) ∧ (¬ E pos → s.Kept cells bytes pos)

/-- The bytes fill a number of cells from a position on. -/
structure Fills (bytes : List UInt8) (n : UInt32) (start : Coord) : Prop where
  onScreen : OnScreen (c.getScreenBufferInfo s.con).size start
  erased : ∀ pos, OnScreen (c.getScreenBufferInfo s.con).size pos →
    Covers (c.getScreenBufferInfo s.con).size start n pos → s.Erased cells bytes pos
  kept : ∀ pos, OnScreen (c.getScreenBufferInfo s.con).size pos →
    ¬ Covers (c.getScreenBufferInfo s.con).size start n pos → s.Kept cells bytes pos

variable {cells s} {bytes : List UInt8} {pos : Coord}

/-- No cell is both erased and kept. -/
theorem not_erased_of_kept (h : s.Kept cells bytes pos) : ¬ s.Erased cells bytes pos := by
  intro herased
  have hblank := herased fun _ => (33, 0)
  rw [h fun _ => (33, 0)] at hblank
  exact absurd hblank.1 (by decide)

theorem Fills.erased_iff {n : UInt32} {start : Coord} (h : s.Fills cells bytes n start)
    (hpos : OnScreen (c.getScreenBufferInfo s.con).size pos) :
    s.Erased cells bytes pos ↔ Covers (c.getScreenBufferInfo s.con).size start n pos := by
  constructor
  · intro herased
    by_contra hcovers
    exact not_erased_of_kept (h.kept pos hpos hcovers) herased
  · exact h.erased pos hpos

/-- A fill erases the cells it covers. -/
theorem Fills.erases_iff {n : UInt32} {start : Coord} (h : s.Fills cells bytes n start)
    (E : Coord → Prop) :
    s.Erases cells bytes E ↔ ∀ pos, OnScreen (c.getScreenBufferInfo s.con).size pos →
      (E pos ↔ Covers (c.getScreenBufferInfo s.con).size start n pos) := by
  constructor
  · intro hE pos hpos
    obtain ⟨hin, hout⟩ := hE pos hpos
    constructor
    · exact fun hyes => (h.erased_iff hpos).mp (hin hyes)
    · intro hcovers
      by_contra hno
      exact not_erased_of_kept (hout hno) ((h.erased_iff hpos).mpr hcovers)
  · intro hiff pos hpos
    exact ⟨fun hyes => h.erased pos hpos ((hiff pos hpos).mp hyes),
      fun hno => h.kept pos hpos fun hcovers => hno ((hiff pos hpos).mpr hcovers)⟩

/-- A sequence that fills, perhaps after the cursor was moved on the screen. -/
theorem fills_of_control (ha : c.Ascii) (hs : s.escape = none) {p : List UInt8} (hp : Numeral p)
    {char : UInt8} (hchar : isLetter char = true) (attributes : UInt16) {n : UInt32} {start : Coord}
    (hstart : OnScreen (c.getScreenBufferInfo s.con).size start)
    (hattributes : attributes &&& 0xFF = (c.getScreenBufferInfo s.con).attributes &&& 0xFF)
    (h : ∀ f u, Ready ((s.painted cells f).renderWindow c) p [] char u →
      ∃ t : Screen κ, u.ansiControl c char (sequenceSize p []) = t.fill c attributes n start ∧
        (c.getScreenBufferInfo t.con).size = (c.getScreenBufferInfo s.con).size ∧
        ∀ pos, cells.cell t.con pos = cells.cell (cells.paint s.con f) pos) :
    s.Fills cells (controlSequence p [] char) n start := by
  -- the screen shows any picture before, so that a cell that is not written is seen
  have hafter : ∀ f pos, OnScreen (c.getScreenBufferInfo s.con).size pos →
      s.after cells (controlSequence p [] char) f pos =
        if Covers (c.getScreenBufferInfo s.con).size start n pos then (32, attributes)
        else f pos := by
    intro f pos hpos
    obtain ⟨u, hwrite, hu⟩ :=
      write_controlSequence (s := s.painted cells f) ha hs hp numeral_none hchar
    obtain ⟨t, hcontrol, hsize, hcell⟩ := h f u hu
    have hinfo := cells.info_fillOutputAttribute t.con attributes n start
    have hsize' : (c.getScreenBufferInfo (c.fillOutputAttribute t.con attributes n start)).size =
        (c.getScreenBufferInfo s.con).size := by rw [hinfo, hsize]
    have hdone : (u.ansiSequence c char (sequenceSize p [])).1 = true := by
      rw [hu.ansiSequence, hcontrol]
      exact cells.fillOutputCharacter _ _ _ _ (by rw [hsize']; exact hstart)
    have hcon : (u.ansi c char (sequenceSize p [])).con =
        (c.fillOutputCharacter (c.fillOutputAttribute t.con attributes n start) 32 n start).2 := by
      rw [ansi_of_done hdone, hu.ansiSequence, hcontrol]
      rfl
    unfold after
    rw [hwrite, hcon, cells.cell_fillOutputCharacter _ _ _ _ _ (by rw [hsize']; exact hstart)
      (by rw [hsize']; exact hpos), hsize', cells.cell_fillOutputAttribute _ _ _ _ _
      (by rw [hsize]; exact hstart) (by rw [hsize]; exact hpos), hsize, hcell,
      cells.cell_paint _ _ _ hpos]
    split_ifs <;> rfl
  refine ⟨hstart, fun pos hpos hcovers f => ?_, fun pos hpos hcovers f => ?_⟩
  · rw [hafter f pos hpos, if_pos hcovers]
    exact ⟨rfl, hattributes⟩
  · rw [hafter f pos hpos, if_neg hcovers]

theorem Erases.erased_iff {E : Coord → Prop} (h : s.Erases cells bytes E)
    (hpos : OnScreen (c.getScreenBufferInfo s.con).size pos) : s.Erased cells bytes pos ↔ E pos := by
  constructor
  · intro herased
    by_contra hno
    exact not_erased_of_kept ((h pos hpos).2 hno) herased
  · exact (h pos hpos).1

/-! ### Sizes -/

theorem record_painted (f : Coord → UInt8 × UInt16) :
    record c (cells.paint s.con f) = record c s.con := by
  unfold record
  rw [cells.info_paint]

/-- The cursor and the sizes of a screen as integers. -/
structure Measures (c : Console κ) (s : Screen κ) (x y top bottom width height : Int) : Prop where
  toInt_x : (s.cursor c).x.toInt = x
  toInt_y : (s.cursor c).y.toInt = y
  toInt_top : (s.window c).top.toInt = top
  toInt_bottom : (s.window c).bottom.toInt = bottom
  toInt_sizeX : (c.getScreenBufferInfo s.con).size.x.toInt = width
  toInt_sizeY : (c.getScreenBufferInfo s.con).size.y.toInt = height
  x_nonneg : 0 ≤ x
  x_lt : x < width
  y_nonneg : 0 ≤ y
  y_lt : y < height
  top_nonneg : 0 ≤ top
  rows : top ≤ bottom
  bottom_lt : bottom < height
  width_lt : width < 0x8000
  height_lt : height < 0x8000

theorem measures (hi : (c.getScreenBufferInfo s.con).Sound) :
    s.Measures c (s.cursor c).x.toInt (s.cursor c).y.toInt (s.window c).top.toInt
      (s.window c).bottom.toInt (c.getScreenBufferInfo s.con).size.x.toInt
      (c.getScreenBufferInfo s.con).size.y.toInt where
  toInt_x := rfl
  toInt_y := rfl
  toInt_top := rfl
  toInt_bottom := rfl
  toInt_sizeX := rfl
  toInt_sizeY := rfl
  x_nonneg := Int16.le_iff_toInt_le.mp hi.cursor.1
  x_lt := Int16.lt_iff_toInt_lt.mp hi.cursor.2.1
  y_nonneg := Int16.le_iff_toInt_le.mp hi.cursor.2.2.1
  y_lt := Int16.lt_iff_toInt_lt.mp hi.cursor.2.2.2
  top_nonneg := Int16.le_iff_toInt_le.mp hi.top
  rows := Int16.le_iff_toInt_le.mp hi.rows
  bottom_lt := Int16.lt_iff_toInt_lt.mp hi.bottom
  width_lt := (toInt_bounds _).2
  height_lt := (toInt_bounds _).2

section

variable {x y top bottom width height : Int} (hm : s.Measures c x y top bottom width height)

include hm

theorem Measures.onScreen_cursor :
    OnScreen (c.getScreenBufferInfo s.con).size (s.cursor c) := by
  obtain ⟨hx, hy, -, -, hwidth, hheight, hx0, hxlt, hy0, hylt, -⟩ := hm
  refine ⟨Int16.le_iff_toInt_le.mpr ?_, Int16.lt_iff_toInt_lt.mpr ?_, Int16.le_iff_toInt_le.mpr ?_,
    Int16.lt_iff_toInt_lt.mpr ?_⟩
  · show (0 : Int) ≤ _
    omega
  · omega
  · show (0 : Int) ≤ _
    omega
  · omega

theorem Measures.onScreen_start (row : Int16) (h0 : 0 ≤ row.toInt) (hrow : row.toInt < height) :
    OnScreen (c.getScreenBufferInfo s.con).size { x := 0, y := row } := by
  have hwidth := hm.toInt_sizeX
  have hheight := hm.toInt_sizeY
  have hx0 := hm.x_nonneg
  have hxlt := hm.x_lt
  refine ⟨Int16.le_refl 0, Int16.lt_iff_toInt_lt.mpr ?_, Int16.le_iff_toInt_le.mpr h0,
    Int16.lt_iff_toInt_lt.mpr ?_⟩
  · show (0 : Int) < _
    omega
  · show row.toInt < _
    omega

theorem Measures.place_cursor :
    place (c.getScreenBufferInfo s.con).size (s.cursor c) = y * width + x := by
  unfold place
  rw [hm.toInt_x, hm.toInt_y, hm.toInt_sizeX]

/-- The start of the cursor's line. -/
theorem Measures.onScreen_line :
    OnScreen (c.getScreenBufferInfo s.con).size { x := 0, y := (s.cursor c).y } := by
  have hy := hm.toInt_y
  have h0 := hm.y_nonneg
  have hlt := hm.y_lt
  exact hm.onScreen_start _ (by omega) (by omega)

/-- The width that the functions compute is that of the screen. -/
theorem Measures.toInt_width :
    ((s.window c).right - (s.window c).left + 1).toInt = width := by
  have hwidth := hm.toInt_sizeX
  have hlt := hm.width_lt
  have hx0 := hm.x_nonneg
  have hxlt := hm.x_lt
  show ((c.getScreenBufferInfo s.con).size.x - 1 - 0 + 1).toInt = _
  rw [toInt_add, toInt_sub, toInt_sub, hwidth]
  change wrap16 (wrap16 (wrap16 (width - 1) - 0) + 1) = _
  unfold wrap16
  omega

theorem Measures.toInt_right : (s.window c).right.toInt = width - 1 := by
  have hwidth := hm.toInt_sizeX
  have hlt := hm.width_lt
  have hx0 := hm.x_nonneg
  have hxlt := hm.x_lt
  show ((c.getScreenBufferInfo s.con).size.x - 1).toInt = _
  rw [toInt_sub, hwidth]
  change wrap16 (width - 1) = _
  unfold wrap16
  omega

/-- What a sequence that erases works with. -/
theorem Measures.ready {f : Coord → UInt8 × UInt16} {u : Screen κ} {p : List UInt8} {char : UInt8}
    (hu : Ready ((s.painted cells f).renderWindow c) p [] char u) :
    u.info = record c s.con ∧ u.ansiRenderCursor = s.cursor c ∧
      u.con = cells.paint s.con f := by
  have hinfo : u.info = record c s.con := (info_ready hu).trans (record_painted f)
  exact ⟨hinfo, ansiRenderCursor_of_onScreen hm.onScreen_cursor hinfo, hu.con⟩

/-! ### What the functions fill -/

variable {u : Screen κ}

theorem ansiEraseInDisplay_toEnd (hinfo : u.info = record c s.con)
    (hrender : u.ansiRenderCursor = s.cursor c) {parm : UInt8} (hparm : parm = 0 ∨ parm = 48) :
    u.ansiEraseInDisplay c parm =
      u.fill c ((c.getScreenBufferInfo s.con).attributes &&& 0xFF)
        (UInt32.ofInt ((bottom - y + 1) * width - x)) (s.cursor c) := by
  have hsize : (bottom - top + 1) * width - ((y - top + 1) * width - (width - x)) =
      (bottom - y + 1) * width - x := by ring
  unfold ansiEraseInDisplay
  dsimp only
  rw [if_pos hparm, hrender, hinfo, ← hsize, ← hm.toInt_width, ← hm.toInt_x, ← hm.toInt_y,
    ← hm.toInt_top, ← hm.toInt_bottom]
  rfl

theorem ansiEraseInDisplay_toCursor (hinfo : u.info = record c s.con) :
    u.ansiEraseInDisplay c 49 =
      u.fill c ((c.getScreenBufferInfo s.con).attributes &&& 0xFF)
        (UInt32.ofInt ((y - top + 1) * width - x)) { x := 0, y := (s.window c).top } := by
  have hsize : (bottom - top + 1) * width - ((bottom - y) * width + x) =
      (y - top + 1) * width - x := by ring
  unfold ansiEraseInDisplay
  dsimp only
  rw [if_neg (by decide), if_pos rfl, hinfo, ← hsize, ← hm.toInt_width, ← hm.toInt_x, ← hm.toInt_y,
    ← hm.toInt_top, ← hm.toInt_bottom]
  rfl

theorem ansiEraseInDisplay_whole (hinfo : u.info = record c s.con) :
    u.ansiEraseInDisplay c 50 =
      (u.moveTo c { x := 0, y := (s.window c).top }).2.fill c
        ((c.getScreenBufferInfo s.con).attributes &&& 0xFF)
        (UInt32.ofInt ((bottom - top + 1) * width)) { x := 0, y := (s.window c).top } := by
  unfold ansiEraseInDisplay
  dsimp only
  rw [if_neg (by decide), if_neg (by decide), if_pos rfl, hinfo, ← hm.toInt_width, ← hm.toInt_top,
    ← hm.toInt_bottom]
  rfl

theorem ansiEraseInLine_toEnd (hinfo : u.info = record c s.con)
    (hrender : u.ansiRenderCursor = s.cursor c) {char : UInt8} (hchar : char = 0 ∨ char = 48) :
    u.ansiEraseInLine c char =
      u.fill c (c.getScreenBufferInfo s.con).attributes (UInt32.ofInt (width - x)) (s.cursor c) := by
  have hsize : (width - 1) - x + 1 = width - x := by ring
  unfold ansiEraseInLine
  dsimp only
  rw [if_pos hchar, hrender, hinfo, ← hsize, ← hm.toInt_right, ← hm.toInt_x]
  rfl

theorem ansiEraseInLine_toCursor (hinfo : u.info = record c s.con)
    (hrender : u.ansiRenderCursor = s.cursor c) :
    u.ansiEraseInLine c 49 =
      u.fill c (c.getScreenBufferInfo s.con).attributes (UInt32.ofInt (x + 1))
        { x := 0, y := (s.cursor c).y } := by
  unfold ansiEraseInLine
  dsimp only
  rw [if_neg (by decide), if_pos rfl, hrender, hinfo, ← hm.toInt_x]
  rfl

theorem ansiEraseInLine_whole (hinfo : u.info = record c s.con)
    (hrender : u.ansiRenderCursor = s.cursor c) :
    u.ansiEraseInLine c 50 =
      u.fill c (c.getScreenBufferInfo s.con).attributes (UInt32.ofInt width)
        { x := 0, y := (s.cursor c).y } := by
  have hsize : (width - 1) + 1 = width := by ring
  unfold ansiEraseInLine
  dsimp only
  rw [if_neg (by decide), if_neg (by decide), if_pos rfl, hrender, hinfo, ← hsize, ← hm.toInt_right]
  rfl

variable (ha : c.Ascii) (hs : s.escape = none)

include ha hs

/-- A sequence that fills at once. -/
theorem fills_at_once {p : List UInt8} (hp : Numeral p) {char : UInt8}
    (hchar : isLetter char = true) (attributes : UInt16) {n : UInt32} {start : Coord}
    (hstart : OnScreen (c.getScreenBufferInfo s.con).size start)
    (hattributes : attributes &&& 0xFF = (c.getScreenBufferInfo s.con).attributes &&& 0xFF)
    (h : ∀ u : Screen κ, u.info = record c s.con → u.ansiRenderCursor = s.cursor c →
      u.seq.char1 = p.headD 0 →
      u.ansiControl c char (sequenceSize p []) = u.fill c attributes n start) :
    s.Fills cells (controlSequence p [] char) n start := by
  refine fills_of_control ha hs hp hchar attributes hstart hattributes fun f u hu => ⟨u, ?_, ?_, ?_⟩
  · obtain ⟨hinfo, hrender, -⟩ := hm.ready hu
    exact h u hinfo hrender hu.char1
  · obtain ⟨-, -, hcon⟩ := hm.ready hu
    rw [hcon, cells.info_paint]
  · obtain ⟨-, -, hcon⟩ := hm.ready hu
    rw [hcon]
    exact fun _ => rfl

omit hm ha hs in
theorem numeral_toEnd {p : List UInt8} (hp : p = [] ∨ p = [48]) : Numeral p := by
  cases hp with
  | inl hp => exact hp ▸ numeral_nil
  | inr hp => exact hp ▸ numeral_cons rfl numeral_nil

theorem fills_ed_toEnd {p : List UInt8} (hp : p = [] ∨ p = [48]) :
    s.Fills cells (controlSequence p [] 74) (UInt32.ofInt ((bottom - y + 1) * width - x))
      (s.cursor c) := by
  refine fills_at_once hm ha hs (numeral_toEnd hp) rfl
    ((c.getScreenBufferInfo s.con).attributes &&& 0xFF) hm.onScreen_cursor
    (by rw [UInt16.and_assoc, UInt16.and_self]) fun u hinfo hrender hchar => ?_
  refine ansiEraseInDisplay_toEnd hm hinfo hrender ?_
  rw [hchar]
  rcases hp with rfl | rfl <;> decide

theorem fills_ed_toCursor :
    s.Fills cells (controlSequence [49] [] 74) (UInt32.ofInt ((y - top + 1) * width - x))
      { x := 0, y := (s.window c).top } := by
  have htop := hm.toInt_top
  have h0 := hm.top_nonneg
  have hrows := hm.rows
  have hlt := hm.bottom_lt
  refine fills_at_once hm ha hs (numeral_cons rfl numeral_nil) rfl
    ((c.getScreenBufferInfo s.con).attributes &&& 0xFF) (hm.onScreen_start _ (by omega) (by omega))
    (by rw [UInt16.and_assoc, UInt16.and_self]) fun u hinfo _ hchar => ?_
  show u.ansiEraseInDisplay c u.seq.char1 = _
  rw [hchar]
  exact ansiEraseInDisplay_toCursor hm hinfo

theorem fills_ed_whole (hc : c.MovesCursor) :
    s.Fills cells (controlSequence [50] [] 74) (UInt32.ofInt ((bottom - top + 1) * width))
      { x := 0, y := (s.window c).top } := by
  have htop := hm.toInt_top
  have h0 := hm.top_nonneg
  have hrows := hm.rows
  have hlt := hm.bottom_lt
  have hcorner := hm.onScreen_start (s.window c).top (by omega) (by omega)
  refine fills_of_control ha hs (numeral_cons rfl numeral_nil) rfl
    ((c.getScreenBufferInfo s.con).attributes &&& 0xFF) hcorner
    (by rw [UInt16.and_assoc, UInt16.and_self]) fun f u hu => ?_
  obtain ⟨hinfo, -, hcon⟩ := hm.ready hu
  refine ⟨(u.moveTo c { x := 0, y := (s.window c).top }).2, ?_, ?_, fun pos => ?_⟩
  · show u.ansiEraseInDisplay c u.seq.char1 = _
    rw [show u.seq.char1 = 50 from hu.char1]
    exact ansiEraseInDisplay_whole hm hinfo
  · show (c.getScreenBufferInfo (c.setCursorPosition u.con _).2).size = _
    have hsize : c.getScreenBufferInfo u.con = c.getScreenBufferInfo s.con := by
      rw [hcon, cells.info_paint]
    rw [(hc.setCursorPosition u.con _ (by rw [hsize]; exact hcorner)).2.2, hsize]
  · show cells.cell (c.setCursorPosition u.con _).2 pos = _
    rw [cells.cell_setCursorPosition, hcon]

theorem fills_el_toEnd {p : List UInt8} (hp : p = [] ∨ p = [48]) :
    s.Fills cells (controlSequence p [] 75) (UInt32.ofInt (width - x)) (s.cursor c) := by
  refine fills_at_once hm ha hs (numeral_toEnd hp) rfl _
    hm.onScreen_cursor rfl fun u hinfo hrender hchar => ?_
  refine ansiEraseInLine_toEnd hm hinfo hrender ?_
  rw [hchar]
  rcases hp with rfl | rfl <;> decide

theorem fills_el_toCursor :
    s.Fills cells (controlSequence [49] [] 75) (UInt32.ofInt (x + 1))
      { x := 0, y := (s.cursor c).y } := by
  refine fills_at_once hm ha hs (numeral_cons rfl numeral_nil) rfl _
    hm.onScreen_line rfl fun u hinfo hrender hchar => ?_
  show u.ansiEraseInLine c u.seq.char1 = _
  rw [hchar]
  exact ansiEraseInLine_toCursor hm hinfo hrender

theorem fills_el_whole :
    s.Fills cells (controlSequence [50] [] 75) (UInt32.ofInt width)
      { x := 0, y := (s.cursor c).y } := by
  refine fills_at_once hm ha hs (numeral_cons rfl numeral_nil) rfl _
    hm.onScreen_line rfl fun u hinfo hrender hchar => ?_
  show u.ansiEraseInLine c u.seq.char1 = _
  rw [hchar]
  exact ansiEraseInLine_whole hm hinfo hrender

/-- The cells of a part of the screen, the part behind the cursor and the part
in front of it. -/
structure BlanksExactly (cells : c.Cells) (s : Screen κ) (char : UInt8) (region : Coord → Prop) :
    Prop where
  toEnd : ∀ p, p = [] ∨ p = [48] → s.Erases cells (controlSequence p [] char)
    fun pos => region pos ∧ ReadBefore (s.cursor c) pos
  toCursor : s.Erases cells (controlSequence [49] [] char)
    fun pos => region pos ∧ ReadBefore pos (s.cursor c)
  whole : s.Erases cells (controlSequence [50] [] char) region
  overlap : ∀ pos, OnScreen (c.getScreenBufferInfo s.con).size pos →
    s.Erased cells (controlSequence [48] [] char) pos →
    s.Erased cells (controlSequence [49] [] char) pos → pos = s.cursor c
  together : ∀ pos, OnScreen (c.getScreenBufferInfo s.con).size pos →
    (s.Erased cells (controlSequence [48] [] char) pos ∨
        s.Erased cells (controlSequence [49] [] char) pos ↔
      s.Erased cells (controlSequence [50] [] char) pos)

omit hm ha hs in
theorem eq_of_readBefore {a b : Coord} (h : ReadBefore a b) (h' : ReadBefore b a) : a = b := by
  obtain ⟨ax, ay⟩ := a
  obtain ⟨bx, bye⟩ := b
  unfold ReadBefore at h h'
  dsimp only at h h'
  have hx : ax = bx := Int16.toInt_inj.mp (by omega)
  have hy : ay = bye := Int16.toInt_inj.mp (by omega)
  rw [hx, hy]

omit hm ha hs in
/-- The two parts meet in the cursor, since the order of reading is total. -/
theorem blanksExactly_of {char : UInt8} {region : Coord → Prop}
    (toEnd : ∀ p, p = [] ∨ p = [48] → s.Erases cells (controlSequence p [] char)
      fun pos => region pos ∧ ReadBefore (s.cursor c) pos)
    (toCursor : s.Erases cells (controlSequence [49] [] char)
      fun pos => region pos ∧ ReadBefore pos (s.cursor c))
    (whole : s.Erases cells (controlSequence [50] [] char) region) :
    s.BlanksExactly cells char region where
  toEnd := toEnd
  toCursor := toCursor
  whole := whole
  overlap := fun pos hpos hend hcursor =>
    eq_of_readBefore ((toCursor.erased_iff hpos).mp hcursor).2
      (((toEnd [48] (.inr rfl)).erased_iff hpos).mp hend).2
  together := fun pos hpos => by
    rw [(toEnd [48] (.inr rfl)).erased_iff hpos, toCursor.erased_iff hpos, whole.erased_iff hpos,
      ← and_or_left]
    refine and_iff_left ?_
    unfold ReadBefore
    omega

/-- `EL` erases what it should, wherever the cursor is. -/
theorem blanksExactly_line :
    s.BlanksExactly cells 75 fun pos => pos.y.toInt = (s.cursor c).y.toInt := by
  have hon := hm.onScreen_cursor
  have hplace := hm.place_cursor
  have hstart : place (c.getScreenBufferInfo s.con).size { x := 0, y := (s.cursor c).y } =
      y * width := by rw [place_start, hm.toInt_y, hm.toInt_sizeX]
  have hnext : (y + 1) * width = y * width + width := by ring
  have hx0 := hm.x_nonneg
  have hxlt := hm.x_lt
  have hwlt := hm.width_lt
  have hrow := hm.toInt_y
  refine blanksExactly_of ?_ ?_ ?_
  · refine fun p hp => ((fills_el_toEnd hm ha hs hp).erases_iff _).mpr fun pos hpos => ?_
    have hlast := place_lt_row_iff hpos (y + 1)
    rw [hm.toInt_sizeX] at hlast
    rw [covers_iff (by omega) (by omega), place_le_iff hon hpos, hplace]
    unfold ReadBefore at *
    omega
  · refine ((fills_el_toCursor hm ha hs).erases_iff _).mpr fun pos hpos => ?_
    have hfirst := row_le_place_iff hpos y
    have hbefore := place_le_iff hpos hon
    rw [hm.toInt_sizeX] at hfirst
    rw [hplace] at hbefore
    rw [covers_iff (by omega) (by omega), hstart]
    unfold ReadBefore at *
    omega
  · refine ((fills_el_whole hm ha hs).erases_iff _).mpr fun pos hpos => ?_
    have hfirst := row_le_place_iff hpos y
    have hlast := place_lt_row_iff hpos (y + 1)
    rw [hm.toInt_sizeX] at hfirst hlast
    rw [covers_iff (by omega) (by omega), hstart]
    omega

/-- The rows of the window. -/
def inRows (c : Console κ) (s : Screen κ) (pos : Coord) : Prop :=
  (s.window c).top.toInt ≤ pos.y.toInt ∧ pos.y.toInt ≤ (s.window c).bottom.toInt

/-- `ED` 0, with the cursor in a row of the window. -/
theorem erases_window_toEnd (hrow : s.inRows c (s.cursor c)) {p : List UInt8}
    (hp : p = [] ∨ p = [48]) :
    s.Erases cells (controlSequence p [] 74)
      fun pos => s.inRows c pos ∧ ReadBefore (s.cursor c) pos := by
  have hon := hm.onScreen_cursor
  unfold inRows at *
  rw [hm.toInt_top, hm.toInt_bottom] at *
  rw [hm.toInt_y] at hrow
  have hx0 := hm.x_nonneg
  have hxlt := hm.x_lt
  have hwlt := hm.width_lt
  have hhlt := hm.height_lt
  have htop := hm.top_nonneg
  have hbottom := hm.bottom_lt
  have hcursor := hm.toInt_y
  refine ((fills_ed_toEnd hm ha hs hp).erases_iff _).mpr fun pos hpos => ?_
  have harea := area_le (bottom - y) width (by omega) (by omega) (by omega) (by omega)
  have hsize : (bottom - y + 1) * width - x = (bottom - y) * width + (width - x) := by ring
  have hend : y * width + x + ((bottom - y) * width + (width - x)) = (bottom + 1) * width := by
    ring
  have hlast := place_lt_row_iff hpos (bottom + 1)
  rw [hm.toInt_sizeX] at hlast
  rw [hsize, covers_iff (by omega) (by omega), place_le_iff hon hpos, hm.place_cursor, hend, hlast]
  unfold ReadBefore at *
  omega

/-- `ED` 1 leaves as many cells of the last row as are in front of the cursor, and
it is right where these are as many as there are behind it. -/
theorem erases_window_toCursor (hrow : s.inRows c (s.cursor c)) (hmiddle : width = 2 * x + 1) :
    s.Erases cells (controlSequence [49] [] 74)
      fun pos => s.inRows c pos ∧ ReadBefore pos (s.cursor c) := by
  have hon := hm.onScreen_cursor
  unfold inRows at *
  rw [hm.toInt_top, hm.toInt_bottom] at *
  rw [hm.toInt_y] at hrow
  have hx0 := hm.x_nonneg
  have hxlt := hm.x_lt
  have hwlt := hm.width_lt
  have hhlt := hm.height_lt
  have htop := hm.top_nonneg
  have hbottom := hm.bottom_lt
  have hcursor := hm.toInt_y
  refine ((fills_ed_toCursor hm ha hs).erases_iff _).mpr fun pos hpos => ?_
  have harea := area_le (y - top) width (by omega) (by omega) (by omega) (by omega)
  have hsize : (y - top + 1) * width - x = (y - top) * width + (x + 1) := by
    rw [hmiddle]
    ring
  have hend : top * width + ((y - top) * width + (x + 1)) = y * width + x + 1 := by ring
  have hfirst := row_le_place_iff hpos top
  have hbefore := place_le_iff hpos hon
  rw [hm.toInt_sizeX] at hfirst
  rw [hm.place_cursor] at hbefore
  rw [hsize, covers_iff (by omega) (by omega), place_start, hm.toInt_top, hm.toInt_sizeX, hend,
    hfirst, Int.lt_add_one_iff, hbefore]
  unfold ReadBefore at *
  omega

/-- `ED` 2, wherever the cursor is. -/
theorem erases_window_whole (hc : c.MovesCursor) :
    s.Erases cells (controlSequence [50] [] 74) (s.inRows c) := by
  unfold inRows
  rw [hm.toInt_top, hm.toInt_bottom]
  have hx0 := hm.x_nonneg
  have hxlt := hm.x_lt
  have hwlt := hm.width_lt
  have hhlt := hm.height_lt
  have htop := hm.top_nonneg
  have hbottom := hm.bottom_lt
  have hrows := hm.rows
  refine ((fills_ed_whole hm ha hs hc).erases_iff _).mpr fun pos hpos => ?_
  have harea := area_le (bottom - top + 1) width (by omega) (by omega) (by omega) (by omega)
  have hend : top * width + (bottom - top + 1) * width = (bottom + 1) * width := by ring
  have hfirst := row_le_place_iff hpos top
  have hlast := place_lt_row_iff hpos (bottom + 1)
  rw [hm.toInt_sizeX] at hfirst hlast
  rw [covers_iff (by omega) (by omega), place_start, hm.toInt_top, hm.toInt_sizeX, hend, hfirst,
    hlast]
  omega

/-- With the cursor in the middle of a row of the window, `ED` erases what it
should. -/
theorem blanksExactly_window (hc : c.MovesCursor) (hrow : s.inRows c (s.cursor c))
    (hmiddle : width = 2 * x + 1) : s.BlanksExactly cells 74 (s.inRows c) :=
  blanksExactly_of (fun _ hp => erases_window_toEnd hm ha hs hrow hp)
    (erases_window_toCursor hm ha hs hrow hmiddle) (erases_window_whole hm ha hs hc)

/-- A cursor above the window is erased by `ED` 0. -/
theorem top_le_of_blanksExactly (h : s.BlanksExactly cells 74 (s.inRows c)) : top ≤ y := by
  have hon := hm.onScreen_cursor
  have hx0 := hm.x_nonneg
  have hxlt := hm.x_lt
  have hy0 := hm.y_nonneg
  have hrows := hm.rows
  have hhlt := hm.height_lt
  have hwlt := hm.width_lt
  have hblt := hm.bottom_lt
  by_contra habove
  have harea := area_le (bottom - y) width (by omega) (by omega) (by omega)
    (by omega)
  have hsize : (bottom - y + 1) * width - x = (bottom - y) * width + (width - x) := by ring
  have hiff := ((fills_ed_toEnd hm ha hs (.inl rfl)).erases_iff _).mp (h.toEnd [] (.inl rfl)) _ hon
  rw [hsize, covers_iff (by omega) (by omega)] at hiff
  have hin := (hiff.mpr ⟨Int.le_refl _, by omega⟩).1.1
  rw [hm.toInt_top, hm.toInt_y] at hin
  exact habove hin

/-- With the cursor below the window, `ED` 1 goes on behind the window. -/
theorem le_bottom_of_blanksExactly (h : s.BlanksExactly cells 74 (s.inRows c)) : y ≤ bottom := by
  have hx0 := hm.x_nonneg
  have hxlt := hm.x_lt
  have hylt := hm.y_lt
  have htop := hm.top_nonneg
  have hrows := hm.rows
  have hhlt := hm.height_lt
  have hwlt := hm.width_lt
  by_contra hbelow
  have hnext : ((s.window c).bottom + 1).toInt = bottom + 1 := by
    rw [toInt_add_one (by rw [hm.toInt_bottom]; omega), hm.toInt_bottom]
  have hon := hm.onScreen_start ((s.window c).bottom + 1) (by omega) (by omega)
  have harea := area_le (y - top) width (by omega) (by omega) (by omega)
    (by omega)
  have hless := area_le (bottom + 1 - top) width (by omega) (by omega)
    (by omega) (by omega)
  have hmore := area_le (y - (bottom + 1)) width (by omega) (by omega)
    (by omega) (by omega)
  have hsize : (y - top + 1) * width - x = (y - top) * width + (width - x) := by ring
  have hsplit : (y - top) * width = (bottom + 1 - top) * width + (y - (bottom + 1)) * width := by
    ring
  have hplace : (bottom + 1) * width = top * width + (bottom + 1 - top) * width := by ring
  have hiff := ((fills_ed_toCursor hm ha hs).erases_iff _).mp h.toCursor _ hon
  rw [hsize, covers_iff (by omega) (by omega), place_start, place_start, hnext, hm.toInt_top,
    hm.toInt_sizeX] at hiff
  have hin := (hiff.mpr ⟨by omega, by omega⟩).1.2
  change ((s.window c).bottom + 1).toInt ≤ _ at hin
  rw [hnext, hm.toInt_bottom] at hin
  omega

/-- `ED` 1 leaves the cursor, or erases the cell behind it, unless the cursor is
in the middle of its row. -/
theorem middle_of_blanksExactly (h : s.BlanksExactly cells 74 (s.inRows c)) :
    width = 2 * x + 1 := by
  have habove := top_le_of_blanksExactly hm ha hs h
  have hbelow := le_bottom_of_blanksExactly hm ha hs h
  have hon := hm.onScreen_cursor
  have hx0 := hm.x_nonneg
  have hxlt := hm.x_lt
  have htop := hm.top_nonneg
  have hylt := hm.y_lt
  have hhlt := hm.height_lt
  have hwlt := hm.width_lt
  have harea := area_le (y - top) width (by omega) (by omega) (by omega)
    (by omega)
  have hsize : (y - top + 1) * width - x = (y - top) * width + (width - x) := by ring
  have hsplit : y * width = top * width + (y - top) * width := by ring
  have hiff := ((fills_ed_toCursor hm ha hs).erases_iff _).mp h.toCursor
  have hrows : s.inRows c (s.cursor c) := by
    unfold inRows
    rw [hm.toInt_top, hm.toInt_bottom, hm.toInt_y]
    exact ⟨habove, hbelow⟩
  -- the cell of the cursor is erased
  have hcursor : 2 * x < width := by
    have hcovers := (hiff _ hon).mp ⟨hrows, .inr ⟨rfl, Int.le_refl _⟩⟩
    rw [hsize, covers_iff (by omega) (by omega), place_start, hm.toInt_top, hm.toInt_sizeX,
      hm.place_cursor] at hcovers
    omega
  by_contra hne
  -- otherwise the cell behind the cursor is erased as well
  have hnext : ((s.cursor c).x + 1).toInt = x + 1 := by
    rw [toInt_add_one (by rw [hm.toInt_x]; omega), hm.toInt_x]
  have hnextOn : OnScreen (c.getScreenBufferInfo s.con).size
      { s.cursor c with x := (s.cursor c).x + 1 } := by
    have hwidth := hm.toInt_sizeX
    obtain ⟨-, -, hy0, hyh⟩ := hon
    refine ⟨Int16.le_iff_toInt_le.mpr ?_, Int16.lt_iff_toInt_lt.mpr ?_, hy0, hyh⟩
    · show (0 : Int) ≤ ((s.cursor c).x + 1).toInt
      omega
    · show ((s.cursor c).x + 1).toInt < _
      omega
  have hbehind := (hiff _ hnextOn).mpr (by
    rw [hsize, covers_iff (by omega) (by omega), place_start, hm.toInt_top, hm.toInt_sizeX]
    unfold place
    dsimp only
    rw [hnext, hm.toInt_y, hm.toInt_sizeX]
    omega)
  have hbefore : (s.cursor c).y.toInt < (s.cursor c).y.toInt ∨
      ((s.cursor c).y.toInt = (s.cursor c).y.toInt ∧
        ((s.cursor c).x + 1).toInt ≤ (s.cursor c).x.toInt) := hbehind.2
  have hxint := hm.toInt_x
  omega

end

/-- `ED` and `EL` erase what they should exactly with the cursor in the middle of
a row of the window. -/
theorem erasing_iff (cells : c.Cells) (ha : c.Ascii) (hc : c.MovesCursor) (hs : s.escape = none)
    (hi : (c.getScreenBufferInfo s.con).Sound) :
    (s.BlanksExactly cells 74 (s.inRows c) ∧
        s.BlanksExactly cells 75 fun pos => pos.y.toInt = (s.cursor c).y.toInt) ↔
      s.inRows c (s.cursor c) ∧
        (c.getScreenBufferInfo s.con).size.x.toInt = 2 * (s.cursor c).x.toInt + 1 := by
  have hm := measures hi
  constructor
  · rintro ⟨hwindow, -⟩
    exact ⟨⟨top_le_of_blanksExactly hm ha hs hwindow, le_bottom_of_blanksExactly hm ha hs hwindow⟩,
      middle_of_blanksExactly hm ha hs hwindow⟩
  · rintro ⟨hrow, hmiddle⟩
    exact ⟨blanksExactly_window hm ha hs hc hrow hmiddle, blanksExactly_line hm ha hs⟩

end Screen

/-! ### On a console that keeps what it is told -/

def Store.cellsLaws : Store.console.Cells where
  cell := Store.cells
  paint := fun k f => { k with cells := f }
  info_paint := fun _ _ => rfl
  cell_paint := fun _ _ _ _ => rfl
  cell_setCursorPosition := fun _ _ _ => rfl
  info_fillOutputAttribute := fun _ _ _ _ => rfl
  cell_fillOutputAttribute := fun _ _ _ _ _ _ _ => rfl
  fillOutputCharacter := fun _ _ _ _ _ => rfl
  cell_fillOutputCharacter := fun _ _ _ _ _ _ _ => rfl

/-- From the corner, `ESC [ 1 J` erases the whole first row. -/
theorem first_row_from_corner :
    ¬ (Screen.start.BlanksExactly Store.cellsLaws 74 (Screen.start.inRows Store.console) ∧
      Screen.start.BlanksExactly Store.cellsLaws 75 fun pos =>
        pos.y.toInt = (Screen.start.cursor Store.console).y.toInt) := by
  rintro ⟨h, -⟩
  have hbehind : ¬ (Screen.start.inRows Store.console ⟨1, 0⟩ ∧
      ReadBefore ⟨1, 0⟩ (Screen.start.cursor Store.console)) := by
    rintro ⟨-, hlt | hle⟩
    · exact absurd hlt (by decide)
    · exact absurd hle (by decide)
  have hkept := (h.toCursor ⟨1, 0⟩ (by decide)).2 hbehind fun _ => (33, 0)
  have hchar : (Screen.start.after Store.cellsLaws (controlSequence [49] [] 74)
      (fun _ => (33, 0)) ⟨1, 0⟩).1 = 33 := congrArg Prod.fst hkept
  exact absurd hchar (by decide)

/-- An 80 column screen, with the cursor in its corner, and one of 81 columns, with the cursor in
the middle of the fourth row. -/
theorem erasing_iff_corner :
    ((Screen.start.BlanksExactly Store.cellsLaws 74 (Screen.start.inRows Store.console) ∧
        Screen.start.BlanksExactly Store.cellsLaws 75 fun pos =>
          pos.y.toInt = (Screen.start.cursor Store.console).y.toInt) ↔
      Screen.start.inRows Store.console (Screen.start.cursor Store.console) ∧
        (Store.console.getScreenBufferInfo Screen.start.con).size.x.toInt =
          2 * (Screen.start.cursor Store.console).x.toInt + 1) ∧
    (Screen.startAt 81 ⟨40, 3⟩).BlanksExactly Store.cellsLaws 74
        ((Screen.startAt 81 ⟨40, 3⟩).inRows Store.console) ∧
      (Screen.startAt 81 ⟨40, 3⟩).BlanksExactly Store.cellsLaws 75 fun pos =>
        pos.y.toInt = ((Screen.startAt 81 ⟨40, 3⟩).cursor Store.console).y.toInt :=
  ⟨Screen.erasing_iff Store.cellsLaws Store.ascii Store.movesCursor rfl
      ⟨by decide, by decide, by decide, by decide⟩,
    (Screen.erasing_iff Store.cellsLaws Store.ascii Store.movesCursor rfl
      ⟨by decide, by decide, by decide, by decide⟩).mpr
        ⟨⟨by decide, by decide⟩, by decide⟩⟩

end MinC.Vfs
