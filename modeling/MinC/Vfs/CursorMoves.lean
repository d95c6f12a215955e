import MinC.Vfs.CursorPlaces
import MinC.Vfs.Collector

/-!
How far the cursor moves.

A count is any decimal number. It is cut off at the largest `LONG`, of which a
`WORD` keeps sixteen bits, and these are added to a coordinate of sixteen bits
with a sign. The sum is held against the edge that the cursor moves to, and
against no other; where the cursor wraps, it is brought back by one line. What
the functions do with a count therefore depends on what is left of it.
-/

namespace MinC.Vfs

open MinC.Lib

inductive Direction
  | up
  | down
  | forward
  | back
  deriving DecidableEq

namespace Direction

/-- The byte that ends the sequence. -/
def char : Direction → UInt8
  | up => 65
  | down => 66
  | forward => 67
  | back => 68

/-- The way that a position has gone in the direction. -/
def along : Direction → Coord → Int
  | up, pos => -pos.y.toInt
  | down, pos => pos.y.toInt
  | forward, pos => pos.x.toInt
  | back, pos => -pos.x.toInt

/-- The line that a move in the direction does not leave. -/
def across : Direction → Coord → Int
  | up, pos => pos.x.toInt
  | down, pos => pos.x.toInt
  | forward, pos => pos.y.toInt
  | back, pos => pos.y.toInt

/-- The end of the way. -/
def edge : Direction → SmallRect → Int
  | up, window => -window.top.toInt
  | down, window => window.bottom.toInt
  | forward, window => window.right.toInt
  | back, window => -window.left.toInt

/-- How far a coordinate of sixteen bits goes in the direction. -/
def limit : Direction → Int
  | up => 0x8000
  | down => 0x7FFF
  | forward => 0x7FFF
  | back => 0x8000

/-- Whether the cursor goes on in another line. -/
def wraps : Direction → Bool → Bool
  | up, _ => false
  | down, _ => false
  | forward, vEdit => vEdit
  | back, vEdit => vEdit

end Direction

/-- One position is not after another one in the order of reading. -/
def ReadBefore (a b : Coord) : Prop :=
  a.y.toInt < b.y.toInt ∨ (a.y.toInt = b.y.toInt ∧ a.x.toInt ≤ b.x.toInt)

def Within (window : SmallRect) (pos : Coord) : Prop :=
  window.left.toInt ≤ pos.x.toInt ∧ pos.x.toInt ≤ window.right.toInt ∧
    window.top.toInt ≤ pos.y.toInt ∧ pos.y.toInt ≤ window.bottom.toInt

/-- The cursor does not move against the direction. Where it wraps, the order of
reading is what counts, and elsewhere it stays in its line as well. -/
def Onward (d : Direction) (wraps : Bool) (old new : Coord) : Prop :=
  if wraps then if d = .back then ReadBefore new old else ReadBefore old new
  else d.across new = d.across old ∧ d.along old ≤ d.along new

/-- A count that reaches the edge takes the cursor there. -/
def Stops (d : Direction) (window : SmallRect) (count : Int) (old new : Coord) : Prop :=
  d.edge window - d.along old ≤ count → d.along new = d.edge window

/-- What is left of the count does as the count would. -/
def CountFits (d : Direction) (wraps : Bool) (window : SmallRect) (pos : Coord)
    (count taken : Int) : Prop :=
  if wraps then
    if d = .back then
      taken ≤ pos.x.toInt ∨
        (taken ≤ pos.x.toInt + window.right.toInt + 1 ∧ taken ≤ pos.x.toInt + 0x8000 ∧
          window.top.toInt < pos.y.toInt)
    else
      pos.x.toInt + taken ≤ window.right.toInt ∨
        (pos.x.toInt + taken ≤ 2 * window.right.toInt + 1 ∧ pos.x.toInt + taken < 0x8000 ∧
          pos.y.toInt < window.bottom.toInt)
  else
    count < d.edge window - d.along pos ∨
      (d.edge window - d.along pos ≤ taken ∧ taken ≤ d.limit - d.along pos)

/-- The count that a parameter asks for. Nothing and zero ask for one. -/
def asked (p : List UInt8) : Int := if digits p = 0 then 1 else digits p

/-- What a `WORD` keeps of it. -/
def taken (p : List UInt8) : Int := (word (number p)).toNat

theorem taken_eq (p : List UInt8) : taken p = number p % 0x10000 := by
  show (((UInt16.ofNat (number p % 2 ^ 16).toNat).toNat : Nat) : Int) = _
  rw [UInt16.toNat_ofNat']
  omega

theorem taken_bounds (p : List UInt8) : 0 ≤ taken p ∧ taken p < 0x10000 := by
  rw [taken_eq]
  omega

/-- A count that a coordinate can hold is taken as it is. -/
theorem taken_of_lt {p : List UInt8} (h : asked p < 0x8000) : taken p = asked p := by
  rw [taken_eq]
  unfold asked at h ⊢
  unfold number
  split_ifs at h ⊢ <;> omega

theorem toInt_count (p : List UInt8) : (word (number p)).toInt16.toInt = wrap16 (taken p) := by
  rw [toInt_word, taken_eq]
  unfold wrap16
  omega

namespace Screen

variable {κ : Type} {c : Console κ} {s u : Screen κ}

/-- Where the functions put the cursor. -/
def target (d : Direction) (vEdit : Bool) (window : SmallRect) (pos : Coord) (count : Int16) :
    Coord :=
  match d with
  | .up => { pos with y := if pos.y - count < window.top then window.top else pos.y - count }
  | .down => { pos with y := if window.bottom < pos.y + count then window.bottom else pos.y + count }
  | .forward =>
      if window.right < pos.x + count then
        if vEdit then { x := pos.x + count - (window.right + 1), y := pos.y + 1 }
        else { pos with x := window.right }
      else { pos with x := pos.x + count }
  | .back =>
      if pos.x - count < 0 then
        if vEdit then { x := pos.x - count + (window.right + 1), y := pos.y - 1 }
        else { pos with x := 0 }
      else { pos with x := pos.x - count }

section

variable {window : SmallRect} {pos : Coord} {count : Int16} {m k : Int}

/-- A cursor in a window of a screen, a count, and what is left of the count. -/
structure Asks (window : SmallRect) (pos : Coord) (count : Int16) (m k : Int) : Prop where
  within : Within window pos
  left : window.left = 0
  top : 0 ≤ window.top.toInt
  right : window.right.toInt < 0x7FFF
  bottom : window.bottom.toInt < 0x7FFF
  count : count.toInt = wrap16 k
  nonneg : 0 ≤ k
  lt : k < 0x10000
  small : m < 0x8000 → k = m

/-- A coordinate that runs out of numbers comes back at the other end. -/
theorem Asks.toInt_sub (h : Asks window pos count m k) (a : Int16) :
    (a - count).toInt = if a.toInt - k < -0x8000 then a.toInt - k + 0x10000 else a.toInt - k := by
  have hcount := h.count
  have hk := h.nonneg
  have hk' := h.lt
  have ha := toInt_bounds a
  rw [MinC.Vfs.toInt_sub, hcount]
  unfold wrap16
  split_ifs <;> omega

theorem Asks.toInt_add (h : Asks window pos count m k) (a : Int16) :
    (a + count).toInt = if 0x7FFF < a.toInt + k then a.toInt + k - 0x10000 else a.toInt + k := by
  have hcount := h.count
  have hk := h.nonneg
  have hk' := h.lt
  have ha := toInt_bounds a
  rw [MinC.Vfs.toInt_add, hcount]
  unfold wrap16
  split_ifs <;> omega

theorem toInt_add_one {a : Int16} (ha : a.toInt < 0x7FFF) : (a + 1).toInt = a.toInt + 1 := by
  have hbounds := toInt_bounds a
  rw [MinC.Vfs.toInt_add]
  change wrap16 (a.toInt + 1) = _
  unfold wrap16
  omega

theorem toInt_sub_one {a : Int16} (ha : 0 ≤ a.toInt) : (a - 1).toInt = a.toInt - 1 := by
  have hbounds := toInt_bounds a
  rw [MinC.Vfs.toInt_sub]
  change wrap16 (a.toInt - 1) = _
  unfold wrap16
  omega

theorem target_up (h : Asks window pos count m k) (vEdit : Bool) :
    (Within window (target .up vEdit window pos count) ∧
        Onward .up false pos (target .up vEdit window pos count) ∧
        Stops .up window m pos (target .up vEdit window pos count)) ↔
      CountFits .up false window pos m k := by
  have hsub := h.toInt_sub pos.y
  obtain ⟨⟨hx, hx', hy, hy'⟩, hleft, htop, hright, hbottom, hcount, hk, hk', hsmall⟩ := h
  simp only [target, Within, Onward, Stops, CountFits, Direction.across, Direction.along,
    Direction.edge, Direction.limit, Bool.false_eq_true, if_false, Int16.lt_iff_toInt_lt,
    true_and, imp_iff_not_or]
  by_cases hlow : pos.y.toInt - k < -0x8000
  · rw [if_pos hlow] at hsub
    rw [if_neg (by omega), hsub]
    omega
  · rw [if_neg hlow] at hsub
    by_cases hclip : (pos.y - count).toInt < window.top.toInt
    · rw [if_pos hclip]
      omega
    · rw [if_neg hclip, hsub]
      omega

theorem target_down (h : Asks window pos count m k) (vEdit : Bool) :
    (Within window (target .down vEdit window pos count) ∧
        Onward .down false pos (target .down vEdit window pos count) ∧
        Stops .down window m pos (target .down vEdit window pos count)) ↔
      CountFits .down false window pos m k := by
  have hadd := h.toInt_add pos.y
  obtain ⟨⟨hx, hx', hy, hy'⟩, hleft, htop, hright, hbottom, hcount, hk, hk', hsmall⟩ := h
  simp only [target, Within, Onward, Stops, CountFits, Direction.across, Direction.along,
    Direction.edge, Direction.limit, Bool.false_eq_true, if_false, Int16.lt_iff_toInt_lt,
    true_and, imp_iff_not_or]
  by_cases hhigh : 0x7FFF < pos.y.toInt + k
  · rw [if_pos hhigh] at hadd
    rw [if_neg (by omega), hadd]
    omega
  · rw [if_neg hhigh] at hadd
    by_cases hclip : window.bottom.toInt < (pos.y + count).toInt
    · rw [if_pos hclip]
      omega
    · rw [if_neg hclip, hadd]
      omega

theorem target_forward (h : Asks window pos count m k) :
    (Within window (target .forward false window pos count) ∧
        Onward .forward false pos (target .forward false window pos count) ∧
        Stops .forward window m pos (target .forward false window pos count)) ↔
      CountFits .forward false window pos m k := by
  have hadd := h.toInt_add pos.x
  obtain ⟨⟨hx, hx', hy, hy'⟩, hleft, htop, hright, hbottom, hcount, hk, hk', hsmall⟩ := h
  have hzero : (0 : Int16).toInt = 0 := rfl
  rw [hleft, hzero] at hx
  simp only [target, Within, Onward, Stops, CountFits, Direction.across, Direction.along,
    Direction.edge, Direction.limit, Bool.false_eq_true, if_false, Int16.lt_iff_toInt_lt,
    hleft, hzero, imp_iff_not_or]
  by_cases hhigh : 0x7FFF < pos.x.toInt + k
  · rw [if_pos hhigh] at hadd
    rw [if_neg (by omega)]
    dsimp only
    omega
  · rw [if_neg hhigh] at hadd
    by_cases hclip : window.right.toInt < (pos.x + count).toInt
    · rw [if_pos hclip]
      dsimp only
      omega
    · rw [if_neg hclip]
      dsimp only
      omega

theorem target_back (h : Asks window pos count m k) :
    (Within window (target .back false window pos count) ∧
        Onward .back false pos (target .back false window pos count) ∧
        Stops .back window m pos (target .back false window pos count)) ↔
      CountFits .back false window pos m k := by
  have hsub := h.toInt_sub pos.x
  obtain ⟨⟨hx, hx', hy, hy'⟩, hleft, htop, hright, hbottom, hcount, hk, hk', hsmall⟩ := h
  have hzero : (0 : Int16).toInt = 0 := rfl
  rw [hleft, hzero] at hx
  simp only [target, Within, Onward, Stops, CountFits, Direction.across, Direction.along,
    Direction.edge, Direction.limit, Bool.false_eq_true, if_false, Int16.lt_iff_toInt_lt,
    hleft, hzero, imp_iff_not_or]
  by_cases hlow : pos.x.toInt - k < -0x8000
  · rw [if_pos hlow] at hsub
    rw [if_neg (by omega)]
    dsimp only
    omega
  · rw [if_neg hlow] at hsub
    by_cases hclip : (pos.x - count).toInt < 0
    · rw [if_pos hclip]
      dsimp only
      omega
    · rw [if_neg hclip]
      dsimp only
      omega

/-- What wraps is brought back by one line, and by no more. -/
theorem target_forward_wraps (h : Asks window pos count m k) :
    (Within window (target .forward true window pos count) ∧
        Onward .forward true pos (target .forward true window pos count)) ↔
      CountFits .forward true window pos m k := by
  have hadd := h.toInt_add pos.x
  obtain ⟨⟨hx, hx', hy, hy'⟩, hleft, htop, hright, hbottom, hcount, hk, hk', hsmall⟩ := h
  have hzero : (0 : Int16).toInt = 0 := rfl
  rw [hleft, hzero] at hx
  have hwidth := toInt_add_one hright
  have hnext := toInt_add_one (a := pos.y) (by omega)
  have hrest : (pos.x + count - (window.right + 1)).toInt =
      wrap16 ((pos.x + count).toInt - (window.right.toInt + 1)) := by
    rw [MinC.Vfs.toInt_sub, hwidth]
  unfold wrap16 at hrest
  simp only [target, Within, Onward, ReadBefore, CountFits, if_true, Int16.lt_iff_toInt_lt,
    hleft, hzero, show (Direction.forward = Direction.back) = False from by simp, if_false]
  by_cases hhigh : 0x7FFF < pos.x.toInt + k
  · rw [if_pos hhigh] at hadd
    rw [if_neg (by omega)]
    dsimp only
    omega
  · rw [if_neg hhigh] at hadd
    by_cases hclip : window.right.toInt < (pos.x + count).toInt
    · rw [if_pos hclip]
      dsimp only
      omega
    · rw [if_neg hclip]
      dsimp only
      omega

theorem target_back_wraps (h : Asks window pos count m k) :
    (Within window (target .back true window pos count) ∧
        Onward .back true pos (target .back true window pos count)) ↔
      CountFits .back true window pos m k := by
  have hsub := h.toInt_sub pos.x
  obtain ⟨⟨hx, hx', hy, hy'⟩, hleft, htop, hright, hbottom, hcount, hk, hk', hsmall⟩ := h
  have hzero : (0 : Int16).toInt = 0 := rfl
  rw [hleft, hzero] at hx
  have hwidth := toInt_add_one hright
  have hprevious := toInt_sub_one (a := pos.y) (by omega)
  have hrest : (pos.x - count + (window.right + 1)).toInt =
      wrap16 ((pos.x - count).toInt + (window.right.toInt + 1)) := by
    rw [MinC.Vfs.toInt_add, hwidth]
  unfold wrap16 at hrest
  simp only [target, Within, Onward, ReadBefore, CountFits, if_true, Int16.lt_iff_toInt_lt,
    hleft, hzero]
  by_cases hlow : pos.x.toInt - k < -0x8000
  · rw [if_pos hlow] at hsub
    rw [if_neg (by omega)]
    dsimp only
    omega
  · rw [if_neg hlow] at hsub
    by_cases hclip : (pos.x - count).toInt < 0
    · rw [if_pos hclip]
      dsimp only
      omega
    · rw [if_neg hclip]
      dsimp only
      omega

/-- The four directions in both modes. -/
theorem target_iff (h : Asks window pos count m k) (d : Direction) (vEdit : Bool) :
    (Within window (target d vEdit window pos count) ∧
        Onward d (d.wraps vEdit) pos (target d vEdit window pos count) ∧
        (d.wraps vEdit = false → Stops d window m pos (target d vEdit window pos count))) ↔
      CountFits d (d.wraps vEdit) window pos m k := by
  have hyes : ∀ {P Q R : Prop}, (P ∧ Q ↔ R) → (P ∧ Q ∧ (true = false → Stops d window m pos
      (target d vEdit window pos count)) ↔ R) := by
    intro P Q R hiff
    rw [← hiff, and_iff_left fun h => by cases h]
  cases d with
  | up => simpa [Direction.wraps] using target_up h vEdit
  | down => simpa [Direction.wraps] using target_down h vEdit
  | forward =>
      cases vEdit with
      | false => simpa [Direction.wraps] using target_forward h
      | true => exact hyes (target_forward_wraps h)
  | back =>
      cases vEdit with
      | false => simpa [Direction.wraps] using target_back h
      | true => exact hyes (target_back_wraps h)

end

/-! ### The sequences -/

/-- The functions move the cursor to the target. -/
theorem ansiControl_char (d : Direction) (size : Nat)
    (hrender : u.ansiRenderCursor = u.info.cursorPosition) :
    u.ansiControl c d.char size =
      u.moveTo c (target d u.tty.vEdit u.info.window u.info.cursorPosition
        (word u.argsToInt).toInt16) := by
  cases d with
  | up =>
      show u.ansiCursorUp c (word u.argsToInt) = _
      unfold ansiCursorUp
      rw [hrender]
      rfl
  | down =>
      show u.ansiCursorDown c (word u.argsToInt) = _
      unfold ansiCursorDown
      rw [hrender]
      rfl
  | forward => rfl
  | back => rfl

/-- The cursor stays in the window, does not move against the direction, and
stops at the edge where it does not wrap. -/
structure Obeys (c : Console κ) (s : Screen κ) (d : Direction) (p : List UInt8) (s' : Screen κ) :
    Prop where
  inside : s'.seq.inside = true
  agrees : s'.At c s'.info.cursorPosition
  within : Within (s.window c) s'.info.cursorPosition
  onward : Onward d (d.wraps s.tty.vEdit) (s.cursor c) s'.info.cursorPosition
  stops : d.wraps s.tty.vEdit = false →
    Stops d (s.window c) (asked p) (s.cursor c) s'.info.cursorPosition

theorem within_onScreen (hi : (c.getScreenBufferInfo s.con).Sound) {pos : Coord}
    (h : Within (s.window c) pos) : OnScreen (c.getScreenBufferInfo s.con).size pos := by
  obtain ⟨hx, hx', hy, hy'⟩ := h
  have hwidth := window_width hi
  obtain ⟨htop, hlast⟩ := window_rows hi
  have hleft : (s.window c).left.toInt = 0 := rfl
  refine ⟨?_, ?_, ?_, ?_⟩
  · rw [Int16.le_iff_toInt_le]
    change (0 : Int) ≤ _
    omega
  · rw [Int16.lt_iff_toInt_lt]
    omega
  · rw [Int16.le_iff_toInt_le]
    change (0 : Int) ≤ _
    omega
  · rw [Int16.lt_iff_toInt_lt]
    omega

theorem asks_count (hi : (c.getScreenBufferInfo s.con).Sound)
    (hcursor : Within (s.window c) (s.cursor c)) (p : List UInt8) :
    Asks (s.window c) (s.cursor c) (word (number p)).toInt16 (asked p) (taken p) := by
  have hwidth := window_width hi
  have hsize := toInt_bounds (c.getScreenBufferInfo s.con).size.x
  have hheight := toInt_bounds (c.getScreenBufferInfo s.con).size.y
  have htop := hi.top
  have hlast := hi.bottom
  rw [Int16.le_iff_toInt_le] at htop
  rw [Int16.lt_iff_toInt_lt] at hlast
  change (s.window c).bottom.toInt < _ at hlast
  have hleft : (s.window c).left.toInt = 0 := rfl
  obtain ⟨hnonneg, hlt⟩ := taken_bounds p
  exact
    { within := hcursor
      left := rfl
      top := htop
      right := by omega
      bottom := by omega
      count := toInt_count p
      nonneg := hnonneg
      lt := hlt
      small := taken_of_lt }

/-- The count does as it should exactly when what is left of it does, and the
sequence fits into the collector. -/
theorem obeys_iff (ha : c.Ascii) (hc : c.MovesCursor) (hs : Rests s)
    (hi : (c.getScreenBufferInfo s.con).Sound) (hcursor : Within (s.window c) (s.cursor c))
    (d : Direction) {p : List UInt8} (hp : Numeral p) :
    s.Obeys c d p (s.write c (controlSequence p [] d.char)).1 ↔
      sequenceSize p [] ≤ ansiBufSize ∧
        CountFits d (d.wraps s.tty.vEdit) (s.window c) (s.cursor c) (asked p) (taken p) := by
  have hletter : isLetter d.char = true := by cases d <;> rfl
  obtain ⟨u, hwrite, hu⟩ := write_controlSequence ha hs.escape hp numeral_none hletter
  have hinfo := info_ready hu
  have hrender : u.ansiRenderCursor = u.info.cursorPosition := by
    rw [ansiRenderCursor_of_onScreen hi.cursor hinfo, hinfo]
    rfl
  have hargs : u.argsToInt = number p := hu.args
  have hvEdit : u.tty.vEdit = s.tty.vEdit := by
    rw [hu.tty]
    rfl
  have hcontrol := ansiControl_char (c := c) d (sequenceSize p []) hrender
  rw [hinfo, hvEdit, hargs] at hcontrol
  change _ = u.moveTo c (target d s.tty.vEdit (s.window c) (s.cursor c) _) at hcontrol
  have hmoves := ansi_moveTo hc hu hcontrol
  have htarget := target_iff (asks_count hi hcursor p) d s.tty.vEdit
  have hinside := inside_ansi (c := c) (s := u) d.char (sequenceSize p [])
  rw [hu.inside, and_iff_right (show (s.renderWindow c).seq.inside = true from hs.inside)] at hinside
  rw [hwrite]
  -- both directions speak of one position
  generalize target d s.tty.vEdit (s.window c) (s.cursor c) (word (number p)).toInt16 = pos
    at hcontrol hmoves htarget
  constructor
  · intro h
    obtain ⟨hroom, -, hwithin, honward, hstops⟩ := h
    rw [hmoves.info] at hwithin honward hstops
    exact ⟨(hinside.mp hroom).1, htarget.mp ⟨hwithin, honward, hstops⟩⟩
  · rintro ⟨hroom, hfits⟩
    obtain ⟨hwithin, honward, hstops⟩ := htarget.mpr hfits
    have hon := within_onScreen hi hwithin
    have hat := hmoves.con hon
    have hdone : (u.ansiSequence c d.char (sequenceSize p [])).1 = true := by
      rw [hu.ansiSequence, hcontrol]
      show (c.setCursorPosition u.con pos).1 = true
      rw [hu.con]
      exact (hc.setCursorPosition s.con pos hon).1
    refine ⟨hinside.mpr ⟨hroom, fun h => by rw [hdone] at h; cases h⟩, ?_, ?_, ?_, ?_⟩
    · rw [hmoves.info]
      exact hat
    · rw [hmoves.info]
      exact hwithin
    · rw [hmoves.info]
      exact honward
    · rw [hmoves.info]
      exact hstops

end Screen

/-- A count of 65536 does not move the cursor down from the corner. -/
theorem count_of_a_word :
    ¬ Screen.start.Obeys Store.console .down [54, 53, 53, 51, 54]
      (Screen.start.write Store.console
        (controlSequence [54, 53, 53, 51, 54] [] Direction.down.char)).1 := by
  intro h
  have hbottom := h.stops rfl (by decide)
  exact absurd hbottom (by decide)

/-- Ten columns forward. -/
theorem obeys_iff_ten :
    Screen.start.Obeys Store.console .forward [49, 48]
        (Screen.start.write Store.console (controlSequence [49, 48] [] Direction.forward.char)).1 ↔
      sequenceSize [49, 48] [] ≤ ansiBufSize ∧
        CountFits .forward (Direction.forward.wraps Screen.start.tty.vEdit)
          (Screen.start.window Store.console) (Screen.start.cursor Store.console)
          (asked [49, 48]) (taken [49, 48]) :=
  Screen.obeys_iff Store.ascii Store.movesCursor ⟨rfl, rfl⟩
    ⟨by decide, by decide, by decide, by decide⟩ ⟨by decide, by decide, by decide, by decide⟩
    .forward (numeral_cons rfl (numeral_cons rfl numeral_nil))

end MinC.Vfs
