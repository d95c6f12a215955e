import MinC.Vfs.ScreenRuns

/-!
Every byte once.

A call of `screen_write` keeps a pointer into its buffer and a count of the
bytes from there on that are held back to be printed. A byte of a sequence and
a control character move the pointer, any other byte the count, and a control
character that nothing is done for is the first byte of the next run. What has
been handled and what the pointer stands in front of are the buffer at any time,
whatever the console refuses to do in between.
-/

namespace MinC.Vfs

open MinC.Lib

/-- What is done with bytes: a run is printed, or a control character or a byte
of a sequence is handled on its own. -/
inductive Handled
  | printed (run : List UInt8)
  | control (char : UInt8)
  | escape (char : UInt8)
  deriving DecidableEq

def Handled.bytes : Handled → List UInt8
  | .printed run => run
  | .control char => [char]
  | .escape char => [char]

/-- The bytes that were handled, in that order. -/
def handledBytes (handled : List Handled) : List UInt8 := handled.flatMap Handled.bytes

/-- Whether a console prints a run, and whether its record can be read. -/
structure Answers (κ : Type) where
  writes : κ → List UInt8 → Bool
  reads : κ → Bool

/-- A console that does what it is asked to. -/
def Answers.always (κ : Type) : Answers κ := ⟨fun _ _ => true, fun _ => true⟩

section

variable {κ : Type} (c : Console κ) (a : Answers κ)

namespace Screen

/-- Read the record if the console lets us. -/
def renderIf (s : Screen κ) : Screen κ := if a.reads s.con then s.renderWindow c else s

/-- Print a run, and read the record again if it was printed. -/
def putStringIf (s : Screen κ) (run : List UInt8) : Screen κ :=
  if a.writes s.con run then { s with con := c.writeFile s.con run }.renderIf c a else s

end Screen

/-- A call on its way: the buffer from its pointer on, how many bytes of it are
held back, how many have been gone through, and what has been handled. -/
structure Pass (κ : Type) where
  buffer : List UInt8
  count : Nat
  result : UInt32
  screen : Screen κ
  handled : List Handled

namespace Pass

/-- `ScreenPutString`, for what is held back. -/
def put (p : Pass κ) : Pass κ :=
  let run := p.buffer.take p.count
  { p with
    screen := p.screen.putStringIf c a run
    handled := p.handled ++ [.printed run] }

/-- A byte of a sequence. -/
def collect (p : Pass κ) (n : Nat) (char : UInt8) : Pass κ :=
  { p with
    screen := p.screen.escapeAt c n char
    handled := p.handled ++ [.escape char]
    buffer := p.buffer.drop 1
    count := 0 }

/-- A control character, of which the pointer is moved to the first byte. -/
def command (p : Pass κ) (char : UInt8) : Pass κ :=
  let p := { p.put c a with buffer := p.buffer.drop p.count, count := 0 }
  match p.screen.control c char with
  | some s =>
      { p with
        screen := s
        handled := p.handled ++ [.control char]
        buffer := p.buffer.drop 1 }
  | none => { p with count := p.count + 1 }

/-- One round of the loop. -/
def round (p : Pass κ) : Pass κ :=
  let char := p.buffer.getD p.count 0
  let p := { p with screen := p.screen.withChar char }
  let p :=
    match p.screen.escape with
    | some n => p.collect c n char
    | none => if char < 32 then p.command c a char else { p with count := p.count + 1 }
  { p with result := p.result + 1 }

/-- The loop, as often as `lSize` says. -/
def rounds : Nat → Pass κ → Pass κ
  | 0, p => p
  | size + 1, p => rounds size (p.round c a)

/-- The end of a call prints what is held back. -/
def finish (p : Pass κ) : Pass κ := if p.count = 0 then p else p.put c a

end Pass

/-- `screen_write`. It fails if the record cannot be read at the start. The size
is compared as a signed one. -/
def screenWrite (s : Screen κ) (buffer : List UInt8) (size : UInt32) : Option (Pass κ) :=
  if screenMode s.tty.oFlags &&& enableVirtualTerminalProcessing ≠ 0 then
    some ⟨buffer, 0, size, { s with con := c.writeFile s.con (buffer.take size.toNat) }, []⟩
  else if !a.reads s.con then none
  else
    some ((Pass.rounds c a size.toInt32.toInt.toNat
      ⟨buffer, 0, 0, s.renderWindow c, []⟩).finish c a)

end

/-! ### One round -/

@[simp] theorem handledBytes_nil : handledBytes [] = [] := rfl

@[simp] theorem handledBytes_concat (handled : List Handled) (h : Handled) :
    handledBytes (handled ++ [h]) = handledBytes handled ++ h.bytes := by
  rw [handledBytes, List.flatMap_append, List.flatMap_singleton]
  rfl

namespace Pass

variable {κ : Type} {c : Console κ} {a : Answers κ} {input : List UInt8} {n : Nat} {p : Pass κ}

/-- After `n` bytes, those that were handled and those that are held back are
the first `n`. Nothing is held back within a sequence. -/
structure Accounts (input : List UInt8) (n : Nat) (p : Pass κ) : Prop where
  whole : handledBytes p.handled ++ p.buffer = input
  gone : (handledBytes p.handled).length + p.count = n
  free : p.screen.escape ≠ none → p.count = 0
  counted : p.result = UInt32.ofNat n

theorem escape_putStringIf (s : Screen κ) (run : List UInt8) :
    (s.putStringIf c a run).escape = s.escape := by
  unfold Screen.putStringIf Screen.renderIf
  split_ifs
  · rfl
  · rfl
  · rfl

section

variable {char : UInt8}

theorem round_escape {m : Nat} (h : p.screen.escape = some m) :
    p.round c a =
      { p with
        screen := (p.screen.withChar (p.buffer.getD p.count 0)).escapeAt c m
          (p.buffer.getD p.count 0)
        handled := p.handled ++ [.escape (p.buffer.getD p.count 0)]
        buffer := p.buffer.drop 1
        count := 0
        result := p.result + 1 } := by
  have hchar : (p.screen.withChar (p.buffer.getD p.count 0)).escape = some m := h
  unfold round
  dsimp only
  rw [hchar]
  rfl

theorem round_print (h : p.screen.escape = none) (hchar : ¬ p.buffer.getD p.count 0 < 32) :
    p.round c a =
      { p with
        screen := p.screen.withChar (p.buffer.getD p.count 0)
        count := p.count + 1
        result := p.result + 1 } := by
  have hnone : (p.screen.withChar (p.buffer.getD p.count 0)).escape = none := h
  unfold round
  dsimp only
  rw [hnone]
  dsimp only
  rw [if_neg hchar]

theorem round_command (h : p.screen.escape = none) (hchar : p.buffer.getD p.count 0 < 32) :
    p.round c a =
      let q := { p with screen := p.screen.withChar (p.buffer.getD p.count 0) }.command c a
        (p.buffer.getD p.count 0)
      { q with result := q.result + 1 } := by
  have hnone : (p.screen.withChar (p.buffer.getD p.count 0)).escape = none := h
  unfold round
  dsimp only
  rw [hnone]
  dsimp only
  rw [if_pos hchar]

/-- The screen after what is held back in front of a control character. -/
def flushed (c : Console κ) (a : Answers κ) (p : Pass κ) : Screen κ :=
  (p.screen.withChar (p.buffer.getD p.count 0)).putStringIf c a (p.buffer.take p.count)

theorem round_control {s : Screen κ} (h : p.screen.escape = none)
    (hchar : p.buffer.getD p.count 0 < 32)
    (hs : (p.flushed c a).control c (p.buffer.getD p.count 0) = some s) :
    p.round c a =
      { p with
        screen := s
        handled := p.handled ++ [.printed (p.buffer.take p.count)] ++
          [.control (p.buffer.getD p.count 0)]
        buffer := (p.buffer.drop p.count).drop 1
        count := 0
        result := p.result + 1 } := by
  rw [round_command h hchar]
  unfold command put
  dsimp only
  rw [show (p.screen.withChar (p.buffer.getD p.count 0)).putStringIf c a (p.buffer.take p.count) =
    p.flushed c a from rfl, hs]

theorem round_keeps (h : p.screen.escape = none) (hchar : p.buffer.getD p.count 0 < 32)
    (hs : (p.flushed c a).control c (p.buffer.getD p.count 0) = none) :
    p.round c a =
      { p with
        screen := p.flushed c a
        handled := p.handled ++ [.printed (p.buffer.take p.count)]
        buffer := p.buffer.drop p.count
        count := 1
        result := p.result + 1 } := by
  rw [round_command h hchar]
  unfold command put
  dsimp only
  rw [show (p.screen.withChar (p.buffer.getD p.count 0)).putStringIf c a (p.buffer.take p.count) =
    p.flushed c a from rfl, hs]

end

theorem Accounts.count_lt (h : p.Accounts input n) (hn : n < input.length) :
    p.count < p.buffer.length := by
  have hlength := congrArg List.length h.whole
  have hgone := h.gone
  rw [List.length_append] at hlength
  omega

/-- What is held back, the byte that is looked at, and what is behind it. -/
theorem Accounts.split (h : p.Accounts input n) (hn : n < input.length) :
    p.buffer = p.buffer.take p.count ++
      p.buffer.getD p.count 0 :: (p.buffer.drop p.count).drop 1 := by
  rw [List.getD_eq_getElem?_getD, List.getElem?_eq_getElem (h.count_lt hn), Option.getD_some,
    List.drop_drop, List.getElem_cons_drop, List.take_append_drop]

/-- A round accounts for one more byte. -/
theorem Accounts.round (h : p.Accounts input n) (hn : n < input.length) :
    (p.round c a).Accounts input (n + 1) := by
  have hsplit := h.split hn
  have hwhole := h.whole
  have hgone := h.gone
  have hresult : p.result + 1 = UInt32.ofNat (n + 1) := by
    rw [h.counted, UInt32.ofNat_add]
    rfl
  have hheld : (p.buffer.take p.count).length = p.count :=
    List.length_take_of_le (h.count_lt hn).le
  cases hesc : p.screen.escape with
  | some m =>
      -- nothing is held back, so that the byte is the one at the pointer
      have hcount := h.free (by rw [hesc]; exact Option.some_ne_none m)
      rw [round_escape hesc]
      refine ⟨?_, ?_, fun _ => rfl, hresult⟩
      · rw [hcount] at hsplit ⊢
        rw [handledBytes_concat, List.append_assoc, ← hwhole]
        exact congrArg _ hsplit.symm
      · rw [handledBytes_concat, List.length_append]
        change _ + 1 + 0 = n + 1
        omega
  | none =>
      by_cases hchar : p.buffer.getD p.count 0 < 32
      · cases hs : (p.flushed c a).control c (p.buffer.getD p.count 0) with
        | some s =>
            rw [round_control hesc hchar hs]
            refine ⟨?_, ?_, fun _ => rfl, hresult⟩
            · rw [handledBytes_concat, handledBytes_concat, List.append_assoc, List.append_assoc,
                ← hwhole]
              exact congrArg _ hsplit.symm
            · rw [handledBytes_concat, handledBytes_concat, List.length_append, List.length_append]
              change _ + (p.buffer.take p.count).length + 1 + 0 = n + 1
              omega
        | none =>
            -- the pointer stays in front of the character, which is held back now
            rw [round_keeps hesc hchar hs]
            refine ⟨?_, ?_, ?_, hresult⟩
            · rw [handledBytes_concat, List.append_assoc, ← hwhole]
              exact congrArg _ (List.take_append_drop _ _)
            · rw [handledBytes_concat, List.length_append]
              change _ + (p.buffer.take p.count).length + 1 = n + 1
              omega
            · intro hne
              have hnone : (p.flushed c a).escape = none := (escape_putStringIf _ _).trans hesc
              exact absurd hnone hne
      · rw [round_print hesc hchar]
        refine ⟨hwhole, ?_, fun hne => absurd hesc hne, hresult⟩
        change (handledBytes p.handled).length + (p.count + 1) = n + 1
        omega

/-- A loop of `k` rounds accounts for `k` more bytes. -/
theorem Accounts.rounds (h : p.Accounts input n) {k : Nat} (hk : n + k ≤ input.length) :
    (p.rounds c a k).Accounts input (n + k) := by
  induction k generalizing p n with
  | zero => exact h
  | succ k ih =>
      have hround := h.round (c := c) (a := a) (by omega)
      have hrest := ih hround (by omega)
      rwa [Nat.add_assoc, Nat.add_comm 1 k] at hrest

theorem Accounts.finish (h : p.Accounts input n) :
    handledBytes (p.finish c a).handled = input.take n ∧
      (p.finish c a).result = UInt32.ofNat n := by
  have htake : input.take n = handledBytes p.handled ++ p.buffer.take p.count := by
    rw [← h.whole, ← h.gone, List.take_length_add_append]
  rw [htake]
  unfold Pass.finish
  split_ifs with hcount
  · rw [hcount, List.take_zero, List.append_nil]
    exact ⟨rfl, h.counted⟩
  · refine ⟨?_, h.counted⟩
    rw [put, handledBytes_concat]
    rfl

end Pass

/-! ### What is handled is all that is done -/

namespace Handled

variable {κ : Type} (c : Console κ) (a : Answers κ)

/-- What handling bytes does to the screen. -/
def does (s : Screen κ) : Handled → Screen κ
  | printed run => s.putStringIf c a run
  | control char => ((s.withChar char).control c char).getD s
  | escape char => (s.escape.map fun n => (s.withChar char).escapeAt c n char).getD s

end Handled

namespace Pass

variable {κ : Type} {c : Console κ} {a : Answers κ} {p : Pass κ} {start : Screen κ}

/-- The screen is what the handled bytes make of the one at the start, but for
the byte that is looked at. -/
def Replays (c : Console κ) (a : Answers κ) (start : Screen κ) (p : Pass κ) : Prop :=
  p.screen = (p.handled.foldl (Handled.does c a) start).withChar p.screen.char

theorem renderIf_withChar (s : Screen κ) (char : UInt8) :
    (s.withChar char).renderIf c a = (s.renderIf c a).withChar char := by
  unfold Screen.renderIf
  rw [apply_ite (Screen.withChar · char)]
  rfl

theorem putStringIf_withChar (s : Screen κ) (char : UInt8) (run : List UInt8) :
    (s.withChar char).putStringIf c a run = (s.putStringIf c a run).withChar char := by
  unfold Screen.putStringIf
  rw [apply_ite (Screen.withChar · char), ← renderIf_withChar]
  rfl

theorem Replays.round (h : p.Replays c a start) : (p.round c a).Replays c a start := by
  have hchar : ∀ char, p.screen.withChar char =
      (p.handled.foldl (Handled.does c a) start).withChar char := by
    intro char
    rw [h]
    rfl
  have hescape : p.screen.escape = (p.handled.foldl (Handled.does c a) start).escape := by
    rw [h]
    rfl
  unfold Replays
  cases hesc : p.screen.escape with
  | some m =>
      rw [round_escape hesc]
      dsimp only
      rw [List.foldl_append, hchar]
      generalize p.handled.foldl (Handled.does c a) start = r at hescape
      rw [hesc] at hescape
      rw [List.foldl_cons, List.foldl_nil, Handled.does, ← hescape]
      rfl
  | none =>
      by_cases hlow : p.buffer.getD p.count 0 < 32
      -- what was held back is printed before a control character
      · have hflushed : p.flushed c a =
            ((p.handled ++ [Handled.printed (p.buffer.take p.count)]).foldl (Handled.does c a)
              start).withChar (p.buffer.getD p.count 0) := by
          rw [flushed, hchar, putStringIf_withChar, List.foldl_append]
          rfl
        cases hs : (p.flushed c a).control c (p.buffer.getD p.count 0) with
        | some s =>
            rw [round_control hesc hlow hs]
            dsimp only
            rw [List.foldl_append, List.foldl_cons, List.foldl_nil, Handled.does, ← hflushed, hs]
            rfl
        | none =>
            rw [round_keeps hesc hlow hs]
            dsimp only
            rw [hflushed]
            rfl
      · rw [round_print hesc hlow]
        exact hchar _

theorem Replays.rounds (h : p.Replays c a start) (k : Nat) :
    (p.rounds c a k).Replays c a start := by
  induction k generalizing p with
  | zero => exact h
  | succ k ih => exact ih h.round

theorem Replays.finish (h : p.Replays c a start) : (p.finish c a).Replays c a start := by
  unfold Pass.finish
  split_ifs
  · exact h
  · have hput := (congrArg (Screen.putStringIf c a · (p.buffer.take p.count)) h).trans
      (putStringIf_withChar _ _ _)
    unfold Replays put
    dsimp only at hput ⊢
    rw [hput, List.foldl_append]
    rfl

/-- With a console that does what it is asked to, the rounds are the loop. -/
theorem screen_rounds (p : Pass κ) (k : Nat) :
    ((p.rounds c (.always κ) k).finish c (.always κ)).screen =
      p.screen.writeLoop c k p.buffer p.count := by
  induction k generalizing p with
  | zero =>
      unfold Pass.finish
      rw [Pass.rounds, Screen.writeLoop]
      split_ifs
      · rfl
      · rfl
  | succ k ih =>
      rw [Pass.rounds, ih, Screen.writeLoop]
      dsimp only
      cases hesc : p.screen.escape with
      | some m =>
          have hchar : (p.screen.withChar (p.buffer.getD p.count 0)).escape = some m := hesc
          rw [round_escape hesc, hchar]
      | none =>
          have hchar : (p.screen.withChar (p.buffer.getD p.count 0)).escape = none := hesc
          rw [hchar]
          by_cases hlow : p.buffer.getD p.count 0 < 32
          · have hflushed : p.flushed c (.always κ) =
                (p.screen.withChar (p.buffer.getD p.count 0)).putString c
                  (p.buffer.take p.count) := rfl
            rw [if_pos hlow, ← hflushed]
            cases hs : (p.flushed c (.always κ)).control c (p.buffer.getD p.count 0) with
            | some s => rw [round_control hesc hlow hs]
            | none => rw [round_keeps hesc hlow hs]
          · rw [if_neg hlow, round_print hesc hlow]

end Pass

/-! ### A call -/

section

variable {κ : Type} (c : Console κ) (a : Answers κ)

theorem toNat_ofNat_length {bytes : List UInt8} (h : bytes.length < 0x80000000) :
    (UInt32.ofNat bytes.length).toNat = bytes.length :=
  UInt32.toNat_ofNat_of_lt' (Nat.lt_trans h (by decide))

theorem toInt32_of_lt {size : UInt32} (h : size.toNat < 0x80000000) :
    size.toInt32.toInt.toNat = size.toNat := by
  have hint : size.toInt32.toInt = size.toNat := by
    refine BitVec.toInt_eq_toNat_of_lt (x := size.toBitVec) ?_
    change 2 * size.toNat < 2 ^ 32
    omega
  rw [hint, Int.toNat_natCast]

/-- A call that does not fail at the start goes through all the bytes. -/
theorem screenWrite_eq (s : Screen κ) (buffer : List UInt8) {size : UInt32}
    (hsize : size.toNat < 0x80000000) (hread : a.reads s.con = true) :
    screenWrite c a s buffer size =
      some ((Pass.rounds c a size.toNat ⟨buffer, 0, 0, s.renderWindow c, []⟩).finish c a) := by
  rw [screenWrite, if_neg (screenMode_virtual _), hread, toInt32_of_lt hsize]
  rfl

/-- The loop does not look behind its bytes. -/
theorem writeLoop_append (behind : List UInt8) {k : Nat} {buffer : List UInt8} {count : Nat}
    (s : Screen κ) (h : count + k ≤ buffer.length) :
    s.writeLoop c k (buffer ++ behind) count = s.writeLoop c k buffer count := by
  induction k generalizing buffer count s with
  | zero =>
      rw [Screen.writeLoop, Screen.writeLoop, List.take_append_of_le_length (by omega)]
  | succ k ih =>
      have hlt : count < buffer.length := by omega
      have hdrop : ∀ n ≤ count + 1, (buffer ++ behind).drop n = buffer.drop n ++ behind :=
        fun n hn => List.drop_append_of_le_length (by omega)
      have hlength : ∀ n ≤ count + 1, k + (count + 1) - n ≤ (buffer.drop n).length := by
        intro n hn
        rw [List.length_drop]
        omega
      have hchar : (buffer ++ behind).getD count 0 = buffer.getD count 0 := by
        rw [List.getD_eq_getElem?_getD, List.getElem?_append_left hlt,
          List.getD_eq_getElem?_getD]
      rw [Screen.writeLoop, Screen.writeLoop, hchar, List.take_append_of_le_length hlt.le]
      dsimp only
      cases (s.withChar (buffer.getD count 0)).escape with
      | some m =>
          dsimp only
          rw [hdrop 1 (by omega), ih _ (by have := hlength 1 (by omega); omega)]
      | none =>
          dsimp only
          split_ifs
          · cases ((s.withChar (buffer.getD count 0)).putString c (buffer.take count)).control c
                (buffer.getD count 0) with
            | some s' =>
                dsimp only
                rw [List.drop_drop, List.drop_drop, hdrop _ (Nat.le_refl _),
                  ih _ (by have := hlength (count + 1) (Nat.le_refl _); omega)]
            | none =>
                dsimp only
                rw [hdrop count (Nat.le_succ count),
                  ih _ (by have := hlength count (Nat.le_succ count); omega)]
          · exact ih _ (by omega)

/-- What a call handles, it does in that order, and it does nothing else. -/
theorem screenWrite_replays (s : Screen κ) (buffer : List UInt8) {size : UInt32}
    (hsize : size.toNat < 0x80000000) (hread : a.reads s.con = true) {p : Pass κ}
    (h : screenWrite c a s buffer size = some p) : p.Replays c a (s.renderWindow c) := by
  rw [screenWrite_eq c a s buffer hsize hread] at h
  obtain rfl := Option.some.inj h
  have hstart : Pass.Replays c a (s.renderWindow c) ⟨buffer, 0, 0, s.renderWindow c, []⟩ := rfl
  exact (hstart.rounds size.toNat).finish

/-- A call on a console that does what it is asked to leaves the screen of
`write`. -/
theorem screenWrite_always (s : Screen κ) {bytes : List UInt8}
    (hbytes : bytes.length < 0x80000000) (behind : List UInt8) :
    (screenWrite c (.always κ) s (bytes ++ behind) (UInt32.ofNat bytes.length)).map Pass.screen =
      some (s.write c bytes).1 := by
  have hsize := toNat_ofNat_length hbytes
  rw [screenWrite_eq c _ s _ (by rwa [hsize]) rfl, Option.map_some, Pass.screen_rounds, hsize,
    writeLoop_append c behind _ (Nat.le_of_eq (Nat.zero_add _)), Screen.write,
    if_neg (screenMode_virtual _)]

/-- Whatever is behind the bytes, whatever state the collector is in, and
whatever the console refuses to do: what is handled, in its order, is the bytes,
and all of them are said to be written. Nothing else is done to the screen, and
where the console does what it is asked to, it is the screen of `write`. -/
theorem screenWrite_handles (s : Screen κ) {bytes : List UInt8}
    (hbytes : bytes.length < 0x80000000) (behind : List UInt8) (hread : a.reads s.con = true) :
    ∃ p, screenWrite c a s (bytes ++ behind) (UInt32.ofNat bytes.length) = some p ∧
      handledBytes p.handled = bytes ∧ p.result.toNat = bytes.length ∧
      p.Replays c a (s.renderWindow c) ∧ (a = .always κ → p.screen = (s.write c bytes).1) := by
  have hsize := toNat_ofNat_length hbytes
  have hstart : Pass.Accounts (bytes ++ behind) 0
      ⟨bytes ++ behind, 0, 0, s.renderWindow c, []⟩ := ⟨rfl, rfl, fun _ => rfl, rfl⟩
  have hrounds := hstart.rounds (c := c) (a := a) (k := bytes.length)
    (by rw [Nat.zero_add, List.length_append]; exact Nat.le_add_right _ _)
  rw [Nat.zero_add] at hrounds
  obtain ⟨hhandled, hresult⟩ := hrounds.finish (c := c) (a := a)
  rw [List.take_left] at hhandled
  have hwrite := screenWrite_eq c a s (bytes ++ behind) (by rwa [hsize]) hread
  refine ⟨_, hwrite, ?_, ?_, screenWrite_replays c a s _ (by rwa [hsize]) hread hwrite, ?_⟩
  · rw [hsize]
    exact hhandled
  · rw [hsize, hresult, hsize]
  · rintro rfl
    have halways := screenWrite_always c s hbytes behind
    rw [hwrite] at halways
    exact Option.some.inj halways

/-- Two bytes, a tabulator, a sequence and a line feed. -/
theorem screenWrite_handles_line :
    ∃ p, screenWrite Store.console (.always Store) Screen.start
        ([97, 98, 9, 27, 91, 109, 10] ++ [7]) (UInt32.ofNat 7) = some p ∧
      handledBytes p.handled = [97, 98, 9, 27, 91, 109, 10] ∧ p.result.toNat = 7 ∧
      p.Replays Store.console (.always Store) (Screen.start.renderWindow Store.console) ∧
      (Answers.always Store = .always Store →
        p.screen = (Screen.start.write Store.console [97, 98, 9, 27, 91, 109, 10]).1) :=
  screenWrite_handles Store.console (.always Store) Screen.start
    (show ([97, 98, 9, 27, 91, 109, 10] : List UInt8).length < 0x80000000 by decide) [7] rfl

example : (screenWrite Store.console (.always Store) Screen.start
    [97, 98, 9, 27, 91, 109, 10] 7).map Pass.handled =
      some [.printed [97, 98], .printed [9], .control 27, .escape 91, .escape 109, .printed [],
        .control 10] := by
  decide +kernel

end

end MinC.Vfs
