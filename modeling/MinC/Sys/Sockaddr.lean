import MinC.Lib.Layout
import MinC.Lib.Records
import MinC.Sys.Open
import MinC.Sys.Pairs
import MinC.Sys.PathRoom

/-!
Addresses of sockets.

An address is put into a structure of a fixed size, and back into as many bytes
as the caller has. Lengths are taken from the caller as they are. The name of a
local socket has a length of its own, which nothing is compared with, and is
counted in characters where the room is in bytes.
-/

namespace MinC.Sys

open MinC.Lib MinC.Win MinC.Vfs

/-! ### Structures -/

/-- `struct sockaddr`, with what is in the memory from `sa_data` on. -/
structure Sockaddr where
  saLen : UInt8
  saFamily : UInt8
  saData : List UInt8
  deriving DecidableEq

/-- `struct ws2_sockaddr`, with what is in the memory from `sa_data` on. -/
structure Ws2Sockaddr where
  saFamily : UInt16
  saData : List UInt8
  deriving DecidableEq

def maxPath : Nat := 260

/-- The size of a `SOCKADDR`. -/
def sizeofSockaddr : Nat := 2 + maxPath

def Sockaddr.ofCells (cells : List UInt8) : Sockaddr :=
  ⟨cells.getD 0 0, cells.getD 1 0, cells.drop 2⟩

def Ws2Sockaddr.ofCells (cells : List UInt8) : Ws2Sockaddr :=
  ⟨UInt16.ofNat (leNat (cells.take 2)), cells.drop 2⟩

/-- The cells of a buffer after some stores. -/
def stored (cells : List UInt8) (stores : List (Placed (List UInt8))) : List UInt8 :=
  stores.foldl (fun cells store => poke cells store.offset store.item) cells

/-! ### Copies -/

/-- The bytes that are copied; what is behind the cells is as good as zero. -/
def winMemcpy (source : List UInt8) (size : UInt32) : List UInt8 := front source size.toNat

/-- The characters that are written, with the zero behind them. -/
def winWcsncpy : Int → List UInt16 → List UInt16
  | _, [] => [0]
  | length, c :: source =>
      if c = 0 then [0]
      else if length - 1 < 1 then [0]
      else c :: winWcsncpy (length - 1) source

def unitBytes (source : List UInt16) : List UInt8 := source.flatMap fun c => leBytes 2 c.toNat

/-- Bytes, read as characters. -/
def units : List UInt8 → List UInt16
  | low :: high :: bytes => UInt16.ofNat (leNat [low, high]) :: units bytes
  | _ => []

/-- The stores of `pathPosix`: the string, and the zero that takes off the
extension. -/
def pathPosixStores (pathMax : Nat) (junk dest : List UInt8) (source : List UInt16) :
    List (Placed (List UInt8)) :=
  let out := outPosix junk source pathMax
  ⟨0, out ++ [0]⟩ ::
    match lastDot out with
    | some i =>
        if ((poke dest 0 (out ++ [0])).drop i).take 4 = typeNameLink then [⟨i, [0]⟩] else []
    | none => []

/-! ### Addresses -/

def afInet : UInt8 := 2

def afPosix (family : UInt32) : UInt8 :=
  if family = wsAfRoute then afRoute
  else if family = wsAfInet6 then afInet6
  else family.toUInt8

/-- What a conversion stores into its result, and into what it converts. -/
structure Stores where
  result : List (Placed (List UInt8))
  addr : List (Placed (List UInt8))

section
variable (fs : WinFs) (stale : List UInt16) (task : NameiTask) (objects : ObjectNames)

/-- The path of a local socket. -/
def socketPath (addr : Sockaddr) : WinNameidata :=
  pathWin fs stale task objects (text addr.saData) 0

def saddrWin : Option Sockaddr → UInt32 → Stores
  | none, _ => ⟨[], []⟩
  | some addr, addrlen =>
      { addr := [⟨0, [addrlen.toUInt8]⟩]
        result := ⟨0, leBytes 2 (afWin addr.saFamily).toUInt16.toNat⟩ ::
          if addr.saFamily = afLocal then
            [⟨2, unitBytes (winWcsncpy maxPath (socketPath fs stale task objects addr).resolved)⟩]
          else [⟨2, winMemcpy addr.saData (addrlen - 2)⟩] }

end

/-- `result` is what is in the memory of the caller, if there is any. -/
def saddrPosix (pathMax : Nat) (junk : List UInt8) :
    Option (List UInt8) → Ws2Sockaddr → UInt32 → List (Placed (List UInt8))
  | none, _, _ => []
  | some result, address, length =>
      ⟨0, [length.toUInt8]⟩ :: ⟨1, [afPosix address.saFamily.toUInt32]⟩ ::
        if address.saFamily.toUInt32 = wsAfLocal then
          (pathPosixStores pathMax junk (result.drop 2) (text (units address.saData))).map
            fun store => ⟨2 + store.offset, store.item⟩
        else [⟨2, winMemcpy address.saData (length - 2)⟩]

/-! ### What is copied -/

@[simp] theorem length_winMemcpy (source : List UInt8) (size : UInt32) :
    (winMemcpy source size).length = size.toNat := length_front _ _

@[simp] theorem length_unitBytes (source : List UInt16) :
    (unitBytes source).length = 2 * source.length := by
  induction source with
  | nil => rfl
  | cons c source ih =>
      rw [unitBytes, List.flatMap_cons, List.length_append, length_leBytes, List.length_cons]
      rw [unitBytes] at ih
      omega

/-- A character less than the length, and the zero. -/
theorem length_winWcsncpy (length : Int) (source : List UInt16) :
    (winWcsncpy length source).length = min (text source).length (length - 1).toNat + 1 := by
  fun_induction winWcsncpy length source with
  | case1 => rfl
  | case2 length source => simp [text]
  | case3 length c source hc hlength =>
      have hnone : (length - 1).toNat = 0 := by omega
      rw [hnone, Nat.min_zero]
      rfl
  | case4 length c source hc hlength ih =>
      have htext : text (c :: source) = c :: text source :=
        List.takeWhile_cons_of_pos (decide_eq_true hc)
      rw [htext, List.length_cons, List.length_cons, ih]
      omega

theorem length_copyPosix_le (size : Int) (src : List UInt8) :
    (copyPosix size src).length ≤ (size - 1).toNat := by
  fun_induction copyPosix size src with
  | case1 => exact Nat.zero_le _
  | case2 => exact Nat.zero_le _
  | case3 => exact Nat.zero_le _
  | case4 size src hzero hsize ih => omega
  | case5 size c src hzero hsize hcolon ih =>
      rw [List.length_cons]
      omega

/-- Letters are copied as long as the size lasts. -/
theorem length_copyPosix_letters {k n : Nat} (h : n ≤ k + 1) :
    (copyPosix n (List.replicate k 97)).length = n - 1 := by
  induction k generalizing n with
  | zero =>
      change 0 = n - 1
      omega
  | succ k ih =>
      rw [List.replicate_succ, copyPosix, if_neg (by decide)]
      by_cases hn : n ≤ 1
      · rw [if_pos (by omega)]
        change 0 = n - 1
        omega
      · have hcast : (n : Int) - 1 = (n - 1 : Nat) := by omega
        rw [if_neg (by omega), if_neg (by decide), List.length_cons, hcast, ih (by omega)]
        omega

/-- How many bytes `pathPosix` may write in front of the zero. If there is no
name, or it does not fit, that depends on what was in the buffer before. -/
def posixRoom (pathMax : Nat) (source : List UInt16) : Nat :=
  if stripRoot source = [] ∨ pathMax ≤ (converted source).length then max 5 (pathMax - 1)
  else
    (leading (converted source)).length +
      (spell ((copied (converted source)).take
        (pathMax - (leading (converted source)).length - 1))).length

theorem length_outPosix_le (junk : List UInt8) (source : List UInt16) (pathMax : Nat) :
    (outPosix junk source pathMax).length ≤ max 5 (pathMax - 1) := by
  rw [outPosix_eq, List.length_append]
  generalize narrowed junk (stripRoot source) pathMax = src
  have hcopy := length_copyPosix_le (guessPosix src pathMax).2.2 (guessPosix src pathMax).2.1
  have hsize : (guessPosix src pathMax).1.length ≤ 5 ∧
      (guessPosix src pathMax).2.2 = pathMax - (guessPosix src pathMax).1.length := by
    unfold guessPosix
    split_ifs <;> simp [mntPrefix, procPrefix]
  omega

/-- A name that does not fit leaves what was in the buffer. -/
theorem narrowed_unfit (junk : List UInt8) {pathMax : Nat} {source : List UInt16}
    (hle : pathMax ≤ (converted source).length) :
    narrowed junk (stripRoot source) pathMax = junk := by
  have hwcs : winWcstombs (stripRoot source) pathMax = none :=
    if_neg (show ¬ ((converted source).length : Int) + 1 ≤ pathMax by omega)
  rw [narrowed, hwcs]

/-- An empty name is a zero in front of it. -/
theorem narrowed_empty (junk : List UInt8) {pathMax : Nat} {source : List UInt16}
    (hempty : stripRoot source = []) (hlt : (converted source).length < pathMax) :
    narrowed junk (stripRoot source) pathMax = 0 :: junk := by
  have hnil : converted source = [] := by
    rw [converted, hempty]
    rfl
  have hwcs : winWcstombs (stripRoot source) pathMax = some (converted source) :=
    if_pos (show ((converted source).length : Int) + 1 ≤ pathMax by omega)
  rw [narrowed, hwcs, hnil]
  rfl

/-- A buffer whose bytes fill the room, or that has no room for the drive it
begins with. -/
theorem exists_length_outPosix_unfit {pathMax : Nat} {source : List UInt16}
    (hle : pathMax ≤ (converted source).length) :
    ∃ junk, (outPosix junk source pathMax).length = max 5 (pathMax - 1) := by
  by_cases hroom : pathMax < 6
  · refine ⟨[97, 58], ?_⟩
    have hcopy : copyPosix (pathMax - 5) [97, 58] = [] := by
      rw [copyPosix, if_neg (by decide), if_pos (by omega)]
    have hguess : guessPosix [97, 58] pathMax = (mntPrefix, [97, 58], (pathMax : Int) - 5) := rfl
    rw [outPosix_eq, narrowed_unfit _ hle, hguess]
    dsimp only
    rw [hcopy, Nat.max_eq_left (by omega)]
    rfl
  · refine ⟨List.replicate pathMax 97, ?_⟩
    have hguess : guessPosix (List.replicate pathMax 97) pathMax =
        ([], List.replicate pathMax 97, (pathMax : Int)) := by
      have htwo : pathMax = pathMax - 2 + 1 + 1 := by omega
      rw [htwo, List.replicate_succ, List.replicate_succ]
      rfl
    rw [outPosix_eq, narrowed_unfit _ hle, hguess]
    dsimp only
    rw [List.nil_append, length_copyPosix_letters (by omega), Nat.max_eq_right (by omega)]

/-- Behind the zero of an empty name, the bytes of a drive, or of a name without
one, are found. -/
theorem exists_length_outPosix_empty {pathMax : Nat} {source : List UInt16}
    (hempty : stripRoot source = []) (hlt : (converted source).length < pathMax) :
    ∃ junk, (outPosix junk source pathMax).length = max 5 (pathMax - 1) := by
  by_cases hroom : pathMax < 6
  · refine ⟨[58], ?_⟩
    have hguess : guessPosix [0, 58] pathMax = (mntPrefix, [0, 58], (pathMax : Int) - 5) := rfl
    rw [outPosix_eq, narrowed_empty _ hempty hlt, hguess, Nat.max_eq_left (by omega)]
    rfl
  · refine ⟨92 :: List.replicate pathMax 97, ?_⟩
    have hguess : guessPosix (0 :: 92 :: List.replicate pathMax 97) pathMax =
        ([], 92 :: List.replicate pathMax 97, (pathMax : Int)) := rfl
    have hcast : (pathMax : Int) - 1 = (pathMax - 1 : Nat) := by omega
    rw [outPosix_eq, narrowed_empty _ hempty hlt, hguess]
    dsimp only
    rw [List.nil_append, copyPosix, if_neg (by decide), if_neg (by omega), if_neg (by decide),
      List.length_cons, hcast, length_copyPosix_letters (by omega), Nat.max_eq_right (by omega)]
    omega

/-- What is in the buffer before may be as bad as that. -/
theorem exists_length_outPosix {pathMax : Nat} {source : List UInt16}
    (h : stripRoot source = [] ∨ pathMax ≤ (converted source).length) :
    ∃ junk, (outPosix junk source pathMax).length = max 5 (pathMax - 1) := by
  rcases Nat.lt_or_ge (converted source).length pathMax with hlt | hle
  · exact exists_length_outPosix_empty (h.resolve_right (Nat.not_le.mpr hlt)) hlt
  · exact exists_length_outPosix_unfit hle

/-- What is written stays in a room, whatever was in the buffer before. -/
theorem outPosix_lt_iff {pathMax : Nat} {source : List UInt16} (hsource : 0 ∉ source) (n : Nat) :
    (∀ junk, (outPosix junk source pathMax).length < n) ↔ posixRoom pathMax source < n := by
  unfold posixRoom
  split_ifs with h
  · constructor
    · intro hall
      obtain ⟨junk, hjunk⟩ := exists_length_outPosix h
      exact hjunk ▸ hall junk
    · exact fun hlt junk => Nat.lt_of_le_of_lt (length_outPosix_le junk source pathMax) hlt
  · obtain ⟨hnamed, hfits⟩ := not_or.mp h
    have hsize : ((pathMax : Int) - (leading (converted source)).length - 1).toNat =
        pathMax - (leading (converted source)).length - 1 := by omega
    have hlength : ∀ junk, (outPosix junk source pathMax).length =
        (leading (converted source)).length + (spell ((copied (converted source)).take
          (pathMax - (leading (converted source)).length - 1))).length := by
      intro junk
      rw [outPosix_fits hsource hnamed (by omega), hsize, List.length_append]
    simp only [hlength]
    exact ⟨fun hall => hall [], fun hlt _ => hlt⟩

/-! ### Stores inside -/

theorem inside_cons {size : List UInt8 → Nat} {fin : Nat} {store : Placed (List UInt8)}
    {stores : List (Placed (List UInt8))} :
    Inside size fin (store :: stores) ↔
      store.offset + size store.item ≤ fin ∧ Inside size fin stores :=
  List.forall_mem_cons

theorem inside_nil {size : List UInt8 → Nat} {fin : Nat} : Inside size fin [] :=
  fun _ h => absurd h List.not_mem_nil

/-- The zero that takes off the extension is put inside the string. -/
theorem inside_pathPosixStores_iff (pathMax : Nat) (junk dest : List UInt8) (source : List UInt16)
    (n : Nat) :
    Inside List.length (2 + n) ((pathPosixStores pathMax junk dest source).map
        fun store => ⟨2 + store.offset, store.item⟩) ↔
      (outPosix junk source pathMax).length < n := by
  unfold pathPosixStores
  dsimp only
  rw [List.map_cons, inside_cons]
  dsimp only
  rw [List.length_append, List.length_singleton]
  have hdot := @lastDot_lt (outPosix junk source pathMax)
  cases h : lastDot (outPosix junk source pathMax) with
  | none =>
      simp only [List.map_nil, inside_nil, and_true]
      omega
  | some i =>
      have hlt := hdot h
      dsimp only
      split_ifs
      · rw [List.map_cons, inside_cons, List.map_nil]
        simp only [inside_nil, and_true, List.length_singleton]
        omega
      · simp only [List.map_nil, inside_nil, and_true]
        omega

/-! ### What a caller may expect -/

def sizeofSockaddrIn : UInt32 := 16
def sizeofSockaddrIn6 : UInt32 := 28

/-- An address of the Internet, of its proper length. -/
def Proper (family : UInt8) (addrlen : UInt32) : Prop :=
  (family = afInet ∧ addrlen = sizeofSockaddrIn) ∨ (family = afInet6 ∧ addrlen = sizeofSockaddrIn6)

section
variable (fs : WinFs) (stale : List UInt16) (task : NameiTask) (objects : ObjectNames)
  (pathMax : Nat)

/-- An address is put into its `SOCKADDR`, and the length that is noted in it is
inside the bytes of the caller. -/
structure InsideWin (addr : Option Sockaddr) (addrlen : UInt32) : Prop where
  result : Inside List.length sizeofSockaddr (saddrWin fs stale task objects addr addrlen).result
  noted : Inside List.length addrlen.toNat (saddrWin fs stale task objects addr addrlen).addr

/-- Whatever was on the stack, only the bytes of the caller are written. -/
def InsidePosix (result : Option (List UInt8)) (address : Ws2Sockaddr) (length : UInt32) : Prop :=
  ∀ junk, Inside List.length length.toNat (saddrPosix pathMax junk result address length)

/-- The Windows form of an address, in a structure with some bytes in it. -/
def there (addr : Sockaddr) (addrlen : UInt32) (cells : List UInt8) : Ws2Sockaddr :=
  .ofCells (stored cells (saddrWin fs stale task objects (some addr) addrlen).result)

def back (junk : List UInt8) (address : Ws2Sockaddr) (length : UInt32) (cells : List UInt8) :
    Sockaddr :=
  .ofCells (stored cells (saddrPosix pathMax junk (some cells) address length))

/-- The Windows form of an address is turned back into its family and bytes. -/
def ComesBack (addr : Sockaddr) (addrlen : UInt32) : Prop :=
  ∀ junk cells cells',
    (back pathMax junk (there fs stale task objects addr addrlen cells) addrlen cells').saFamily =
        addr.saFamily ∧
      (back pathMax junk (there fs stale task objects addr addrlen cells) addrlen
          cells').saData.take (addrlen - 2).toNat =
        front addr.saData (addrlen - 2).toNat

/-- Addresses are converted as they should, there and back. -/
structure Converts (addr : Option Sockaddr) (addrlen : UInt32) (result : Option (List UInt8))
    (address : Ws2Sockaddr) (length : UInt32) : Prop where
  insideWin : InsideWin fs stale task objects addr addrlen
  insidePosix : InsidePosix pathMax result address length
  comesBack : ∀ a ∈ addr, Proper a.saFamily addrlen →
    ComesBack fs stale task objects pathMax a addrlen

/-- A local address resolves to a name that takes half of `MAX_PATH` at most,
any other has a length between that of its family and that of a `SOCKADDR`. -/
def FitsWin (addr : Option Sockaddr) (addrlen : UInt32) : Prop :=
  ∀ a ∈ addr,
    if a.saFamily = afLocal then
      1 ≤ addrlen.toNat ∧ 2 * ((socketPath fs stale task objects a).name.length + 1) ≤ maxPath
    else 2 ≤ addrlen.toNat ∧ addrlen.toNat ≤ sizeofSockaddr

/-- The caller has room for the translation of a local name. -/
def FitsPosix (result : Option (List UInt8)) (address : Ws2Sockaddr) (length : UInt32) : Prop :=
  result.isSome = true →
    if address.saFamily.toUInt32 = wsAfLocal then
      2 + (posixRoom pathMax (text (units address.saData)) + 1) ≤ length.toNat
    else 2 ≤ length.toNat

end

section
variable {fs : WinFs} {stale : List UInt16} {task : NameiTask} {objects : ObjectNames}
  {pathMax : Nat} {addr : Option Sockaddr} {addrlen : UInt32} {result : Option (List UInt8)}
  {address : Ws2Sockaddr} {length : UInt32}

theorem toNat_sub_two {n : UInt32} (h : 2 ≤ n.toNat) : (n - 2).toNat = n.toNat - 2 :=
  UInt32.toNat_sub_of_le n 2 (UInt32.le_iff_toNat_le.mpr h)

/-- Lengths that are too small are as good as very large ones. -/
theorem sub_two_le_iff (n : UInt32) :
    2 + (n - 2).toNat ≤ sizeofSockaddr ↔ 2 ≤ n.toNat ∧ n.toNat ≤ sizeofSockaddr := by
  by_cases h : 2 ≤ n.toNat
  · rw [toNat_sub_two h]
    omega
  · have hsub : (n - 2).toNat = 4294967294 + n.toNat := by
      rw [UInt32.toNat_sub]
      change (4294967296 - 2 + n.toNat) % 4294967296 = _
      omega
    rw [hsub]
    unfold sizeofSockaddr maxPath
    omega

theorem insideWin_iff :
    InsideWin fs stale task objects addr addrlen ↔ FitsWin fs stale task objects addr addrlen := by
  cases addr with
  | none => exact ⟨fun _ a ha => (Option.not_mem_none a ha).elim, fun _ => ⟨inside_nil, inside_nil⟩⟩
  | some a =>
      have hnoted : Inside List.length addrlen.toNat
          (saddrWin fs stale task objects (some a) addrlen).addr ↔ 1 ≤ addrlen.toNat := by
        unfold saddrWin
        rw [inside_cons]
        exact and_iff_left inside_nil
      -- a local name is stored as it was found, any other address as it was given
      have hresult : Inside List.length sizeofSockaddr
          (saddrWin fs stale task objects (some a) addrlen).result ↔
          if a.saFamily = afLocal then
            2 * ((socketPath fs stale task objects a).name.length + 1) ≤ maxPath
          else 2 ≤ addrlen.toNat ∧ addrlen.toNat ≤ sizeofSockaddr := by
        have hfamily : 0 + 2 ≤ sizeofSockaddr := by decide
        unfold saddrWin
        dsimp only
        rw [inside_cons, length_leBytes, and_iff_right hfamily]
        split_ifs
        · have hname : (text (socketPath fs stale task objects a).resolved) =
              (socketPath fs stale task objects a).name := rfl
          rw [inside_cons, and_iff_left inside_nil, length_unitBytes, length_winWcsncpy, hname]
          dsimp only
          unfold sizeofSockaddr maxPath
          omega
        · rw [inside_cons, and_iff_left inside_nil, length_winMemcpy]
          exact sub_two_le_iff addrlen
      have hinside : InsideWin fs stale task objects (some a) addrlen ↔
          Inside List.length sizeofSockaddr
              (saddrWin fs stale task objects (some a) addrlen).result ∧
            Inside List.length addrlen.toNat
              (saddrWin fs stale task objects (some a) addrlen).addr :=
        ⟨fun h => ⟨h.result, h.noted⟩, fun h => ⟨h.1, h.2⟩⟩
      rw [hinside, hresult, hnoted]
      unfold FitsWin
      simp only [Option.mem_some_iff, forall_eq']
      split_ifs
      · exact and_comm
      · omega

theorem insidePosix_iff :
    InsidePosix pathMax result address length ↔ FitsPosix pathMax result address length := by
  cases result with
  | none => exact ⟨fun _ h => absurd h Bool.false_ne_true, fun _ _ => inside_nil⟩
  | some cells =>
      have hsource : 0 ∉ text (units address.saData) := zero_not_mem_text _
      have hsplit : ∀ stores : List (Placed (List UInt8)), Inside List.length length.toNat
          (⟨0, [length.toUInt8]⟩ :: ⟨1, [afPosix address.saFamily.toUInt32]⟩ :: stores) ↔
            2 ≤ length.toNat ∧ Inside List.length length.toNat stores := by
        intro stores
        rw [inside_cons, inside_cons, ← and_assoc, List.length_singleton, List.length_singleton]
        refine and_congr_left fun _ => ?_
        dsimp only
        omega
      unfold InsidePosix FitsPosix saddrPosix
      simp only [hsplit, Option.isSome_some, forall_const]
      split_ifs
      · constructor
        -- whatever is in memory, the path ends within the rest of the length
        · intro h
          obtain ⟨n, hn⟩ := Nat.exists_eq_add_of_le (h []).1
          rw [hn] at h ⊢
          have hlt := (outPosix_lt_iff hsource n).mp fun junk =>
            (inside_pathPosixStores_iff pathMax junk _ _ n).mp (h junk).2
          omega
        · intro h junk
          obtain ⟨n, hn⟩ := Nat.exists_eq_add_of_le (Nat.le_trans (Nat.le_add_right 2 _) h)
          rw [hn] at h ⊢
          have hlt := (outPosix_lt_iff hsource n).mpr (Nat.add_le_add_iff_left.mp h) junk
          exact ⟨Nat.le_add_right 2 n, (inside_pathPosixStores_iff pathMax junk _ _ n).mpr hlt⟩
      · refine ⟨fun h => (h []).1, fun h _ => ⟨h, inside_cons.mpr ⟨?_, inside_nil⟩⟩⟩
        rw [length_winMemcpy, toNat_sub_two h]
        dsimp only
        omega

/-! ### There and back -/

/-- Two stores, one behind the other. -/
theorem stored_two (cells l l' : List UInt8) :
    stored cells [⟨0, l⟩, ⟨l.length, l'⟩] = l ++ l' ++ cells.drop (l ++ l').length := by
  have hpoke := poke_poke cells 0 l l'
  rw [Nat.zero_add, poke_zero cells (l ++ l')] at hpoke
  exact hpoke

theorem stored_three (cells : List UInt8) (len family : UInt8) (l : List UInt8) :
    ∃ rest, stored cells [⟨0, [len]⟩, ⟨1, [family]⟩, ⟨2, l⟩] = len :: family :: (l ++ rest) := by
  have hstored := stored_two cells [len] ([family] ++ l)
  have hpoke := poke_poke (poke cells 0 [len]) 1 [family] l
  exact ⟨_, hpoke.trans hstored⟩

theorem front_append {l : List UInt8} {n : Nat} (h : l.length = n) (rest : List UInt8) :
    front (l ++ rest) n = l := by
  have hle : n - (l ++ rest).length = 0 := by
    rw [List.length_append]
    omega
  rw [front, List.take_left' h, hle, List.replicate_zero, List.append_nil]

/-- A family has a number that is small, and not that of local sockets. -/
theorem afWin_spec {family : UInt8} (h : family ≠ afLocal) :
    afWin family ≠ wsAfLocal ∧ (afWin family).toNat < 65536 := by
  unfold afWin
  split_ifs
  · exact ⟨by decide, by decide⟩
  · exact ⟨by decide, by decide⟩
  · have hlt := family.toNat_lt
    refine ⟨fun hlocal => h ?_, ?_⟩
    · have hnat := congrArg UInt32.toNat hlocal
      rw [UInt8.toNat_toUInt32] at hnat
      exact UInt8.toNat_inj.mp hnat
    · rw [UInt8.toNat_toUInt32]
      omega

theorem there_eq {a : Sockaddr} (hlocal : a.saFamily ≠ afLocal) (fs : WinFs)
    (stale : List UInt16) (task : NameiTask) (objects : ObjectNames) (addrlen : UInt32)
    (cells : List UInt8) :
    ∃ rest, there fs stale task objects a addrlen cells =
      ⟨(afWin a.saFamily).toUInt16, winMemcpy a.saData (addrlen - 2) ++ rest⟩ := by
  obtain ⟨-, hlt⟩ := afWin_spec hlocal
  have hsmall : leNat (leBytes 2 (afWin a.saFamily).toUInt16.toNat) =
      (afWin a.saFamily).toUInt16.toNat := leNat_leBytes_two (UInt16.toNat_lt _)
  have hstored := stored_two cells (leBytes 2 (afWin a.saFamily).toUInt16.toNat)
    (winMemcpy a.saData (addrlen - 2))
  rw [length_leBytes, List.append_assoc] at hstored
  unfold there saddrWin Ws2Sockaddr.ofCells
  dsimp only
  rw [if_neg hlocal, hstored, List.take_left' (length_leBytes 2 _), hsmall, UInt16.ofNat_toNat,
    List.drop_left' (length_leBytes 2 _)]
  exact ⟨_, rfl⟩

/-- A family whose number is turned back comes back with the bytes. -/
theorem comesBack_of {a : Sockaddr} (hlocal : a.saFamily ≠ afLocal)
    (hback : afPosix (afWin a.saFamily) = a.saFamily) :
    ComesBack fs stale task objects pathMax a addrlen := by
  intro junk cells cells'
  obtain ⟨rest, hthere⟩ := there_eq hlocal fs stale task objects addrlen cells
  obtain ⟨hne, hlt⟩ := afWin_spec hlocal
  have hfamily : (afWin a.saFamily).toUInt16.toUInt32 = afWin a.saFamily := by
    apply UInt32.toNat_inj.mp
    rw [UInt16.toNat_toUInt32, UInt32.toNat_toUInt16, Nat.mod_eq_of_lt hlt]
  have hbytes : winMemcpy (winMemcpy a.saData (addrlen - 2) ++ rest) (addrlen - 2) =
      winMemcpy a.saData (addrlen - 2) := front_append (length_winMemcpy _ _) rest
  obtain ⟨rest', hstored⟩ :=
    stored_three cells' addrlen.toUInt8 a.saFamily (winMemcpy a.saData (addrlen - 2))
  rw [hthere]
  unfold back saddrPosix
  dsimp only
  rw [hfamily, if_neg hne, hback, hbytes, hstored]
  exact ⟨rfl, List.take_left' (length_winMemcpy _ _)⟩

theorem comesBack_of_proper {a : Sockaddr} (h : Proper a.saFamily addrlen) :
    ComesBack fs stale task objects pathMax a addrlen := by
  cases h with
  | inl hinet =>
      refine comesBack_of ?_ ?_ <;> rw [hinet.1] <;> decide
  | inr hinet6 =>
      refine comesBack_of ?_ ?_ <;> rw [hinet6.1] <;> decide

/-- The conversions do as they should exactly when the lengths of both
addresses fit. -/
theorem converts_iff (fs : WinFs) (stale : List UInt16) (task : NameiTask) (objects : ObjectNames)
    (pathMax : Nat) (addr : Option Sockaddr) (addrlen : UInt32) (result : Option (List UInt8))
    (address : Ws2Sockaddr) (length : UInt32) :
    Converts fs stale task objects pathMax addr addrlen result address length ↔
      FitsWin fs stale task objects addr addrlen ∧ FitsPosix pathMax result address length := by
  rw [← insideWin_iff, ← insidePosix_iff]
  exact ⟨fun h => ⟨h.insideWin, h.insidePosix⟩,
    fun h => ⟨h.1, h.2, fun _ _ hproper => comesBack_of_proper hproper⟩⟩

end

/-- 300 bytes of an address of the Internet do not go into a `SOCKADDR` of 262,
and the name of a local socket does not come back into a room of four bytes. -/
theorem addresses_do_not_fit :
    ¬ Converts emptyFs [] dirTask dirNames 1024 (some ⟨0, afInet, []⟩) 300 none ⟨2, []⟩ 16 ∧
    ¬ Converts emptyFs [] dirTask dirNames 1024 none 0 (some []) ⟨1, [97, 0, 98, 0]⟩ 4 := by
  constructor
  · intro h
    have hfits := insideWin_iff.mp h.insideWin _ rfl
    exact absurd hfits (by decide)
  · intro h
    have hfits := insidePosix_iff.mp h.insidePosix rfl
    exact absurd hfits (by decide)

end MinC.Sys
