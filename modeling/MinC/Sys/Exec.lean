import MinC.Lib.CommandLine
import MinC.Win.Stdlib
import MinC.Vfs.Types

/-!
What a program is started with.

The command line is the command and each argument in quotes, the environment
the global entries and those of the caller, each with its zero. Both grow in a
block that is reallocated before an entry is written to it.
-/

namespace MinC.Sys

open MinC.Lib MinC.Win MinC.Vfs

/-! ### Arguments -/

/-- How often `while (count--)` turns. A negative counter counts down through
the least one. -/
def turns (count : Int8) : Nat := count.toUInt8.toNat

/-- The characters of an argument, and the backslashes that come before a
quote in it. -/
def stpquotFrom : Int8 → List UInt8 → List UInt8
  | _, [] => []
  | count, c :: src =>
      if c = 34 then Words.backslashes (turns count) ++ 34 :: stpquotFrom 1 src
      else if c = 92 then 92 :: stpquotFrom (count + 1) src
      else c :: stpquotFrom 1 src

/-- What is appended for an argument, without the terminating zero. -/
def stpquot (src : List UInt8) : List UInt8 := 32 :: 34 :: (stpquotFrom 1 src ++ [34])

/-- The longest line `CreateProcess` takes, in whole blocks. -/
def argLimit : Nat := 0x3000

section
variable (heap : WinHeap) (pathMax : Nat)

/-- Append the arguments that are left at an offset, as long as there is room
for them. -/
def argvLoop : Block → Nat → List (List UInt8) → Option Block
  | block, _, [] => some block
  | block, size, arg :: argv =>
      let len := arg.length + 3
      if argLimit < size + len then some block
      else match winRealloc heap (size + len) block with
        | none => some block
        | some block =>
            (block.write size (stpquot arg ++ [0])).bind fun block =>
              argvLoop block (size + (stpquot arg).length) argv

/-- The command line. The first argument, the command as it was typed, is not
part of it. A vector without one is read on behind its end, and that has no
result. -/
def argvWin (command : List UInt8) : List (List UInt8) → Option Block
  | [] => none
  | _ :: argv =>
      ((winMalloc heap pathMax).write 0 (command ++ [0])).bind fun block =>
        argvLoop heap block command.length argv

/-! ### The environment -/

/-- The entries every program gets. -/
structure WinGlobals where
  path : List UInt8
  systemRoot : List UInt8
  zero_not_mem_path : 0 ∉ path
  zero_not_mem_systemRoot : 0 ∉ systemRoot
  path_ne : path ≠ []
  systemRoot_ne : systemRoot ≠ []

/-- `Path=` and `SystemRoot=`. -/
def pathEntry : List UInt8 := [80, 97, 116, 104, 61]
def systemRootEntry : List UInt8 := [83, 121, 115, 116, 101, 109, 82, 111, 111, 116, 61]

/-- The entries that are global. -/
def isGlobal (entry : List UInt8) : Bool :=
  systemRootEntry.isPrefixOf entry || pathEntry.isPrefixOf entry

/-- Append the entries that are left at an offset. -/
def envLoop : Block → Nat → List (List UInt8) → Option Block
  | block, _, [] => some block
  | block, p, entry :: envp =>
      if isGlobal entry then envLoop block p envp
      else match winRealloc heap (p + (entry.length + 2)) block with
        | none => some block
        | some block =>
            (block.write p (entry ++ [0])).bind fun block =>
              envLoop block (p + entry.length + 1) envp

def envWin (globals : WinGlobals) (envp : List (List UInt8)) : Option Block :=
  ((winMalloc heap pathMax).write 0 (globals.path ++ [0])).bind fun block =>
    (block.write (globals.path.length + 1) (globals.systemRoot ++ [0])).bind fun block =>
      envLoop heap block (globals.path.length + 1 + (globals.systemRoot.length + 1)) envp

end

/-! ### Lengths -/

theorem turns_succ (count : Int8) : turns (count + 1) = (turns count + 1) % 256 := by
  rw [turns, turns, Int8.toUInt8_add, UInt8.toNat_add]
  rfl

/-- The backslashes that are put before the quotes of an argument, `k`
backslashes into it: one more than there are, as far as a `char` counts. -/
def escapesFrom : Nat → List UInt8 → Nat
  | _, [] => 0
  | k, c :: src =>
      if c = 34 then (k + 1) % 256 + escapesFrom 0 src
      else if c = 92 then escapesFrom (k + 1) src
      else escapesFrom 0 src

def escapes (src : List UInt8) : Nat := escapesFrom 0 src

/-- The counter is one more than the backslashes that were read. -/
def Counts (count : Int8) (k : Nat) : Prop := turns count = (k + 1) % 256

theorem counts_one : Counts 1 0 := rfl

theorem Counts.succ {count : Int8} {k : Nat} (h : Counts count k) :
    Counts (count + 1) (k + 1) := by
  have hturns : turns count = (k + 1) % 256 := h
  rw [Counts, turns_succ, hturns]
  omega

theorem length_stpquotFrom {count : Int8} {k : Nat} (h : Counts count k) (src : List UInt8) :
    (stpquotFrom count src).length = src.length + escapesFrom k src := by
  induction src generalizing count k with
  | nil => rfl
  | cons c src ih =>
      rw [stpquotFrom, escapesFrom]
      split_ifs with hquote hslash
      · rw [List.length_append, List.length_cons, List.length_cons, ih counts_one,
          Words.backslashes, List.length_replicate, show turns count = _ from h]
        omega
      · rw [List.length_cons, List.length_cons, ih h.succ]
        omega
      · rw [List.length_cons, List.length_cons, ih counts_one]
        omega

theorem length_stpquot (src : List UInt8) :
    (stpquot src).length = src.length + 3 + escapes src := by
  rw [stpquot, List.length_cons, List.length_cons, List.length_append, List.length_singleton,
    length_stpquotFrom counts_one, escapes]
  omega

/-! ### The command line stays in its block -/

section
variable (heap : WinHeap)

/-- Every argument that is appended ends in the pages that its own length was
rounded up to, whatever is inserted into it. -/
def ArgsFit : Nat → Nat → List (List UInt8) → Prop
  | _, _, [] => True
  | ulSize, size, arg :: argv =>
      let request := size + (arg.length + 3)
      request ≤ argLimit → Granted heap ulSize request →
        let ulSize' := max ulSize (pages heap (request + headerSize))
        request + escapes arg + 1 + headerSize ≤ ulSize' ∧
          ArgsFit ulSize' (request + escapes arg) argv

/-- There is a first argument, the command with its zero fits the first block, and
the arguments fit the blocks it is moved to. -/
def LineFits (pathMax : Nat) (command : List UInt8) (argv : List (List UInt8)) : Prop :=
  argv ≠ [] ∧ command.length + 1 + headerSize ≤ pages heap (pathMax + headerSize) ∧
    ArgsFit heap (pages heap (pathMax + headerSize)) command.length argv.tail

variable {heap}

theorem argvLoop_isSome_iff {block : Block} (hpages : heap.pageSize ∣ block.size) (size : Nat)
    (argv : List (List UInt8)) :
    (argvLoop heap block size argv).isSome ↔ ArgsFit heap block.size size argv := by
  induction argv generalizing block size with
  | nil => exact iff_of_true rfl trivial
  | cons arg argv ih =>
      rw [argvLoop, ArgsFit]
      simp only
      by_cases hlimit : argLimit < size + (arg.length + 3)
      · rw [if_pos hlimit]
        exact iff_of_true rfl fun h => absurd h (Nat.not_le.mpr hlimit)
      · rw [if_neg hlimit]
        simp only [Nat.le_of_not_lt hlimit, true_implies]
        -- room is made for the argument in quotes, and an escape takes one byte more
        cases hmoved : winRealloc heap (size + (arg.length + 3)) block with
        | none =>
            refine iff_of_true rfl fun hgranted => ?_
            have hgrown := (grown_eq_some_iff heap hpages).mpr ⟨hgranted, rfl⟩
            rw [winRealloc, hgrown] at hmoved
            exact absurd hmoved (Option.some_ne_none _)
        | some moved =>
            obtain ⟨hgrown, hpages'⟩ := winRealloc_size heap hpages hmoved
            obtain ⟨hgranted, hsize⟩ := (grown_eq_some_iff heap hpages).mp hgrown
            have hend : size + (stpquot arg ++ [0]).length ≤ moved.bytes.length ↔
                size + (arg.length + 3) + escapes arg + 1 + headerSize ≤ moved.size := by
              rw [List.length_append, length_stpquot, List.length_singleton, Block.size]
              omega
            have hnext : size + (stpquot arg).length = size + (arg.length + 3) + escapes arg := by
              rw [length_stpquot]
              omega
            simp only [hgranted, true_implies]
            rw [← hsize, ← hend, Block.write_bind_isSome, hnext]
            refine and_congr_right fun hroom => ?_
            have hkept : (⟨poke moved.bytes size (stpquot arg ++ [0])⟩ : Block).size = moved.size :=
              Block.write_size (if_pos hroom)
            have hrest := ih (hkept.symm ▸ hpages') (size + (arg.length + 3) + escapes arg)
            rw [hkept] at hrest
            exact hrest

/-- The block the command was written to. -/
def commandBlock (heap : WinHeap) (pathMax : Nat) (command : List UInt8) : Block :=
  ⟨poke (winMalloc heap pathMax).bytes 0 (command ++ [0])⟩

theorem commandBlock_fits (heap : WinHeap) (pathMax : Nat) (command : List UInt8) :
    0 + (command ++ [0]).length ≤ (winMalloc heap pathMax).bytes.length ↔
      command.length + 1 + headerSize ≤ pages heap (pathMax + headerSize) := by
  rw [← winMalloc_size heap pathMax, List.length_append, List.length_singleton, Block.size]
  omega

theorem commandBlock_size {pathMax : Nat} {command : List UInt8}
    (h : command.length + 1 + headerSize ≤ pages heap (pathMax + headerSize)) :
    (commandBlock heap pathMax command).size = pages heap (pathMax + headerSize) :=
  (Block.write_size (if_pos ((commandBlock_fits heap pathMax command).mpr h))).trans
    (winMalloc_size heap pathMax)

theorem commandBlock_loop {pathMax : Nat} {command : List UInt8} (argv : List (List UInt8))
    (h : command.length + 1 + headerSize ≤ pages heap (pathMax + headerSize)) :
    (argvLoop heap (commandBlock heap pathMax command) command.length argv).isSome ↔
      ArgsFit heap (pages heap (pathMax + headerSize)) command.length argv := by
  have hsize := commandBlock_size h
  have hloop := argvLoop_isSome_iff (hsize.symm ▸ pages_dvd heap _) command.length argv
  rw [hsize] at hloop
  exact hloop

theorem argvWin_cons_isSome (pathMax : Nat) (command arg : List UInt8)
    (argv : List (List UInt8)) :
    (argvWin heap pathMax command (arg :: argv)).isSome ↔
      LineFits heap pathMax command (arg :: argv) := by
  rw [argvWin, Block.write_bind_isSome, commandBlock_fits, LineFits,
    and_iff_right (List.cons_ne_nil arg argv)]
  exact and_congr_right fun hroom => commandBlock_loop argv hroom

/-- Every byte of the command line lies inside of the block that was granted
for it if and only if there is a first argument, the command fits the first
block, and each further argument has room for what is inserted into it, and for
the zero, in the pages that its length was rounded up to. -/
theorem argvWin_inside_iff (heap : WinHeap) (pathMax : Nat) (command : List UInt8)
    (argv : List (List UInt8)) :
    (argvWin heap pathMax command argv).isSome ↔ LineFits heap pathMax command argv := by
  cases argv with
  | nil => exact iff_of_false (by simp [argvWin]) fun h => h.1 rfl
  | cons arg argv => exact argvWin_cons_isSome pathMax command arg argv

/-! ### A zero behind the block -/

/-- Pages of 4096 bytes, and all that is asked for. -/
def pageHeap : WinHeap where
  pageSize := 4096
  grants _ := true
  added _ _ := 1
  pageSize_pos := by decide

theorem escapesFrom_replicate (k n : Nat) : escapesFrom k (List.replicate n 97) = 0 := by
  induction n generalizing k with
  | zero => rfl
  | succ n ih =>
      rw [List.replicate_succ, escapesFrom, if_neg (by decide), if_neg (by decide)]
      exact ih 0

/-- An argument that fills the first block with its quotes: the zero is written
behind it. -/
theorem zero_overruns :
    ¬ (argvWin pageHeap 1024 [99] [[99], List.replicate 4088 97]).isSome := by
  rw [argvWin, Block.write_bind_isSome]
  rintro ⟨_, hloop⟩
  have hargs : ArgsFit pageHeap 4096 1 [List.replicate 4088 97] :=
    (commandBlock_loop _ (by decide)).mp hloop
  have hroom := (hargs (by rw [List.length_replicate]; decide)
    (.inl (by rw [List.length_replicate]; decide))).1
  rw [List.length_replicate, escapes, escapesFrom_replicate] at hroom
  exact absurd hroom (by decide)

end

/-! ### The environment ends in its block -/

/-- The entries of the caller that are kept. -/
def kept (envp : List (List UInt8)) : List (List UInt8) := envp.filter (!isGlobal ·)

/-- Whatever is in memory that is added, the block holds the global entries,
those that are kept, and the empty one that ends them. -/
def EnvParses (heap : WinHeap) (pathMax : Nat) (globals : WinGlobals)
    (envp : List (List UInt8)) : Prop :=
  ∀ added, ∃ block, envWin (heap.adding added) pathMax globals envp = some block ∧
    texts [] block.bytes = some (globals.path :: globals.systemRoot :: kept envp)

/-- All entries with their zeros, and the one that ends them, fit the first
block. -/
def EnvFits (heap : WinHeap) (pathMax : Nat) (globals : WinGlobals)
    (envp : List (List UInt8)) : Prop :=
  (withZeros (globals.path :: globals.systemRoot :: kept envp)).length + 1 + headerSize ≤
    pages heap (pathMax + headerSize)

section
variable {heap : WinHeap} {front fill : List UInt8}

theorem write_entry {entry : List UInt8} {block : Block}
    (h : (⟨front ++ fill⟩ : Block).write front.length (entry ++ [0]) = some block) :
    block = ⟨front ++ (entry ++ [0]) ++ fill.drop (entry.length + 1)⟩ := by
  obtain ⟨_, rfl⟩ := Block.write_eq_some_iff.mp h
  rw [poke_append, List.length_append, List.length_singleton, ← List.append_assoc]

theorem write_cleared (front entry : List UInt8) (a : Nat) :
    (⟨front ++ List.replicate a 0⟩ : Block).write front.length (entry ++ [0]) =
      if entry.length + 1 ≤ a then
        some ⟨front ++ (entry ++ [0]) ++ List.replicate (a - (entry.length + 1)) 0⟩
      else none := by
  have hroom : front.length + (entry ++ [0]).length ≤ (front ++ List.replicate a (0 : UInt8)).length ↔
      entry.length + 1 ≤ a := by
    rw [List.length_append, List.length_append, List.length_replicate, List.length_singleton]
    omega
  split_ifs with h
  · have hwrite : (⟨front ++ List.replicate a 0⟩ : Block).write front.length (entry ++ [0]) =
        some ⟨poke (front ++ List.replicate a 0) front.length (entry ++ [0])⟩ :=
      if_pos (hroom.mpr h)
    rw [hwrite, write_entry hwrite, List.drop_replicate]
  · exact if_neg fun hfits => h (hroom.mp hfits)

theorem kept_global {entry : List UInt8} (h : isGlobal entry = true) (envp : List (List UInt8)) :
    kept (entry :: envp) = kept envp := by
  rw [kept, List.filter_cons_of_neg (by simp [h])]
  rfl

theorem kept_own {entry : List UInt8} (h : ¬ isGlobal entry = true) (envp : List (List UInt8)) :
    kept (entry :: envp) = entry :: kept envp := by
  rw [kept, List.filter_cons_of_pos (by simpa using h)]
  rfl

theorem length_withZeros_cons (w : List UInt8) (l : List (List UInt8)) :
    (withZeros (w :: l)).length = w.length + 1 + (withZeros l).length := by
  rw [withZeros_cons, List.length_append, List.length_cons]
  omega

/-- Entries that fit what was cleared do not move the block. -/
theorem envLoop_fits (envp : List (List UInt8)) {a : Nat}
    (h : (withZeros (kept envp)).length < a) :
    envLoop heap ⟨front ++ List.replicate a 0⟩ front.length envp =
      some ⟨front ++ (withZeros (kept envp) ++
        List.replicate (a - (withZeros (kept envp)).length) 0)⟩ := by
  induction envp generalizing front a with
  | nil => rfl
  | cons entry envp ih =>
      rw [envLoop]
      by_cases hglobal : isGlobal entry = true
      · rw [if_pos hglobal, kept_global hglobal]
        rw [kept_global hglobal] at h
        exact ih h
      · rw [if_neg hglobal]
        rw [kept_own hglobal, length_withZeros_cons] at h
        have hstays : winRealloc heap (front.length + (entry.length + 2))
            ⟨front ++ List.replicate a 0⟩ = some ⟨front ++ List.replicate a 0⟩ := by
          have hlen : (⟨front ++ List.replicate a 0⟩ : Block).size =
              front.length + a + headerSize := by
            rw [Block.size, List.length_append, List.length_replicate]
          rw [winRealloc, grown, if_neg (by rw [hlen]; omega), Option.map_some, Block.moved,
            Nat.sub_self, List.range_zero, List.map_nil, List.append_nil]
        have hnext : front.length + entry.length + 1 = (front ++ (entry ++ [0])).length := by
          rw [List.length_append, List.length_append, List.length_singleton, Nat.add_assoc]
        have hrest : envLoop heap
            ⟨front ++ (entry ++ [0]) ++ List.replicate (a - (entry.length + 1)) 0⟩ _ envp = _ :=
          ih (by omega)
        simp only [hstays]
        rw [write_cleared, if_pos (by omega), Option.bind_some, hnext, hrest, kept_own hglobal,
          length_withZeros_cons, withZeros_cons, Nat.sub_sub]
        simp

/-- Entries that do not fit what was cleared end before memory that was not
written, or are not all there. -/
theorem envLoop_over (hadded : ∀ ulSize i, heap.added ulSize i = 1) (envp : List (List UInt8))
    {a b : Nat} (h : a ≤ (withZeros (kept envp)).length) {block : Block}
    (hblock : envLoop heap ⟨front ++ (List.replicate a 0 ++ List.replicate b 1)⟩ front.length envp =
      some block) :
    ∃ l a' b', l.length ≤ (kept envp).length ∧ (l.length = (kept envp).length → a' = 0) ∧
      (∃ rest, kept envp = l ++ rest) ∧
        block.bytes = front ++ (withZeros l ++ (List.replicate a' 0 ++ List.replicate b' 1)) := by
  induction envp generalizing front a b with
  | nil =>
      obtain rfl := Option.some.inj hblock
      exact ⟨[], a, b, Nat.le_refl _, fun _ => Nat.le_zero.mp h, ⟨[], rfl⟩, rfl⟩
  | cons entry envp ih =>
      rw [envLoop] at hblock
      by_cases hglobal : isGlobal entry = true
      · rw [if_pos hglobal] at hblock
        rw [kept_global hglobal] at h ⊢
        exact ih h hblock
      · rw [if_neg hglobal] at hblock
        rw [kept_own hglobal] at h ⊢
        cases hmoved : winRealloc heap (front.length + (entry.length + 2))
            ⟨front ++ (List.replicate a 0 ++ List.replicate b 1)⟩ with
        | none =>
            simp only [hmoved] at hblock
            obtain rfl := Option.some.inj hblock
            exact ⟨[], a, b, Nat.zero_le _, fun hnil => absurd hnil (Nat.succ_ne_zero _).symm,
              ⟨_, rfl⟩, rfl⟩
        | some moved =>
            -- what was added behind the block is not cleared
            obtain ⟨ulSize, _, rfl⟩ := Option.map_eq_some_iff.mp hmoved
            obtain ⟨c, hc⟩ : ∃ c, Block.moved heap
                ⟨front ++ (List.replicate a 0 ++ List.replicate b 1)⟩ ulSize =
                  ⟨front ++ (List.replicate a 0 ++ List.replicate (b + c) 1)⟩ := by
              refine ⟨ulSize - Block.size ⟨front ++ (List.replicate a 0 ++ List.replicate b 1)⟩, ?_⟩
              have hones : (List.range (ulSize - Block.size
                  ⟨front ++ (List.replicate a 0 ++ List.replicate b 1)⟩)).map (heap.added ulSize) =
                    List.replicate (ulSize - Block.size
                      ⟨front ++ (List.replicate a 0 ++ List.replicate b 1)⟩) 1 := by
                rw [List.map_congr_left fun i _ => hadded ulSize i, List.map_const',
                  List.length_range]
              rw [Block.moved, hones, List.append_assoc, List.append_assoc,
                List.replicate_append_replicate]
            simp only [hmoved, hc] at hblock
            obtain ⟨written, hwrite, hrest⟩ := Option.bind_eq_some_iff.mp hblock
            rw [write_entry hwrite, List.drop_append, List.drop_replicate, List.drop_replicate,
              List.length_replicate] at hrest
            have hnext : front.length + entry.length + 1 = (front ++ (entry ++ [0])).length := by
              rw [List.length_append, List.length_append, List.length_singleton, Nat.add_assoc]
            rw [hnext] at hrest
            rw [length_withZeros_cons] at h
            obtain ⟨l, a', b', hlen, hend, ⟨rest, hkept⟩, hbytes⟩ :=
              ih (a := a - (entry.length + 1)) (by omega) hrest
            refine ⟨entry :: l, a', b', Nat.succ_le_succ hlen, fun hall => hend (Nat.succ.inj hall),
              ⟨rest, by rw [hkept]; rfl⟩, ?_⟩
            rw [hbytes, withZeros_cons]
            simp

variable {pathMax : Nat} {globals : WinGlobals} {envp : List (List UInt8)}

/-- The global entries, if they fit the first block. -/
theorem envWin_eq :
    envWin heap pathMax globals envp =
      if (withZeros [globals.path, globals.systemRoot]).length + headerSize ≤
          pages heap (pathMax + headerSize) then
        envLoop heap ⟨withZeros [globals.path, globals.systemRoot] ++
          List.replicate (pages heap (pathMax + headerSize) - headerSize -
            (withZeros [globals.path, globals.systemRoot]).length) 0⟩
          (withZeros [globals.path, globals.systemRoot]).length envp
      else none := by
  let a := pages heap (pathMax + headerSize) - headerSize
  have hcleared : winMalloc heap pathMax = ⟨[] ++ List.replicate a 0⟩ := by
    rw [winMalloc, pagesFrom_eq heap (Nat.dvd_zero _), Nat.zero_max, List.nil_append]
  have hlen : (withZeros [globals.path, globals.systemRoot]).length =
      globals.path.length + 1 + (globals.systemRoot.length + 1) := by
    rw [length_withZeros_cons, length_withZeros_cons]
    rfl
  have htext : withZeros [globals.path, globals.systemRoot] =
      [] ++ (globals.path ++ [0]) ++ (globals.systemRoot ++ [0]) := by
    rw [withZeros_cons, withZeros_cons]
    simp [withZeros]
  have hroot : globals.path.length + 1 = ([] ++ (globals.path ++ [0])).length := by simp
  have hpath := write_cleared [] globals.path a
  have hsystem := write_cleared ([] ++ (globals.path ++ [0])) globals.systemRoot
    (a - (globals.path.length + 1))
  rw [← hroot] at hsystem
  rw [envWin, hcleared, show (0 : Nat) = ([] : List UInt8).length from rfl, hpath]
  by_cases hfits : globals.path.length + 1 ≤ a
  · rw [if_pos hfits, Option.bind_some, hsystem]
    by_cases hfits' : globals.systemRoot.length + 1 ≤ a - (globals.path.length + 1)
    · rw [if_pos hfits', Option.bind_some, if_pos (by rw [hlen]; omega), hlen, htext, Nat.sub_sub]
    · rw [if_neg hfits', Option.bind_none, if_neg (by rw [hlen]; omega)]
  · rw [if_neg hfits, Option.bind_none, if_neg (by rw [hlen]; omega)]

/-- The entries of a block, and those that are kept of an environment. -/
theorem entries_ne (hentries : ∀ entry ∈ envp, entry ≠ [] ∧ 0 ∉ entry)
    {l : List (List UInt8)} (hl : ∃ rest, kept envp = l ++ rest) :
    ∀ entry ∈ globals.path :: globals.systemRoot :: l, entry ≠ [] ∧ 0 ∉ entry := by
  obtain ⟨rest, hl⟩ := hl
  intro entry hmem
  rcases List.mem_cons.mp hmem with rfl | hmem
  · exact ⟨globals.path_ne, globals.zero_not_mem_path⟩
  · rcases List.mem_cons.mp hmem with rfl | hmem
    · exact ⟨globals.systemRoot_ne, globals.zero_not_mem_systemRoot⟩
    · have hkept : entry ∈ kept envp := by
        rw [hl]
        exact List.mem_append_left _ hmem
      exact hentries entry (List.mem_filter.mp hkept).1

theorem withZeros_globals (l : List (List UInt8)) :
    withZeros (globals.path :: globals.systemRoot :: l) =
      withZeros [globals.path, globals.systemRoot] ++ withZeros l := by
  rw [← withZeros_append]
  rfl

theorem EnvParses.fits (hentries : ∀ entry ∈ envp, entry ≠ [] ∧ 0 ∉ entry)
    (h : EnvParses heap pathMax globals envp) : EnvFits heap pathMax globals envp := by
  obtain ⟨block, hblock, htexts⟩ := h fun _ _ => 1
  by_contra hover
  rw [EnvFits, withZeros_globals, List.length_append] at hover
  rw [envWin_eq] at hblock
  split_ifs at hblock with hfront
  have hone : ∀ k : Nat, List.replicate k (0 : UInt8) =
      List.replicate k 0 ++ List.replicate 0 1 := fun k => (List.append_nil _).symm
  rw [hone] at hblock
  rw [pages_adding] at hblock hfront
  obtain ⟨l, a, b, hle, hend, hrest, hbytes⟩ := envLoop_over (fun _ _ => rfl) envp
    (by omega) hblock
  rw [hbytes, ← List.append_assoc, ← withZeros_globals,
    texts_withZeros (entries_ne hentries hrest)] at htexts
  cases a with
  | zero =>
      rw [List.replicate_zero, List.nil_append, texts_of_not_mem (by simp)] at htexts
      exact absurd htexts (Option.some_ne_none _).symm
  | succ a =>
      rw [List.replicate_succ, List.cons_append, texts_zero, Option.map_some, List.append_nil]
        at htexts
      have hl : l = kept envp := (List.cons.inj (List.cons.inj (Option.some.inj htexts)).2).2
      exact absurd (hend (congrArg List.length hl)) (Nat.succ_ne_zero _)

theorem EnvFits.parses (hentries : ∀ entry ∈ envp, entry ≠ [] ∧ 0 ∉ entry)
    (h : EnvFits heap pathMax globals envp) : EnvParses heap pathMax globals envp := by
  intro added
  rw [EnvFits, withZeros_globals, List.length_append] at h
  have hfront : (withZeros [globals.path, globals.systemRoot]).length + headerSize ≤
      pages heap (pathMax + headerSize) := by omega
  obtain ⟨c, hc⟩ : ∃ c, pages heap (pathMax + headerSize) - headerSize -
      (withZeros [globals.path, globals.systemRoot]).length - (withZeros (kept envp)).length =
        c + 1 := ⟨_, (Nat.sub_one_add_one (by omega)).symm⟩
  refine ⟨_, envWin_eq.trans ((if_pos hfront).trans (envLoop_fits envp ?_)), ?_⟩
  · rw [pages_adding]
    omega
  · change texts [] (withZeros [globals.path, globals.systemRoot] ++
      (withZeros (kept envp) ++ List.replicate (pages heap (pathMax + headerSize) - headerSize -
        (withZeros [globals.path, globals.systemRoot]).length -
          (withZeros (kept envp)).length) 0)) = _
    rw [hc, ← List.append_assoc, ← withZeros_globals,
      texts_withZeros (entries_ne hentries ⟨[], (List.append_nil _).symm⟩),
      List.replicate_succ, texts_zero, Option.map_some, List.append_nil]

/-- The environment parses to the global entries and those of the caller,
whatever is in memory that is added, if and only if all of it, with the empty
entry that ends it, fits the first block. -/
theorem envWin_parses_iff (heap : WinHeap) (pathMax : Nat) (globals : WinGlobals)
    {envp : List (List UInt8)} (hentries : ∀ entry ∈ envp, entry ≠ [] ∧ 0 ∉ entry) :
    EnvParses heap pathMax globals envp ↔ EnvFits heap pathMax globals envp :=
  ⟨EnvParses.fits hentries, EnvFits.parses hentries⟩

end

/-! ### An environment that fills the first block -/

def plainGlobals : WinGlobals where
  path := pathEntry
  systemRoot := systemRootEntry
  zero_not_mem_path := by decide
  zero_not_mem_systemRoot := by decide
  path_ne := by decide
  systemRoot_ne := by decide

theorem envWin_parses_iff_home :
    EnvParses pageHeap 1024 plainGlobals [[72, 61, 47]] ↔
      EnvFits pageHeap 1024 plainGlobals [[72, 61, 47]] :=
  envWin_parses_iff pageHeap 1024 plainGlobals (by decide)

theorem not_global_replicate (n : Nat) : ¬ isGlobal (List.replicate n 97) = true := by
  cases n with
  | zero => decide
  | succ n => simp [isGlobal, pathEntry, systemRootEntry, List.replicate_succ]

/-- An entry whose zero is the last byte of the first block. -/
theorem end_not_written : ¬ EnvParses pageHeap 1024 plainGlobals [List.replicate 4073 97] := by
  intro h
  have hentries : ∀ entry ∈ [List.replicate 4073 (97 : UInt8)], entry ≠ [] ∧ 0 ∉ entry := by
    intro entry hmem
    rw [List.mem_singleton.mp hmem, List.ne_nil_iff_length_pos, List.length_replicate]
    exact ⟨by omega, fun hzero => absurd (List.mem_replicate.mp hzero).2 (by decide)⟩
  have hkept : kept [List.replicate 4073 (97 : UInt8)] = [List.replicate 4073 97] := by
    rw [kept_own (not_global_replicate 4073)]
    rfl
  have hfits := h.fits hentries
  rw [EnvFits, hkept, length_withZeros_cons, length_withZeros_cons, length_withZeros_cons,
    List.length_replicate] at hfits
  exact absurd hfits (by decide)

end MinC.Sys
