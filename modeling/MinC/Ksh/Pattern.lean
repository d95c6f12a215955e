import MinC.Lib.Stretches

/-!
The patterns of the shell.

The characters of a pattern that mean something else than themselves have the
byte `MAGIC` before them. A pattern is matched between two places of its text with
what stands between two places of a string, and the alternatives of a group are
matched where they are. The text of a pattern, and a string, end at a zero byte
that is not in the lists.
-/

namespace MinC.Ksh

/-- `MAGIC`. -/
def magic : UInt8 := 7

/-- The byte at a place of a string, or the one that ends it. -/
def byteAt (t : List UInt8) (i : Nat) : UInt8 := t.getD i 0

/-- `strchr` finds these bytes in `"*+?@! "`, and the one behind them. -/
def patternOps : List UInt8 := [0x2A, 0x2B, 0x3F, 0x40, 0x21, 0x20, 0]

def isOp (c : UInt8) : Bool := c &&& 0x80 ≠ 0 && (c &&& 0x7F) ∈ patternOps

/-! ### Groups -/

/-- Look in the bytes that are left for the end of a group, or for a `|` of it too. -/
def patScan (t : List UInt8) (matchSep : Bool) : Nat → Nat → Nat → Option Nat
  | 0, _, _ => none
  | left + 1, nest, p =>
      if byteAt t p ≠ magic then patScan t matchSep left nest (p + 1)
      else
        let c := byteAt t (p + 1)
        if c = 0x29 ∧ nest = 0 ∨ c = 0x7C ∧ matchSep ∧ nest = 0 then some (p + 2)
        else
          match left with
          | 0 => none
          | left + 1 =>
              patScan t matchSep left
                (if c = 0x29 then nest - 1 else if isOp c then nest + 1 else nest) (p + 2)

/-- Where the alternatives of a group begin, and where what is behind them does. -/
def alternatives (t : List UInt8) (pe prest : Nat) : Nat → Nat → List (Nat × Nat)
  | 0, _ => []
  | turns + 1, psub =>
      match patScan t true (pe - psub) 0 psub with
      | none => []
      | some pnext =>
          (psub, pnext) :: if pnext = prest then [] else alternatives t pe prest turns pnext

/-! ### Classes -/

/-- The table `cclasses`. -/
abbrev CClasses := List (List UInt8 × (UInt8 → Bool))

/-- What `posix_cclass` returns, and where it says that the class ends. -/
inductive ClassName
  | missing (ep : Nat)
  | invalid
  | found (rval : Bool) (ep : Nat)

def posixCclass (cclasses : CClasses) (t : List UInt8) (pattern : Nat) (test : UInt8) :
    ClassName :=
  let name := (t.drop pattern).takeWhile (· ≠ 0x3A)
  let colon := pattern + name.length
  if byteAt t colon ≠ 0x3A ∨ byteAt t (colon + 1) ≠ magic then .missing (pattern - 2)
  else
    match cclasses.find? fun cc => cc.1 = name with
    | none => .invalid
    | some cc => .found (cc.2 test) (colon + 3)

/-- `[:` with `MAGIC` before it. -/
def opensName (t : List UInt8) (p : Nat) : Bool :=
  byteAt t p = magic && byteAt t (p + 1) = 0x5B && byteAt t (p + 2) = 0x3A

/-- `]` with `MAGIC` before it. -/
def closes (t : List UInt8) (p : Nat) : Bool := byteAt t p = magic && byteAt t (p + 1) = 0x5D

/-- The names that follow each other. -/
def posixNames (cclasses : CClasses) (t : List UInt8) (sub : UInt8) :
    Nat → Nat → Bool → Option (Nat × Bool)
  | 0, _, _ => none
  | turns + 1, p, found =>
      match posixCclass cclasses t (p + (if byteAt t p = magic then 1 else 0) + 2) sub with
      | .missing ep => some (ep, found)
      | .invalid => none
      | .found rval ep =>
          if opensName t ep then posixNames cclasses t sub turns ep (found || rval)
          else some (ep, found || rval)

/-- The first byte of a range, and what is behind it. -/
def classFirst (t : List UInt8) (p : Nat) : UInt8 × Nat :=
  if byteAt t p = magic then
    let c := byteAt t (p + 1)
    (if c &&& 0x80 ≠ 0 then (if c &&& 0x7F = 0x20 then 0x28 else c &&& 0x7F) else c, p + 2)
  else (byteAt t p, p + 1)

def classLast (t : List UInt8) (p : Nat) : UInt8 × Nat :=
  if byteAt t p = magic then
    let d := byteAt t (p + 1)
    (if d &&& 0x80 ≠ 0 then d &&& 0x7F else d, p + 2)
  else (byteAt t p, p + 1)

/-- Behind the first byte there is a `-` that is not the last one of the class. -/
def isRange (t : List UInt8) (p : Nat) : Bool :=
  byteAt t p = magic && byteAt t (p + 1) = 0x2D &&
    (byteAt t (p + 2) ≠ magic || byteAt t (p + 3) ≠ 0x5D)

/-- What a byte or a range of a class comes to. -/
inductive ClassStep
  | unclosed
  | invalid
  | read (p : Nat) (found : Bool)

def classRange (t : List UInt8) (sub : UInt8) (p : Nat) (found : Bool) : ClassStep :=
  let c := classFirst t p
  if c.1 = 0 then .unclosed
  else
    let d := if isRange t c.2 then classLast t (c.2 + 2) else c
    if d.1 < c.1 then .invalid
    else .read d.2 (found || (c.1 = sub || c.1 ≤ sub && sub ≤ d.1))

/-- A byte or a range is read, and then the class ends or is read on. -/
def classItem (t : List UInt8) (sub : UInt8) (not : Bool) (orig : Nat)
    (next : Nat → Bool → Option Nat) (p : Nat) (found : Bool) : Option Nat :=
  match classRange t sub p found with
  | .unclosed => if sub = 0x5B then some orig else none
  | .invalid => none
  | .read p found =>
      if closes t p then (if found ≠ not then some (p + 2) else none) else next p found

/-- The loop of `cclass`, from where the class is read on. -/
def cclassFrom (cclasses : CClasses) (t : List UInt8) (sub : UInt8) (not : Bool) (orig : Nat) :
    Nat → Nat → Bool → Option Nat
  | 0, _, _ => none
  | turns + 1, p, found =>
      if opensName t p || byteAt t p = 0x5B && byteAt t (p + 1) = 0x3A then
        (posixNames cclasses t sub (t.length + 1) p found).bind fun r =>
          if closes t r.1 then (if r.2 ≠ not then some (r.1 + 2) else none)
          else
            classItem t sub not orig (cclassFrom cclasses t sub not orig turns) r.1 r.2
      else classItem t sub not orig (cclassFrom cclasses t sub not orig turns) p found

/-- The place behind a class that has a byte. -/
def cclass (cclasses : CClasses) (t : List UInt8) (p : Nat) (sub : UInt8) : Option Nat :=
  let marked := byteAt t p = magic
  let not := marked && byteAt t (p + 1) = 0x21
  -- a `MAGIC` is passed over also where no `!` follows
  cclassFrom cclasses t sub not p (t.length + 1)
    (if not then p + 2 else if marked then p + 1 else p) false

/-! ### Matching -/

/-- The places from one to another. -/
def places (s se : Nat) : List Nat := List.range' s (se + 1 - s)

/-- The byte that is to be matched. -/
def stringByte (u : List UInt8) (s se : Nat) : UInt8 := if s < se then byteAt u s else 0

/-- Match with so many turns at most, one in the other. -/
def doGmatch (cclasses : CClasses) (u t : List UInt8) : Nat → Nat → Nat → Nat → Nat → Bool
  | 0, _, _, _, _ => false
  | turns + 1, s, se, p, pe =>
      let go := doGmatch cclasses u t turns
      if pe ≤ p then s = se
      else
        let pc := byteAt t p
        let sc := stringByte u s se
        if pc ≠ magic then sc = pc && go (s + 1) se (p + 1) pe
        else
          let op := byteAt t (p + 1)
          if op = 0x5B then
            sc ≠ 0 && (cclass cclasses t (p + 2) sc).any fun p' => go (s + 1) se p' pe
          else if op = 0x3F then sc ≠ 0 && go (s + 1) se (p + 2) pe
          else if op = 0x2A then
            p + 2 = pe || (List.range' s (se - s + 1)).any fun s' => go s' se (p + 2) pe
          else if op = 0xAB ∨ op = 0xAA then
            (patScan t false (pe - (p + 2)) 0 (p + 2)).any fun prest =>
              op = 0xAA && go s se prest pe ||
                (alternatives t pe prest (pe - p) (p + 2)).any fun a =>
                  (places s se).any fun srest =>
                    go s srest a.1 (a.2 - 2) &&
                      (go srest se prest pe || s ≠ srest && go srest se p pe)
          else if op = 0xBF ∨ op = 0xC0 ∨ op = 0xA0 then
            (patScan t false (pe - (p + 2)) 0 (p + 2)).any fun prest =>
              op = 0xBF && go s se prest pe ||
                (alternatives t pe prest (pe - p) (p + 2)).any fun a =>
                  (places (if prest = pe then se else s) se).any fun srest =>
                    go s srest a.1 (a.2 - 2) && go srest se prest pe
          else if op = 0xA1 then
            (patScan t false (pe - (p + 2)) 0 (p + 2)).any fun prest =>
              (places s se).any fun srest =>
                !((alternatives t pe prest (pe - p) (p + 2)).any fun a =>
                    go s srest a.1 (a.2 - 2)) &&
                  go srest se prest pe
          else sc = op && go (s + 1) se (p + 2) pe

/-- At the end of the pattern, nothing is left of the string. -/
theorem doGmatch_end {cclasses : CClasses} {u t : List UInt8} {turns s se p pe : Nat}
    (h : pe ≤ p) : doGmatch cclasses u t (turns + 1) s se p pe = decide (s = se) := by
  rw [doGmatch, if_pos h]

/-- Enough turns for a pattern and a string of these lengths. -/
def turnsFor (p s : Nat) : Nat := p * (s + 2) + s + 1

/-! ### The check of the syntax -/

/-- Two bytes are passed over if they are `MAGIC` and this one. -/
def skipMarked (c : UInt8) : List UInt8 → List UInt8
  | m :: d :: rest => if m = magic ∧ d = c then rest else m :: d :: rest
  | l => l

theorem length_skipMarked_le (c : UInt8) (l : List UInt8) :
    (skipMarked c l).length ≤ l.length := by
  unfold skipMarked
  split
  · split_ifs <;> simp only [List.length_cons] <;> omega
  · exact Nat.le_refl _

theorem length_skipBoth_le (c d : UInt8) (l : List UInt8) :
    (skipMarked c (skipMarked d l)).length ≤ l.length :=
  (length_skipMarked_le c _).trans (length_skipMarked_le d l)

structure GlobScan where
  nest : Nat
  bnest : Nat
  sawGlob : Bool
  inBracket : Bool

def globScan (g : GlobScan) : List UInt8 → Bool
  | [] => g.sawGlob && !g.inBracket && g.nest = 0
  | [_] => globScan g []
  | m :: c :: rest =>
      if m ≠ magic then globScan g (c :: rest)
      else if c = 0x2A ∨ c = 0x3F then globScan { g with sawGlob := true } rest
      else if c = 0x5B then
        if g.inBracket then globScan g rest
        else
          have := length_skipBoth_le 0x5D 0x21 rest
          globScan { g with sawGlob := true, inBracket := true }
            (skipMarked 0x5D (skipMarked 0x21 rest))
      else if c = 0x5D then
        if g.inBracket then
          g.bnest = 0 && globScan { g with inBracket := false } rest
        else globScan g rest
      else if isOp c then
        globScan
          (if g.inBracket then { g with sawGlob := true, bnest := g.bnest + 1 }
            else { g with sawGlob := true, nest := g.nest + 1 }) rest
      else if c = 0x7C then !(g.inBracket && g.bnest = 0) && globScan g rest
      else if c = 0x29 then
        if g.inBracket then g.bnest ≠ 0 && globScan { g with bnest := g.bnest - 1 } rest
        else globScan { g with nest := g.nest - 1 } rest
      else globScan g rest
termination_by l => l.length
decreasing_by
  all_goals
    simp only [List.length_cons, List.length_nil]
    omega

def hasGlobbing (p : List UInt8) : Bool := globScan ⟨0, 0, false, false⟩ p

/-- The text without `MAGIC`. -/
def debunk : List UInt8 → List UInt8
  | [] => []
  | [c] => if c = magic then [] else [c]
  | m :: c :: rest =>
      if m ≠ magic then m :: debunk (c :: rest)
      else if isOp c then
        (if c &&& 0x7F = 0x20 then [] else [c &&& 0x7F]) ++ 0x28 :: debunk rest
      else c :: debunk rest

def gmatch (cclasses : CClasses) (s p : List UInt8) (isfile : Bool) : Bool :=
  if !isfile && !hasGlobbing p then debunk p = s
  else doGmatch cclasses s p (turnsFor p.length s.length) 0 s.length 0 p.length

end MinC.Ksh
