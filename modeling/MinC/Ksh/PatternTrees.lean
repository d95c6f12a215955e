import MinC.Ksh.Pattern

/-!
What patterns mean.

A pattern is a sequence of bytes, classes and groups, and its language is the set
of the strings it is for. Its text is what the shell makes of it: the bytes that
mean something else than themselves are marked. In the text of a pattern every
group can be found again, and the check of the syntax does not refuse it.

Not every text is one of a pattern. `MAGIC` is no byte of a pattern, and a class has
neither it nor `[`: what the matcher does with these in a class is left out. So are
the bytes of a class that are marked although they mean something there.
-/

namespace MinC.Ksh

open MinC.Lib Computability

/-! ### Trees -/

/-- The bytes that can be marked and still stand for themselves. -/
def Markable (c : UInt8) : Prop := c ≠ 0 ∧ c < 0x80 ∧ c ∉ [0x5B, 0x2A, 0x3F, 0x29, 0x7C]

instance decidableMarkable (c : UInt8) : Decidable (Markable c) :=
  inferInstanceAs (Decidable (_ ∧ _ ∧ _))

/-- A byte that stands for itself. It is not `MAGIC`, and is marked only where it can be. -/
structure Lit where
  byte : UInt8
  marked : Bool
  ok : if marked then Markable byte else byte ≠ 0 ∧ byte ≠ magic

/-- A byte of a class, which may be marked where it could be taken for something else. It
is neither `MAGIC` nor `[`, and one that is marked is none of `]`, `-`, `!`, `)` and `|`. -/
structure ClassByte where
  byte : UInt8
  marked : Bool
  ok : byte ≠ 0 ∧ byte ≠ magic ∧ byte ≠ 0x5B ∧
    (marked → byte < 0x80 ∧ byte ∉ [0x5D, 0x2D, 0x21, 0x29, 0x7C])

/-- The name of a class of bytes. -/
structure PosixName where
  bytes : List UInt8
  ok : ∀ c ∈ bytes, c ≠ 0 ∧ c ≠ magic ∧ c ≠ 0x3A

inductive ClassItem
  | byte (c : ClassByte)
  | range (c d : ClassByte)
  | name (n : PosixName)

structure Cls where
  not : Bool
  first : ClassItem
  rest : List ClassItem

inductive GroupOp
  | oneOrMore | zeroOrMore | zeroOrOne | one | plain | none

mutual
inductive Pat
  | nil
  | lit (c : Lit) (rest : Pat)
  | any (rest : Pat)
  | star (rest : Pat)
  | cls (c : Cls) (rest : Pat)
  | group (op : GroupOp) (alts : Alts) (rest : Pat)

inductive Alts
  | last (p : Pat)
  | more (p : Pat) (alts : Alts)
end

/-! ### Texts -/

def markedText (marked : Bool) (c : UInt8) : List UInt8 := if marked then [magic, c] else [c]

def ClassItem.text : ClassItem → List UInt8
  | .byte c => markedText c.marked c.byte
  | .range c d => markedText c.marked c.byte ++ magic :: 0x2D :: markedText d.marked d.byte
  | .name n => magic :: 0x5B :: 0x3A :: (n.bytes ++ [0x3A, magic, 0x5D])

def Cls.items (c : Cls) : List ClassItem := c.first :: c.rest

/-- What follows the `[` of a class. -/
def Cls.inner (c : Cls) : List UInt8 :=
  (if c.not then [magic, 0x21] else []) ++ (c.items.flatMap ClassItem.text ++ [magic, 0x5D])

def GroupOp.byte : GroupOp → UInt8
  | .oneOrMore => 0xAB
  | .zeroOrMore => 0xAA
  | .zeroOrOne => 0xBF
  | .one => 0xC0
  | .plain => 0xA0
  | .none => 0xA1

mutual
def Pat.text : Pat → List UInt8
  | .nil => []
  | .lit c rest => markedText c.marked c.byte ++ rest.text
  | .any rest => magic :: 0x3F :: rest.text
  | .star rest => magic :: 0x2A :: rest.text
  | .cls c rest => magic :: 0x5B :: (c.inner ++ rest.text)
  | .group op alts rest => magic :: op.byte :: (alts.text ++ rest.text)

def Alts.text : Alts → List UInt8
  | .last p => p.text ++ [magic, 0x29]
  | .more p alts => p.text ++ magic :: 0x7C :: alts.text
end

/-! ### Languages -/

/-- The strings of one byte that is asked for. -/
def oneByte (asked : UInt8 → Prop) : Language UInt8 := {w | ∃ c, asked c ∧ w = [c]}

def lookup (cclasses : CClasses) (n : PosixName) : Option (UInt8 → Bool) :=
  (cclasses.find? fun cc => cc.1 = n.bytes).map Prod.snd

/-- A range must be in order, and a name known. -/
def ClassItem.ok (cclasses : CClasses) : ClassItem → Bool
  | .byte _ => true
  | .range c d => c.byte ≤ d.byte
  | .name n => (lookup cclasses n).isSome

def ClassItem.has (cclasses : CClasses) (sub : UInt8) : ClassItem → Bool
  | .byte c => sub = c.byte
  | .range c d => c.byte ≤ sub && sub ≤ d.byte
  | .name n => (lookup cclasses n).any fun isctype => isctype sub

def Cls.has (cclasses : CClasses) (c : Cls) (sub : UInt8) : Bool :=
  c.items.all (ClassItem.ok cclasses) && c.items.any (ClassItem.has cclasses sub) ≠ c.not

def GroupOp.lang (L : Language UInt8) : GroupOp → Language UInt8
  | .oneOrMore => L * L∗
  | .zeroOrMore => L∗
  | .zeroOrOne => 1 + L
  | .one => L
  | .plain => L
  | .none => Lᶜ

mutual
def Pat.lang (cclasses : CClasses) : Pat → Language UInt8
  | .nil => 1
  | .lit c rest => oneByte (· = c.byte) * rest.lang cclasses
  | .any rest => oneByte (fun _ => True) * rest.lang cclasses
  | .star rest => ⊤ * rest.lang cclasses
  | .cls c rest => oneByte (fun sub => c.has cclasses sub = true) * rest.lang cclasses
  | .group op alts rest => op.lang (alts.lang cclasses) * rest.lang cclasses

def Alts.lang (cclasses : CClasses) : Alts → Language UInt8
  | .last p => p.lang cclasses
  | .more p alts => p.lang cclasses + alts.lang cclasses
end

/-! ### Texts at places -/

/-- The bytes stand at this place. -/
def Stands (t : List UInt8) : Nat → List UInt8 → Prop
  | _, [] => True
  | p, c :: l => byteAt t p = c ∧ Stands t (p + 1) l

variable {t : List UInt8} {p : Nat}

@[simp] theorem stands_nil (t : List UInt8) (p : Nat) : Stands t p [] := trivial

@[simp] theorem stands_cons {c : UInt8} {l : List UInt8} :
    Stands t p (c :: l) ↔ byteAt t p = c ∧ Stands t (p + 1) l := Iff.rfl

theorem stands_append {l l' : List UInt8} :
    Stands t p (l ++ l') ↔ Stands t p l ∧ Stands t (p + l.length) l' := by
  induction l generalizing p with
  | nil => simp
  | cons c l ih =>
      rw [List.cons_append, stands_cons, stands_cons, ih, List.length_cons, and_assoc]
      rw [show p + 1 + l.length = p + (l.length + 1) by omega]

theorem stands_of_stretch {pe : Nat} {l : List UInt8} (hp : p ≤ pe) (hpe : pe ≤ t.length)
    (h : stretch t p pe = l) : Stands t p l := by
  induction l generalizing p with
  | nil => trivial
  | cons c l ih =>
      obtain ⟨hlt, hc, hrest⟩ := of_stretch_eq_cons 0 hp hpe h
      exact ⟨hc, ih hlt hrest⟩

/-- What stands at a place is there, since no byte of it is the one that ends the string. -/
theorem Stands.drop_eq {l : List UInt8} (h : Stands t p l) (hl : ∀ c ∈ l, c ≠ 0) :
    t.drop p = l ++ t.drop (p + l.length) := by
  induction l generalizing p with
  | nil => rfl
  | cons c l ih =>
      obtain ⟨hc, hrest⟩ := h
      have hne : c ≠ 0 := hl c (List.mem_cons_self ..)
      have hlt : p < t.length := by
        by_contra hge
        rw [byteAt, List.getD_eq_getElem?_getD, List.getElem?_eq_none (Nat.le_of_not_lt hge)] at hc
        exact hne hc.symm
      rw [List.drop_eq_getElem_cons hlt, ih hrest fun d hd => hl d (List.mem_cons_of_mem _ hd),
        List.getElem_eq_getD 0, List.length_cons, List.cons_append]
      rw [show p + 1 + l.length = p + (l.length + 1) by omega]
      exact congrArg (· :: _) hc

theorem Stands.length_le {l : List UInt8} (h : Stands t p l) (hl : ∀ c ∈ l, c ≠ 0) :
    l.length ≤ t.length := by
  have hlen := congrArg List.length (h.drop_eq hl)
  rw [List.length_drop, List.length_append] at hlen
  omega

end MinC.Ksh
