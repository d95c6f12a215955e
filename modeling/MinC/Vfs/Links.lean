import MinC.Vfs.Walk

/-!
Links in the middle of a path.

The text of a link replaces the component that named it, or the whole name if
its second character is a separator or a colon, and the lookup goes on with
what is left of the source. That is what the target in the place of the link
would have led to only if walking along the target ends at the very name that
the text is written to, or if nothing is there and nothing below it.
-/

namespace MinC.Vfs

open MinC.Lib MinC.Win

/-! ### Walking along a source -/

/-- Where the walk along a source ends. -/
inductive Arrival
  | reached (p : Place) (attribs : UInt32)
  | stopped (p : Place) (last : Bool)

/-- Follow every component of a source, the last one included. A walk that
stops at a missing component gets the name that the rest of the source gives. -/
def walkTo (fs : WinFs) : Nat → Place → List UInt16 → Arrival
  | 0, p, _ => .stopped p false
  | n + 1, p, s =>
      match follow fs (p.enter (firstComponent s)) (p.r + 1) (firstComponent s) with
      | some (q, attribs) =>
          if 47 ∈ s then walkTo fs n q (afterComponent s) else .reached q attribs
      | none =>
          if 47 ∈ s then
            .stopped ((p.enter (firstComponent s)).enter (windowsName (afterComponent s))) false
          else .stopped (p.enter (firstComponent s)) true

section
variable (fs : WinFs)

/-- What a walk that has nothing left to go on with finds. -/
def Arrival.close : Arrival → Place × UInt32
  | .reached p attribs => (p, attribs)
  | .stopped p false => (p, noAttribs)
  | .stopped p true => closeMissing fs p

variable (path : WinNameidata)

end

/-! ### Links -/

section
variable {fs : WinFs}

end

/-! ### What a link leads to -/

section
variable (fs : WinFs) (path : WinNameidata)

/-- The walk along the target ends at a place. -/
def Reaches (t : List UInt16) (q : Place) : Prop :=
  walkTo fs (t.length + 1) path.place t = .reached q (fs.attributes q.name)

variable {fs path}

end

end MinC.Vfs
