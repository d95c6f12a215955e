import MinC.Vfs.Links
import MinC.Vfs.Plain

/-!
Links to plain targets.

Where no component of a target is itself a link, a mount point or a pipe, the
walk along the target appends its components one after the other. The text of
the link then has to be the target with backslashes, behind the directory of
the link or in place of it, and the target has to be there, or else nothing
that a lookup could find in its place.
-/

namespace MinC.Vfs

open MinC.Lib MinC.Win

/-! ### Walking along a plain target -/

section
variable (fs : WinFs) (start t : List UInt16)

/-- No component of a target leads away that a walk along it looks at. -/
def PlainTarget : Prop :=
  ∀ part, Met fs start t part →
    NoLink fs (nameBelow start part) ∧ NoPipe fs (nameBelow start part)

variable {fs start t}

/-- What is met below the first component is met, if the component is there. -/
theorem PlainTarget.behind {k r : List UInt16} (hk : 47 ∉ k)
    (hfound : fs.attributes (nameBelow start k) ≠ noAttribs)
    (h : PlainTarget fs start (k ++ 47 :: r)) : PlainTarget fs (nameBelow start k) r := by
  intro part hpart
  rw [nameBelow_nameBelow]
  exact h _ (hpart.behind hk hfound)

end

/-! ### What the text of a link has to be -/

section
variable (fs : WinFs) (start target t : List UInt16)

variable {fs start target t}

variable {path : WinNameidata} {l : List UInt16}

end

/-! ### A link to a path with a short first component -/

end MinC.Vfs
