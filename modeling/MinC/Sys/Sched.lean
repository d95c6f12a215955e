import MinC.Lib.Memory

/-!
The stack of a forked thread.

A fork starts a thread on a stack of its own and copies the frames of its parent
to it. `copyStack` follows the base pointers up to the frame of the process or
of the thread, and copies the frames on its way back, so that the outermost one
comes first. Every base pointer that was copied is made to point into the copy,
and the outermost frame returns to `__threxit`. What the assembler code of
fork.S reads from the registers of the two threads is in `forkEnter` and
`forkLeave`.
-/

namespace MinC.Sys

open MinC.Lib

/-- The stack part of a WIN_THREAD_STRUCT. -/
structure WinThreadStruct where
  raddr : Nat
  origin : Nat
  size : Nat
  source : Nat
  offset : Nat
  dest : Nat

section
variable (threadFrame threxit : Nat)

/-- The depth, the memory, and the place of the innermost frame that was copied. Not to
return is to use up the stack. -/
def copyStack (origin : Nat) : Nat → Memory → Nat → Nat → Option (Nat × Memory × Nat)
  | 0, _, _, _ => none
  | fuel + 1, mem, src, dest =>
    if src = 0 then some (0, mem, dest)
    else if src = threadFrame then some (0, mem, dest)
    else do
      let next := loadWord mem src
      let (depth, mem, dest) ← copyStack origin fuel mem next dest
      let size := if next = 0 then subWord origin src else subWord next src
      let dest := subWord dest size
      let mem := copyBytes mem dest src size
      let mem := if depth = 0 then storeWord mem (addWord dest 4) threxit else mem
      let mem := storeWord mem dest (addWord dest size)
      some (depth + 1, mem, dest)

def taskCopy (fuel : Nat) (mem : Memory) (thread : WinThreadStruct) :
    Option (Memory × WinThreadStruct) := do
  let (_, mem, dest) ←
    copyStack threadFrame threxit thread.origin fuel mem thread.source thread.dest
  let source := subWord thread.source thread.offset
  let dest := subWord dest thread.offset
  some (copyBytes mem dest source thread.offset, { thread with source, dest })

end

/-- `_fork_enter`: what the parent's registers say, after the return address is taken off. -/
def forkEnter (raddr stackBase ebp esp : Nat) : WinThreadStruct where
  raddr := raddr
  origin := stackBase
  size := subWord stackBase esp
  source := ebp
  offset := subWord ebp esp
  dest := 0

/-- `_fork_leave` up to the copy: the stack pointer that makes room for the frames. -/
def forkLeave (ebp : Nat) (thread : WinThreadStruct) : WinThreadStruct × Nat :=
  ({ thread with dest := ebp }, subWord ebp thread.size)

/-- `_fork_leave` behind the copy: the stack pointer and the base pointer that the child goes
on with. -/
def restorePointers (thread : WinThreadStruct) : Nat × Nat :=
  (thread.dest, addWord thread.dest thread.offset)

/-! ### Frames -/

section
variable {threadFrame threxit : Nat}

/-- The base pointers of the calls from an address on, the innermost first, and where the
outermost frame ends. A frame has at least a base pointer and a return address. -/
inductive CallStack (threadFrame : Nat) (mem : Memory) (origin : Nat) :
    Nat → List Nat → Nat → Prop
  | process {src : Nat} : src ≠ 0 → src ≠ threadFrame → loadWord mem src = 0 → src + 8 ≤ origin →
      CallStack threadFrame mem origin src [src] origin
  | thread {src : Nat} : src ≠ 0 → src ≠ threadFrame → loadWord mem src = threadFrame →
      src + 8 ≤ threadFrame → CallStack threadFrame mem origin src [src] threadFrame
  | call {src : Nat} {frames : List Nat} {top : Nat} : src ≠ 0 → src ≠ threadFrame →
      src + 8 ≤ loadWord mem src → CallStack threadFrame mem origin (loadWord mem src) frames top →
      CallStack threadFrame mem origin src (src :: frames) top

/-- Where a byte of a stack is in a copy of it that ends at another place. -/
def moved (top dest a : Nat) : Nat := dest - (top - a)

/-- The frame that the frame at an address was called from, or the end of the stack. -/
def caller (mem : Memory) (top src : Nat) : Nat :=
  if loadWord mem src = 0 then top else loadWord mem src

/-- A copy of a stack, from its lowest byte on, that ends at a place: the base pointers point
into the copy, the outermost frame returns to `__threxit`, and the rest is as it was. -/
structure Rebased (threxit top dest low : Nat) (frames : List Nat) (mem mem' : Memory) :
    Prop where
  base : ∀ s ∈ frames, loadWord mem' (moved top dest s) = moved top dest (caller mem top s)
  exit : ∀ s ∈ frames.getLast?, loadWord mem' (moved top dest s + 4) = threxit
  rest : ∀ a, low ≤ a → a < top → (∀ s ∈ frames, a < s ∨ s + 4 ≤ a) →
    (∀ s ∈ frames.getLast?, a < s + 4 ∨ s + 8 ≤ a) → mem' (moved top dest a) = mem a
  outside : ∀ a, a < moved top dest low ∨ dest ≤ a → mem' a = mem a

@[simp] theorem moved_top (top dest : Nat) : moved top dest top = dest := by simp [moved]

section
variable {mem : Memory} {origin src top : Nat} {frames : List Nat}

theorem CallStack.add_eight_le (h : CallStack threadFrame mem origin src frames top) :
    src + 8 ≤ top := by
  induction h with
  | process _ _ _ hroom => exact hroom
  | thread _ _ _ hroom => exact hroom
  | call _ _ hroom _ ih => omega

theorem CallStack.ne_nil (h : CallStack threadFrame mem origin src frames top) :
    frames ≠ [] := by
  cases h <;> exact List.cons_ne_nil _ _

theorem CallStack.ne_zero (h : CallStack threadFrame mem origin src frames top) : src ≠ 0 := by
  cases h <;> assumption

theorem CallStack.mem_frames (h : CallStack threadFrame mem origin src frames top) :
    ∀ s ∈ frames, src ≤ s ∧ s + 8 ≤ top := by
  induction h with
  | process _ _ _ hroom => simpa using hroom
  | thread _ _ _ hroom => simpa using hroom
  | call _ _ hroom h ih =>
      intro s hs
      rcases List.mem_cons.mp hs with rfl | hs
      · exact ⟨Nat.le_refl s, Nat.le_trans hroom (Nat.le_of_add_right_le h.add_eight_le)⟩
      · obtain ⟨hle, htop⟩ := ih s hs
        exact ⟨by omega, htop⟩

/-- The outermost frame ends where the frames end. -/
theorem CallStack.caller_getLast (h : CallStack threadFrame mem origin src frames top) :
    ∀ s ∈ frames.getLast?, caller mem top s = top := by
  induction h with
  | process _ _ hword _ => simp [caller, hword]
  | thread _ _ hword _ => simp [caller, hword]
  | call _ _ _ h ih =>
      intro s hs
      rw [List.getLast?_cons_of_ne_nil h.ne_nil] at hs
      exact ih s hs

end

/-! ### The copy of one frame -/

section
variable {mem : Memory} {origin src top dest : Nat} {frames : List Nat}

theorem frame_rest (mem : Memory) (dest src : Nat) {size i : Nat} (value : Nat) (hi : 4 ≤ i)
    (hsize : i < size) :
    storeWord (copyBytes mem dest src size) dest value (dest + i) = mem (src + i) := by
  rw [storeWord_outside _ value (by omega)]
  exact copyBytes_inside mem dest src hsize

theorem frame_outside (mem : Memory) {dest size a : Nat} (src value : Nat) (hsize : 4 ≤ size)
    (h : a < dest ∨ dest + size ≤ a) :
    storeWord (copyBytes mem dest src size) dest value a = mem a := by
  rw [storeWord_outside _ value (by omega)]
  exact copyBytes_outside mem src h

/-- The copy of the outermost frame alone. -/
theorem Rebased.outermost (hsize : src + 8 ≤ top) (hroom : top - src ≤ dest)
    (hdest : dest < wordSpan) (hexit : threxit < wordSpan) (hcaller : caller mem top src = top) :
    Rebased threxit top dest src [src] mem
      (storeWord (storeWord (copyBytes mem (moved top dest src) src (top - src))
        (moved top dest src + 4) threxit) (moved top dest src) dest) := by
  have hmoved : moved top dest src + (top - src) = dest := by
    simp only [moved]
    omega
  constructor
  case base =>
    intro s hs
    rw [List.mem_singleton.mp hs, hcaller, moved_top]
    exact loadWord_storeWord _ _ hdest
  case exit =>
    intro s hs
    obtain rfl : src = s := by simpa using hs
    rw [loadWord_storeWord_of_disjoint _ _ (Or.inr (Nat.le_refl _))]
    exact loadWord_storeWord _ _ hexit
  case rest =>
    intro a hsrc htop hbase hret
    have hle := hbase src (List.mem_singleton_self src)
    have hexit := hret src (by simp)
    have hplace : moved top dest a = moved top dest src + (a - src) := by
      simp only [moved]
      omega
    rw [hplace, storeWord_outside _ _ (by omega), storeWord_outside _ _ (by omega),
      copyBytes_inside _ _ _ (by omega), Nat.add_sub_of_le hsrc]
  case outside =>
    intro a ha
    rw [storeWord_outside _ _ (by omega), storeWord_outside _ _ (by omega)]
    exact copyBytes_outside mem src (by omega)

/-- The copy of a frame below the copies of its callers. -/
theorem Rebased.call {mem' : Memory}
    (h : CallStack threadFrame mem origin (loadWord mem src) frames top)
    (hsize : src + 8 ≤ loadWord mem src) (hroom : top - src ≤ dest) (hdest : dest < wordSpan)
    (hapart : dest ≤ src ∨ top ≤ moved top dest src)
    (hcopy : Rebased threxit top dest (loadWord mem src) frames mem mem') :
    Rebased threxit top dest src (src :: frames) mem
      (storeWord (copyBytes mem' (moved top dest src) src (loadWord mem src - src))
        (moved top dest src) (moved top dest (loadWord mem src))) := by
  have htop := h.add_eight_le
  have hmoved :
      moved top dest src + (loadWord mem src - src) = moved top dest (loadWord mem src) := by
    simp only [moved]
    omega
  have hle : moved top dest (loadWord mem src) ≤ dest := Nat.sub_le _ _
  have habove : ∀ s, loadWord mem src ≤ s →
      moved top dest (loadWord mem src) ≤ moved top dest s := by
    intro s hs
    simp only [moved]
    omega
  -- what was copied before is above the new frame
  have hkept : ∀ a, moved top dest (loadWord mem src) ≤ a →
      storeWord (copyBytes mem' (moved top dest src) src (loadWord mem src - src))
        (moved top dest src) (moved top dest (loadWord mem src)) a = mem' a := by
    intro a ha
    exact frame_outside mem' src _ (by omega) (by omega)
  have hword : ∀ a, moved top dest (loadWord mem src) ≤ a →
      loadWord (storeWord (copyBytes mem' (moved top dest src) src (loadWord mem src - src))
        (moved top dest src) (moved top dest (loadWord mem src))) a = loadWord mem' a := by
    intro a ha
    apply loadWord_congr
    intro i _
    exact hkept (a + i) (by omega)
  constructor
  case base =>
    intro s hs
    rcases List.mem_cons.mp hs with rfl | hs
    · rw [caller, if_neg h.ne_zero]
      exact loadWord_storeWord _ _ (by omega)
    · rw [hword _ (habove s (h.mem_frames s hs).1)]
      exact hcopy.base s hs
  case exit =>
    intro s hs
    rw [List.getLast?_cons_of_ne_nil h.ne_nil] at hs
    have hs' : s ∈ frames := List.mem_of_getLast? hs
    rw [hword _ (Nat.le_add_right_of_le (habove s (h.mem_frames s hs').1))]
    exact hcopy.exit s hs
  case rest =>
    intro a hsrc ha hbase hret
    rw [List.getLast?_cons_of_ne_nil h.ne_nil] at hret
    by_cases hnext : a < loadWord mem src
    · have hplace : moved top dest a = moved top dest src + (a - src) := by
        simp only [moved]
        omega
      have hle := hbase src List.mem_cons_self
      rw [hplace, frame_rest _ _ _ _ (by omega) (by omega), Nat.add_sub_of_le hsrc]
      exact hcopy.outside a (by omega)
    · rw [hkept _ (habove a (by omega))]
      exact hcopy.rest a (by omega) ha (fun s hs => hbase s (List.mem_cons_of_mem src hs)) hret
  case outside =>
    intro a ha
    rw [frame_outside mem' src _ (by omega) (by omega)]
    exact hcopy.outside a (by omega)

end

/-! ### The copy of all frames -/

section
variable {mem : Memory} {origin src top dest : Nat} {frames : List Nat}

theorem copyStack_stop {fuel : Nat} {mem : Memory} {src : Nat} (dest : Nat)
    (h : src = 0 ∨ src = threadFrame) :
    copyStack threadFrame threxit origin (fuel + 1) mem src dest = some (0, mem, dest) := by
  rw [copyStack]
  rcases h with rfl | rfl <;> simp

/-- One turn, after the frames above it were copied. -/
theorem copyStack_turn {fuel depth : Nat} {mem' : Memory} (hzero : src ≠ 0)
    (hframe : src ≠ threadFrame) (htop : src + 8 ≤ caller mem top src)
    (hle : caller mem top src ≤ top) (hspan : top < wordSpan)
    (horigin : loadWord mem src = 0 → top = origin)
    (hroom : top - src ≤ dest) (hdest : dest < wordSpan)
    (hrest : copyStack threadFrame threxit origin fuel mem (loadWord mem src) dest =
      some (depth, mem', moved top dest (caller mem top src))) :
    copyStack threadFrame threxit origin (fuel + 1) mem src dest =
      some (depth + 1,
        storeWord (if depth = 0 then
            storeWord (copyBytes mem' (moved top dest src) src (caller mem top src - src))
              (moved top dest src + 4) threxit
          else copyBytes mem' (moved top dest src) src (caller mem top src - src))
          (moved top dest src) (moved top dest (caller mem top src)),
        moved top dest src) := by
  have hsize : (if loadWord mem src = 0 then subWord origin src
      else subWord (loadWord mem src) src) = caller mem top src - src := by
    simp only [caller] at htop hle ⊢
    split_ifs at htop hle ⊢ with hword
    · rw [← horigin hword]
      exact subWord_of_le (by omega) hspan
    · exact subWord_of_le (by omega) (by omega)
  have hmoved : moved top dest src + (caller mem top src - src) =
      moved top dest (caller mem top src) := by
    simp only [moved]
    omega
  have hbound : moved top dest (caller mem top src) ≤ dest := Nat.sub_le _ _
  have hdown : subWord (moved top dest (caller mem top src)) (caller mem top src - src) =
      moved top dest src := by
    rw [subWord_of_le (by omega) (by omega)]
    omega
  have hup : addWord (moved top dest src) (caller mem top src - src) =
      moved top dest (caller mem top src) := by
    rw [addWord_of_lt (by omega), hmoved]
  have hret : addWord (moved top dest src) 4 = moved top dest src + 4 :=
    addWord_of_lt (by omega)
  rw [copyStack, if_neg hzero, if_neg hframe]
  simp only [hrest, Option.bind_eq_bind, Option.bind_some, hsize, hdown, hup, hret]

/-- The frames are copied one below the other, and the last place is that of the innermost
one. -/
theorem copyStack_eq (h : CallStack threadFrame mem origin src frames top) {fuel : Nat}
    (hfuel : frames.length < fuel) (hspan : top < wordSpan) (hroom : top - src ≤ dest)
    (hdest : dest < wordSpan) (hexit : threxit < wordSpan)
    (hapart : dest ≤ src ∨ top ≤ moved top dest src) :
    ∃ mem', copyStack threadFrame threxit origin fuel mem src dest =
        some (frames.length, mem', moved top dest src) ∧
      Rebased threxit top dest src frames mem mem' := by
  induction h generalizing fuel with
  | @process src hzero hframe hword hsize =>
      obtain ⟨fuel, rfl⟩ : ∃ n, fuel = n + 2 := ⟨fuel - 2, by
        have hone : 1 < fuel := by simpa using hfuel
        omega⟩
      have hcaller : caller mem origin src = origin := by simp [caller, hword]
      refine ⟨_, ?_, .outermost hsize hroom hdest hexit hcaller⟩
      have hstop : copyStack threadFrame threxit origin (fuel + 1) mem (loadWord mem src) dest =
          some (0, mem, dest) := copyStack_stop dest (Or.inl hword)
      have hturn := copyStack_turn hzero hframe (by rw [hcaller]; exact hsize)
        (Nat.le_of_eq hcaller) hspan (fun _ => rfl) hroom hdest
        (hstop.trans (by rw [hcaller, moved_top]))
      rw [if_pos rfl, hcaller, moved_top] at hturn
      exact hturn
  | @thread src hzero hframe hword hsize =>
      obtain ⟨fuel, rfl⟩ : ∃ n, fuel = n + 2 := ⟨fuel - 2, by
        have hone : 1 < fuel := by simpa using hfuel
        omega⟩
      have hcaller : caller mem threadFrame src = threadFrame := by simp [caller, hword]
      refine ⟨_, ?_, .outermost hsize hroom hdest hexit hcaller⟩
      have hstop : copyStack threadFrame threxit origin (fuel + 1) mem (loadWord mem src) dest =
          some (0, mem, dest) := copyStack_stop dest (Or.inr hword)
      have hturn := copyStack_turn hzero hframe (by rw [hcaller]; exact hsize)
        (Nat.le_of_eq hcaller) hspan (fun h => by omega) hroom hdest
        (hstop.trans (by rw [hcaller, moved_top]))
      rw [if_pos rfl, hcaller, moved_top] at hturn
      exact hturn
  | @call src frames top hzero hframe hsize h ih =>
      obtain ⟨fuel, rfl⟩ : ∃ n, fuel = n + 1 := ⟨fuel - 1, by omega⟩
      have htop := h.add_eight_le
      have hcaller : caller mem top src = loadWord mem src := if_neg h.ne_zero
      obtain ⟨mem', hrest, hcopy⟩ := ih (by simpa using hfuel) hspan (by omega)
        (by simp only [moved] at hapart ⊢; omega)
      refine ⟨_, ?_, hcopy.call h hsize hroom hdest hapart⟩
      have hturn := copyStack_turn hzero hframe (by rw [hcaller]; exact hsize)
        (by rw [hcaller]; omega) hspan (fun hword => absurd hword h.ne_zero) hroom hdest
        (hrest.trans (by rw [hcaller]))
      have hdepth : frames.length ≠ 0 := fun hlen => h.ne_nil (List.length_eq_zero_iff.mp hlen)
      rw [if_neg hdepth, hcaller] at hturn
      exact hturn

/-- The part of a frame below its base pointer is copied with it. -/
theorem Rebased.current {mem' : Memory} {esp : Nat}
    (h : CallStack threadFrame mem origin src frames top) (hesp : esp ≤ src)
    (hroom : top - esp ≤ dest) (hapart : dest ≤ esp ∨ top ≤ moved top dest esp)
    (hcopy : Rebased threxit top dest src frames mem mem') :
    Rebased threxit top dest esp frames mem
      (copyBytes mem' (moved top dest esp) esp (src - esp)) := by
  have htop := h.add_eight_le
  have hend : moved top dest esp + (src - esp) = moved top dest src := by
    simp only [moved]
    omega
  have hle : moved top dest src ≤ dest := Nat.sub_le _ _
  have habove : ∀ s, src ≤ s → moved top dest src ≤ moved top dest s := by
    intro s hs
    simp only [moved]
    omega
  have hkept : ∀ a, moved top dest src ≤ a →
      copyBytes mem' (moved top dest esp) esp (src - esp) a = mem' a := by
    intro a ha
    exact copyBytes_outside mem' esp (by omega)
  have hword : ∀ a, moved top dest src ≤ a →
      loadWord (copyBytes mem' (moved top dest esp) esp (src - esp)) a = loadWord mem' a := by
    intro a ha
    apply loadWord_congr
    intro i _
    exact hkept (a + i) (by omega)
  constructor
  case base =>
    intro s hs
    rw [hword _ (habove s (h.mem_frames s hs).1)]
    exact hcopy.base s hs
  case exit =>
    intro s hs
    have hs' := h.mem_frames s (List.mem_of_getLast? hs)
    rw [hword _ (Nat.le_add_right_of_le (habove s hs'.1))]
    exact hcopy.exit s hs
  case rest =>
    intro a hlow ha hbase hret
    by_cases hsrc : a < src
    · have hplace : moved top dest a = moved top dest esp + (a - esp) := by
        simp only [moved]
        omega
      rw [hplace, copyBytes_inside mem' _ _ (by omega), Nat.add_sub_of_le hlow]
      exact hcopy.outside a (by omega)
    · rw [hkept _ (habove a (by omega))]
      exact hcopy.rest a (by omega) ha hbase hret
  case outside =>
    intro a ha
    rw [copyBytes_outside mem' esp (by omega)]
    exact hcopy.outside a (by omega)

end

/-! ### The registers of the child -/

section
variable {mem : Memory} {raddr stackBase ebp esp childEbp top fuel : Nat} {frames : List Nat}

/-- The child goes on with a copy of the parent's stack, in the room that was made for it. -/
theorem task_copy_rebased (h : CallStack threadFrame mem stackBase ebp frames top)
    (hesp : esp ≤ ebp) (htop : top ≤ stackBase) (hbase : stackBase < wordSpan)
    (hchild : childEbp < wordSpan) (hroom : stackBase - esp ≤ childEbp)
    (hapart : childEbp ≤ esp ∨ stackBase ≤ childEbp - (stackBase - esp))
    (hexit : threxit < wordSpan) (hfuel : frames.length < fuel) :
    ∃ mem' thread, taskCopy threadFrame threxit fuel mem
          (forkLeave childEbp (forkEnter raddr stackBase ebp esp)).1 = some (mem', thread) ∧
      Rebased threxit top childEbp esp frames mem mem' ∧
      restorePointers thread = (moved top childEbp esp, moved top childEbp ebp) ∧
      (forkLeave childEbp (forkEnter raddr stackBase ebp esp)).2 ≤ moved top childEbp esp := by
  have height := h.add_eight_le
  have hoffset : subWord ebp esp = ebp - esp := subWord_of_le hesp (by omega)
  have hsize : subWord stackBase esp = stackBase - esp := subWord_of_le (by omega) hbase
  have hend : moved top childEbp esp + (ebp - esp) = moved top childEbp ebp := by
    simp only [moved]
    omega
  have hle : moved top childEbp ebp ≤ childEbp := Nat.sub_le _ _
  have hplace : childEbp ≤ ebp ∨ top ≤ moved top childEbp ebp := by
    simp only [moved]
    omega
  obtain ⟨mem', hcopy, hrebased⟩ := copyStack_eq h hfuel (by omega) (by omega) hchild hexit hplace
  have hsource : subWord ebp (ebp - esp) = esp := by
    rw [subWord_of_le (Nat.sub_le _ _) (by omega)]
    omega
  have hdest : subWord (moved top childEbp ebp) (ebp - esp) = moved top childEbp esp := by
    rw [subWord_of_le (by omega) (by omega)]
    omega
  let thread : WinThreadStruct :=
    { raddr, origin := stackBase, size := stackBase - esp, source := esp, offset := ebp - esp,
      dest := moved top childEbp esp }
  refine ⟨copyBytes mem' (moved top childEbp esp) esp (ebp - esp), thread, ?_,
    hrebased.current h hesp (by omega) (by simp only [moved]; omega), ?_, ?_⟩
  · simp only [taskCopy, forkLeave, forkEnter, hoffset, hsize, hcopy, Option.bind_eq_bind,
      Option.bind_some, hsource, hdest]
    rfl
  · have hsum : addWord (moved top childEbp esp) (ebp - esp) = moved top childEbp ebp := by
      rw [addWord_of_lt (by omega), hend]
    simp only [restorePointers, thread, hsum]
  · simp only [forkLeave, forkEnter, hsize, moved]
    rw [subWord_of_le hroom hchild]
    omega

end

/-! ### The calls to return to -/

/-- The return addresses from a frame on, up to a base pointer that ends the stack. -/
def backtrace (mem : Memory) (ends : Nat → Bool) : Nat → Nat → Option (List Nat)
  | 0, _ => none
  | fuel + 1, base =>
    if ends base then some []
    else (backtrace mem ends fuel (loadWord mem base)).map (loadWord mem (base + 4) :: ·)

/-- Whether the frames of a thread end at a base pointer. -/
def endsThread (threadFrame base : Nat) : Bool := base = 0 || base = threadFrame

/-- Whether the frames that were copied to a place end at a base pointer. -/
def endsCopy (dest base : Nat) : Bool := base = dest

section
variable {mem mem' : Memory} {origin src top dest low : Nat} {frames : List Nat}

theorem backtrace_ends {ends : Nat → Bool} {base : Nat} (fuel : Nat) (h : ends base = true) :
    backtrace mem ends (fuel + 1) base = some [] := by simp [backtrace, h]

theorem backtrace_frame {ends : Nat → Bool} {base : Nat} (fuel : Nat) (h : ends base = false) :
    backtrace mem ends (fuel + 1) base =
      (backtrace mem ends fuel (loadWord mem base)).map (loadWord mem (base + 4) :: ·) := by
  simp [backtrace, h]

theorem CallStack.backtrace_eq (h : CallStack threadFrame mem origin src frames top) {fuel : Nat}
    (hfuel : frames.length < fuel) :
    backtrace mem (endsThread threadFrame) fuel src =
      some (frames.map fun s => loadWord mem (s + 4)) := by
  induction h generalizing fuel with
  | @process src hzero hframe hword hsize =>
      obtain ⟨fuel, rfl⟩ : ∃ n, fuel = n + 2 := ⟨fuel - 2, by
        have hone : 1 < fuel := by simpa using hfuel
        omega⟩
      rw [backtrace_frame _ (by simp [endsThread, hzero, hframe]),
        backtrace_ends _ (by simp [endsThread, hword])]
      rfl
  | @thread src hzero hframe hword hsize =>
      obtain ⟨fuel, rfl⟩ : ∃ n, fuel = n + 2 := ⟨fuel - 2, by
        have hone : 1 < fuel := by simpa using hfuel
        omega⟩
      rw [backtrace_frame _ (by simp [endsThread, hzero, hframe]),
        backtrace_ends _ (by simp [endsThread, hword])]
      rfl
  | @call src frames top hzero hframe hsize h ih =>
      obtain ⟨fuel, rfl⟩ : ∃ n, fuel = n + 1 := ⟨fuel - 1, by omega⟩
      rw [backtrace_frame _ (by simp [endsThread, hzero, hframe]), ih (by simpa using hfuel)]
      rfl

/-- Frames do not overlap. -/
theorem CallStack.apart (h : CallStack threadFrame mem origin src frames top) :
    ∀ s ∈ frames, ∀ r ∈ frames, r ≤ s ∨ s + 8 ≤ r := by
  induction h with
  | process => simp
  | thread => simp
  | @call src frames top hzero hframe hsize h ih =>
      intro s hs r hr
      rcases List.mem_cons.mp hr with rfl | hr'
      · rcases List.mem_cons.mp hs with rfl | hs'
        · exact Or.inl (Nat.le_refl s)
        · exact Or.inl (Nat.le_trans (Nat.le_of_add_right_le hsize) (h.mem_frames s hs').1)
      · rcases List.mem_cons.mp hs with rfl | hs'
        · exact Or.inr (Nat.le_trans hsize (h.mem_frames r hr').1)
        · exact ih s hs' r hr'

theorem CallStack.le_getLast (h : CallStack threadFrame mem origin src frames top) :
    ∀ r ∈ frames.getLast?, ∀ s ∈ frames, s ≤ r := by
  induction h with
  | process => simp
  | thread => simp
  | @call src frames top hzero hframe hsize h ih =>
      intro r hr s hs
      rw [List.getLast?_cons_of_ne_nil h.ne_nil] at hr
      rcases List.mem_cons.mp hs with rfl | hs
      · exact Nat.le_trans (Nat.le_of_add_right_le hsize)
          (h.mem_frames r (List.mem_of_getLast? hr)).1
      · exact ih r hr s hs

/-- The copy of a frame returns where the frame does, but for the outermost one. -/
theorem Rebased.return_eq (h : CallStack threadFrame mem origin src frames top) (hlow : low ≤ src)
    (hroom : top - low ≤ dest) (hcopy : Rebased threxit top dest low frames mem mem')
    {s : Nat} (hs : s ∈ frames) :
    loadWord mem' (moved top dest s + 4) =
      if frames.getLast? = some s then threxit else loadWord mem (s + 4) := by
  obtain ⟨hle, htop⟩ := h.mem_frames s hs
  split_ifs with hlast
  · exact hcopy.exit s hlast
  · apply loadWord_congr
    intro i hi
    have hplace : moved top dest s + 4 + i = moved top dest (s + 4 + i) := by
      simp only [moved]
      omega
    rw [hplace]
    refine hcopy.rest _ (by omega) (by omega) (fun r hr => ?_) (fun r hr => ?_)
    · have hapart := h.apart s hs r hr
      omega
    · have hapart := h.apart s hs r (List.mem_of_getLast? hr)
      have hbelow := h.le_getLast r hr s hs
      have hne : r ≠ s := by
        rintro rfl
        exact hlast hr
      omega

/-- Frames that were made to point into a copy are walked there as before. -/
theorem CallStack.backtrace_moved (h : CallStack threadFrame mem origin src frames top)
    (hroom : top - src ≤ dest) {fuel : Nat} (hfuel : frames.length < fuel)
    (hbase : ∀ s ∈ frames, loadWord mem' (moved top dest s) = moved top dest (caller mem top s))
    (hret : ∀ s ∈ frames, loadWord mem' (moved top dest s + 4) =
      if frames.getLast? = some s then threxit else loadWord mem (s + 4)) :
    backtrace mem' (endsCopy dest) fuel (moved top dest src) =
      some ((frames.map fun s => loadWord mem (s + 4)).dropLast ++ [threxit]) := by
  have hbelow : src + 8 ≤ top := h.add_eight_le
  have hne : endsCopy dest (moved top dest src) = false :=
    decide_eq_false (by simp only [moved]; omega)
  have hlast := h.caller_getLast
  induction h generalizing fuel with
  | @process src hzero hframe hword hsize =>
      obtain ⟨fuel, rfl⟩ : ∃ n, fuel = n + 2 := ⟨fuel - 2, by
        have hone : 1 < fuel := by simpa using hfuel
        omega⟩
      rw [backtrace_frame _ hne, hbase src (by simp), hlast src (by simp), moved_top,
        backtrace_ends _ (by simp [endsCopy]), hret src (by simp)]
      simp
  | @thread src hzero hframe hword hsize =>
      obtain ⟨fuel, rfl⟩ : ∃ n, fuel = n + 2 := ⟨fuel - 2, by
        have hone : 1 < fuel := by simpa using hfuel
        omega⟩
      rw [backtrace_frame _ hne, hbase src (by simp), hlast src (by simp), moved_top,
        backtrace_ends _ (by simp [endsCopy]), hret src (by simp)]
      simp
  | @call src frames top hzero hframe hsize h ih =>
      obtain ⟨fuel, rfl⟩ : ∃ n, fuel = n + 1 := ⟨fuel - 1, by omega⟩
      have hcons := List.getLast?_cons_of_ne_nil (x := src) h.ne_nil
      have hsrc : frames.getLast? ≠ some src := by
        intro heq
        have hle := (h.mem_frames src (List.mem_of_getLast? heq)).1
        omega
      have htail := h.add_eight_le
      have hrest := ih (by omega) (by simpa using hfuel)
        (fun s hs => hbase s (List.mem_cons_of_mem src hs))
        (fun s hs => by rw [hret s (List.mem_cons_of_mem src hs), hcons])
        htail (decide_eq_false (by simp only [moved]; omega)) h.caller_getLast
      rw [backtrace_frame _ hne, hbase src List.mem_cons_self, caller, if_neg h.ne_zero, hrest,
        hret src List.mem_cons_self, hcons, if_neg hsrc, List.map_cons,
        List.dropLast_cons_of_ne_nil (by simpa using h.ne_nil)]
      rfl

/-- A stack that was not written is walked as before. -/
theorem CallStack.of_eq (h : CallStack threadFrame mem origin src frames top)
    (hsame : ∀ a, src ≤ a → a < top → mem' a = mem a) :
    CallStack threadFrame mem' origin src frames top := by
  have hbelow := h.add_eight_le
  have hword : loadWord mem' src = loadWord mem src :=
    loadWord_congr fun i _ => hsame (src + i) (by omega) (by omega)
  induction h with
  | process hzero hframe hsrc hsize => exact .process hzero hframe (hword.trans hsrc) hsize
  | thread hzero hframe hsrc hsize => exact .thread hzero hframe (hword.trans hsrc) hsize
  | @call src frames top hzero hframe hsize h ih =>
      have htail := h.add_eight_le
      have hrest := ih (fun a hle ha => hsame a (by omega) ha) htail
        (loadWord_congr fun i _ => hsame (loadWord mem src + i) (by omega) (by omega))
      rw [← hword] at hrest hsize
      exact .call hzero hframe hsize hrest

end

/-! ### A fork -/

section
variable {mem : Memory} {raddr stackBase ebp esp childEbp top fuel : Nat} {frames : List Nat}

/-- The child has a copy of the parent's stack in the room that was made for it, and nothing
else was written. It goes back through the calls of its parent, but for the outermost one,
which ends it; the parent goes back as before. -/
theorem fork_stack (h : CallStack threadFrame mem stackBase ebp frames top)
    (hesp : esp ≤ ebp) (htop : top ≤ stackBase) (hbase : stackBase < wordSpan)
    (hchild : childEbp < wordSpan) (hroom : stackBase - esp ≤ childEbp)
    (hapart : childEbp ≤ esp ∨ stackBase ≤ childEbp - (stackBase - esp))
    (hexit : threxit < wordSpan) (hfuel : frames.length < fuel) :
    ∃ mem' thread calls, taskCopy threadFrame threxit fuel mem
          (forkLeave childEbp (forkEnter raddr stackBase ebp esp)).1 = some (mem', thread) ∧
      Rebased threxit top childEbp esp frames mem mem' ∧
      (forkLeave childEbp (forkEnter raddr stackBase ebp esp)).2 ≤ moved top childEbp esp ∧
      (restorePointers thread).1 = moved top childEbp esp ∧
      backtrace mem (endsThread threadFrame) fuel ebp = some calls ∧
      backtrace mem' (endsThread threadFrame) fuel ebp = some calls ∧
      backtrace mem' (endsCopy childEbp) fuel (restorePointers thread).2 =
        some (calls.dropLast ++ [threxit]) := by
  have hbelow := h.add_eight_le
  have hmoved : top ≤ moved top childEbp esp ∨ childEbp ≤ esp := by
    simp only [moved]
    omega
  obtain ⟨mem', thread, hcopy, hrebased, hpointers, hinside⟩ :=
    task_copy_rebased h hesp htop hbase hchild hroom hapart hexit hfuel
  have hsame : ∀ a, esp ≤ a → a < top → mem' a = mem a :=
    fun a hle ha => hrebased.outside a (by omega)
  have hparent := (h.of_eq fun a hle ha => hsame a (by omega) ha).backtrace_eq hfuel
  have hcalls : (frames.map fun s => loadWord mem' (s + 4)) =
      frames.map fun s => loadWord mem (s + 4) := by
    refine List.map_congr_left fun s hs => loadWord_congr fun i _ => ?_
    have hs' := h.mem_frames s hs
    exact hsame _ (by omega) (by omega)
  refine ⟨mem', thread, _, hcopy, hrebased, hinside, by rw [hpointers], h.backtrace_eq hfuel,
    hparent.trans (congrArg some hcalls), ?_⟩
  rw [hpointers]
  exact h.backtrace_moved (by omega) hfuel hrebased.base
    fun s hs => hrebased.return_eq h hesp (by omega) hs

/-- Two calls below the frame of the process. -/
theorem fork_stack_two : ∃ mem' thread calls, taskCopy 0 7 3
      (storeWord (storeWord (fun _ => 0) 1008 1024) 1012 5)
      (forkLeave 3000 (forkEnter 9 1040 1008 1000)).1 = some (mem', thread) ∧
    Rebased 7 1040 3000 1000 [1008, 1024]
      (storeWord (storeWord (fun _ => 0) 1008 1024) 1012 5) mem' ∧
    (forkLeave 3000 (forkEnter 9 1040 1008 1000)).2 ≤ moved 1040 3000 1000 ∧
    (restorePointers thread).1 = moved 1040 3000 1000 ∧
    backtrace (storeWord (storeWord (fun _ => 0) 1008 1024) 1012 5) (endsThread 0) 3 1008 =
      some calls ∧
    backtrace mem' (endsThread 0) 3 1008 = some calls ∧
    backtrace mem' (endsCopy 3000) 3 (restorePointers thread).2 =
      some (calls.dropLast ++ [7]) := by
  have hnext : loadWord (storeWord (storeWord (fun _ => 0) 1008 1024) 1012 5) 1008 = 1024 := by
    decide
  have hlast : loadWord (storeWord (storeWord (fun _ => 0) 1008 1024) 1012 5) 1024 = 0 := by decide
  have houter : CallStack 0 (storeWord (storeWord (fun _ => 0) 1008 1024) 1012 5) 1040 1024 [1024]
      1040 := .process (by decide) (by decide) hlast (by decide)
  rw [← hnext] at houter
  exact fork_stack (CallStack.call (by decide) (by decide) (by rw [hnext]; decide) houter)
    (by decide) (by decide) (by decide) (by decide) (by decide) (by decide) (by decide) (by decide)

end

end

end MinC.Sys
