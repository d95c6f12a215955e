import MinC.Vfs.Bounds
import MinC.Vfs.LinkTargets

/-!
Lengths that a lookup has room for.

A lookup that nothing leads away writes one name, behind which it may probe for
an extension, so that the lengths of the place it starts from and of its source
say whether it has room. Links, pipes and drives put other texts in. If these are
of bounded length, each component adds at most one of them.
-/

namespace MinC.Vfs

open MinC.Lib MinC.Win

/-! ### Lookups that nothing leads away -/

section
variable (fs : WinFs) (flags : UInt32) (name s : List UInt16)

variable {fs flags name s}

end

/-! ### Texts that are put in -/

/-- What a shell link says fits the buffer of its reader. -/
def ShellFits : ShellTarget → Prop
  | .localBase path => (wide path).length + 1 ≤ maxPath
  | .network device suffix => (wide suffix).length + 4 ≤ maxPath ∧
      (wide device).length + 1 + (wide suffix).length + 1 ≤ maxPath
  | _ => True

/-- The texts of all links and pipes have some length at most. -/
structure TextsFit (fs : WinFs) (n : Nat) : Prop where
  room : n + 1 ≤ maxPath
  node : ∀ leaf name iNode handle, fs.stat leaf name = some (iNode, handle) →
    iNode.fsType ≠ .pdo → (fs.read handle iNode.nameSize).length ≤ n
  shell : ∀ name link, fs.shortcut name = some link → ShellFits link.target

section
variable {fs : WinFs} {flags : UInt32} {n : Nat}

theorem linkRead_fits {stale : List UInt16} {target : ShellTarget} {buffer : LinkBuffer}
    (h : ShellFits target) (hread : linkRead stale target = some buffer) :
    buffer.text.length + 1 ≤ maxPath ∧ buffer.outside = false := by
  cases target with
  | idList path fits =>
      have hbuffer : (⟨path, false⟩ : LinkBuffer) = buffer := Option.some.inj hread
      rw [← hbuffer]
      exact ⟨fits, rfl⟩
  | badIdList => cases hread
  | localBase path =>
      have hlength : (wide path).length + 1 ≤ maxPath := h
      have hfits : ((wide path).length : Int) + 1 ≤ (maxPath : Int) := by omega
      have hconv : winMbstowcs path maxPath = some (wide path) := if_pos hfits
      have hbuffer : (⟨(winMbstowcs path maxPath).getD stale, false⟩ : LinkBuffer) = buffer :=
        Option.some.inj hread
      rw [← hbuffer, hconv]
      exact ⟨hlength, rfl⟩
  | network device suffix =>
      obtain ⟨hsuffix, hboth⟩ := h
      have hdevice : ((wide device).length : Int) + 1 ≤ (maxPath : Int) := by omega
      have hrest : ((wide suffix).length : Int) + 1 ≤ ((maxPath - 3 : Nat) : Int) := by
        unfold maxPath at hsuffix ⊢
        omega
      have hfirst : winMbstowcs device maxPath = some (wide device) := if_pos hdevice
      have hsecond : winMbstowcs suffix (maxPath - 3 : Nat) = some (wide suffix) := if_pos hrest
      unfold linkRead at hread
      dsimp only at hread
      rw [hfirst] at hread
      dsimp only at hread
      rw [hsecond] at hread
      rw [← Option.some.inj hread]
      refine ⟨?_, decide_eq_false (by omega)⟩
      rw [List.length_append, List.length_cons]
      omega
  | neither => cases hread

theorem TextsFit.shortcut (h : TextsFit fs n) (name : List UInt16) : ShortcutFits fs name := by
  intro attribs buffer hread
  obtain ⟨link, hlink, hrest⟩ := Option.bind_eq_some_iff.mp hread
  obtain ⟨found, hfound, hsame⟩ := Option.map_eq_some_iff.mp hrest
  obtain ⟨-, rfl⟩ := Prod.mk.inj hsame
  obtain ⟨hlength, houtside⟩ := linkRead_fits (h.shell name link hlink) hfound
  refine ⟨?_, houtside⟩
  have htext := length_text_le found.text
  have hmax : maxPath ≤ winPathMax := by decide
  unfold RoomFor
  omega

theorem length_winDrivename_le (tail : List UInt16) :
    (winDrivename tail).length ≤ tail.length + 5 := by
  have hle : ∀ w : List UInt16, (w.takeWhile (· ≠ 58)).length ≤ w.length := fun w =>
    (List.takeWhile_prefix _).length_le
  rw [winDrivename, List.length_append, List.length_singleton]
  split_ifs
  · exact Nat.le_trans (Nat.add_le_add_right (hle _) 1) (by simp)
  · have := hle tail
    omega

/-- Where a component leads to: at most a text behind the component. -/
theorem TextsFit.follow_le (h : TextsFit fs n) (hn : 5 ≤ n) {p q : Place} {k : List UInt16}
    {attribs : UInt32} (hfollow : follow fs (p.enter k) (p.r + 1) k = some (q, attribs)) :
    q.r ≤ p.r + 1 + k.length + n := by
  have hentered : (p.enter k).r = p.r + (k.length + 1) := by
    rw [Place.enter, Place.copy, List.length_cons]
  rw [follow] at hfollow
  split_ifs at hfollow with hmissing hnode hmount
  · have hq := congrArg (fun found => found.1.r) (Option.some.inj hfollow)
    unfold followNode at hq
    cases hfs : fs.node (p.enter k).name with
    | none =>
        rw [hfs] at hq
        simp only at hq
        omega
    | some found =>
        obtain ⟨⟨iNode, handle⟩, hstat, rfl⟩ := Option.map_eq_some_iff.mp hfs
        have htext := h.node _ _ _ _ hstat
        rw [hfs] at hq
        rcases iNode.known with hknown | hknown | hknown
        · have hlength := htext (by simp [hknown])
          simp only [hknown] at hq
          rw [linkPlace, Place.copy] at hq
          split_ifs at hq <;> (simp only at hq; omega)
        · simp only [hknown] at hq
          omega
        · simp only [hknown] at hq
          omega
  · have hq := congrArg Place.r (Prod.mk.inj (Option.some.inj hfollow)).1
    have hdrive := length_winDrivename_le k
    rw [Place.copy] at hq
    simp only at hq
    omega
  · have hq := congrArg Place.r (Prod.mk.inj (Option.some.inj hfollow)).1
    omega

theorem TextsFit.glob (h : TextsFit fs n) (p : Place) {base : Nat} {tail : List UInt16}
    (hbase : base + n + 1 ≤ winPathMax) (htail : tail.length + 6 ≤ winPathMax) :
    GlobFits fs flags p base tail := by
  intro _
  refine ⟨fun _ => ?_, fun _ _ => ?_⟩
  · unfold NodeFits
    cases hstat : fs.stat (flagSet flags winLockleaf) p.name with
    | none => trivial
    | some found =>
        obtain ⟨iNode, handle⟩ := found
        have htext := h.node _ _ _ _ hstat
        have hroom := h.room
        rcases iNode.known with hknown | hknown | hknown
        · have hlength := htext (by simp [hknown])
          simp only [hknown]
          refine fun _ _ => ⟨?_, by omega⟩
          unfold RoomFor
          split_ifs <;> omega
        · have hlength := htext (by simp [hknown])
          simp only [hknown]
          intro _ _
          unfold RoomFor
          omega
        · simp only [hknown]
  · have hdrive := length_winDrivename_le tail
    unfold RoomFor
    omega

theorem TextsFit.close (h : TextsFit fs n) {p : Place} {base : Nat} {tail : List UInt16}
    (hbase : base + n + 1 ≤ winPathMax) (htail : tail.length + 6 ≤ winPathMax)
    (hr : p.r + 5 ≤ winPathMax) : CloseFits fs flags p base tail :=
  ⟨h.glob p hbase htail, fun _ => ⟨hr, fun _ _ _ => h.shortcut _⟩⟩

/-- Each component adds itself, with its separator, and at most one text. -/
theorem TextsFit.walk (h : TextsFit fs n) (hn : 5 ≤ n) (fuel : Nat) {p : Place} {s : List UInt16}
    (hs : p.r + 1 + s.length + (s.count 47 + 1) * n + 5 ≤ winPathMax) :
    WalkFits fs flags fuel p s := by
  induction fuel generalizing p s with
  | zero => trivial
  | succ fuel ih =>
      have hsucc : (s.count 47 + 1) * n = s.count 47 * n + n := Nat.succ_mul _ _
      have hle : (firstComponent s).length ≤ s.length := by
        rw [firstComponent, List.length_map]
        exact (List.takeWhile_prefix _).length_le
      have hentered : (p.enter (firstComponent s)).r = p.r + ((firstComponent s).length + 1) := by
        rw [Place.enter, Place.copy, List.length_cons]
      refine ⟨by omega, fun _ => ?_, fun hlast => ⟨?_, ?_⟩⟩
      · exact h.close (by omega) (by omega) (by omega)
      · exact h.glob _ (by omega) (by omega)
      · have hmem : 47 ∈ s := by
          by_contra hmem
          exact hlast (.inl hmem)
        have hlength := length_split_source hmem
        have hfirst : (firstComponent s).length = (s.takeWhile (· ≠ 47)).length := by
          rw [firstComponent, List.length_map]
        have hcount := congrArg (List.count 47) (split_source hmem)
        rw [List.count_append, List.count_eq_zero_of_not_mem (not_mem_takeWhile s),
          List.count_cons_self, Nat.zero_add] at hcount
        cases hfollow : follow fs (p.enter (firstComponent s)) (p.r + 1) (firstComponent s) with
        | none =>
            change p.r + (92 :: firstComponent s).length +
              (92 :: windowsName (afterComponent s)).length + 1 ≤ winPathMax
            rw [List.length_cons, List.length_cons, windowsName, List.length_map]
            omega
        | some found =>
            obtain ⟨q, attribs⟩ := found
            have hq := h.follow_le hn hfollow
            refine ih ?_
            rw [hcount] at hsucc
            have hmore : (List.count 47 (afterComponent s) + 1 + 1) * n =
                (List.count 47 (afterComponent s) + 1) * n + n := Nat.succ_mul _ _
            rw [hcount, hmore] at hs
            omega

/-- A lookup has room for what it writes if its components have it with the longest text
behind each. -/
theorem TextsFit.lookup (h : TextsFit fs n) (hn : 5 ≤ n) {p : Place} {s : List UInt16}
    (hs : p.r + 1 + s.length + (s.count 47 + 1) * n + 5 ≤ winPathMax) :
    LookupFits fs flags p s := by
  unfold LookupFits
  split_ifs
  · have hsucc : (s.count 47 + 1) * n = s.count 47 * n + n := Nat.succ_mul _ _
    have hlength : (windowsName s).length = s.length := by rw [windowsName, List.length_map]
    refine ⟨by unfold RoomFor; omega, h.close (by omega) (by omega) ?_⟩
    change p.r + (windowsName s).length + 5 ≤ winPathMax
    omega
  · exact h.walk hn _ hs

end

end MinC.Vfs
