import MinC.Lib.Lines
import MinC.Sys.Ids
import MinC.Sys.Passwd

/-!
Entries that are read out of their lines.

The library asks the system for the line of an account or of a group, and takes
it apart in the buffer it was put into. The fields of an entry are places in
that buffer. The number of the administrator is read as zero. The members of a
group are read until there is nothing behind a name, which is told by the byte
behind its zero; the system clears the buffer for that.
-/

namespace MinC.Sys

open MinC.Lib MinC.Win MinC.Vfs

/-! ### Numbers -/

/-- `strtoul` to the base of ten: the number, and how many bytes were read. -/
def strtoul (l : List UInt8) : UInt32 × Nat :=
  let blank := (l.takeWhile isSpace).length
  let signed := l.drop blank
  let sign := if signed.head? = some 43 ∨ signed.head? = some 45 then 1 else 0
  let numeral := (signed.drop sign).takeWhile isDigit
  let n := digits numeral
  if numeral = [] then (0, 0)
  else if 0xFFFFFFFF < n then (0xFFFFFFFF, blank + sign + numeral.length)
  else if signed.head? = some 45 then (-(UInt32.ofNat n), blank + sign + numeral.length)
  else (UInt32.ofNat n, blank + sign + numeral.length)

/-- A number is read, and a zero is written behind it. -/
def strtoulField (cells : List UInt8) (place : Nat) : UInt32 × List UInt8 × Nat :=
  let (n, len) := strtoul (cells.drop place)
  (n, poke cells (place + len) [0], place + len + 1)

/-! ### Accounts -/

/-- `struct passwd`. The strings are places in the buffer. -/
structure Passwd where
  pwName : Nat
  pwPasswd : Nat
  pwUid : UInt32
  pwGid : UInt32
  pwClass : Nat
  pwChange : UInt32
  pwExpire : UInt32
  pwGecos : Nat
  pwDir : Nat
  pwShell : Nat

/-- `pwd_skip`. -/
def pwdSkip (cells : List UInt8) (place : Nat) : List UInt8 × Nat := skipField 58 cells place

def pwentPosix (cells : List UInt8) (buf : Nat) : List UInt8 × Passwd :=
  let pwName := buf
  let (cells, buf) := pwdSkip cells buf
  let pwPasswd := buf
  let (cells, buf) := pwdSkip cells buf
  let (uid, cells, buf) := strtoulField cells buf
  let pwUid := unroot rootUid uid
  let (gid, cells, buf) := strtoulField cells buf
  let pwGid := unroot Win.rootGid gid
  let pwClass := buf
  let (cells, buf) := pwdSkip cells buf
  let (pwChange, cells, buf) := strtoulField cells buf
  let (pwExpire, cells, buf) := strtoulField cells buf
  let pwGecos := buf
  let (cells, buf) := pwdSkip cells buf
  let pwDir := buf
  let (cells, buf) := pwdSkip cells buf
  let pwShell := buf
  (cells, { pwName, pwPasswd, pwUid, pwGid, pwClass, pwChange, pwExpire, pwGecos, pwDir, pwShell })

/-- The entry says what the account is. -/
structure ReadsAccount (machine : SID8) (entry : WinPwent) (cells : List UInt8) (pw : Passwd) :
    Prop where
  name : text (cells.drop pw.pwName) = narrow entry.account
  passwd : text (cells.drop pw.pwPasswd) = entry.password
  uid : pw.pwUid = unroot rootUid (ridPosix machine entry.userSid)
  gid : pw.pwGid = unroot Win.rootGid (ridPosix machine entry.groupSid)
  loginClass : text (cells.drop pw.pwClass) = entry.className
  change : pw.pwChange = entry.change
  expire : pw.pwExpire = entry.expire
  gecos : text (cells.drop pw.pwGecos) = entry.comment
  dir : text (cells.drop pw.pwDir) = entry.homeDir
  shell : text (cells.drop pw.pwShell) = entry.shell

/-! ### Numbers that were printed -/

theorem not_isSpace_of_isDigit {c : UInt8} (h : isDigit c = true) : isSpace c = false := by
  simp only [isDigit, isSpace, Bool.and_eq_true, decide_eq_true_eq] at h ⊢
  simp only [Bool.or_eq_false_iff, Bool.and_eq_false_iff, decide_eq_false_iff_not,
    beq_eq_false_iff_ne]
  grind

theorem printLu_ne_nil (n : UInt32) : printLu n ≠ [] := by
  rw [printLu, decimal_natCast, decimalAux]
  exact List.append_ne_nil_of_right_ne_nil _ (by simp)

theorem printLu_isDigit (n : UInt32) : ∀ c ∈ printLu n, isDigit c = true := by
  have hlt := n.toNat_lt
  rw [printLu, decimal_natCast]
  exact (decimalAux_spec 20 n.toNat (by omega)).1

/-- A number that was printed is read again, up to what is no digit. -/
theorem strtoul_printLu (n : UInt32) {c : UInt8} (hc : isDigit c = false) (rest : List UInt8) :
    strtoul (printLu n ++ c :: rest) = (n, (printLu n).length) := by
  obtain ⟨d, ds, hcons⟩ := List.exists_cons_of_ne_nil (printLu_ne_nil n)
  have hd : isDigit d = true := printLu_isDigit n d (hcons ▸ List.mem_cons_self)
  have hblank : (printLu n ++ c :: rest).takeWhile isSpace = [] := by
    rw [hcons, List.cons_append,
      List.takeWhile_cons_of_neg (by rw [not_isSpace_of_isDigit hd]; exact Bool.false_ne_true)]
  have hhead : (printLu n ++ c :: rest).head? = some d := by rw [hcons]; rfl
  have hplus : d ≠ 43 := by
    rintro rfl
    exact absurd hd (by decide)
  have hminus : d ≠ 45 := by
    rintro rfl
    exact absurd hd (by decide)
  have hnumeral : (printLu n ++ c :: rest).takeWhile isDigit = printLu n := by
    rw [List.takeWhile_append_of_pos (printLu_isDigit n),
      List.takeWhile_cons_of_neg (by rw [hc]; exact Bool.false_ne_true), List.append_nil]
  have hlt := n.toNat_lt
  rw [strtoul]
  simp only [hblank, List.length_nil, List.drop_zero, hhead, Option.some.injEq, hplus, hminus,
    or_self, if_false, hnumeral, printLu_ne_nil n, (printLu_spec n).2.2, UInt32.ofNat_toNat]
  rw [if_neg (by omega), Nat.zero_add]

/-- A number between separators. -/
theorem strtoulField_printLu (before : List UInt8) (n : UInt32) {c : UInt8}
    (hc : isDigit c = false) (rest : List UInt8) :
    strtoulField (before ++ (printLu n ++ c :: rest)) before.length =
      (n, before ++ (printLu n ++ [0]) ++ rest, (before ++ (printLu n ++ [0])).length) := by
  rw [strtoulField, List.drop_left' rfl, strtoul_printLu n hc]
  dsimp only
  rw [← List.length_append, ← List.append_assoc, poke_append]
  simp [Nat.add_assoc]

/-! ### Lines of accounts -/

/-- A reader stands behind what it has gone over, in front of what is left. -/
structure ReadTo (gone left cells : List UInt8) (place : Nat) : Prop where
  cells : cells = gone ++ left
  place : place = gone.length

/-- A field that was gone over. -/
def goneOver (gone field : List UInt8) : List UInt8 := gone ++ (field ++ [0])

section
variable {gone field left cells : List UInt8} {place : Nat}

theorem ReadTo.skip {sep c : UInt8} (h : ReadTo gone (field ++ c :: left) cells place)
    (hzero : 0 ∉ field) (hsep : sep ∉ field) (hc : c = 0 ∨ c = sep) :
    ∃ cells' place', skipField sep cells place = (cells', place') ∧
      ReadTo (goneOver gone field) left cells' place' := by
  rw [h.cells, h.place, skipField_eq hzero hsep hc]
  exact ⟨_, _, rfl, rfl, rfl⟩

theorem ReadTo.number {n : UInt32} {c : UInt8}
    (h : ReadTo gone (printLu n ++ c :: left) cells place) (hc : isDigit c = false) :
    ∃ cells' place', strtoulField cells place = (n, cells', place') ∧
      ReadTo (goneOver gone (printLu n)) left cells' place' := by
  rw [h.cells, h.place, strtoulField_printLu gone n hc]
  exact ⟨_, _, rfl, rfl, rfl⟩

/-- A field that a reader has gone over is the string at the place where it stood. -/
theorem ReadTo.text {start : Nat} (hstart : start = gone.length) {more : List UInt8}
    (hzero : 0 ∉ field) (hcells : cells = gone ++ (field ++ 0 :: more)) :
    text (cells.drop start) = field := by
  rw [hstart, hcells]
  exact text_drop_field hzero gone more

end

section
variable (machine : SID8) (entry : WinPwent)

/-- The line of an account is taken apart again. -/
theorem pwentPosix_reads (hzero : ∀ field ∈ entry.fields machine, 0 ∉ field)
    (hcolon : ∀ field ∈ entry.fields machine, 58 ∉ field) {before rest line : List UInt8}
    {buf : Nat}
    (h : ReadTo before ([58].intercalate (entry.fields machine) ++ 0 :: rest) line buf) :
    ReadsAccount machine entry (pwentPosix line buf).1 (pwentPosix line buf).2 := by
  simp only [WinPwent.fields, WinPwent.frontFields, List.cons_append, List.nil_append,
    List.forall_mem_cons] at hzero hcolon
  obtain ⟨zname, zpasswd, -, -, zclass, -, -, zgecos, zdir, zshell, -⟩ := hzero
  obtain ⟨cname, cpasswd, -, -, cclass, -, -, cgecos, cdir, -⟩ := hcolon
  simp only [WinPwent.fields, WinPwent.frontFields, List.cons_append, List.nil_append,
    List.intercalate_cons_cons, List.intercalate_singleton, List.append_assoc] at h
  obtain ⟨cells1, buf1, e1, hpasswd⟩ := h.skip zname cname (Or.inr rfl)
  obtain ⟨cells2, buf2, e2, huid⟩ := hpasswd.skip zpasswd cpasswd (Or.inr rfl)
  obtain ⟨cells3, buf3, e3, hgid⟩ := huid.number rfl
  obtain ⟨cells4, buf4, e4, hclass⟩ := hgid.number rfl
  obtain ⟨cells5, buf5, e5, hchange⟩ := hclass.skip zclass cclass (Or.inr rfl)
  obtain ⟨cells6, buf6, e6, hexpire⟩ := hchange.number rfl
  obtain ⟨cells7, buf7, e7, hgecos⟩ := hexpire.number rfl
  obtain ⟨cells8, buf8, e8, hdir⟩ := hgecos.skip zgecos cgecos (Or.inr rfl)
  obtain ⟨cells9, buf9, e9, hshell⟩ := hdir.skip zdir cdir (Or.inr rfl)
  have hcells := hshell.cells
  simp only [goneOver, List.append_assoc, List.cons_append, List.nil_append] at hcells
  simp only [pwentPosix, pwdSkip, e1, e2, e3, e4, e5, e6, e7, e8, e9]
  constructor
  case name => exact ReadTo.text h.place zname hcells
  case passwd => exact ReadTo.text hpasswd.place zpasswd (by simpa [goneOver] using hcells)
  case uid => rfl
  case gid => rfl
  case loginClass => exact ReadTo.text hclass.place zclass (by simpa [goneOver] using hcells)
  case change => rfl
  case expire => rfl
  case gecos => exact ReadTo.text hgecos.place zgecos (by simpa [goneOver] using hcells)
  case dir => exact ReadTo.text hdir.place zdir (by simpa [goneOver] using hcells)
  case shell => exact ReadTo.text hshell.place zshell (by simpa [goneOver] using hcells)

/-- An account that has a line in a buffer is read back from it, whatever was in memory. -/
theorem pwentPosix_passwdPosix {buflen : Nat} (h : entry.Suits machine buflen) (junk : List UInt8)
    (before : UInt8) (buf : List UInt8) :
    ReadsAccount machine entry
      (pwentPosix (passwdPosix machine junk entry ⟨before :: buf, [], 1⟩).cells 1).1
      (pwentPosix (passwdPosix machine junk entry ⟨before :: buf, [], 1⟩).cells 1).2 := by
  have hstart : LineWriter.Wrote 1 (⟨before :: buf, [], 1⟩ : LineWriter UInt8) [] :=
    LineWriter.wrote_start (Nat.succ_le_succ (Nat.zero_le _))
  obtain ⟨front, rest, hfront, hcells⟩ := (passwdPosix_ended machine junk entry h.name hstart).zero
  rw [entry.homeCells_eq h.home junk] at hcells
  refine pwentPosix_reads machine entry (fun field hfield hzero => ?_)
    ((entry.colon_not_mem_fields_iff machine).mpr ⟨h.account, h.password, h.comment⟩)
    ⟨hcells.trans (List.append_assoc _ _ _), hfront.symm⟩
  rcases List.mem_append.mp hfield with hfield | hfield
  · exact entry.zero_not_mem_frontLine machine
      (List.mem_flatMap.mpr ⟨field, hfield, List.mem_append_left _ hzero⟩)
  · rcases List.mem_pair.mp hfield with rfl | rfl
    · exact entry.zero_not_mem_homeDir hzero
    · exact entry.zero_not_mem_lastField (List.mem_cons_of_mem _ hzero)

end

/-! ### Groups -/

def maxText : Nat := 416

/-- `WIN_GRENT`, with the strings in its arrays. -/
structure WinGrent where
  sid : SID8
  account : List UInt16
  members : List UInt8
  account_text : IsText maxName account
  members_text : IsText maxText members

/-- The members of a group are put together, the last one first. -/
def grpLookupNTAuth (names : List (List UInt16)) (w : LineWriter UInt8) : LineWriter UInt8 :=
  match names.reverse with
  | [] => w
  | name :: more =>
      more.foldl (fun w name => wcstombsAt (w.string [44]) name maxName) (wcstombsAt w name maxName)

/-- What a group has to be like: its names are short, its own has no colon, those of its
members are not empty and have no comma, the array has room for them and a `NULL`, and the
line with a zero behind its own is no more than the buffer. -/
structure WinGrent.Suits (machine : SID8) (group : WinGrent) (names : List (List UInt16))
    (ngroupsMax buflen : Nat) : Prop where
  name : (narrow group.account).length < maxName
  account : 58 ∉ narrow group.account
  members : group.members = text (grpLookupNTAuth names ⟨[], [], 0⟩).cells
  zero : ∀ name ∈ names, 0 ∉ name
  short : ∀ name ∈ names, narrow name ≠ [] ∧ (narrow name).length < maxName
  comma : ∀ name ∈ names, 44 ∉ narrow name
  few : names.length < ngroupsMax
  room : (narrow group.account ++ [58, 42, 58] ++ printLu (ridPosix machine group.sid) ++ [58] ++
    group.members).length + 2 ≤ buflen

/-! ### The members of a group -/

section
variable {start : Nat} {w : LineWriter UInt8} {t : List UInt8}

/-- What was written in a buffer that was cleared before, and is cleared behind it. -/
structure Cleared (start size : Nat) (w : LineWriter UInt8) (t : List UInt8) : Prop where
  place : w.place = start + t.length
  cells : ∃ before rest, before.length = start ∧
    w.cells = before ++ (t ++ (List.replicate (size - t.length) 0 ++ rest))

theorem Cleared.string {size : Nat} (h : Cleared start size w t) {s : List UInt8}
    (hroom : (t ++ s).length + 1 ≤ size) : Cleared start size (w.string s) (t ++ s) := by
  obtain ⟨before, rest, hbefore, hcells⟩ := h.cells
  rw [List.length_append] at hroom
  have hplace : w.place = (before ++ t).length := by
    rw [h.place, List.length_append, hbefore]
  refine ⟨?_, before, rest, hbefore, ?_⟩
  · show w.place + s.length = _
    rw [h.place, List.length_append, Nat.add_assoc]
  · show poke w.cells w.place (s ++ [0]) = _
    have hzeros : size - t.length = (s.length + 1) + (size - (t.length + s.length) - 1) := by omega
    have hone : size - (t.length + s.length) = size - (t.length + s.length) - 1 + 1 := by omega
    have hlength : (t ++ s).length = t.length + s.length := List.length_append
    rw [hplace, hcells, ← List.append_assoc before, poke_append, List.length_append,
      List.length_singleton, hzeros, List.replicate_add,
      List.append_assoc (List.replicate (s.length + 1) 0), List.drop_left' List.length_replicate,
      hlength, hone, List.replicate_succ]
    simp

end

/-! ### Lines of groups -/

section
variable (machine : SID8) (group : WinGrent)

/-- The line of a group. -/
def WinGrent.line : List UInt8 :=
  narrow group.account ++ [58, 42, 58] ++ printLu (ridPosix machine group.sid) ++ [58] ++
    group.members

theorem ReadTo.head {gone left cells : List UInt8} {c : UInt8} {place : Nat}
    (h : ReadTo gone (c :: left) cells place) : cells.getD place 0 = c := by
  rw [h.cells, h.place, List.getD_append_right _ _ _ _ (Nat.le_refl _), Nat.sub_self]
  rfl

theorem WinGrent.Suits.fields {names : List (List UInt16)} {ngroupsMax buflen : Nat}
    (h : group.Suits machine names ngroupsMax buflen) :
    ∀ field ∈ (names.map narrow).reverse, field ≠ [] ∧ 0 ∉ field ∧ 44 ∉ field := by
  intro field hfield
  obtain ⟨name, hname, rfl⟩ := List.mem_map.mp (List.mem_reverse.mp hfield)
  exact ⟨(h.short name hname).1, zero_not_mem_narrow (h.zero name hname), h.comma name hname⟩

end

/-! ### Entries of a machine -/

theorem no_comment_isText : IsText maxComment ([] : List UInt8) := isText_nil (Nat.zero_lt_succ _)
theorem no_home_isText : IsText maxPath ([] : List UInt16) := isText_nil (Nat.zero_lt_succ _)

/-- The account `u`, without a comment and a home directory. -/
def plainAccount : WinPwent := someAccount [117] [] [] u_isText no_comment_isText no_home_isText

theorem plainAccount_suits : plainAccount.Suits theMachine 255 where
  name := by decide
  account := by decide
  password := by decide
  comment := by decide
  home := fun h => absurd rfl h
  room := by decide +kernel

theorem plainAccount_read :
    ReadsAccount theMachine plainAccount
      (pwentPosix (passwdPosix theMachine [] plainAccount ⟨[7, 7], [], 1⟩).cells 1).1
      (pwentPosix (passwdPosix theMachine [] plainAccount ⟨[7, 7], [], 1⟩).cells 1).2 :=
  pwentPosix_passwdPosix theMachine plainAccount plainAccount_suits [] 7 [7]

end MinC.Sys
