import MinC.Lib.Lines
import MinC.Lib.Numerals
import MinC.Sys.Sockaddr
import MinC.Vfs.Device
import MinC.Win.Rid

/-!
Entries of the password file.

An account is told in a line of ten fields, which is put together in the buffer
of the caller. Nothing is compared with the size of the buffer, and no field is
looked through for the separator. A name that cannot be converted moves the
place of writing back by one. The home directory is translated as every path is,
which leaves out its colons, but may end the line at the extension of a link.
-/

namespace MinC.Sys

open MinC.Lib MinC.Win MinC.Vfs

/-! ### Accounts -/

def maxComment : Nat := 160

/-- `PATH_MAX`. -/
def maxPosixPath : Nat := 1024

def securityMandatorySystemRid : UInt32 := 0x4000
def securityMandatoryLowRid : UInt32 := 0x1000

/-- What an array of so many characters can hold. -/
structure IsText {α : Type} [Zero α] (size : Nat) (text : List α) : Prop where
  zero : 0 ∉ text
  length : text.length < size

/-- `WIN_PWENT`, with the strings in its arrays. -/
structure WinPwent where
  userSid : SID8
  groupSid : SID8
  integrity : UInt32
  change : UInt32
  expire : UInt32
  account : List UInt16
  password : List UInt8
  comment : List UInt8
  home : List UInt16
  account_text : IsText maxName account
  password_text : IsText maxName password
  comment_text : IsText maxComment comment
  home_text : IsText maxPath home

/-- `%lu`. -/
def printLu (n : UInt32) : List UInt8 := decimal n.toNat

/-- `:daemon` and `:default`, `daemon` and `default`. -/
def daemonClass : List UInt8 := [100, 97, 101, 109, 111, 110]
def defaultClass : List UInt8 := [100, 101, 102, 97, 117, 108, 116]

/-- `/root`, `/var/empty` and `/home/`. -/
def rootHome : List UInt8 := [47, 114, 111, 111, 116]
def emptyHome : List UInt8 := [47, 118, 97, 114, 47, 101, 109, 112, 116, 121]
def homePrefix : List UInt8 := [47, 104, 111, 109, 101, 47]

/-- `/bin/ksh` and `/bin/sh`. -/
def kornShell : List UInt8 := [47, 98, 105, 110, 47, 107, 115, 104]
def bourneShell : List UInt8 := [47, 98, 105, 110, 47, 115, 104]

/-! ### Lines -/

/-- A string is converted and written. A conversion that fails moves the place back, and what
it may have left in the buffer is not asked for. -/
def wcstombsAt (w : LineWriter UInt8) (source : List UInt16) (size : Int) : LineWriter UInt8 :=
  match winWcstombs source size with
  | some text => w.string text
  | none => { w with place := w.place - 1 }

section
variable (machine : SID8) (junk : List UInt8)

/-- A path is written, and the place is behind what was copied. -/
def pathpPosix (w : LineWriter UInt8) (source : List UInt16) : LineWriter UInt8 :=
  let dest := w.cells.drop w.place
  let written := (pathPosixStores maxPosixPath junk dest source).foldl
    (fun w store => w.put (w.place + store.offset) store.item) w
  { written with place := w.place + (pathnpPosix junk dest source maxPosixPath).2 }

variable (entry : WinPwent)

def writeHome (w : LineWriter UInt8) : LineWriter UInt8 :=
  if entry.home ≠ [] then pathpPosix junk w entry.home
  else if entry.integrity = securityMandatorySystemRid then w.string rootHome
  else if entry.integrity = securityMandatoryLowRid then w.string emptyHome
  else wcstombsAt (w.string homePrefix) entry.account maxName

def WinPwent.shell : List UInt8 :=
  if entry.home = [] ∧ entry.integrity = securityMandatoryLowRid then bourneShell else kornShell

/-- The line, from the place of the writer on. -/
def passwdPosix (w : LineWriter UInt8) : LineWriter UInt8 :=
  let w := wcstombsAt w entry.account maxName
  let w := w.string [58]
  let w := w.string entry.password
  let w := w.string [58]
  let w := w.string (printLu (ridPosix machine entry.userSid))
  let w := w.string [58]
  let w := w.string (printLu (ridPosix machine entry.groupSid))
  let w :=
    if entry.integrity = securityMandatoryLowRid then w.string (58 :: daemonClass)
    else w.string (58 :: defaultClass)
  let w := w.string [58]
  let w := w.string (printLu entry.change)
  let w := w.string [58]
  let w := w.string (printLu entry.expire)
  let w := w.string [58]
  let w := w.string entry.comment
  let w := w.string [58]
  let w := writeHome junk entry w
  let w := w.string [58]
  w.string entry.shell

/-! ### What a line is for -/

/-- The home directory of the account: the one it has, as a path, or the one that accounts
of its kind have. -/
def WinPwent.homeDir : List UInt8 :=
  if entry.home ≠ [] then translation entry.home
  else if entry.integrity = securityMandatorySystemRid then rootHome
  else if entry.integrity = securityMandatoryLowRid then emptyHome
  else homePrefix ++ narrow entry.account

def WinPwent.className : List UInt8 :=
  if entry.integrity = securityMandatoryLowRid then daemonClass else defaultClass

/-- The fields in front of the home directory. -/
def WinPwent.frontFields : List (List UInt8) :=
  [narrow entry.account, entry.password, printLu (ridPosix machine entry.userSid),
    printLu (ridPosix machine entry.groupSid), entry.className, printLu entry.change,
    printLu entry.expire, entry.comment]

/-- Name, password, user, group, class, change, expiry, comment, home and shell. -/
def WinPwent.fields : List (List UInt8) :=
  entry.frontFields machine ++ [entry.homeDir, entry.shell]

end

/-- A line of the account was written into a buffer of `buflen` bytes, in front of which
there is a byte. -/
structure IsEntry (machine : SID8) (entry : WinPwent) (buflen : Nat) (w : LineWriter UInt8) :
    Prop where
  inside : ∀ store ∈ w.stores, 1 ≤ store.offset ∧ store.offset + store.item.length ≤ 1 + buflen
  fields : (text (w.cells.drop 1)).splitOn 58 = entry.fields machine

/-- An account gets its line, whatever is in the memory before. -/
def GetsEntry (machine : SID8) (entry : WinPwent) (buflen : Nat) : Prop :=
  ∀ junk before buf,
    IsEntry machine entry buflen (passwdPosix machine junk entry ⟨before :: buf, [], 1⟩)

/-- What an account has to be like: its name is short, and neither it nor its password or
comment has a colon. Its home directory, if it has one, is not the root of the names of
objects, and does not have the extension of a link. The fields, nine colons and a zero are no
more than the buffer. -/
structure WinPwent.Suits (machine : SID8) (entry : WinPwent) (buflen : Nat) : Prop where
  name : (narrow entry.account).length < maxName
  account : 58 ∉ narrow entry.account
  password : 58 ∉ entry.password
  comment : 58 ∉ entry.comment
  home : entry.home ≠ [] → stripRoot entry.home ≠ [] ∧
    DotKept (spell (copied (converted entry.home)))
  room : ([58].intercalate (entry.fields machine)).length + 1 ≤ buflen

/-! ### What is written -/

section
variable {start : Nat} {w : LineWriter UInt8} {t : List UInt8}

theorem wcstombsAt_fits (h : LineWriter.Wrote start w t) {source : List UInt16}
    (hfits : (narrow source).length < maxName) :
    LineWriter.Ended start (wcstombsAt w source maxName) (t ++ narrow source) := by
  have hsome : winWcstombs source maxName = some (narrow source) := if_pos (by omega)
  rw [wcstombsAt, hsome]
  exact h.string _

/-- The cells of a path, with the zero that takes off the extension of a link. -/
def cutLink (out : List UInt8) : List UInt8 :=
  match lastDot out with
  | some i => if (out.drop i).take 4 = typeNameLink then poke out i [0] else out
  | none => out

theorem cutLink_of_kept {out : List UInt8} (h : DotKept out) : cutLink out = out := by
  rw [cutLink]
  cases hdot : lastDot out with
  | none => rfl
  | some i => exact if_neg (h i hdot)

theorem exists_link_of_not_kept {out : List UInt8} (h : ¬DotKept out) :
    ∃ i, lastDot out = some i ∧ (out.drop i).take 4 = typeNameLink := by
  by_contra hnone
  exact h fun i hdot hlink => hnone ⟨i, hdot, hlink⟩

/-- A link is cut, and there is nothing behind it to a reader. -/
theorem cutLink_of_not_kept {out : List UInt8} (h : ¬DotKept out) :
    ∃ i < out.length, cutLink out = out.take i ++ 0 :: out.drop (i + 1) ∧
      chopLink out = out.take i := by
  obtain ⟨i, hdot, hlink⟩ := exists_link_of_not_kept h
  have hlt := lastDot_lt hdot
  refine ⟨i, hlt, ?_, ?_⟩
  · rw [cutLink, hdot]
    dsimp only
    rw [if_pos hlink, poke, front, Nat.sub_eq_zero_of_le (Nat.le_of_lt hlt)]
    simp
  · rw [chopLink, hdot]
    exact if_pos hlink

/-- A path that keeps its last dot is written as a string. -/
theorem pathpPosix_kept (w : LineWriter UInt8) {junk : List UInt8} {source : List UInt16}
    (h : DotKept (outPosix junk source maxPosixPath)) :
    pathpPosix junk w source = w.string (outPosix junk source maxPosixPath) := by
  have hstores : pathPosixStores maxPosixPath junk (w.cells.drop w.place) source =
      [⟨0, outPosix junk source maxPosixPath ++ [0]⟩] := by
    rw [pathPosixStores]
    cases hdot : lastDot (outPosix junk source maxPosixPath) with
    | none => rfl
    | some i =>
        have hlink := mt (isLink_poke_iff (w.cells.drop w.place)
          (Nat.le_of_lt (lastDot_lt hdot))).mp (h i hdot)
        dsimp only
        rw [if_neg hlink]
  rw [pathpPosix, hstores]
  dsimp only [pathnpPosix]
  generalize outPosix junk source maxPosixPath = out
  rfl

/-- A link is written as a string, and then its extension is taken off. -/
theorem pathpPosix_link (w : LineWriter UInt8) {junk : List UInt8} {source : List UInt16} {i : Nat}
    (hdot : lastDot (outPosix junk source maxPosixPath) = some i)
    (h : ((outPosix junk source maxPosixPath).drop i).take 4 = typeNameLink) :
    pathpPosix junk w source =
      (w.string (outPosix junk source maxPosixPath)).put (w.place + i) [0] := by
  have hlink := (isLink_poke_iff (w.cells.drop w.place) (Nat.le_of_lt (lastDot_lt hdot))).mpr h
  have hstores : pathPosixStores maxPosixPath junk (w.cells.drop w.place) source =
      [⟨0, outPosix junk source maxPosixPath ++ [0]⟩, ⟨i, [0]⟩] := by
    rw [pathPosixStores, hdot]
    dsimp only
    rw [if_pos hlink]
  rw [pathpPosix, hstores]
  dsimp only [pathnpPosix]
  generalize outPosix junk source maxPosixPath = out
  rfl

theorem pathpPosix_wrote (h : LineWriter.Wrote start w t) (junk : List UInt8)
    (source : List UInt16) :
    LineWriter.Wrote start (pathpPosix junk w source)
      (t ++ cutLink (outPosix junk source maxPosixPath)) := by
  have hout := (h.string (outPosix junk source maxPosixPath)).toWrote
  by_cases hkept : DotKept (outPosix junk source maxPosixPath)
  · rw [pathpPosix_kept w hkept, cutLink_of_kept hkept]
    exact hout
  · obtain ⟨i, hdot, hlink⟩ := exists_link_of_not_kept hkept
    have hlt := lastDot_lt hdot
    have hput := hout.put (i := t.length + i) (l := [0]) (by
      rw [List.length_append, List.length_singleton]
      omega)
    rw [poke_append_add, ← Nat.add_assoc, ← h.place] at hput
    rw [pathpPosix_link w hdot hlink, cutLink, hdot]
    dsimp only
    rw [if_pos hlink]
    exact hput

/-- The cells of the home directory in the line. -/
def WinPwent.homeCells (junk : List UInt8) (entry : WinPwent) : List UInt8 :=
  if entry.home ≠ [] then cutLink (outPosix junk entry.home maxPosixPath) else entry.homeDir

theorem writeHome_wrote (h : LineWriter.Wrote start w t) (junk : List UInt8) (entry : WinPwent)
    (hname : (narrow entry.account).length < maxName) :
    LineWriter.Wrote start (writeHome junk entry w) (t ++ entry.homeCells junk) := by
  rw [writeHome, WinPwent.homeCells, WinPwent.homeDir]
  split_ifs
  · exact pathpPosix_wrote h junk _
  · exact (h.string _).toWrote
  · exact (h.string _).toWrote
  · rw [← List.append_assoc]
    exact (wcstombsAt_fits (h.string _).toWrote hname).toWrote

theorem class_wrote (h : LineWriter.Wrote start w t) (entry : WinPwent) :
    LineWriter.Wrote start
      (if entry.integrity = securityMandatoryLowRid then w.string (58 :: daemonClass)
        else w.string (58 :: defaultClass)) (t ++ 58 :: entry.className) := by
  rw [WinPwent.className]
  split_ifs
  · exact (h.string _).toWrote
  · exact (h.string _).toWrote

/-- The line that is written, if the name can be converted. -/
theorem passwdPosix_ended (machine : SID8) (junk : List UInt8) (entry : WinPwent)
    (hname : (narrow entry.account).length < maxName) (hw : LineWriter.Wrote start w []) :
    LineWriter.Ended start (passwdPosix machine junk entry w)
      ([58].intercalate (entry.frontFields machine ++ [entry.homeCells junk, entry.shell])) := by
  have hid := (((((wcstombsAt_fits hw hname).toWrote.string [58]).toWrote.string
    entry.password).toWrote.string [58]).toWrote.string
    (printLu (ridPosix machine entry.userSid))).toWrote.string [58]
  have hclass := class_wrote
    (hid.toWrote.string (printLu (ridPosix machine entry.groupSid))).toWrote entry
  have hdates := (((hclass.string [58]).toWrote.string (printLu entry.change)).toWrote.string
    [58]).toWrote.string (printLu entry.expire)
  have hcomment := ((hdates.toWrote.string [58]).toWrote.string entry.comment).toWrote.string [58]
  have hhome := writeHome_wrote hcomment.toWrote junk entry hname
  have hline := (hhome.string [58]).toWrote.string entry.shell
  simp only [List.nil_append, List.append_assoc, List.cons_append] at hline
  simp only [WinPwent.frontFields, List.cons_append, List.nil_append, List.intercalate_cons_cons,
    List.intercalate_singleton, List.append_assoc]
  exact hline

end

/-! ### What is read -/

/-- A number is its digits, none of which is the separator, and can be read again. -/
theorem printLu_spec (n : UInt32) :
    0 ∉ printLu n ∧ 58 ∉ printLu n ∧ digits (printLu n) = n.toNat := by
  have hlt := n.toNat_lt
  obtain ⟨hnumeral, hdigits, -⟩ := decimalAux_spec 20 n.toNat (by omega)
  rw [printLu, decimal_natCast]
  refine ⟨fun h => ?_, fun h => ?_, hdigits⟩
  · exact absurd (hnumeral _ h) (by decide)
  · exact absurd (hnumeral _ h) (by decide)

namespace WinPwent

variable (machine : SID8) (entry : WinPwent)

theorem not_mem_className {c : UInt8} (hc : c ∉ daemonClass) (hc' : c ∉ defaultClass) :
    c ∉ entry.className := by
  rw [className]
  split_ifs
  · exact hc
  · exact hc'

theorem not_mem_shell {c : UInt8} (hc : c ∉ kornShell) (hc' : c ∉ bourneShell) :
    c ∉ entry.shell := by
  rw [shell]
  split_ifs
  · exact hc'
  · exact hc

/-- The fields in front of the home directory, each with its separator. -/
def frontLine : List UInt8 := (entry.frontFields machine).flatMap (· ++ [58])

theorem zero_not_mem_frontLine : 0 ∉ entry.frontLine machine := by
  have hfields : ∀ field ∈ entry.frontFields machine, 0 ∉ field := by
    simp only [frontFields, List.forall_mem_cons]
    exact ⟨zero_not_mem_narrow entry.account_text.zero, entry.password_text.zero,
      (printLu_spec _).1, (printLu_spec _).1, entry.not_mem_className (by decide) (by decide),
      (printLu_spec _).1, (printLu_spec _).1, entry.comment_text.zero, List.forall_mem_nil _⟩
  rw [frontLine, List.mem_flatMap]
  rintro ⟨field, hfield, hzero⟩
  rcases List.mem_append.mp hzero with h | h
  · exact hfields field hfield h
  · exact absurd (List.mem_singleton.mp h) (by decide)

/-- What is behind the home directory is a string. -/
theorem zero_not_mem_lastField : 0 ∉ 58 :: entry.shell := by
  rw [List.mem_cons, not_or]
  exact ⟨by decide, entry.not_mem_shell (by decide) (by decide)⟩

/-! ### The home directory -/

theorem converted_home_le : (converted entry.home).length + 6 ≤ maxPosixPath := by
  have hlength := entry.home_text.length
  have hbytes : (converted entry.home).length ≤ 3 * (stripRoot entry.home).length :=
    length_encodeUtf8_decodeUtf16_le _
  have hstrip : (stripRoot entry.home).length ≤ entry.home.length := by
    rw [stripRoot]
    split_ifs
    · rw [List.length_drop]
      exact Nat.sub_le _ _
    · exact Nat.le_refl _
  rw [maxPath] at hlength
  rw [maxPosixPath]
  omega

/-- A home directory is short enough for all of it to be translated. -/
theorem outPosix_home (hnamed : stripRoot entry.home ≠ []) (junk : List UInt8) :
    outPosix junk entry.home maxPosixPath =
      leading (converted entry.home) ++ spell (copied (converted entry.home)) := by
  have hroom := entry.converted_home_le
  have hleading := length_leading_le (converted entry.home)
  have hcopied := length_copied_le (converted entry.home)
  rw [outPosix_fits entry.home_text.zero hnamed (by omega), List.take_of_length_le (by omega)]

theorem dotKept_outPosix_iff (hnamed : stripRoot entry.home ≠ []) (junk : List UInt8) :
    DotKept (outPosix junk entry.home maxPosixPath) ↔
      DotKept (spell (copied (converted entry.home))) := by
  rw [entry.outPosix_home hnamed, dotKept_iff, dotKept_iff, chopLink_append (dot_not_mem_leading _),
    List.length_append, List.length_append, Nat.add_left_cancel_iff]

/-- What is left of a home directory is what it is translated to. -/
theorem chopLink_outPosix (hnamed : stripRoot entry.home ≠ []) (junk : List UInt8) :
    chopLink (outPosix junk entry.home maxPosixPath) = translation entry.home := by
  rw [entry.outPosix_home hnamed, translation]

theorem zero_not_mem_homeDir : 0 ∉ entry.homeDir := by
  have hbytes := zero_not_mem_narrow entry.account_text.zero
  rw [homeDir]
  split_ifs
  · exact not_mem_translation (by decide) (by decide)
      (.inr (zero_not_mem_copied (zero_not_mem_converted entry.home_text.zero)))
  · exact show (0 : UInt8) ∉ rootHome by decide
  · exact show (0 : UInt8) ∉ emptyHome by decide
  · rw [List.mem_append, not_or]
    exact ⟨by decide, hbytes⟩

/-- A home directory has no colon that is not one of the name. -/
theorem colon_not_mem_homeDir (hname : 58 ∉ narrow entry.account) : 58 ∉ entry.homeDir := by
  rw [homeDir]
  split_ifs
  · exact not_mem_translation (by decide) (by decide) (.inl rfl)
  · exact show (58 : UInt8) ∉ rootHome by decide
  · exact show (58 : UInt8) ∉ emptyHome by decide
  · rw [List.mem_append, not_or]
    exact ⟨by decide, hname⟩

/-- Of the fields, it is the name, the password and the comment that may have a colon. -/
theorem colon_not_mem_fields_iff :
    (∀ field ∈ entry.fields machine, 58 ∉ field) ↔
      58 ∉ narrow entry.account ∧ 58 ∉ entry.password ∧ 58 ∉ entry.comment := by
  simp only [fields, frontFields, List.cons_append, List.nil_append, List.forall_mem_cons]
  constructor
  · rintro ⟨hname, hpassword, -, -, -, -, -, hcomment, -⟩
    exact ⟨hname, hpassword, hcomment⟩
  · rintro ⟨hname, hpassword, hcomment⟩
    exact ⟨hname, hpassword, (printLu_spec _).2.1, (printLu_spec _).2.1,
      entry.not_mem_className (by decide) (by decide), (printLu_spec _).2.1, (printLu_spec _).2.1,
      hcomment, entry.colon_not_mem_homeDir hname, entry.not_mem_shell (by decide) (by decide),
      List.forall_mem_nil _⟩

/-! ### The line -/

theorem intercalate_fields :
    [58].intercalate (entry.fields machine) =
      entry.frontLine machine ++ (entry.homeDir ++ 58 :: entry.shell) :=
  intercalate_append_pair _ _ _

/-- The home directory stands in the line, if it has a name and is no link. -/
theorem homeCells_eq (hhome : entry.home ≠ [] → stripRoot entry.home ≠ [] ∧
    DotKept (spell (copied (converted entry.home)))) (junk : List UInt8) :
    entry.homeCells junk = entry.homeDir := by
  rw [homeCells]
  split_ifs with hne
  · obtain ⟨hnamed, hkept⟩ := hhome hne
    have hout := (entry.dotKept_outPosix_iff hnamed junk).mpr hkept
    rw [cutLink_of_kept hout, homeDir, if_pos hne, ← entry.chopLink_outPosix hnamed junk,
      chopLink_of_kept hout]
  · rfl

/-- Without a name, what is translated is what was in the buffer before. -/
theorem homeCells_unnamed (hne : entry.home ≠ []) (hnamed : stripRoot entry.home = []) :
    entry.homeCells [58] = mntPrefix ∧ entry.homeDir = [] := by
  rw [homeCells, homeDir, if_pos hne, if_pos hne, translation, converted, outPosix_eq, hnamed]
  exact ⟨rfl, rfl⟩

/-- A home directory that stands in the line, whatever was in memory, has a name and is no
link. -/
theorem home_of_text
    (h : ∀ junk, text (entry.homeCells junk ++ 58 :: entry.shell) =
      entry.homeDir ++ 58 :: entry.shell) (hne : entry.home ≠ []) :
    stripRoot entry.home ≠ [] ∧ DotKept (spell (copied (converted entry.home))) := by
  have hshell := entry.zero_not_mem_lastField
  have hnamed : stripRoot entry.home ≠ [] := by
    intro hnone
    obtain ⟨hcells, hdir⟩ := entry.homeCells_unnamed hne hnone
    have htext := h [58]
    rw [hcells, hdir, text_append_of_not_mem (by decide), text_of_not_mem hshell] at htext
    exact absurd (List.append_cancel_right htext) (by decide)
  refine ⟨hnamed, ?_⟩
  by_contra hkept
  rw [← entry.dotKept_outPosix_iff hnamed []] at hkept
  -- the line ends at the extension that was taken off
  obtain ⟨i, hi, hcut, hchop⟩ := cutLink_of_not_kept hkept
  have htext := h []
  have hout : 0 ∉ (outPosix [] entry.home maxPosixPath).take i := fun hmem =>
    zero_not_mem_outPosix _ _ _ (List.mem_of_mem_take hmem)
  rw [homeCells, if_pos hne, hcut, List.append_assoc, List.cons_append,
    text_append_zero hout, homeDir, if_pos hne, ← entry.chopLink_outPosix hnamed [], hchop] at htext
  have hlength := congrArg List.length htext
  rw [List.length_append, List.length_cons] at hlength
  omega

/-- What is written for a name that can be converted is an entry exactly if there is room for
it, the home directory stands in the line, and no field has a colon. -/
theorem isEntry_iff (hname : (narrow entry.account).length < maxName) {buflen : Nat}
    (junk : List UInt8) (before : UInt8) (buf : List UInt8) :
    IsEntry machine entry buflen (passwdPosix machine junk entry ⟨before :: buf, [], 1⟩) ↔
      (entry.frontLine machine ++ (entry.homeCells junk ++ 58 :: entry.shell)).length + 1 ≤ buflen ∧
        text (entry.homeCells junk ++ 58 :: entry.shell) = entry.homeDir ++ 58 :: entry.shell ∧
          ∀ field ∈ entry.fields machine, 58 ∉ field := by
  have hstart : LineWriter.Wrote 1 (⟨before :: buf, [], 1⟩ : LineWriter UInt8) [] :=
    LineWriter.wrote_start (Nat.succ_le_succ (Nat.zero_le _))
  have hended := passwdPosix_ended machine junk entry hname hstart
  rw [intercalate_append_pair, ← frontLine] at hended
  have hne : entry.fields machine ≠ [] := List.cons_ne_nil _ _
  have hinside := hended.within_iff buflen
  have htext := hended.text
  rw [text_append_of_not_mem (entry.zero_not_mem_frontLine machine)] at htext
  constructor
  · rintro ⟨h, hsplit⟩
    rw [htext, splitOn_eq_iff hne, intercalate_fields, List.append_cancel_left_eq] at hsplit
    exact ⟨hinside.mp h, hsplit⟩
  · rintro ⟨hroom, hsplit⟩
    refine ⟨hinside.mpr hroom, ?_⟩
    rw [htext, splitOn_eq_iff hne, intercalate_fields, List.append_cancel_left_eq]
    exact hsplit

end WinPwent

/-! ### Names that cannot be converted -/

section
variable (w : LineWriter UInt8)

/-- What was stored was stored. -/
def StoresMore (w w' : LineWriter UInt8) : Prop := w.stores <+: w'.stores

variable {w} {w' : LineWriter UInt8}

theorem StoresMore.string (h : StoresMore w w') (s : List UInt8) : StoresMore w (w'.string s) :=
  h.trans (List.prefix_append _ _)

theorem StoresMore.wcstombsAt (h : StoresMore w w') (source : List UInt16) (size : Int) :
    StoresMore w (wcstombsAt w' source size) := by
  rw [MinC.Sys.wcstombsAt]
  split
  · exact h.string _
  · exact h

theorem StoresMore.pathpPosix (h : StoresMore w w') (junk : List UInt8) (source : List UInt16) :
    StoresMore w (pathpPosix junk w' source) := by
  by_cases hkept : DotKept (outPosix junk source maxPosixPath)
  · rw [pathpPosix_kept w' hkept]
    exact h.string _
  · obtain ⟨i, hdot, hlink⟩ := exists_link_of_not_kept hkept
    rw [pathpPosix_link w' hdot hlink]
    exact (h.string _).trans (List.prefix_append _ _)

theorem StoresMore.writeHome (h : StoresMore w w') (junk : List UInt8) (entry : WinPwent) :
    StoresMore w (writeHome junk entry w') := by
  rw [MinC.Sys.writeHome]
  split_ifs
  · exact h.pathpPosix junk _
  · exact h.string _
  · exact h.string _
  · exact (h.string _).wcstombsAt _ _

theorem StoresMore.className (h : StoresMore w w') (entry : WinPwent) :
    StoresMore w (if entry.integrity = securityMandatoryLowRid then w'.string (58 :: daemonClass)
      else w'.string (58 :: defaultClass)) := by
  split_ifs
  · exact h.string _
  · exact h.string _

/-- The separator behind the name is still stored when the line is done. -/
theorem passwdPosix_storesMore (machine : SID8) (junk : List UInt8) (entry : WinPwent) :
    StoresMore ((wcstombsAt w entry.account maxName).string [58])
      (passwdPosix machine junk entry w) := by
  have hname : StoresMore ((wcstombsAt w entry.account maxName).string [58])
      ((wcstombsAt w entry.account maxName).string [58]) := List.prefix_refl _
  have hgroup := (((hname.string entry.password).string [58]).string
    (printLu (ridPosix machine entry.userSid))).string [58]
  have hclass := (hgroup.string (printLu (ridPosix machine entry.groupSid))).className entry
  have hcomment := (((((hclass.string [58]).string (printLu entry.change)).string [58]).string
    (printLu entry.expire)).string [58]).string entry.comment
  exact (((hcomment.string [58]).writeHome junk entry).string [58]).string entry.shell

/-- After a name that cannot be converted, the separator is stored in front of the buffer. -/
theorem isEntry_name {machine : SID8} {entry : WinPwent} {buflen : Nat} {junk : List UInt8}
    {before : UInt8} {buf : List UInt8}
    (h : IsEntry machine entry buflen (passwdPosix machine junk entry ⟨before :: buf, [], 1⟩)) :
    (narrow entry.account).length < maxName := by
  by_contra hlong
  have hnone : winWcstombs entry.account maxName = none := if_neg (by omega)
  have hgrows := passwdPosix_storesMore (w := ⟨before :: buf, [], 1⟩) machine junk entry
  rw [wcstombsAt, hnone] at hgrows
  have hstored : (⟨0, [58, 0]⟩ : Placed (List UInt8)) ∈
      (passwdPosix machine junk entry ⟨before :: buf, [], 1⟩).stores :=
    hgrows.subset (List.mem_singleton_self _)
  exact absurd (h.inside _ hstored).1 (by decide)

end

/-- An account gets a line that is within the buffer, and is split into its ten fields,
exactly when its name can be converted, neither it nor the password or the comment has a
colon, its home directory has a name and is no link, and there is room for the fields, the
colons between them and a zero. -/
theorem getsEntry_iff (machine : SID8) (entry : WinPwent) (buflen : Nat) :
    GetsEntry machine entry buflen ↔ entry.Suits machine buflen := by
  constructor
  · intro h
    have hname := isEntry_name (h [] 0 [])
    have hentry := fun junk => (entry.isEntry_iff machine hname junk 0 []).mp (h junk 0 [])
    have hhome := entry.home_of_text fun junk => (hentry junk).2.1
    obtain ⟨hroom, -, hcolons⟩ := hentry []
    obtain ⟨haccount, hpassword, hcomment⟩ :=
      (entry.colon_not_mem_fields_iff machine).mp hcolons
    refine ⟨hname, haccount, hpassword, hcomment, hhome, ?_⟩
    rwa [entry.intercalate_fields, ← entry.homeCells_eq hhome []]
  · intro h junk before buf
    have hcells := entry.homeCells_eq h.home junk
    have hroom := h.room
    rw [entry.intercalate_fields] at hroom
    refine (entry.isEntry_iff machine h.name junk before buf).mpr ⟨?_, ?_, ?_⟩
    · rwa [hcells]
    · rw [hcells, text_append_of_not_mem entry.zero_not_mem_homeDir,
        text_of_not_mem entry.zero_not_mem_lastField]
    · exact (entry.colon_not_mem_fields_iff machine).mpr ⟨h.account, h.password, h.comment⟩

theorem isText_nil {α : Type} [Zero α] {size : Nat} (h : 0 < size) :
    IsText size ([] : List α) := ⟨List.not_mem_nil, h⟩

theorem isText_replicate {α : Type} [Zero α] {size n : Nat} {c : α} (hc : c ≠ 0) (h : n < size) :
    IsText size (List.replicate n c) := by
  refine ⟨fun hmem => hc (List.eq_of_mem_replicate hmem).symm, ?_⟩
  rwa [List.length_replicate]

theorem length_machine_le : [21, 1, 2, 3, (0 : UInt32)].length ≤ 8 := by decide

/-- The identifier of the machine `5-21-1-2-3`. -/
def theMachine : SID8 := mkSid 5 [21, 1, 2, 3, 0] length_machine_le

/-- An account of the machine. -/
def someAccount (account : List UInt16) (comment : List UInt8) (home : List UInt16)
    (account_text : IsText maxName account) (comment_text : IsText maxComment comment)
    (home_text : IsText maxPath home) : WinPwent where
  userSid := theMachine.setRid 1000
  groupSid := mkSid 5 [32, 545] (length_pair_le _ _)
  integrity := 0x2000
  change := 0
  expire := 0xFFFFFFFF
  account := account
  password := []
  comment := comment
  home := home
  account_text := account_text
  password_text := isText_nil (Nat.zero_lt_succ _)
  comment_text := comment_text
  home_text := home_text

theorem u_isText : IsText maxName [(117 : UInt16)] := ⟨by decide, by decide⟩
theorem comment_isText : IsText maxComment [(97 : UInt8), 58, 98] := ⟨by decide, by decide⟩
theorem link_isText : IsText maxPath [(67 : UInt16), 58, 92, 97, 46, 108, 110, 107] :=
  ⟨by decide, by decide⟩

/-- The comment `a:b`. -/
def commentAccount : WinPwent :=
  someAccount [117] [97, 58, 98] [] u_isText comment_isText (isText_nil (Nat.zero_lt_succ _))

/-- The home directory `C:\a.lnk`. -/
def linkAccount : WinPwent :=
  someAccount [117] [] [67, 58, 92, 97, 46, 108, 110, 107] u_isText
    (isText_nil (Nat.zero_lt_succ _)) link_isText

theorem longComment_isText : IsText maxComment (List.replicate 159 (97 : UInt8)) :=
  isText_replicate (by decide) (by decide)

theorem longName_isText : IsText maxName (List.replicate 63 (97 : UInt16)) :=
  isText_replicate (by decide) (by decide)

/-- A name of 63 letters, and a comment of 159. -/
def longAccount : WinPwent :=
  someAccount (List.replicate 63 97) (List.replicate 159 97) [] longName_isText
    longComment_isText (isText_nil (Nat.zero_lt_succ _))

theorem euro_isText : IsText maxName (List.replicate 22 (0x20AC : UInt16)) :=
  isText_replicate (by decide) (by decide)

/-- A name of 22 characters, each with three bytes. -/
def euroAccount : WinPwent :=
  someAccount (List.replicate 22 0x20AC) [] [] euro_isText (isText_nil (Nat.zero_lt_succ _))
    (isText_nil (Nat.zero_lt_succ _))

/-- A colon makes one field more, a link ends the line before its last field, a long line
goes on behind the buffer, and the separator behind a name that cannot be converted is stored
in front of it. -/
theorem passwd_not_entries :
    text ((passwdPosix theMachine [] commentAccount ⟨[0], [], 1⟩).cells.drop 1) =
      [117, 58, 58, 53, 50, 49, 48, 48, 49, 48, 48, 48, 58, 53, 51, 50, 48, 48, 48, 53, 52, 53,
        58, 100, 101, 102, 97, 117, 108, 116, 58, 48, 58, 52, 50, 57, 52, 57, 54, 55, 50, 57, 53,
        58, 97, 58, 98, 58, 47, 104, 111, 109, 101, 47, 117, 58, 47, 98, 105, 110, 47, 107, 115,
        104] ∧
      text ((passwdPosix theMachine [] linkAccount ⟨[0], [], 1⟩).cells.drop 1) =
        [117, 58, 58, 53, 50, 49, 48, 48, 49, 48, 48, 48, 58, 53, 51, 50, 48, 48, 48, 53, 52, 53,
          58, 100, 101, 102, 97, 117, 108, 116, 58, 48, 58, 52, 50, 57, 52, 57, 54, 55, 50, 57,
          53, 58, 58, 47, 109, 110, 116, 47, 67, 47, 97] ∧
      ¬GetsEntry theMachine commentAccount 255 ∧ ¬GetsEntry theMachine linkAccount 255 ∧
      ¬GetsEntry theMachine longAccount 255 ∧ ¬GetsEntry theMachine euroAccount 255 := by
  refine ⟨by decide +kernel, by decide +kernel, fun h => ?_, fun h => ?_, fun h => ?_,
    fun h => ?_⟩
  · exact absurd (h [] 0 []).fields (by decide +kernel)
  · exact absurd (h [] 0 []).fields (by decide +kernel)
  · exact absurd (h [] 0 []).inside (by decide +kernel)
  · exact absurd (h [] 0 []).inside (by decide +kernel)

end MinC.Sys
