import MinC.Lib.Memory
import MinC.Sys.Socket

/-!
Control data.

The control messages of a header are translated in the bytes where they are, one
after the other. The next one is found by the length of the one before, which no
translation changes. So where no message is in another one, all are found again on
the way back. What one task has translated and another one translates back is the
same if the types are, and if a descriptor that is passed has its number in the
other task too.
-/

namespace MinC.Sys

open MinC.Lib MinC.Win MinC.Vfs

/-! ### Control messages in memory -/

/-- The macros that go through control data of a length: to the first message, from one
at an offset, of which the length is read, to the next, and to the data of a message. -/
structure CmsgMacros where
  firsthdr : Nat → Option Nat
  nxthdr : Nat → Nat → UInt32 → Option Nat
  data : Nat
  le_data : 12 ≤ data

def wordAt (mem : Memory) (a : Nat) : UInt32 := UInt32.ofNat (loadWord mem a)

/-- The message passes a descriptor. -/
def Cmsghdr.Rights (cmsg : Cmsghdr) : Prop := cmsg.level = solSocket ∧ cmsg.type = scmRights

instance Cmsghdr.decidableRights (cmsg : Cmsghdr) : Decidable cmsg.Rights :=
  inferInstanceAs (Decidable (_ ∧ _))

/-- The type of the message is one of a protocol. -/
def Cmsghdr.Typed (cmsg : Cmsghdr) : Prop :=
  cmsg.level = ipprotoIp ∨ cmsg.level = ipprotoIpv6

instance Cmsghdr.decidableTyped (cmsg : Cmsghdr) : Decidable cmsg.Typed :=
  inferInstanceAs (Decidable (_ ∨ _))

theorem Cmsghdr.Rights.not_typed {cmsg : Cmsghdr} (h : cmsg.Rights) : ¬ cmsg.Typed := by
  rw [Cmsghdr.Typed, h.1]
  decide

section
variable (macros : CmsgMacros)

/-- The message at an offset. Its data are looked at only if it passes a descriptor. -/
def cmsgAt (mem : Memory) (o : Nat) : Cmsghdr where
  level := wordAt mem (o + 4)
  type := wordAt mem (o + 8)
  word :=
    if wordAt mem (o + 4) = solSocket ∧ wordAt mem (o + 8) = scmRights then
      wordAt mem (o + macros.data)
    else 0
  rest := []

/-- Store what a message was translated to. There is no memory behind the control data. -/
def putCmsg (size : Nat) (mem : Memory) (o : Nat) (cmsg translated : Cmsghdr) : Option Memory :=
  if cmsg.Rights then
    if o + macros.data + 4 ≤ size then
      some (storeWord mem (o + macros.data) translated.word.toNat)
    else none
  else if cmsg.Typed then some (storeWord mem (o + 8) translated.type.toNat)
  else some mem

/-- The loop of both translations, from a message on. It has no end where a message is its
own next one. -/
def cmsgLoop (translate : Nat → TaskFds → Cmsghdr → Cmsghdr × TaskFds) (size : Nat) :
    Nat → Nat → TaskFds → Memory → Option Nat → Option (Memory × TaskFds)
  | _, _, s, mem, none => some (mem, s)
  | 0, _, _, _, some _ => none
  | fuel + 1, k, s, mem, some o =>
      if o + 12 ≤ size then
        let translated := translate k s (cmsgAt macros mem o)
        (putCmsg macros size mem o (cmsgAt macros mem o) translated.1).bind fun mem =>
          cmsgLoop translate size fuel (k + 1) translated.2 mem
            (macros.nxthdr size o (wordAt mem o))
      else none

variable (env : SocketEnv) (size fuel : Nat) (s : TaskFds) (mem : Memory)

/-- `cmsghdr_win` on control data of a size. -/
def cmsghdrWinAt : Option (Memory × TaskFds) :=
  cmsgLoop macros (cmsgWin env) size fuel 0 s mem (macros.firsthdr size)

/-- `cmsghdr_posix` on control data of a size. -/
def cmsghdrPosixAt : Option (Memory × TaskFds) :=
  cmsgLoop macros (fun _ => cmsgPosix env) size fuel 0 s mem (macros.firsthdr size)

end

/-! ### Messages apart from each other -/

/-- The bytes of the message that are looked at. -/
def Cmsghdr.extent (macros : CmsgMacros) (cmsg : Cmsghdr) : Nat :=
  if cmsg.Rights then macros.data + 4 else 12

/-- A byte that the translation of a message at an offset stores. -/
def Cmsghdr.Stores (macros : CmsgMacros) (cmsg : Cmsghdr) (o b : Nat) : Prop :=
  cmsg.Rights ∧ o + macros.data ≤ b ∧ b < o + macros.data + 4 ∨
    cmsg.Typed ∧ o + 8 ≤ b ∧ b < o + 12

section
variable (macros : CmsgMacros)

theorem Cmsghdr.le_extent (cmsg : Cmsghdr) : 12 ≤ cmsg.extent macros := by
  have hdata := macros.le_data
  rw [Cmsghdr.extent]
  split_ifs
  · omega
  · exact Nat.le_refl 12

/-- A translation stores behind the length and the level of a message. -/
theorem Cmsghdr.Stores.bounds {macros : CmsgMacros} {cmsg : Cmsghdr} {o b : Nat}
    (h : cmsg.Stores macros o b) : o + 8 ≤ b ∧ b < o + cmsg.extent macros := by
  have hdata := macros.le_data
  rcases h with ⟨hrights, hlow, hhigh⟩ | ⟨-, hlow, hhigh⟩
  · rw [Cmsghdr.extent, if_pos hrights]
    omega
  · have hextent := cmsg.le_extent macros
    omega

/-- The macros lead from one offset to the next, and then to none. -/
def Walk (size : Nat) (mem : Memory) : List Nat → Option Nat → Prop
  | [], start => start = none
  | o :: offsets, start =>
      start = some o ∧ Walk size mem offsets (macros.nxthdr size o (wordAt mem o))

/-- The messages at the offsets are those that are gone through. All are inside of the
control data, and none is in another one. -/
structure Separate (size : Nat) (mem : Memory) (offsets : List Nat) (start : Option Nat) :
    Prop where
  walk : Walk macros size mem offsets start
  inside : ∀ o ∈ offsets, o + (cmsgAt macros mem o).extent macros ≤ size
  apart : offsets.Pairwise fun o o' => o + (cmsgAt macros mem o).extent macros ≤ o'

theorem wordAt_congr {mem mem' : Memory} {a : Nat} (h : ∀ i, i < 4 → mem' (a + i) = mem (a + i)) :
    wordAt mem' a = wordAt mem a :=
  congrArg UInt32.ofNat (loadWord_congr h)

theorem eq_of_wordAt_eq {mem mem' : Memory} {a : Nat} (h : wordAt mem' a = wordAt mem a) {i : Nat}
    (hi : i < 4) : mem' (a + i) = mem (a + i) := by
  have hword := congrArg UInt32.toNat h
  rw [wordAt, wordAt, UInt32.toNat_ofNat_of_lt' (loadWord_lt mem' a),
    UInt32.toNat_ofNat_of_lt' (loadWord_lt mem a)] at hword
  exact eq_of_loadWord_eq hword hi

theorem wordAt_storeWord (mem : Memory) (a : Nat) (word : UInt32) :
    wordAt (storeWord mem a word.toNat) a = word := by
  rw [wordAt, loadWord_storeWord mem a word.toNat_lt, UInt32.ofNat_toNat]

theorem wordAt_storeWord_of_disjoint (mem : Memory) {a b : Nat} (word : UInt32)
    (h : b + 4 ≤ a ∨ a + 4 ≤ b) : wordAt (storeWord mem a word.toNat) b = wordAt mem b :=
  congrArg UInt32.ofNat (loadWord_storeWord_of_disjoint mem _ h)

theorem cmsgAt_rights (mem : Memory) (o : Nat) :
    (cmsgAt macros mem o).Rights ↔
      wordAt mem (o + 4) = solSocket ∧ wordAt mem (o + 8) = scmRights := Iff.rfl

variable {macros}

/-- A message is the same where its bytes are. -/
theorem cmsgAt_congr {mem mem' : Memory} {o : Nat}
    (h : ∀ b, o ≤ b → b < o + (cmsgAt macros mem o).extent macros → mem' b = mem b) :
    cmsgAt macros mem' o = cmsgAt macros mem o := by
  have hextent := (cmsgAt macros mem o).le_extent macros
  have hlevel : wordAt mem' (o + 4) = wordAt mem (o + 4) :=
    wordAt_congr fun i hi => h _ (by omega) (by omega)
  have htype : wordAt mem' (o + 8) = wordAt mem (o + 8) :=
    wordAt_congr fun i hi => h _ (by omega) (by omega)
  unfold cmsgAt
  rw [hlevel, htype]
  by_cases hrights : wordAt mem (o + 4) = solSocket ∧ wordAt mem (o + 8) = scmRights
  · rw [Cmsghdr.extent, if_pos ((cmsgAt_rights macros mem o).mpr hrights)] at h
    rw [if_pos hrights, if_pos hrights,
      wordAt_congr fun i hi => h (o + macros.data + i) (by omega) (by omega)]
  · rw [if_neg hrights, if_neg hrights]

theorem Walk.congr {size : Nat} {mem mem' : Memory} {offsets : List Nat} {start : Option Nat}
    (hwalk : Walk macros size mem offsets start)
    (h : ∀ o ∈ offsets, wordAt mem' o = wordAt mem o) : Walk macros size mem' offsets start := by
  induction offsets generalizing start with
  | nil => exact hwalk
  | cons o offsets ih =>
      refine ⟨hwalk.1, ?_⟩
      rw [h o List.mem_cons_self]
      exact ih hwalk.2 fun o' hmem => h o' (List.mem_cons_of_mem o hmem)

/-- Messages are apart where all of their bytes are the same. -/
theorem Separate.congr {size : Nat} {mem mem' : Memory} {offsets : List Nat} {start : Option Nat}
    (hsep : Separate macros size mem offsets start)
    (h : ∀ o ∈ offsets, ∀ b, o ≤ b → b < o + (cmsgAt macros mem o).extent macros →
      mem' b = mem b) : Separate macros size mem' offsets start := by
  have hsame : ∀ o ∈ offsets, cmsgAt macros mem' o = cmsgAt macros mem o := fun o hmem =>
    cmsgAt_congr (h o hmem)
  refine ⟨hsep.walk.congr fun o hmem => wordAt_congr fun i hi => h o hmem _ (by omega) ?_, ?_, ?_⟩
  · have hextent := (cmsgAt macros mem o).le_extent macros
    omega
  · intro o hmem
    rw [hsame o hmem]
    exact hsep.inside o hmem
  · exact hsep.apart.imp_of_mem fun {o o'} hmem _ hle => by rwa [hsame o hmem]

theorem Separate.tail {size : Nat} {mem : Memory} {o : Nat} {offsets : List Nat}
    {start : Option Nat} (hsep : Separate macros size mem (o :: offsets) start) :
    Separate macros size mem offsets (macros.nxthdr size o (wordAt mem o)) where
  walk := hsep.walk.2
  inside := fun o' hmem => hsep.inside o' (List.mem_cons_of_mem o hmem)
  apart := (List.pairwise_cons.mp hsep.apart).2

/-! ### Translations -/

/-- What a translation changes: the data of a message that passes a descriptor, and the
type of one with a type of a protocol. -/
structure Translates (translate : Nat → TaskFds → Cmsghdr → Cmsghdr × TaskFds) : Prop where
  level : ∀ k s cmsg, (translate k s cmsg).1.level = cmsg.level
  type : ∀ k s cmsg, ¬ cmsg.Typed → (translate k s cmsg).1.type = cmsg.type
  word : ∀ k s cmsg, ¬ cmsg.Rights → (translate k s cmsg).1.word = cmsg.word
  rest : ∀ k s cmsg, (translate k s cmsg).1.rest = cmsg.rest

theorem translates_cmsgWin (env : SocketEnv) : Translates (cmsgWin env) where
  level := fun k s cmsg => by
    unfold cmsgWin soSockoptWin
    split_ifs <;> rfl
  type := fun k s cmsg htyped => by
    unfold cmsgWin soSockoptWin
    split_ifs with hsocket hrights hip hipv6
    · rfl
    · rfl
    · exact absurd (.inl hip) htyped
    · exact absurd (.inr hipv6) htyped
    · rfl
  word := fun k s cmsg hnot => by
    unfold cmsgWin soSockoptWin
    split_ifs with hsocket hrights
    · exact absurd ⟨hsocket, hrights⟩ hnot
    · rfl
    · rfl
    · rfl
    · rfl
  rest := fun k s cmsg => by
    unfold cmsgWin soSockoptWin
    split_ifs <;> rfl

theorem translates_cmsgPosix (env : SocketEnv) : Translates fun _ => cmsgPosix env where
  level := fun _ s cmsg => by
    unfold cmsgPosix soSockoptPosix
    split_ifs <;> rfl
  type := fun _ s cmsg htyped => by
    unfold cmsgPosix soSockoptPosix
    split_ifs with hsocket hrights hip hipv6
    · rfl
    · rfl
    · exact absurd (.inl hip) htyped
    · exact absurd (.inr hipv6) htyped
    · rfl
  word := fun _ s cmsg hnot => by
    unfold cmsgPosix soSockoptPosix
    split_ifs with hsocket hrights
    · exact absurd ⟨hsocket, hrights⟩ hnot
    · rfl
    · rfl
    · rfl
    · rfl
  rest := fun _ s cmsg => by
    unfold cmsgPosix soSockoptPosix
    split_ifs <;> rfl

section
variable {translate : Nat → TaskFds → Cmsghdr → Cmsghdr × TaskFds}

theorem Translates.typed_iff (htr : Translates translate) (k : Nat) (s : TaskFds)
    (cmsg : Cmsghdr) : (translate k s cmsg).1.Typed ↔ cmsg.Typed := by
  rw [Cmsghdr.Typed, Cmsghdr.Typed, htr.level]

theorem Translates.rights_iff (htr : Translates translate) (k : Nat) (s : TaskFds)
    (cmsg : Cmsghdr) : (translate k s cmsg).1.Rights ↔ cmsg.Rights := by
  rw [Cmsghdr.Rights, Cmsghdr.Rights, htr.level]
  refine and_congr_right fun hlevel => ?_
  rw [htr.type k s cmsg (by rw [Cmsghdr.Typed, hlevel]; decide)]

theorem Translates.extent_eq (htr : Translates translate) (k : Nat) (s : TaskFds)
    (cmsg : Cmsghdr) : (translate k s cmsg).1.extent macros = cmsg.extent macros := by
  rw [Cmsghdr.extent, Cmsghdr.extent]
  exact if_congr (htr.rights_iff k s cmsg) rfl rfl

theorem Translates.stores_iff (htr : Translates translate) (k : Nat) (s : TaskFds)
    (cmsg : Cmsghdr) (o b : Nat) :
    (translate k s cmsg).1.Stores macros o b ↔ cmsg.Stores macros o b := by
  rw [Cmsghdr.Stores, Cmsghdr.Stores, htr.rights_iff, htr.typed_iff]

/-- All messages are translated, one after the other. -/
def translateAll (translate : Nat → TaskFds → Cmsghdr → Cmsghdr × TaskFds) :
    Nat → TaskFds → List Cmsghdr → List Cmsghdr × TaskFds
  | _, s, [] => ([], s)
  | k, s, cmsg :: control =>
      let translated := translate k s cmsg
      let rest := translateAll translate (k + 1) translated.2 control
      (translated.1 :: rest.1, rest.2)

theorem cmsghdrWin_eq_translateAll (env : SocketEnv) (k : Nat) (s : TaskFds)
    (control : List Cmsghdr) :
    cmsghdrWin env k s control = translateAll (cmsgWin env) k s control := by
  induction control generalizing k s with
  | nil => rfl
  | cons cmsg control ih =>
      rw [cmsghdrWin, translateAll, ih]

theorem cmsghdrPosix_eq_translateAll (env : SocketEnv) (k : Nat) (s : TaskFds)
    (control : List Cmsghdr) :
    cmsghdrPosix env s control = translateAll (fun _ => cmsgPosix env) k s control := by
  induction control generalizing k s with
  | nil => rfl
  | cons cmsg control ih =>
      rw [cmsghdrPosix, translateAll, ih]

variable (macros)

/-- What a translated message stores, where there is room for it. -/
def storeCmsg (mem : Memory) (o : Nat) (cmsg translated : Cmsghdr) : Memory :=
  if cmsg.Rights then storeWord mem (o + macros.data) translated.word.toNat
  else if cmsg.Typed then storeWord mem (o + 8) translated.type.toNat
  else mem

/-- What the translations of messages at offsets store. -/
def storeAll (translate : Nat → TaskFds → Cmsghdr → Cmsghdr × TaskFds) :
    Nat → TaskFds → Memory → List Nat → Memory × TaskFds
  | _, s, mem, [] => (mem, s)
  | k, s, mem, o :: offsets =>
      let translated := translate k s (cmsgAt macros mem o)
      storeAll translate (k + 1) translated.2
        (storeCmsg macros mem o (cmsgAt macros mem o) translated.1) offsets

variable {macros}

theorem storeCmsg_of_not {mem : Memory} {o b : Nat} {cmsg : Cmsghdr} (h : ¬ cmsg.Stores macros o b)
    (translated : Cmsghdr) : storeCmsg macros mem o cmsg translated b = mem b := by
  unfold storeCmsg
  rw [Cmsghdr.Stores, not_or] at h
  split_ifs with hrights htyped
  · exact storeWord_outside mem _ (by
      have := not_and.mp h.1 hrights
      omega)
  · exact storeWord_outside mem _ (by
      have := not_and.mp h.2 htyped
      omega)
  · rfl

/-- The message that was stored is read. -/
theorem cmsgAt_storeCmsg (htr : Translates translate) (k : Nat) (s : TaskFds) (mem : Memory)
    (o : Nat) :
    cmsgAt macros (storeCmsg macros mem o (cmsgAt macros mem o)
      (translate k s (cmsgAt macros mem o)).1) o = (translate k s (cmsgAt macros mem o)).1 := by
  have hdata := macros.le_data
  have hlevel := htr.level k s (cmsgAt macros mem o)
  have htype := htr.type k s (cmsgAt macros mem o)
  have hword := htr.word k s (cmsgAt macros mem o)
  have hrest := htr.rest k s (cmsgAt macros mem o)
  generalize (translate k s (cmsgAt macros mem o)).1 = translated at *
  obtain ⟨level, type, word, rest⟩ := translated
  dsimp only at hlevel htype hword hrest
  unfold storeCmsg
  split_ifs with hrights htyped
  · obtain ⟨hsocket, hscm⟩ := (cmsgAt_rights macros mem o).mp hrights
    have htype := htype hrights.not_typed
    rw [hlevel, htype, hrest]
    unfold cmsgAt
    rw [wordAt_storeWord_of_disjoint mem _ (by omega),
      wordAt_storeWord_of_disjoint mem _ (by omega), wordAt_storeWord, if_pos ⟨hsocket, hscm⟩]
  · have hword := hword hrights
    have hnot : ¬ wordAt mem (o + 4) = solSocket := fun hsocket => by
      rw [Cmsghdr.Typed, show (cmsgAt macros mem o).level = _ from hsocket] at htyped
      exact absurd htyped (by decide)
    rw [hlevel, hword, hrest]
    unfold cmsgAt
    rw [wordAt_storeWord_of_disjoint mem _ (by omega), wordAt_storeWord,
      if_neg fun h => hnot h.1, if_neg fun h => hnot h.1]
  · rw [hlevel, htype htyped, hword hrights, hrest]

/-- The messages behind one are not touched by it. -/
theorem Separate.storeCmsg {size : Nat} {mem : Memory} {o : Nat} {offsets : List Nat}
    {start : Option Nat} (hsep : Separate macros size mem (o :: offsets) start)
    (translated : Cmsghdr) {o' b : Nat} (hmem : o' ∈ offsets) (hb : o' ≤ b) :
    storeCmsg macros mem o (cmsgAt macros mem o) translated b = mem b := by
  refine storeCmsg_of_not (fun hstores => ?_) translated
  have hle := (List.pairwise_cons.mp hsep.apart).1 o' hmem
  have hbounds := hstores.bounds
  omega

theorem Separate.stored {size : Nat} {mem : Memory} {o : Nat} {offsets : List Nat}
    {start : Option Nat} (hsep : Separate macros size mem (o :: offsets) start)
    (translated : Cmsghdr) :
    Separate macros size (Sys.storeCmsg macros mem o (cmsgAt macros mem o) translated) offsets
      (macros.nxthdr size o (wordAt mem o)) :=
  hsep.tail.congr fun _ hmem _ hlow _ => hsep.storeCmsg translated hmem hlow

theorem wordAt_storeCmsg (mem : Memory) (o : Nat) (cmsg translated : Cmsghdr) :
    wordAt (storeCmsg macros mem o cmsg translated) o = wordAt mem o :=
  wordAt_congr fun i hi => storeCmsg_of_not (fun hstores => by
    have hbounds := hstores.bounds
    omega) translated

/-- The loop ends where the messages are apart, after as many turns as there are. -/
theorem cmsgLoop_eq {size : Nat} {mem : Memory} {offsets : List Nat} {start : Option Nat}
    (hsep : Separate macros size mem offsets start) (fuel k : Nat) (s : TaskFds) :
    cmsgLoop macros translate size fuel k s mem start =
      if offsets.length ≤ fuel then some (storeAll macros translate k s mem offsets) else none := by
  induction offsets generalizing fuel k s mem start with
  | nil =>
      obtain rfl : start = none := hsep.walk
      rw [if_pos (show ([] : List Nat).length ≤ fuel from Nat.zero_le fuel)]
      cases fuel <;> rfl
  | cons o offsets ih =>
      obtain rfl : start = some o := hsep.walk.1
      cases fuel with
      | zero =>
          rw [if_neg (show ¬ (o :: offsets).length ≤ 0 from Nat.not_succ_le_zero _), cmsgLoop]
      | succ fuel =>
          have hinside := hsep.inside o List.mem_cons_self
          have hextent := (cmsgAt macros mem o).le_extent macros
          have hput : ∀ translated, putCmsg macros size mem o (cmsgAt macros mem o) translated =
              some (storeCmsg macros mem o (cmsgAt macros mem o) translated) := fun translated => by
            unfold putCmsg storeCmsg
            split_ifs with hrights hroom htyped
            · rfl
            · rw [Cmsghdr.extent, if_pos hrights] at hinside
              omega
            · rfl
            · rfl
          rw [cmsgLoop, if_pos (by omega)]
          dsimp only
          rw [hput, Option.bind_some, wordAt_storeCmsg, ih (hsep.stored _), storeAll,
            List.length_cons]
          exact if_congr (Nat.succ_le_succ_iff).symm rfl rfl

theorem cmsgLoop_length {size : Nat} {mem : Memory} {offsets : List Nat} {start : Option Nat}
    (hsep : Separate macros size mem offsets start)
    (translate : Nat → TaskFds → Cmsghdr → Cmsghdr × TaskFds) (k : Nat) (s : TaskFds) :
    cmsgLoop macros translate size offsets.length k s mem start =
      some (storeAll macros translate k s mem offsets) := by
  rw [cmsgLoop_eq hsep, if_pos (Nat.le_refl _)]

/-- What is stored are the messages as they are translated one after the other. -/
theorem storeAll_eq (htr : Translates translate) {size : Nat} {mem : Memory}
    {offsets : List Nat} {start : Option Nat} (hsep : Separate macros size mem offsets start)
    (k : Nat) (s : TaskFds) :
    (offsets.map (cmsgAt macros (storeAll macros translate k s mem offsets).1),
        (storeAll macros translate k s mem offsets).2) =
      translateAll translate k s (offsets.map (cmsgAt macros mem)) ∧
    ∀ b, (∀ o ∈ offsets, ¬ (cmsgAt macros mem o).Stores macros o b) →
      (storeAll macros translate k s mem offsets).1 b = mem b := by
  induction offsets generalizing k s mem start with
  | nil => exact ⟨rfl, fun _ _ => rfl⟩
  | cons o offsets ih =>
      have hstored := hsep.stored (translate k s (cmsgAt macros mem o)).1
      obtain ⟨hrest, hframe⟩ := ih hstored (k + 1) (translate k s (cmsgAt macros mem o)).2
      have hsame : ∀ o' ∈ offsets,
          cmsgAt macros (storeCmsg macros mem o (cmsgAt macros mem o)
            (translate k s (cmsgAt macros mem o)).1) o' = cmsgAt macros mem o' :=
        fun o' hmem => cmsgAt_congr fun b hlow _ => hsep.storeCmsg _ hmem hlow
      have hbehind := (List.pairwise_cons.mp hsep.apart).1
      -- the messages behind the first one store nothing in it
      have hhead : cmsgAt macros (storeAll macros translate k s mem (o :: offsets)).1 o =
          (translate k s (cmsgAt macros mem o)).1 := by
        rw [← cmsgAt_storeCmsg htr k s mem o]
        refine cmsgAt_congr fun b _ hhigh => hframe b fun o' hmem hstores => ?_
        rw [cmsgAt_storeCmsg htr, htr.extent_eq] at hhigh
        have hle := hbehind o' hmem
        have hbounds := hstores.bounds
        omega
      constructor
      · rw [List.map_cons, List.map_cons, hhead, translateAll]
        rw [← List.map_congr_left hsame, ← hrest]
        rfl
      · intro b hnot
        refine (hframe b fun o' hmem => ?_).trans
          (storeCmsg_of_not (hnot o List.mem_cons_self) (translate k s (cmsgAt macros mem o)).1)
        rw [hsame o' hmem]
        exact hnot o' (List.mem_cons_of_mem o hmem)

/-- Translated messages are where they were. -/
theorem Separate.storeAll (htr : Translates translate) {size : Nat} {mem : Memory}
    {offsets : List Nat} {start : Option Nat} (hsep : Separate macros size mem offsets start)
    (k : Nat) (s : TaskFds) :
    Separate macros size (Sys.storeAll macros translate k s mem offsets).1 offsets start := by
  induction offsets generalizing k s mem start with
  | nil => exact hsep
  | cons o offsets ih =>
      have hrest := ih (hsep.stored (translate k s (cmsgAt macros mem o)).1) (k + 1)
        (translate k s (cmsgAt macros mem o)).2
      obtain ⟨hmap, hframe⟩ := storeAll_eq htr hsep k s
      have hhead := (List.cons.inj (congrArg Prod.fst hmap)).1
      have hextent : (cmsgAt macros (Sys.storeAll macros translate k s mem (o :: offsets)).1
          o).extent macros = (cmsgAt macros mem o).extent macros :=
        (congrArg (fun cmsg => cmsg.extent macros) hhead).trans (htr.extent_eq k s _)
      have hbehind := (List.pairwise_cons.mp hsep.apart).1
      have hlen : wordAt (Sys.storeAll macros translate k s mem (o :: offsets)).1 o =
          wordAt mem o := by
        refine wordAt_congr fun i hi => hframe _ fun o' hmem hstores => ?_
        have hbounds := hstores.bounds
        have hlow := (cmsgAt macros mem o).le_extent macros
        rcases List.mem_cons.mp hmem with rfl | hmem
        · omega
        · have hle := hbehind o' hmem
          omega
      refine ⟨⟨hsep.walk.1, ?_⟩, fun o' hmem => ?_, List.pairwise_cons.mpr ⟨?_, hrest.apart⟩⟩
      · rw [hlen]
        exact hrest.walk
      · rcases List.mem_cons.mp hmem with rfl | hmem
        · rw [hextent]
          exact hsep.inside o' List.mem_cons_self
        · exact hrest.inside o' hmem
      · intro o' hmem
        rw [hextent]
        exact hbehind o' hmem

/-- A translated message stores where it did. -/
theorem stores_storeAll (htr : Translates translate) {size : Nat} {mem : Memory}
    {offsets : List Nat} {start : Option Nat} (hsep : Separate macros size mem offsets start)
    (k : Nat) (s : TaskFds) {o b : Nat} (hat : o ∈ offsets) :
    (cmsgAt macros (Sys.storeAll macros translate k s mem offsets).1 o).Stores macros o b ↔
      (cmsgAt macros mem o).Stores macros o b := by
  induction offsets generalizing k s mem start with
  | nil => exact absurd hat List.not_mem_nil
  | cons o' offsets ih =>
      rcases List.mem_cons.mp hat with rfl | hat
      · have hhead := (List.cons.inj (congrArg Prod.fst (storeAll_eq htr hsep k s).1)).1
        rw [hhead, htr.stores_iff]
      · have hsame : cmsgAt macros (storeCmsg macros mem o' (cmsgAt macros mem o')
            (translate k s (cmsgAt macros mem o')).1) o = cmsgAt macros mem o :=
          cmsgAt_congr fun b hlow _ => hsep.storeCmsg _ hat hlow
        rw [← hsame]
        exact ih (hsep.stored (translate k s (cmsgAt macros mem o')).1) _ _ hat

/-- Two memories in which the same messages are, and that are the same beside what is stored of
them, are the same. -/
theorem eq_of_cmsgAt_eq {mem mem' : Memory} {offsets : List Nat}
    (h : ∀ o ∈ offsets, cmsgAt macros mem' o = cmsgAt macros mem o) {b : Nat}
    (hframe : (∀ o ∈ offsets, ¬ (cmsgAt macros mem o).Stores macros o b) → mem' b = mem b) :
    mem' b = mem b := by
  by_cases hstores : ∃ o ∈ offsets, (cmsgAt macros mem o).Stores macros o b
  · obtain ⟨o, hmem, hstores⟩ := hstores
    have hsame := h o hmem
    rcases hstores with ⟨hrights, hlow, hhigh⟩ | ⟨-, hlow, hhigh⟩
    · have hword := congrArg Cmsghdr.word hsame
      have hrights' : (cmsgAt macros mem' o).Rights := hsame ▸ hrights
      unfold cmsgAt at hword
      dsimp only at hword
      rw [if_pos ((cmsgAt_rights macros mem o).mp hrights),
        if_pos ((cmsgAt_rights macros mem' o).mp hrights')] at hword
      obtain ⟨i, rfl⟩ := Nat.exists_eq_add_of_le hlow
      exact eq_of_wordAt_eq hword (by omega)
    · obtain ⟨i, rfl⟩ := Nat.exists_eq_add_of_le hlow
      exact eq_of_wordAt_eq (congrArg Cmsghdr.type hsame) (by omega)
  · exact hframe fun o hmem hat => hstores ⟨o, hmem, hat⟩

end

end

/-! ### What comes -/

/-- The number is that of the descriptor that is next, or of the error if there is none. -/
def Assigned (node : Nat → WinVnode) (word : UInt32) : Prop :=
  LowestFree (slotFree node) 0 openMax word.toNat ∨
    (∀ fd < openMax, slotFree node fd = false) ∧ word = UInt32.ofInt (-(emfile : Int))

theorem ofInt_fdPosix_iff (node : Nat → WinVnode) (v : WinVnode) (word : UInt32) :
    UInt32.ofInt (fdPosix node v 0).1 = word ↔ Assigned node word := by
  rcases fdPosix_cases node v 0 with ⟨fd, hlow, heq⟩ | ⟨hfull, heq⟩
  · have hfd : (UInt32.ofInt (fd : Int)).toNat = fd := by
      have hlt := hlow.lt_high
      rw [UInt32.ofInt, UInt32.toNat_ofNat', openMax] at *
      omega
    rw [heq, Assigned]
    constructor
    · rintro rfl
      dsimp only
      rw [hfd]
      exact .inl hlow
    · rintro (hword | ⟨hfull, -⟩)
      · have hsame : fd = word.toNat := by
          rcases Nat.lt_trichotomy fd word.toNat with hlt | heq | hlt
          · exact absurd hlow.isFree (by rw [hword.least fd (Nat.zero_le fd) hlt]; decide)
          · exact heq
          · exact absurd hword.isFree (by rw [hlow.least _ (Nat.zero_le _) hlt]; decide)
        apply UInt32.toNat_inj.mp
        dsimp only
        rw [hfd, hsame]
      · exact absurd hlow.isFree (by rw [hfull fd hlow.lt_high]; decide)
  · rw [heq, Assigned]
    constructor
    · rintro rfl
      exact .inr ⟨fun fd hfd => hfull fd (Nat.zero_le fd) hfd, rfl⟩
    · rintro (hword | ⟨-, rfl⟩)
      · exact absurd hword.isFree (by rw [hfull _ (Nat.zero_le _) hword.lt_high]; decide)
      · rfl

section
variable (env env' : SocketEnv)

/-- A control message comes to a task as it went: the descriptor that it passes is the next one
there, and the tables have its type on the way back too. -/
structure Cmsghdr.Comes (s' : TaskFds) (cmsg : Cmsghdr) : Prop where
  rights : cmsg.Rights → Assigned s'.node cmsg.word
  ip : cmsg.level = ipprotoIp →
    sockopt env' inSockoptPosix (sockopt env inSockoptWin cmsg.type) = cmsg.type
  ipv6 : cmsg.level = ipprotoIpv6 →
    sockopt env' in6SockoptPosix (sockopt env in6SockoptWin cmsg.type) = cmsg.type

/-- All come, each to the tables that those before it have left. -/
def AllCome : Nat → TaskFds → TaskFds → List Cmsghdr → Prop
  | _, _, _, [] => True
  | k, s, s', cmsg :: control =>
      cmsg.Comes env env' s' ∧
        AllCome (k + 1) (cmsgWin env k s cmsg).2 (cmsgPosix env' s' (cmsgWin env k s cmsg).1).2
          control

theorem comes_cmsg_iff (k : Nat) (s s' : TaskFds) (cmsg : Cmsghdr) :
    (cmsgPosix env' s' (cmsgWin env k s cmsg).1).1 = cmsg ↔ cmsg.Comes env env' s' := by
  have hlevels : solSocket ≠ ipprotoIp ∧ solSocket ≠ ipprotoIpv6 ∧ ipprotoIp ≠ ipprotoIpv6 := by
    decide
  by_cases hsocket : cmsg.level = solSocket
  · have hno : cmsg.Comes env env' s' ↔ (cmsg.Rights → Assigned s'.node cmsg.word) :=
      ⟨fun h => h.rights, fun h => ⟨h, fun hip => absurd (hsocket.symm.trans hip) hlevels.1,
        fun hipv6 => absurd (hsocket.symm.trans hipv6) hlevels.2.1⟩⟩
    rw [hno, Cmsghdr.Rights, cmsgWin, if_pos hsocket, soSockoptWin]
    split_ifs with htype
    · rw [cmsgPosix, if_pos hsocket, soSockoptPosix, if_pos htype]
      dsimp only
      rw [Cmsghdr.with_word, ofInt_fdPosix_iff]
      exact ⟨fun h _ => h, fun h => h ⟨hsocket, htype⟩⟩
    · rw [cmsgPosix, if_pos hsocket, soSockoptPosix, if_neg htype]
      exact iff_of_true rfl fun h => absurd h.2 htype
  · have hnot : ¬ cmsg.Rights := fun h => hsocket h.1
    by_cases hip : cmsg.level = ipprotoIp
    · have hno : cmsg.Comes env env' s' ↔
          sockopt env' inSockoptPosix (sockopt env inSockoptWin cmsg.type) = cmsg.type :=
        ⟨fun h => h.ip hip, fun h => ⟨fun hrights => absurd hrights hnot, fun _ => h,
          fun hipv6 => absurd (hip.symm.trans hipv6) hlevels.2.2⟩⟩
      rw [hno, cmsgWin, if_neg hsocket, if_pos hip, cmsgPosix, if_neg hsocket, if_pos hip]
      exact @Cmsghdr.with_type cmsg _
    · by_cases hipv6 : cmsg.level = ipprotoIpv6
      · have hno : cmsg.Comes env env' s' ↔
            sockopt env' in6SockoptPosix (sockopt env in6SockoptWin cmsg.type) = cmsg.type :=
          ⟨fun h => h.ipv6 hipv6, fun h => ⟨fun hrights => absurd hrights hnot,
            fun h => absurd h hip, fun _ => h⟩⟩
        rw [hno, cmsgWin, if_neg hsocket, if_neg hip, if_pos hipv6, cmsgPosix, if_neg hsocket,
          if_neg hip, if_pos hipv6]
        exact @Cmsghdr.with_type cmsg _
      · rw [cmsgWin, if_neg hsocket, if_neg hip, if_neg hipv6, cmsgPosix, if_neg hsocket,
          if_neg hip, if_neg hipv6]
        exact iff_of_true rfl ⟨fun hrights => absurd hrights hnot, fun h => absurd h hip,
          fun h => absurd h hipv6⟩

theorem allCome_iff (k : Nat) (s s' : TaskFds) (control : List Cmsghdr) :
    (cmsghdrPosix env' s' (cmsghdrWin env k s control).1).1 = control ↔
      AllCome env env' k s s' control := by
  induction control generalizing k s s' with
  | nil => exact ⟨fun _ => trivial, fun _ => rfl⟩
  | cons cmsg control ih =>
      rw [AllCome, ← ih (k + 1), ← comes_cmsg_iff env env' k s s' cmsg]
      exact List.cons_eq_cons

/-- The control data are what they were once they were translated there and back, if all
messages in them come as they went. -/
theorem control_kept_iff (macros : CmsgMacros) {size : Nat} {mem mem' : Memory}
    {offsets : List Nat} {start : Option Nat} (hsep : Separate macros size mem offsets start)
    (s s' : TaskFds)
    (hmem : ∀ b < size, mem' b = (storeAll macros (cmsgWin env) 0 s mem offsets).1 b) :
    (∀ b < size, (storeAll macros (fun _ => cmsgPosix env') 0 s' mem' offsets).1 b = mem b) ↔
      AllCome env env' 0 s s' (offsets.map (cmsgAt macros mem)) := by
  have hsent := storeAll_eq (translates_cmsgWin env) hsep 0 s
  have hthere := hsep.storeAll (translates_cmsgWin env) 0 s
  have hinside : ∀ o ∈ offsets, ∀ b, o ≤ b →
      b < o + (cmsgAt macros (storeAll macros (cmsgWin env) 0 s mem offsets).1 o).extent macros →
        mem' b = (storeAll macros (cmsgWin env) 0 s mem offsets).1 b := fun o hat b _ hhigh =>
    hmem b (Nat.lt_of_lt_of_le hhigh (hthere.inside o hat))
  have hback := storeAll_eq (translates_cmsgPosix env') (hthere.congr hinside) 0 s'
  have hread : ∀ o ∈ offsets, cmsgAt macros mem' o =
      cmsgAt macros (storeAll macros (cmsgWin env) 0 s mem offsets).1 o := fun o hat =>
    cmsgAt_congr (hinside o hat)
  rw [← allCome_iff env env' 0 s s', cmsghdrWin_eq_translateAll,
    cmsghdrPosix_eq_translateAll env' 0, ← hsent.1, ← List.map_congr_left hread, ← hback.1]
  dsimp only
  constructor
  · intro h
    exact List.map_congr_left fun o hat => cmsgAt_congr fun b _ hhigh =>
      h b (Nat.lt_of_lt_of_le hhigh (hsep.inside o hat))
  · intro h b hb
    refine eq_of_cmsgAt_eq (fun o hat => List.map_inj_left.mp h o hat) fun hnot => ?_
    have hstores : ∀ o ∈ offsets, ¬ (cmsgAt macros mem' o).Stores macros o b := fun o hat => by
      rw [hread o hat, stores_storeAll (translates_cmsgWin env) hsep 0 s hat]
      exact hnot o hat
    rw [hback.2 b hstores, hmem b hb, hsent.2 b hnot]

end

end MinC.Sys
