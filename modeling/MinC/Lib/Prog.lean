import MinC.Lib.Runs
import Mathlib.Logic.Function.Basic

/-!
Calls that are done in several requests.

A call makes one request after the other, and how it goes on depends on the
replies. Many tasks make calls at the same time. The server takes one request at
a time, from any of them: it has a state that all of them share, and cells, of
which each call uses one.

Next to this stands a machine in which a call is done at once, at some moment
between its beginning and its return. Where no request comes in between those of
another call on the same cell, nobody sees the difference: the calls and what
they return are those of the second machine. It is enough to look at each call
alone, and to show that it has its effect at one of its requests and that what
it does to its cell before and after is undone.
-/

namespace MinC.Lib

/-- What is left of a call: what it returns, or its next request, and how it goes on
with the reply. -/
inductive Prog {ρ : Type} (α : ρ → Type) (β : Type)
  | done (result : β)
  | ask (request : ρ) (next : α request → Prog α β)

namespace Prog

variable {ρ : Type} {α : ρ → Type} {β γ : Type}

def bind : Prog α β → (β → Prog α γ) → Prog α γ
  | .done result, f => f result
  | .ask request next, f => .ask request fun reply => (next reply).bind f

instance instMonadProg : Monad (Prog α) where
  pure := .done
  bind := bind

/-- Make one request. -/
def request (r : ρ) : Prog α (α r) := .ask r .done

@[simp] theorem pure_eq (result : β) : (pure result : Prog α β) = .done result := rfl

@[simp] theorem done_bind (result : β) (f : β → Prog α γ) :
    (Prog.done result >>= f) = f result := rfl

@[simp] theorem request_bind (r : ρ) (f : α r → Prog α γ) :
    (request r >>= f) = .ask r f := rfl

theorem bind_assoc {δ : Type} (p : Prog α β) (f : β → Prog α γ) (g : γ → Prog α δ) :
    p >>= f >>= g = p >>= fun x => f x >>= g := by
  induction p with
  | done result => rfl
  | ask r next ih => exact congrArg (Prog.ask r) (funext ih)

/-- There is a request to be made. -/
def asks : Prog α β → Bool
  | .done _ => false
  | .ask _ _ => true

end Prog

/-! ### Tasks that make requests -/

structure Running (κ γ : Type) {ρ : Type} (α : ρ → Type) (β : Type) where
  cell : κ
  call : γ
  begun : Bool
  left : Prog α β

/-- Some of the requests were made, and some were not. -/
def Running.amid {κ γ ρ β : Type} {α : ρ → Type} (r : Running κ γ α β) : Bool :=
  r.begun && r.left.asks

structure CallSystem (κ γ σ π : Type) {ρ : Type} (α : ρ → Type) (β : Type) where
  shared : σ
  cell : κ → π
  running : Nat → Option (Running κ γ α β)

/-- A task makes a call, or goes on with the one it is in. -/
inductive CallEvent (κ γ ω : Type)
  | calls (task : Nat) (cell : κ) (call : γ)
  | goes (task : Nat) (fate : ω)

/-- What can be seen of a call. -/
inductive Shown (κ γ β : Type)
  | called (task : Nat) (cell : κ) (call : γ)
  | returned (task : Nat) (result : β)
  deriving DecidableEq

section
variable {κ γ σ π ρ β ω τ : Type} {α : ρ → Type}

section
variable [DecidableEq κ]
variable (serve : ω → (r : ρ) → σ → π → α r × σ × π) (program : γ → Prog α β)

namespace CallSystem

/-- The reply to a request on a cell, and what it leaves. -/
def serveOne (s : CallSystem κ γ σ π α β) (task : Nat) (r : Running κ γ α β) (request : ρ)
    (next : α request → Prog α β) (fate : ω) : CallSystem κ γ σ π α β :=
  let out := serve fate request s.shared (s.cell r.cell)
  { shared := out.2.1
    cell := Function.update s.cell r.cell out.2.2
    running := Function.update s.running task
      (some { r with begun := true, left := next out.1 }) }

def step (s : CallSystem κ γ σ π α β) :
    CallEvent κ γ ω → CallSystem κ γ σ π α β × Option (Shown κ γ β)
  | .calls task cell call =>
      match s.running task with
      | some _ => (s, none)
      | none =>
          ({ s with running :=
              Function.update s.running task (some ⟨cell, call, false, program call⟩) },
            some (.called task cell call))
  | .goes task fate =>
      match s.running task with
      | none => (s, none)
      | some r =>
          match r.left with
          | .done result =>
              ({ s with running := Function.update s.running task none },
                some (.returned task result))
          | .ask request next => (s.serveOne serve task r request next fate, none)

/-- What is seen of a run. -/
def trace (s : CallSystem κ γ σ π α β) : List (CallEvent κ γ ω) → List (Shown κ γ β)
  | [] => []
  | e :: es => (s.step serve program e).2.toList ++ trace (s.step serve program e).1 es

/-- No call on the cell has made only some of its requests, except perhaps this task's. -/
def Free (s : CallSystem κ γ σ π α β) (cell : κ) (task : Nat) : Prop :=
  ∀ other r, other ≠ task → s.running other = some r → r.amid = true → r.cell ≠ cell

/-- A request does not come in between those of another call on the same cell. -/
def Uninterrupted (s : CallSystem κ γ σ π α β) : CallEvent κ γ ω → Prop
  | .calls _ _ _ => True
  | .goes task _ => ∀ r, s.running task = some r → r.left.asks = true → s.Free r.cell task

end CallSystem
end

/-! ### Calls that are done at once -/

/-- What an atomic call is waiting for. -/
inductive Phased (κ γ β : Type)
  | idle
  | called (cell : κ) (call : γ)
  | answered (result : β)

structure AtomicState (κ γ τ π β : Type) where
  shared : τ
  cell : κ → π
  phase : Nat → Phased κ γ β

section
variable [DecidableEq κ] (effect : γ → τ → π → β → τ → π → Prop)

inductive AtomicStep :
    AtomicState κ γ τ π β → Option (Shown κ γ β) → AtomicState κ γ τ π β → Prop
  | calls {a : AtomicState κ γ τ π β} {task : Nat} (cell : κ) (call : γ)
      (hidle : a.phase task = .idle) :
      AtomicStep a (some (.called task cell call))
        { a with phase := Function.update a.phase task (.called cell call) }
  | works {a : AtomicState κ γ τ π β} {task : Nat} {cell : κ} {call : γ} {result : β}
      {shared : τ} {own : π} (hcalled : a.phase task = .called cell call)
      (heffect : effect call a.shared (a.cell cell) result shared own) :
      AtomicStep a none
        ⟨shared, Function.update a.cell cell own,
          Function.update a.phase task (.answered result)⟩
  | returns {a : AtomicState κ γ τ π β} {task : Nat} {result : β}
      (hanswered : a.phase task = .answered result) :
      AtomicStep a (some (.returned task result))
        { a with phase := Function.update a.phase task .idle }

inductive AtomicRun :
    AtomicState κ γ τ π β → List (Shown κ γ β) → AtomicState κ γ τ π β → Prop
  | nil (a : AtomicState κ γ τ π β) : AtomicRun a [] a
  | cons {a b c : AtomicState κ γ τ π β} {shown : Option (Shown κ γ β)}
      {rest : List (Shown κ γ β)} (hstep : AtomicStep effect a shown b)
      (hrest : AtomicRun b rest c) : AtomicRun a (shown.toList ++ rest) c

variable {effect}

theorem AtomicRun.append {a b c : AtomicState κ γ τ π β} {first rest : List (Shown κ γ β)}
    (hfirst : AtomicRun effect a first b) (hrest : AtomicRun effect b rest c) :
    AtomicRun effect a (first ++ rest) c := by
  induction hfirst with
  | nil a => exact hrest
  | cons hstep _ ih =>
      rw [List.append_assoc]
      exact .cons hstep (ih hrest)

theorem AtomicStep.run {a b : AtomicState κ γ τ π β} {shown : Option (Shown κ γ β)}
    (h : AtomicStep effect a shown b) : AtomicRun effect a shown.toList b := by
  have hrun := AtomicRun.cons h (.nil b)
  rwa [List.append_nil] at hrun

end

/-! ### From requests to calls -/

section
variable (serve : ω → (r : ρ) → σ → π → α r × σ × π) (program : γ → Prog α β) (abs : σ → τ)
  (effect : γ → τ → π → β → τ → π → Prop)

/-- What is left only brings the cell to where the effect has it, and returns the result. -/
def Owes (result : β) : Prog α β → π → π → Prop
  | .done returned, p, q => returned = result ∧ q = p
  | .ask request next, p, q => ∀ fate s,
      (serve fate request s p).2.1 = s ∧
        Owes result (next (serve fate request s p).1) (serve fate request s p).2.2 q

/-- One of the requests that are left has the effect of the call, seen from the cell `q`. -/
def Waits (call : γ) : Prog α β → π → π → Prop
  | .done _, _, _ => False
  | .ask request next, p, q => ∀ fate s,
      ((serve fate request s p).2.1 = s ∧
          Waits call (next (serve fate request s p).1) (serve fate request s p).2.2 q) ∨
        ∃ result own,
          effect call (abs s) q result (abs (serve fate request s p).2.1) own ∧
            Owes serve result (next (serve fate request s p).1) (serve fate request s p).2.2 own

/-- Done alone on its cell, a call has its effect at one moment. -/
def TakesEffect (call : γ) : Prog α β → Prop
  | .done result => ∀ shared own, effect call shared own result shared own
  | .ask request next => ∀ own, Waits serve abs effect call (.ask request next) own own

/-- How a call that was begun stands to the atomic one. -/
def Underway (r : Running κ γ α β) (p q : π) (phase : Phased κ γ β) : Prop :=
  phase = .called r.cell r.call ∧ Waits serve abs effect r.call r.left p q ∨
    ∃ result, phase = .answered result ∧
      (r.left.asks = true → Owes serve result r.left p q) ∧
        ∀ returned, r.left = .done returned → returned = result

/-- How the requests made so far stand to the calls done so far. -/
structure Simulated (s : CallSystem κ γ σ π α β) (a : AtomicState κ γ τ π β) : Prop where
  shared : a.shared = abs s.shared
  idle : ∀ task, s.running task = none → a.phase task = .idle
  fresh : ∀ task r, s.running task = some r → r.begun = false →
    r.left = program r.call ∧ a.phase task = .called r.cell r.call
  underway : ∀ task r, s.running task = some r → r.begun = true →
    Underway serve abs effect r (s.cell r.cell) (a.cell r.cell) (a.phase task)
  settled : ∀ cell, (∀ task r, s.running task = some r → r.amid = true → r.cell ≠ cell) →
    a.cell cell = s.cell cell
  alone : ∀ task r, s.running task = some r → r.amid = true → s.Free r.cell task

variable {serve program abs effect} {s : CallSystem κ γ σ π α β} {a : AtomicState κ γ τ π β}

/-- Which task a running call is of, after one of them was changed. -/
theorem running_cases {running : Nat → Option (Running κ γ α β)} {task other : Nat}
    {changed : Option (Running κ γ α β)} {r : Running κ γ α β}
    (h : Function.update running task changed other = some r) :
    (other = task ∧ changed = some r) ∨ (other ≠ task ∧ running other = some r) := by
  by_cases heq : other = task
  · rw [heq, Function.update_self] at h
    exact .inl ⟨heq, h⟩
  · rw [Function.update_of_ne heq] at h
    exact .inr ⟨heq, h⟩

theorem Waits.asks {call : γ} {left : Prog α β} {p q : π}
    (h : Waits serve abs effect call left p q) : left.asks = true := by
  cases left with
  | done result => exact h.elim
  | ask request next => rfl

theorem takesEffect_of_waits {call : γ} {left : Prog α β}
    (h : ∀ own, Waits serve abs effect call left own own) :
    TakesEffect serve abs effect call left := by
  cases left with
  | done result => exact fun _ own => (h own).elim
  | ask request next => exact h

theorem Owes.over {result : β} {left : Prog α β} {p q : π} (h : Owes serve result left p q)
    (hleft : left.asks = false) : q = p := by
  cases left with
  | done returned => exact h.2
  | ask request next => cases hleft

theorem Owes.underway {result : β} {r : Running κ γ α β} {p q : π}
    (h : Owes serve result r.left p q) :
    Underway serve abs effect r p q (.answered result) := by
  refine .inr ⟨result, rfl, fun _ => h, fun returned hleft => ?_⟩
  rw [hleft] at h
  exact h.1

/-- A call that has no request left does not look at its cell any more. -/
theorem Underway.over {r : Running κ γ α β} {p q p' q' : π} {phase : Phased κ γ β}
    (h : Underway serve abs effect r p q phase) (hleft : r.left.asks = false) :
    Underway serve abs effect r p' q' phase := by
  rcases h with ⟨_, hwaits⟩ | ⟨result, hphase, _, hdone⟩
  · exact absurd (hleft.symm.trans hwaits.asks) (by simp)
  · exact .inr ⟨result, hphase, fun hasks => absurd (hleft.symm.trans hasks) (by simp), hdone⟩

/-- Where no task is in a call, everything is as the calls done at once would have it. -/
theorem simulated_idle (hidle : ∀ task, s.running task = none) :
    Simulated serve program abs effect s ⟨abs s.shared, s.cell, fun _ => .idle⟩ := by
  constructor
  case shared => rfl
  case idle => exact fun _ _ => rfl
  case settled => exact fun _ _ => rfl
  all_goals
    intro task r hr
    cases (hidle task).symm.trans hr

/-- A call that has a request to make is waiting for its effect, or has had it. -/
theorem Simulated.stands (h : Simulated serve program abs effect s a)
    (heffects : ∀ call, TakesEffect serve abs effect call (program call)) {task : Nat}
    {r : Running κ γ α β} (hr : s.running task = some r) (hfree : s.Free r.cell task)
    (hasks : r.left.asks = true) :
    Underway serve abs effect r (s.cell r.cell) (a.cell r.cell) (a.phase task) := by
  cases hbegun : r.begun with
  | true => exact h.underway task r hr hbegun
  | false =>
      obtain ⟨hleft, hphase⟩ := h.fresh task r hr hbegun
      have hcell : a.cell r.cell = s.cell r.cell := by
        refine h.settled r.cell fun t r2 ht hamid => ?_
        by_cases heq : t = task
        · cases hr.symm.trans (heq ▸ ht)
          rw [Running.amid, hbegun] at hamid
          cases hamid
        · exact hfree t r2 heq ht hamid
      refine .inl ⟨hphase, ?_⟩
      have htakes := heffects r.call
      rw [← hleft] at htakes
      rw [hcell]
      cases hprog : r.left with
      | done result =>
          rw [hprog] at hasks
          cases hasks
      | ask request next =>
          rw [hprog] at htakes
          exact htakes (s.cell r.cell)

/-- A task begins a call, or returns from one. -/
theorem Simulated.turns (h : Simulated serve program abs effect s a) {task : Nat}
    {v : Option (Running κ γ α β)} {phase : Phased κ γ β}
    (hold : ∀ r, s.running task = some r → r.amid = false)
    (hnew : v = none ∧ phase = .idle ∨
      ∃ cell call, v = some ⟨cell, call, false, program call⟩ ∧ phase = .called cell call) :
    Simulated serve program abs effect { s with running := Function.update s.running task v }
      { a with phase := Function.update a.phase task phase } := by
  have hbegun : ∀ r, v = some r → r.begun = false := by
    rintro r rfl
    rcases hnew with ⟨hnone, _⟩ | ⟨cell, call, hsome, _⟩
    · cases hnone
    · cases hsome
      rfl
  -- the calls that have made some of their requests are those of before
  have hamid : ∀ {t r}, Function.update s.running task v t = some r → r.amid = true →
      t ≠ task ∧ s.running t = some r := by
    intro t r ht hr
    rcases running_cases ht with ⟨_, heq⟩ | hother
    · rw [Running.amid, hbegun r heq] at hr
      cases hr
    · exact hother
  constructor
  case shared => exact h.shared
  case idle =>
    intro t ht
    dsimp only at ht ⊢
    by_cases heq : t = task
    · rw [heq, Function.update_self] at ht ⊢
      rcases hnew with ⟨_, hphase⟩ | ⟨cell, call, hsome, _⟩
      · exact hphase
      · cases ht.symm.trans hsome
    · rw [Function.update_of_ne heq] at ht ⊢
      exact h.idle t ht
  case fresh =>
    intro t r ht hr
    rcases running_cases ht with ⟨rfl, heq⟩ | ⟨hne, ht⟩
    · rcases hnew with ⟨hnone, _⟩ | ⟨cell, call, hsome, hphase⟩
      · cases hnone.symm.trans heq
      · cases hsome.symm.trans heq
        exact ⟨rfl, (Function.update_self ..).trans hphase⟩
    · dsimp only
      rw [Function.update_of_ne hne]
      exact h.fresh t r ht hr
  case underway =>
    intro t r ht hr
    rcases running_cases ht with ⟨_, heq⟩ | ⟨hne, ht⟩
    · cases hr.symm.trans (hbegun r heq)
    · dsimp only
      rw [Function.update_of_ne hne]
      exact h.underway t r ht hr
  case settled =>
    intro cell hnone
    refine h.settled cell fun t r ht hr => hnone t r ?_ hr
    have hne : t ≠ task := by
      rintro rfl
      cases hr.symm.trans (hold r ht)
    exact (Function.update_of_ne hne ..).trans ht
  case alone =>
    intro t r ht hr other r2 hother ho hr2
    exact h.alone t r (hamid ht hr).2 hr other r2 hother (hamid ho hr2).2 hr2

variable [DecidableEq κ]

/-- A request was served: what its call has become stands to the atomic call, and the others
are as they were. -/
theorem Simulated.served (h : Simulated serve program abs effect s a) {task : Nat}
    {r : Running κ γ α β} (hr : s.running task = some r) (hfree : s.Free r.cell task)
    (left : Prog α β) (shared : σ) {own q : π} {phase : Phased κ γ β}
    (hunder : Underway serve abs effect { r with begun := true, left := left } own q phase)
    (hsettled : left.asks = false → q = own) :
    Simulated serve program abs effect
      ⟨shared, Function.update s.cell r.cell own,
        Function.update s.running task (some { r with begun := true, left := left })⟩
      ⟨abs shared, Function.update a.cell r.cell q, Function.update a.phase task phase⟩ where
  shared := rfl
  idle := fun t ht => by
    dsimp only at ht ⊢
    by_cases heq : t = task
    · rw [heq, Function.update_self] at ht
      cases ht
    · rw [Function.update_of_ne heq] at ht ⊢
      exact h.idle t ht
  fresh := fun t r2 ht hbegun => by
    dsimp only
    rcases running_cases ht with ⟨_, heq⟩ | ⟨hne, hold⟩
    · cases heq
      cases hbegun
    · rw [Function.update_of_ne hne]
      exact h.fresh t r2 hold hbegun
  underway := fun t r2 ht hbegun => by
    dsimp only
    rcases running_cases ht with ⟨rfl, heq⟩ | ⟨hne, hold⟩
    · cases heq
      simpa using hunder
    · have hunder2 := h.underway t r2 hold hbegun
      rw [Function.update_of_ne hne]
      -- only a call that has requests left must be on another cell
      by_cases hasks : r2.left.asks = true
      · have hcell := hfree t r2 hne hold (by rw [Running.amid, hbegun, hasks]; rfl)
        rwa [Function.update_of_ne hcell, Function.update_of_ne hcell]
      · exact hunder2.over (by simpa using hasks)
  settled := fun cell hnone => by
    dsimp only at hnone ⊢
    by_cases hcell : cell = r.cell
    · have hover : left.asks = false := by
        have hamid := hnone task _ (Function.update_self ..)
        by_contra hasks
        exact hamid (by simpa [Running.amid] using hasks) hcell.symm
      rw [hcell, Function.update_self, Function.update_self]
      exact hsettled hover
    · rw [Function.update_of_ne hcell, Function.update_of_ne hcell]
      refine h.settled cell fun t r2 ht hamid => ?_
      by_cases heq : t = task
      · cases hr.symm.trans (heq ▸ ht)
        exact fun hsame => hcell hsame.symm
      · exact hnone t r2 (by rw [Function.update_of_ne heq]; exact ht) hamid
  alone := fun t r2 ht hamid other r3 hother ho hamid3 => by
    rcases running_cases ht with ⟨rfl, heq⟩ | ⟨hne, hold⟩
    · cases heq
      rcases running_cases ho with ⟨heq, _⟩ | ⟨_, hold3⟩
      · exact absurd heq hother
      · exact hfree other r3 hother hold3 hamid3
    · rcases running_cases ho with ⟨_, heq⟩ | ⟨_, hold3⟩
      · cases heq
        exact fun hcell => hfree t r2 hne hold hamid hcell.symm
      · exact h.alone t r2 hold hamid other r3 hother hold3 hamid3

theorem Simulated.asks (h : Simulated serve program abs effect s a)
    (heffects : ∀ call, TakesEffect serve abs effect call (program call)) {task : Nat}
    {r : Running κ γ α β} (hr : s.running task = some r) (hfree : s.Free r.cell task)
    {request : ρ} {next : α request → Prog α β} (hleft : r.left = .ask request next)
    (fate : ω) :
    ∃ b, AtomicRun effect a [] b ∧
      Simulated serve program abs effect (s.serveOne serve task r request next fate) b := by
  have hunder := h.stands heffects hr hfree (by rw [hleft]; rfl)
  have hshared := h.shared
  -- a step that is not the one with the effect leaves the atomic call where it is
  have hstays : ∀ {left : Prog α β} {own : π},
      Underway serve abs effect { r with begun := true, left := left } own (a.cell r.cell)
        (a.phase task) → (left.asks = false → a.cell r.cell = own) →
      Simulated serve program abs effect
        ⟨s.shared, Function.update s.cell r.cell own,
          Function.update s.running task (some { r with begun := true, left := left })⟩ a := by
    intro left own hnew hsettled
    have hserved := h.served hr hfree left s.shared hnew hsettled
    rwa [Function.update_eq_self, Function.update_eq_self, ← hshared] at hserved
  rcases hunder with ⟨hphase, hwaits⟩ | ⟨result, hphase, howes, _⟩
  · rw [hleft] at hwaits
    rcases hwaits fate s.shared with ⟨hsame, hwaits⟩ | ⟨result, own, heffect, howes⟩
    · refine ⟨a, .nil a, ?_⟩
      rw [CallSystem.serveOne, hsame]
      exact hstays (.inl ⟨hphase, hwaits⟩) fun hover =>
        absurd (hover.symm.trans hwaits.asks) (by simp)
    · rw [← hshared] at heffect
      exact ⟨_, (AtomicStep.works hphase heffect).run,
        h.served hr hfree _ _ howes.underway howes.over⟩
  · have hnext := howes (by rw [hleft]; rfl)
    rw [hleft] at hnext
    obtain ⟨hsame, hnext⟩ := hnext fate s.shared
    refine ⟨a, .nil a, ?_⟩
    rw [CallSystem.serveOne, hsame]
    exact hstays (hphase ▸ hnext.underway) hnext.over

/-- What a call returns that has no request left. -/
theorem Simulated.returns (h : Simulated serve program abs effect s a)
    (heffects : ∀ call, TakesEffect serve abs effect call (program call)) {task : Nat}
    {r : Running κ γ α β} (hr : s.running task = some r) {result : β}
    (hleft : r.left = .done result) :
    ∃ b, AtomicRun effect a [.returned task result] b ∧
      Simulated serve program abs effect
        { s with running := Function.update s.running task none } b := by
  have hturns : Simulated serve program abs effect
      { s with running := Function.update s.running task none }
      { a with phase := Function.update a.phase task .idle } := by
    refine h.turns (fun r2 hr2 => ?_) (.inl ⟨rfl, rfl⟩)
    cases hr.symm.trans hr2
    rw [Running.amid, hleft]
    exact Bool.and_false _
  refine ⟨_, ?_, hturns⟩
  cases hbegun : r.begun with
  | true =>
      rcases h.underway task r hr hbegun with ⟨_, hwaits⟩ | ⟨result', hphase, _, hdone⟩
      · have hasks := hwaits.asks
        rw [hleft] at hasks
        cases hasks
      · rw [hdone result hleft]
        exact (AtomicStep.returns hphase).run
  | false =>
      -- a call without requests has its effect now, and changes nothing
      obtain ⟨hprog, hphase⟩ := h.fresh task r hr hbegun
      have htakes := heffects r.call
      rw [← hprog, hleft] at htakes
      have hworks := AtomicStep.works hphase (htakes a.shared (a.cell r.cell))
      rw [Function.update_eq_self] at hworks
      have hreturns : AtomicStep effect
          { a with phase := Function.update a.phase task (.answered result) }
          (some (.returned task result))
          { a with phase := Function.update a.phase task .idle } := by
        rw [← Function.update_idem (.answered result) (.idle) a.phase]
        exact .returns (Function.update_self ..)
      exact hworks.run.append hreturns.run

theorem Simulated.step (h : Simulated serve program abs effect s a)
    (heffects : ∀ call, TakesEffect serve abs effect call (program call))
    (e : CallEvent κ γ ω) (hfree : s.Uninterrupted e) :
    ∃ b, AtomicRun effect a (s.step serve program e).2.toList b ∧
      Simulated serve program abs effect (s.step serve program e).1 b := by
  cases e with
  | calls task cell call =>
      rw [CallSystem.step]
      cases hr : s.running task with
      | some r => exact ⟨a, .nil a, h⟩
      | none =>
          refine ⟨_, (AtomicStep.calls cell call (h.idle task hr)).run,
            h.turns (fun r hr' => ?_) (.inr ⟨cell, call, rfl, rfl⟩)⟩
          cases hr.symm.trans hr'
  | goes task fate =>
      rw [CallSystem.step]
      cases hr : s.running task with
      | none => exact ⟨a, .nil a, h⟩
      | some r =>
          dsimp only
          cases hleft : r.left with
          | done result => exact h.returns heffects hr hleft
          | ask request next =>
              exact h.asks heffects hr (hfree r hr (by rw [hleft]; rfl)) hleft fate

/-- The calls and results of an uninterrupted run are those of calls that are done at once. -/
theorem Simulated.run (h : Simulated serve program abs effect s a)
    (heffects : ∀ call, TakesEffect serve abs effect call (program call))
    {es : List (CallEvent κ γ ω)}
    (hrun : Along (fun s e => (s.step serve program e).1) CallSystem.Uninterrupted s es) :
    ∃ b, AtomicRun effect a (s.trace serve program es) b ∧
      Simulated serve program abs effect
        (run (fun s e => (s.step serve program e).1) s es) b := by
  induction es generalizing s a with
  | nil => exact ⟨a, .nil a, h⟩
  | cons e es ih =>
      obtain ⟨hfree, hrest⟩ := hrun
      obtain ⟨b, hfirst, hb⟩ := h.step heffects e hfree
      obtain ⟨c, hlast, hc⟩ := ih hb hrest
      exact ⟨c, hfirst.append hlast, hc⟩

end

/-! ### Cells that are not shared -/

section
variable (serve : ω → (r : ρ) → σ → π → α r × σ × π) (program : γ → Prog α β)
variable {s : CallSystem κ γ σ π α β} {own : Nat → κ}

/-- A call that is made is on the task's own cell. -/
def CallEvent.OnOwn (own : Nat → κ) : CallEvent κ γ ω → Prop
  | .calls task cell _ => cell = own task
  | .goes _ _ => True

/-- The calls that run are on the cells of their tasks. -/
def CallSystem.OnOwn (own : Nat → κ) (s : CallSystem κ γ σ π α β) : Prop :=
  ∀ task r, s.running task = some r → r.cell = own task

theorem CallSystem.OnOwn.uninterrupted (h : s.OnOwn own) (hown : Function.Injective own)
    (e : CallEvent κ γ ω) : s.Uninterrupted e := by
  cases e with
  | calls task cell call => trivial
  | goes task fate =>
      intro r hr _ other r' hne ho _ hcell
      rw [h task r hr, h other r' ho] at hcell
      exact hne (hown hcell)

variable [DecidableEq κ]

theorem CallSystem.OnOwn.step (h : s.OnOwn own) {e : CallEvent κ γ ω} (he : e.OnOwn own) :
    (s.step serve program e).1.OnOwn own := by
  cases e with
  | calls task cell call =>
      rw [CallSystem.step]
      cases hr : s.running task with
      | some r => exact h
      | none =>
          intro t r ht
          rcases running_cases ht with ⟨rfl, heq⟩ | ⟨_, hold⟩
          · cases heq
            exact he
          · exact h t r hold
  | goes task fate =>
      rw [CallSystem.step]
      cases hr : s.running task with
      | none => exact h
      | some r =>
          dsimp only
          cases r.left with
          | done result =>
              intro t r' ht
              rcases running_cases ht with ⟨_, heq⟩ | ⟨_, hold⟩
              · cases heq
              · exact h t r' hold
          | ask request next =>
              intro t r' ht
              rcases running_cases ht with ⟨rfl, heq⟩ | ⟨_, hold⟩
              · cases heq
                exact h t r hr
              · exact h t r' hold

/-- Tasks that do not share their cells do not interrupt each other. -/
theorem along_uninterrupted (hown : Function.Injective own) (h : s.OnOwn own)
    {es : List (CallEvent κ γ ω)} (hes : ∀ e ∈ es, e.OnOwn own) :
    Along (fun s e => (s.step serve program e).1) CallSystem.Uninterrupted s es := by
  induction es generalizing s with
  | nil => trivial
  | cons e es ih =>
      obtain ⟨he, hrest⟩ := List.forall_mem_cons.mp hes
      exact ⟨h.uninterrupted hown e, ih (h.step serve program he) hrest⟩

end

end

end MinC.Lib
