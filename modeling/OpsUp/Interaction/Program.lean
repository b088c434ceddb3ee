import Mathlib.Tactic.Common

/-!
# Interaction programs

A client of a shared resource is a finite tree: it issues one command, receives
one reply, and goes on according to the reply.  Nothing in the tree says what a
command does; that is the job of a service, a relation between the state before,
the command, the reply and the state after.  The same program can therefore be
run alone, run among others, or be compared with another program literally.
-/

namespace OpsUp.Interaction

/-- The commands a program may issue and the type of the reply to each. -/
structure Interface where
  Command : Type
  Reply : Command → Type

/-- One command together with the reply it received. -/
structure Event (I : Interface) where
  command : I.Command
  reply : I.Reply command

/-- A program issues commands one at a time and ends with a value. -/
inductive Program (I : Interface) (α : Type) : Type where
  | ret (value : α) : Program I α
  | call (command : I.Command) (next : I.Reply command → Program I α) : Program I α

/-- `service before command reply after`: a state may answer a command so. -/
abbrev Service (I : Interface) (σ : Type) : Type :=
  σ → (command : I.Command) → I.Reply command → σ → Prop

variable {I : Interface} {σ α β γ : Type}

namespace Program

def bind : Program I α → (α → Program I β) → Program I β
  | .ret value, rest => rest value
  | .call command next, rest => .call command fun reply => (next reply).bind rest

instance : Monad (Program I) where
  pure := .ret
  bind := Program.bind

/-- The program that issues one command and returns its reply. -/
def request (command : I.Command) : Program I (I.Reply command) :=
  .call command .ret

@[simp]
theorem pure_eq_ret (value : α) : (pure value : Program I α) = .ret value := rfl

@[simp]
theorem ret_bind (value : α) (rest : α → Program I β) :
    ((Program.ret value : Program I α) >>= rest) = rest value := rfl

@[simp]
theorem call_bind (command : I.Command) (next : I.Reply command → Program I α)
    (rest : α → Program I β) :
    (Program.call command next >>= rest) =
      .call command fun reply => next reply >>= rest := rfl

@[simp]
theorem request_bind (command : I.Command) (rest : I.Reply command → Program I β) :
    (request command >>= rest) = .call command rest := rfl

theorem bind_ret (program : Program I α) : (program >>= Program.ret) = program := by
  induction program with
  | ret value => rfl
  | call command next ih =>
      rw [call_bind]
      exact congrArg (Program.call command) (funext ih)

theorem bind_assoc (program : Program I α) (first : α → Program I β)
    (second : β → Program I γ) :
    (program >>= first) >>= second = program >>= fun value => first value >>= second := by
  induction program with
  | ret value => rfl
  | call command next ih =>
      simp only [call_bind]
      exact congrArg (Program.call command) (funext ih)

instance : LawfulMonad (Program I) :=
  LawfulMonad.mk' (Program I) bind_ret (fun _ _ => rfl) bind_assoc

/--
`Steps service p s events p' s'`: running alone from `s`, the program `p` issues
the commands of `events`, receives the replies of `events`, and is left with
`p'` while the state is `s'`.
-/
inductive Steps (service : Service I σ) :
    Program I α → σ → List (Event I) → Program I α → σ → Prop where
  | refl (program : Program I α) (state : σ) : Steps service program state [] program state
  | call {command : I.Command} {next : I.Reply command → Program I α}
      {reply : I.Reply command} {state middle final : σ} {events : List (Event I)}
      {rest : Program I α}
      (answer : service state command reply middle)
      (tail : Steps service (next reply) middle events rest final) :
      Steps service (.call command next) state (⟨command, reply⟩ :: events) rest final

/-- A complete run: the program has returned. -/
def Executes (service : Service I σ) (program : Program I α) (state : σ)
    (events : List (Event I)) (value : α) (final : σ) : Prop :=
  Steps service program state events (.ret value) final

namespace Steps

variable {service : Service I σ}

theorem trans {first second third : Program I α} {s₁ s₂ s₃ : σ}
    {before after : List (Event I)}
    (left : Steps service first s₁ before second s₂)
    (right : Steps service second s₂ after third s₃) :
    Steps service first s₁ (before ++ after) third s₃ := by
  induction left with
  | refl => exact right
  | call answer tail ih => exact .call answer (ih right)

/-- A program that has returned takes no further step. -/
theorem of_ret {value : α} {state final : σ} {events : List (Event I)}
    {rest : Program I α} (steps : Steps service (.ret value) state events rest final) :
    events = [] ∧ rest = .ret value ∧ final = state := by
  cases steps
  exact ⟨rfl, rfl, rfl⟩

/-- Without a step nothing changes. -/
theorem of_nil {program rest : Program I α} {state final : σ}
    (steps : Steps service program state [] rest final) : rest = program ∧ final = state := by
  cases steps
  exact ⟨rfl, rfl⟩

/-- The first event of a call is that call with its reply. -/
theorem of_call {command : I.Command} {next : I.Reply command → Program I α} {event : Event I}
    {state final : σ} {events : List (Event I)} {rest : Program I α}
    (steps : Steps service (.call command next) state (event :: events) rest final) :
    ∃ reply middle, event = ⟨command, reply⟩ ∧ service state command reply middle ∧
      Steps service (next reply) middle events rest final := by
  cases steps with
  | call answer tail => exact ⟨_, _, rfl, answer, tail⟩

/-- Every event is an answer of the service. -/
theorem answered {program rest : Program I α} {state final : σ} {events : List (Event I)}
    (steps : Steps service program state events rest final) :
    ∀ event ∈ events, ∃ before after, service before event.command event.reply after := by
  induction steps with
  | refl => simp
  | call answer tail ih =>
      intro event hevent
      rcases List.mem_cons.mp hevent with rfl | hlater
      · exact ⟨_, _, answer⟩
      · exact ih event hlater

/-- The steps of the first part of a sequence are steps of the whole. -/
theorem bind {program rest : Program I α} {state final : σ} {events : List (Event I)}
    (steps : Steps service program state events rest final) (after : α → Program I β) :
    Steps service (program >>= after) state events (rest >>= after) final := by
  induction steps with
  | refl => exact .refl _ _
  | call answer tail ih => exact .call answer ih

end Steps

/-- Running alone, some steps lead from one program and state to another. -/
def Reaches (service : Service I σ) (program : Program I α) (state : σ)
    (rest : Program I α) (final : σ) : Prop :=
  ∃ events, Steps service program state events rest final

namespace Reaches

variable {service : Service I σ}

theorem refl (program : Program I α) (state : σ) :
    Reaches service program state program state := ⟨[], .refl program state⟩

theorem call {command : I.Command} {next : I.Reply command → Program I α}
    {reply : I.Reply command} {state after : σ} (answer : service state command reply after) :
    Reaches service (.call command next) state (next reply) after :=
  ⟨[⟨command, reply⟩], .call answer (.refl _ _)⟩

theorem trans {first second third : Program I α} {s₁ s₂ s₃ : σ}
    (left : Reaches service first s₁ second s₂) (right : Reaches service second s₂ third s₃) :
    Reaches service first s₁ third s₃ := by
  obtain ⟨before, hleft⟩ := left
  obtain ⟨after, hright⟩ := right
  exact ⟨before ++ after, hleft.trans hright⟩

/-- When the first part of a sequence returns, the second part goes on. -/
theorem bind {program : Program I α} {state middle final : σ} {value : α}
    {after : α → Program I β} {rest : Program I β}
    (first : Reaches service program state (.ret value) middle)
    (second : Reaches service (after value) middle rest final) :
    Reaches service (program >>= after) state rest final := by
  obtain ⟨events, hfirst⟩ := first
  exact trans ⟨events, hfirst.bind after⟩ second

end Reaches

/-- A program on a service that always answers runs to its end. -/
theorem exists_executes {service : Service I σ}
    (total : ∀ state command, ∃ reply after, service state command reply after)
    (program : Program I α) (state : σ) :
    ∃ events value final, Executes service program state events value final := by
  induction program generalizing state with
  | ret value => exact ⟨[], value, state, .refl _ _⟩
  | call command next ih =>
      obtain ⟨reply, after, answer⟩ := total state command
      obtain ⟨events, value, final, run⟩ := ih reply after
      exact ⟨⟨command, reply⟩ :: events, value, final, .call answer run⟩

/-- No run of the program goes on for ever, and each can be brought to its end. -/
structure Terminates (service : Service I σ) (program : Program I α) (state : σ) : Prop where
  ends : ∀ (programs : Nat → Program I α) (states : Nat → σ) (events : Nat → Event I),
    programs 0 = program → states 0 = state →
      ¬ ∀ n, Steps service (programs n) (states n) [events n] (programs (n + 1)) (states (n + 1))
  completes : ∀ {events : List (Event I)} {rest : Program I α} {final : σ},
    Steps service program state events rest final →
      ∃ more value last, Executes service rest final more value last

/-- A program is a finite tree: what matters is that every command is answered. -/
theorem terminates_of_total {service : Service I σ}
    (total : ∀ state command, ∃ reply after, service state command reply after)
    (program : Program I α) (state : σ) : Terminates service program state where
  ends := by
    induction program generalizing state with
    | ret value =>
        intro programs states events hprogram hstate hsteps
        have hfirst := hsteps 0
        rw [hprogram] at hfirst
        cases (Steps.of_ret hfirst).1
    | call command next ih =>
        intro programs states events hprogram hstate hsteps
        have hfirst := hsteps 0
        rw [hprogram] at hfirst
        obtain ⟨reply, middle, -, -, hrest⟩ := Steps.of_call hfirst
        exact ih reply (states 1) (fun n => programs (n + 1)) (fun n => states (n + 1))
          (fun n => events (n + 1)) (Steps.of_nil hrest).1 rfl fun n => hsteps (n + 1)
  completes := fun {_ rest final} _ => exists_executes total rest final

/-- A complete run of a call begins with one answer of the service. -/
theorem executes_call_iff {service : Service I σ} {command : I.Command}
    {next : I.Reply command → Program I α} {state final : σ} {events : List (Event I)}
    {value : α} :
    Executes service (.call command next) state events value final ↔
      ∃ reply middle rest, events = ⟨command, reply⟩ :: rest ∧
        service state command reply middle ∧
        Executes service (next reply) middle rest value final := by
  constructor
  · intro run
    cases run with
    | call answer tail => exact ⟨_, _, _, rfl, answer, tail⟩
  · rintro ⟨reply, middle, rest, rfl, answer, tail⟩
    exact .call answer tail

@[simp]
theorem executes_ret_iff {service : Service I σ} {result value : α} {state final : σ}
    {events : List (Event I)} :
    Executes service (.ret result) state events value final ↔
      events = [] ∧ value = result ∧ final = state := by
  constructor
  · intro run
    obtain ⟨hevents, hvalue, hfinal⟩ := Steps.of_ret run
    exact ⟨hevents, Program.ret.inj hvalue, hfinal⟩
  · rintro ⟨rfl, rfl, rfl⟩
    exact .refl _ _

/-- A complete run of a sequence is a complete run of each part. -/
theorem executes_bind_iff {service : Service I σ} {program : Program I α}
    {rest : α → Program I β} {state final : σ} {events : List (Event I)} {value : β} :
    Executes service (program >>= rest) state events value final ↔
      ∃ before after first middle, events = before ++ after ∧
        Executes service program state before first middle ∧
        Executes service (rest first) middle after value final := by
  constructor
  · intro run
    induction program generalizing state events with
    | ret first => exact ⟨[], events, first, state, rfl, .refl _ _, run⟩
    | call command next ih =>
        obtain ⟨reply, middle, tail, rfl, answer, hrun⟩ := executes_call_iff.mp run
        obtain ⟨before, after, first, last, rfl, hfirst, hrest⟩ := ih reply hrun
        exact ⟨⟨command, reply⟩ :: before, after, first, last, rfl, .call answer hfirst, hrest⟩
  · rintro ⟨before, after, first, middle, rfl, hfirst, hrest⟩
    exact (Steps.bind hfirst rest).trans hrest

/-- The run on a service that answers by a function. -/
def run (answer : σ → (command : I.Command) → I.Reply command × σ) :
    Program I α → σ → List (Event I) × α × σ
  | .ret value, state => ([], value, state)
  | .call command next, state =>
      let replied := answer state command
      let rest := run answer (next replied.1) replied.2
      (⟨command, replied.1⟩ :: rest.1, rest.2)

theorem executes_run {service : Service I σ}
    {answer : σ → (command : I.Command) → I.Reply command × σ}
    (answers : ∀ state command, service state command (answer state command).1
      (answer state command).2) (program : Program I α) (state : σ) :
    Executes service program state (run answer program state).1 (run answer program state).2.1
      (run answer program state).2.2 := by
  induction program generalizing state with
  | ret value => exact .refl _ _
  | call command next ih => exact .call (answers state command) (ih _ _)

/-! ## What a program may do -/

/-- Whatever is replied, the program issues only these commands and returns only such values. -/
def Issues (commands : I.Command → Prop) (returns : α → Prop) : Program I α → Prop
  | .ret value => returns value
  | .call command next => commands command ∧ ∀ reply, Issues commands returns (next reply)

section Issues

variable {commands : I.Command → Prop} {returns : α → Prop} {program rest : Program I α}

@[simp]
theorem issues_ret {value : α} : Issues commands returns (.ret value : Program I α) ↔
    returns value := Iff.rfl

@[simp]
theorem issues_call {command : I.Command} {next : I.Reply command → Program I α} :
    Issues commands returns (.call command next) ↔
      commands command ∧ ∀ reply, Issues commands returns (next reply) := Iff.rfl

theorem Issues.bind {last : β → Prop} {next : α → Program I β}
    (issues : Issues commands (fun value => Issues commands last (next value)) program) :
    Issues commands last (program >>= next) := by
  induction program with
  | ret value => exact issues
  | call command replied ih => exact ⟨issues.1, fun reply => ih reply (issues.2 reply)⟩

theorem Issues.weaken {narrower : I.Command → Prop} {stronger : α → Prop}
    (issues : Issues narrower stronger program)
    (widen : ∀ command, narrower command → commands command)
    (imp : ∀ value, stronger value → returns value) : Issues commands returns program := by
  induction program with
  | ret value => exact imp value issues
  | call command next ih =>
      exact ⟨widen command issues.1, fun reply => ih reply (issues.2 reply)⟩

theorem Issues.mono {stronger : α → Prop} (issues : Issues commands stronger program)
    (imp : ∀ value, stronger value → returns value) : Issues commands returns program :=
  issues.weaken (fun _ issued => issued) imp

theorem Steps.issues {service : Service I σ} {state final : σ} {events : List (Event I)}
    (steps : Steps service program state events rest final)
    (issues : Issues commands returns program) :
    (∀ event ∈ events, commands event.command) ∧ Issues commands returns rest := by
  induction steps with
  | refl => exact ⟨nofun, issues⟩
  | call answer tail ih =>
      obtain ⟨hevents, hrest⟩ := ih (issues.2 _)
      refine ⟨fun event hevent => ?_, hrest⟩
      rcases List.mem_cons.mp hevent with rfl | htail
      · exact issues.1
      · exact hevents event htail

end Issues

end Program

/-! ## Two interfaces side by side -/

/-- The commands of either interface. -/
abbrev Interface.sum (I J : Interface) : Interface where
  Command := I.Command ⊕ J.Command
  Reply
    | .inl command => I.Reply command
    | .inr command => J.Reply command

variable {J : Interface} {τ : Type}

/-- Each command goes to the service of its own interface. -/
def Service.sum (first : Service I σ) (second : Service J τ) : Service (I.sum J) (σ × τ)
  | before, .inl command, reply, after =>
      first before.1 command reply after.1 ∧ after.2 = before.2
  | before, .inr command, reply, after =>
      second before.2 command reply after.2 ∧ after.1 = before.1

def Event.inl (event : Event I) : Event (I.sum J) := ⟨.inl event.command, event.reply⟩

def Event.inr (event : Event J) : Event (I.sum J) := ⟨.inr event.command, event.reply⟩

namespace Program

def inl : Program I α → Program (I.sum J) α
  | .ret value => .ret value
  | .call command next => .call (.inl command) fun reply => (next reply).inl

def inr : Program J α → Program (I.sum J) α
  | .ret value => .ret value
  | .call command next => .call (.inr command) fun reply => (next reply).inr

end Program

/-- The events of the second interface. -/
def rights (events : List (Event (I.sum J))) : List (Event J) :=
  events.filterMap fun
    | ⟨.inl _, _⟩ => none
    | ⟨.inr command, reply⟩ => some ⟨command, reply⟩

@[simp]
theorem rights_append (front back : List (Event (I.sum J))) :
    rights (front ++ back) = rights front ++ rights back := List.filterMap_append

@[simp]
theorem rights_map_inr (events : List (Event J)) :
    rights (events.map (Event.inr (I := I))) = events := by
  induction events with
  | nil => rfl
  | cons event rest ih => exact congrArg (event :: ·) ih

end OpsUp.Interaction
