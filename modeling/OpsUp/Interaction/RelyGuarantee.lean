import OpsUp.Interaction.Program
import Mathlib.Logic.Function.Basic

/-!
# Rely-guarantee reasoning for interaction programs

A discipline says what the rest of the world may do between two commands of a
program (`rely`) and what each command of the program must do (`guarantee`).
`Keeps` is the weakest precondition of a program under a discipline.  It is
closed under the rely by construction, so a proof about one program is carried
to any number of programs run together, in any order of their commands, as soon
as the guarantee of each is within the rely of the others.
-/

namespace OpsUp.Interaction

variable {I : Interface} {σ α β : Type}

/--
What one program may assume and must provide.  The guarantee also sees the
events the program itself has already produced.
-/
structure Discipline (I : Interface) (σ : Type) where
  rely : σ → σ → Prop
  guarantee : List (Event I) → σ → Event I → σ → Prop
  rely_refl : ∀ state, rely state state
  rely_trans : ∀ {first second third}, rely first second → rely second third →
    rely first third

namespace Discipline

/-- No interference: the program is alone. -/
def alone (guarantee : List (Event I) → σ → Event I → σ → Prop) : Discipline I σ where
  rely := Eq
  guarantee := guarantee
  rely_refl := fun _ => rfl
  rely_trans := Eq.trans

/-- Everybody, the program included, only does what a preorder allows. -/
def shared (order : σ → σ → Prop) (refl : ∀ state, order state state)
    (trans : ∀ {first second third}, order first second → order second third →
      order first third) : Discipline I σ where
  rely := order
  guarantee := fun _ before _ after => order before after
  rely_refl := refl
  rely_trans := trans

/-- A program alone, whose events go on only as permitted. -/
def tracing (permitted : List (Event I) → Prop) : Discipline I σ :=
  alone fun history _ event _ => permitted (history ++ [event])

/-- A command that leaves the state as it is never breaks the guarantee. -/
def Quiet (discipline : Discipline I σ) : Prop :=
  ∀ history state event, discipline.guarantee history state event state

end Discipline

namespace Program

/--
From the current state, with `history` already produced, every command keeps the
guarantee and every returned value satisfies the postcondition, whatever the
rely lets happen in between.
-/
def Keeps (service : Service I σ) (discipline : Discipline I σ)
    (post : α → List (Event I) → σ → Prop) :
    Program I α → List (Event I) → σ → Prop
  | .ret value, history, state =>
      ∀ later, discipline.rely state later → post value history later
  | .call command next, history, state =>
      ∀ later, discipline.rely state later →
        ∀ reply after, service later command reply after →
          discipline.guarantee history later ⟨command, reply⟩ after ∧
            Keeps service discipline post (next reply) (history ++ [⟨command, reply⟩]) after

section Rules

variable {service : Service I σ} {discipline : Discipline I σ}
  {post : α → List (Event I) → σ → Prop}

@[simp]
theorem keeps_ret {value : α} {history : List (Event I)} {state : σ} :
    Keeps service discipline post (.ret value) history state ↔
      ∀ later, discipline.rely state later → post value history later := Iff.rfl

/-- A kept program stays kept whatever the others do. -/
theorem Keeps.stable {program : Program I α} {history : List (Event I)} {state later : σ}
    (kept : Keeps service discipline post program history state)
    (step : discipline.rely state later) :
    Keeps service discipline post program history later := by
  cases program with
  | ret value => exact fun last hlast => kept last (discipline.rely_trans step hlast)
  | call command next =>
      exact fun last hlast => kept last (discipline.rely_trans step hlast)

theorem Keeps.mono {program : Program I α} {history : List (Event I)} {state : σ}
    {weaker : α → List (Event I) → σ → Prop}
    (kept : Keeps service discipline post program history state)
    (imp : ∀ value events final, post value events final → weaker value events final) :
    Keeps service discipline weaker program history state := by
  induction program generalizing history state with
  | ret value => exact fun later hlater => imp _ _ _ (kept later hlater)
  | call command next ih =>
      intro later hlater reply after answer
      obtain ⟨hguarantee, hnext⟩ := kept later hlater reply after answer
      exact ⟨hguarantee, ih reply hnext⟩

/-- Sequencing: the second part is kept from wherever the first part ends. -/
theorem Keeps.bind {program : Program I α} {rest : α → Program I β}
    {last : β → List (Event I) → σ → Prop} {history : List (Event I)} {state : σ}
    (kept : Keeps service discipline
      (fun value events final => Keeps service discipline last (rest value) events final)
      program history state) :
    Keeps service discipline last (program >>= rest) history state := by
  induction program generalizing history state with
  | ret value => exact kept state (discipline.rely_refl state)
  | call command next ih =>
      intro later hlater reply after answer
      obtain ⟨hguarantee, hnext⟩ := kept later hlater reply after answer
      exact ⟨hguarantee, ih reply hnext⟩

end Rules

/-! ## One program alone -/

section Alone

variable {service : Service I σ} {discipline : Discipline I σ}
  {post : α → List (Event I) → σ → Prop}
  {promise : List (Event I) → σ → Event I → σ → Prop}

theorem keeps_alone_ret {value : α} {history : List (Event I)} {state : σ}
    (holds : post value history state) :
    Keeps service (.alone promise) post (.ret value) history state := by
  rintro later rfl
  exact holds

theorem keeps_alone_call {command : I.Command} {next : I.Reply command → Program I α}
    {history : List (Event I)} {state : σ}
    (step : ∀ reply after, service state command reply after →
      promise history state ⟨command, reply⟩ after ∧
        Keeps service (.alone promise) post (next reply) (history ++ [⟨command, reply⟩]) after) :
    Keeps service (.alone promise) post (.call command next) history state := by
  rintro later rfl
  exact step

/-- A property that every command of a program keeps true holds after any of its steps. -/
theorem Steps.state_invariant {invariant : σ → Prop} {program rest : Program I α}
    {state final : σ} {history events : List (Event I)}
    (steps : Steps service program state events rest final)
    (kept : Keeps service (.alone fun _ _ _ after => invariant after) post program history state)
    (initial : invariant state) : invariant final := by
  induction steps generalizing history with
  | refl => exact initial
  | call answer tail ih =>
      obtain ⟨hafter, hnext⟩ := kept _ rfl _ _ answer
      exact ih hnext hafter

/-- A kept program is still kept after any of its own steps. -/
theorem Steps.keeps {program rest : Program I α} {state final : σ}
    {history events : List (Event I)}
    (steps : Steps service program state events rest final)
    (kept : Keeps service discipline post program history state) :
    Keeps service discipline post rest (history ++ events) final := by
  induction steps generalizing history with
  | refl => simpa using kept
  | call answer tail ih =>
      obtain ⟨-, hnext⟩ := kept _ (discipline.rely_refl _) _ _ answer
      simpa using ih hnext

/-- The postcondition of a kept program holds when it has run alone. -/
theorem Executes.postcondition (discipline : Discipline I σ)
    (post : α → List (Event I) → σ → Prop) {program : Program I α} {state final : σ} {value : α}
    {events : List (Event I)}
    (run : Executes service program state events value final)
    (kept : Keeps service discipline post program [] state) :
    post value events final := by
  have last := Steps.keeps run kept
  exact last final (discipline.rely_refl final)

/-- Every event of a kept program keeps the guarantee at its place. -/
theorem Steps.guarantee {program rest : Program I α} {state final : σ}
    {history events before after : List (Event I)} {event : Event I}
    (steps : Steps service program state events rest final)
    (kept : Keeps service discipline post program history state)
    (place : events = before ++ event :: after) :
    ∃ first second, discipline.guarantee (history ++ before) first event second := by
  induction steps generalizing history before with
  | refl => simp at place
  | @call command next reply state middle final events rest answer tail ih =>
      obtain ⟨hguarantee, hnext⟩ := kept _ (discipline.rely_refl _) _ _ answer
      cases before with
      | nil =>
          obtain ⟨rfl, -⟩ := List.cons.inj place
          exact ⟨state, middle, by simpa using hguarantee⟩
      | cons head front =>
          obtain ⟨rfl, htail⟩ := List.cons.inj place
          simpa using ih hnext htail

end Alone

/-! ## The trace of one program -/

section Tracing

variable {service : Service I σ} {permitted : List (Event I) → Prop}
  {post : α → List (Event I) → σ → Prop}

theorem keeps_tracing_ret {value : α} {history : List (Event I)} {state : σ}
    (holds : post value history state) :
    Keeps service (.tracing permitted) post (.ret value) history state :=
  keeps_alone_ret holds

theorem keeps_tracing_call {command : I.Command} {next : I.Reply command → Program I α}
    {history : List (Event I)} {state : σ}
    (step : ∀ reply after, service state command reply after →
      permitted (history ++ [⟨command, reply⟩]) ∧
        Keeps service (.tracing permitted) post (next reply) (history ++ [⟨command, reply⟩])
          after) :
    Keeps service (.tracing permitted) post (.call command next) history state :=
  keeps_alone_call step

/-- Every part of a run of a kept program has a permitted trace. -/
theorem Steps.traced {program rest : Program I α} {state final : σ}
    {history events : List (Event I)}
    (steps : Steps service program state events rest final)
    (kept : Keeps service (.tracing permitted) post program history state)
    (initial : permitted history) : permitted (history ++ events) := by
  induction steps generalizing history with
  | refl => simpa using initial
  | call answer tail ih =>
      obtain ⟨hpermitted, hnext⟩ := kept _ rfl _ _ answer
      simpa using ih hnext hpermitted

variable {J : Interface} {τ : Type} {other : Service J τ}

theorem Keeps.inr_after {permitted : List (Event (I.sum J)) → Prop}
    {post : α → List (Event (I.sum J)) → σ × τ → Prop} {program : Program J α}
    {before : List (Event (I.sum J))} {history : List (Event J)} {state : τ} {beside : σ}
    (kept : Keeps other (.tracing fun events => permitted (before ++ events.map Event.inr))
      (fun value events final => post value (before ++ events.map Event.inr) (beside, final))
      program history state) :
    Keeps (Service.sum service other) (.tracing permitted) post program.inr
      (before ++ history.map Event.inr) (beside, state) := by
  induction program generalizing history state with
  | ret value => exact keeps_tracing_ret (kept state rfl)
  | call command next ih =>
      refine keeps_tracing_call ?_
      rintro reply ⟨same, after⟩ ⟨answer, rfl⟩
      obtain ⟨hpermitted, hnext⟩ := kept state rfl reply after answer
      have hrest := ih reply hnext
      change permitted (before ++ (history ++ [_]).map Event.inr) at hpermitted
      rw [List.map_append, ← List.append_assoc] at hpermitted hrest
      exact ⟨hpermitted, hrest⟩

/-- A program of the second interface keeps its trace beside the first. -/
theorem Keeps.inr (permitted : List (Event (I.sum J)) → Prop)
    (post : α → List (Event (I.sum J)) → σ × τ → Prop) {program : Program J α}
    {history : List (Event (I.sum J))} {state : τ} {beside : σ}
    (kept : Keeps other (.tracing fun events => permitted (history ++ events.map Event.inr))
      (fun value events final => post value (history ++ events.map Event.inr) (beside, final))
      program [] state) :
    Keeps (Service.sum service other) (.tracing permitted) post program.inr history (beside, state) := by
  have whole : Keeps (Service.sum service other) (.tracing permitted) post program.inr
      (history ++ [].map Event.inr) (beside, state) := Keeps.inr_after kept
  rwa [List.map_nil, List.append_nil] at whole

end Tracing

end Program

/-! ## Many programs together -/

/-- Clients of one shared state, each with the program it has still to run. -/
structure World (I : Interface) (σ ι α : Type) where
  store : σ
  threads : ι → Program I α

/-- An entry of a log that has grown is the last one, or one from before. -/
theorem concat_eq_append_cons {ε : Type} {log front back : List ε} {last entry : ε}
    (place : log ++ [last] = front ++ entry :: back) :
    (back = [] ∧ log = front ∧ last = entry) ∨
      ∃ init, back = init ++ [last] ∧ log = front ++ entry :: init := by
  rcases List.eq_nil_or_concat back with rfl | ⟨init, final, rfl⟩
  · obtain ⟨rfl, hlast⟩ := List.append_inj' place rfl
    exact Or.inl ⟨rfl, rfl, (List.cons.inj hlast).1⟩
  · rw [List.concat_eq_append, ← List.cons_append, ← List.append_assoc] at place
    obtain ⟨rfl, hlast⟩ := List.append_inj' place rfl
    rw [(List.cons.inj hlast).1, List.concat_eq_append]
    exact Or.inr ⟨init, rfl, rfl⟩

/-- The events of one client within a run of all of them. -/
def ownEvents {ι : Type} [DecidableEq ι] (client : ι) (events : List (ι × Event I)) :
    List (Event I) :=
  events.filterMap fun entry => if entry.1 = client then some entry.2 else none

section OwnEvents

variable {ι : Type} [DecidableEq ι] {client other : ι} {events : List (ι × Event I)}
  {event : Event I}

@[simp]
theorem ownEvents_nil : ownEvents (I := I) client [] = [] := rfl

@[simp]
theorem ownEvents_append (front back : List (ι × Event I)) :
    ownEvents client (front ++ back) = ownEvents client front ++ ownEvents client back :=
  List.filterMap_append

@[simp]
theorem ownEvents_self : ownEvents client [(client, event)] = [event] := by
  simp [ownEvents]

theorem ownEvents_other (different : other ≠ client) :
    ownEvents client [(other, event)] = [] := by
  simp [ownEvents, different]

theorem mem_ownEvents_iff : event ∈ ownEvents client events ↔ (client, event) ∈ events := by
  simp only [ownEvents, List.mem_filterMap]
  constructor
  · rintro ⟨⟨owner, found⟩, hmem, hfound⟩
    split at hfound
    · next howner =>
        cases howner
        cases hfound
        exact hmem
    · cases hfound
  · intro hmem
    exact ⟨(client, event), hmem, by simp⟩

end OwnEvents

namespace World

variable {ι : Type} [DecidableEq ι] {service : Service I σ}

/--
`Steps service w events w'`: from `w`, some interleaving of the clients' commands
produces `events` and leaves `w'`.
-/
inductive Steps (service : Service I σ) (start : World I σ ι α) :
    List (ι × Event I) → World I σ ι α → Prop where
  | refl : Steps service start [] start
  | step {events : List (ι × Event I)} {world : World I σ ι α} (client : ι)
      {command : I.Command} {next : I.Reply command → Program I α}
      {reply : I.Reply command} {after : σ}
      (run : Steps service start events world)
      (turn : world.threads client = .call command next)
      (answer : service world.store command reply after) :
      Steps service start (events ++ [(client, ⟨command, reply⟩)])
        ⟨after, Function.update world.threads client (next reply)⟩

theorem Steps.trans {first second third : World I σ ι α} {before after : List (ι × Event I)}
    (left : Steps service first before second) (right : Steps service second after third) :
    Steps service first (before ++ after) third := by
  induction right with
  | refl => simpa using left
  | step client run turn answer ih =>
      rw [← List.append_assoc]
      exact .step client ih turn answer

/-- One command of one client. -/
def Step (service : Service I σ) (before : World I σ ι α) (client : ι) (event : Event I)
    (after : World I σ ι α) : Prop :=
  ∃ next, before.threads client = .call event.command next ∧
    service before.store event.command event.reply after.store ∧
    after.threads = Function.update before.threads client (next event.reply)

/-- A run passes through the worlds before and after each of its events. -/
theorem Steps.split {start final : World I σ ι α} {events front back : List (ι × Event I)}
    {client : ι} {event : Event I} (run : Steps service start events final)
    (place : events = front ++ (client, event) :: back) :
    ∃ before after, Steps service start front before ∧
      Step service before client event after ∧ Steps service after back final := by
  induction run generalizing back with
  | refl => simp at place
  | @step events world active command next reply after run turn answer ih =>
      rcases concat_eq_append_cons place with ⟨rfl, rfl, hlast⟩ | ⟨init, rfl, hinit⟩
      · obtain ⟨rfl, rfl⟩ := Prod.mk.inj hlast
        exact ⟨world, _, run, ⟨next, turn, answer, rfl⟩, .refl⟩
      · obtain ⟨before, middle, hbefore, hstep, hrest⟩ := ih hinit
        exact ⟨before, middle, hbefore, hstep, .step active hrest turn answer⟩

/-- A property that every answer of the service extends needs no fact about the
programs. -/
theorem Steps.service_invariant {start final : World I σ ι α} {events : List (ι × Event I)}
    (invariant : List (ι × Event I) → σ → Prop) (initial : invariant [] start.store)
    (extend : ∀ {events client before command reply after}, invariant events before →
      service before command reply after →
        invariant (events ++ [(client, ⟨command, reply⟩)]) after)
    (run : Steps service start events final) : invariant events final.store := by
  induction run with
  | refl => exact initial
  | step client run turn answer ih => exact extend ih answer

/-- What a program can do alone, a client can do in one go. -/
theorem Steps.lift (client : ι) {start : World I σ ι α} {program rest : Program I α}
    {state final : σ} {events : List (Event I)}
    (steps : Program.Steps service program state events rest final)
    (hprogram : start.threads client = program) (hstate : start.store = state) :
    Steps service start (events.map fun event => (client, event))
      ⟨final, Function.update start.threads client rest⟩ := by
  induction steps generalizing start with
  | refl =>
      subst hprogram hstate
      rw [Function.update_eq_self]
      exact .refl
  | call answer tail ih =>
      subst hstate
      have begun : Steps service start [] start := .refl
      have head := begun.step client hprogram answer
      simpa using head.trans (ih (Function.update_self _ _ _) rfl)

/-- What a client has returned. -/
def returned (world : World I σ ι α) (client : ι) : Option α :=
  match world.threads client with
  | .ret value => some value
  | .call _ _ => none

omit [DecidableEq ι] in
theorem threads_of_returned {world : World I σ ι α} {client : ι} {value : α}
    (returned : world.returned client = some value) : world.threads client = .ret value := by
  unfold World.returned at returned
  split at returned
  · next hthread => rw [hthread, Option.some.inj returned]
  · cases returned

/-- One turn of a client at a service that answers by a function. -/
def turn (answer : σ → (command : I.Command) → I.Reply command × σ) (world : World I σ ι α)
    (client : ι) : List (ι × Event I) × World I σ ι α :=
  match world.threads client with
  | .ret _ => ([], world)
  | .call command next =>
      let replied := answer world.store command
      ([(client, ⟨command, replied.1⟩)],
        ⟨replied.2, Function.update world.threads client (next replied.1)⟩)

/-- The clients take turns as the schedule says. -/
def interleave (answer : σ → (command : I.Command) → I.Reply command × σ)
    (world : World I σ ι α) : List ι → List (ι × Event I) × World I σ ι α
  | [] => ([], world)
  | client :: schedule =>
      let first := world.turn answer client
      let rest := first.2.interleave answer schedule
      (first.1 ++ rest.1, rest.2)

theorem Steps.turn {answer : σ → (command : I.Command) → I.Reply command × σ}
    (answers : ∀ state command, service state command (answer state command).1
      (answer state command).2) (world : World I σ ι α) (client : ι) :
    Steps service world (world.turn answer client).1 (world.turn answer client).2 := by
  unfold World.turn
  split
  · exact .refl
  · next command next hturn =>
      have begun : Steps service world [] world := .refl
      exact begun.step client hturn (answers world.store command)

theorem Steps.interleave {answer : σ → (command : I.Command) → I.Reply command × σ}
    (answers : ∀ state command, service state command (answer state command).1
      (answer state command).2) (world : World I σ ι α) (schedule : List ι) :
    Steps service world (world.interleave answer schedule).1
      (world.interleave answer schedule).2 := by
  induction schedule generalizing world with
  | nil => exact .refl
  | cons client schedule ih => exact (Steps.turn answers world client).trans (ih _)

/--
The parallel rule.  When the guarantee of each client is within the rely of every
other, each client is still kept after any interleaving, with its own events as
history.
-/
theorem Steps.keeps (discipline : ι → Discipline I σ)
    (post : ι → α → List (Event I) → σ → Prop)
    {start final : World I σ ι α} {events : List (ι × Event I)}
    (compatible : ∀ {client other}, client ≠ other → ∀ {history before event after},
      (discipline client).guarantee history before event after →
        (discipline other).rely before after)
    (kept : ∀ client, (start.threads client).Keeps service (discipline client)
      (post client) [] start.store)
    (run : Steps service start events final) (client : ι) :
    (final.threads client).Keeps service (discipline client) (post client)
      (ownEvents client events) final.store := by
  induction run generalizing client with
  | refl => exact kept client
  | @step events world active command next reply after run turn answer ih =>
      have hactive := ih active
      rw [turn] at hactive
      obtain ⟨hguarantee, hnext⟩ :=
        hactive _ ((discipline active).rely_refl _) _ _ answer
      by_cases hclient : active = client
      · subst hclient
        simpa using hnext
      · have hother := (ih client).stable (compatible hclient hguarantee)
        simpa [Function.update_of_ne (Ne.symm hclient), ownEvents_other hclient] using hother

/-- Each single command of a run keeps the guarantee of its client. -/
theorem Steps.guaranteed (discipline : ι → Discipline I σ)
    (post : ι → α → List (Event I) → σ → Prop)
    {start before after : World I σ ι α} {events : List (ι × Event I)} {client : ι}
    {event : Event I}
    (compatible : ∀ {client other}, client ≠ other → ∀ {history before event after},
      (discipline client).guarantee history before event after →
        (discipline other).rely before after)
    (kept : ∀ client, (start.threads client).Keeps service (discipline client)
      (post client) [] start.store)
    (run : Steps service start events before) (step : Step service before client event after) :
    (discipline client).guarantee (ownEvents client events) before.store event after.store := by
  obtain ⟨next, turn, answer, -⟩ := step
  have hactive := run.keeps discipline post compatible kept client
  rw [turn] at hactive
  exact (hactive _ ((discipline client).rely_refl _) _ _ answer).1

/-- The postcondition of a client that has returned. -/
theorem Steps.postcondition (discipline : ι → Discipline I σ)
    (post : ι → α → List (Event I) → σ → Prop)
    {start final : World I σ ι α} {events : List (ι × Event I)}
    (compatible : ∀ {client other}, client ≠ other → ∀ {history before event after},
      (discipline client).guarantee history before event after →
        (discipline other).rely before after)
    (kept : ∀ client, (start.threads client).Keeps service (discipline client)
      (post client) [] start.store)
    (run : Steps service start events final) {client : ι} {value : α}
    (returned : final.threads client = .ret value) :
    post client value (ownEvents client events) final.store := by
  have last := run.keeps discipline post compatible kept client
  rw [returned] at last
  exact last _ ((discipline client).rely_refl _)

/-- A property of the events and the state that every guarantee extends holds
after every interleaving. -/
theorem Steps.invariant (discipline : ι → Discipline I σ)
    (post : ι → α → List (Event I) → σ → Prop)
    {start final : World I σ ι α} {events : List (ι × Event I)}
    (compatible : ∀ {client other}, client ≠ other → ∀ {history before event after},
      (discipline client).guarantee history before event after →
        (discipline other).rely before after)
    (kept : ∀ client, (start.threads client).Keeps service (discipline client)
      (post client) [] start.store)
    (invariant : List (ι × Event I) → σ → Prop)
    (initial : invariant [] start.store)
    (extend : ∀ {client events before event after}, invariant events before →
      (discipline client).guarantee (ownEvents client events) before event after →
        invariant (events ++ [(client, event)]) after)
    (run : Steps service start events final) : invariant events final.store := by
  induction run with
  | refl => exact initial
  | @step events world active command next reply after run turn answer ih =>
      have hactive := run.keeps discipline post compatible kept active
      rw [turn] at hactive
      obtain ⟨hguarantee, -⟩ :=
        hactive _ ((discipline active).rely_refl _) _ _ answer
      exact extend ih hguarantee

end World

end OpsUp.Interaction
