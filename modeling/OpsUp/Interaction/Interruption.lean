import OpsUp.Interaction.RelyGuarantee

/-!
# Programs that write last

Of two programs that only read before one final write, the one that writes first
has run alone, and the other one has seen the state change at most once.  Every
interleaving of the two is therefore one complete run followed by one interrupted
run.
-/

namespace OpsUp.Interaction

variable {I : Interface} {σ α β : Type}

/-- Only the marked commands change the state. -/
def OnlyWrites (service : Service I σ) (writes : I.Command → Prop) : Prop :=
  ∀ ⦃before command reply after⦄, ¬ writes command → service before command reply after →
    after = before

namespace Program

/-- A marked command is the last one. -/
def WritesLast (writes : I.Command → Prop) : Program I α → Prop
  | .ret _ => True
  | .call command next =>
      (∀ reply, (next reply).WritesLast writes) ∧
        (writes command → ∀ reply, ∃ value, next reply = .ret value)

/-- No command is marked. -/
def ReadsOnly (writes : I.Command → Prop) : Program I α → Prop
  | .ret _ => True
  | .call command next => ¬ writes command ∧ ∀ reply, (next reply).ReadsOnly writes

/-- Some reads, with no other effect, lead from one program to another. -/
def Reading (service : Service I σ) (writes : I.Command → Prop) (program : Program I α)
    (state : σ) (rest : Program I α) : Prop :=
  ∃ events, Steps service program state events rest state ∧
    ∀ event ∈ events, ¬ writes event.command

/--
A complete run that begins on `first`; after some of its reads the state has
become `second`, on which the rest runs.
-/
inductive Interrupted (service : Service I σ) (writes : I.Command → Prop) (first second : σ) :
    Program I α → α → σ → Prop where
  | replaced {program : Program I α} {events : List (Event I)} {value : α} {final : σ}
      (run : Executes service program second events value final) :
      Interrupted service writes first second program value final
  | read {command : I.Command} {next : I.Reply command → Program I α}
      {reply : I.Reply command} {value : α} {final : σ} (reads : ¬ writes command)
      (answer : service first command reply first)
      (tail : Interrupted service writes first second (next reply) value final) :
      Interrupted service writes first second (.call command next) value final

variable {service : Service I σ} {writes : I.Command → Prop}

/-- What is left of a program that writes last also writes last. -/
theorem WritesLast.steps {program rest : Program I α} {state final : σ}
    {events : List (Event I)} (last : program.WritesLast writes)
    (steps : Steps service program state events rest final) : rest.WritesLast writes := by
  induction steps with
  | refl => exact last
  | call answer tail ih => exact ih (last.1 _)

theorem ReadsOnly.bind {program : Program I α} {rest : α → Program I β}
    (reads : program.ReadsOnly writes) (others : ∀ value, (rest value).ReadsOnly writes) :
    (program >>= rest).ReadsOnly writes := by
  induction program with
  | ret value => exact others value
  | call command next ih => exact ⟨reads.1, fun reply => ih reply (reads.2 reply)⟩

/-- Reading first does not change what is written last. -/
theorem ReadsOnly.writesLast {program : Program I α} {rest : α → Program I β}
    (reads : program.ReadsOnly writes) (last : ∀ value, (rest value).WritesLast writes) :
    (program >>= rest).WritesLast writes := by
  induction program with
  | ret value => exact last value
  | call command next ih =>
      exact ⟨fun reply => ih reply (reads.2 reply), fun hwrite => absurd hwrite reads.1⟩

namespace Reading

variable {program rest : Program I α} {state : σ}

theorem refl (program : Program I α) (state : σ) :
    Reading service writes program state program :=
  ⟨[], .refl program state, fun _ hmem => absurd hmem List.not_mem_nil⟩

theorem step {command : I.Command} {next : I.Reply command → Program I α}
    {reply : I.Reply command} (reading : Reading service writes program state (.call command next))
    (reads : ¬ writes command) (answer : service state command reply state) :
    Reading service writes program state (next reply) := by
  obtain ⟨events, hsteps, hreads⟩ := reading
  refine ⟨events ++ [⟨command, reply⟩], hsteps.trans (.call answer (.refl _ _)), ?_⟩
  intro event hmem
  rcases List.mem_append.mp hmem with hearlier | hlast
  · exact hreads event hearlier
  · rw [List.mem_singleton.mp hlast]
    exact reads

theorem executes {value : α} {final : σ} {events : List (Event I)}
    (reading : Reading service writes program state rest)
    (run : Executes service rest state events value final) :
    ∃ whole, Executes service program state whole value final := by
  obtain ⟨before, hsteps, -⟩ := reading
  exact ⟨before ++ events, hsteps.trans run⟩

/-- Reads on one state and the rest on another are an interrupted run. -/
theorem interrupted {second final : σ} {value : α} {events : List (Event I)}
    (only : OnlyWrites service writes) (reading : Reading service writes program state rest)
    (run : Executes service rest second events value final) :
    Interrupted service writes state second program value final := by
  obtain ⟨before, hsteps, hreads⟩ := reading
  have same : ∀ {p q : Program I α} {s t : σ} {trace : List (Event I)},
      Steps service p s trace q t → (∀ event ∈ trace, ¬ writes event.command) → s = state →
      Executes service q second events value final →
      Interrupted service writes state second p value final := by
    intro p q s t trace steps
    induction steps with
    | refl => exact fun _ _ run => .replaced run
    | call answer tail ih =>
        rintro reads rfl run
        have hread := reads _ List.mem_cons_self
        obtain rfl := only hread answer
        exact .read hread answer (ih (fun event hmem => reads event (List.mem_cons_of_mem _ hmem))
          rfl run)
  exact same hsteps hreads rfl run

end Reading

end Program

namespace World

open Program

variable {service : Service I σ} {writes : I.Command → Prop}

/-- Before the first write, both clients are still reading the initial state. -/
def BothReading (service : Service I σ) (writes : I.Command → Prop)
    (start world : World I σ Bool α) : Prop :=
  world.store = start.store ∧
    ∀ client, Reading service writes (start.threads client) start.store (world.threads client)

/-- After the first write its client is done, and the other goes on from there. -/
def OneDone (service : Service I σ) (writes : I.Command → Prop)
    (start world : World I σ Bool α) : Prop :=
  ∃ client own value middle rest events,
    Executes service (start.threads client) start.store own value middle ∧
    world.threads client = .ret value ∧
    Reading service writes (start.threads (!client)) start.store rest ∧
    Program.Steps service rest middle events (world.threads (!client)) world.store

/-- One step of either client keeps to the two phases. -/
theorem phase_step (only : OnlyWrites service writes) {start world : World I σ Bool α}
    (last : ∀ client, (start.threads client).WritesLast writes) {client : Bool}
    {command : I.Command} {next : I.Reply command → Program I α} {reply : I.Reply command}
    {after : σ} (phase : BothReading service writes start world ∨
      OneDone service writes start world)
    (turn : world.threads client = .call command next)
    (answer : service world.store command reply after) :
    BothReading service writes start
        ⟨after, Function.update world.threads client (next reply)⟩ ∨
      OneDone service writes start
        ⟨after, Function.update world.threads client (next reply)⟩ := by
  rcases phase with ⟨hstore, hreading⟩ | ⟨active, own, value, middle, rest, events, hrun, hdone,
    hrest, hsteps⟩
  · have hclient := hreading client
    rw [turn] at hclient
    rw [hstore] at answer
    by_cases hwrite : writes command
    · right
      obtain ⟨before, hsteps, -⟩ := hclient
      obtain ⟨value, hvalue⟩ := (last client).steps hsteps |>.2 hwrite reply
      have hother : (!client) ≠ client := by cases client <;> decide
      have hfinish : Executes service (next reply) after [] value after := by
        rw [hvalue]
        exact .refl _ _
      refine ⟨client, _, value, after, world.threads (!client), [],
        hsteps.trans (.call answer hfinish), by simp [hvalue], hreading (!client), ?_⟩
      simp only [Function.update_of_ne hother]
      exact .refl _ _
    · left
      obtain rfl := only hwrite answer
      refine ⟨rfl, fun other => ?_⟩
      by_cases hother : other = client
      · subst hother
        simpa using hclient.step hwrite answer
      · simpa [Function.update_of_ne hother] using hreading other
  · right
    have hother : client = !active := by
      cases client <;> cases active <;> simp_all
    subst hother
    rw [turn] at hsteps
    have hactive : active ≠ !active := by cases active <;> decide
    refine ⟨active, own, value, middle, rest, events ++ [⟨command, reply⟩], hrun, ?_, hrest,
      hsteps.trans (.call answer ?_)⟩
    · simp only [Function.update_of_ne hactive, hdone]
    · simp only [Function.update_self]
      exact .refl _ _

/--
Two clients that write last, run together to the end: one of them has run alone,
and the other has then been interrupted once by its effect.
-/
theorem Steps.interrupted (only : OnlyWrites service writes) {start final : World I σ Bool α}
    {events : List (Bool × Event I)}
    (last : ∀ client, (start.threads client).WritesLast writes)
    (run : Steps service start events final)
    (returned : ∀ client, ∃ value, final.threads client = .ret value) :
    ∃ client own value middle other,
      Executes service (start.threads client) start.store own value middle ∧
      Interrupted service writes start.store middle (start.threads (!client)) other
        final.store := by
  have phase : BothReading service writes start final ∨ OneDone service writes start final := by
    clear returned
    induction run with
    | refl => exact Or.inl ⟨rfl, fun client => .refl _ _⟩
    | step client run turn answer ih => exact phase_step only last ih turn answer
  rcases phase with ⟨hstore, hreading⟩ | ⟨client, own, value, middle, rest, events, hrun, -,
    hrest, hsteps⟩
  · obtain ⟨first, hfirst⟩ := returned false
    obtain ⟨second, hsecond⟩ := returned true
    have hleft := hreading false
    have hright := hreading true
    rw [hfirst] at hleft
    rw [hsecond] at hright
    obtain ⟨own, hown⟩ := hleft.executes (.refl _ _)
    refine ⟨false, own, first, start.store, second, hown, ?_⟩
    rw [hstore]
    exact hright.interrupted only (.refl _ _)
  · obtain ⟨other, hother⟩ := returned (!client)
    rw [hother] at hsteps
    exact ⟨client, own, value, middle, other, hrun, hrest.interrupted only hsteps⟩

end World

end OpsUp.Interaction
