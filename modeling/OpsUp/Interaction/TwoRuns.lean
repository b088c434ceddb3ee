import OpsUp.Interaction.Program

/-!
# Two runs side by side

Two programs run on one service that answers by a function, from states that an
observer cannot tell apart.  The judgement says that the values they return are
related and that the states stay alike; it has a rule for each way of putting
programs together, so nothing is ever said about the runs themselves.
-/

namespace OpsUp.Interaction

variable {I : Interface} {σ α β γ δ : Type}

/-- Branches on equivalent conditions are related when each branch is. -/
theorem related_ite {p q : Prop} [Decidable p] [Decidable q] {related : α → β → Prop}
    {left right : α} {first second : β} (same : p ↔ q) (holds : related left first)
    (fails : related right second) :
    related (if p then left else right) (if q then first else second) := by
  by_cases h : p
  · rw [if_pos h, if_pos (same.mp h)]
    exact holds
  · rw [if_neg h, if_neg (mt same.mpr h)]
    exact fails

namespace Program

/-- The value a program returns when run from a state. -/
def result (answer : σ → (command : I.Command) → I.Reply command × σ)
    (program : Program I α) (state : σ) : α :=
  (program.run answer state).2.1

/-- The state a program leaves behind when run from a state. -/
def final (answer : σ → (command : I.Command) → I.Reply command × σ)
    (program : Program I α) (state : σ) : σ :=
  (program.run answer state).2.2

/-- Programs one after the other, with all their values. -/
def serial : List (Program I α) → Program I (List α)
  | [] => .ret []
  | program :: rest => do
      let value ← program
      let values ← serial rest
      .ret (value :: values)

section Runs

variable (answer : σ → (command : I.Command) → I.Reply command × σ)

@[simp]
theorem result_ret (value : α) (state : σ) :
    (Program.ret value : Program I α).result answer state = value := rfl

@[simp]
theorem final_ret (value : α) (state : σ) :
    (Program.ret value : Program I α).final answer state = state := rfl

@[simp]
theorem result_call (command : I.Command) (next : I.Reply command → Program I α) (state : σ) :
    (Program.call command next).result answer state =
      (next (answer state command).1).result answer (answer state command).2 := rfl

@[simp]
theorem final_call (command : I.Command) (next : I.Reply command → Program I α) (state : σ) :
    (Program.call command next).final answer state =
      (next (answer state command).1).final answer (answer state command).2 := rfl

@[simp]
theorem result_bind (program : Program I α) (rest : α → Program I β) (state : σ) :
    (program >>= rest).result answer state =
      (rest (program.result answer state)).result answer (program.final answer state) := by
  induction program generalizing state with
  | ret value => rfl
  | call command next ih => exact ih _ _

@[simp]
theorem final_bind (program : Program I α) (rest : α → Program I β) (state : σ) :
    (program >>= rest).final answer state =
      (rest (program.result answer state)).final answer (program.final answer state) := by
  induction program generalizing state with
  | ret value => rfl
  | call command next ih => exact ih _ _

/-- The run is one of the runs on every service that may give these answers. -/
theorem executes_result {τ : Type} {service : Service I τ} (view : σ → τ)
    (answers : ∀ state command, service (view state) command (answer state command).1
      (view (answer state command).2)) (program : Program I α) (state : σ) :
    Executes service program (view state) (program.run answer state).1
      (program.result answer state) (view (program.final answer state)) := by
  induction program generalizing state with
  | ret value => exact .refl _ _
  | call command next ih => exact .call (answers state command) (ih _ _)

end Runs

/--
From alike states the two programs return related values and leave alike states
behind.
-/
def RunAlike (answer : σ → (command : I.Command) → I.Reply command × σ)
    (alike : σ → σ → Prop) (related : α → β → Prop)
    (first : Program I α) (second : Program I β) : Prop :=
  ∀ left right, alike left right →
    related (first.result answer left) (second.result answer right) ∧
      alike (first.final answer left) (second.final answer right)

namespace RunAlike

variable {answer : σ → (command : I.Command) → I.Reply command × σ}
  {alike : σ → σ → Prop} {related : α → β → Prop} {observed : γ → δ → Prop}

theorem ret {left : α} {right : β} (values : related left right) :
    RunAlike answer alike related (.ret left : Program I α) (.ret right : Program I β) :=
  fun _ _ states => ⟨values, states⟩

theorem bind {first : Program I α} {second : Program I β} {next : α → Program I γ}
    {rest : β → Program I δ} (begins : RunAlike answer alike related first second)
    (continues : ∀ left right, related left right →
      RunAlike answer alike observed (next left) (rest right)) :
    RunAlike answer alike observed (first >>= next) (second >>= rest) := by
  intro left right states
  obtain ⟨hvalues, hstates⟩ := begins left right states
  obtain ⟨hobserved, hfinal⟩ := continues _ _ hvalues _ _ hstates
  constructor
  · rw [result_bind, result_bind]
    exact hobserved
  · rw [final_bind, final_bind]
    exact hfinal

/-- Sequences of programs that run alike, one by one, run alike. -/
theorem serial {first : List (Program I α)} {second : List (Program I β)}
    (programs : List.Forall₂ (RunAlike answer alike related) first second) :
    RunAlike answer alike (List.Forall₂ related) (Program.serial first)
      (Program.serial second) := by
  induction programs with
  | nil => exact ret .nil
  | cons head _ ih =>
      apply bind head
      intro left right hvalue
      apply bind ih
      intro lefts rights hvalues
      exact ret (.cons hvalue hvalues)

end RunAlike

/-! ## Runs that are answered alike -/

/-- At each place where both traces have the same command, they have the same reply. -/
def AnsweredAlike (first second : List (Event I)) : Prop :=
  ∀ (place : Nat) (event other : Event I), first[place]? = some event → second[place]? = some other →
    event.command = other.command → event = other

theorem AnsweredAlike.tail {event : Event I} {first second : List (Event I)}
    (alike : AnsweredAlike (event :: first) (event :: second)) : AnsweredAlike first second :=
  fun place => alike (place + 1)

/-- Two runs of one program, in whatever surroundings, that are answered alike: one goes on
where the other ends. -/
theorem Steps.of_answeredAlike {τ : Type} {service : Service I σ} {other : Service I τ}
    {program rest last : Program I α} {state middle : σ} {start final : τ}
    {events trace : List (Event I)} (steps : Steps service program state events rest middle)
    (run : Steps other program start trace last final) (alike : AnsweredAlike events trace) :
    (∃ more, trace = events ++ more ∧ ∃ between, Steps other rest between more last final) ∨
      ∃ more, events = trace ++ more ∧ ∃ between, Steps service last between more rest middle := by
  induction steps generalizing trace start with
  | refl program state => exact Or.inl ⟨trace, rfl, start, run⟩
  | @call command next reply state after middle events rest answer tail ih =>
      cases run with
      | refl => exact Or.inr ⟨_, rfl, state, .call answer tail⟩
      | @call _ _ replied _ _ _ trace _ answered tailed =>
          obtain rfl : reply = replied := by
            have hevent := alike 0 ⟨command, reply⟩ ⟨command, replied⟩ rfl rfl rfl
            injection hevent
          rcases ih tailed alike.tail with ⟨more, rfl, hmore⟩ | ⟨more, rfl, hmore⟩
          · exact Or.inl ⟨more, rfl, hmore⟩
          · exact Or.inr ⟨more, rfl, hmore⟩

/-- Complete runs that are answered alike are the same. -/
theorem Executes.of_answeredAlike {τ : Type} {service : Service I σ} {other : Service I τ}
    {program : Program I α} {state middle : σ} {start final : τ} {value result : α}
    {events trace : List (Event I)} (run : Executes service program state events value middle)
    (rerun : Executes other program start trace result final)
    (alike : AnsweredAlike events trace) : events = trace ∧ value = result := by
  rcases Steps.of_answeredAlike run rerun alike with ⟨more, rfl, between, hmore⟩ |
    ⟨more, rfl, between, hmore⟩
  · obtain ⟨rfl, hvalue, -⟩ := Steps.of_ret hmore
    exact ⟨(List.append_nil _).symm, (Program.ret.inj hvalue).symm⟩
  · obtain ⟨rfl, hvalue, -⟩ := Steps.of_ret hmore
    exact ⟨List.append_nil _, Program.ret.inj hvalue⟩

end Program

end OpsUp.Interaction
