import OpsUp.Interaction.RelyGuarantee
import Mathlib.Logic.Relation

/-!
# Programs amid their surroundings

One program issues its commands while its surroundings move on by themselves:
timers fire, requests are cancelled, background activities take their next step.
Assertions that survive every such move are stable, and a triple relates stable
assertions before and after a program.  What the surroundings must come to,
in whatever order they go on, is a separate inductive notion.
-/

namespace OpsUp.Interaction

variable {I J : Interface} {σ α β : Type}

/-- Between two commands the surroundings may take any number of their moves. -/
def Discipline.amid (around : σ → σ → Prop) : Discipline I σ where
  rely := Relation.ReflTransGen around
  guarantee := fun _ _ _ _ => True
  rely_refl := fun _ => .refl
  rely_trans := Relation.ReflTransGen.trans

/-- No move of the surroundings takes the assertion away. -/
def Stable (around : σ → σ → Prop) (assertion : σ → Prop) : Prop :=
  ∀ ⦃before after⦄, assertion before → around before after → assertion after

namespace Stable

variable {around : σ → σ → Prop} {assertion other : σ → Prop}

theorem many (stable : Stable around assertion) {before after : σ} (holds : assertion before)
    (moves : Relation.ReflTransGen around before after) : assertion after := by
  induction moves with
  | refl => exact holds
  | tail _ move ih => exact stable ih move

theorem and (left : Stable around assertion) (right : Stable around other) :
    Stable around fun state => assertion state ∧ other state :=
  fun _ _ holds move => ⟨left holds.1 move, right holds.2 move⟩

end Stable

namespace Program

/-- The program takes some steps of its own while the surroundings take theirs. -/
inductive Amid (service : Service I σ) (around : σ → σ → Prop) :
    Program I α → σ → List (Event I) → Program I α → σ → Prop where
  | refl (program : Program I α) (state : σ) : Amid service around program state [] program state
  | move {program rest : Program I α} {state middle final : σ} {events : List (Event I)}
      (moved : around state middle)
      (tail : Amid service around program middle events rest final) :
      Amid service around program state events rest final
  | call {command : I.Command} {next : I.Reply command → Program I α}
      {reply : I.Reply command} {state middle final : σ} {events : List (Event I)}
      {rest : Program I α}
      (answer : service state command reply middle)
      (tail : Amid service around (next reply) middle events rest final) :
      Amid service around (.call command next) state (⟨command, reply⟩ :: events) rest final

theorem Amid.exists_call {service : Service I σ} {around : σ → σ → Prop} {command : I.Command}
    {next : I.Reply command → Program I α} {reply : I.Reply command} {state middle final : σ}
    {rest : Program I α} (answer : service state command reply middle)
    (tail : ∃ events, Amid service around (next reply) middle events rest final) :
    ∃ events, Amid service around (.call command next) state events rest final := by
  obtain ⟨events, run⟩ := tail
  exact ⟨_, .call answer run⟩

theorem Amid.exists_move {service : Service I σ} {around : σ → σ → Prop}
    {program rest : Program I α} {state middle final : σ} (moved : around state middle)
    (tail : ∃ events, Amid service around program middle events rest final) :
    ∃ events, Amid service around program state events rest final := by
  obtain ⟨events, run⟩ := tail
  exact ⟨events, .move moved run⟩

/-- A kept program is still kept after its own steps and those of its surroundings. -/
theorem Amid.keeps {service : Service I σ} {around : σ → σ → Prop}
    {post : α → List (Event I) → σ → Prop} {program rest : Program I α} {state final : σ}
    {history events : List (Event I)}
    (run : Amid service around program state events rest final)
    (kept : Keeps service (.amid around) post program history state) :
    Keeps service (.amid around) post rest (history ++ events) final := by
  induction run generalizing history with
  | refl => simpa using kept
  | move moved tail ih => exact ih (kept.stable (.single moved))
  | call answer tail ih =>
      obtain ⟨-, hnext⟩ := kept _ .refl _ _ answer
      simpa using ih hnext

/-- From every state of the first assertion, the program can only end in the second. -/
def Triple (service : Service I σ) (around : σ → σ → Prop) (pre : σ → Prop)
    (program : Program I α) (post : α → σ → Prop) : Prop :=
  ∀ history state, pre state →
    Keeps service (.amid around) (fun value _ final => post value final) program history state

namespace Triple

variable {service : Service I σ} {around : σ → σ → Prop} {pre : σ → Prop}
  {post : α → σ → Prop} {program : Program I α}

theorem ret {value : α} (stable : Stable around (post value))
    (holds : ∀ state, pre state → post value state) :
    Triple service around pre (.ret value) post :=
  fun _ state hpre _ moves => stable.many (holds state hpre) moves

theorem call {command : I.Command} {next : I.Reply command → Program I α}
    (answered : I.Reply command → σ → Prop) (stable : Stable around pre)
    (answers : ∀ {state reply after}, pre state → service state command reply after →
      answered reply after)
    (continues : ∀ reply, Triple service around (answered reply) (next reply) post) :
    Triple service around pre (.call command next) post := by
  intro history state holds later moves reply after answer
  exact ⟨trivial, continues reply _ _ (answers (stable.many holds moves) answer)⟩

theorem bind {rest : α → Program I β} {last : β → σ → Prop}
    (begins : Triple service around pre program post)
    (continues : ∀ value, Triple service around (post value) (rest value) last) :
    Triple service around pre (program >>= rest) last := by
  intro history state holds
  apply Keeps.bind
  apply (begins history state holds).mono
  intro value events final hvalue
  exact continues value events final hvalue

theorem weaken {stronger : σ → Prop} (triple : Triple service around pre program post)
    (imp : ∀ state, stronger state → pre state) :
    Triple service around stronger program post :=
  fun history state holds => triple history state (imp state holds)

/-- The second assertion holds when the program has returned, however it was interrupted. -/
theorem returns (triple : Triple service around pre program post) {start final : σ} {value : α}
    {events : List (Event I)} (holds : pre start)
    (run : Amid service around program start events (.ret value) final) : post value final :=
  run.keeps (triple [] start holds) final .refl

/-- A program of one interface beside the commands of another. -/
theorem inl {whole : Service (I.sum J) σ}
    (part : ∀ {state command reply after}, whole state (.inl command) reply after →
      service state command reply after)
    (triple : Triple service around pre program post) :
    Triple whole around pre program.inl post := by
  have hkeeps : ∀ (program : Program I α) (before : List (Event I)) (history) (state : σ),
      Keeps service (.amid around) (fun value _ final => post value final) program before state →
        Keeps whole (.amid around) (fun value _ final => post value final) program.inl history
          state := by
    intro program
    induction program with
    | ret value => exact fun _ _ _ kept => kept
    | call command next ih =>
        intro before history state kept later moves reply after answer
        exact ⟨trivial, ih reply _ _ _ (kept later moves reply after (part answer)).2⟩
  exact fun history state holds => hkeeps program [] history state (triple [] state holds)

end Triple

end Program

/-! ## What must happen -/

/-- However the steps are chosen, the goal is reached and no step is missing before. -/
inductive Inevitable (step : σ → σ → Prop) (goal : σ → Prop) : σ → Prop where
  | reached {state : σ} (holds : goal state) : Inevitable step goal state
  | next {state : σ} (goes : ∃ after, step state after)
      (all : ∀ after, step state after → Inevitable step goal after) :
      Inevitable step goal state

/-- Steps that use up work, and do not get stuck short of the goal, reach it. -/
theorem inevitable_of_work {step : σ → σ → Prop} {goal : σ → Prop} (invariant : σ → Prop)
    (work : σ → Nat)
    (preserve : ∀ {before after}, invariant before → step before after → invariant after)
    (spend : ∀ {before after}, invariant before → step before after → work after < work before)
    (stuck : ∀ {state}, invariant state → (∀ after, ¬ step state after) → goal state)
    {state : σ} (holds : invariant state) : Inevitable step goal state := by
  induction hwork : work state using Nat.strongRecOn generalizing state with
  | _ amount ih =>
      by_cases hstep : ∃ after, step state after
      · apply Inevitable.next hstep
        intro after hafter
        have hless := spend holds hafter
        rw [hwork] at hless
        exact ih _ hless (preserve holds hafter) rfl
      · apply Inevitable.reached
        exact stuck holds fun after hafter => hstep ⟨after, hafter⟩

end OpsUp.Interaction
