import OpsUp.Interaction.RelyGuarantee
import Mathlib.Order.Defs.Unbundled

/-!
# Events that need others before them

Where a program may take a step only after certain steps of its own, so does every client of
a shared state, whatever the order in which the clients take theirs.  What a step needs may
also speak of the state, as long as that only moves on.
-/

namespace OpsUp.Interaction

variable {I : Interface} {σ α ι : Type}

/-- The state only moves on, and each event comes after what it needs. -/
def Discipline.earning (order : σ → σ → Prop) [IsPreorder σ order]
    (needs : List (Event I) → σ → Event I → Prop) : Discipline I σ where
  rely := order
  guarantee := fun history before event after => needs history before event ∧ order before after
  rely_refl := Std.Refl.refl
  rely_trans := fun first second => IsTrans.trans _ _ _ first second

variable {service : Service I σ} {order : σ → σ → Prop} [IsPreorder σ order]

theorem Program.keeps_earning_call {needs : List (Event I) → σ → Event I → Prop}
    {post : α → List (Event I) → σ → Prop} {command : I.Command}
    {next : I.Reply command → Program I α} {history : List (Event I)} {state : σ}
    (moves : ∀ {before command reply after}, service before command reply after →
      order before after)
    (step : ∀ later reply after, order state later → service later command reply after →
      needs history later ⟨command, reply⟩ ∧
        (next reply).Keeps service (.earning order needs) post (history ++ [⟨command, reply⟩])
          after) :
    (Program.call command next).Keeps service (.earning order needs) post history state := by
  intro later hlater reply after answer
  obtain ⟨hneeds, hnext⟩ := step later reply after hlater answer
  exact ⟨⟨hneeds, moves answer⟩, hnext⟩

namespace World

variable [DecidableEq ι] {needs : ι → List (Event I) → σ → Event I → Prop}
  {post : ι → α → List (Event I) → σ → Prop}

/-- Every event of a run has been earned by its client, in a state that the last one follows. -/
theorem Steps.earned {start final : World I σ ι α} {events front back : List (ι × Event I)}
    {client : ι} {event : Event I}
    (kept : ∀ client, (start.threads client).Keeps service (.earning order (needs client))
      (post client) [] start.store)
    (run : Steps service start events final) (place : events = front ++ (client, event) :: back) :
    ∃ state, needs client (ownEvents client front) state event ∧ order state final.store := by
  have hcompatible : ∀ {client other : ι}, client ≠ other → ∀ {history before event after},
      (Discipline.earning order (needs client)).guarantee history before event after →
        (Discipline.earning order (needs other)).rely before after :=
    fun _ _ _ _ _ guaranteed => guaranteed.2
  induction run generalizing back with
  | refl => simp at place
  | @step events world active command next reply after run turn answer ih =>
      have hactive := run.keeps (fun client => .earning order (needs client)) post hcompatible
        kept active
      rw [turn] at hactive
      obtain ⟨⟨hneeds, horder⟩, -⟩ := hactive _ (Std.Refl.refl (r := order) _) _ _ answer
      rcases concat_eq_append_cons place with ⟨-, rfl, hlast⟩ | ⟨init, -, hinit⟩
      · obtain ⟨rfl, rfl⟩ := Prod.mk.inj hlast
        exact ⟨world.store, hneeds, horder⟩
      · obtain ⟨state, hearned, hstate⟩ := ih hinit
        exact ⟨state, hearned, IsTrans.trans _ _ _ hstate horder⟩

end World

end OpsUp.Interaction
