import OpsUp.Interaction.Interference

/-!
# Programs of a part of an interface

A program that knows some of the commands is a program that may issue more.  What holds of
its runs holds in a larger interface too, where the service answers the commands of the part
as the smaller one does.
-/

namespace OpsUp.Interaction

variable {I J : Interface} {σ α β : Type}

/-- The commands of the first interface among those of the second. -/
structure Interface.Embedding (I J : Interface) where
  command : I.Command → J.Command
  reply : ∀ own, J.Reply (command own) → I.Reply own

namespace Program

def translate (part : I.Embedding J) : Program I α → Program J α
  | .ret value => .ret value
  | .call command next => .call (part.command command) fun reply =>
      translate part (next (part.reply command reply))

variable {part : I.Embedding J}

@[simp]
theorem translate_ret (value : α) : translate part (.ret value : Program I α) = .ret value := rfl

/-- A program of the part, beside the other commands. -/
theorem Triple.translate {service : Service I σ} {whole : Service J σ} {around : σ → σ → Prop}
    {pre : σ → Prop} {post : α → σ → Prop} {program : Program I α}
    (answers : ∀ {state command reply after}, whole state (part.command command) reply after →
      service state command (part.reply command reply) after)
    (triple : Triple service around pre program post) :
    Triple whole around pre (program.translate part) post := by
  have hkeeps : ∀ (program : Program I α) (before : List (Event I)) (history) (state : σ),
      Keeps service (.amid around) (fun value _ final => post value final) program before state →
        Keeps whole (.amid around) (fun value _ final => post value final)
          (program.translate part) history state := by
    intro program
    induction program with
    | ret value => exact fun _ _ _ kept => kept
    | call command next ih =>
        intro before history state kept later moves reply after answer
        exact ⟨trivial, ih _ _ _ _ (kept later moves _ after (answers answer)).2⟩
  exact fun history state holds => hkeeps program [] history state (triple [] state holds)

end Program

end OpsUp.Interaction
