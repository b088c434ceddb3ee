import OpsUp.Interaction.Transition
import Mathlib.Logic.Function.Basic

/-!
# Ends of links

A client has a link to each of several servers.  An end keeps what it has sent on a link;
the other end takes one message after the other, by actions of its own that name the
message.  What holds of one end and the messages it has taken, whatever they are, holds in
every run of all ends together, where these messages are what the other ends have sent.
-/

namespace OpsUp.Interaction

/-- A client and the servers at the other ends of its links. -/
structure Ends (ι σ τ α β M N : Type) where
  client : σ → α → Option σ
  server : τ → β → Option τ
  clientStart : σ
  serverStart : τ
  /-- the link is there -/
  opened : σ → ι → Bool
  /-- what the client has sent on a link -/
  requests : σ → ι → List M
  /-- what a server has sent -/
  replies : τ → List N
  /-- the message that an action takes, if it takes one, and its link -/
  clientTakes : α → Option (ι × N)
  serverTakes : β → Option M

/-- All ends, and how many messages each has taken. -/
structure Linked (ι σ τ : Type) where
  client : σ
  servers : ι → τ
  requestsTaken : ι → Nat
  repliesTaken : ι → Nat

inductive LinkAction (ι α β : Type) where
  | client (action : α)
  | server (link : ι) (action : β)

namespace Ends

variable {ι σ τ α β M N : Type} [DecidableEq ι] [DecidableEq M] [DecidableEq N]
  (ends : Ends ι σ τ α β M N)

def start : Linked ι σ τ where
  client := ends.clientStart
  servers := fun _ => ends.serverStart
  requestsTaken := fun _ => 0
  repliesTaken := fun _ => 0

/-- The action of the client in which it takes the next message of a link, or none. -/
def clientStep (s : Linked ι σ τ) (action : α) : Option (Linked ι σ τ) :=
  match ends.clientTakes action with
  | none => (ends.client s.client action).map fun client => { s with client := client }
  | some (link, message) =>
      if (ends.replies (s.servers link))[s.repliesTaken link]? = some message then
        (ends.client s.client action).map fun client =>
          { s with
            client := client
            repliesTaken := Function.update s.repliesTaken link (s.repliesTaken link + 1) }
      else none

def serverStep (s : Linked ι σ τ) (link : ι) (action : β) : Option (Linked ι σ τ) :=
  match ends.serverTakes action with
  | none => (ends.server (s.servers link) action).map fun server =>
      { s with servers := Function.update s.servers link server }
  | some message =>
      if (ends.requests s.client link)[s.requestsTaken link]? = some message then
        (ends.server (s.servers link) action).map fun server =>
          { s with
            servers := Function.update s.servers link server
            requestsTaken := Function.update s.requestsTaken link (s.requestsTaken link + 1) }
      else none

def step (s : Linked ι σ τ) : LinkAction ι α β → Option (Linked ι σ τ)
  | .client action => ends.clientStep s action
  | .server link action => if ends.opened s.client link then ends.serverStep s link action else none

/-- The messages that the server of a link has taken. -/
def toServer (s : Linked ι σ τ) (link : ι) : List M :=
  (ends.requests s.client link).take (s.requestsTaken link)

def toClient (s : Linked ι σ τ) (link : ι) : List N :=
  (ends.replies (s.servers link)).take (s.repliesTaken link)

variable {ends} {s next : Linked ι σ τ}

omit [DecidableEq M] in
theorem clientStep_cases {action : α} (step : ends.clientStep s action = some next) :
    ∃ client, ends.client s.client action = some client ∧
      ((ends.clientTakes action = none ∧ next = { s with client := client }) ∨
        ∃ link message, ends.clientTakes action = some (link, message) ∧
          (ends.replies (s.servers link))[s.repliesTaken link]? = some message ∧
          next = { s with
            client := client
            repliesTaken := Function.update s.repliesTaken link (s.repliesTaken link + 1) }) := by
  unfold clientStep at step
  split at step
  · next htakes =>
      obtain ⟨client, hclient, rfl⟩ := Option.map_eq_some_iff.mp step
      exact ⟨client, hclient, .inl ⟨htakes, rfl⟩⟩
  · next link message htakes =>
      obtain ⟨hmessage, hstep⟩ := Option.ite_none_right_eq_some.mp step
      obtain ⟨client, hclient, rfl⟩ := Option.map_eq_some_iff.mp hstep
      exact ⟨client, hclient, .inr ⟨link, message, htakes, hmessage, rfl⟩⟩

omit [DecidableEq N] in
theorem serverStep_cases {link : ι} {action : β}
    (step : ends.serverStep s link action = some next) :
    ∃ server, ends.server (s.servers link) action = some server ∧
      ((ends.serverTakes action = none ∧
          next = { s with servers := Function.update s.servers link server }) ∨
        ∃ message, ends.serverTakes action = some message ∧
          (ends.requests s.client link)[s.requestsTaken link]? = some message ∧
          next = { s with
            servers := Function.update s.servers link server
            requestsTaken :=
              Function.update s.requestsTaken link (s.requestsTaken link + 1) }) := by
  unfold serverStep at step
  split at step
  · next htakes =>
      obtain ⟨server, hserver, rfl⟩ := Option.map_eq_some_iff.mp step
      exact ⟨server, hserver, .inl ⟨htakes, rfl⟩⟩
  · next message htakes =>
      obtain ⟨hmessage, hstep⟩ := Option.ite_none_right_eq_some.mp step
      obtain ⟨server, hserver, rfl⟩ := Option.map_eq_some_iff.mp hstep
      exact ⟨server, hserver, .inr ⟨message, htakes, hmessage, rfl⟩⟩

/-! ## What was taken -/

/-- What was taken of a list that only grows. -/
theorem take_of_prefix {κ : Type} {old new : List κ} {taken : Nat} (grows : old <+: new)
    (bound : taken ≤ old.length) : new.take taken = old.take taken := by
  obtain ⟨rest, rfl⟩ := grows
  exact List.take_append_of_le_length bound

/-- No end has taken more than was sent. -/
structure Bounded (ends : Ends ι σ τ α β M N) (s : Linked ι σ τ) : Prop where
  requests : ∀ link, s.requestsTaken link ≤ (ends.requests s.client link).length
  replies : ∀ link, s.repliesTaken link ≤ (ends.replies (s.servers link)).length

/-- The client only adds to what it has sent, in the states that it reaches. -/
def RequestsGrow (ends : Ends ι σ τ α β M N) : Prop :=
  ∀ {before : List α} {client next : σ} {action : α} (link : ι),
    play ends.client ends.clientStart before = some client →
      ends.client client action = some next →
        ends.requests client link <+: ends.requests next link

def RepliesGrow (ends : Ends ι σ τ α β M N) : Prop :=
  ∀ {server next : τ} {action : β}, ends.server server action = some next →
    ends.replies server <+: ends.replies next

section Run

variable {actions : List (LinkAction ι α β)}

/-- The client of a run is in a run of its own. -/
theorem client_run (run : play ends.step ends.start actions = some s) :
    ∃ own, play ends.client ends.clientStart own = some s.client := by
  refine play_preserves (fun s => ∃ own, play ends.client ends.clientStart own = some s.client)
    ⟨[], rfl⟩ ?_ run
  rintro s next action ⟨own, hown⟩ hstep
  cases action with
  | client action =>
      obtain ⟨client, hclient, hnext⟩ := clientStep_cases hstep
      refine ⟨own ++ [action], play_concat_iff.mpr ⟨s.client, hown, ?_⟩⟩
      rcases hnext with ⟨-, rfl⟩ | ⟨link, message, -, -, rfl⟩
      · exact hclient
      · exact hclient
  | server link action =>
      obtain ⟨-, hstep⟩ := Option.ite_none_right_eq_some.mp hstep
      obtain ⟨server, -, ⟨-, rfl⟩ | ⟨message, -, -, rfl⟩⟩ := serverStep_cases hstep
      · exact ⟨own, hown⟩
      · exact ⟨own, hown⟩

/-- So is each server. -/
theorem server_run (run : play ends.step ends.start actions = some s) (link : ι) :
    ∃ own, play ends.server ends.serverStart own = some (s.servers link) := by
  refine play_preserves
    (fun s => ∃ own, play ends.server ends.serverStart own = some (s.servers link))
    ⟨[], rfl⟩ ?_ run
  rintro s next action ⟨own, hown⟩ hstep
  cases action with
  | client action =>
      obtain ⟨client, -, ⟨-, rfl⟩ | ⟨other, message, -, -, rfl⟩⟩ := clientStep_cases hstep
      · exact ⟨own, hown⟩
      · exact ⟨own, hown⟩
  | server other action =>
      obtain ⟨-, hstep⟩ := Option.ite_none_right_eq_some.mp hstep
      obtain ⟨server, hserver, hnext⟩ := serverStep_cases hstep
      have hservers : next.servers = Function.update s.servers other server := by
        rcases hnext with ⟨-, rfl⟩ | ⟨message, -, -, rfl⟩
        · rfl
        · rfl
      by_cases hsame : link = other
      · subst hsame
        refine ⟨own ++ [action], play_concat_iff.mpr ⟨_, hown, ?_⟩⟩
        rw [hservers, Function.update_self]
        exact hserver
      · refine ⟨own, ?_⟩
        rw [hservers, Function.update_of_ne hsame]
        exact hown

theorem bounded_of_run (requestsGrow : RequestsGrow ends) (repliesGrow : RepliesGrow ends)
    (run : play ends.step ends.start actions = some s) : Bounded ends s := by
  refine play_invariant (fun _ s => Bounded ends s)
    ⟨fun _ => Nat.zero_le _, fun _ => Nat.zero_le _⟩ ?_ run
  intro before s next action hbefore hbounded hstep
  cases action with
  | client action =>
      obtain ⟨own, hown⟩ := client_run hbefore
      obtain ⟨client, hclient, hnext⟩ := clientStep_cases hstep
      have hrequests : ∀ link, s.requestsTaken link ≤ (ends.requests client link).length :=
        fun link => Nat.le_trans (hbounded.requests link)
          (requestsGrow link hown hclient).length_le
      rcases hnext with ⟨-, rfl⟩ | ⟨link, message, -, hmessage, rfl⟩
      · exact ⟨hrequests, hbounded.replies⟩
      · refine ⟨hrequests, fun other => ?_⟩
        dsimp only
        rw [Function.update_apply]
        split
        · next hsame =>
            subst hsame
            exact (List.getElem?_eq_some_iff.mp hmessage).1
        · exact hbounded.replies other
  | server link action =>
      obtain ⟨-, hstep⟩ := Option.ite_none_right_eq_some.mp hstep
      obtain ⟨server, hserver, hnext⟩ := serverStep_cases hstep
      have hreplies : ∀ other, s.repliesTaken other ≤
          (ends.replies (Function.update s.servers link server other)).length := by
        intro other
        rw [Function.update_apply]
        split
        · next hsame =>
            subst hsame
            exact Nat.le_trans (hbounded.replies other) (repliesGrow hserver).length_le
        · exact hbounded.replies other
      rcases hnext with ⟨-, rfl⟩ | ⟨message, -, hmessage, rfl⟩
      · exact ⟨hbounded.requests, hreplies⟩
      · refine ⟨fun other => ?_, hreplies⟩
        dsimp only
        rw [Function.update_apply]
        split
        · next hsame =>
            subst hsame
            exact (List.getElem?_eq_some_iff.mp hmessage).1
        · exact hbounded.requests other

/-- What an end keeps of itself and of the messages it has taken, whoever sends them, holds in
every run. -/
theorem client_invariant (invariant : σ → (ι → List N) → Prop)
    (initial : invariant ends.clientStart fun _ => [])
    (own : ∀ {before client next action taken},
      play ends.client ends.clientStart before = some client → invariant client taken →
        ends.clientTakes action = none → ends.client client action = some next →
          invariant next taken)
    (take : ∀ {before client next action taken link message},
      play ends.client ends.clientStart before = some client → invariant client taken →
        ends.clientTakes action = some (link, message) →
          ends.client client action = some next →
            invariant next (Function.update taken link (taken link ++ [message])))
    (requestsGrow : RequestsGrow ends) (repliesGrow : RepliesGrow ends)
    (run : play ends.step ends.start actions = some s) :
    invariant s.client (ends.toClient s) := by
  refine play_invariant (fun _ s => invariant s.client (ends.toClient s)) ?_ ?_ run
  · have hnothing : ends.toClient ends.start = fun _ => [] := funext fun _ => List.take_zero
    rw [hnothing]
    exact initial
  intro before s next action hbefore hinvariant hstep
  obtain ⟨past, hpast⟩ := client_run hbefore
  have hbounded := bounded_of_run requestsGrow repliesGrow hbefore
  cases action with
  | client action =>
      obtain ⟨client, hclient, ⟨htakes, rfl⟩ | ⟨link, message, htakes, hmessage, rfl⟩⟩ :=
        clientStep_cases hstep
      · exact own hpast hinvariant htakes hclient
      · have htaken : ends.toClient { s with
            client := client
            repliesTaken := Function.update s.repliesTaken link (s.repliesTaken link + 1) } =
              Function.update (ends.toClient s) link (ends.toClient s link ++ [message]) := by
          funext other
          rw [Function.update_apply]
          split
          · next hsame =>
              subst hsame
              dsimp only [toClient]
              rw [Function.update_self, List.take_add_one, hmessage]
              rfl
          · next hother =>
              dsimp only [toClient]
              rw [Function.update_of_ne hother]
        rw [htaken]
        exact take hpast hinvariant htakes hclient
  | server link action =>
      obtain ⟨-, hstep⟩ := Option.ite_none_right_eq_some.mp hstep
      obtain ⟨server, hserver, hnext⟩ := serverStep_cases hstep
      have htaken : ends.toClient next = ends.toClient s ∧ next.client = s.client := by
        have hservers : next.servers = Function.update s.servers link server ∧
            next.repliesTaken = s.repliesTaken ∧ next.client = s.client := by
          rcases hnext with ⟨-, rfl⟩ | ⟨message, -, -, rfl⟩
          · exact ⟨rfl, rfl, rfl⟩
          · exact ⟨rfl, rfl, rfl⟩
        obtain ⟨hservers, hcount, hsame⟩ := hservers
        refine ⟨funext fun other => ?_, hsame⟩
        rw [toClient, hservers, hcount, Function.update_apply]
        split
        · next hlink =>
            subst hlink
            exact take_of_prefix (repliesGrow hserver) (hbounded.replies other)
        · rfl
      rw [htaken.1, htaken.2]
      exact hinvariant

/-- The same for the server of one link. -/
theorem server_invariant (invariant : τ → List M → Prop)
    (initial : invariant ends.serverStart [])
    (own : ∀ {server next action taken}, invariant server taken →
      ends.serverTakes action = none → ends.server server action = some next →
        invariant next taken)
    (take : ∀ {server next action taken message}, invariant server taken →
      ends.serverTakes action = some message → ends.server server action = some next →
        invariant next (taken ++ [message]))
    (requestsGrow : RequestsGrow ends) (repliesGrow : RepliesGrow ends)
    (run : play ends.step ends.start actions = some s) (link : ι) :
    invariant (s.servers link) (ends.toServer s link) := by
  refine play_invariant (fun _ s => invariant (s.servers link) (ends.toServer s link)) ?_ ?_ run
  · have hnothing : ends.toServer ends.start link = [] := List.take_zero
    rw [hnothing]
    exact initial
  intro before s next action hbefore hinvariant hstep
  obtain ⟨past, hpast⟩ := client_run hbefore
  have hbounded := bounded_of_run requestsGrow repliesGrow hbefore
  cases action with
  | client action =>
      obtain ⟨client, hclient, hnext⟩ := clientStep_cases hstep
      have hgrown : (ends.requests client link).take (s.requestsTaken link) =
          ends.toServer s link :=
        take_of_prefix (requestsGrow link hpast hclient) (hbounded.requests link)
      rcases hnext with ⟨-, rfl⟩ | ⟨other, message, -, -, rfl⟩
      · rw [toServer, hgrown]
        exact hinvariant
      · rw [toServer, hgrown]
        exact hinvariant
  | server other action =>
      obtain ⟨-, hstep⟩ := Option.ite_none_right_eq_some.mp hstep
      obtain ⟨server, hserver, ⟨htakes, rfl⟩ | ⟨message, htakes, hmessage, rfl⟩⟩ :=
        serverStep_cases hstep
      · by_cases hlink : link = other
        · subst hlink
          dsimp only [toServer]
          rw [Function.update_self]
          exact own hinvariant htakes hserver
        · dsimp only [toServer]
          rw [Function.update_of_ne hlink]
          exact hinvariant
      · by_cases hlink : link = other
        · subst hlink
          dsimp only [toServer]
          rw [Function.update_self, Function.update_self, List.take_add_one, hmessage]
          exact take hinvariant htakes hserver
        · dsimp only [toServer]
          rw [Function.update_of_ne hlink, Function.update_of_ne hlink]
          exact hinvariant

end Run

end Ends

end OpsUp.Interaction
