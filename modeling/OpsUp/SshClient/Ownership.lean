import OpsUp.Interaction.OnceGuards
import OpsUp.SshClient.Client

/-!
# Who closes a transport

A client closes its transport, and that of its jump host, through a once-guard.
While a connection is set up, the parent context, the setup timer and the
goroutines they start may close it at any moment; afterwards its watcher and its
caller may.  The state here is what all of them share.
-/

namespace OpsUp.SshClient

open OpsUp.Interaction

/-! ## Clients and their guards -/

namespace Client

/-- The transports a client owns: its own, then those of its jump host. -/
def transports : Client → List Transport
  | ⟨transport, none⟩ => [transport]
  | ⟨transport, some jump⟩ => transport :: jump.transports

/-- The client with its jump hosts. -/
def family : Client → List Client
  | ⟨transport, none⟩ => [⟨transport, none⟩]
  | ⟨transport, some jump⟩ => ⟨transport, some jump⟩ :: jump.family

def depth : Client → Nat
  | ⟨_, none⟩ => 0
  | ⟨_, some jump⟩ => jump.depth + 1

theorem transports_injective : ∀ {first second : Client},
    first.transports = second.transports → first = second
  | ⟨_, none⟩, ⟨_, none⟩, same => by
      obtain ⟨rfl, -⟩ := List.cons.inj same
      rfl
  | ⟨_, none⟩, ⟨_, some ⟨_, none⟩⟩, same => nomatch (List.cons.inj same).2
  | ⟨_, none⟩, ⟨_, some ⟨_, some _⟩⟩, same => nomatch (List.cons.inj same).2
  | ⟨_, some ⟨_, none⟩⟩, ⟨_, none⟩, same => nomatch (List.cons.inj same).2
  | ⟨_, some ⟨_, some _⟩⟩, ⟨_, none⟩, same => nomatch (List.cons.inj same).2
  | ⟨_, some _⟩, ⟨_, some _⟩, same => by
      obtain ⟨rfl, hjump⟩ := List.cons.inj same
      rw [transports_injective hjump]

instance : DecidableEq Client := fun _ _ =>
  decidable_of_iff _ ⟨transports_injective, congrArg transports⟩

theorem map_family : ∀ client : Client, client.family.map Client.transport = client.transports
  | ⟨_, none⟩ => rfl
  | ⟨transport, some jump⟩ => congrArg (transport :: ·) (map_family jump)

end Client

/-- What has a `Close` of its own: a client, or a session or SFTP client over one. -/
inductive Guard where
  | client (owner : Client)
  | handle (owner : Client)
  deriving DecidableEq

/-- `Close` of a client closes its jump host, and that of a handle closes its client. -/
def Guard.inner : Guard → Option Guard
  | .client owner => owner.jump.map .client
  | .handle owner => some (.client owner)

def Guard.rank : Guard → Nat
  | .client owner => owner.depth
  | .handle owner => owner.depth + 1

def closeLayers : Layers Guard where
  inner := Guard.inner
  rank := Guard.rank
  descends := by
    intro guard below hbelow
    rcases guard with ⟨transport, _ | jump⟩ | owner
    · cases hbelow
    · cases hbelow
      exact Nat.lt_succ_self _
    · cases hbelow
      exact Nat.lt_succ_self _

/-! ## The shared state -/

/-- The contexts of a call, what they are to close, and what has been closed. -/
structure Ownership where
  /-- `ctx.Err()` -/
  parent : Option String
  /-- `setup.Err()` -/
  setup : Option String
  /-- The client of `context.AfterFunc(setup, client.Close)`, neither stopped nor started. -/
  armed : Option Client
  /-- The client of `context.AfterFunc(ctx, client.Close)`, neither stopped nor started. -/
  registered : Option Client
  /-- The goroutines of `watch` that still wait. -/
  watching : List Client
  /-- What somebody outside the call may close as well. -/
  holders : List Guard
  /-- Somebody outside the call has closed something. -/
  asked : Bool
  opened : List Transport
  /-- The connections that were closed without a guard. -/
  dropped : List Transport
  closing : Closing Guard

namespace Ownership

/-- A transport has been closed, by the client that owns it or directly. -/
def Closed (state : Ownership) (transport : Transport) : Prop :=
  transport ∈ state.dropped ∨
    ∃ client : Client, client.transport = transport ∧
      0 < state.closing.guards.lasts (.client client)

/-- `s.stop()`, the first action of closing a handle. -/
def stopped (registered : Option Client) : CloseOp Guard → Option Client
  | .first (.handle owner) => if registered = some owner then none else registered
  | _ => registered

/-- A goroutine goes on. -/
inductive Goroutine (state : Ownership) : Ownership → Prop where
  | callback {client : Client} (ended : state.setup ≠ none) (armed : state.armed = some client) :
      Goroutine state { state with
        armed := none
        closing := state.closing.spawn (.client client) }
  | registered {client : Client} (cancelled : state.parent ≠ none)
      (registered : state.registered = some client) :
      Goroutine state { state with
        registered := none
        closing := state.closing.spawn (.client client) }
  | wakes {client : Client} (cancelled : state.parent ≠ none) (waits : client ∈ state.watching) :
      Goroutine state { state with
        watching := state.watching.erase client
        closing := state.closing.spawn (.client client) }
  /-- The `done` channel of the client is closed. -/
  | retires {client : Client} (closed : 0 < state.closing.guards.firsts (.client client))
      (waits : client ∈ state.watching) :
      Goroutine state { state with watching := state.watching.erase client }
  | closes {op : CloseOp Guard} {closing : Closing Guard}
      (step : Closing.Step closeLayers state.closing op closing) :
      Goroutine state { state with
        registered := stopped state.registered op
        closing := closing }

/-- Whatever may happen between two steps of a call. -/
inductive Around (state : Ownership) : Ownership → Prop where
  | goroutine {after : Ownership} (goes : Goroutine state after) : Around state after
  | cancelled (live : state.parent = none) (err : String) :
      Around state { state with parent := some err }
  /-- The timer has fired, or the cancellation of the parent has arrived. -/
  | ended (live : state.setup = none) (err : String) :
      Around state { state with setup := some err }
  | asks {guard : Guard} (held : guard ∈ state.holders) :
      Around state { state with
        asked := true
        closing := state.closing.spawn guard }

/-- The caller's own thread, the first one, is not within a `Close`. -/
def Idle (state : Ownership) : Prop := ∃ others, state.closing.threads = [] :: others

/-- The caller closes a guard, with everything else going on, until its `Close` returns. -/
def Closes (guard : Guard) (before after : Ownership) : Prop :=
  ∃ others, before.closing.threads = [] :: others ∧
    Relation.ReflTransGen Around
      { before with closing := ⟨before.closing.guards, [.enter guard] :: others⟩ } after ∧
    after.Idle

end Ownership

/-! ## What the commands of a call do -/

def errCanceled : String := "context canceled"

/-- The network may answer as it likes. -/
def owned (ssh : SSH) : Service (network ssh) Ownership
  | state, .contextErr, reply, after => reply = state.parent ∧ after = state
  | state, .withTimeout, _, after => after = { state with setup := state.parent }
  | state, .cancel, _, after => after = { state with setup := state.setup <|> some errCanceled }
  | state, .setupErr, reply, after => reply = state.setup ∧ after = state
  | state, .afterFunc client, _, after => after = { state with armed := some client }
  | state, .stop, reply, after =>
      reply = state.armed.isSome ∧ after = { state with armed := none }
  | state, .dialContext _, .error _, after => after = state
  | state, .dialContext address, .ok (), after =>
      after = { state with opened := .tcp address :: state.opened }
  | state, .dialChannel _ _, .error _, after => after = state
  | state, .dialChannel client address, .ok (), after =>
      after = { state with opened := .channel client.transport address :: state.opened }
  | state, .newClientConn _ _ _, _, after => after = state
  | state, .watch client, _, after => after = { state with watching := client :: state.watching }
  | state, .close client, _, after => state.Closes (.client client) after
  | state, .closeConn transport, _, after =>
      after = { state with dropped := transport :: state.dropped }

end OpsUp.SshClient
