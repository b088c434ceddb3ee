import OpsUp.SshClient.Ownership

/-!
# Terminal sessions and handed-over clients

`NewSession` takes over an established client: until its own setup has succeeded a
timer closes the client, afterwards the context of the caller does.  The requests
on the session channel may fail as they like.
-/

namespace OpsUp.SshClient

open OpsUp.Interaction

def defaultTerm : String := "xterm-256color"

/-- What is asked of an established client. -/
inductive SessionCommand where
  /-- `client.NewSession()` -/
  | newSession (client : Client)
  | stdinPipe
  | stdoutPipe
  | stderrPipe
  | requestPty (term : String) (rows cols : Int)
  | shell
  /-- `sess.Close()` of the SSH session. -/
  | closeSession
  /-- `sftp.NewClient(client)` -/
  | newSftp (client : Client)
  /-- `context.AfterFunc(ctx, client.Close)`; the handle keeps its `stop`. -/
  | afterFunc (client : Client)
  /-- `Close` of the handle over the client. -/
  | closeHandle (client : Client)

@[reducible]
def SessionCommand.Reply : SessionCommand → Type
  | .newSession _ => Except String Unit
  | .stdinPipe => Except String Unit
  | .stdoutPipe => Except String Unit
  | .stderrPipe => Except String Unit
  | .requestPty _ _ _ => Except String Unit
  | .shell => Except String Unit
  | .closeSession => Unit
  | .newSftp _ => Except String Unit
  | .afterFunc _ => Unit
  | .closeHandle _ => Unit

abbrev sessions : Interface where
  Command := SessionCommand
  Reply := SessionCommand.Reply

abbrev owning (ssh : SSH) : Interface := (network ssh).sum sessions

/-- Programs that also use established clients. -/
abbrev Owning (ssh : SSH) := Program (owning ssh)

/-- Requests change nothing that is owned. -/
def sessionOwned : Service sessions Ownership
  | state, .afterFunc client, _, after => after = { state with registered := some client }
  | state, .closeHandle client, _, after => state.Closes (.handle client) after
  | state, _, _, after => after = state

/-- The commands of both kinds act on one state. -/
def ownership (ssh : SSH) : Service (owning ssh) Ownership
  | state, .inl command, reply, after => owned ssh state command reply after
  | state, .inr command, reply, after => sessionOwned state command reply after

/-- A session or an SFTP client, by the client that it has taken over. -/
structure Handle where
  client : Client

/-- `(*Session, error)` and `(*sftpclient.Client, error)`. -/
abbrev Handed := Option Handle × Option String

section Programs

variable {ssh : SSH}

/-- The body runs under `SetupTimeout`, with the setup timer armed to close the client. -/
def takingOver (client : Client) (body : Owning ssh Handed) : Owning ssh Handed :=
  .call (.inl .withTimeout) fun _ => .call (.inl (.afterFunc client)) fun _ => do
    let result ← body
    .call (.inl .stop) fun _ => .call (.inl .cancel) fun _ => .ret result

/-- `handle.Close(); return nil, setup.Err()`. -/
def abandonHandle (client : Client) : Owning ssh Handed :=
  .call (.inr (.closeHandle client)) fun _ =>
    .call (.inl .setupErr) fun err => .ret (none, err)

/-- The context watches the client from now on; the setup must not have ended in between. -/
def settleHandle (client : Client) : Owning ssh Handed :=
  .call (.inr (.afterFunc client)) fun _ =>
    .call (.inl .stop) fun stopped =>
      if stopped = false then abandonHandle client
      else
        .call (.inl .setupErr) fun
          | some _ => abandonHandle client
          | none => .ret (some ⟨client⟩, none)

/-- `fail` of the unexported `newSession`: close the client, then the session. -/
def failSession (client : Client) (err : String) : Owning ssh (Except String Unit) :=
  .call (.inl (.close client)) fun _ => .call (.inr .closeSession) fun _ => .ret (.error err)

/-- Go on when the request has succeeded. -/
def orFail (client : Client) (context : String) (rest : Owning ssh (Except String Unit)) :
    Except String Unit → Owning ssh (Except String Unit)
  | .error err => failSession client (context ++ err)
  | .ok () => rest

/-- The unexported `newSession`. -/
def openSession (client : Client) (cols rows : Int) : Owning ssh (Except String Unit) :=
  .call (.inr (.newSession client)) fun
    | .error err => .ret (.error ("new session: " ++ err))
    | .ok () =>
        .call (.inr .stdinPipe) <| orFail client "stdin pipe: " <|
        .call (.inr .stdoutPipe) <| orFail client "stdout pipe: " <|
        .call (.inr .stderrPipe) <| orFail client "stderr pipe: " <|
        .call (.inr (.requestPty defaultTerm (if rows ≤ 0 then 24 else rows)
          (if cols ≤ 0 then 80 else cols))) <| orFail client "request pty: " <|
        .call (.inr .shell) <| orFail client "start shell: " <| .ret (.ok ())

variable (ssh)

def newSession (client : Client) (cols rows : Int) : Owning ssh Handed :=
  takingOver client do
    match ← openSession client cols rows with
    | .error err =>
        .call (.inl (.close client)) fun _ =>
          .call (.inl .setupErr) fun setupErr => .ret (none, some (setupErr.getD err))
    | .ok () => settleHandle client

end Programs

end OpsUp.SshClient
