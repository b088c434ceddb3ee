import OpsUp.Go.Strings
import OpsUp.Interaction.RelyGuarantee

/-!
# SSH connections

`Dial` connects directly and `DialViaJump` through one established client.  The
SSH library, the network and the clock are the services of a program: what a peer
answers is not fixed, only that a handshake does not succeed unless the host-key
callback has accepted the presented key.
-/

namespace OpsUp.SshClient

open OpsUp.Go OpsUp.Interaction

structure Config where
  host : String
  port : Int
  username : String
  authType : String
  privateKey : Bytes
  password : Bytes
  hostKey : String

/-- What is used of the SSH library. -/
structure SSH where
  PublicKey : Type
  Signer : Type
  fingerprintSHA256 : PublicKey → String
  parsePrivateKey : Bytes → Except String Signer

/-- A socket, or a channel through an established client. -/
inductive Transport where
  | tcp (address : String)
  | channel (through : Transport) (address : String)
  deriving DecidableEq

/-- The owner of the target and, when present, of the jump transport. -/
structure Client where
  transport : Transport
  jump : Option Client

variable (ssh : SSH)

inductive AuthMethod where
  | password (secret : Bytes)
  | publicKeys (signer : ssh.Signer)

/-- The callback answers `none` when it accepts the key. -/
structure ClientConfig where
  user : String
  auth : AuthMethod ssh
  hostKeyCallback : String → ssh.PublicKey → Option String

def errNotPinned (hostname observed : String) : String :=
  "host key not pinned for " ++ hostname ++ "; observed " ++ observed ++
    "; independently verify this fingerprint before saving it"

def errMismatch (hostname pin observed : String) : String :=
  "host key mismatch for " ++ hostname ++ ": expected " ++ pin ++ ", observed " ++ observed ++
    "; independently verify the server identity"

def hostKeyCallback (pin hostname : String) (key : ssh.PublicKey) : Option String :=
  let observed := ssh.fingerprintSHA256 key
  if pin = "" then some (errNotPinned hostname observed)
  else if pin ≠ observed then some (errMismatch hostname pin observed)
  else none

/-- A key is accepted when the pin is set and is its fingerprint. -/
theorem hostKeyCallback_eq_none_iff {pin hostname : String} {key : ssh.PublicKey} :
    hostKeyCallback ssh pin hostname key = none ↔
      ssh.fingerprintSHA256 key = pin ∧ pin ≠ "" := by
  unfold hostKeyCallback
  by_cases hpin : pin = ""
  · simp [hpin]
  · by_cases hkey : pin = ssh.fingerprintSHA256 key
    · simp [hpin, hkey.symm]
    · simp [hpin, hkey, Ne.symm hkey]

/-- Error texts quote the type without escapes. -/
def makeAuth (cfg : Config) : Except String (AuthMethod ssh) :=
  if cfg.authType = "password" then
    if cfg.password = [] then .error "no password available"
    else .ok (.password cfg.password)
  else if cfg.authType = "key" then
    match ssh.parsePrivateKey cfg.privateKey with
    | .error err => .error ("parse private key: " ++ err)
    | .ok signer => .ok (.publicKeys signer)
  else .error ("unsupported authentication type \"" ++ cfg.authType ++ "\"")

def makeConfig (cfg : Config) : Except String (ClientConfig ssh) :=
  match makeAuth ssh cfg with
  | .error err => .error err
  | .ok method => .ok ⟨cfg.username, method, hostKeyCallback ssh cfg.hostKey⟩

/-! ## The environment of a connection -/

inductive NetworkCommand where
  /-- `ctx.Err()` -/
  | contextErr
  /-- `context.WithTimeout(ctx, SetupTimeout)` -/
  | withTimeout
  | cancel
  /-- `setup.Err()` -/
  | setupErr
  /-- `context.AfterFunc(setup, client.Close)` -/
  | afterFunc (client : Client)
  | stop
  | dialContext (address : String)
  /-- `client.Dial("tcp", address)` -/
  | dialChannel (client : Client) (address : String)
  | newClientConn (transport : Transport) (address : String) (config : ClientConfig ssh)
  | watch (client : Client)
  | close (client : Client)
  | closeConn (transport : Transport)

/-- A successful handshake tells which key the peer has presented. -/
@[reducible]
def NetworkCommand.Reply {ssh : SSH} : NetworkCommand ssh → Type
  | .contextErr => Option String
  | .withTimeout => Unit
  | .cancel => Unit
  | .setupErr => Option String
  | .afterFunc _ => Unit
  | .stop => Bool
  | .dialContext _ => Except String Unit
  | .dialChannel _ _ => Except String Unit
  | .newClientConn _ _ _ => Except String ssh.PublicKey
  | .watch _ => Unit
  | .close _ => Unit
  | .closeConn _ => Unit

abbrev network : Interface where
  Command := NetworkCommand ssh
  Reply := NetworkCommand.Reply

abbrev Net := Program (network ssh)

/-- `(*Client, error)`. -/
abbrev Dialed := Option Client × Option String

/-- `ssh.NewClientConn` does not succeed with a key that the callback rejects. -/
def ChecksHostKeys {τ : Type} (net : Service (network ssh) τ) : Prop :=
  ∀ before transport address config key after,
    net before (.newClientConn transport address config) (.ok key) after →
      config.hostKeyCallback address key = none

/-! ## The programs -/

section Programs

variable {ssh : SSH}

/-- `owner.Close(); return nil, setup.Err()`. -/
def abandon (owner : Client) : Net ssh Dialed :=
  .call (.close owner) fun _ => .call .setupErr fun err => .ret (none, err)

/-- The check after the handshake: the setup must not have ended in between. -/
def settle (owner : Client) : Net ssh Dialed :=
  .call .stop fun stopped =>
    if stopped = false then abandon owner
    else
      .call .setupErr fun
        | some _ => abandon owner
        | none => .call (.watch owner) fun _ => .ret (some owner, none)

/-- The body runs with the setup timer armed to close the client. -/
def guarded (client : Client) (body : Net ssh Dialed) : Net ssh Dialed :=
  .call (.afterFunc client) fun _ => do
    let result ← body
    .call .stop fun _ => .ret result

/-- The body runs under `SetupTimeout`. -/
def withSetup (body : Net ssh Dialed) : Net ssh Dialed :=
  .call .withTimeout fun _ => do
    let result ← body
    .call .cancel fun _ => .ret result

/-- `fmt.Errorf(context + " %w", err)`, with the error of the setup when it has ended. -/
def fail (context err : String) : Net ssh Dialed :=
  .call .setupErr fun setupErr => .ret (none, some (context ++ setupErr.getD err))

def handshake (owner : Client) (address : String) (config : ClientConfig ssh) : Net ssh Dialed :=
  .call (.newClientConn owner.transport address config) fun
    | .error err => .call (.close owner) fun _ => fail ("ssh handshake " ++ address ++ ": ") err
    | .ok _ => settle owner

variable (ssh)

def dial (cfg : Config) : Net ssh Dialed :=
  match makeConfig ssh cfg with
  | .error err => .ret (none, some err)
  | .ok config =>
      let address := joinHostPort cfg.host (itoa cfg.port)
      withSetup <| .call (.dialContext address) fun
        | .error err => .ret (none, some ("ssh dial " ++ address ++ ": " ++ err))
        | .ok () =>
            let owner : Client := ⟨.tcp address, none⟩
            guarded owner (handshake owner address config)

variable {ssh}

def tunnel (jumpClient : Client) (address : String) (config : ClientConfig ssh) : Net ssh Dialed :=
  .call (.dialChannel jumpClient address) fun
    | .error err => .call (.close jumpClient) fun _ => fail ("jump dial " ++ address ++ ": ") err
    | .ok () =>
        let conn : Transport := .channel jumpClient.transport address
        .call (.newClientConn conn address config) fun
          | .error err =>
              .call (.close jumpClient) fun _ => .call (.closeConn conn) fun _ =>
                fail ("target handshake " ++ address ++ ": ") err
          | .ok _ => settle ⟨conn, some jumpClient⟩

def errNilPointer : String := "invalid memory address or nil pointer dereference"

variable (ssh)

/-- Going on without a client and without an error would be a crash. -/
def dialViaJump (jump target : Config) : Net ssh Dialed :=
  match makeConfig ssh target with
  | .error err => .ret (none, some err)
  | .ok targetConfig => do
      match ← dial ssh jump with
      | (_, some err) => pure (none, some ("jump host: " ++ err))
      | (none, none) => pure (none, some errNilPointer)
      | (some jumpClient, none) =>
          let address := joinHostPort target.host (itoa target.port)
          withSetup (guarded jumpClient (tunnel jumpClient address targetConfig))

end Programs

/-! ## What a connection attempts -/

/-- What a peer sees of a connection: it is contacted, or a handshake begins with it. -/
inductive Attempt where
  | socket (address : String)
  | channel (through : Transport) (address : String)
  | handshake (transport : Transport) (config : ClientConfig ssh)

variable {ssh}

def attempt : Event (network ssh) → Option (Attempt ssh)
  | ⟨.dialContext address, _⟩ => some (.socket address)
  | ⟨.dialChannel client address, _⟩ => some (.channel client.transport address)
  | ⟨.newClientConn transport _ config, _⟩ => some (.handshake transport config)
  | _ => none

def attempts (events : List (Event (network ssh))) : List (Attempt ssh) :=
  events.filterMap attempt

@[simp]
theorem attempts_nil : (attempts [] : List (Attempt ssh)) = [] := rfl

@[simp]
theorem attempts_append (front back : List (Event (network ssh))) :
    attempts (front ++ back) = attempts front ++ attempts back := List.filterMap_append

@[simp]
theorem attempts_quiet {event : Event (network ssh)} (quiet : attempt event = none) :
    attempts [event] = [] := by
  simp [attempts, quiet]

/-- A handshake on this transport succeeded, with a key the callback accepts. -/
def Handshaken (events : List (Event (network ssh))) (transport : Transport)
    (config : ClientConfig ssh) : Prop :=
  ∃ address key,
    (⟨.newClientConn transport address config, .ok key⟩ : Event (network ssh)) ∈ events ∧
      config.hostKeyCallback address key = none

theorem Handshaken.mono {events later : List (Event (network ssh))} {transport : Transport}
    {config : ClientConfig ssh} (shaken : Handshaken events transport config)
    (more : events ⊆ later) : Handshaken later transport config := by
  obtain ⟨address, key, hmem, haccepted⟩ := shaken
  exact ⟨address, key, more hmem, haccepted⟩

/-- A peer of a connection: the transport to it, and the configuration used with it. -/
abbrev Peer (ssh : SSH) := Transport × ClientConfig ssh

/--
Only the given client is returned, and only at the end of the path, when the
handshake with every peer has succeeded.  Neither a client nor an error is
returned only after an attempt.
-/
structure Ended (allowed : List (Attempt ssh) → Prop) (path : List (Attempt ssh))
    (peers : List (Peer ssh)) (owner : Client) (result : Dialed)
    (events : List (Event (network ssh))) : Prop where
  allowed : allowed (attempts events)
  client : ∀ client, result.1 = some client → client = owner
  path : ∀ client, result.1 = some client → attempts events = path
  peers : ∀ client, result.1 = some client → ∀ peer ∈ peers, Handshaken events peer.1 peer.2
  silent : result = (none, none) → attempts events ≠ []

section Rules

open Program

variable {τ : Type} {net : Service (network ssh) τ} {allowed : List (Attempt ssh) → Prop}
  {history : List (Event (network ssh))} {state : τ} {α : Type} {path : List (Attempt ssh)}
  {peers : List (Peer ssh)} {owner : Client}

/-- The attempts of a program go on as allowed. -/
abbrev attempting (allowed : List (Attempt ssh) → Prop) : Discipline (network ssh) τ :=
  .tracing fun events => allowed (attempts events)

theorem Ended.later {result : Dialed} {events later : List (Event (network ssh))}
    (ended : Ended allowed path peers owner result events)
    (same : attempts later = attempts events) (more : events ⊆ later) :
    Ended allowed path peers owner result later where
  allowed := same ▸ ended.allowed
  client := ended.client
  path := fun client hclient => same.trans (ended.path client hclient)
  peers := fun client hclient peer hpeer => (ended.peers client hclient peer hpeer).mono more
  silent := fun hresult => same ▸ ended.silent hresult

theorem ended_error (before : allowed (attempts history)) (err : String) :
    Ended allowed path peers owner (none, some err) history :=
  ⟨before, nofun, nofun, nofun, nofun⟩

/-- A command that is no attempt. -/
theorem keeps_quiet {command : NetworkCommand ssh} {next : command.Reply → Net ssh α}
    {post : α → List (Event (network ssh)) → τ → Prop}
    (quiet : ∀ reply, attempt (⟨command, reply⟩ : Event (network ssh)) = none)
    (before : allowed (attempts history))
    (rest : ∀ reply events after, attempts events = attempts history → history ⊆ events →
      (next reply).Keeps net (attempting allowed) post events after) :
    Keeps net (attempting allowed) post (.call command next) history state := by
  refine keeps_tracing_call fun reply after _ => ?_
  have hsame : attempts (history ++ [⟨command, reply⟩]) = attempts history := by
    rw [attempts_append, attempts_quiet (quiet reply), List.append_nil]
  refine ⟨?_, rest reply _ after hsame (List.subset_append_left _ _)⟩
  rw [hsame]
  exact before

theorem keeps_abandon (before : allowed (attempts history)) (tried : attempts history ≠ [])
    (client : Client) :
    (abandon client : Net ssh Dialed).Keeps net (attempting allowed)
      (fun result events _ => Ended allowed path peers owner result events) history state := by
  refine keeps_quiet (fun _ => rfl) before fun _ events after hsame _ => ?_
  refine keeps_quiet (fun _ => rfl) (hsame ▸ before) fun err later final hlater _ => ?_
  exact keeps_tracing_ret ⟨hlater ▸ hsame ▸ before, nofun, nofun, nofun,
    fun _ => hlater ▸ hsame ▸ tried⟩

theorem keeps_fail (before : allowed (attempts history)) (context err : String) :
    (fail context err : Net ssh Dialed).Keeps net (attempting allowed)
      (fun result events _ => Ended allowed path peers owner result events) history state := by
  refine keeps_quiet (fun _ => rfl) before fun _ events after hsame _ => ?_
  exact keeps_tracing_ret (ended_error (hsame ▸ before) _)

theorem keeps_settle (before : allowed (attempts history)) (reached : attempts history = path)
    (tried : attempts history ≠ [])
    (shaken : ∀ peer ∈ peers, Handshaken history peer.1 peer.2) :
    (settle owner : Net ssh Dialed).Keeps net (attempting allowed)
      (fun result events _ => Ended allowed path peers owner result events) history state := by
  refine keeps_quiet (fun _ => rfl) before fun stopped events after hsame hmore => ?_
  have hbefore : allowed (attempts events) := hsame ▸ before
  have htried : attempts events ≠ [] := hsame ▸ tried
  split
  · exact keeps_abandon hbefore htried owner
  · refine keeps_quiet (fun _ => rfl) hbefore fun err later final hlater hmore' => ?_
    have hbefore' : allowed (attempts later) := hlater ▸ hbefore
    cases err with
    | some err => exact keeps_abandon hbefore' (hlater ▸ htried) owner
    | none =>
        refine keeps_quiet (fun _ => rfl) hbefore' fun _ last finish hlast hmore'' => ?_
        refine keeps_tracing_ret ⟨hlast ▸ hbefore', ?_, ?_, ?_, nofun⟩
        · exact fun client hclient => (Option.some.inj hclient).symm
        · exact fun _ _ => (hlast.trans (hlater.trans hsame)).trans reached
        · exact fun _ _ peer hpeer =>
            (shaken peer hpeer).mono fun event hevent => hmore'' (hmore' (hmore hevent))

theorem keeps_guarded {client : Client} {body : Net ssh Dialed}
    (before : allowed (attempts history))
    (kept : ∀ events after, attempts events = attempts history → history ⊆ events →
      body.Keeps net (attempting allowed)
        (fun result events _ => Ended allowed path peers owner result events) events after) :
    (guarded client body).Keeps net (attempting allowed)
      (fun result events _ => Ended allowed path peers owner result events) history state := by
  refine keeps_quiet (fun _ => rfl) before fun _ events after hsame hmore => ?_
  refine Keeps.bind ((kept events after hsame hmore).mono fun result later final ended => ?_)
  refine keeps_quiet (fun _ => rfl) ended.allowed fun _ last finish hlast hmore' => ?_
  exact keeps_tracing_ret (ended.later hlast hmore')

theorem keeps_withSetup {body : Net ssh Dialed}
    (before : allowed (attempts history))
    (kept : ∀ events after, attempts events = attempts history → history ⊆ events →
      body.Keeps net (attempting allowed)
        (fun result events _ => Ended allowed path peers owner result events) events after) :
    (withSetup body).Keeps net (attempting allowed)
      (fun result events _ => Ended allowed path peers owner result events) history state := by
  refine keeps_quiet (fun _ => rfl) before fun _ events after hsame hmore => ?_
  refine Keeps.bind ((kept events after hsame hmore).mono fun result later final ended => ?_)
  refine keeps_quiet (fun _ => rfl) ended.allowed fun _ last finish hlast hmore' => ?_
  exact keeps_tracing_ret (ended.later hlast hmore')

/-- A handshake, with what follows it in either case. -/
theorem keeps_newClientConn (checks : ChecksHostKeys ssh net) {transport : Transport}
    {address : String} {config : ClientConfig ssh}
    {next : Except String ssh.PublicKey → Net ssh α}
    {post : α → List (Event (network ssh)) → τ → Prop}
    (go : allowed (attempts history ++ [.handshake transport config]))
    (failed : ∀ err events after,
      attempts events = attempts history ++ [.handshake transport config] →
        (next (.error err)).Keeps net (attempting allowed) post events after)
    (passed : ∀ key events after,
      attempts events = attempts history ++ [.handshake transport config] → history ⊆ events →
        Handshaken events transport config →
          (next (.ok key)).Keeps net (attempting allowed) post events after) :
    Keeps net (attempting allowed) post (.call (.newClientConn transport address config) next)
      history state := by
  refine keeps_tracing_call fun reply after answer => ?_
  have hattempts : attempts (history ++ [⟨.newClientConn transport address config, reply⟩]) =
      attempts history ++ [.handshake transport config] := attempts_append _ _
  refine ⟨hattempts ▸ go, ?_⟩
  cases reply with
  | error err => exact failed err _ after hattempts
  | ok key =>
      refine passed key _ after hattempts (List.subset_append_left _ _) ?_
      exact ⟨address, key, by simp, checks _ _ _ _ _ _ answer⟩

def Config.address (cfg : Config) : String := joinHostPort cfg.host (itoa cfg.port)

def Config.tcp (cfg : Config) : Transport := .tcp cfg.address

/-- The client `Dial` makes. -/
def Config.client (cfg : Config) : Client := ⟨cfg.tcp, none⟩

/-- What `Dial` attempts: a socket, then a handshake on it. -/
def Config.directPath (cfg : Config) (config : ClientConfig ssh) : List (Attempt ssh) :=
  [.socket cfg.address, .handshake cfg.tcp config]

theorem keeps_dial (checks : ChecksHostKeys ssh net) {cfg : Config} {config : ClientConfig ssh}
    (made : makeConfig ssh cfg = .ok config)
    (allowing : ∀ part, part <+: cfg.directPath config → allowed (attempts history ++ part)) :
    (dial ssh cfg).Keeps net (attempting allowed)
      (fun result events _ => Ended allowed (attempts history ++ cfg.directPath config)
        [(cfg.tcp, config)] cfg.client result events) history state := by
  have before : allowed (attempts history) := by simpa using allowing [] List.nil_prefix
  have hsocket : allowed (attempts history ++ [.socket cfg.address]) :=
    allowing _ ⟨[.handshake cfg.tcp config], rfl⟩
  have hhandshake : allowed (attempts history ++ cfg.directPath config) :=
    allowing _ (List.prefix_refl _)
  unfold dial
  rw [made]
  refine keeps_withSetup before fun events after hsame _ => ?_
  refine keeps_tracing_call fun reply final _ => ?_
  have hattempts : attempts (events ++ [⟨.dialContext cfg.address, reply⟩]) =
      attempts history ++ [.socket cfg.address] := (attempts_append _ _).trans (hsame ▸ rfl)
  refine ⟨hattempts ▸ hsocket, ?_⟩
  cases reply with
  | error err => exact keeps_tracing_ret (ended_error (hattempts ▸ hsocket) _)
  | ok _ =>
      refine keeps_guarded (hattempts ▸ hsocket) fun later _ hlater _ => ?_
      have hpath : attempts later ++ [.handshake cfg.tcp config] =
          attempts history ++ cfg.directPath config := by
        rw [hlater]
        exact (congrArg (· ++ _) hattempts).trans (List.append_assoc _ _ _)
      refine keeps_newClientConn checks (hpath ▸ hhandshake) ?_ ?_
      · intro err last finish hlast
        have hlast' := hlast.trans hpath
        refine keeps_quiet (fun _ => rfl) (hlast' ▸ hhandshake) fun _ end' _ hend _ => ?_
        exact keeps_fail (hend ▸ hlast' ▸ hhandshake) _ _
      · intro key last finish hlast _ shaken
        have hlast' := hlast.trans hpath
        refine keeps_settle (hlast' ▸ hhandshake) hlast' (by simp [hlast', Config.directPath]) ?_
        intro peer hpeer
        obtain rfl := List.mem_singleton.mp hpeer
        exact shaken

/-- The transport of the target behind a jump host. -/
def Config.behind (target jump : Config) : Transport := .channel jump.tcp target.address

/-- What `DialViaJump` attempts: the jump host, a channel through it, the target. -/
def Config.jumpPath (target jump : Config) (config jumpConfig : ClientConfig ssh) :
    List (Attempt ssh) :=
  jump.directPath jumpConfig ++
    [.channel jump.tcp target.address, .handshake (target.behind jump) config]

theorem keeps_dialViaJump (checks : ChecksHostKeys ssh net) {jump target : Config}
    {config jumpConfig : ClientConfig ssh} (made : makeConfig ssh target = .ok config)
    (jumpMade : makeConfig ssh jump = .ok jumpConfig)
    (allowing : ∀ part, part <+: target.jumpPath jump config jumpConfig →
      allowed (attempts history ++ part)) :
    (dialViaJump ssh jump target).Keeps net (attempting allowed)
      (fun result events _ => Ended allowed
        (attempts history ++ target.jumpPath jump config jumpConfig)
        [(jump.tcp, jumpConfig), (target.behind jump, config)]
        ⟨target.behind jump, some jump.client⟩ result events) history state := by
  unfold dialViaJump
  rw [made]
  refine Keeps.bind ((keeps_dial checks jumpMade fun part hpart =>
    allowing part (hpart.trans (List.prefix_append _ _))).mono ?_)
  rintro ⟨client, err⟩ events after ended
  rcases err with _ | err
  · rcases client with _ | client
    · exact keeps_tracing_ret (ended_error ended.allowed _)
    · obtain rfl := ended.client client rfl
      have hdirect := ended.path _ rfl
      have hshaken := ended.peers _ rfl _ List.mem_cons_self
      refine keeps_withSetup ended.allowed fun later final hlater hmore => ?_
      refine keeps_guarded (hlater ▸ ended.allowed) fun last finish hlast hmore' => ?_
      refine keeps_tracing_call fun reply final _ => ?_
      have hchannel : attempts (last ++ [⟨.dialChannel jump.client target.address, reply⟩]) =
          attempts history ++ (jump.directPath jumpConfig ++
            [.channel jump.tcp target.address]) := by
        rw [attempts_append, hlast, hlater, hdirect, List.append_assoc]
        rfl
      have hallowed : allowed (attempts history ++ (jump.directPath jumpConfig ++
          [.channel jump.tcp target.address])) :=
        allowing _ ⟨[.handshake (target.behind jump) config], by simp [Config.jumpPath]⟩
      refine ⟨hchannel ▸ hallowed, ?_⟩
      have hpath : attempts (last ++ [⟨.dialChannel jump.client target.address, reply⟩]) ++
          [.handshake (target.behind jump) config] =
            attempts history ++ target.jumpPath jump config jumpConfig := by
        rw [hchannel]
        simp [Config.jumpPath]
      have hwhole := allowing _ (List.prefix_refl _)
      cases reply with
      | error err =>
          refine keeps_quiet (fun _ => rfl) (hchannel ▸ hallowed) fun _ end' _ hend _ => ?_
          exact keeps_fail (hend ▸ hchannel ▸ hallowed) _ _
      | ok _ =>
          refine keeps_newClientConn checks (hpath ▸ hwhole) ?_ ?_
          · intro err end' _ hend
            have hend' := hend.trans hpath
            refine keeps_quiet (fun _ => rfl) (hend' ▸ hwhole) fun _ end₂ _ hend₂ _ => ?_
            refine keeps_quiet (fun _ => rfl) (hend₂ ▸ hend' ▸ hwhole) fun _ end₃ _ hend₃ _ => ?_
            exact keeps_fail (hend₃ ▸ hend₂ ▸ hend' ▸ hwhole) _ _
          · intro key end' _ hend hmore'' shaken
            have hend' := hend.trans hpath
            refine keeps_settle (hend' ▸ hwhole) hend' (by simp [hend', Config.jumpPath]) ?_
            intro peer hpeer
            rcases List.mem_cons.mp hpeer with rfl | hpeer
            · refine hshaken.mono fun event hevent => hmore'' ?_
              exact List.mem_append_left _ (hmore' (hmore hevent))
            · obtain rfl := List.mem_singleton.mp hpeer
              exact shaken
  · exact keeps_tracing_ret (ended_error ended.allowed _)

end Rules

end OpsUp.SshClient
