import OpsUp.Crypto.Encryption
import OpsUp.Models.Server
import OpsUp.SshClient.Client

/-!
# Connections to stored servers

`dialServer` turns a record into a connection: direct, or through the one jump
host the record names.  The database answers from the table, the network answers
as it likes.
-/

namespace OpsUp.Api

open OpsUp.Crypto OpsUp.Database OpsUp.Go OpsUp.Interaction OpsUp.Models OpsUp.SshClient
open OpsUp.Storage

/-! ## Loading a record -/

def connectionColumns : List Column :=
  [.id, .host, .port, .username, .authType, .hostKey, .privateKey, .password, .jumpServerId,
    .protocol]

/-- The fields that are not selected stay empty. -/
def scanConnectionServer : List Value → Except String Server
  | [id, host, port, username, authType, hostKey, privateKey, password, jumpServerId,
      protocol] => do
      let id ← scanInteger id
      let host ← scanText host
      let port ← scanInteger port
      let username ← scanText username
      let authType ← scanText authType
      let hostKey ← scanText hostKey
      let privateKey ← scanText privateKey
      let password ← scanText password
      let jumpServerId ← scanNullableInteger jumpServerId
      let protocol ← scanText protocol
      .ok { protocol, rdpDomain := "", rdpCertFingerprint := "", id, name := "", host, port,
            username, authType, hostKey, privateKey, password, description := "", group := "",
            jumpServerId, createdAt := "", updatedAt := "" }
  | _ => .error errScanCount

def scanConnection : Except String (Option (List Value)) → Except String (Option Server)
  | .error err => .error err
  | .ok none => .ok none
  | .ok (some values) => (scanConnectionServer values).map some

/-- `nil` without an error when there is no such row. -/
def loadConnectionServer (id : Int) : DB (Except String (Option Server)) :=
  .call (.selectServer connectionColumns id) fun reply => .ret (scanConnection reply)

/-- The record that a row with this password loads as. -/
def connectionServer (row : Row) (password : String) : Server where
  protocol := row.protocol
  rdpDomain := ""
  rdpCertFingerprint := ""
  id := row.id
  name := ""
  host := row.host
  port := row.port
  username := row.username
  authType := row.authType
  hostKey := row.hostKey
  privateKey := row.privateKey
  password := password
  description := ""
  group := ""
  jumpServerId := row.jumpServerId
  createdAt := ""
  updatedAt := ""

theorem scanConnectionServer_values (row : Row) :
    scanConnectionServer (row.values connectionColumns) =
      match row.password with
      | none => .error errNull
      | some password => .ok (connectionServer row password) := by
  cases hpassword : row.password <;> cases hjump : row.jumpServerId <;>
    simp [connectionColumns, Row.values, Row.value, scanConnectionServer, hpassword, hjump,
      Value.ofText?, Value.ofInteger?, scanText, scanInteger, scanNullableInteger,
      connectionServer, bind, Except.bind]

/-- A record that was loaded is a row of the table. -/
theorem scanConnection_eq_some {table : ServersTable} {id : Int} {server : Server}
    (loaded : scanConnection (.ok ((table.find id).map fun row => row.values connectionColumns)) =
      .ok (some server)) :
    ∃ row password, table.find id = some row ∧ row.password = some password ∧
      server = connectionServer row password := by
  cases hfind : table.find id with
  | none =>
      rw [hfind] at loaded
      cases loaded
  | some row =>
      rw [hfind] at loaded
      simp only [scanConnection, Option.map_some, scanConnectionServer_values] at loaded
      cases hpassword : row.password with
      | none => simp [hpassword, Except.map] at loaded
      | some password =>
          refine ⟨row, password, rfl, hpassword, ?_⟩
          rw [hpassword] at loaded
          exact (Option.some.inj (Except.ok.inj loaded)).symm

/-- Loading leaves the table as it is and finds only what is in it. -/
theorem load_answer {mayFail : Prop} {table after : ServersTable} {id : Int}
    {reply : Except String (Option (List Value))}
    (answer : servers mayFail table (.selectServer connectionColumns id) reply after) :
    after = table ∧ ∀ server, scanConnection reply = .ok (some server) →
      ∃ row password, table.find id = some row ∧ row.password = some password ∧
        server = connectionServer row password := by
  rcases answer with ⟨now, hperform⟩ | ⟨-, ⟨err, rfl⟩, rfl⟩
  · obtain ⟨rfl, rfl⟩ := Prod.mk.inj hperform
    exact ⟨rfl, fun server hloaded => scanConnection_eq_some hloaded⟩
  · exact ⟨rfl, nofun⟩

/-! ## The configuration of a record -/

/-- An empty credential is not decrypted and stays empty. -/
def openCredential (gcm : GCM) (value encKey : String) : Except String Bytes :=
  if value = "" then .ok [] else decrypt gcm value encKey

def errRDPConnection : String := "RDP servers do not support SSH or SFTP"

def connectionConfig (gcm : GCM) (server : Server) (encKey : String) : Except String Config :=
  if server.protocol = "rdp" then .error errRDPConnection
  else
    match openCredential gcm server.privateKey encKey with
    | .error err => .error ("server " ++ toString server.id ++ ": decrypt private key: " ++ err)
    | .ok privateKey =>
        match openCredential gcm server.password encKey with
        | .error err => .error ("server " ++ toString server.id ++ ": decrypt password: " ++ err)
        | .ok password =>
            .ok ⟨server.host, server.port, server.username, server.authType, privateKey,
              password, server.hostKey⟩

theorem connectionConfig_eq_ok_iff {gcm : GCM} {server : Server} {encKey : String}
    {cfg : Config} :
    connectionConfig gcm server encKey = .ok cfg ↔
      server.protocol ≠ "rdp" ∧ ∃ privateKey password,
        openCredential gcm server.privateKey encKey = .ok privateKey ∧
        openCredential gcm server.password encKey = .ok password ∧
        cfg = ⟨server.host, server.port, server.username, server.authType, privateKey,
          password, server.hostKey⟩ := by
  unfold connectionConfig
  by_cases hprotocol : server.protocol = "rdp"
  · simp [hprotocol]
  · cases openCredential gcm server.privateKey encKey with
    | error err => simp [hprotocol]
    | ok privateKey =>
        cases openCredential gcm server.password encKey with
        | error err => simp [hprotocol]
        | ok password => simp [hprotocol, eq_comm]

/-! ## Dialing -/

/-- The database beside the network. -/
abbrev dialing (ssh : SSH) : Interface := serversDB.sum (network ssh)

abbrev Dialing (ssh : SSH) := Program (dialing ssh)

/-- The rest of `dialServer` once the jump host's record has been asked for. -/
def dialLoaded (ssh : SSH) (gcm : GCM) (encKey : String) (target : Config) :
    Except String (Option Server) → Dialing ssh Dialed
  | .error err => .ret (none, some ("load jump server: " ++ err))
  | .ok none => .ret (none, some "jump server not found")
  | .ok (some jump) =>
      if jump.jumpServerId ≠ none ∧ jump.jumpServerId ≠ some 0 then
        .ret (none, some "only one jump host is supported")
      else
        match connectionConfig gcm jump encKey with
        | .error err => .ret (none, some ("jump host: " ++ err))
        | .ok jumpConfig =>
            .call (.inr .contextErr) fun
              | some err => .ret (none, some err)
              | none => (dialViaJump ssh jumpConfig target).inr

/--
A jump host must be direct.  Every failure on the way to it ends the connection;
none leads to the target.
-/
def dialServer (ssh : SSH) (gcm : GCM) (server : Option Server) (encKey : String) :
    Dialing ssh Dialed :=
  .call (.inr .contextErr) fun
    | some err => .ret (none, some err)
    | none =>
        match server with
        | none => .ret (none, some "server not found")
        | some server =>
            match connectionConfig gcm server encKey with
            | .error err => .ret (none, some err)
            | .ok target =>
                match server.jumpServerId with
                | none => (dial ssh target).inr
                | some jumpId =>
                    if jumpId = 0 then (dial ssh target).inr
                    else if jumpId = server.id then
                      .ret (none, some "server cannot jump through itself")
                    else (loadConnectionServer jumpId).inl >>= dialLoaded ssh gcm encKey target

/-! ## Routes -/

section Routes

variable (ssh : SSH) (gcm : GCM) (encKey : String)

def address (server : Server) : String := joinHostPort server.host (itoa server.port)

/-- The credential that the record itself stores for its authentication type. -/
inductive OwnAuth (server : Server) : AuthMethod ssh → Prop where
  | password {secret : Bytes} (type : server.authType = "password")
      (opens : decrypt gcm server.password encKey = .ok secret) :
      OwnAuth server (.password secret)
  | key {plaintext : Bytes} {signer : ssh.Signer} (type : server.authType = "key")
      (opens : openCredential gcm server.privateKey encKey = .ok plaintext)
      (parses : ssh.parsePrivateKey plaintext = .ok signer) :
      OwnAuth server (.publicKeys signer)

/-- Both stored credentials of the record open, also the one that is not used. -/
def CredentialsOpen (server : Server) : Prop :=
  ∃ privateKey password, openCredential gcm server.privateKey encKey = .ok privateKey ∧
    openCredential gcm server.password encKey = .ok password

/-- A handshake with the user, the credential and the pin of one record. -/
structure OwnPeer (server : Server) (config : ClientConfig ssh) : Prop where
  protocol : server.protocol ≠ "rdp"
  credentials : CredentialsOpen gcm encKey server
  user : config.user = server.username
  auth : OwnAuth ssh gcm encKey server config.auth
  callback : config.hostKeyCallback = hostKeyCallback ssh server.hostKey

def NoJump (server : Server) : Prop := server.jumpServerId = none ∨ server.jumpServerId = some 0

/-- One peer of a route: the record that describes it, and how it is reached. -/
structure Hop where
  server : Server
  transport : Transport
  config : ClientConfig ssh

/--
The routes to a record: the client made, the peers and what is attempted.  A route
through a jump host needs another row that itself has none.
-/
inductive Route (table : ServersTable) (server : Server) :
    Client → List (Hop ssh) → List (Attempt ssh) → Prop where
  | direct {config : ClientConfig ssh} (nojump : NoJump server)
      (own : OwnPeer ssh gcm encKey server config) :
      Route table server ⟨.tcp (address server), none⟩
        [⟨server, .tcp (address server), config⟩]
        [.socket (address server), .handshake (.tcp (address server)) config]
  | viaJump {id : Int} {row : Row} {password : String} {config jumpConfig : ClientConfig ssh}
      (jump : server.jumpServerId = some id) (named : id ≠ 0) (other : id ≠ server.id)
      (found : table.find id = some row) (stored : row.password = some password)
      (nojump : NoJump (connectionServer row password))
      (own : OwnPeer ssh gcm encKey server config)
      (jumpOwn : OwnPeer ssh gcm encKey (connectionServer row password) jumpConfig) :
      Route table server
        ⟨.channel (.tcp (address (connectionServer row password))) (address server),
          some ⟨.tcp (address (connectionServer row password)), none⟩⟩
        [⟨connectionServer row password, .tcp (address (connectionServer row password)),
            jumpConfig⟩,
          ⟨server, .channel (.tcp (address (connectionServer row password))) (address server),
            config⟩]
        [.socket (address (connectionServer row password)),
          .handshake (.tcp (address (connectionServer row password))) jumpConfig,
          .channel (.tcp (address (connectionServer row password))) (address server),
          .handshake (.channel (.tcp (address (connectionServer row password))) (address server))
            config]

/-- Nothing is attempted, or what is attempted follows a route. -/
def Permitted (table : ServersTable) (server : Server) (tried : List (Attempt ssh)) : Prop :=
  tried = [] ∨ ∃ client hops path, Route ssh gcm encKey table server client hops path ∧
    tried <+: path

variable {ssh gcm encKey}

/-- The peer presented a key with the non-empty fingerprint stored in its record. -/
def Verified (events : List (Event (dialing ssh))) (hop : Hop ssh) : Prop :=
  ∃ hostname key,
    (⟨.newClientConn hop.transport hostname hop.config, .ok key⟩ : Event (network ssh)) ∈
        rights events ∧
      ssh.fingerprintSHA256 key = hop.server.hostKey ∧ hop.server.hostKey ≠ ""

theorem ownPeer_of_makeConfig {server : Server} {cfg : Config} {config : ClientConfig ssh}
    (configured : connectionConfig gcm server encKey = .ok cfg)
    (made : makeConfig ssh cfg = .ok config) : OwnPeer ssh gcm encKey server config := by
  obtain ⟨hprotocol, privateKey, password, hprivateKey, hpassword, rfl⟩ :=
    connectionConfig_eq_ok_iff.mp configured
  unfold makeConfig at made
  split at made
  · cases made
  · next method hmethod =>
      obtain rfl := Except.ok.inj made
      refine ⟨hprotocol, ⟨privateKey, password, hprivateKey, hpassword⟩, rfl, ?_, rfl⟩
      unfold makeAuth at hmethod
      dsimp only at hmethod
      split at hmethod
      · next htype =>
          split at hmethod
          · cases hmethod
          · next hsecret =>
              obtain rfl := Except.ok.inj hmethod
              unfold openCredential at hpassword
              split at hpassword
              · exact absurd (Except.ok.inj hpassword).symm hsecret
              · exact .password htype hpassword
      · split at hmethod
        · next htype =>
            split at hmethod
            · cases hmethod
            · next signer hsigner =>
                obtain rfl := Except.ok.inj hmethod
                exact .key htype hprivateKey hsigner
        · cases hmethod

theorem address_of_connectionConfig {server : Server} {cfg : Config}
    (configured : connectionConfig gcm server encKey = .ok cfg) :
    cfg.address = address server := by
  obtain ⟨-, privateKey, password, -, -, rfl⟩ := connectionConfig_eq_ok_iff.mp configured
  rfl

section Rules

open Program

variable {mayFail : Prop} {τ : Type} {net : Service (network ssh) τ} {table : ServersTable}
  {server : Server} {state : τ} {history : List (Event (dialing ssh))}

/-- What the caller is promised of a connection. -/
def Routed (gcm : GCM) (encKey : String) (table : ServersTable) (server : Server)
    (result : Dialed) (events : List (Event (dialing ssh))) : Prop :=
  (∀ client, result.1 = some client → ∃ hops path,
    Route ssh gcm encKey table server client hops path ∧ attempts (rights events) = path ∧
      ∀ hop ∈ hops, Verified events hop) ∧
  (result = (none, none) → attempts (rights events) ≠ [])

/-- The attempts of a connection stay on a route. -/
abbrev routing (gcm : GCM) (encKey : String) (table : ServersTable) (server : Server) :
    Discipline (dialing ssh) (ServersTable × τ) :=
  .tracing fun events => Permitted ssh gcm encKey table server (attempts (rights events))

theorem routed_error (err : String) (events : List (Event (dialing ssh))) :
    Routed gcm encKey table server (none, some err) events := ⟨nofun, nofun⟩

theorem Route.permitted {client : Client} {hops : List (Hop ssh)} {path : List (Attempt ssh)}
    (route : Route ssh gcm encKey table server client hops path) {part : List (Attempt ssh)}
    (begun : part <+: path) : Permitted ssh gcm encKey table server part :=
  Or.inr ⟨client, hops, path, route, begun⟩

/-- A program of the network that follows a route, with nothing attempted before it. -/
theorem keeps_along {program : Net ssh Dialed} {client : Client} {hops : List (Hop ssh)}
    {path : List (Attempt ssh)} (fresh : attempts (rights history) = [])
    (route : Route ssh gcm encKey table server client hops path)
    (own : ∀ hop ∈ hops, OwnPeer ssh gcm encKey hop.server hop.config)
    (kept : program.Keeps net (attempting (Permitted ssh gcm encKey table server))
      (fun result events _ => Ended (Permitted ssh gcm encKey table server) path
        (hops.map fun hop => (hop.transport, hop.config)) client result events) [] state) :
    program.inr.Keeps (Service.sum (servers mayFail) net) (routing gcm encKey table server)
      (fun result events _ => Routed gcm encKey table server result events)
      history (table, state) := by
  have hrights : ∀ events : List (Event (network ssh)),
      attempts (rights (history ++ events.map Event.inr)) = attempts events := by
    intro events
    rw [rights_append, rights_map_inr, attempts_append, fresh, List.nil_append]
  have htracing : (fun events : List (Event (network ssh)) =>
      Permitted ssh gcm encKey table server
        (attempts (rights (history ++ events.map Event.inr)))) =
      fun events => Permitted ssh gcm encKey table server (attempts events) :=
    funext fun events => by rw [hrights]
  refine Keeps.inr (fun events => Permitted ssh gcm encKey table server (attempts (rights events)))
    (fun result events _ => Routed gcm encKey table server result events) ?_
  rw [htracing]
  refine kept.mono fun result events final ended => ⟨?_, ?_⟩
  swap
  · intro hresult
    rw [hrights]
    exact ended.silent hresult
  intro other hother
  obtain rfl := ended.client other hother
  refine ⟨hops, path, route, (hrights events).trans (ended.path _ hother), ?_⟩
  intro hop hmem
  obtain ⟨hostname, key, hevent, haccepted⟩ :=
    ended.peers _ hother _ (List.mem_map_of_mem hmem)
  rw [(own hop hmem).callback] at haccepted
  obtain ⟨hfingerprint, hpin⟩ := (hostKeyCallback_eq_none_iff ssh).mp haccepted
  refine ⟨hostname, key, ?_, hfingerprint, hpin⟩
  rw [rights_append, rights_map_inr]
  exact List.mem_append_right _ hevent

theorem keeps_direct (checks : ChecksHostKeys ssh net) {cfg : Config} (nojump : NoJump server)
    (configured : connectionConfig gcm server encKey = .ok cfg)
    (fresh : attempts (rights history) = []) :
    (dial ssh cfg).inr.Keeps (Service.sum (servers mayFail) net) (routing gcm encKey table server)
      (fun result events _ => Routed gcm encKey table server result events)
      history (table, state) := by
  cases hmade : makeConfig ssh cfg with
  | error err =>
      simp only [dial, hmade]
      exact keeps_tracing_ret (routed_error _ _)
  | ok config =>
      have hown := ownPeer_of_makeConfig configured hmade
      have hroute : Route ssh gcm encKey table server cfg.client [⟨server, cfg.tcp, config⟩]
          (cfg.directPath config) := by
        simp only [Config.client, Config.directPath, Config.tcp, address_of_connectionConfig configured]
        exact .direct nojump hown
      refine keeps_along fresh hroute ?_ ?_
      · intro hop hmem
        obtain rfl := List.mem_singleton.mp hmem
        exact hown
      · have hallowed : ∀ part, part <+: cfg.directPath config →
            Permitted ssh gcm encKey table server
              (attempts ([] : List (Event (network ssh))) ++ part) :=
          fun _ hpart => hroute.permitted hpart
        exact keeps_dial checks hmade hallowed

theorem keeps_behind (checks : ChecksHostKeys ssh net) {id : Int} {row : Row} {password : String}
    {target jump : Config} (named : server.jumpServerId = some id) (nonzero : id ≠ 0)
    (other : id ≠ server.id) (found : table.find id = some row)
    (stored : row.password = some password) (nojump : NoJump (connectionServer row password))
    (configured : connectionConfig gcm server encKey = .ok target)
    (jumpConfigured : connectionConfig gcm (connectionServer row password) encKey = .ok jump)
    (fresh : attempts (rights history) = []) :
    (dialViaJump ssh jump target).inr.Keeps (Service.sum (servers mayFail) net)
      (routing gcm encKey table server)
      (fun result events _ => Routed gcm encKey table server result events)
      history (table, state) := by
  cases hmade : makeConfig ssh target with
  | error err =>
      simp only [dialViaJump, hmade]
      exact keeps_tracing_ret (routed_error _ _)
  | ok config =>
      cases hjumpMade : makeConfig ssh jump with
      | error err =>
          simp only [dialViaJump, hmade, dial, hjumpMade]
          exact keeps_tracing_ret (routed_error _ _)
      | ok jumpConfig =>
          have hown := ownPeer_of_makeConfig configured hmade
          have hjumpOwn := ownPeer_of_makeConfig jumpConfigured hjumpMade
          have hroute : Route ssh gcm encKey table server ⟨target.behind jump, some jump.client⟩
              [⟨connectionServer row password, jump.tcp, jumpConfig⟩,
                ⟨server, target.behind jump, config⟩]
              (target.jumpPath jump config jumpConfig) := by
            simp only [Config.jumpPath, Config.directPath, Config.client, Config.behind, Config.tcp,
              address_of_connectionConfig configured, address_of_connectionConfig jumpConfigured]
            exact .viaJump named nonzero other found stored nojump hown hjumpOwn
          refine keeps_along fresh hroute ?_ ?_
          · intro hop hmem
            rcases List.mem_cons.mp hmem with rfl | hmem
            · exact hjumpOwn
            · obtain rfl := List.mem_singleton.mp hmem
              exact hown
          · have hallowed : ∀ part, part <+: target.jumpPath jump config jumpConfig →
                Permitted ssh gcm encKey table server
                  (attempts ([] : List (Event (network ssh))) ++ part) :=
              fun _ hpart => hroute.permitted hpart
            exact keeps_dialViaJump checks hmade hjumpMade hallowed

/-- What `DialServer` does with the record it has loaded. -/
theorem keeps_loaded (checks : ChecksHostKeys ssh net) {id : Int} {row : Row} {password : String}
    {target : Config} (named : server.jumpServerId = some id) (nonzero : id ≠ 0)
    (other : id ≠ server.id) (found : table.find id = some row)
    (stored : row.password = some password)
    (configured : connectionConfig gcm server encKey = .ok target)
    (fresh : attempts (rights history) = []) :
    (dialLoaded ssh gcm encKey target (.ok (some (connectionServer row password)))).Keeps
      (Service.sum (servers mayFail) net) (routing gcm encKey table server)
      (fun result events _ => Routed gcm encKey table server result events)
      history (table, state) := by
  rw [dialLoaded]
  split
  · exact keeps_tracing_ret (routed_error _ _)
  · next hdirect =>
      have hnojump : NoJump (connectionServer row password) := by
        by_cases hnone : (connectionServer row password).jumpServerId = none
        · exact Or.inl hnone
        · exact Or.inr (Classical.not_not.mp fun hsome => hdirect ⟨hnone, hsome⟩)
      cases hconfigured : connectionConfig gcm (connectionServer row password) encKey with
      | error err => exact keeps_tracing_ret (routed_error _ _)
      | ok jump =>
          refine keeps_tracing_call ?_
          rintro reply ⟨same, after⟩ ⟨-, hsame⟩
          obtain rfl : table = same := hsame.symm
          have hfresh : attempts (rights (history ++ [⟨.inr .contextErr, reply⟩])) = [] := by
            rw [rights_append, attempts_append, fresh]
            rfl
          refine ⟨Or.inl hfresh, ?_⟩
          cases reply with
          | some err => exact keeps_tracing_ret (routed_error _ _)
          | none =>
              exact keeps_behind checks named nonzero other found stored hnojump configured
                hconfigured hfresh

theorem keeps_dialServer (checks : ChecksHostKeys ssh net) :
    (dialServer ssh gcm (some server) encKey).Keeps (Service.sum (servers mayFail) net)
      (routing gcm encKey table server)
      (fun result events _ => Routed gcm encKey table server result events) [] (table, state) := by
  refine keeps_tracing_call ?_
  rintro reply ⟨same, after⟩ ⟨-, hsame⟩
  obtain rfl : table = same := hsame.symm
  refine ⟨Or.inl rfl, ?_⟩
  cases reply with
  | some err => exact keeps_tracing_ret (routed_error _ _)
  | none =>
      cases hconfigured : connectionConfig gcm server encKey with
      | error err =>
          simp only [hconfigured]
          exact keeps_tracing_ret (routed_error _ _)
      | ok target =>
          simp only [hconfigured]
          cases hjump : server.jumpServerId with
          | none => exact keeps_direct checks (Or.inl hjump) hconfigured rfl
          | some id =>
              by_cases hzero : id = 0
              · subst hzero
                exact keeps_direct checks (Or.inr hjump) hconfigured rfl
              · by_cases hself : id = server.id
                · simp only [if_neg hzero, if_pos hself]
                  exact keeps_tracing_ret (routed_error _ _)
                · simp only [if_neg hzero, if_neg hself]
                  refine keeps_tracing_call ?_
                  rintro loaded ⟨same, after⟩ ⟨hload, rfl⟩
                  obtain ⟨hsame, hfound⟩ := load_answer hload
                  obtain rfl : table = same := hsame.symm
                  refine ⟨Or.inl rfl, ?_⟩
                  change (dialLoaded ssh gcm encKey target (scanConnection loaded)).Keeps _ _ _ _ _
                  cases hscan : scanConnection loaded with
                  | error err => exact keeps_tracing_ret (routed_error _ _)
                  | ok found =>
                      cases found with
                      | none => exact keeps_tracing_ret (routed_error _ _)
                      | some jump =>
                          obtain ⟨row, password, hrow, hstored, rfl⟩ := hfound jump hscan
                          exact keeps_loaded checks hjump hzero hself hrow hstored hconfigured rfl

/--
The jump host a record names is another row that is not an rdp server and has no
jump host itself, and its credentials open.
-/
def UsableJump (gcm : GCM) (encKey : String) (table : ServersTable) (server : Server)
    (id : Int) : Prop :=
  id ≠ server.id ∧ ∃ row password, table.find id = some row ∧ row.password = some password ∧
    row.protocol ≠ "rdp" ∧ NoJump (connectionServer row password) ∧
      CredentialsOpen gcm encKey (connectionServer row password)

/-- A route of a record with a jump host goes through that host. -/
theorem Route.usable {client : Client} {hops : List (Hop ssh)} {path : List (Attempt ssh)}
    (route : Route ssh gcm encKey table server client hops path) {id : Int}
    (named : server.jumpServerId = some id) (nonzero : id ≠ 0) :
    UsableJump gcm encKey table server id := by
  cases route with
  | direct nojump own =>
      rcases nojump with hnone | hzero
      · rw [named] at hnone
        cases hnone
      · rw [named] at hzero
        exact absurd (Option.some.inj hzero) nonzero
  | viaJump jump _ other found stored nojump own jumpOwn =>
      obtain rfl := Option.some.inj (named.symm.trans jump)
      exact ⟨other, _, _, found, stored, jumpOwn.protocol, nojump, jumpOwn.credentials⟩

theorem keeps_dialServer_none :
    (dialServer ssh gcm none encKey).Keeps (Service.sum (servers mayFail) net)
      (.tracing fun events => attempts (rights events) = [])
      (fun result _ _ => ∃ err, result = (none, some err)) [] (table, state) := by
  refine keeps_tracing_call fun reply after _ => ⟨rfl, ?_⟩
  cases reply with
  | some err => exact keeps_tracing_ret ⟨err, rfl⟩
  | none => exact keeps_tracing_ret ⟨_, rfl⟩

/--
Whatever the peers do, a run of `dialServer` only attempts what a route of the
record allows, in its order, and a client that is returned is at the end of one,
with every peer on it verified.  Where the jump host is not usable there is no
attempt at all, and the result is an error.
-/
theorem dialServer_follows_route (checks : ChecksHostKeys ssh net) {record : Option Server}
    {events : List (Event (dialing ssh))} {rest : Dialing ssh Dialed} {final : ServersTable × τ}
    (run : Steps (Service.sum (servers mayFail) net) (dialServer ssh gcm record encKey)
      (table, state) events rest final) :
    (∀ client err, rest = .ret (some client, err) →
      ∃ server, record = some server ∧ ∃ hops path,
        Route ssh gcm encKey table server client hops path ∧ attempts (rights events) = path ∧
          ∀ hop ∈ hops, Verified events hop) ∧
    (attempts (rights events) = [] ∨ ∃ server, record = some server ∧ ∃ client hops path,
      Route ssh gcm encKey table server client hops path ∧ attempts (rights events) <+: path) ∧
    ∀ server id, record = some server → server.jumpServerId = some id → id ≠ 0 →
      ¬ UsableJump gcm encKey table server id →
        attempts (rights events) = [] ∧ ∀ result, rest = .ret result →
          ∃ err, result = (none, some err) := by
  cases record with
  | none =>
      have htrace := run.traced keeps_dialServer_none rfl
      refine ⟨?_, Or.inl htrace, nofun⟩
      rintro client err rfl
      obtain ⟨_, hresult⟩ := Executes.postcondition _ _ run keeps_dialServer_none
      cases hresult
  | some server =>
      have htrace := run.traced (keeps_dialServer checks) (Or.inl rfl)
      refine ⟨?_, ?_, ?_⟩
      · rintro client err rfl
        obtain ⟨hrouted, -⟩ := Executes.postcondition _ _ run (keeps_dialServer checks)
        exact ⟨server, rfl, hrouted client rfl⟩
      · exact htrace.imp_right fun hroute => ⟨server, rfl, hroute⟩
      · rintro _ id ⟨⟩ hnamed hnonzero hunusable
        have hnone : attempts (rights events) = [] := by
          refine htrace.resolve_right ?_
          rintro ⟨client, hops, path, hroute, -⟩
          exact hunusable (hroute.usable hnamed hnonzero)
        refine ⟨hnone, ?_⟩
        rintro ⟨client, err⟩ rfl
        obtain ⟨hrouted, htried⟩ := Executes.postcondition _ _ run (keeps_dialServer checks)
        cases client with
        | some client =>
            obtain ⟨hops, path, hroute, -⟩ := hrouted client rfl
            exact absurd (hroute.usable hnamed hnonzero) hunusable
        | none =>
            cases err with
            | some err => exact ⟨err, rfl⟩
            | none => exact absurd hnone (htried rfl)

end Rules

end Routes

/-- Keys are texts, and every peer presents the same one. -/
def textSSH : SSH where
  PublicKey := String
  Signer := Bytes
  fingerprintSHA256 := fun key => "SHA256:" ++ key
  parsePrivateKey := fun bytes => .ok bytes

/-- Everything succeeds; a handshake does when the callback accepts the key `peer`. -/
def answerNetwork : (command : NetworkCommand textSSH) → command.Reply
  | .contextErr => none
  | .withTimeout => ()
  | .cancel => ()
  | .setupErr => none
  | .afterFunc _ => ()
  | .stop => true
  | .dialContext _ => .ok ()
  | .dialChannel _ _ => .ok ()
  | .newClientConn _ hostname config =>
      match config.hostKeyCallback hostname "peer" with
      | none => .ok "peer"
      | some err => .error err
  | .watch _ => ()
  | .close _ => ()
  | .closeConn _ => ()

def helpfulNetwork : Service (network textSSH) Unit :=
  fun _ command reply _ => reply = answerNetwork command

theorem helpfulNetwork_checks : ChecksHostKeys textSSH helpfulNetwork := by
  intro before transport hostname config key after answer
  cases hcallback : config.hostKeyCallback hostname "peer" with
  | some err => simp [helpfulNetwork, answerNetwork, hcallback] at answer
  | none =>
      simp only [helpfulNetwork, answerNetwork, hcallback] at answer
      rw [Except.ok.inj answer, hcallback]

def pinnedRow (host : String) (jump : Option Int) : Row :=
  { Row.blank "" with
    host, username := "root", authType := "password", jumpServerId := jump
    password := some (sealedSecret legacyEncryptionKey), hostKey := "SHA256:peer" }

/-- Row 2 is behind row 1. -/
def tunnelTable : ServersTable :=
  ((Table.empty 0).insert (pinnedRow "gateway" none)).insert (pinnedRow "target" (some 1))

def tunnelServer : Server :=
  connectionServer { pinnedRow "target" (some 1) with id := 2 } (sealedSecret legacyEncryptionKey)

def answerDialing (state : ServersTable × Unit) :
    (command : (dialing textSSH).Command) → (dialing textSSH).Reply command × (ServersTable × Unit)
  | .inl statement =>
      let performed := perform "" state.1 statement
      (performed.1, (performed.2, ()))
  | .inr command => (answerNetwork command, state)

theorem answerDialing_answers (state : ServersTable × Unit)
    (command : (dialing textSSH).Command) :
    Service.sum (servers False) helpfulNetwork state command (answerDialing state command).1
      (answerDialing state command).2 := by
  cases command with
  | inl statement => exact ⟨Or.inl ⟨"", rfl⟩, rfl⟩
  | inr command => exact ⟨rfl, rfl⟩

theorem dialServer_follows_route_tunnel :
    ∃ hops path, Route textSSH tagGCM legacyEncryptionKey tunnelTable tunnelServer
      ⟨.channel (.tcp "gateway:22") "target:22", some ⟨.tcp "gateway:22", none⟩⟩ hops path := by
  have run := Program.executes_run answerDialing_answers
    (dialServer textSSH tagGCM (some tunnelServer) legacyEncryptionKey) (tunnelTable, ())
  obtain ⟨hreturned, -⟩ := dialServer_follows_route helpfulNetwork_checks run
  obtain ⟨server, hserver, hops, path, hroute, -⟩ := hreturned
    ⟨.channel (.tcp "gateway:22") "target:22", some ⟨.tcp "gateway:22", none⟩⟩ none rfl
  obtain rfl := Option.some.inj hserver
  exact ⟨hops, path, hroute⟩

end OpsUp.Api
