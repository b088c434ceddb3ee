import OpsUp.Api.RemoteHandlers

/-!
# Handlers leave no transport behind

A handler may fail before it connects, while it connects, while it takes the client over or
while it serves the request, and its context may end at any moment.  When it has returned,
everything that it opened is closed.
-/

namespace OpsUp.Api

open OpsUp.Crypto OpsUp.Database OpsUp.Go OpsUp.Interaction OpsUp.Models OpsUp.SftpClient
open OpsUp.SshClient Program Relation Ownership

/-- The database and the requests own nothing. -/
def dialed (ssh : SSH) : Service (dialing ssh) Ownership
  | state, .inl _, _, after => after = state
  | state, .inr command, reply, after => owned ssh state command reply after

def reached (ssh : SSH) : Service (reaching ssh) Ownership
  | state, .inl command, reply, after => dialed ssh state command reply after
  | state, .inr (.inl command), reply, after => sessionOwned state command reply after
  | state, .inr (.inr _), _, after => after = state

variable {ssh : SSH} {gcm : GCM} {encKey : String} {holders : List Guard} {client : Client}
  {α β : Type} {pre : Ownership → Prop}

/-- Nothing has been opened, and no timer is armed. -/
def Fresh (holders : List Guard) (state : Ownership) : Prop :=
  During [] holders state ∧ state.Disarmed

theorem stable_fresh : Stable Around (Fresh holders) := stable_spared_during [] holders

theorem Fresh.safe {state : Ownership} (fresh : Fresh holders state) : Safe state := fresh.1.safe

/-- What a program of the dialling part keeps, it keeps among the other commands. -/
theorem triple_reached {program : Program (dialing ssh) α}
    {post : α → Ownership → Prop} (triple : Triple (dialed ssh) Around pre program post) :
    Triple (reached ssh) Around pre program.inl post :=
  triple.inl id

/-! ## Parts that own nothing -/

/-- A program none of whose commands changes what is owned. -/
theorem triple_quiet {I : Interface} {service : Service I Ownership} {program : Program I α}
    (quiet : ∀ {state command reply after}, service state command reply after → after = state)
    (stable : Stable Around pre) : Triple service Around pre program fun _ => pre := by
  induction program with
  | ret value => exact Triple.ret stable fun _ => id
  | call command next ih =>
      apply Triple.call (fun _ => pre) stable
      · intro state reply after holds answer
        exact quiet answer ▸ holds
      · exact ih

theorem triple_query (program : DB α) (stable : Stable Around pre) :
    Triple (dialed ssh) Around pre program.inl fun _ => pre := by
  have hquery : Triple (fun state _ _ after => after = state) Around pre program fun _ => pre :=
    triple_quiet id stable
  exact hquery.inl id

theorem triple_serve (program : Requests α) (stable : Stable Around pre) :
    Triple (reached ssh) Around pre (program.translate (requestsPart ssh)) fun _ => pre := by
  have hserve : Triple (fun state _ _ after => after = state) Around pre program fun _ => pre :=
    triple_quiet id stable
  exact hserve.translate id

/-- The second of two interfaces. -/
def besidePart (I J : Interface) : J.Embedding (I.sum J) where
  command := fun command => .inr command
  reply := fun _ => id

theorem inr_eq_translate {I J : Interface} (program : Program J α) :
    (program.inr : Program (I.sum J) α) = program.translate (besidePart I J) := by
  induction program with
  | ret value => rfl
  | call command next ih => exact congrArg (Program.call _) (funext ih)

theorem triple_network {program : Net ssh α} {post : α → Ownership → Prop}
    (triple : Triple (owned ssh) Around pre program post) :
    Triple (dialed ssh) Around pre program.inr post := by
  rw [inr_eq_translate]
  exact triple.translate id

theorem triple_owning {program : Owning ssh α} {post : α → Ownership → Prop}
    (triple : Triple (ownership ssh) Around pre program post) :
    Triple (reached ssh) Around pre (program.translate (owningPart ssh)) post := by
  refine triple.translate ?_
  rintro state (command | command) reply after answer
  · exact answer
  · exact answer

/-! ## Connecting -/

theorem triple_dial_error (err : String) :
    Triple (dialed ssh) Around (Fresh holders) (.ret (none, some err)) (Settled holders) :=
  Triple.ret (stable_settled holders (none, some err)) fun _ fresh => fresh.safe

/-- The context is looked at before anything is opened. -/
theorem triple_contextErr {next : Option String → Dialing ssh Dialed}
    (continues : ∀ reply, Triple (dialed ssh) Around (Fresh holders) (next reply)
      (Settled holders)) :
    Triple (dialed ssh) Around (Fresh holders) (.call (.inr .contextErr) next)
      (Settled holders) := by
  apply Triple.call (fun _ => Fresh holders) stable_fresh
  · rintro state reply after fresh ⟨-, rfl⟩
    exact fresh
  · exact continues

theorem triple_dialLoaded (target : Config) (loaded : Except String (Option Server)) :
    Triple (dialed ssh) Around (Fresh holders) (dialLoaded ssh gcm encKey target loaded)
      (Settled holders) := by
  rcases loaded with err | _ | jump
  · exact triple_dial_error _
  · exact triple_dial_error _
  · rw [dialLoaded]
    split
    · exact triple_dial_error _
    · cases connectionConfig gcm jump encKey with
      | error err => exact triple_dial_error _
      | ok jumpConfig =>
          apply triple_contextErr
          rintro (_ | err)
          · exact triple_network (triple_dialViaJump jumpConfig target)
          · exact triple_dial_error _

theorem triple_dialServer (record : Option Server) :
    Triple (dialed ssh) Around (Fresh holders) (dialServer ssh gcm record encKey)
      (Settled holders) := by
  apply triple_contextErr
  rintro (_ | err)
  · rcases record with _ | server
    · exact triple_dial_error _
    · cases hconfig : connectionConfig gcm server encKey with
      | error err =>
          simp only [hconfig]
          exact triple_dial_error _
      | ok target =>
          have hdirect := triple_network (@triple_dial ssh holders target)
          simp only [hconfig]
          cases server.jumpServerId with
          | none => exact hdirect
          | some jumpId =>
              dsimp only
              split
              · exact hdirect
              · split
                · exact triple_dial_error _
                · exact (triple_query _ stable_fresh).bind (triple_dialLoaded target)
  · exact triple_dial_error _

/-- How `connectSFTP` may end. -/
def Connects (holders : List Guard) (result : Handed) : Ownership → Prop :=
  Settled holders (Call.unhanded result)

theorem stable_connects (result : Handed) : Stable Around (Connects holders result) :=
  stable_settled holders _

theorem triple_connect_error (err : String) :
    Triple (reached ssh) Around Safe (.ret (none, some err)) (Connects holders) :=
  Triple.ret (stable_connects (none, some err)) fun _ => id

theorem triple_connectSFTP (param : String) :
    Triple (reached ssh) Around (Fresh holders) (connectSFTP ssh gcm encKey param)
      (Connects holders) := by
  have hinvalid : Triple (reached ssh) Around (Fresh holders)
      (.ret (none, some "invalid server id")) (Connects holders) :=
    (triple_connect_error _).weaken fun _ => Fresh.safe
  unfold connectSFTP
  split
  · exact hinvalid
  · split
    · exact hinvalid
    · apply (triple_reached (triple_query _ stable_fresh)).bind
      rintro (err | _ | server)
      · exact (triple_connect_error _).weaken fun _ => Fresh.safe
      · exact (triple_connect_error _).weaken fun _ => Fresh.safe
      · apply (triple_reached (triple_dialServer (some server))).bind
        rintro ⟨_ | owner, _ | err⟩
        · exact fun _ _ holds => holds.elim
        · exact triple_connect_error err
        · have htaken := triple_owning (@triple_newClient ssh holders owner)
          intro history state delivered
          refine (htaken history state ⟨delivered.during, delivered.disarmed⟩).mono ?_
          exact fun result _ final handed => handed.1
        · exact fun _ _ holds => holds.elim

/-! ## Closing -/

/-- A later `Close` of anything does no harm. -/
theorem safe_closes {guard : Guard} {before after : Ownership} (safe : Safe before)
    (closes : before.Closes guard after) : Safe after := by
  obtain ⟨sound, idle, later, -⟩ := closes.spec safe.sound
  refine ⟨sound, idle, fun transport hopened => ?_⟩
  rw [later.opened] at hopened
  rcases safe.released transport hopened with hdropped | ⟨owner, howner, hdone⟩
  · exact Or.inl (later.dropped ▸ hdropped)
  · exact Or.inr ⟨owner, howner, later.done _ hdone⟩

/-- What may be left when a handler returns: nothing, and it has not crashed. -/
def Returned (answer : Answer) (state : Ownership) : Prop := answer ≠ .crashed ∧ Safe state

theorem stable_returned (answer : Answer) : Stable Around (Returned answer) :=
  fun _ _ returned moves => ⟨returned.1, stable_safe returned.2 moves⟩

theorem triple_answer {answer : Answer} (fine : answer ≠ .crashed) :
    Triple (reached ssh) Around Safe (.ret answer) Returned :=
  Triple.ret (stable_returned answer) fun _ safe => ⟨fine, safe⟩

theorem safe_of_delivered {guard : Guard} {before after : Ownership}
    (delivered : Delivered holders client before) (closes : before.Closes guard after)
    (closed : after.Sound → after.closing.guards.once guard = .done →
      after.closing.guards.once (.client client) = .done) : Safe after :=
  safe_of_closes delivered.during.sound delivered.during.opened closes closed

/-- The body answers and the handle is closed, which closes its client. -/
theorem triple_withSFTP (param : String) (serve : Requests FileAnswer) :
    Triple (reached ssh) Around (Fresh holders) (withSFTP ssh gcm encKey param serve) Returned := by
  apply (triple_connectSFTP param).bind
  rintro ⟨_ | handle, _ | err⟩
  · exact fun _ _ holds => holds.elim
  · exact triple_answer nofun
  · apply (triple_serve serve (stable_delivered holders handle.client)).bind
    intro answer
    apply Triple.call (fun _ => Safe) (stable_delivered holders handle.client)
    · rintro state reply after delivered closes
      refine safe_of_delivered delivered closes fun sound done => ?_
      exact sound.below _ done (.client handle.client) rfl
    · exact fun _ => triple_answer nofun
  · exact fun _ _ holds => holds.elim

/-- A `Close` of what is closed already. -/
theorem triple_closed {command : (reaching ssh).Command}
    {next : (reaching ssh).Reply command → Reaching ssh Answer}
    (closes : ∀ {before reply after}, Safe before → reached ssh before command reply after →
      Safe after)
    (continues : ∀ reply, Triple (reached ssh) Around Safe (next reply) Returned) :
    Triple (reached ssh) Around Safe (.call command next) Returned :=
  Triple.call (fun _ => Safe) stable_safe (fun safe answer => closes safe answer) continues

theorem triple_closeClient (client : Client) :
    Triple (reached ssh) Around Safe (closeClient ssh client) Returned :=
  triple_closed safe_closes fun _ => triple_answer nofun

theorem triple_refused {answer : Answer} (fine : answer ≠ .crashed) :
    Triple (reached ssh) Around (Fresh holders) (.ret answer) Returned :=
  (triple_answer fine).weaken fun _ => Fresh.safe

/-! ## The handlers -/

theorem triple_testConnection (param : String) :
    Triple (reached ssh) Around (Fresh holders) (testConnection ssh gcm encKey param).inl Returned := by
  have hrefused : ∀ {answer : Answer}, answer ≠ .crashed →
      Triple (dialed ssh) Around (Fresh holders) (.ret answer) Returned := fun fine =>
    Triple.ret (stable_returned _) fun _ fresh => ⟨fine, fresh.safe⟩
  refine triple_reached ?_
  apply (triple_query _ stable_fresh).bind
  rintro (err | _ | server)
  · exact hrefused nofun
  · exact hrefused nofun
  · dsimp only
    split
    · exact hrefused nofun
    · apply (triple_dialServer (some server)).bind
      rintro ⟨_ | client, _ | err⟩
      · exact fun _ _ holds => holds.elim
      · exact Triple.ret (stable_returned _) fun _ safe => ⟨nofun, safe⟩
      · apply Triple.call (fun _ => Safe) (stable_delivered holders client)
        · rintro state reply after delivered closes
          exact safe_of_delivered delivered closes fun _ => id
        · exact fun _ => Triple.ret (stable_returned _) fun _ safe => ⟨nofun, safe⟩
      · exact fun _ _ holds => holds.elim

/-- Once the client is there, the session closes it, and so do the deferred calls. -/
theorem triple_terminalSession (server : Server) (client session : Client)
    (same : session = client) :
    Triple (reached ssh) Around (Delivered holders client)
      (.call (.inr (.inr (.inr (.greet server.host)))) fun
        | .error _ => .call (.inr (.inl (.closeHandle session))) fun _ => closeClient ssh client
        | .ok () => .call (.inr (.inr (.inr .done))) fun _ =>
            .call (.inl (.inr (.close client))) fun _ =>
              .call (.inr (.inl (.closeHandle session))) fun _ => closeClient ssh client)
      Returned := by
  subst same
  apply Triple.call (fun _ => Delivered holders session) (stable_delivered holders session)
  · rintro state reply after delivered rfl
    exact delivered
  · rintro (err | _)
    · apply Triple.call (fun _ => Safe) (stable_delivered holders session)
      · rintro state reply after delivered closes
        refine safe_of_delivered delivered closes fun sound done => ?_
        exact sound.below _ done (.client session) rfl
      · exact fun _ => triple_closeClient session
    · apply Triple.call (fun _ => Delivered holders session) (stable_delivered holders session)
      · rintro state reply after delivered rfl
        exact delivered
      · intro _
        apply Triple.call (fun _ => Safe) (stable_delivered holders session)
        · rintro state reply after delivered closes
          exact safe_of_delivered delivered closes fun _ => id
        · exact fun _ => triple_closed safe_closes fun _ => triple_closeClient session

theorem triple_report {text : String} {next : Unit → Reaching ssh Answer}
    (continues : ∀ reply, Triple (reached ssh) Around Safe (next reply) Returned) :
    Triple (reached ssh) Around Safe (.call (.inr (.inr (.inr (.report text)))) next) Returned := by
  refine triple_closed ?_ continues
  rintro before reply after safe rfl
  exact safe

theorem triple_runTerminal (server : Server) :
    Triple (reached ssh) Around (Fresh holders) (runTerminal ssh gcm encKey server) Returned := by
  apply (triple_reached (triple_dialServer (some server))).bind
  rintro ⟨_ | client, _ | err⟩
  · exact fun _ _ holds => holds.elim
  · exact triple_report fun _ => triple_answer nofun
  · have htaken := triple_owning (@triple_newSession ssh holders client 80 24)
    have hsession : Triple (reached ssh) Around (Delivered holders client)
        ((newSession ssh client 80 24).translate (owningPart ssh)) (HandedOver holders client) :=
      htaken.weaken fun _ delivered => ⟨delivered.during, delivered.disarmed⟩
    apply hsession.bind
    rintro ⟨_ | session, _ | err⟩
    · exact fun _ _ handed => handed.1.elim
    · refine (triple_report fun _ => triple_closeClient client).weaken ?_
      exact fun _ handed => handed.1
    · intro history state handed
      have hsame : session.client = client := handed.2 session rfl
      have hheld : Delivered holders client state := hsame ▸ handed.1
      exact @triple_terminalSession ssh holders server client session.client hsame history state hheld
    · exact fun _ _ handed => handed.1.elim
  · exact fun _ _ holds => holds.elim

/-- The calls of the API that reach a server. -/
inductive RemoteCall where
  | list (param query : String)
  | upload (param : String) (form : UploadForm) (rand : Option UploadNonce) (posixRename : Bool)
  | download (param filePath : String)
  | mkdir (param : String) (body : Except String String)
  | delete (param filePath : String)
  | test (param : String)
  /-- a session, once the record has been loaded and the socket upgraded -/
  | terminal (server : Server)

def RemoteCall.program (ssh : SSH) (gcm : GCM) (encKey : String) : RemoteCall → Reaching ssh Answer
  | .list param query => handleList ssh gcm encKey param query
  | .upload param form rand posixRename => handleUpload ssh gcm encKey param form rand posixRename
  | .download param filePath => handleDownload ssh gcm encKey param filePath
  | .mkdir param body => handleMkdir ssh gcm encKey param body
  | .delete param filePath => handleDelete ssh gcm encKey param filePath
  | .test param => (testConnection ssh gcm encKey param).inl
  | .terminal server => runTerminal ssh gcm encKey server

theorem RemoteCall.triple (call : RemoteCall) :
    Triple (reached ssh) Around (Fresh holders) (call.program ssh gcm encKey) Returned := by
  cases call with
  | list param query => exact triple_withSFTP param _
  | upload param form rand posixRename =>
      dsimp only [RemoteCall.program, handleUpload]
      cases uploadRefusal form with
      | some refusal => exact triple_refused nofun
      | none => exact triple_withSFTP param _
  | download param filePath =>
      dsimp only [RemoteCall.program, handleDownload]
      split
      · exact triple_refused nofun
      · exact triple_withSFTP param _
  | mkdir param body =>
      cases body with
      | error err => exact triple_refused nofun
      | ok path => exact triple_withSFTP param _
  | delete param filePath =>
      dsimp only [RemoteCall.program, handleDelete]
      split
      · exact triple_refused nofun
      · exact triple_withSFTP param _
  | test param => exact triple_testConnection param
  | terminal server => exact triple_runTerminal server

/--
However a call of the API that reaches a server goes, and whatever ends its context meanwhile:
when it returns, every transport that it opened is closed, none of them by its owner more
than once, and no client was used that is not there.
-/
theorem remoteCalls_release {call : RemoteCall} {start final : Ownership} {answer : Answer}
    {events : List (Event (reaching ssh))} (fresh : Fresh start.holders start)
    (run : Amid (reached ssh) Around (call.program ssh gcm encKey) start events (.ret answer) final) :
    (∀ transport ∈ final.opened, final.Closed transport) ∧
    (∀ owner : Client, final.closing.guards.lasts (.client owner) ≤ 1) ∧ answer ≠ .crashed := by
  have hreturned : Returned answer final := call.triple.returns fresh run
  obtain ⟨hfine, hsafe⟩ := hreturned
  exact ⟨hsafe.released.closed hsafe.sound,
    fun owner => Closing.Sound.lasts_le_one hsafe.sound (.client owner), hfine⟩

/-! ## A handshake that fails -/

def unreachable : Server where
  protocol := "ssh"
  rdpDomain := ""
  rdpCertFingerprint := ""
  id := 1
  name := "gateway"
  host := "gateway"
  port := 22
  username := "root"
  authType := "key"
  hostKey := ""
  privateKey := ""
  password := ""
  description := ""
  group := ""
  jumpServerId := none
  createdAt := ""
  updatedAt := ""

theorem remoteCalls_release_unreachable : ∃ final events,
    Amid (reached unitSSH) Around ((RemoteCall.terminal unreachable).program unitSSH tagGCM "")
      untouched events (.ret .hungUp) final ∧
    final.opened = [gatewayConfig.tcp] ∧ final.Closed gatewayConfig.tcp := by
  have hbegins : (Call.dial gatewayConfig).Begins untouched := untouched_begins rfl
  have hfresh : Fresh untouched.holders untouched := ⟨hbegins.during, hbegins.disarmed⟩
  let dialled : Ownership :=
    { untouched with opened := [gatewayConfig.tcp], armed := some gatewayConfig.client }
  obtain ⟨closing, hcloses⟩ := exists_closes dialled gatewayConfig.tcp rfl rfl
  have hrun : ∃ events, Amid (reached unitSSH) Around
      ((RemoteCall.terminal unreachable).program unitSSH tagGCM "") untouched events (.ret .hungUp)
      { dialled with closing := closing, armed := none, setup := some errCanceled } := by
    have live : ∀ state : Ownership,
        reached unitSSH state (.inl (.inr .contextErr)) state.parent state := fun _ => ⟨rfl, rfl⟩
    have begun : ∀ state : Ownership, reached unitSSH state (.inl (.inr .withTimeout)) ()
        { state with setup := state.parent } := fun _ => rfl
    have socket : reached unitSSH untouched (.inl (.inr (.dialContext "gateway:22"))) (.ok ())
        { untouched with opened := [gatewayConfig.tcp] } := rfl
    have armed : ∀ (state : Ownership) (client : Client), reached unitSSH state
        (.inl (.inr (.afterFunc client))) () { state with armed := some client } := fun _ _ => rfl
    have refused : ∀ (state : Ownership) (config : ClientConfig unitSSH), reached unitSSH state
        (.inl (.inr (.newClientConn gatewayConfig.tcp "gateway:22" config))) (.error "refused")
        state := fun _ _ => rfl
    have closed : reached unitSSH dialled (.inl (.inr (.close gatewayConfig.client))) ()
        { dialled with closing := closing } := hcloses
    have ended : ∀ state : Ownership,
        reached unitSSH state (.inl (.inr .setupErr)) state.setup state := fun _ => ⟨rfl, rfl⟩
    have disarmed : ∀ state : Ownership, reached unitSSH state (.inl (.inr .stop))
        state.armed.isSome { state with armed := none } := fun _ => ⟨rfl, rfl⟩
    have cancelled : ∀ state : Ownership, reached unitSSH state (.inl (.inr .cancel)) ()
        { state with setup := state.setup <|> some errCanceled } := fun _ => rfl
    have reported : ∀ (state : Ownership) (text : String), reached unitSSH state
        (.inr (.inr (.inr (.report text)))) () state := fun _ _ => rfl
    apply Amid.exists_call (live _)
    apply Amid.exists_call (begun _)
    apply Amid.exists_call socket
    apply Amid.exists_call (armed _ _)
    apply Amid.exists_call (refused _ _)
    apply Amid.exists_call closed
    apply Amid.exists_call (ended _)
    apply Amid.exists_call (disarmed _)
    apply Amid.exists_call (cancelled _)
    apply Amid.exists_call (reported _ _)
    exact ⟨[], .refl _ _⟩
  obtain ⟨events, run⟩ := hrun
  have hreleased := remoteCalls_release hfresh run
  exact ⟨_, events, run, rfl, hreleased.1 _ List.mem_cons_self⟩

end OpsUp.Api
