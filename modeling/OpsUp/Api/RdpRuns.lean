import OpsUp.Api.RdpGateway

/-!
# Whole runs of the RDP gateway

A run goes through the handler and then, when TLS is up, through the relay.  After the
first frame the handler is one and the same program for every destination that the
browser may have named.
-/

namespace OpsUp.Api

open OpsUp.Auth OpsUp.Database OpsUp.Go OpsUp.Interaction OpsUp.Models OpsUp.Storage Program

variable {σ τ : Type}

/-- The calls of a run, the steps of its relay, and the relay if it has started. -/
inductive RdpRun (service : Service gatewayCalls σ) (cfg : RdpConfig) (param : String) (start : σ) :
    List (Event gatewayCalls) → List RelayAction → Option Relay → Prop where
  | handling {events : List (Event gatewayCalls)} {rest : Gateway Bool} {after : σ}
      (steps : Steps service (rdpHandler cfg param) start events rest after) :
      RdpRun service cfg param start events [] none
  | relaying {events : List (Event gatewayCalls)} {after : σ} {actions : List RelayAction}
      {relay : Relay} (run : Executes service (rdpHandler cfg param) start events true after)
      (relays : play Relay.step Relay.initial actions = some relay) :
      RdpRun service cfg param start events actions (some relay)

section Runs

variable {service : Service gatewayCalls σ} {other : Service gatewayCalls τ} {cfg : RdpConfig}
  {param : String} {start final : σ} {begin last : τ} {rest left : Gateway Bool}
  {events front back trace tail : List (Event gatewayCalls)} {actions : List RelayAction}
  {relay : Option Relay}

theorem RdpRun.steps (run : RdpRun service cfg param start events actions relay) :
    ∃ rest after, Steps service (rdpHandler cfg param) start events rest after := by
  cases run with
  | handling steps => exact ⟨_, _, steps⟩
  | relaying run relays => exact ⟨_, _, run⟩

/-- The calls before the first frame. -/
def openingCalls : List (Event gatewayCalls) :=
  [⟨.inr .upgrade, .ok ()⟩, ⟨.inr (.setReadLimit (64 * 1024)), ()⟩, ⟨.inr (.setReadDeadline 10), ()⟩]

/-- No call is left that could be the first read. -/
theorem not_steps_ret {value : Bool} {event : Event gatewayCalls}
    (steps : Steps service (.ret value : Gateway Bool) start (front ++ event :: back) rest final) :
    False := by
  obtain ⟨hnone, -, -⟩ := steps.of_ret
  simp at hnone

/-- One call before the first read. -/
theorem steps_before_read {command : gatewayCalls.Command}
    {next : gatewayCalls.Reply command → Gateway Bool} {reply : Except String (MessageKind × Bytes)}
    (steps : Steps service (.call command next) start
      (front ++ ⟨.inr .readMessage, reply⟩ :: back) rest final)
    (another : command ≠ .inr .readMessage) :
    ∃ answer middle earlier, front = ⟨command, answer⟩ :: earlier ∧
      Steps service (next answer) middle (earlier ++ ⟨.inr .readMessage, reply⟩ :: back) rest final := by
  cases front with
  | nil =>
      obtain ⟨answer, middle, hevent, -, -⟩ := Steps.of_call steps
      injection hevent with hcommand
      exact absurd hcommand.symm another
  | cons event earlier =>
      obtain ⟨answer, middle, rfl, -, hsteps⟩ := Steps.of_call steps
      exact ⟨answer, middle, earlier, rfl, hsteps⟩

/-- After a refused route there is no read. -/
theorem not_steps_abort {reply : Except String (MessageKind × Bytes)}
    (steps : Steps service (.call (.inr (.abort 400)) fun _ => (.ret false : Gateway Bool)) start
      (front ++ ⟨.inr .readMessage, reply⟩ :: back) rest final) : False := by
  obtain ⟨_, _, _, -, hsteps⟩ := steps_before_read steps (by simp)
  exact not_steps_ret hsteps

/-- A run that has read its first frame goes on with that frame. -/
theorem steps_of_first_read {reply : Except String (MessageKind × Bytes)}
    (steps : Steps service (rdpHandler cfg param) start
      (front ++ ⟨.inr .readMessage, reply⟩ :: back) rest final)
    (unread : ∀ event ∈ front, event.command ≠ .inr .readMessage) :
    ∃ id middle, parseInt param = some id ∧ front = openingCalls ∧
      Steps service (serveFrame cfg id reply >>= unlessRelaying .closeSocket) middle back rest
        final := by
  unfold rdpHandler at steps
  split at steps
  · exact (not_steps_abort steps).elim
  · next id hparam =>
      split at steps
      · exact (not_steps_abort steps).elim
      · obtain ⟨upgraded, first, afterUpgrade, rfl, hupgraded⟩ := steps_before_read steps (by simp)
        cases upgraded with
        | error err => exact (not_steps_ret hupgraded).elim
        | ok _ =>
            obtain ⟨_, second, afterLimit, rfl, hlimited⟩ := steps_before_read hupgraded (by simp)
            obtain ⟨_, third, afterTime, rfl, htimed⟩ := steps_before_read hlimited (by simp)
            cases afterTime with
            | nil =>
                obtain ⟨read, fourth, hevent, -, hread⟩ := Steps.of_call htimed
                injection hevent with _ hreply
                subst hreply
                exact ⟨id, fourth, hparam, rfl, hread⟩
            | cons event earlier =>
                obtain ⟨read, fourth, rfl, -, -⟩ := Steps.of_call htimed
                exact absurd rfl (unread ⟨.inr .readMessage, read⟩ (by simp))

/-- The frames differ in the destination at most. -/
def SameButDestination (asn1 : Asn1) (data other : Bytes) : Prop :=
  ∃ request destination, parseRDPRequest asn1 data = .accepted request ∧
    parseRDPRequest asn1 other = .accepted { request with destination := destination }

/-- The rest of the handler is the same program. -/
theorem serveFrame_sameButDestination {id : Int} {data replaced : Bytes}
    (same : SameButDestination cfg.asn1 data replaced) :
    serveFrame cfg id (.ok (.binary, replaced)) = serveFrame cfg id (.ok (.binary, data)) := by
  obtain ⟨request, destination, haccepted, hreplaced⟩ := same
  have hbinary : ¬ (MessageKind.binary ≠ MessageKind.binary) := not_not.mpr rfl
  rw [serveFrame, serveFrame, if_neg hbinary, if_neg hbinary, haccepted, hreplaced]
  rfl

/-- After accepted first frames that differ in the destination, both runs are in one program. -/
theorem same_program_of_first_reads {data replaced : Bytes} {front' back' : List (Event gatewayCalls)}
    (steps : Steps service (rdpHandler cfg param) start
      (front ++ ⟨.inr .readMessage, .ok (.binary, data)⟩ :: back) rest final)
    (rerun : Steps other (rdpHandler cfg param) begin
      (front' ++ ⟨.inr .readMessage, .ok (.binary, replaced)⟩ :: back') left last)
    (unread : ∀ event ∈ front, event.command ≠ .inr .readMessage)
    (unread' : ∀ event ∈ front', event.command ≠ .inr .readMessage)
    (same : SameButDestination cfg.asn1 data replaced) :
    front = front' ∧ ∃ (program : Gateway Bool) (middle : σ) (between : τ),
      Steps service program middle back rest final ∧ Steps other program between back' left last := by
  obtain ⟨id, middle, hparam, rfl, hsteps⟩ := steps_of_first_read steps unread
  obtain ⟨id', between, hparam', rfl, hrerun⟩ := steps_of_first_read rerun unread'
  obtain rfl : id = id' := Option.some.inj (hparam.symm.trans hparam')
  rw [serveFrame_sameButDestination same] at hrerun
  exact ⟨rfl, _, middle, between, hsteps, hrerun⟩

/-- The destination that the browser names makes no difference to anything. -/
theorem destination_ignored {data replaced : Bytes} {front' back' : List (Event gatewayCalls)}
    (steps : Steps service (rdpHandler cfg param) start
      (front ++ ⟨.inr .readMessage, .ok (.binary, data)⟩ :: back) rest final)
    (rerun : Steps other (rdpHandler cfg param) begin
      (front' ++ ⟨.inr .readMessage, .ok (.binary, replaced)⟩ :: back') left last)
    (unread : ∀ event ∈ front, event.command ≠ .inr .readMessage)
    (unread' : ∀ event ∈ front', event.command ≠ .inr .readMessage)
    (same : SameButDestination cfg.asn1 data replaced) (alike : AnsweredAlike back back') :
    front = front' ∧ (back <+: back' ∨ back' <+: back) ∧
      ∀ value result, rest = .ret value → left = .ret result → back = back' ∧ value = result := by
  obtain ⟨hfront, program, middle, between, hsteps, hrerun⟩ :=
    same_program_of_first_reads steps rerun unread unread' same
  refine ⟨hfront, ?_, ?_⟩
  · rcases Steps.of_answeredAlike hsteps hrerun alike with ⟨more, rfl, -⟩ | ⟨more, rfl, -⟩
    · exact Or.inl (List.prefix_append _ _)
    · exact Or.inr (List.prefix_append _ _)
  · rintro value result rfl rfl
    exact Executes.of_answeredAlike hsteps hrerun alike

end Runs

/-- The relay starts on a secured connection and copies in both directions. -/
theorem RdpRun.relayed {cfg : RdpConfig} {param : String} {table : ServersTable} {mayFail : Prop}
    {trusted : String → List Bytes → Bool} {events : List (Event gatewayCalls)}
    {actions : List RelayAction} {relay : Relay}
    (run : RdpRun (gateway mayFail trusted) cfg param (table, ()) events actions (some relay)) :
    Secured trusted events ∧ play Relay.step Relay.initial actions = some relay ∧
      relay.sent <+: relay.received.flatten ∧ relay.frames.flatten <+: relay.taken := by
  cases run with
  | relaying run relays =>
      have hsecured :=
        Executes.postcondition (rdpDiscipline cfg param table) _ run rdpHandler_keeps
      exact ⟨hsecured rfl, relays, relay_prefixes relays⟩

/--
A dial, and a handshake with its policy, comes only after an accepted first frame with a
valid token and after the record; until TLS is up the target gets the X.224 request at most
and gives a connection confirm at most; the relay starts with TLS up; and the destination of
the first frame makes no difference.
-/
theorem rdp_gateway_gated (cfg : RdpConfig) (param : String) (table : ServersTable)
    (trusted : String → List Bytes → Bool) :
    (∀ events rest final,
      Steps (gateway True trusted) (rdpHandler cfg param) (table, ()) events rest final →
        (∀ front back target reply, events = front ++ ⟨.inr (.dial target), reply⟩ :: back →
          ∃ request server, Admitted cfg param table front request server ∧
            target = address server) ∧
        (∀ front back policy reply, events = front ++ ⟨.inr (.handshake policy), reply⟩ :: back →
          ConnectionConfirm (rawTaken front) ∧
            ∃ request server, Admitted cfg param table front request server ∧
              rdpTLSConfig cfg.sha256 server = .ok policy) ∧
        Gated cfg param table events) ∧
    (∀ events actions relay,
      RdpRun (gateway True trusted) cfg param (table, ()) events actions (some relay) →
        Secured trusted events ∧ play Relay.step Relay.initial actions = some relay ∧
          relay.sent <+: relay.received.flatten ∧ relay.frames.flatten <+: relay.taken) ∧
    (∀ data replaced (front back front' back' : List (Event gatewayCalls)) rest left final last,
      Steps (gateway True trusted) (rdpHandler cfg param) (table, ())
        (front ++ ⟨.inr .readMessage, .ok (.binary, data)⟩ :: back) rest final →
      Steps (gateway True trusted) (rdpHandler cfg param) (table, ())
        (front' ++ ⟨.inr .readMessage, .ok (.binary, replaced)⟩ :: back') left last →
      (∀ event ∈ front, event.command ≠ .inr .readMessage) →
      (∀ event ∈ front', event.command ≠ .inr .readMessage) →
      SameButDestination cfg.asn1 data replaced → AnsweredAlike back back' →
        front = front' ∧ (back <+: back' ∨ back' <+: back) ∧
          ∀ value result, rest = .ret value → left = .ret result →
            back = back' ∧ value = result) := by
  refine ⟨fun events rest final steps => ⟨?_, ?_, gated_of_steps steps⟩,
    fun events actions relay run => run.relayed, ?_⟩
  · intro front back target reply place
    exact allowed_of_steps steps place
  · intro front back policy reply place
    exact allowed_of_steps steps place
  · intro data replaced front back front' back' rest left final last steps rerun unread unread'
      same alike
    exact destination_ignored steps rerun unread unread' same alike

/-! ### A desktop -/

/-- The DER encoding of a response. -/
def responseDer (r : RdpResponse) : Bytes :=
  derElement sequenceTag
    (derElement (explicitTag 0) (derElement integerTag (twosComplement 7 r.version)) ++
      derElement (explicitTag 6) (derElement octetStringTag r.x224) ++
      derElement (explicitTag 7)
        (derElement sequenceTag (r.certificates.flatMap (derElement octetStringTag))) ++
      derElement (explicitTag 9) (derElement utf8StringTag (bytesOf r.address)))

/-- One token is valid, for a day. -/
def openConfig : RdpConfig where
  jwtSecret := "key"
  asn1 := strictAsn1
  marshalResponse := some ∘ responseDer
  parseWithClaims := fun text keyFunc _ now =>
    match keyFunc ⟨"HS256", true⟩ with
    | .error err => .error err
    | .ok key =>
        if text = "token" ∧ key = "key" ∧ now < tokenLifetime then
          .ok ⟨some ⟨1, "admin", tokenLifetime, 0, issuer⟩, true⟩
        else .error "token is invalid"
  sha256 := id

theorem accepted_testRequest :
    parseRDPRequest strictAsn1 (requestDer testRequest) = .accepted testRequest := by
  apply (parseRDPRequest_accepted_iff strictAsn1_lawful (by decide) _).mpr
  exact ⟨rfl, rfl, by decide, by decide, by decide, 0, 19, 14, 0, 3, 0, 0, 0, [0, 0, 0, 0, 0],
    rfl, rfl, rfl, rfl⟩

theorem serveFrame_testRequest :
    serveFrame openConfig 1 (.ok (.binary, requestDer testRequest)) =
      serveRequest openConfig 1 testRequest := by
  rw [serveFrame, if_neg (by decide), show openConfig.asn1 = strictAsn1 from rfl,
    accepted_testRequest]

/-- A desktop at `10.0.0.7` without a pin. -/
def unpinnedRow : Row :=
  { Row.blank "" with
    id := 1, name := "unpinned", host := "10.0.0.7", port := 3389, username := "Administrator"
    authType := "password", protocol := "rdp" }

/-- A connection confirm for TLS with NLA. -/
def confirmHeader : Vector UInt8 4 := #v[3, 0, 0, 19]

def confirmRest : Vector UInt8 15 := #v[14, 0xd0, 0, 0, 0, 0, 0, 2, 0, 8, 0, 2, 0, 0, 0]

/-- The calls up to the dial. -/
def unpinnedFront : List (Event gatewayCalls) :=
  openingCalls ++
    [⟨.inr .readMessage, .ok (.binary, requestDer testRequest)⟩, ⟨.inr .now, (0 : Time)⟩,
      ⟨.inl (.selectServer getServerColumns 1),
        .ok (some (unpinnedRow.values getServerColumns))⟩]

/-- The negotiation and the answer to the browser. -/
def unpinnedBack : List (Event gatewayCalls) :=
  [⟨.inr (.setDeadline (some 15)), ()⟩, ⟨.inr (.rawWrite testRequest.x224), (19, none)⟩,
    ⟨.inr (.readFull 4), .ok confirmHeader⟩, ⟨.inr (.readFull 15), .ok confirmRest⟩,
    ⟨.inr (.handshake ⟨versionTLS12, "10.0.0.7", false, none⟩), .ok [[1]]⟩,
    ⟨.inr (.setDeadline none), ()⟩, ⟨.inr .remoteAddr, "10.0.0.7:3389"⟩,
    ⟨.inr (.write (responseDer ⟨3390, (confirmHeader ++ confirmRest).toList, [[1]], "10.0.0.7"⟩)),
      .ok ()⟩]

/-- The browser's frame is copied, the target's answer is on its way. -/
def unpinnedRelay : List RelayAction :=
  [.receive .binary [1, 2], .copied 2 true, .read [3] false, .written true, .read [4] false]

theorem relays_unpinned : ∃ relay,
    RdpRun (gateway True fun _ _ => true) openConfig "1"
      ((Table.empty 0).insert unpinnedRow, ())
      (unpinnedFront ++ ⟨.inr (.dial "10.0.0.7:3389"), .ok ()⟩ :: unpinnedBack) unpinnedRelay
      (some relay) ∧
    relay.sent = [1, 2] ∧ relay.frames = [[3]] ∧ relay.taken = [3, 4] := by
  let table : ServersTable := (Table.empty 0).insert unpinnedRow
  have hserve : Executes (gateway True fun _ _ => true)
      (serveRequest openConfig 1 testRequest >>= unlessRelaying .closeSocket) (table, ())
      (unpinnedFront.drop 4 ++ ⟨.inr (.dial "10.0.0.7:3389"), .ok ()⟩ :: unpinnedBack) true
      (table, ()) :=
    .call ⟨trivial, rfl⟩ (.call ⟨.inl ⟨"", rfl⟩, rfl⟩ (.call ⟨trivial, rfl⟩
      (.call ⟨trivial, rfl⟩ (.call ⟨⟨by decide, fun _ => rfl⟩, rfl⟩ (.call ⟨nofun, rfl⟩
        (.call ⟨nofun, rfl⟩ (.call ⟨fun _ _ => rfl, rfl⟩ (.call ⟨trivial, rfl⟩
          (.call ⟨trivial, rfl⟩ (.call ⟨trivial, rfl⟩ (.refl _ _)))))))))))
  rw [← serveFrame_testRequest] at hserve
  have hparam : parseInt "1" = some 1 := by decide
  have hrun : Executes (gateway True fun _ _ => true) (rdpHandler openConfig "1") (table, ())
      (unpinnedFront ++ ⟨.inr (.dial "10.0.0.7:3389"), .ok ()⟩ :: unpinnedBack) true
      (table, ()) := by
    rw [rdpHandler, hparam]
    exact .call ⟨trivial, rfl⟩
      (.call ⟨trivial, rfl⟩ (.call ⟨trivial, rfl⟩ (.call ⟨trivial, rfl⟩ hserve)))
  exact ⟨_, .relaying hrun rfl, rfl, rfl, rfl⟩

/-- The dial was admitted, TLS is up, and the relay copies both ways. -/
theorem rdp_gateway_gated_unpinned : ∃ relay,
    RdpRun (gateway True fun _ _ => true) openConfig "1"
      ((Table.empty 0).insert unpinnedRow, ())
      (unpinnedFront ++ ⟨.inr (.dial "10.0.0.7:3389"), .ok ()⟩ :: unpinnedBack) unpinnedRelay
      (some relay) ∧
    (∃ request server, Admitted openConfig "1" ((Table.empty 0).insert unpinnedRow) unpinnedFront
      request server ∧ "10.0.0.7:3389" = address server) ∧
    Gated openConfig "1" ((Table.empty 0).insert unpinnedRow)
      (unpinnedFront ++ ⟨.inr (.dial "10.0.0.7:3389"), .ok ()⟩ :: unpinnedBack) ∧
    Secured (fun _ _ => true)
      (unpinnedFront ++ ⟨.inr (.dial "10.0.0.7:3389"), .ok ()⟩ :: unpinnedBack) ∧
    [1, 2] <+: relay.received.flatten ∧ [3] <+: relay.taken := by
  obtain ⟨relay, hrun, hsent, hframes, -⟩ := relays_unpinned
  obtain ⟨rest, final, hsteps⟩ := hrun.steps
  obtain ⟨hcalls, hrelayed, -⟩ := rdp_gateway_gated openConfig "1"
    ((Table.empty 0).insert unpinnedRow) fun _ _ => true
  obtain ⟨hdials, -, hgated⟩ := hcalls _ _ _ hsteps
  obtain ⟨hsecured, -, hreceived, htaken⟩ := hrelayed _ _ _ hrun
  rw [hsent] at hreceived
  rw [hframes] at htaken
  exact ⟨relay, hrun, hdials _ _ _ _ rfl, hgated, hsecured, hreceived, htaken⟩

end OpsUp.Api
