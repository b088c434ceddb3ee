import OpsUp.Api.RdpHandler
import OpsUp.Api.RdpRelay
import OpsUp.Interaction.TwoRuns
import Mathlib.Data.List.Induction
import Mathlib.Tactic.IntervalCases

/-!
# What the RDP gateway lets through

Every call of the handler is allowed by the calls before it: the dial by an accepted first
frame with a valid token and a stored record, the handshake by a connection confirm.  The
destination that the browser names has no part in any of it.
-/

namespace OpsUp.Api

open OpsUp.Auth OpsUp.Database OpsUp.Go OpsUp.Interaction OpsUp.Models Program

/-! ## The answer of the target -/

/-- A connection confirm of 19 bytes that selects protocol 2 or 8. -/
def ConnectionConfirm (p : Bytes) : Prop :=
  ∃ a b c d e f selected : UInt8, (selected = 2 ∨ selected = 8) ∧
    p = [0x03, 0x00, 0x00, 0x13, 0x0e, 0xd0, a, b, c, d, e, 0x02, f, 0x08, 0x00, selected,
      0x00, 0x00, 0x00]

theorem toList_vector_fifteen (v : Vector UInt8 15) :
    v.toList = [v[0], v[1], v[2], v[3], v[4], v[5], v[6], v[7], v[8], v[9], v[10], v[11], v[12],
      v[13], v[14]] := by
  refine List.ext_getElem Vector.length_toList fun i h₁ h₂ => ?_
  have hi : i < 15 := h₂
  interval_cases i <;>
    simp only [Vector.getElem_toList, List.getElem_cons_succ, List.getElem_cons_zero]

/-- What the two checks of `negotiateRDP` let through. -/
theorem confirm_of_checks {header : Vector UInt8 4} {rest : Vector UInt8 15}
    (headed : ¬ invalidHeader header) (confirmed : ¬ invalidConfirm (header ++ rest)) :
    ConnectionConfirm (header ++ rest).toList := by
  have hlist : (header ++ rest).toList = header.toList ++ rest.toList := Vector.toList_append
  rw [hlist, toList_vector_four, toList_vector_fifteen]
  simp only [invalidHeader, toList_vector_four, not_or, Decidable.not_not, List.drop_succ_cons,
    List.drop_zero, bigEndianUint16, Option.some.injEq] at headed
  simp only [invalidConfirm, hlist, toList_vector_four, toList_vector_fifteen, not_or,
    Decidable.not_not, List.cons_append, List.nil_append, List.drop_succ_cons, List.drop_zero,
    littleEndianUint16, littleEndianUint32, Option.some.injEq] at confirmed
  obtain ⟨hzero, hone, hsize⟩ := headed
  obtain ⟨hfour, hfive, heleven, hlength, hselected⟩ := confirmed
  have four : rest[0] = 14 := by
    rw [← hfour, Vector.getElem_append, dif_neg (by decide)]
  have five : rest[1] = 0xd0 := by
    rw [← hfive, Vector.getElem_append, dif_neg (by decide)]
  have eleven : rest[7] = 2 := by
    rw [← heleven, Vector.getElem_append, dif_neg (by decide)]
  have byte {b : UInt8} {n : Nat} (hb : b.toNat = n) : b = UInt8.ofNat n := by
    rw [← hb, UInt8.ofNat_toNat]
  have two : header[2] = 0 := byte (show header[2].toNat = 0 by omega)
  have three : header[3] = 19 := byte (show header[3].toNat = 19 by omega)
  have thirteen : rest[9] = 8 := byte (show rest[9].toNat = 8 by omega)
  have fourteen : rest[10] = 0 := byte (show rest[10].toNat = 0 by omega)
  simp only [ne_eq, Option.some.injEq] at hselected
  have sixteen : rest[12] = 0 := byte (show rest[12].toNat = 0 by omega)
  have seventeen : rest[13] = 0 := byte (show rest[13].toNat = 0 by omega)
  have eighteen : rest[14] = 0 := byte (show rest[14].toNat = 0 by omega)
  have fifteen : rest[11] = 2 ∨ rest[11] = 8 := by
    by_cases htwo : rest[11].toNat = 2
    · exact Or.inl (byte htwo)
    · exact Or.inr (byte (show rest[11].toNat = 8 by omega))
  refine ⟨rest[2], rest[3], rest[4], rest[5], rest[6], rest[8], rest[11], fifteen, ?_⟩
  rw [hzero, hone, two, three, four, five, eleven, thirteen, fourteen, sixteen, seventeen, eighteen]
  rfl

/-! ## What a run has seen and sent -/

/-- The messages of the browser. -/
def messages (events : List (Event gatewayCalls)) : List (MessageKind × Bytes) :=
  events.filterMap fun
    | ⟨.inr .readMessage, .ok message⟩ => some message
    | _ => none

/-- What the target has got of the raw connection. -/
def rawSent (events : List (Event gatewayCalls)) : Bytes :=
  events.flatMap fun
    | ⟨.inr (.rawWrite data), (sent, _)⟩ => data.take sent
    | _ => []

/-- What has been read from the raw connection. -/
def rawTaken (events : List (Event gatewayCalls)) : Bytes :=
  events.flatMap fun
    | ⟨.inr (.readFull _), .ok bytes⟩ => bytes.toList
    | ⟨.inr (.readFull _), .error (part, _)⟩ => part
    | _ => []

section Seen

variable (front back : List (Event gatewayCalls))

@[simp]
theorem messages_append : messages (front ++ back) = messages front ++ messages back :=
  List.filterMap_append

@[simp]
theorem rawSent_append : rawSent (front ++ back) = rawSent front ++ rawSent back :=
  List.flatMap_append

@[simp]
theorem rawTaken_append : rawTaken (front ++ back) = rawTaken front ++ rawTaken back :=
  List.flatMap_append

end Seen

/-- The first frame is an accepted request with a valid token. -/
structure Authenticated (cfg : RdpConfig) (history : List (Event gatewayCalls))
    (request : RdpRequest) : Prop where
  frame : ∃ data, messages history = [(.binary, data)] ∧
    parseRDPRequest cfg.asn1 data = .accepted request
  token : ∃ now claims, ⟨.inr .now, now⟩ ∈ history ∧
    validateToken cfg.parseWithClaims request.proxyAuth cfg.jwtSecret now = .ok claims

/-- The route has a direct RDP record, besides. -/
structure Admitted (cfg : RdpConfig) (param : String) (table : ServersTable)
    (history : List (Event gatewayCalls)) (request : RdpRequest) (server : Server) : Prop
    extends Authenticated cfg history request where
  record : ∃ id, parseInt param = some id ∧ 0 < id ∧ readServer table id = .ok (some server)
  rdp : server.protocol = "rdp"
  direct : server.jumpServerId = none

/-- What must have happened before a call. -/
def Allowed (cfg : RdpConfig) (param : String) (table : ServersTable)
    (history : List (Event gatewayCalls)) : gatewayCalls.Command → Prop
  | .inr .readMessage => messages history = []
  | .inr (.dial target) =>
      ∃ request server, Admitted cfg param table history request server ∧ target = address server
  | .inr (.rawWrite data) => rawSent history = [] ∧
      ∃ request server, Admitted cfg param table history request server ∧ data = request.x224
  | .inr (.readFull n) => (rawTaken history).length + n ≤ 19
  | .inr (.handshake policy) => ConnectionConfirm (rawTaken history) ∧
      ∃ request server, Admitted cfg param table history request server ∧
        rdpTLSConfig cfg.sha256 server = .ok policy
  | _ => True

/-- TLS is up with a chain that the policy of the record accepts. -/
def Secured (trusted : String → List Bytes → Bool) (history : List (Event gatewayCalls)) : Prop :=
  ∃ policy chain, ⟨.inr (.handshake policy), .ok chain⟩ ∈ history ∧
    policy.accepts trusted chain = true

/-! ## The calls of the handler -/

section Rules

variable {cfg : RdpConfig} {param : String} {table : ServersTable} {mayFail : Prop}
  {trusted : String → List Bytes → Bool} {history : List (Event gatewayCalls)}
  {state : ServersTable × Unit} {request : RdpRequest} {server : Server}

/-- The stored servers, the browser and the target. -/
def gateway (mayFail : Prop) (trusted : String → List Bytes → Bool) :
    Service gatewayCalls (ServersTable × Unit) :=
  Service.sum (servers mayFail) (rdpPeers trusted)

/-- Alone, with every call allowed. -/
def rdpDiscipline (cfg : RdpConfig) (param : String) (table : ServersTable) :
    Discipline gatewayCalls (ServersTable × Unit) :=
  .alone fun history _ event _ => Allowed cfg param table history event.command

/-- The relay starts only on a secured connection. -/
def Relays (trusted : String → List Bytes → Bool) (relaying : Bool)
    (history : List (Event gatewayCalls)) (_ : ServersTable × Unit) : Prop :=
  relaying = true → Secured trusted history

theorem Authenticated.concat {event : Event gatewayCalls}
    (authenticated : Authenticated cfg history request) (quiet : messages [event] = []) :
    Authenticated cfg (history ++ [event]) request where
  frame := by
    obtain ⟨data, hmessages, haccepted⟩ := authenticated.frame
    refine ⟨data, ?_, haccepted⟩
    rw [messages_append, quiet, List.append_nil, hmessages]
  token := by
    obtain ⟨now, claims, hnow, hvalid⟩ := authenticated.token
    exact ⟨now, claims, List.mem_append_left _ hnow, hvalid⟩

theorem Admitted.concat {event : Event gatewayCalls}
    (admitted : Admitted cfg param table history request server) (quiet : messages [event] = []) :
    Admitted cfg param table (history ++ [event]) request server where
  toAuthenticated := admitted.toAuthenticated.concat quiet
  record := admitted.record
  rdp := admitted.rdp
  direct := admitted.direct

theorem fail_keeps (reason : String) :
    Keeps (gateway mayFail trusted) (rdpDiscipline cfg param table) (Relays trusted) (fail reason)
      history state := by
  refine keeps_alone_call fun reply after _ => ⟨trivial, keeps_alone_ret ?_⟩
  intro hrelaying
  cases hrelaying

/-- A close is allowed at any time. -/
theorem keeps_unlessRelaying {program : Gateway Bool} {close : RdpCall}
    (quiet : ∀ history, Allowed cfg param table history (.inr close))
    (kept : Keeps (gateway mayFail trusted) (rdpDiscipline cfg param table) (Relays trusted) program
      history state) :
    Keeps (gateway mayFail trusted) (rdpDiscipline cfg param table) (Relays trusted)
      (program >>= unlessRelaying close) history state := by
  refine Keeps.bind (kept.mono fun relaying events final hrelays => ?_)
  cases relaying with
  | true => exact keeps_alone_ret hrelays
  | false =>
      refine keeps_alone_call fun reply after _ => ⟨quiet events, keeps_alone_ret ?_⟩
      intro hrelaying
      cases hrelaying

theorem copyToRaw_keeps (admitted : Admitted cfg param table history request server)
    (unsent : rawSent history = []) (untaken : rawTaken history = []) :
    Keeps (gateway mayFail trusted) (rdpDiscipline cfg param table)
      (fun _ events _ => Admitted cfg param table events request server ∧ rawTaken events = [])
      (copyToRaw request.x224) history state := by
  unfold copyToRaw
  split
  · exact keeps_alone_ret ⟨admitted, untaken⟩
  · refine keeps_alone_call fun reply after _ => ⟨⟨unsent, request, server, admitted, rfl⟩, ?_⟩
    have hafter : Admitted cfg param table
        (history ++ [⟨.inr (.rawWrite request.x224), reply⟩]) request server :=
      admitted.concat rfl
    have htaken : rawTaken (history ++ [⟨.inr (.rawWrite request.x224), reply⟩]) = [] := by
      rw [rawTaken_append, untaken]
      rfl
    obtain ⟨sent, failure⟩ := reply
    cases failure with
    | some err => exact keeps_alone_ret ⟨hafter, htaken⟩
    | none =>
        dsimp only
        split
        · exact keeps_alone_ret ⟨hafter, htaken⟩
        · exact keeps_alone_ret ⟨hafter, htaken⟩

theorem Secured.concat (secured : Secured trusted history) (event : Event gatewayCalls) :
    Secured trusted (history ++ [event]) := by
  obtain ⟨policy, chain, hmem, haccepts⟩ := secured
  exact ⟨policy, chain, List.mem_append_left _ hmem, haccepts⟩

/-- What is promised of the negotiation. -/
def Negotiated (trusted : String → List Bytes → Bool) (result : Except String (List Bytes × Bytes))
    (history : List (Event gatewayCalls)) (_ : ServersTable × Unit) : Prop :=
  result.isOk = true → Secured trusted history

theorem negotiated_error {err : String} : Negotiated trusted (.error err) history state := by
  intro hok
  cases hok

/-- The handshake, once a connection confirm has been read. -/
theorem handshake_keeps {policy : TLSConfig} {response : Bytes}
    (admitted : Admitted cfg param table history request server)
    (sound : rdpTLSConfig cfg.sha256 server = .ok policy)
    (confirmed : ConnectionConfirm (rawTaken history)) :
    Keeps (gateway mayFail trusted) (rdpDiscipline cfg param table) (Negotiated trusted)
      (.call (.inr (.handshake policy)) fun
        | .error err => .ret (.error ("RDP TLS certificate or handshake failed: " ++ err))
        | .ok chain => .call (.inr (.setDeadline none)) fun _ => .ret (.ok (chain, response)))
      history state := by
  refine keeps_alone_call fun reply after answered =>
    ⟨⟨confirmed, request, server, admitted, sound⟩, ?_⟩
  cases reply with
  | error err => exact keeps_alone_ret negotiated_error
  | ok chain =>
      have hsecured : Secured trusted (history ++ [⟨.inr (.handshake policy), .ok chain⟩]) :=
        ⟨policy, chain, List.mem_append_right _ (List.mem_singleton_self _), answered.1 chain rfl⟩
      exact keeps_alone_call fun reply after _ =>
        ⟨trivial, keeps_alone_ret fun _ => hsecured.concat _⟩

/-- The rest of the response, after a header that announces a confirm. -/
theorem confirm_keeps {policy : TLSConfig} {header : Vector UInt8 4}
    (admitted : Admitted cfg param table history request server)
    (sound : rdpTLSConfig cfg.sha256 server = .ok policy) (headed : ¬ invalidHeader header)
    (taken : rawTaken history = header.toList) :
    Keeps (gateway mayFail trusted) (rdpDiscipline cfg param table) (Negotiated trusted)
      (.call (.inr (.readFull 15)) fun
        | .error (_, err) => .ret (.error err)
        | .ok rest =>
            if invalidConfirm (header ++ rest) then
              .ret (.error "server must support TLS with NLA")
            else
              .call (.inr (.handshake policy)) fun
                | .error err =>
                    .ret (.error ("RDP TLS certificate or handshake failed: " ++ err))
                | .ok chain =>
                    .call (.inr (.setDeadline none)) fun _ =>
                      .ret (.ok (chain, (header ++ rest).toList)))
      history state := by
  refine keeps_alone_call fun reply after _ => ⟨?_, ?_⟩
  · rw [Allowed, taken, Vector.length_toList]
  cases reply with
  | error failure => exact keeps_alone_ret negotiated_error
  | ok rest =>
      dsimp only
      split
      · exact keeps_alone_ret negotiated_error
      · next hconfirm =>
          refine handshake_keeps (admitted.concat rfl) sound ?_
          have hall : rawTaken (history ++ [⟨.inr (.readFull 15), .ok rest⟩]) =
              (header ++ rest).toList := by
            rw [rawTaken_append, taken, Vector.toList_append]
            exact congrArg _ (List.append_nil _)
          rw [hall]
          exact confirm_of_checks headed hconfirm

theorem negotiateRDP_keeps {policy : TLSConfig}
    (admitted : Admitted cfg param table history request server)
    (sound : rdpTLSConfig cfg.sha256 server = .ok policy)
    (unsent : rawSent history = []) (untaken : rawTaken history = []) :
    Keeps (gateway mayFail trusted) (rdpDiscipline cfg param table) (Negotiated trusted)
      (negotiateRDP request.x224 policy) history state := by
  refine keeps_alone_call fun reply after _ => ⟨trivial, Keeps.bind ?_⟩
  refine (copyToRaw_keeps (admitted.concat rfl) ?_ ?_).mono
    fun copied events state ⟨hadmitted, htaken⟩ => ?_
  · rw [rawSent_append, unsent]
    rfl
  · rw [rawTaken_append, untaken]
    rfl
  cases copied with
  | error err => exact keeps_alone_ret negotiated_error
  | ok _ =>
      refine keeps_alone_call fun reply after _ => ⟨?_, ?_⟩
      · rw [Allowed, htaken]
        decide
      cases reply with
      | error failure => exact keeps_alone_ret negotiated_error
      | ok header =>
          dsimp only
          split
          · exact keeps_alone_ret negotiated_error
          · next hheader =>
              refine confirm_keeps (hadmitted.concat rfl) sound hheader ?_
              rw [rawTaken_append, htaken]
              exact List.append_nil _

theorem answerBrowser_keeps {chain : List Bytes} {x224 : Bytes} (secured : Secured trusted history) :
    Keeps (gateway mayFail trusted) (rdpDiscipline cfg param table) (Relays trusted)
      (answerBrowser cfg chain x224) history state := by
  refine keeps_alone_call fun remote after _ => ⟨trivial, ?_⟩
  dsimp only
  split
  · refine keeps_alone_ret fun hrelaying => ?_
    cases hrelaying
  · refine keeps_alone_call fun reply after _ => ⟨trivial, ?_⟩
    cases reply with
    | error err =>
        refine keeps_alone_ret fun hrelaying => ?_
        cases hrelaying
    | ok _ => exact keeps_alone_ret fun _ => (secured.concat _).concat _

theorem serveTarget_keeps {policy : TLSConfig}
    (admitted : Admitted cfg param table history request server)
    (sound : rdpTLSConfig cfg.sha256 server = .ok policy)
    (unsent : rawSent history = []) (untaken : rawTaken history = []) :
    Keeps (gateway mayFail trusted) (rdpDiscipline cfg param table) (Relays trusted)
      (serveTarget cfg request.x224 policy) history state := by
  refine Keeps.bind ((negotiateRDP_keeps admitted sound unsent untaken).mono
    fun result events final hnegotiated => ?_)
  cases result with
  | error err => exact fail_keeps _
  | ok secured => exact keeps_unlessRelaying (fun _ => trivial) (answerBrowser_keeps (hnegotiated rfl))

theorem serveRecord_keeps {id : Int} {loaded : Except String (Option Server)}
    (authenticated : Authenticated cfg history request) (route : parseInt param = some id ∧ 0 < id)
    (reads : Reads mayFail table id loaded) (unsent : rawSent history = [])
    (untaken : rawTaken history = []) :
    Keeps (gateway mayFail trusted) (rdpDiscipline cfg param table) (Relays trusted)
      (serveRecord cfg request.x224 loaded) history state := by
  rcases loaded with err | _ | server
  · exact fail_keeps _
  · exact fail_keeps _
  · rw [serveRecord]
    split
    · exact fail_keeps _
    · next hkind =>
        split
        · exact fail_keeps _
        · next policy hpolicy =>
            rw [not_or, not_not, not_not] at hkind
            have hadmitted : Admitted cfg param table history request server :=
              ⟨authenticated, ⟨id, route.1, route.2, reads.of_ok⟩, hkind.1, hkind.2⟩
            refine keeps_alone_call fun reply after _ =>
              ⟨⟨request, server, hadmitted, rfl⟩, ?_⟩
            cases reply with
            | error err => exact fail_keeps _
            | ok _ =>
                refine keeps_unlessRelaying (fun _ => trivial)
                  (serveTarget_keeps (hadmitted.concat rfl) hpolicy ?_ ?_)
                · rw [rawSent_append, unsent]
                  rfl
                · rw [rawTaken_append, untaken]
                  rfl

/-- The query leaves the table as it is. -/
theorem keeps_getServer_inl {id : Int} {rest : Except String (Option Server) → Gateway Bool}
    (next : ∀ loaded, Reads mayFail state.1 id loaded → ∀ event : Event serversDB,
      Keeps (gateway mayFail trusted) (rdpDiscipline cfg param table) (Relays trusted)
        (rest loaded) (history ++ [event.inl]) state) :
    Keeps (gateway mayFail trusted) (rdpDiscipline cfg param table) (Relays trusted)
      ((getServer id).inl >>= rest) history state := by
  refine keeps_alone_call fun reply after answered => ⟨trivial, ?_⟩
  obtain ⟨hquery, hbeside⟩ := answered
  rcases hquery with ⟨now, hperform⟩ | ⟨hfail, ⟨err, rfl⟩, hsame⟩
  · obtain ⟨rfl, hsame⟩ := Prod.mk.inj hperform
    obtain rfl : after = state := Prod.ext hsame hbeside
    exact next _ (Or.inl (scanSelected_eq after.1 id)) ⟨_, _⟩
  · obtain rfl : after = state := Prod.ext hsame hbeside
    exact next (.error err) (Or.inr ⟨hfail, err, rfl⟩) ⟨.selectServer getServerColumns id, .error err⟩

theorem serveRequest_keeps {id : Int} {data : Bytes} (route : parseInt param = some id ∧ 0 < id)
    (same : state.1 = table) (frame : messages history = [(.binary, data)])
    (accepted : parseRDPRequest cfg.asn1 data = .accepted request)
    (unsent : rawSent history = []) (untaken : rawTaken history = []) :
    Keeps (gateway mayFail trusted) (rdpDiscipline cfg param table) (Relays trusted)
      (serveRequest cfg id request) history state := by
  refine keeps_alone_call fun now after answered => ⟨trivial, ?_⟩
  dsimp only
  split
  · exact fail_keeps _
  · next claims hvalid =>
      refine keeps_getServer_inl fun loaded hreads event => ?_
      rw [answered.2, same] at hreads
      refine serveRecord_keeps (Authenticated.concat ⟨⟨data, ?_, accepted⟩, now, claims, ?_, hvalid⟩ rfl)
        route hreads ?_ ?_
      · rw [messages_append, frame]
        rfl
      · exact List.mem_append_right _ (List.mem_singleton_self _)
      · rw [rawSent_append, rawSent_append, unsent]
        rfl
      · rw [rawTaken_append, rawTaken_append, untaken]
        rfl

theorem serveFrame_keeps {id : Int} {reply : Except String (MessageKind × Bytes)}
    (route : parseInt param = some id ∧ 0 < id) (same : state.1 = table)
    (frame : ∀ message, reply = .ok message → messages history = [message])
    (unsent : rawSent history = []) (untaken : rawTaken history = []) :
    Keeps (gateway mayFail trusted) (rdpDiscipline cfg param table) (Relays trusted)
      (serveFrame cfg id reply) history state := by
  rcases reply with err | ⟨kind, data⟩
  · exact fail_keeps _
  · rw [serveFrame]
    split
    · exact fail_keeps _
    · next hkind =>
        obtain rfl := not_not.mp hkind
        split
        · refine keeps_alone_ret fun hrelaying => ?_
          cases hrelaying
        · exact fail_keeps _
        · next request haccepted =>
            exact serveRequest_keeps route same (frame _ rfl) haccepted unsent untaken

/-- Every call of the handler is allowed, and the relay starts only on a secured connection. -/
theorem rdpHandler_keeps :
    Keeps (gateway mayFail trusted) (rdpDiscipline cfg param table) (Relays trusted)
      (rdpHandler cfg param) [] (table, ()) := by
  have hrefused : Keeps (gateway mayFail trusted) (rdpDiscipline cfg param table) (Relays trusted)
      (.call (.inr (.abort 400)) fun _ => .ret false) [] (table, ()) := by
    refine keeps_alone_call fun reply after _ => ⟨trivial, keeps_alone_ret fun hrelaying => ?_⟩
    cases hrelaying
  unfold rdpHandler
  split
  · exact hrefused
  · next id hparam =>
      split
      · exact hrefused
      · next hpositive =>
          refine keeps_alone_call fun reply upgraded hupgrade => ⟨trivial, ?_⟩
          cases reply with
          | error err =>
              refine keeps_alone_ret fun hrelaying => ?_
              cases hrelaying
          | ok _ =>
              refine keeps_unlessRelaying (fun _ => trivial) ?_
              refine keeps_alone_call fun _ limited hlimit => ⟨trivial, ?_⟩
              refine keeps_alone_call fun _ timed htime => ⟨trivial, ?_⟩
              refine keeps_alone_call fun reply read hread => ⟨rfl, ?_⟩
              refine serveFrame_keeps ⟨hparam, by omega⟩ ?_ ?_ rfl rfl
              · rw [hread.2, htime.2, hlimit.2, hupgrade.2]
              · rintro message rfl
                rfl

/-! ## Whole runs -/

variable {events front back : List (Event gatewayCalls)} {rest : Gateway Bool}
  {final : ServersTable × Unit}

/-- Each call of a run was allowed by what came before it. -/
theorem allowed_of_steps {event : Event gatewayCalls}
    (steps : Steps (gateway mayFail trusted) (rdpHandler cfg param) (table, ()) events rest final)
    (place : events = front ++ event :: back) : Allowed cfg param table front event.command := by
  obtain ⟨first, second, hallowed⟩ := steps.guarantee rdpHandler_keeps place
  exact hallowed

/-- What has been read and sent before TLS. -/
structure Gated (cfg : RdpConfig) (param : String) (table : ServersTable)
    (events : List (Event gatewayCalls)) : Prop where
  alone : (messages events).length ≤ 1
  taken : (rawTaken events).length ≤ 19
  sent : rawSent events = [] ∨ ∃ request server,
    Admitted cfg param table events request server ∧ rawSent events <+: request.x224

theorem gated_nil : Gated cfg param table [] := ⟨Nat.zero_le _, Nat.zero_le _, Or.inl rfl⟩

/-- An event that is no message of the browser leaves what has been sent as it was. -/
theorem Gated.sent_of_quiet {event : Event gatewayCalls} (gated : Gated cfg param table history)
    (unread : messages [event] = []) (unsent : rawSent [event] = []) :
    rawSent (history ++ [event]) = [] ∨ ∃ request server,
      Admitted cfg param table (history ++ [event]) request server ∧
        rawSent (history ++ [event]) <+: request.x224 := by
  rw [rawSent_append, unsent, List.append_nil]
  rcases gated.sent with hnone | ⟨request, server, hadmitted, hprefix⟩
  · exact Or.inl hnone
  · exact Or.inr ⟨request, server, hadmitted.concat unread, hprefix⟩

/-- An event that reads and writes nothing. -/
theorem Gated.quiet {event : Event gatewayCalls} (gated : Gated cfg param table history)
    (unread : messages [event] = []) (untaken : rawTaken [event] = [])
    (unsent : rawSent [event] = []) : Gated cfg param table (history ++ [event]) where
  alone := by
    rw [messages_append, unread, List.append_nil]
    exact gated.alone
  taken := by
    rw [rawTaken_append, untaken, List.append_nil]
    exact gated.taken
  sent := gated.sent_of_quiet unread unsent

/-- A first message: nothing has been sent before it. -/
theorem Gated.read (gated : Gated cfg param table history) (unread : messages history = [])
    (reply : Except String (MessageKind × Bytes)) :
    Gated cfg param table (history ++ [⟨.inr .readMessage, reply⟩]) where
  alone := by
    rw [messages_append, unread]
    cases reply with
    | error err => exact Nat.zero_le _
    | ok message => exact Nat.le_refl _
  taken := by
    rw [rawTaken_append]
    exact (congrArg List.length (List.append_nil _)).trans_le gated.taken
  sent := by
    left
    rw [rawSent_append]
    rcases gated.sent with hnone | ⟨request, server, hadmitted, -⟩
    · rw [hnone]
      rfl
    · obtain ⟨data, hmessages, -⟩ := hadmitted.frame
      rw [unread] at hmessages
      cases hmessages

theorem Gated.write (gated : Gated cfg param table history) (unsent : rawSent history = [])
    (admitted : Admitted cfg param table history request server)
    (reply : Nat × Option String) :
    Gated cfg param table (history ++ [⟨.inr (.rawWrite request.x224), reply⟩]) where
  alone := by
    rw [messages_append]
    exact (congrArg List.length (List.append_nil _)).trans_le gated.alone
  taken := by
    rw [rawTaken_append]
    exact (congrArg List.length (List.append_nil _)).trans_le gated.taken
  sent := by
    refine Or.inr ⟨request, server, admitted.concat rfl, ?_⟩
    rw [rawSent_append, unsent]
    change request.x224.take reply.1 ++ [] <+: request.x224
    rw [List.append_nil]
    exact List.take_prefix _ _

theorem Gated.take (gated : Gated cfg param table history) {n : Nat}
    {reply : Except (Bytes × String) (Vector UInt8 n)}
    (bound : (rawTaken history).length + n ≤ 19)
    (short : ∀ part err, reply = .error (part, err) → part.length < n) :
    Gated cfg param table (history ++ [⟨.inr (.readFull n), reply⟩]) where
  alone := by
    rw [messages_append]
    exact (congrArg List.length (List.append_nil _)).trans_le gated.alone
  taken := by
    rw [rawTaken_append, List.length_append]
    rcases reply with ⟨part, err⟩ | bytes
    · have hpart := short part err rfl
      change _ + (part ++ []).length ≤ 19
      rw [List.append_nil]
      omega
    · change _ + (bytes.toList ++ []).length ≤ 19
      rw [List.append_nil, Vector.length_toList]
      exact bound
  sent := gated.sent_of_quiet rfl rfl

theorem Gated.next {event : Event gatewayCalls} (gated : Gated cfg param table history)
    (allowed : Allowed cfg param table history event.command) {before after : ServersTable × Unit}
    (answered : gateway mayFail trusted before event.command event.reply after) :
    Gated cfg param table (history ++ [event]) := by
  obtain ⟨command, reply⟩ := event
  cases command with
  | inl query => exact gated.quiet rfl rfl rfl
  | inr call =>
      cases call with
      | readMessage => exact gated.read allowed reply
      | rawWrite data =>
          obtain ⟨hunsent, request, server, hadmitted, rfl⟩ := allowed
          exact gated.write hunsent hadmitted reply
      | readFull n => exact gated.take allowed answered.1
      | _ => exact gated.quiet rfl rfl rfl

/-- Every part of every run is gated. -/
theorem gated_of_steps
    (steps : Steps (gateway mayFail trusted) (rdpHandler cfg param) (table, ()) events rest final) :
    Gated cfg param table events := by
  have hfront : ∀ front back, events = front ++ back → Gated cfg param table front := by
    intro front
    induction front using List.reverseRecOn with
    | nil => exact fun _ _ => gated_nil
    | append_singleton history event ih =>
        intro back place
        rw [List.append_assoc, List.singleton_append] at place
        obtain ⟨before, after, hanswered⟩ :=
          steps.answered event (place ▸ List.mem_append_right _ List.mem_cons_self)
        exact (ih _ place).next (allowed_of_steps steps place) hanswered
  exact hfront events [] (List.append_nil _).symm

end Rules

end OpsUp.Api
