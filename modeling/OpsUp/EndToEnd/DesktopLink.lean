import OpsUp.Api.RdpRuns
import OpsUp.EndToEnd.FormSave
import OpsUp.Ui.RdpTabRuns

/-!
# From the frame to the desktop

The frame names a destination to its component, and the gateway never reads it: it dials the
row of its route.  Both follow the same record, so they name the same address.
-/

namespace OpsUp.EndToEnd

open OpsUp.Api OpsUp.Auth OpsUp.Database OpsUp.Go OpsUp.Interaction OpsUp.Models OpsUp.Storage
  OpsUp.Ui Program

/-- `client.ts` and `net.JoinHostPort` bracket the same hosts. -/
theorem destination_eq (record : ServerListItem) :
    RdpClient.destination record = joinHostPort record.host (itoa record.port) := by
  unfold RdpClient.destination RdpClient.bracketed joinHostPort itoa
  split
  · have hcolon : "]:" = "]" ++ ":" := rfl
    simp only [hcolon, String.append_assoc]
  · rfl

/-- The route of a proxy address names one record. -/
theorem id_of_route {origin param : String} {record : ServerListItem} {id : Int}
    (route : RdpClient.proxyAddress origin record = origin ++ "/api/rdp/" ++ param)
    (parsed : parseInt param = some id) : id = record.id := by
  have hparam : toString record.id = param := (String.append_right_inj _).mp route
  exact eq_of_parseInt_toString (hparam ▸ parsed)

section Gateway

variable {origin param : String} {server : ServerListItem} {isActive : Bool}
  {storage : Option String} {actions : List RdpTabAction} {s : RdpTab} {c : RdpClient}
  {config : Ui.RdpConfig} {cfg : Api.RdpConfig} {table : ServersTable} {mayFail : Prop}
  {trusted : String → List Bytes → Bool} {events front back : List (Event gatewayCalls)}
  {rest : Gateway Bool} {final : ServersTable × Unit} {target : String}
  {reply : gatewayCalls.Reply (.inr (.dial target))}

/-- The frame of a connection carries the token of its configuration. -/
def CarriesToken (cfg : Api.RdpConfig) (config : Ui.RdpConfig)
    (history : List (Event gatewayCalls)) : Prop :=
  ∀ data request, (.binary, data) ∈ messages history →
    parseRDPRequest cfg.asn1 data = .accepted request → request.proxyAuth = config.authToken

/--
When the gateway dials for a connection that some document of some tab has asked for, it dials
the row of a record that the tab was rendered with; while that row has the host and the port of the
record, it dials the destination that the configuration names.  The token of the configuration
was valid then, and the tab had it from the storage.
-/
theorem gateway_dials_shown
    (run : play (RdpTab.step origin) (RdpTab.initial server isActive storage) actions = some s)
    (document : c ∈ s.documents) (asked : .connect config ∈ c.calls)
    (route : config.proxyAddress = origin ++ "/api/rdp/" ++ param)
    (steps : Steps (gateway mayFail trusted) (rdpHandler cfg param) (table, ()) events rest final)
    (carried : CarriesToken cfg config events)
    (place : events = front ++ ⟨.inr (.dial target), reply⟩ :: back) :
    ∃ record row, RdpTab.Rendered server actions record ∧ c.server = some record ∧
      readServer table record.id = .ok (some row) ∧ row.protocol = "rdp" ∧
      row.jumpServerId = none ∧ target = address row ∧
      (row.host = record.host → row.port = record.port → target = config.destination) ∧
      RdpTab.Stored storage actions config.authToken ∧
      ∃ now claims, ⟨.inr .now, now⟩ ∈ front ∧
        validateToken cfg.parseWithClaims config.authToken cfg.jwtSecret now = .ok claims := by
  obtain ⟨⟨record, hserver, hrendered, hdestination, hproxy⟩, htoken, -⟩ :=
    RdpTab.attributed_of_run run document asked
  obtain ⟨request, row, hadmitted, rfl⟩ := allowed_of_steps steps place
  obtain ⟨id, hparsed, -, hread⟩ := hadmitted.record
  obtain ⟨data, hmessages, haccepted⟩ := hadmitted.frame
  obtain ⟨now, claims, hnow, hvalid⟩ := hadmitted.token
  obtain rfl := id_of_route (hproxy ▸ route) hparsed
  have hframe : (.binary, data) ∈ messages events := by
    rw [place, messages_append, hmessages]
    exact List.mem_append_left _ List.mem_cons_self
  have hcarried := carried data request hframe haccepted
  have hnonempty : config.authToken ≠ "" := hcarried ▸ (checks_of_accepted haccepted).2.1
  refine ⟨record, row, hrendered, hserver, hread, hadmitted.rdp, hadmitted.direct, rfl, ?_,
    htoken.resolve_left hnonempty, now, claims, hnow, hcarried ▸ hvalid⟩
  intro hhost hport
  rw [hdestination, destination_eq, ← hhost, ← hport]
  rfl

end Gateway

/-! ## A dial -/

def desktopFront : List (Event gatewayCalls) :=
  [⟨.inr .upgrade, .ok ()⟩, ⟨.inr (.setReadLimit (64 * 1024)), ()⟩,
    ⟨.inr (.setReadDeadline 10), ()⟩,
    ⟨.inr .readMessage, .ok (.binary, requestDer testRequest)⟩, ⟨.inr .now, (0 : Time)⟩,
    ⟨.inl (.selectServer getServerColumns 1), .ok (some (desktopRow.values getServerColumns))⟩]

theorem dials_desktop : ∃ rest final,
    Steps (gateway False fun _ _ => true) (rdpHandler openConfig "1")
      ((Table.empty 0).insert desktopRow, ())
      (desktopFront ++ [⟨.inr (.dial "10.0.0.7:3389"), .error "refused"⟩]) rest final := by
  have hparam : parseInt "1" = some 1 := by decide
  have hserve : ∃ rest final, Steps (gateway False fun _ _ => true)
      (serveRequest openConfig 1 testRequest >>= unlessRelaying .closeSocket)
      ((Table.empty 0).insert desktopRow, ())
      [⟨.inr .now, (0 : Time)⟩,
        ⟨.inl (.selectServer getServerColumns 1), .ok (some (desktopRow.values getServerColumns))⟩,
        ⟨.inr (.dial "10.0.0.7:3389"), .error "refused"⟩] rest final :=
    ⟨_, _, .call ⟨trivial, rfl⟩
      (.call ⟨.inl ⟨"", rfl⟩, rfl⟩ (.call ⟨trivial, rfl⟩ (.refl _ _)))⟩
  obtain ⟨rest, final, hsteps⟩ := hserve
  rw [← serveFrame_testRequest] at hsteps
  rw [rdpHandler, hparam]
  exact ⟨rest, final, .call ⟨trivial, rfl⟩
    (.call ⟨trivial, rfl⟩ (.call ⟨trivial, rfl⟩ (.call ⟨trivial, rfl⟩ hsteps)))⟩

theorem gateway_dials_shown_desktop : ∃ (s : RdpTab) (c : RdpClient) (config : Ui.RdpConfig),
    c ∈ s.documents ∧ .connect config ∈ c.calls ∧
      ∃ record row, RdpTab.Rendered RdpTab.desktopItem RdpTab.desktopActions record ∧
        c.server = some record ∧
        readServer ((Table.empty 0).insert desktopRow) record.id = .ok (some row) ∧
        row.protocol = "rdp" ∧ row.jumpServerId = none ∧ "10.0.0.7:3389" = address row ∧
        (row.host = record.host → row.port = record.port →
          "10.0.0.7:3389" = config.destination) ∧
        RdpTab.Stored (some "token") RdpTab.desktopActions config.authToken ∧
        ∃ now claims, ⟨.inr .now, now⟩ ∈ desktopFront ∧
          validateToken openConfig.parseWithClaims config.authToken openConfig.jwtSecret now =
            .ok claims := by
  have hrun : ∃ s c config, play (RdpTab.step "wss://ops")
      (RdpTab.initial RdpTab.desktopItem true (some "token")) RdpTab.desktopActions = some s ∧
      c ∈ s.documents ∧ .connect config ∈ c.calls ∧ config.authToken = "token" ∧
      config.proxyAddress = "wss://ops" ++ "/api/rdp/" ++ "1" :=
    ⟨_, _, _, rfl, List.mem_cons_self, List.mem_cons_self, rfl, by decide⟩
  obtain ⟨s, c, config, hplay, hdocument, hasked, htoken, hroute⟩ := hrun
  obtain ⟨rest, final, hsteps⟩ := dials_desktop
  refine ⟨s, c, config, hdocument, hasked,
    gateway_dials_shown hplay hdocument hasked hroute hsteps ?_ rfl⟩
  intro data request hmem haccepted
  obtain rfl : data = requestDer testRequest := (Prod.mk.inj (List.mem_singleton.mp hmem)).2
  obtain rfl := RdpParse.accepted.inj (haccepted.symm.trans accepted_testRequest)
  exact htoken.symm

end OpsUp.EndToEnd
