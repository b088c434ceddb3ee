import OpsUp.Api.RequestRuns

/-!
# Jump references

A save checks that the jump row exists and is not an RDP row.  Nothing checks the
reference again when the jump row itself is deleted or turned into an RDP row, so
references stay valid exactly as long as no request does that to a row that is in
use.
-/

namespace OpsUp.Api

open OpsUp.Crypto OpsUp.Go OpsUp.Interaction OpsUp.Models OpsUp.Database OpsUp.Storage

/-- Every jump of an SSH row names an existing row that is not an RDP row. -/
def JumpsValid (table : ServersTable) : Prop :=
  ∀ row ∈ table.rows, row.protocol = "ssh" → ∀ jumpId, row.jumpServerId = some jumpId →
    ∃ jump ∈ table.rows, jump.id = jumpId ∧ jump.protocol ≠ "rdp"

/-- Another SSH row names this id as its jump. -/
def JumpInUse (table : ServersTable) (id : Int) : Prop :=
  ∃ row ∈ table.rows, row.protocol = "ssh" ∧ row.jumpServerId = some id ∧ row.id ≠ id

/-- The request neither deletes nor turns into RDP a row that is in use as a jump. -/
def SparesJumps (table : ServersTable) : SaveRequest → Prop
  | .create _ _ => True
  | .update param body _ => ∀ id req, parseInt param = some id → accepted body = .ok req →
      req.protocol = "rdp" → ¬ JumpInUse table id
  | .delete param => ∀ id, parseInt param = some id → ¬ JumpInUse table id

/-- A jump that has been accepted is a row of the table. -/
theorem JumpAccepted.exists_row {table : ServersTable} {req : ServerCreateReq} {id jumpId : Int}
    (jump : JumpAccepted table req id) (named : req.jumpServerId = some jumpId) :
    jumpId ≠ id ∧ ∃ row ∈ table.rows, row.id = jumpId ∧ row.protocol ≠ "rdp" := by
  obtain ⟨hne, server, hread, hprotocol⟩ := jump jumpId named
  refine ⟨hne, ?_⟩
  unfold readServer at hread
  split at hread
  · cases hread
  · next row hfind =>
      refine ⟨row, Table.find_mem hfind, Table.find_rowId hfind, ?_⟩
      cases hscan : scanRow row with
      | error err => simp [hscan, Except.map] at hread
      | ok scanned =>
          simp only [hscan, Except.map, Except.ok.injEq, Option.some.injEq] at hread
          subst hread
          obtain ⟨password, description, group, -, -, -, rfl⟩ := scanRow_eq_ok_iff.mp hscan
          exact hprotocol

theorem jumpsValid_insert {table : ServersTable} {row : Row} (valid : JumpsValid table)
    (new : ∀ jumpId, row.jumpServerId = some jumpId →
      ∃ jump ∈ table.rows, jump.id = jumpId ∧ jump.protocol ≠ "rdp") :
    JumpsValid (table.insert row) := by
  intro stored hstored hssh jumpId hjump
  have found : ∃ jump ∈ table.rows, jump.id = jumpId ∧ jump.protocol ≠ "rdp" := by
    rcases Table.mem_insert_iff.mp hstored with hold | rfl
    · exact valid stored hold hssh jumpId hjump
    · exact new jumpId hjump
  obtain ⟨jump, hmem, hid, hprotocol⟩ := found
  exact ⟨jump, Table.mem_insert_iff.mpr (Or.inl hmem), hid, hprotocol⟩

/-- A row that is in use may be changed as long as it stays usable. -/
theorem jumpsValid_update {table : ServersTable} {id : Int} {change : Row → Row}
    (valid : JumpsValid table)
    (usable : ∀ row, (change row).protocol = "rdp" → ¬ JumpInUse table id)
    (new : ∀ row jumpId, (change row).jumpServerId = some jumpId → jumpId ≠ id ∧
      ∃ jump ∈ table.rows, jump.id = jumpId ∧ jump.protocol ≠ "rdp") :
    JumpsValid (table.update id change) := by
  intro stored hstored hssh jumpId hjump
  rcases Table.mem_update_iff.mp hstored with ⟨hold, hother⟩ | ⟨old, hfind, rfl⟩
  · obtain ⟨jump, hmem, hid, hprotocol⟩ := valid stored hold hssh jumpId hjump
    by_cases htarget : jumpId = id
    · subst htarget
      have hfind : table.find jumpId = some jump := Table.find_eq_some_iff.mpr ⟨hmem, hid⟩
      refine ⟨{ change jump with id := jumpId },
        Table.mem_update_iff.mpr (Or.inr ⟨jump, hfind, rfl⟩), rfl, ?_⟩
      exact fun hrdp => usable jump hrdp ⟨stored, hold, hssh, hjump, hother⟩
    · refine ⟨jump, Table.mem_update_iff.mpr (Or.inl ⟨hmem, ?_⟩), hid, hprotocol⟩
      rw [Row.rowId_eq, hid]
      exact htarget
  · obtain ⟨hne, jump, hmem, hid, hprotocol⟩ := new old jumpId hjump
    refine ⟨jump, Table.mem_update_iff.mpr (Or.inl ⟨hmem, ?_⟩), hid, hprotocol⟩
    rw [Row.rowId_eq, hid]
    exact hne

theorem jumpsValid_delete {table : ServersTable} {id : Int} (valid : JumpsValid table)
    (unused : ¬ JumpInUse table id) : JumpsValid (table.delete id) := by
  intro stored hstored hssh jumpId hjump
  obtain ⟨hold, hother⟩ := Table.mem_delete_iff.mp hstored
  obtain ⟨jump, hmem, hid, hprotocol⟩ := valid stored hold hssh jumpId hjump
  refine ⟨jump, Table.mem_delete_iff.mpr ⟨hmem, ?_⟩, hid, hprotocol⟩
  rw [Row.rowId_eq, hid]
  rintro rfl
  exact unused ⟨stored, hold, hssh, hjump, hother⟩

variable {mayFail : Prop} {gcm : GCM} {encKey : String}

/-- One request that spares the jumps in use keeps every reference valid. -/
theorem handles_jumpsValid {before after : ServersTable} {request : SaveRequest}
    {response : Response} (valid : JumpsValid before) (spares : SparesJumps before request)
    (handled : Handles mayFail gcm encKey before request response after) :
    JumpsValid after := by
  cases request with
  | create body rand =>
      rcases handles_create handled with ⟨-, rfl⟩ | ⟨req, credentials, now, hsave, -, rfl⟩
      · exact valid
      · exact jumpsValid_insert valid fun jumpId hjump => (hsave.jump.exists_row hjump).2
  | update param body rand =>
      rcases handles_update handled with
        ⟨-, rfl⟩ | ⟨req, id, current, credentials, now, hparam, -, -, hsave, -, rfl⟩
      · exact valid
      · refine jumpsValid_update valid ?_ ?_
        · exact fun row hrdp => spares id req hparam hsave.accepted hrdp
        · exact fun row jumpId hjump => hsave.jump.exists_row hjump
  | delete param =>
      rcases handles_delete handled with ⟨-, rfl⟩ | ⟨id, hparam, -, -, rfl⟩
      · exact valid
      · exact jumpsValid_delete valid (spares id hparam)

/--
From an empty table, references are valid in every state of every run whose
requests spare the jumps in use.
-/
theorem served_jumpsValid {sequence : Nat} {log : List Handled} {final : ServersTable}
    (served : Served mayFail gcm encKey (Table.empty sequence) log final)
    (spares : ∀ entry ∈ log, SparesJumps entry.before entry.request) : JumpsValid final := by
  refine served.invariant JumpsValid SparesJumps ?_ handles_jumpsValid spares
  intro row hrow
  cases hrow

/-- Deleting a row in use leaves a dangling reference. -/
theorem delete_breaks_jumps {table : ServersTable} {id : Int} (used : JumpInUse table id) :
    ¬ JumpsValid (table.delete id) := by
  intro valid
  obtain ⟨row, hmem, hssh, hjump, hother⟩ := used
  obtain ⟨jump, hfound, hid, -⟩ := valid row (Table.mem_delete_iff.mpr ⟨hmem, hother⟩) hssh id hjump
  exact (Table.mem_delete_iff.mp hfound).2 hid

/-- A row in use that becomes an RDP row is no jump any more. -/
theorem rdp_breaks_jumps {table : ServersTable} {id : Int} {change : Row → Row}
    (used : JumpInUse table id) (rdp : ∀ row, (change row).protocol = "rdp") :
    ¬ JumpsValid (table.update id change) := by
  intro valid
  obtain ⟨row, hmem, hssh, hjump, hother⟩ := used
  obtain ⟨jump, hfound, hid, hprotocol⟩ :=
    valid row (Table.mem_update_iff.mpr (Or.inl ⟨hmem, hother⟩)) hssh id hjump
  rcases Table.mem_update_iff.mp hfound with ⟨-, hne⟩ | ⟨old, -, rfl⟩
  · exact hne hid
  · exact hprotocol (rdp old)

/-- A server behind the first row of the table. -/
def behindGatewayRequest : ServerCreateReq :=
  { gatewayRequest with name := "behind", host := "10.0.0.2", jumpServerId := some 1 }

/-- The gateway is created, then a server behind it. -/
def behindGatewayRequests : List SaveRequest :=
  [.create (.ok gatewayRequest) (some zeroNonce),
    .create (.ok behindGatewayRequest) (some zeroNonce)]

theorem behindGateway_served : ∃ log table,
    Served False tagGCM legacyEncryptionKey (Table.empty 0) log table ∧
      log.map Handled.request = behindGatewayRequests ∧ JumpInUse table 1 := by
  obtain ⟨secret, hsecret⟩ :=
    encrypt_ok_of_validKey tagGCM (bytesOf "secret") validKey_legacy zeroNonce
  have unjumped : JumpAccepted (Table.empty 0) gatewayRequest 0 := by
    intro jumpId hjump
    cases hjump
  obtain ⟨first, hfirst⟩ := handles_create_gateway gatewayRequest _ hsecret rfl rfl rfl rfl unjumped
  have behind : JumpAccepted ((Table.empty 0).insert (createdRow gatewayRequest secret))
      behindGatewayRequest 0 := by
    intro jumpId hjump
    cases hjump
    have hprotocol : "ssh" ≠ "rdp" := by decide
    exact ⟨by decide, _, rfl, hprotocol⟩
  obtain ⟨second, hsecond⟩ :=
    handles_create_gateway behindGatewayRequest _ hsecret rfl rfl rfl rfl behind
  refine ⟨_, _, .step (.step .start hfirst) hsecond, rfl, ?_⟩
  have hother : (2 : Int) ≠ 1 := by decide
  exact ⟨_, Table.mem_insert_iff.mpr (Or.inr rfl), rfl, rfl, hother⟩

theorem served_jumpsValid_behindGateway : ∃ log table,
    Served False tagGCM legacyEncryptionKey (Table.empty 0) log table ∧
      JumpInUse table 1 ∧ JumpsValid table := by
  obtain ⟨log, table, hserved, hrequests, hused⟩ := behindGateway_served
  refine ⟨log, table, hserved, hused, served_jumpsValid hserved fun entry hentry => ?_⟩
  have hrequest := List.mem_map_of_mem (f := Handled.request) hentry
  rw [hrequests] at hrequest
  rcases List.mem_cons.mp hrequest with h | h
  · rw [h]; trivial
  · rw [List.mem_singleton.mp h]; trivial

/-- Deleting the gateway afterwards leaves the other server with a dangling jump. -/
theorem deleted_gateway_dangles : ∃ log table,
    Served False tagGCM legacyEncryptionKey (Table.empty 0) log table ∧
      log.map Handled.request = behindGatewayRequests ++ [.delete "1"] ∧
      ¬ JumpsValid table := by
  obtain ⟨log, table, hserved, hrequests, hused⟩ := behindGateway_served
  have hdeleted : Handles False tagGCM legacyEncryptionKey table (.delete "1")
      ⟨200, .message "deleted"⟩ (table.delete 1) :=
    ⟨_, .call (Or.inl ⟨"", rfl⟩) (.refl _ _)⟩
  refine ⟨_, _, hserved.step hdeleted, ?_, delete_breaks_jumps hused⟩
  rw [List.map_append, hrequests]
  rfl

end OpsUp.Api
