import OpsUp.Api.SaveRules

/-!
# Requests handled one after the other

Alone, a request either answers with an error and leaves the table as it was, or
performs exactly one write that the request and the table determine.  A run is a
sequence of handled requests.
-/

namespace OpsUp.Api

open OpsUp.Crypto OpsUp.Go OpsUp.Interaction OpsUp.Models OpsUp.Database OpsUp.Storage

/-- Handled alone on `table`, the request is answered and leaves `after`. -/
def Handles (mayFail : Prop) (gcm : GCM) (encKey : String) (table : ServersTable)
    (request : SaveRequest) (response : Response) (after : ServersTable) : Prop :=
  ∃ events, Program.Executes (servers mayFail) (request.handle gcm encKey) table events
    response after

/-- The save succeeded: what it read, decided and will write over `id`. -/
structure SaveAccepted (mayFail : Prop) (gcm : GCM) (encKey : String) (rand : Option Nonce)
    (table : ServersTable) (body : Body) (id : Int) (current : Option Server)
    (req : ServerCreateReq) (credentials : String × String) : Prop where
  accepted : accepted body = .ok req
  jump : JumpAccepted table req id
  resolved : ∃ source, Reads mayFail table req.copyKeyFrom source ∧
    resolveWith gcm encKey rand req current source = .ok credentials

def soloDiscipline : Discipline serversDB ServersTable := .alone fun _ _ _ _ => True

theorem soloDiscipline_quiet : soloDiscipline.Quiet := fun _ _ _ => trivial

variable {mayFail : Prop} {gcm : GCM} {encKey : String} {table after : ServersTable}
  {response : Response}

/-- A creation inserts the one accepted record, or changes nothing. -/
theorem handles_create {body : Body} {rand : Option Nonce}
    (handled : Handles mayFail gcm encKey table (.create body rand) response after) :
    (response.IsError ∧ after = table) ∨
      ∃ req credentials now,
        SaveAccepted mayFail gcm encKey rand table body 0 none req credentials ∧
        response = ⟨201, .server { (savedServer req 0 credentials).toListItem with
          id := table.sequence + 1 }⟩ ∧
        after = table.insert (overwrite (Row.blank now) (savedServer req 0 credentials)) := by
  obtain ⟨events, run⟩ := handled
  refine run.postcondition soloDiscipline
    (fun response _ after => (response.IsError ∧ after = table) ∨
      ∃ req credentials now,
        SaveAccepted mayFail gcm encKey rand table body 0 none req credentials ∧
        response = ⟨201, .server { (savedServer req 0 credentials).toListItem with
          id := table.sequence + 1 }⟩ ∧
        after = table.insert (overwrite (Row.blank now) (savedServer req 0 credentials))) ?_
  refine keeps_saveServer_create soloDiscipline_quiet ?_ ?_
  · exact fun later hlater response herror _ => Or.inl ⟨herror, hlater.symm⟩
  · rintro req hreq s₁ s₂ s₃ rfl rfl rfl hjump source hsource credentials hresolved now
    refine ⟨fun _ _ => trivial, ?_⟩
    rintro last rfl events
    exact Or.inr ⟨req, credentials, now, ⟨hreq, hjump, source, hsource, hresolved⟩, rfl, rfl⟩

/-- An update writes the one accepted record over the row it read, or changes nothing. -/
theorem handles_update {param : String} {body : Body} {rand : Option Nonce}
    (handled : Handles mayFail gcm encKey table (.update param body rand) response after) :
    (response.IsError ∧ after = table) ∨
      ∃ req id current credentials now, parseInt param = some id ∧ 0 < id ∧
        readServer table id = .ok (some current) ∧
        SaveAccepted mayFail gcm encKey rand table body id (some current) req credentials ∧
        response = ⟨200, .server (savedServer req id credentials).toListItem⟩ ∧
        after = table.update id (updatedRow (savedServer req id credentials) now) := by
  obtain ⟨events, run⟩ := handled
  refine run.postcondition soloDiscipline
    (fun response _ after => (response.IsError ∧ after = table) ∨
      ∃ req id current credentials now, parseInt param = some id ∧ 0 < id ∧
        readServer table id = .ok (some current) ∧
        SaveAccepted mayFail gcm encKey rand table body id (some current) req credentials ∧
        response = ⟨200, .server (savedServer req id credentials).toListItem⟩ ∧
        after = table.update id (updatedRow (savedServer req id credentials) now)) ?_
  refine keeps_saveServer_update soloDiscipline_quiet ?_ ?_
  · exact fun later hlater response herror _ => Or.inl ⟨herror, hlater.symm⟩
  · rintro req id hreq hparam hid s₁ s₂ s₃ s₄ rfl rfl rfl rfl current hcurrent hjump source
      hsource credentials hresolved now
    refine ⟨fun _ _ => trivial, ?_⟩
    rintro last rfl events
    exact Or.inr ⟨req, id, current, credentials, now, hparam, hid, hcurrent,
      ⟨hreq, hjump, source, hsource, hresolved⟩, rfl, rfl⟩

/-- A deletion removes the row of the path id, or changes nothing. -/
theorem handles_delete {param : String}
    (handled : Handles mayFail gcm encKey table (.delete param) response after) :
    (response.IsError ∧ after = table) ∨
      ∃ id, parseInt param = some id ∧ 0 < id ∧ response = ⟨200, .message "deleted"⟩ ∧
        after = table.delete id := by
  obtain ⟨events, run⟩ := handled
  refine run.postcondition soloDiscipline
    (fun response _ after => (response.IsError ∧ after = table) ∨
      ∃ id, parseInt param = some id ∧ 0 < id ∧ response = ⟨200, .message "deleted"⟩ ∧
        after = table.delete id) ?_
  refine keeps_deleteServerHandler soloDiscipline_quiet ?_ ?_
  · exact fun later hlater response herror _ => Or.inl ⟨herror, hlater.symm⟩
  · rintro id hparam hid later rfl
    refine ⟨fun _ _ => trivial, ?_⟩
    rintro last rfl events
    exact Or.inr ⟨id, hparam, hid, rfl, rfl⟩

/-! ## Requests that go through -/

section Through

open Program

/-- Reading a row is one statement that leaves the table as it is. -/
theorem getServer_reaches (table : ServersTable) (id : Int) :
    Reaches (servers mayFail) (getServer id) table (.ret (readServer table id)) table := by
  have selected : servers mayFail table (.selectServer getServerColumns id)
      (.ok ((table.find id).map fun row => row.values getServerColumns)) table :=
    Or.inl ⟨"", rfl⟩
  rw [← scanSelected_eq table id]
  exact Reaches.call selected

theorem checkJump_reaches {req : ServerCreateReq} {id : Int}
    (jump : JumpAccepted table req id) :
    Reaches (servers mayFail) (checkJump req id) table (.ret none) table := by
  unfold checkJump
  cases hjump : req.jumpServerId with
  | none => exact .refl _ _
  | some jumpId =>
      obtain ⟨hself, server, hread, hprotocol⟩ := jump jumpId hjump
      simp only [if_neg hself]
      refine .bind (getServer_reaches table jumpId) ?_
      simp only [hread, if_neg hprotocol]
      exact .refl _ _

theorem resolveCredentials_reaches {rand : Option Nonce} {req : ServerCreateReq}
    {current : Option Server} :
    Reaches (servers mayFail) (resolveCredentials gcm encKey rand req current) table
      (.ret (resolveWith gcm encKey rand req current (readServer table req.copyKeyFrom)))
      table := by
  unfold resolveCredentials resolveWith
  split
  · exact .refl _ _
  · dsimp only
    split
    · exact .refl _ _
    · split
      · refine .bind (getServer_reaches table req.copyKeyFrom) ?_
        rcases readServer table req.copyKeyFrom with err | _ | source
        · exact .refl _ _
        · exact .refl _ _
        · dsimp only
          split <;> exact .refl _ _
      · exact .refl _ _

/-- A save whose checks pass comes to its write without having changed the table. -/
theorem saveOver_reaches {rand : Option Nonce} {update : Bool} {req : ServerCreateReq} {id : Int}
    {current : Option Server} {credentials : String × String}
    (jump : JumpAccepted table req id)
    (resolved : resolveWith gcm encKey rand req current (readServer table req.copyKeyFrom) =
      .ok credentials) :
    Reaches (servers mayFail) (saveOver gcm encKey rand update req id current) table
      (writeServer update (savedServer req id credentials)) table := by
  refine .bind (checkJump_reaches jump) (.bind resolveCredentials_reaches ?_)
  rw [resolved]
  exact .refl _ _

theorem saveServer_create_reaches {rand : Option Nonce} {param : String} {body : Body}
    {req : ServerCreateReq} {credentials : String × String}
    (ok : accepted body = .ok req) (jump : JumpAccepted table req 0)
    (resolved : resolveWith gcm encKey rand req none (readServer table req.copyKeyFrom) =
      .ok credentials) :
    Reaches (servers mayFail) (saveServer gcm encKey rand false param body) table
      (writeServer false (savedServer req 0 credentials)) table := by
  unfold saveServer
  rw [ok]
  exact saveOver_reaches jump resolved

theorem saveServer_update_reaches {rand : Option Nonce} {param : String} {body : Body}
    {req : ServerCreateReq} {id : Int} {current : Server} {credentials : String × String}
    (ok : accepted body = .ok req) (path : parseInt param = some id) (positive : 0 < id)
    (read : readServer table id = .ok (some current)) (jump : JumpAccepted table req id)
    (resolved : resolveWith gcm encKey rand req (some current)
      (readServer table req.copyKeyFrom) = .ok credentials) :
    Reaches (servers mayFail) (saveServer gcm encKey rand true param body) table
      (writeServer true (savedServer req id credentials)) table := by
  unfold saveServer saveValidated
  simp only [ok, path, if_true, if_neg (Int.not_le.mpr positive)]
  refine .bind (getServer_reaches table id) ?_
  rw [read]
  exact saveOver_reaches jump resolved

theorem writeServer_create_reaches {server : Server} (named : server.protocol ≠ "")
    (now : String) :
    Reaches (servers mayFail) (writeServer false server) table
      (.ret ⟨201, .server { server.toListItem with id := table.sequence + 1 }⟩)
      (table.insert (overwrite (Row.blank now) server)) := by
  have inserted : servers mayFail table (.insertServer insertColumns (insertValues server))
      (.ok (table.sequence + 1)) (table.insert (overwrite (Row.blank now) server)) :=
    Or.inl ⟨now, by simp only [perform, assignAll_insertValues]⟩
  unfold writeServer createServer
  rw [withProtocol_of_ne named, if_neg (by decide)]
  exact .bind (Reaches.call (I := serversDB) inserted) (.refl _ _)

theorem writeServer_update_reaches {server : Server} (named : server.protocol ≠ "")
    (now : String) :
    Reaches (servers mayFail) (writeServer true server) table
      (.ret ⟨200, .server server.toListItem⟩) (table.update server.id (updatedRow server now)) := by
  have updated : servers mayFail table
      (.updateServer updateColumns (updateValues server) server.id) (.ok ())
      (table.update server.id (updatedRow server now)) :=
    Or.inl ⟨now, (perform_update now table server server.id).symm⟩
  unfold writeServer updateServer
  rw [withProtocol_of_ne named, if_pos rfl]
  exact .bind (Reaches.call (I := serversDB) updated) (.refl _ _)

/-- A creation whose checks pass stores its record, and answers with it. -/
theorem handles_create_of_accepted {rand : Option Nonce} {body : Body} {req : ServerCreateReq}
    {credentials : String × String} (ok : accepted body = .ok req)
    (jump : JumpAccepted table req 0)
    (resolved : resolveWith gcm encKey rand req none (readServer table req.copyKeyFrom) =
      .ok credentials) (now : String) :
    Handles mayFail gcm encKey table (.create body rand)
      ⟨201, .server { (savedServer req 0 credentials).toListItem with
        id := table.sequence + 1 }⟩
      (table.insert (overwrite (Row.blank now) (savedServer req 0 credentials))) := by
  have decided : Reaches (servers mayFail) (saveServer gcm encKey rand false "" body) table
      (writeServer false (savedServer req 0 credentials)) table :=
    saveServer_create_reaches ok jump resolved
  exact decided.trans (writeServer_create_reaches (protocol_ne_empty (accepted_ok ok)) now)

/-- An update whose checks pass writes its record over the row. -/
theorem handles_update_of_accepted {rand : Option Nonce} {param : String} {body : Body}
    {req : ServerCreateReq} {id : Int} {current : Server} {credentials : String × String}
    (ok : accepted body = .ok req) (path : parseInt param = some id) (positive : 0 < id)
    (read : readServer table id = .ok (some current)) (jump : JumpAccepted table req id)
    (resolved : resolveWith gcm encKey rand req (some current)
      (readServer table req.copyKeyFrom) = .ok credentials) (now : String) :
    Handles mayFail gcm encKey table (.update param body rand)
      ⟨200, .server (savedServer req id credentials).toListItem⟩
      (table.update id (updatedRow (savedServer req id credentials) now)) := by
  have decided : Reaches (servers mayFail) (saveServer gcm encKey rand true param body) table
      (writeServer true (savedServer req id credentials)) table :=
    saveServer_update_reaches ok path positive read jump resolved
  exact decided.trans (writeServer_update_reaches (protocol_ne_empty (accepted_ok ok)) now)

theorem handles_delete_of_positive {param : String} {id : Int} (path : parseInt param = some id)
    (positive : 0 < id) :
    Handles mayFail gcm encKey table (.delete param) ⟨200, .message "deleted"⟩
      (table.delete id) := by
  have deleted : servers mayFail table (.deleteServer id) (.ok ()) (table.delete id) :=
    Or.inl ⟨"", rfl⟩
  change Reaches (servers mayFail) (deleteServerHandler param) table _ _
  unfold deleteServerHandler
  simp only [path, if_neg (Int.not_le.mpr positive)]
  exact .bind (Reaches.call (I := serversDB) deleted) (.refl _ _)

end Through

/-- A gateway that is logged in to with a password. -/
def gatewayRequest : ServerCreateReq where
  protocol := "ssh"
  rdpDomain := ""
  rdpCertFingerprint := ""
  name := "gateway"
  host := "10.0.0.1"
  port := 22
  username := "root"
  authType := "password"
  hostKey := ""
  privateKey := ""
  password := "secret"
  copyKeyFrom := 0
  jumpServerId := none
  group := ""
  description := ""

/-- The row a password request creates. -/
def createdRow (req : ServerCreateReq) (secret : String) : Row :=
  overwrite (Row.blank "") (savedServer req 0 ("", secret))

/-- A request with the gateway's credentials stores its row. -/
theorem handles_create_gateway (req : ServerCreateReq) (table : ServersTable) {secret : String}
    (encrypted : encrypt tagGCM (some zeroNonce) (bytesOf "secret") legacyEncryptionKey =
      .ok secret)
    (ok : accepted (.ok req) = .ok req) (ssh : req.protocol = "ssh")
    (auth : req.authType = "password") (password : req.password = "secret")
    (jump : JumpAccepted table req 0) :
    ∃ response, Handles False tagGCM legacyEncryptionKey table
      (.create (.ok req) (some zeroNonce)) response (table.insert (createdRow req secret)) := by
  have resolved : resolveWith tagGCM legacyEncryptionKey (some zeroNonce) req none
      (readServer table req.copyKeyFrom) = .ok ("", secret) := by
    rw [← password] at encrypted
    refine resolveWith_submitted_password ?_ auth ?_ encrypted
    · rw [ssh]; decide
    · rw [password]; decide
  exact ⟨_, handles_create_of_accepted ok jump resolved ""⟩

/-! ## Runs -/

/-- One handled request with the table it found. -/
structure Handled where
  before : ServersTable
  request : SaveRequest
  response : Response

/-- The requests of `log` have been handled one after the other. -/
inductive Served (mayFail : Prop) (gcm : GCM) (encKey : String) (start : ServersTable) :
    List Handled → ServersTable → Prop where
  | start : Served mayFail gcm encKey start [] start
  | step {log : List Handled} {before after : ServersTable} {request : SaveRequest}
      {response : Response} (served : Served mayFail gcm encKey start log before)
      (handles : Handles mayFail gcm encKey before request response after) :
      Served mayFail gcm encKey start (log ++ [⟨before, request, response⟩]) after

/-- A property kept by every request that meets a condition holds after every run
whose requests all meet it. -/
theorem Served.invariant {start final : ServersTable} {log : List Handled}
    (invariant : ServersTable → Prop) (condition : ServersTable → SaveRequest → Prop)
    (initial : invariant start)
    (extend : ∀ {before request response after}, invariant before → condition before request →
      Handles mayFail gcm encKey before request response after → invariant after)
    (served : Served mayFail gcm encKey start log final)
    (meets : ∀ entry ∈ log, condition entry.before entry.request) : invariant final := by
  induction served with
  | start => exact initial
  | step served handles ih =>
      have hearlier := ih fun entry hentry => meets entry (List.mem_append_left _ hentry)
      have hnow := meets _ (List.mem_append_right _ (List.mem_singleton_self _))
      exact extend hearlier hnow handles

end OpsUp.Api
