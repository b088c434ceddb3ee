import OpsUp.Api.RequestRuns

/-!
# What a save leaves behind

A refused save leaves the table as it was.  A successful one adds or replaces a single
row, whose credentials come from the request, from the row before it or from the row it
copies.
-/

namespace OpsUp.Api

open OpsUp.Crypto OpsUp.Go OpsUp.Models OpsUp.Database OpsUp.Storage

/-- Every column but the key, the credentials and the times is the request's. -/
structure WrittenFrom (req : ServerCreateReq) (row : Row) : Prop where
  protocol : row.protocol = req.protocol
  rdpDomain : row.rdpDomain = req.rdpDomain
  rdpCertFingerprint : row.rdpCertFingerprint = req.rdpCertFingerprint
  name : row.name = req.name
  host : row.host = req.host
  port : row.port = req.port
  username : row.username = req.username
  authType : row.authType = req.authType
  hostKey : row.hostKey = req.hostKey
  description : row.description = some req.description
  groupName : row.groupName = some req.group
  jumpServerId : row.jumpServerId = req.jumpServerId

/-- The credentials of a saved row, given the values that were stored before. -/
structure CredentialsFrom (gcm : GCM) (encKey : String) (rand : Option Nonce)
    (table : ServersTable) (req : ServerCreateReq) (previousKey previousPassword : String)
    (row : Row) : Prop where
  rdp : req.protocol = "rdp" → row.privateKey = "" ∧ row.password = some ""
  otherKey : req.protocol = "ssh" → req.authType = "password" → row.privateKey = previousKey
  newPassword : req.protocol = "ssh" → req.authType = "password" → req.password ≠ "" →
    ∃ text, encrypt gcm rand (bytesOf req.password) encKey = .ok text ∧ row.password = some text
  keptPassword : req.protocol = "ssh" → req.authType = "password" → req.password = "" →
    row.password = some previousPassword
  otherPassword : req.protocol = "ssh" → req.authType = "key" →
    row.password = some previousPassword
  newKey : req.protocol = "ssh" → req.authType = "key" → req.privateKey ≠ "" →
    encrypt gcm rand (bytesOf req.privateKey) encKey = .ok row.privateKey
  copiedKey : req.protocol = "ssh" → req.authType = "key" → req.privateKey = "" →
    0 < req.copyKeyFrom →
    ∃ source, table.find req.copyKeyFrom = some source ∧ row.privateKey = source.privateKey
  keptKey : req.protocol = "ssh" → req.authType = "key" → req.privateKey = "" →
    req.copyKeyFrom ≤ 0 → row.privateKey = previousKey

/-- The creation has added `row`, under a key that was never handed out before. -/
structure AddsRow (gcm : GCM) (encKey : String) (rand : Option Nonce) (table : ServersTable)
    (body : Body) (req : ServerCreateReq) (row : Row) (after : ServersTable) : Prop where
  accepted : accepted body = .ok req
  rows : after.rows = table.rows ++ [row]
  fresh : table.sequence < row.id
  unused : ∀ other ∈ table.rows, other.id ≠ row.id
  written : WrittenFrom req row
  credentials : CredentialsFrom gcm encKey rand table req "" "" row

/-- The update has put `row` in the place of `old`, the row with the key of the path. -/
structure ReplacesRow (gcm : GCM) (encKey : String) (rand : Option Nonce) (table : ServersTable)
    (param : String) (body : Body) (req : ServerCreateReq) (old row : Row)
    (after : ServersTable) : Prop where
  accepted : accepted body = .ok req
  path : parseInt param = some row.id
  found : table.find row.id = some old
  rows : after.rows = table.rows.map fun stored => if stored.id = row.id then row else stored
  createdAt : row.createdAt = old.createdAt
  written : WrittenFrom req row
  credentials : ∃ password, old.password = some password ∧
    CredentialsFrom gcm encKey rand table req old.privateKey password row

variable {mayFail : Prop} {gcm : GCM} {encKey : String} {rand : Option Nonce}
  {table : ServersTable} {req : ServerCreateReq}

theorem encryptOrKeep_submitted {submitted stored text : String} (nonempty : submitted ≠ "")
    (ok : encryptOrKeep gcm encKey rand submitted stored = .ok text) :
    encrypt gcm rand (bytesOf submitted) encKey = .ok text := by
  unfold encryptOrKeep at ok
  rwa [if_pos nonempty] at ok

theorem encryptOrKeep_kept {submitted stored text : String} (empty : submitted = "")
    (ok : encryptOrKeep gcm encKey rand submitted stored = .ok text) : text = stored := by
  unfold encryptOrKeep at ok
  rw [if_neg (not_not.mpr empty)] at ok
  exact (Except.ok.inj ok).symm

/-- The key of a record that was read is the key of its row. -/
theorem find_of_readServer {id : Int} {server : Server}
    (read : readServer table id = .ok (some server)) :
    ∃ row, table.find id = some row ∧ row.privateKey = server.privateKey ∧
      row.password = some server.password := by
  unfold readServer at read
  cases hfind : table.find id with
  | none =>
      rw [hfind] at read
      cases read
  | some row =>
      rw [hfind] at read
      cases hscan : scanRow row with
      | error err =>
          simp only [hscan] at read
          cases read
      | ok scanned =>
          simp only [hscan] at read
          obtain rfl : scanned = server := Option.some.inj (Except.ok.inj read)
          obtain ⟨password, description, group, hpassword, -, -, rfl⟩ :=
            scanRow_eq_ok_iff.mp hscan
          exact ⟨row, rfl, rfl, hpassword⟩

/-- What `resolveCredentials` has decided, for the row that holds the decision. -/
theorem credentialsFrom_of_resolved {current : Option Server}
    {source : Except String (Option Server)} {credentials : String × String} {row : Row}
    (read : Reads mayFail table req.copyKeyFrom source)
    (resolved : resolveWith gcm encKey rand req current source = .ok credentials)
    (key : row.privateKey = credentials.1) (password : row.password = some credentials.2) :
    CredentialsFrom gcm encKey rand table req ((current.map Server.privateKey).getD "")
      ((current.map Server.password).getD "") row := by
  have notRDP : req.protocol = "ssh" → req.protocol ≠ "rdp" := by
    intro hssh
    rw [hssh]
    decide
  have notPassword : req.authType = "key" → req.authType ≠ "password" := by
    intro hauth
    rw [hauth]
    decide
  constructor
  case rdp =>
    intro hrdp
    obtain rfl := Except.ok.inj ((resolveWith_rdp hrdp).symm.trans resolved)
    exact ⟨key, password⟩
  case otherKey =>
    intro hssh hauth
    exact key.trans (resolveWith_password (notRDP hssh) hauth resolved).2.2
  case newPassword =>
    intro hssh hauth hsubmitted
    obtain ⟨hstored, -, -⟩ := resolveWith_password (notRDP hssh) hauth resolved
    exact ⟨_, encryptOrKeep_submitted hsubmitted hstored, password⟩
  case keptPassword =>
    intro hssh hauth hempty
    obtain ⟨hstored, -, -⟩ := resolveWith_password (notRDP hssh) hauth resolved
    rw [password, encryptOrKeep_kept hempty hstored]
  case otherPassword =>
    intro hssh hauth
    rw [password, (resolveWith_key (notRDP hssh) (notPassword hauth) resolved).2.1]
  case newKey =>
    intro hssh hauth hsubmitted
    obtain ⟨-, -, ⟨hempty, -⟩ | ⟨-, hstored⟩⟩ :=
      resolveWith_key (notRDP hssh) (notPassword hauth) resolved
    · exact absurd hempty hsubmitted
    · rw [key]
      exact encryptOrKeep_submitted hsubmitted hstored
  case copiedKey =>
    intro hssh hauth hempty hcopy
    obtain ⟨-, -, ⟨-, -, server, rfl, hcopied⟩ | ⟨huncopied, -⟩⟩ :=
      resolveWith_key (notRDP hssh) (notPassword hauth) resolved
    · obtain ⟨sourceRow, hfound, hkey, -⟩ := find_of_readServer read.of_ok
      exact ⟨sourceRow, hfound, key.trans (hcopied.trans hkey.symm)⟩
    · exact absurd ⟨hempty, hcopy⟩ huncopied
  case keptKey =>
    intro hssh hauth hempty huncopied
    obtain ⟨-, -, ⟨-, hcopy, -⟩ | ⟨-, hstored⟩⟩ :=
      resolveWith_key (notRDP hssh) (notPassword hauth) resolved
    · omega
    · exact key.trans (encryptOrKeep_kept hempty hstored)

theorem Response.IsError.status {response : Response} (failed : response.IsError) :
    400 ≤ response.status := by
  obtain ⟨status, text, hstatus, rfl⟩ := failed
  exact hstatus

theorem addsRow_of_saved {body : Body} {credentials : String × String} {now : String}
    (saved : SaveAccepted mayFail gcm encKey rand table body 0 none req credentials) :
    ∃ row, AddsRow gcm encKey rand table body req row
      (table.insert (overwrite (Row.blank now) (savedServer req 0 credentials))) := by
  obtain ⟨source, hread, hresolved⟩ := saved.resolved
  refine ⟨withId (table.sequence + 1)
    (overwrite (Row.blank now) (savedServer req 0 credentials)), ?_⟩
  constructor
  case accepted => exact saved.accepted
  case rows => rfl
  case fresh => exact Int.lt_succ table.sequence
  case unused =>
    intro other hother
    have hissued := table.issued other hother
    simp only [Row.rowId_eq] at hissued
    simp only [Row.withId_eq]
    omega
  case written => exact ⟨rfl, rfl, rfl, rfl, rfl, rfl, rfl, rfl, rfl, rfl, rfl, rfl⟩
  case credentials => exact credentialsFrom_of_resolved hread hresolved rfl rfl

theorem replacesRow_of_saved {param : String} {body : Body} {id : Int} {current : Server}
    {credentials : String × String} {now : String} (path : parseInt param = some id)
    (read : readServer table id = .ok (some current))
    (saved : SaveAccepted mayFail gcm encKey rand table body id (some current) req credentials) :
    ∃ old row, ReplacesRow gcm encKey rand table param body req old row
      (table.update id (updatedRow (savedServer req id credentials) now)) := by
  obtain ⟨source, hread, hresolved⟩ := saved.resolved
  obtain ⟨old, hfound, hkey, hpassword⟩ := find_of_readServer read
  refine ⟨old, withId id (updatedRow (savedServer req id credentials) now old), ?_⟩
  constructor
  case accepted => exact saved.accepted
  case path => exact path
  case found => exact hfound
  case rows => exact congrArg Table.rows (Table.update_const hfound _).symm
  case createdAt => rfl
  case written => exact ⟨rfl, rfl, rfl, rfl, rfl, rfl, rfl, rfl, rfl, rfl, rfl, rfl⟩
  case credentials =>
    refine ⟨current.password, hpassword, ?_⟩
    rw [hkey]
    exact credentialsFrom_of_resolved hread hresolved rfl rfl

/--
On every table, a creation or an update that answers with an error leaves the table as it
was; otherwise a creation adds one row and an update replaces the row of its path, which
was there.
-/
theorem save_touches_one_row (mayFail : Prop) (gcm : GCM) (encKey : String)
    (table : ServersTable) :
    (∀ body rand response after,
      Handles mayFail gcm encKey table (.create body rand) response after →
        (400 ≤ response.status → after = table) ∧
        (response.status < 400 → response.status = 201 ∧
          ∃ req row, AddsRow gcm encKey rand table body req row after)) ∧
    ∀ param body rand response after,
      Handles mayFail gcm encKey table (.update param body rand) response after →
        (400 ≤ response.status → after = table) ∧
        (response.status < 400 → response.status = 200 ∧
          ∃ req old row, ReplacesRow gcm encKey rand table param body req old row after) := by
  constructor
  · intro body rand response after handled
    rcases handles_create handled with ⟨herror, rfl⟩ | ⟨req, credentials, now, hsaved, rfl, rfl⟩
    · have hstatus := herror.status
      exact ⟨fun _ => rfl, fun hsuccess => by omega⟩
    · refine ⟨fun hfailed => ?_, fun _ => ⟨rfl, req, addsRow_of_saved hsaved⟩⟩
      exact absurd (show 400 ≤ 201 from hfailed) (by decide)
  · intro param body rand response after handled
    rcases handles_update handled with ⟨herror, rfl⟩ |
      ⟨req, id, current, credentials, now, hpath, -, hread, hsaved, rfl, rfl⟩
    · have hstatus := herror.status
      exact ⟨fun _ => rfl, fun hsuccess => by omega⟩
    · refine ⟨fun hfailed => ?_, fun _ => ⟨rfl, req, replacesRow_of_saved hpath hread hsaved⟩⟩
      exact absurd (show 400 ≤ 200 from hfailed) (by decide)

/-- An empty password keeps the stored one, which must not be empty. -/
theorem resolveWith_kept_password {current : Server} {source : Except String (Option Server)}
    (ssh : req.protocol ≠ "rdp") (auth : req.authType = "password") (kept : req.password = "")
    (stored : current.password ≠ "") :
    resolveWith gcm encKey rand req (some current) source =
      .ok (current.privateKey, current.password) := by
  unfold resolveWith passwordCredentials encryptOrKeep
  rw [if_neg ssh]
  dsimp only
  rw [if_pos auth, if_neg (not_not.mpr kept)]
  exact if_neg stored

/-- The gateway under another name, with its password kept. -/
def renamedRequest : ServerCreateReq := { gatewayRequest with name := "renamed", password := "" }

/-- A gateway is stored with its password, and a renaming replaces its row and keeps that. -/
theorem save_touches_one_row_renamed : ∃ secret created added updated renamed old row,
    encrypt tagGCM (some zeroNonce) (bytesOf "secret") legacyEncryptionKey = .ok secret ∧
    Handles False tagGCM legacyEncryptionKey (Table.empty 0)
      (.create (.ok gatewayRequest) (some zeroNonce)) created added ∧
    created.status = 201 ∧
    (∃ req first, AddsRow tagGCM legacyEncryptionKey (some zeroNonce) (Table.empty 0)
      (.ok gatewayRequest) req first added) ∧
    Handles False tagGCM legacyEncryptionKey added (.update "1" (.ok renamedRequest) none) updated
      renamed ∧
    updated.status = 200 ∧
    ReplacesRow tagGCM legacyEncryptionKey none added "1" (.ok renamedRequest) renamedRequest old
      row renamed ∧
    row.name = "renamed" ∧ row.password = some secret := by
  obtain ⟨secret, hsecret⟩ :=
    encrypt_ok_of_validKey tagGCM (bytesOf "secret") validKey_legacy zeroNonce
  let added := (Table.empty 0).insert (createdRow gatewayRequest secret)
  have unjumped : ∀ table id, JumpAccepted table gatewayRequest id := fun _ _ _ => nofun
  have hssh : gatewayRequest.protocol ≠ "rdp" := by decide
  have submitted : gatewayRequest.password ≠ "" := by decide
  have entering : accepted (.ok gatewayRequest) = .ok gatewayRequest := rfl
  have renames : accepted (.ok renamedRequest) = .ok renamedRequest := rfl
  have hcreated : Handles False tagGCM legacyEncryptionKey (Table.empty 0)
      (.create (.ok gatewayRequest) (some zeroNonce)) _ added :=
    handles_create_of_accepted entering (unjumped _ _)
      (resolveWith_submitted_password hssh rfl submitted hsecret) ""
  have found : ∃ current, readServer added 1 = .ok (some current) ∧ current.password = secret :=
    ⟨_, rfl, rfl⟩
  obtain ⟨current, read, hstored⟩ := found
  have kept : resolveWith tagGCM legacyEncryptionKey none renamedRequest (some current)
      (readServer added 0) = .ok (current.privateKey, current.password) :=
    resolveWith_kept_password hssh rfl rfl (hstored ▸ encrypt_ne_empty hsecret)
  have hupdated : Handles False tagGCM legacyEncryptionKey added
      (.update "1" (.ok renamedRequest) none) _ _ :=
    handles_update_of_accepted renames rfl (by decide) read (unjumped _ _) kept ""
  obtain ⟨-, hadds⟩ := (save_touches_one_row False tagGCM legacyEncryptionKey _).1 _ _ _ _ hcreated
  obtain ⟨-, hreplaces⟩ :=
    (save_touches_one_row False tagGCM legacyEncryptionKey added).2 _ _ _ _ _ hupdated
  obtain ⟨hstatus, hadded⟩ := hadds (show 201 < 400 by decide)
  obtain ⟨hanswered, req, old, row, hreplaced⟩ := hreplaces (show 200 < 400 by decide)
  obtain rfl : renamedRequest = req := Except.ok.inj (renames.symm.trans hreplaced.accepted)
  have hid : 1 = row.id := Option.some.inj (show some 1 = _ from hreplaced.path)
  have hold : some _ = some old := (show added.find 1 = _ from rfl).symm.trans (hid ▸ hreplaced.found)
  obtain ⟨password, hpassword, hcredentials⟩ := hreplaced.credentials
  refine ⟨secret, _, added, _, _, old, row, hsecret, hcreated, hstatus, hadded, hupdated, hanswered,
    hreplaced, hreplaced.written.name, ?_⟩
  rw [hcredentials.keptPassword rfl rfl rfl, ← hpassword, ← Option.some.inj hold]
  rfl

end OpsUp.Api
