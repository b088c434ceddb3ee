import OpsUp.Database.Schema
import OpsUp.Interaction.RelyGuarantee

/-!
# Server records

Each model function issues one statement.  The columns of the statement, the
values of its placeholders and the fields it scans into are lists that correspond
by position.
-/

namespace OpsUp.Models

open OpsUp.Database OpsUp.Interaction OpsUp.Storage

structure Server where
  protocol : String
  rdpDomain : String
  rdpCertFingerprint : String
  id : Int
  name : String
  host : String
  port : Int
  username : String
  authType : String
  hostKey : String
  privateKey : String
  password : String
  description : String
  group : String
  jumpServerId : Option Int
  createdAt : String
  updatedAt : String
  deriving DecidableEq, Repr

/-- What the API shows of a server: everything but its credentials. -/
structure ServerListItem where
  protocol : String
  rdpDomain : String
  rdpCertFingerprint : String
  id : Int
  name : String
  host : String
  port : Int
  username : String
  authType : String
  hostKey : String
  description : String
  group : String
  jumpServerId : Option Int
  createdAt : String
  updatedAt : String
  deriving DecidableEq, Repr

def Server.toListItem (server : Server) : ServerListItem where
  protocol := server.protocol
  rdpDomain := server.rdpDomain
  rdpCertFingerprint := server.rdpCertFingerprint
  id := server.id
  name := server.name
  host := server.host
  port := server.port
  username := server.username
  authType := server.authType
  hostKey := server.hostKey
  description := server.description
  group := server.group
  jumpServerId := server.jumpServerId
  createdAt := server.createdAt
  updatedAt := server.updatedAt

/-! ## Statements -/

inductive Statement where
  /-- `SELECT columns FROM servers WHERE id = ?` -/
  | selectServer (columns : List Column) (id : Int)
  /-- `SELECT columns FROM servers ORDER BY group_name, name` -/
  | selectServers (columns : List Column)
  /-- `INSERT INTO servers (columns) VALUES (values)` -/
  | insertServer (columns : List Column) (values : List Value)
  /-- `UPDATE servers SET columns = values, updated_at = datetime('now') WHERE id = ?` -/
  | updateServer (columns : List Column) (values : List Value) (id : Int)
  /-- `DELETE FROM servers WHERE id = ?` -/
  | deleteServer (id : Int)

@[reducible]
def Statement.Answer : Statement → Type
  | .selectServer _ _ => Option (List Value)
  | .selectServers _ => List (List Value)
  | .insertServer _ _ => Int
  | .updateServer _ _ _ => Unit
  | .deleteServer _ => Unit

/-- Statements on the servers table; each answers or fails with an error text. -/
abbrev serversDB : Interface where
  Command := Statement
  Reply := fun statement => Except String statement.Answer

abbrev DB := Program serversDB

/-- `ORDER BY group_name, name`, with `NULL` first. -/
def listOrder (first second : Row) : Bool :=
  match first.groupName, second.groupName with
  | none, some _ => true
  | some _, none => false
  | none, none => decide (first.name ≤ second.name)
  | some left, some right =>
      decide (left < right) || (decide (left = right) && decide (first.name ≤ second.name))

def errConstraint : String := "constraint failed"

/-- What SQLite does with one statement at the time `now`. -/
def perform (now : String) (table : ServersTable) :
    (statement : Statement) → Except String statement.Answer × ServersTable
  | .selectServer columns id => (.ok ((table.find id).map fun row => row.values columns), table)
  | .selectServers columns =>
      (.ok ((table.rows.mergeSort listOrder).map fun row => row.values columns), table)
  | .insertServer columns values =>
      match (Row.blank now).assignAll columns values with
      | none => (.error errConstraint, table)
      | some row => (.ok (table.sequence + 1), table.insert row)
  | .updateServer columns values id =>
      match table.find id with
      | none => (.ok (), table)
      | some row =>
          match row.assignAll columns values with
          | none => (.error errConstraint, table)
          | some changed =>
              (.ok (), table.update id fun _ => { changed with updatedAt := now })
  | .deleteServer id => (.ok (), table.delete id)

/--
The database.  The clock is left open, and where statements may fail a failed one
changes nothing.
-/
def servers (mayFail : Prop) : Service serversDB ServersTable :=
  fun table statement reply after =>
    (∃ now, (reply, after) = perform now table statement) ∨
      (mayFail ∧ (∃ err, reply = .error err) ∧ after = table)

/-! ## Scanning -/

def errNull : String := "converting NULL to string is unsupported"

def scanText : Value → Except String String
  | .text value => .ok value
  | .integer value => .ok (toString value)
  | .null => .error errNull

def scanInteger : Value → Except String Int
  | .integer value => .ok value
  | .text _ => .error "converting text to int64: invalid syntax"
  | .null => .error "converting NULL to int64 is unsupported"

/-- Into a `*int64`: `NULL` becomes the nil pointer. -/
def scanNullableInteger : Value → Except String (Option Int)
  | .null => .ok none
  | .integer value => .ok (some value)
  | .text _ => .error "converting text to int64: invalid syntax"

def errScanCount : String := "sql: expected destination arguments in Scan"

/-! ## The model functions -/

def getServerColumns : List Column :=
  [.id, .name, .host, .port, .username, .authType, .hostKey, .privateKey, .password,
    .description, .groupName, .jumpServerId, .protocol, .rdpDomain, .rdpCertFingerprint,
    .createdAt, .updatedAt]

def scanServer : List Value → Except String Server
  | [id, name, host, port, username, authType, hostKey, privateKey, password, description,
      group, jumpServerId, protocol, rdpDomain, rdpCertFingerprint, createdAt, updatedAt] => do
      let id ← scanInteger id
      let name ← scanText name
      let host ← scanText host
      let port ← scanInteger port
      let username ← scanText username
      let authType ← scanText authType
      let hostKey ← scanText hostKey
      let privateKey ← scanText privateKey
      let password ← scanText password
      let description ← scanText description
      let group ← scanText group
      let jumpServerId ← scanNullableInteger jumpServerId
      let protocol ← scanText protocol
      let rdpDomain ← scanText rdpDomain
      let rdpCertFingerprint ← scanText rdpCertFingerprint
      let createdAt ← scanText createdAt
      let updatedAt ← scanText updatedAt
      .ok { protocol, rdpDomain, rdpCertFingerprint, id, name, host, port, username,
            authType, hostKey, privateKey, password, description, group, jumpServerId,
            createdAt, updatedAt }
  | _ => .error errScanCount

/-- `nil` without an error when there is no such row. -/
def scanSelected : Except String (Option (List Value)) → Except String (Option Server)
  | .error err => .error err
  | .ok none => .ok none
  | .ok (some values) => (scanServer values).map some

def getServer (id : Int) : DB (Except String (Option Server)) :=
  .call (.selectServer getServerColumns id) fun reply => .ret (scanSelected reply)

def listServersColumns : List Column :=
  [.id, .name, .host, .port, .username, .authType, .hostKey, .description, .groupName,
    .jumpServerId, .protocol, .rdpDomain, .rdpCertFingerprint, .createdAt, .updatedAt]

/-- The credentials are not selected and stay empty. -/
def scanListedServer : List Value → Except String Server
  | [id, name, host, port, username, authType, hostKey, description, group, jumpServerId,
      protocol, rdpDomain, rdpCertFingerprint, createdAt, updatedAt] => do
      let id ← scanInteger id
      let name ← scanText name
      let host ← scanText host
      let port ← scanInteger port
      let username ← scanText username
      let authType ← scanText authType
      let hostKey ← scanText hostKey
      let description ← scanText description
      let group ← scanText group
      let jumpServerId ← scanNullableInteger jumpServerId
      let protocol ← scanText protocol
      let rdpDomain ← scanText rdpDomain
      let rdpCertFingerprint ← scanText rdpCertFingerprint
      let createdAt ← scanText createdAt
      let updatedAt ← scanText updatedAt
      .ok { protocol, rdpDomain, rdpCertFingerprint, id, name, host, port, username,
            authType, hostKey, privateKey := "", password := "", description, group,
            jumpServerId, createdAt, updatedAt }
  | _ => .error errScanCount

/-- The rows are scanned one after the other; the first failure ends the listing. -/
def scanListedServers : List (List Value) → Except String (List Server)
  | [] => .ok []
  | values :: rest => do
      let server ← scanListedServer values
      let others ← scanListedServers rest
      .ok (server :: others)

def listServers : DB (Except String (List Server)) :=
  .call (.selectServers listServersColumns) fun
    | .error err => .ret (.error err)
    | .ok rows => .ret (scanListedServers rows)

/-- An empty protocol is stored as `ssh`. -/
def Server.withProtocol (server : Server) : Server :=
  if server.protocol = "" then { server with protocol := "ssh" } else server

def insertColumns : List Column :=
  [.name, .host, .port, .username, .authType, .hostKey, .privateKey, .password,
    .description, .groupName, .jumpServerId, .protocol, .rdpDomain, .rdpCertFingerprint]

def insertValues (s : Server) : List Value :=
  [.text s.name, .text s.host, .integer s.port, .text s.username, .text s.authType,
    .text s.hostKey, .text s.privateKey, .text s.password, .text s.description,
    .text s.group, .ofInteger? s.jumpServerId, .text s.protocol, .text s.rdpDomain,
    .text s.rdpCertFingerprint]

/-- On success the record carries its new id. -/
def createServer (server : Server) : DB (Except String Server) :=
  let s := server.withProtocol
  .call (.insertServer insertColumns (insertValues s)) fun
    | .error err => .ret (.error ("insert server: " ++ err))
    | .ok id => .ret (.ok { s with id := id })

def updateColumns : List Column :=
  [.name, .host, .port, .username, .authType, .hostKey, .privateKey, .password,
    .description, .groupName, .jumpServerId, .protocol, .rdpDomain, .rdpCertFingerprint]

def updateValues (s : Server) : List Value :=
  [.text s.name, .text s.host, .integer s.port, .text s.username, .text s.authType,
    .text s.hostKey, .text s.privateKey, .text s.password, .text s.description,
    .text s.group, .ofInteger? s.jumpServerId, .text s.protocol, .text s.rdpDomain,
    .text s.rdpCertFingerprint]

def updateServer (server : Server) : DB (Except String Server) :=
  let s := server.withProtocol
  .call (.updateServer updateColumns (updateValues s) s.id) fun
    | .error err => .ret (.error err)
    | .ok () => .ret (.ok s)

def deleteServer (id : Int) : DB (Except String Unit) :=
  .call (.deleteServer id) fun
    | .error err => .ret (.error err)
    | .ok () => .ret (.ok ())

/-! ## Rows and records -/

/-- The row with every column an `UPDATE` names taken from the record. -/
def overwrite (row : Row) (s : Server) : Row :=
  { row with
    name := s.name
    host := s.host
    port := s.port
    username := s.username
    authType := s.authType
    hostKey := s.hostKey
    privateKey := s.privateKey
    password := some s.password
    description := some s.description
    groupName := some s.group
    jumpServerId := s.jumpServerId
    protocol := s.protocol
    rdpDomain := s.rdpDomain
    rdpCertFingerprint := s.rdpCertFingerprint }

theorem assignAll_updateValues (row : Row) (s : Server) :
    row.assignAll updateColumns (updateValues s) = some (overwrite row s) := by
  cases hjump : s.jumpServerId <;>
    simp [updateColumns, updateValues, Row.assignAll, Row.assign, overwrite, hjump,
      Value.ofInteger?]

theorem assignAll_insertValues (row : Row) (s : Server) :
    row.assignAll insertColumns (insertValues s) = some (overwrite row s) :=
  assignAll_updateValues row s

/-- The record a row scans into, when no scanned column is `NULL`. -/
def ofRow (row : Row) (password description group : String) : Server where
  protocol := row.protocol
  rdpDomain := row.rdpDomain
  rdpCertFingerprint := row.rdpCertFingerprint
  id := row.id
  name := row.name
  host := row.host
  port := row.port
  username := row.username
  authType := row.authType
  hostKey := row.hostKey
  privateKey := row.privateKey
  password := password
  description := description
  group := group
  jumpServerId := row.jumpServerId
  createdAt := row.createdAt
  updatedAt := row.updatedAt

/-- Scanning a whole row: a `NULL` in a text column is an error. -/
def scanRow (row : Row) : Except String Server :=
  match row.password, row.description, row.groupName with
  | some password, some description, some group => .ok (ofRow row password description group)
  | _, _, _ => .error errNull

theorem scanServer_values (row : Row) : scanServer (row.values getServerColumns) = scanRow row := by
  unfold scanRow
  cases hpassword : row.password <;> cases hdescription : row.description <;>
    cases hgroup : row.groupName <;> cases hjump : row.jumpServerId <;>
    simp [getServerColumns, Row.values, Row.value, scanServer, hpassword, hdescription, hgroup,
      hjump, Value.ofText?, Value.ofInteger?, scanText, scanInteger, scanNullableInteger, ofRow,
      bind, Except.bind]

/-- A scanned record agrees with its row, column by column. -/
theorem scanRow_eq_ok_iff {row : Row} {server : Server} : scanRow row = .ok server ↔
    ∃ password description group, row.password = some password ∧
      row.description = some description ∧ row.groupName = some group ∧
      server = ofRow row password description group := by
  unfold scanRow
  cases row.password <;> cases row.description <;> cases row.groupName <;>
    simp [eq_comm]

/-! ## What each model function may do -/

/-- What reading the row with this id yields. -/
def readServer (table : ServersTable) (id : Int) : Except String (Option Server) :=
  match table.find id with
  | none => .ok none
  | some row => (scanRow row).map some

theorem scanSelected_eq (table : ServersTable) (id : Int) :
    scanSelected (.ok ((table.find id).map fun row => row.values getServerColumns)) =
      readServer table id := by
  unfold readServer
  cases table.find id with
  | none => rfl
  | some row => exact congrArg (Except.map some) (scanServer_values row)

/-- What `GetServer` may return. -/
def Reads (mayFail : Prop) (table : ServersTable) (id : Int)
    (result : Except String (Option Server)) : Prop :=
  result = readServer table id ∨ (mayFail ∧ ∃ err, result = .error err)

/-- A record that was returned was in the table. -/
theorem Reads.of_ok {mayFail : Prop} {table : ServersTable} {id : Int} {server : Option Server}
    (reads : Reads mayFail table id (.ok server)) : readServer table id = .ok server := by
  rcases reads with h | ⟨-, err, h⟩
  · exact h.symm
  · cases h

/-- What an `UPDATE` makes of a stored row. -/
def updatedRow (s : Server) (now : String) (row : Row) : Row :=
  { overwrite row s with updatedAt := now }

/-- What `UpdateServer` may return and leave behind. -/
def Updates (mayFail : Prop) (table : ServersTable) (server : Server)
    (result : Except String Server) (after : ServersTable) : Prop :=
  (result = .ok server.withProtocol ∧
    ∃ now, after = table.update server.id (updatedRow server.withProtocol now)) ∨
  (mayFail ∧ (∃ err, result = .error err) ∧ after = table)

/-- What `CreateServer` may return and leave behind. -/
def Creates (mayFail : Prop) (table : ServersTable) (server : Server)
    (result : Except String Server) (after : ServersTable) : Prop :=
  (result = .ok { server.withProtocol with id := table.sequence + 1 } ∧
    ∃ now, after = table.insert (overwrite (Row.blank now) server.withProtocol)) ∨
  (mayFail ∧ (∃ err, result = .error err) ∧ after = table)

/-- What `DeleteServer` may return and leave behind. -/
def Deletes (mayFail : Prop) (table : ServersTable) (id : Int)
    (result : Except String Unit) (after : ServersTable) : Prop :=
  (result = .ok () ∧ after = table.delete id) ∨
  (mayFail ∧ (∃ err, result = .error err) ∧ after = table)

theorem withProtocol_id (server : Server) : server.withProtocol.id = server.id := by
  unfold Server.withProtocol
  split <;> rfl

theorem withProtocol_of_ne {server : Server} (named : server.protocol ≠ "") :
    server.withProtocol = server := if_neg named

/-- The statement `UpdateServer` issues, on a table with or without the row. -/
theorem perform_update (now : String) (table : ServersTable) (s : Server) (id : Int) :
    perform now table (.updateServer updateColumns (updateValues s) id) =
      (.ok (), table.update id (updatedRow s now)) := by
  simp only [perform]
  cases hfind : table.find id with
  | none => rw [Table.update_absent hfind]
  | some row =>
      simp only [assignAll_updateValues]
      exact congrArg (Prod.mk _) (Table.update_const hfind (updatedRow s now))

section Rules

open Program

variable {α : Type} {mayFail : Prop} {discipline : Discipline serversDB ServersTable}
  {post : α → List (Event serversDB) → ServersTable → Prop}
  {history : List (Event serversDB)} {table : ServersTable}

theorem keeps_getServer {id : Int} {rest : Except String (Option Server) → DB α}
    (quiet : discipline.Quiet)
    (next : ∀ later, discipline.rely table later → ∀ result, Reads mayFail later id result →
      ∀ events, (rest result).Keeps (servers mayFail) discipline post events later) :
    (getServer id >>= rest).Keeps (servers mayFail) discipline post history table := by
  intro later hlater reply after answer
  rcases answer with ⟨now, hperform⟩ | ⟨hfail, ⟨err, rfl⟩, rfl⟩
  · obtain ⟨rfl, rfl⟩ := Prod.mk.inj hperform
    refine ⟨quiet _ _ _, next _ hlater _ ?_ _⟩
    exact Or.inl (scanSelected_eq after id)
  · exact ⟨quiet _ _ _, next _ hlater (.error err) (Or.inr ⟨hfail, err, rfl⟩) _⟩

theorem keeps_updateServer {server : Server} {rest : Except String Server → DB α}
    (next : ∀ later, discipline.rely table later → ∀ result after,
      Updates mayFail later server result after →
        (∀ event, discipline.guarantee history later event after) ∧
          ∀ events, (rest result).Keeps (servers mayFail) discipline post events after) :
    (updateServer server >>= rest).Keeps (servers mayFail) discipline post history table := by
  intro later hlater reply after answer
  rcases answer with ⟨now, hperform⟩ | ⟨hfail, ⟨err, rfl⟩, rfl⟩
  · rw [perform_update] at hperform
    obtain ⟨rfl, rfl⟩ := Prod.mk.inj hperform
    obtain ⟨hguarantee, hrest⟩ := next later hlater (.ok server.withProtocol) _
      (Or.inl ⟨rfl, now, rfl⟩)
    rw [withProtocol_id]
    exact ⟨hguarantee _, hrest _⟩
  · obtain ⟨hguarantee, hrest⟩ := next after hlater (.error err) after
      (Or.inr ⟨hfail, ⟨err, rfl⟩, rfl⟩)
    exact ⟨hguarantee _, hrest _⟩

theorem keeps_createServer {server : Server} {rest : Except String Server → DB α}
    (next : ∀ later, discipline.rely table later → ∀ result after,
      Creates mayFail later server result after →
        (∀ event, discipline.guarantee history later event after) ∧
          ∀ events, (rest result).Keeps (servers mayFail) discipline post events after) :
    (createServer server >>= rest).Keeps (servers mayFail) discipline post history table := by
  intro later hlater reply after answer
  rcases answer with ⟨now, hperform⟩ | ⟨hfail, ⟨err, rfl⟩, rfl⟩
  · simp only [perform, assignAll_insertValues, Prod.mk.injEq] at hperform
    obtain ⟨rfl, rfl⟩ := hperform
    obtain ⟨hguarantee, hrest⟩ := next later hlater _ _ (Or.inl ⟨rfl, now, rfl⟩)
    exact ⟨hguarantee _, hrest _⟩
  · obtain ⟨hguarantee, hrest⟩ := next after hlater (.error ("insert server: " ++ err)) after
      (Or.inr ⟨hfail, ⟨_, rfl⟩, rfl⟩)
    exact ⟨hguarantee _, hrest _⟩

theorem keeps_deleteServer {id : Int} {rest : Except String Unit → DB α}
    (next : ∀ later, discipline.rely table later → ∀ result after,
      Deletes mayFail later id result after →
        (∀ event, discipline.guarantee history later event after) ∧
          ∀ events, (rest result).Keeps (servers mayFail) discipline post events after) :
    (deleteServer id >>= rest).Keeps (servers mayFail) discipline post history table := by
  intro later hlater reply after answer
  rcases answer with ⟨now, hperform⟩ | ⟨hfail, ⟨err, rfl⟩, rfl⟩
  · obtain ⟨rfl, rfl⟩ := Prod.mk.inj hperform
    obtain ⟨hguarantee, hrest⟩ := next later hlater (.ok ()) _ (Or.inl ⟨rfl, rfl⟩)
    exact ⟨hguarantee _, hrest _⟩
  · obtain ⟨hguarantee, hrest⟩ := next after hlater (.error err) after
      (Or.inr ⟨hfail, ⟨err, rfl⟩, rfl⟩)
    exact ⟨hguarantee _, hrest _⟩

end Rules

end OpsUp.Models
