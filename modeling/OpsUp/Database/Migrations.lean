import OpsUp.Database.Schema
import OpsUp.Go.Strings
import OpsUp.Interaction.Program
import Mathlib.Data.List.Nodup

/-!
# The schema migrations

`migrate` brings a database of any earlier release to the current schema inside one
transaction.  A relation keeps the columns of the release that made it, so a row is
a list of cells beside a list of columns, not a record.
-/

namespace OpsUp.Database

open OpsUp.Go OpsUp.Interaction

/-! ## Relations of any release -/

/-- The storage classes of SQLite; a real is kept as its 64 bits. -/
inductive Cell where
  | null
  | integer (value : Int)
  | real (bits : UInt64)
  | text (value : String)
  | blob (value : Bytes)
  deriving DecidableEq

/-- What a row holds in a column that the insertion does not name. -/
inductive Default where
  | cell (value : Cell)
  /-- `datetime('now')` -/
  | now
  deriving DecidableEq

/-- A declared column; `default` is what its definition says a row holds otherwise. -/
structure ColumnDef where
  name : String
  definition : String
  default : Default
  deriving DecidableEq

structure Relation where
  columns : List ColumnDef
  rows : List (List Cell)
  distinct : (columns.map ColumnDef.name).Nodup
  shaped : ∀ row ∈ rows, row.length = columns.length

def Relation.names (relation : Relation) : List String := relation.columns.map ColumnDef.name

/-- The cell of a row in the column of that name. -/
def Relation.cell (relation : Relation) (row : List Cell) (name : String) : Option Cell :=
  row[relation.names.idxOf name]?

/-- `ALTER TABLE ADD COLUMN`: the column comes last, every row takes the default. -/
def Relation.addColumn (relation : Relation) (name definition : String) (default : Cell)
    (fresh : name ∉ relation.names) : Relation where
  columns := relation.columns ++ [⟨name, definition, .cell default⟩]
  rows := relation.rows.map fun row => row ++ [default]
  distinct := by
    rw [List.map_append, List.nodup_append]
    refine ⟨relation.distinct, List.nodup_singleton name, ?_⟩
    rintro old hold added hadded rfl
    obtain rfl := List.mem_singleton.mp hadded
    exact fresh hold
  shaped := by
    intro row hrow
    obtain ⟨old, hold, rfl⟩ := List.mem_map.mp hrow
    rw [List.length_append, List.length_append, relation.shaped old hold]
    rfl

/-- `CREATE TABLE`: no row yet. -/
def Relation.created (columns : List ColumnDef) (distinct : (columns.map ColumnDef.name).Nodup) :
    Relation where
  columns := columns
  rows := []
  distinct := distinct
  shaped := nofun

/-- The whole database: its `user_version` and its tables. -/
@[ext]
structure DatabaseFile where
  userVersion : Int
  tables : String → Option Relation

def DatabaseFile.setTable (db : DatabaseFile) (name : String) (relation : Relation) : DatabaseFile :=
  { db with tables := Function.update db.tables name (some relation) }

/-! ## Statements -/

/-- The rows of `PRAGMA table_info` up to the first that does not scan, and the error
that ended the delivery. -/
structure TableInfo where
  names : List (Except String String)
  ended : Option String

inductive SqlCommand where
  | begin
  /-- `PRAGMA user_version` -/
  | userVersion
  /-- `PRAGMA user_version = …` -/
  | setUserVersion (version : Nat)
  /-- `CREATE TABLE IF NOT EXISTS` -/
  | createTable (name : String) (columns : List ColumnDef)
  /-- `PRAGMA table_info(servers)` -/
  | tableInfo
  /-- `ALTER TABLE servers ADD COLUMN` -/
  | addColumn (name definition : String) (default : Cell)
  | commit
  | rollback

@[reducible]
def SqlCommand.Reply : SqlCommand → Type
  | .begin => Except String Unit
  | .userVersion => Except String Int
  | .setUserVersion _ => Except String Unit
  | .createTable _ _ => Except String Unit
  | .tableInfo => Except String TableInfo
  | .addColumn _ _ _ => Except String Unit
  | .commit => Except String Unit
  | .rollback => Unit

abbrev sql : Interface where
  Command := SqlCommand
  Reply := SqlCommand.Reply

abbrev Sql := Program sql

def exec (command : SqlCommand) : Sql command.Reply := .call command .ret

/-! ## The program -/

/-- An added column: its name, its definition and the default that says. -/
structure AddedColumn where
  name : String
  definition : String
  default : Cell

/-- The tables of `migrationsSQL`, in its order. -/
def usersColumns : List ColumnDef :=
  [⟨"id", "INTEGER PRIMARY KEY AUTOINCREMENT", .cell .null⟩,
    ⟨"username", "TEXT NOT NULL UNIQUE", .cell .null⟩,
    ⟨"password", "TEXT NOT NULL", .cell .null⟩,
    ⟨"created_at", "TEXT NOT NULL DEFAULT (datetime('now'))", .now⟩,
    ⟨"updated_at", "TEXT NOT NULL DEFAULT (datetime('now'))", .now⟩]

def serversColumns : List ColumnDef :=
  [⟨"id", "INTEGER PRIMARY KEY AUTOINCREMENT", .cell .null⟩,
    ⟨"name", "TEXT NOT NULL", .cell .null⟩,
    ⟨"host", "TEXT NOT NULL", .cell .null⟩,
    ⟨"port", "INTEGER NOT NULL DEFAULT 22", .cell (.integer 22)⟩,
    ⟨"username", "TEXT NOT NULL", .cell .null⟩,
    ⟨"private_key", "TEXT NOT NULL", .cell .null⟩,
    ⟨"description", "TEXT DEFAULT ''", .cell (.text "")⟩,
    ⟨"group_name", "TEXT DEFAULT ''", .cell (.text "")⟩,
    ⟨"jump_server_id", "INTEGER DEFAULT NULL", .cell .null⟩,
    ⟨"created_at", "TEXT NOT NULL DEFAULT (datetime('now'))", .now⟩,
    ⟨"updated_at", "TEXT NOT NULL DEFAULT (datetime('now'))", .now⟩]

def sessionsColumns : List ColumnDef :=
  [⟨"id", "INTEGER PRIMARY KEY AUTOINCREMENT", .cell .null⟩,
    ⟨"user_id", "INTEGER NOT NULL REFERENCES users(id)", .cell .null⟩,
    ⟨"server_id", "INTEGER NOT NULL REFERENCES servers(id)", .cell .null⟩,
    ⟨"started_at", "TEXT NOT NULL DEFAULT (datetime('now'))", .now⟩,
    ⟨"ended_at", "TEXT", .cell .null⟩,
    ⟨"client_ip", "TEXT", .cell .null⟩]

/-- The error of a statement, `none` when it succeeded. -/
def errorOf {α : Type} : Except String α → Option String
  | .ok _ => none
  | .error err => some err

/-- Go on only when no error has occurred. -/
def andThen (first second : Sql (Option String)) : Sql (Option String) := do
  match ← first with
  | some err => pure (some err)
  | none => second

def createTables : List (String × List ColumnDef) → Sql (Option String)
  | [] => pure none
  | (name, columns) :: rest =>
      andThen (errorOf <$> exec (.createTable name columns)) (createTables rest)

def migrationsSQL : List (String × List ColumnDef) :=
  [("users", usersColumns), ("servers", serversColumns), ("sessions", sessionsColumns)]

/-- The loop over `rows.Next`: whether the column has been seen. -/
def scanNames (name : String) : List (Except String String) → Bool → Except String Bool
  | [], found => .ok found
  | .error err :: _, _ => .error err
  | .ok column :: rest, found => scanNames name rest (found || column = name)

def addServerColumn (column : AddedColumn) : Sql (Option String) := do
  match ← exec .tableInfo with
  | .error err => pure (some err)
  | .ok info =>
      match scanNames column.name info.names false with
      | .error err => pure (some err)
      | .ok found =>
          match info.ended with
          | some err => pure (some err)
          | none =>
              if found then pure none
              else errorOf <$> exec (.addColumn column.name column.definition column.default)

def addServerColumns : List AddedColumn → Sql (Option String)
  | [] => pure none
  | column :: rest => andThen (addServerColumn column) (addServerColumns rest)

/-- The columns that the first migration adds where the unversioned release lacks them. -/
def legacyColumns : List AddedColumn :=
  [⟨"jump_server_id", "INTEGER DEFAULT NULL", .null⟩,
    ⟨"group_name", "TEXT DEFAULT ''", .text ""⟩,
    ⟨"auth_type", "TEXT NOT NULL DEFAULT 'key'", .text "key"⟩,
    ⟨"password", "TEXT DEFAULT ''", .text ""⟩]

def hostKeyColumn : AddedColumn := ⟨"host_key", "TEXT NOT NULL DEFAULT ''", .text ""⟩

def rdpColumns : List AddedColumn :=
  [⟨"protocol", "TEXT NOT NULL DEFAULT 'ssh'", .text "ssh"⟩,
    ⟨"rdp_domain", "TEXT NOT NULL DEFAULT ''", .text ""⟩,
    ⟨"rdp_cert_fingerprint", "TEXT NOT NULL DEFAULT ''", .text ""⟩]

def migrations : List (Sql (Option String)) :=
  [andThen (createTables migrationsSQL) (addServerColumns legacyColumns),
    addServerColumn hostKeyColumn,
    addServerColumns rdpColumns]

/-- How `migrate` ends; a negative version is an index out of range. -/
inductive Outcome where
  | done
  | failed (err : String)
  | panicked
  deriving DecidableEq

def errNewer (version supported : Int) : String :=
  "database version " ++ toString version ++ " is newer than supported version " ++
    toString supported

/-- The loop over the migrations that are left, the first of which has index `i`. -/
def runMigrations : Nat → List (Sql (Option String)) → Sql (Option String)
  | _, [] => pure none
  | i, migration :: rest => do
      match ← migration with
      | some err => pure (some ("migration " ++ toString (i + 1) ++ ": " ++ err))
      | none =>
          andThen (errorOf <$> exec (.setUserVersion (i + 1))) (runMigrations (i + 1) rest)

/-- From the query of the version to the commit. -/
def migrateWithin (migrations : List (Sql (Option String))) : Sql Outcome := do
  match ← exec .userVersion with
  | .error err => pure (.failed err)
  | .ok version =>
      if version > migrations.length then pure (.failed (errNewer version migrations.length))
      else if version < 0 then pure .panicked
      else
        match ← runMigrations version.toNat (migrations.drop version.toNat) with
        | some err => pure (.failed err)
        | none =>
            match ← exec .commit with
            | .error err => pure (.failed err)
            | .ok () => pure .done

/-- `migrate`, for a release with these migrations; the deferred rollback runs on
every path. -/
def migrate (migrations : List (Sql (Option String))) : Sql Outcome := do
  match ← exec .begin with
  | .error err => pure (.failed err)
  | .ok () => do
      let outcome ← migrateWithin migrations
      let _ ← exec .rollback
      pure outcome

/-! ## The database under a transaction -/

/-- The committed database, and the one the open transaction works on. -/
structure SqlState where
  committed : DatabaseFile
  working : Option DatabaseFile

def SqlState.idle (db : DatabaseFile) : SqlState := ⟨db, none⟩

/-- The database the statements of the connection see. -/
def SqlState.current (state : SqlState) : DatabaseFile := state.working.getD state.committed

/-- A statement that writes does so in the open transaction. -/
def SqlState.write (state : SqlState) (db : DatabaseFile) : SqlState :=
  match state.working with
  | none => ⟨db, none⟩
  | some _ => ⟨state.committed, some db⟩

/-- The delivery is complete, or it breaks off after some rows. -/
def Lists (names : List String) (info : TableInfo) : Prop :=
  info = ⟨names.map .ok, none⟩ ∨
  (∃ n err, info = ⟨(names.take n).map .ok, some err⟩) ∨
  ∃ n err, info = ⟨(names.take n).map .ok ++ [.error err], none⟩

/-- SQLite compares the names of columns without regard to case. -/
def SameName (first second : String) : Prop := toLower first = toLower second

instance (first second : String) : Decidable (SameName first second) := by
  unfold SameName
  infer_instance

/-- No column of the relation has the name. -/
def Relation.Free (relation : Relation) (name : String) : Prop :=
  ∀ other ∈ relation.names, ¬ SameName name other

theorem Relation.Free.fresh {relation : Relation} {name : String} (free : relation.Free name) :
    name ∉ relation.names :=
  fun hmem => free name hmem rfl

/-- `PRAGMA table_info` of a missing table lists nothing. -/
def DatabaseFile.serverNames (db : DatabaseFile) : List String :=
  match db.tables "servers" with
  | none => []
  | some relation => relation.names

/--
What the database may do.  Any statement may fail; a failed one changes nothing, and
a failed commit rolls back.
-/
def sqlite : Service sql SqlState
  | state, .begin, reply, after =>
      (reply = .ok () ∧ after = ⟨state.committed, some state.committed⟩) ∨
        ((∃ err, reply = .error err) ∧ after = state)
  | state, .userVersion, reply, after =>
      after = state ∧ (reply = .ok state.current.userVersion ∨ ∃ err, reply = .error err)
  | state, .setUserVersion version, reply, after =>
      (reply = .ok () ∧ after = state.write { state.current with userVersion := version }) ∨
        ((∃ err, reply = .error err) ∧ after = state)
  | state, .createTable name columns, reply, after =>
      (reply = .ok () ∧ ((∃ relation, state.current.tables name = some relation ∧ after = state) ∨
          ∃ distinct, state.current.tables name = none ∧
            after = state.write (state.current.setTable name (.created columns distinct)))) ∨
        ((∃ err, reply = .error err) ∧ after = state)
  | state, .tableInfo, reply, after =>
      after = state ∧ ((∃ info, reply = .ok info ∧ Lists state.current.serverNames info) ∨
        ∃ err, reply = .error err)
  | state, .addColumn name definition default, reply, after =>
      (∃ relation, ∃ free : relation.Free name, reply = .ok () ∧
          state.current.tables "servers" = some relation ∧
          after = state.write (state.current.setTable "servers"
            (relation.addColumn name definition default free.fresh))) ∨
        ((∃ err, reply = .error err) ∧ after = state)
  | state, .commit, reply, after =>
      (reply = .ok () ∧ after = .idle state.current) ∨
        ((∃ err, reply = .error err) ∧ after = .idle state.committed)
  | state, .rollback, _, after => after = .idle state.committed

end OpsUp.Database
