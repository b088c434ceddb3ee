import OpsUp.Storage.Table

/-!
# The servers table

A row has the columns of the migrated schema.  A column without `NOT NULL` is an
option.  Statements address columns by name and pass values by position, so a row
can also be read and written one named column at a time.
-/

namespace OpsUp.Database

open OpsUp.Storage

inductive Column where
  | id | name | host | port | username | privateKey | description | groupName
  | jumpServerId | createdAt | updatedAt | authType | password | hostKey
  | protocol | rdpDomain | rdpCertFingerprint
  deriving DecidableEq, Repr

/-- A value of a column as the driver hands it over. -/
inductive Value where
  | null
  | integer (value : Int)
  | text (value : String)
  deriving DecidableEq, Repr

def Value.ofText? : Option String → Value
  | none => .null
  | some value => .text value

def Value.ofInteger? : Option Int → Value
  | none => .null
  | some value => .integer value

structure Row where
  id : Int
  name : String
  host : String
  port : Int
  username : String
  privateKey : String
  description : Option String
  groupName : Option String
  jumpServerId : Option Int
  createdAt : String
  updatedAt : String
  authType : String
  password : Option String
  hostKey : String
  protocol : String
  rdpDomain : String
  rdpCertFingerprint : String
  deriving DecidableEq, Repr

instance : Keyed Row where
  rowId := Row.id
  withId := fun id row => { row with id := id }
  rowId_withId := fun _ _ => rfl
  withId_rowId := fun _ => rfl

abbrev ServersTable := Table Row

namespace Row

@[simp]
theorem rowId_eq (row : Row) : rowId row = row.id := rfl

@[simp]
theorem withId_eq (id : Int) (row : Row) : withId id row = { row with id := id } := rfl

/-- The columns an `INSERT` does not name take their declared defaults. -/
def blank (now : String) : Row where
  id := 0
  name := ""
  host := ""
  port := 22
  username := ""
  privateKey := ""
  description := some ""
  groupName := some ""
  jumpServerId := none
  createdAt := now
  updatedAt := now
  authType := "key"
  password := some ""
  hostKey := ""
  protocol := "ssh"
  rdpDomain := ""
  rdpCertFingerprint := ""

def value (row : Row) : Column → Value
  | .id => .integer row.id
  | .name => .text row.name
  | .host => .text row.host
  | .port => .integer row.port
  | .username => .text row.username
  | .privateKey => .text row.privateKey
  | .description => .ofText? row.description
  | .groupName => .ofText? row.groupName
  | .jumpServerId => .ofInteger? row.jumpServerId
  | .createdAt => .text row.createdAt
  | .updatedAt => .text row.updatedAt
  | .authType => .text row.authType
  | .password => .ofText? row.password
  | .hostKey => .text row.hostKey
  | .protocol => .text row.protocol
  | .rdpDomain => .text row.rdpDomain
  | .rdpCertFingerprint => .text row.rdpCertFingerprint

/-- `SELECT` the named columns, in that order. -/
def values (row : Row) (columns : List Column) : List Value := columns.map row.value

/-- Store one value; `none` is a violated `NOT NULL` or a value of another type. -/
def assign (row : Row) : Column → Value → Option Row
  | .name, .text value => some { row with name := value }
  | .host, .text value => some { row with host := value }
  | .port, .integer value => some { row with port := value }
  | .username, .text value => some { row with username := value }
  | .privateKey, .text value => some { row with privateKey := value }
  | .description, .text value => some { row with description := some value }
  | .description, .null => some { row with description := none }
  | .groupName, .text value => some { row with groupName := some value }
  | .groupName, .null => some { row with groupName := none }
  | .jumpServerId, .integer value => some { row with jumpServerId := some value }
  | .jumpServerId, .null => some { row with jumpServerId := none }
  | .authType, .text value => some { row with authType := value }
  | .password, .text value => some { row with password := some value }
  | .password, .null => some { row with password := none }
  | .hostKey, .text value => some { row with hostKey := value }
  | .protocol, .text value => some { row with protocol := value }
  | .rdpDomain, .text value => some { row with rdpDomain := value }
  | .rdpCertFingerprint, .text value => some { row with rdpCertFingerprint := value }
  | _, _ => none

/-- Store a list of values in the named columns, position by position. -/
def assignAll (row : Row) : List Column → List Value → Option Row
  | [], [] => some row
  | column :: columns, value :: values =>
      match row.assign column value with
      | none => none
      | some changed => changed.assignAll columns values
  | _, _ => none

end Row

end OpsUp.Database
